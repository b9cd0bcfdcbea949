import AwfulChat.Library.Interleaving
import AwfulChat.Library.OrderedMap
import AwfulChat.MessageOrder
import AwfulChat.Storage.Blinding

/-!
# The at-rest sweep and live writes

`migrateAtRest` of `storage.ts` beside the writes of messages, rooms, phonebook
entries and watermarks. The sweep walks each store in key order: it reads a chunk in
one transaction, opens and seals outside, and writes back in a second one, where a row
that changed meanwhile is left alone. In a store whose primary key is blinded it looks
for the change under the old key and puts under the new one. Room writes delete the
old key themselves; `commitWatermark` and `putPhonebookEntry` only put under the new
one.

IVs are fresh, so one is named when its row is put.
-/

namespace AwfulChat.Storage

open Library MessageOrder Library.OrderedMap List Option Bool

set_option autoImplicit false

inductive AtRestStore where
  | messages
  | rooms
  | phonebook
  | watermarks
  deriving DecidableEq

/-- `keyPathChangedStores`: the stores whose primary key is a blinded field. -/
def AtRestStore.keyPathChanged : AtRestStore → Bool
  | .messages => false
  | _ => true

/-- `CHUNK`: rooms carry bytes. -/
def AtRestStore.chunkSize : AtRestStore → Nat
  | .rooms => 8
  | _ => 100

inductive AtRestValue (Content : Type) where
  | content (content : Content)
  | watermark (maxLamport : Int)

/-- A record as `inspectRow` finds it: it opens, opens to another sealed row, or does
not open. -/
inductive RowOpens where
  | whole
  | twiceSealed
  | foreign
  deriving DecidableEq

structure RowSeal where
  iv : Nat
  currentAad : Bool
  blinded : Bool
  opens : RowOpens

/-- A row: the value of its key path before blinding, what it holds and its seal, none
for plaintext. -/
structure AtRestRow (Content : Type) where
  name : Plain
  value : AtRestValue Content
  enc : Option RowSeal

structure AtRestDb (Content : Type) where
  rows : OrderedMap (AtRestStore × String) (AtRestRow Content)
  nextIv : Nat
  complete : Bool

/-- A chunk: its last key, whether it was cut at `CHUNK`, and what is still to do of it. -/
structure SweepChunk (Content : Type) where
  lastKey : Option String
  full : Bool
  items : List (String × AtRestRow Content)

inductive SweepPhase (Content : Type) where
  | scanning (stores : List AtRestStore) (lastKey : Option String)
  | sealing (store : AtRestStore) (rest : List AtRestStore) (chunk : SweepChunk Content)
  | writing (store : AtRestStore) (rest : List AtRestStore) (chunk : SweepChunk Content)
  | finished

inductive LiveWrite (Content : Type) where
  | putMessage (id : Plain) (content : Content)
  | deleteMessage (id : Plain)
  | putRoom (roomCode : Plain) (content : Content)
  | deleteRoom (roomCode : Plain)
  | putPhonebookEntry (peerId : Plain) (content : Content)
  | deletePhonebookEntry (peerId : Plain)
  | commitWatermark (id : Plain) (maxLamport : Int)
  | purgeUnreadable (id : Plain)

section Model

variable {Content : Type}

def AtRestValue.maxLamport : AtRestValue Content → Int
  | .content _ => 0
  | .watermark maxLamport => maxLamport

def AtRestRow.blinded (row : AtRestRow Content) : Bool := row.enc.any RowSeal.blinded

def AtRestRow.opens (row : AtRestRow Content) : RowOpens :=
  match row.enc with
  | none => .whole
  | some blob => blob.opens

def physicalKey (key : IndexKey) (store : AtRestStore) (name : Plain) (blinded : Bool) : String :=
  if store.keyPathChanged && blinded then name.blind key else name.value

def needsBlindingMigration (row : AtRestRow Content) : Bool :=
  match row.enc with
  | none => true
  | some blob => !blob.currentAad || !blob.blinded

def sameOnDisk (fresh before : AtRestRow Content) : Bool :=
  match fresh.enc, before.enc with
  | some left, some right => decide (left.iv = right.iv)
  | none, none => true
  | _, _ => false

def AtRestDb.putSealed (key : IndexKey) (db : AtRestDb Content) (store : AtRestStore)
    (name : Plain) (value : AtRestValue Content) : AtRestDb Content :=
  { db with
    rows := db.rows.set (store, physicalKey key store name true)
      ⟨name, value, some ⟨db.nextIv, true, true, .whole⟩⟩
    nextIv := db.nextIv + 1 }

def AtRestDb.deleteRow (db : AtRestDb Content) (store : AtRestStore) (name : String) :
    AtRestDb Content :=
  { db with rows := db.rows.delete (store, name) }

def keyLe (left right : String × AtRestRow Content) : Prop :=
  utf16Units left.1 ≤ utf16Units right.1

instance : DecidableRel (@keyLe Content) := fun left right =>
  inferInstanceAs (Decidable (utf16Units left.1 ≤ utf16Units right.1))

instance : Std.Total (@keyLe Content) := ⟨fun _ _ => le_total _ _⟩

instance : IsTrans (String × AtRestRow Content) keyLe := ⟨fun _ _ _ first second => le_trans first second⟩

def keyAfter (lastKey : Option String) (name : String) : Bool :=
  lastKey.all fun last => decide (utf16Units last < utf16Units name)

/-- The rows of a store after a key, in key order. -/
def cursorRows (db : AtRestDb Content) (store : AtRestStore) (lastKey : Option String) :
    List (String × AtRestRow Content) :=
  ((db.rows.entries.filter fun entry =>
    decide (entry.1.1 = store) && keyAfter lastKey entry.1.2).map fun entry =>
      (entry.1.2, entry.2)).insertionSort keyLe

def nextChunk (db : AtRestDb Content) (store : AtRestStore) (lastKey : Option String) :
    SweepChunk Content :=
  let items := (cursorRows db store lastKey).take store.chunkSize
  ⟨items.getLast?.map Prod.fst, decide (store.chunkSize ≤ items.length), items⟩

/-- What the sweep writes back: a row that opens and is behind, or one sealed twice. -/
def rewrites (row : AtRestRow Content) : Bool :=
  match row.opens with
  | .whole => needsBlindingMigration row
  | .twiceSealed => true
  | .foreign => false

def writeBack (key : IndexKey) (store : AtRestStore) (db : AtRestDb Content)
    (item : String × AtRestRow Content) : AtRestDb Content :=
  match db.rows.get (store, item.1) with
  | none => db
  | some fresh =>
    if !sameOnDisk fresh item.2 then db
    else if item.2.opens = .twiceSealed then db.deleteRow store item.1
    else
      (if store.keyPathChanged then db.deleteRow store item.1 else db).putSealed key store
        item.2.name item.2.value

def sweepAct (key : IndexKey) (db : AtRestDb Content) :
    SweepPhase Content → Option (AtRestDb Content × SweepPhase Content)
  | .scanning [] _ => some ({ db with complete := true }, .finished)
  | .scanning (store :: rest) lastKey =>
    let chunk := nextChunk db store lastKey
    some (db, if chunk.items.isEmpty then .scanning rest none else .sealing store rest chunk)
  | .sealing store rest chunk =>
    some (db, .writing store rest
      { chunk with items := chunk.items.filter fun item => rewrites item.2 })
  | .writing store rest chunk =>
    some (chunk.items.foldl (writeBack key store) db,
      if chunk.full then .scanning (store :: rest) chunk.lastKey else .scanning rest none)
  | .finished => none

/-- A write outside the sweep, from its transaction on. -/
def liveWrite (key : IndexKey) (db : AtRestDb Content) : LiveWrite Content → AtRestDb Content
  | .putMessage id content => db.putSealed key .messages id (.content content)
  | .deleteMessage id => db.deleteRow .messages id.value
  | .putRoom roomCode content =>
    (db.deleteRow .rooms roomCode.value).putSealed key .rooms roomCode (.content content)
  | .deleteRoom roomCode =>
    (db.deleteRow .rooms roomCode.value).deleteRow .rooms (roomCode.blind key)
  | .putPhonebookEntry peerId content => db.putSealed key .phonebook peerId (.content content)
  | .deletePhonebookEntry peerId =>
    (db.deleteRow .phonebook peerId.value).deleteRow .phonebook (peerId.blind key)
  | .commitWatermark id maxLamport =>
    match db.rows.get (.watermarks, id.blind key) with
    | none => db.putSealed key .watermarks id (.watermark maxLamport)
    | some existing =>
      if existing.value.maxLamport < maxLamport then
        db.putSealed key .watermarks id (.watermark maxLamport)
      else db
  | .purgeUnreadable id =>
    match db.rows.get (.watermarks, id.blind key) with
    | none => db
    | some existing =>
      if existing.opens = .whole then db else db.deleteRow .watermarks (id.blind key)

/-- Any number of sweeps, one a tab, and writes at any moment. -/
def atRestSweep (Content : Type) (key : IndexKey) :
    Program (AtRestDb Content) Unit (SweepPhase Content) (LiveWrite Content) where
  start := fun db _ =>
    (db, if db.complete then .finished
      else .scanning [.messages, .rooms, .phonebook, .watermarks] none)
  act := sweepAct key
  outside := fun db write => some (liveWrite key db write)

/-- The row a lookup by name finds: under the blinded key, and until the sweep has
finished under the plaintext key. -/
def AtRestDb.lookup (key : IndexKey) (db : AtRestDb Content) (store : AtRestStore) (name : Plain) :
    Option (AtRestRow Content) :=
  if store.keyPathChanged then
    (db.rows.get (store, name.blind key)).or
      (if db.complete then none else db.rows.get (store, name.value))
  else db.rows.get (store, name.value)

/-- `_open`: an unsealed row is refused once the sweep has finished. -/
def AtRestDb.shown (key : IndexKey) (db : AtRestDb Content) (store : AtRestStore) (name : Plain) :
    Option (AtRestValue Content) :=
  (db.lookup key store name).bind fun row =>
    if row.opens = .whole ∧ ¬(db.complete = true ∧ row.enc.isNone = true) then some row.value
    else none

/-- `getWatermark` at one moment, with the advance held for the sender, if any. -/
def AtRestDb.getWatermark (key : IndexKey) (db : AtRestDb Content) (id : Plain) (held : Nat) : Int :=
  max (((db.lookup key .watermarks id).map fun row => row.value.maxLamport).getD 0) held

end Model

/-! ## Puts and deletes -/

section Writes

variable {Content : Type} {key : IndexKey} {db after : AtRestDb Content} {store : AtRestStore}
  {name : Plain} {value : AtRestValue Content} {place : AtRestStore × String}
  {row : AtRestRow Content}

theorem put_sealed_get (place : AtRestStore × String) :
    (db.putSealed key store name value).rows.get place =
      if place = (store, physicalKey key store name true) then
        some ⟨name, value, some ⟨db.nextIv, true, true, .whole⟩⟩
      else db.rows.get place :=
  get_set _ _ _ _

theorem delete_row_get (physical : String) (place : AtRestStore × String) :
    (db.deleteRow store physical).rows.get place =
      if place = (store, physical) then none else db.rows.get place :=
  get_delete _ _ _

/-- What any write does to the rows: one that is behind is never put, and one that is
put has a fresh IV. -/
structure AtRestDb.Moves (db after : AtRestDb Content) : Prop where
  behind : ∀ place row, after.rows.get place = some row → needsBlindingMigration row = true →
    db.rows.get place = some row
  fresh : ∀ place row, after.rows.get place = some row → db.rows.get place = some row ∨
    ∃ blob, row.enc = some blob ∧ db.nextIv ≤ blob.iv
  iv : db.nextIv ≤ after.nextIv

theorem AtRestDb.Moves.refl (db : AtRestDb Content) : db.Moves db :=
  ⟨fun _ _ found _ => found, fun _ _ found => .inl found, Nat.le_refl _⟩

theorem AtRestDb.Moves.trans {third : AtRestDb Content} (first : db.Moves after)
    (second : after.Moves third) : db.Moves third := by
  refine ⟨?_, ?_, Nat.le_trans first.iv second.iv⟩
  · intro place row found behind
    exact first.behind place row (second.behind place row found behind) behind
  · intro place row found
    rcases second.fresh place row found with old | ⟨blob, sealed, later⟩
    · exact first.fresh place row old
    · exact .inr ⟨blob, sealed, Nat.le_trans first.iv later⟩

theorem put_sealed_moves : db.Moves (db.putSealed key store name value) := by
  refine ⟨?_, ?_, Nat.le_succ _⟩
  · intro place row found behind
    rw [put_sealed_get] at found
    split_ifs at found
    · cases found
      cases behind
    · exact found
  · intro place row found
    rw [put_sealed_get] at found
    split_ifs at found
    · cases found
      exact .inr ⟨_, rfl, Nat.le_refl _⟩
    · exact .inl found

theorem get_of_delete_row {physical : String}
    (found : (db.deleteRow store physical).rows.get place = some row) :
    db.rows.get place = some row := by
  rw [delete_row_get] at found
  split_ifs at found
  exact found

theorem delete_row_moves (physical : String) : db.Moves (db.deleteRow store physical) :=
  ⟨fun _ _ found _ => get_of_delete_row found, fun _ _ found => .inl (get_of_delete_row found),
    Nat.le_refl _⟩

structure AtRestDb.Sound (key : IndexKey) (db : AtRestDb Content) : Prop where
  keyed : ∀ store physical row, db.rows.get (store, physical) = some row →
    physical = physicalKey key store row.name row.blinded
  opens : ∀ place row, db.rows.get place = some row → row.opens = .whole
  iv : ∀ place row, db.rows.get place = some row → ∀ blob ∈ row.enc, blob.iv < db.nextIv
  /-- No name is stored under both keys. -/
  single : ∀ (store : AtRestStore) (name : Plain), store.keyPathChanged = true →
    db.rows.get (store, name.value) ≠ none → db.rows.get (store, name.blind key) = none
  swept : db.complete = true → ∀ place row, db.rows.get place = some row →
    needsBlindingMigration row = false

theorem AtRestDb.Sound.delete (sound : db.Sound key) (physical : String) :
    (db.deleteRow store physical).Sound key := by
  refine ⟨fun _ _ _ found => sound.keyed _ _ _ (get_of_delete_row found),
    fun _ _ found => sound.opens _ _ (get_of_delete_row found),
    fun _ _ found => sound.iv _ _ (get_of_delete_row found), ?_,
    fun complete _ _ found => sound.swept complete _ _ (get_of_delete_row found)⟩
  intro other name changed stored
  obtain ⟨row, found⟩ := ne_none_iff_exists'.mp stored
  have absent := sound.single other name changed (by rw [get_of_delete_row found]; nofun)
  rw [delete_row_get]
  split_ifs
  · rfl
  · exact absent

theorem AtRestDb.Sound.put (sound : db.Sound key)
    (alone : store.keyPathChanged = true → db.rows.get (store, name.value) = none) :
    (db.putSealed key store name value).Sound key := by
  refine ⟨?_, ?_, ?_, ?_, ?_⟩
  · intro other physical row found
    rw [put_sealed_get] at found
    split_ifs at found with here
    · cases found
      cases here
      rfl
    · exact sound.keyed other physical row found
  · intro place row found
    rw [put_sealed_get] at found
    split_ifs at found
    · cases found
      rfl
    · exact sound.opens place row found
  · intro place row found blob sealed
    rw [put_sealed_get] at found
    split_ifs at found
    · cases found
      cases sealed
      exact Nat.lt_succ_self _
    · exact Nat.lt_succ_of_lt (sound.iv place row found blob sealed)
  · intro other asked changed stored
    rw [put_sealed_get] at stored ⊢
    rw [if_neg] at stored
    · rw [if_neg]
      · exact sound.single other asked changed stored
      · intro here
        obtain ⟨rfl, same⟩ := Prod.mk.inj here
        simp only [physicalKey, changed, Bool.and_self, if_true] at same
        rw [blind_inj] at same
        rw [same] at stored
        exact stored (alone changed)
    · intro here
      obtain ⟨rfl, same⟩ := Prod.mk.inj here
      simp only [physicalKey, changed, Bool.and_self, if_true] at same
      exact blind_ne_value key name asked same.symm
  · intro complete place row found
    rw [put_sealed_get] at found
    split_ifs at found
    · cases found
      rfl
    · exact sound.swept complete place row found

/-- A write of a watermark or a phonebook entry finds no row under the plaintext key. -/
def landsAlone (db : AtRestDb Content) : LiveWrite Content → Bool
  | .putPhonebookEntry peerId _ => (db.rows.get (.phonebook, peerId.value)).isNone
  | .commitWatermark id _ => (db.rows.get (.watermarks, id.value)).isNone
  | _ => true

theorem live_write_kept (sound : db.Sound key) {write : LiveWrite Content}
    (alone : landsAlone db write = true) :
    (liveWrite key db write).Sound key ∧ db.Moves (liveWrite key db write) := by
  cases write with
  | putMessage id content => exact ⟨sound.put nofun, put_sealed_moves⟩
  | deleteMessage id => exact ⟨sound.delete _, delete_row_moves _⟩
  | putRoom roomCode content =>
    refine ⟨(sound.delete _).put ?_, (delete_row_moves _).trans put_sealed_moves⟩
    intro _
    rw [delete_row_get, if_pos rfl]
  | deleteRoom roomCode | deletePhonebookEntry peerId =>
    exact ⟨(sound.delete _).delete _, (delete_row_moves _).trans (delete_row_moves _)⟩
  | putPhonebookEntry peerId content =>
    exact ⟨sound.put fun _ => isNone_iff_eq_none.mp alone, put_sealed_moves⟩
  | commitWatermark id maxLamport =>
    have put : (db.putSealed key .watermarks id (.watermark maxLamport)).Sound key :=
      sound.put fun _ => isNone_iff_eq_none.mp alone
    simp only [liveWrite]
    split
    · exact ⟨put, put_sealed_moves⟩
    · split_ifs
      · exact ⟨put, put_sealed_moves⟩
      · exact ⟨sound, .refl db⟩
  | purgeUnreadable id =>
    simp only [liveWrite]
    split
    · exact ⟨sound, .refl db⟩
    · split_ifs
      · exact ⟨sound, .refl db⟩
      · exact ⟨sound.delete _, delete_row_moves _⟩

end Writes

/-! ## Lookups -/

section Lookups

variable {Content : Type} {key : IndexKey} {db after : AtRestDb Content} {store : AtRestStore}
  {name : Plain}

/-- What a name stands for: the row under either key. -/
def AtRestDb.held (key : IndexKey) (db : AtRestDb Content) (store : AtRestStore) (name : Plain) :
    Option (AtRestRow Content) :=
  if store.keyPathChanged then
    (db.rows.get (store, name.blind key)).or (db.rows.get (store, name.value))
  else db.rows.get (store, name.value)

section

variable (sound : db.Sound key)
include sound

theorem AtRestDb.Sound.behind_of_plain (changed : store.keyPathChanged = true)
    {row : AtRestRow Content} (found : db.rows.get (store, name.value) = some row) :
    needsBlindingMigration row = true := by
  have place := sound.keyed store _ row found
  have unblinded : row.blinded = false := by
    by_contra blinded
    rw [not_eq_false] at blinded
    simp only [physicalKey, changed, blinded, Bool.and_self, if_true] at place
    exact value_ne_blind key name row.name place
  unfold needsBlindingMigration
  unfold AtRestRow.blinded at unblinded
  split
  · rfl
  · next blob sealed =>
      rw [sealed, any_some] at unblinded
      rw [unblinded, Bool.not_false, Bool.or_true]

theorem AtRestDb.Sound.lookup_eq_held (store : AtRestStore) (name : Plain) :
    db.lookup key store name = db.held key store name := by
  unfold AtRestDb.lookup AtRestDb.held
  split_ifs with changed complete
  · cases plain : db.rows.get (store, name.value) with
    | none => rfl
    | some row =>
      have behind := sound.behind_of_plain changed plain
      rw [sound.swept complete _ row plain] at behind
      cases behind
  · rfl
  · rfl

theorem AtRestDb.Sound.held_opens {row : AtRestRow Content}
    (found : db.held key store name = some row) :
    row.opens = .whole ∧ ¬(db.complete = true ∧ row.enc.isNone = true) := by
  obtain ⟨place, stored⟩ : ∃ place, db.rows.get place = some row := by
    unfold AtRestDb.held at found
    split_ifs at found
    · rcases or_eq_some_iff.mp found with blinded | ⟨-, plain⟩
      · exact ⟨_, blinded⟩
      · exact ⟨_, plain⟩
    · exact ⟨_, found⟩
  refine ⟨sound.opens place row stored, ?_⟩
  rintro ⟨complete, unsealed⟩
  have current := sound.swept complete place row stored
  rw [isNone_iff_eq_none] at unsealed
  simp [needsBlindingMigration, unsealed] at current

theorem AtRestDb.Sound.shown_eq (store : AtRestStore) (name : Plain) :
    db.shown key store name = (db.held key store name).map AtRestRow.value := by
  unfold AtRestDb.shown
  rw [sound.lookup_eq_held]
  cases found : db.held key store name with
  | none => rfl
  | some row =>
    simp only [bind_some, map_some]
    rw [if_pos (sound.held_opens found)]

theorem AtRestDb.Sound.watermark_eq (id : Plain) (waiting : Nat) :
    db.getWatermark key id waiting =
      max ((((db.held key .watermarks id).map AtRestRow.value).map AtRestValue.maxLamport).getD 0)
        waiting := by
  unfold AtRestDb.getWatermark
  rw [sound.lookup_eq_held, Option.map_map]
  rfl

end

theorem physical_key_inj {blinded other : Bool} {left right : Plain}
    (same : physicalKey key store left blinded = physicalKey key store right other) :
    left = right := by
  unfold physicalKey at same
  split_ifs at same
  · exact blind_injective key same
  · exact absurd same (blind_ne_value key left right)
  · exact absurd same (value_ne_blind key left right)
  · exact (plain_value_inj left right).mp same

theorem held_of_get_eq {other : AtRestStore} {asked : Plain}
    (same : ∀ blinded, after.rows.get (other, physicalKey key other asked blinded) =
      db.rows.get (other, physicalKey key other asked blinded)) :
    after.held key other asked = db.held key other asked := by
  have blind := same true
  have plain := same false
  simp only [physicalKey, Bool.and_true, Bool.and_false, Bool.false_eq_true, if_false] at blind plain
  unfold AtRestDb.held
  split_ifs with changed
  · rw [if_pos changed] at blind
    rw [blind, plain]
  · exact plain

section

variable {other : AtRestStore} {asked : Plain} (different : (other, asked) ≠ (store, name))
include different

theorem put_sealed_held_other {value : AtRestValue Content} :
    (db.putSealed key store name value).held key other asked = db.held key other asked := by
  apply held_of_get_eq
  intro blinded
  rw [put_sealed_get, if_neg]
  intro here
  obtain ⟨rfl, same⟩ := Prod.mk.inj here
  exact different (by rw [physical_key_inj same])

theorem delete_row_held_other {blinded : Bool} :
    (db.deleteRow store (physicalKey key store name blinded)).held key other asked =
      db.held key other asked := by
  apply held_of_get_eq
  intro form
  rw [delete_row_get, if_neg]
  intro here
  obtain ⟨rfl, same⟩ := Prod.mk.inj here
  exact different (by rw [physical_key_inj same])

end

theorem put_sealed_held (value : AtRestValue Content) :
    ((db.putSealed key store name value).held key store name).map AtRestRow.value = some value := by
  unfold AtRestDb.held
  by_cases changed : store.keyPathChanged = true
  · simp [changed, put_sealed_get, physicalKey]
  · simp [changed, put_sealed_get, physicalKey]

theorem AtRestDb.Sound.held_of_get (sound : db.Sound key) {row : AtRestRow Content}
    (found : db.rows.get (store, physicalKey key store row.name row.blinded) = some row) :
    db.held key store row.name = some row := by
  unfold AtRestDb.held
  by_cases changed : store.keyPathChanged = true
  · rw [if_pos changed]
    by_cases blinded : row.blinded = true
    · simp only [physicalKey, changed, blinded, Bool.and_self, if_true] at found
      rw [found]
      rfl
    · simp only [physicalKey, blinded, Bool.and_false, Bool.false_eq_true, if_false] at found
      rw [sound.single store row.name changed (by rw [found]; rintro ⟨⟩), found]
      rfl
  · rw [if_neg changed]
    simpa only [physicalKey, changed, Bool.false_and, Bool.false_eq_true, if_false] using found

end Lookups

/-! ## Writing back -/

section WriteBack

variable {Content : Type} {key : IndexKey} {db after : AtRestDb Content} {store : AtRestStore}
  {item : String × AtRestRow Content}

/-- What the sweep knows of a row it read, while others write. -/
structure ReadItem (db : AtRestDb Content) (store : AtRestStore)
    (item : String × AtRestRow Content) : Prop where
  same : ∀ row, db.rows.get (store, item.1) = some row → sameOnDisk row item.2 = true → row = item.2
  behind : ∀ row, db.rows.get (store, item.1) = some row → needsBlindingMigration row = true →
    row = item.2
  iv : ∀ blob ∈ item.2.enc, blob.iv < db.nextIv

theorem ReadItem.moves (read : ReadItem db store item) (moved : db.Moves after) :
    ReadItem after store item := by
  refine ⟨?_, ?_, fun blob found => Nat.lt_of_lt_of_le (read.iv blob found) moved.iv⟩
  · intro row found same
    rcases moved.fresh _ row found with old | ⟨blob, sealed, later⟩
    · exact read.same row old same
    · exfalso
      unfold sameOnDisk at same
      rw [sealed] at same
      cases before : item.2.enc with
      | none => simp [before] at same
      | some earlier =>
        have used := read.iv earlier before
        simp only [before, decide_eq_true_eq] at same
        omega
  · intro row found behind
    exact read.behind row (moved.behind _ row found behind) behind

theorem read_item_now (sound : db.Sound key) (found : db.rows.get (store, item.1) = some item.2) :
    ReadItem db store item := by
  refine ⟨?_, ?_, sound.iv _ _ found⟩
  · intro row stored _
    rw [found] at stored
    exact (Option.some.inj stored).symm
  · intro row stored _
    rw [found] at stored
    exact (Option.some.inj stored).symm

theorem same_on_disk_refl (row : AtRestRow Content) : sameOnDisk row row = true := by
  unfold sameOnDisk
  cases row.enc with
  | none => rfl
  | some blob => simp

/-- No row changes its value, and the row is no longer behind. -/
structure WrittenBack (key : IndexKey) (db after : AtRestDb Content) (store : AtRestStore)
    (physical : String) : Prop where
  sound : after.Sound key
  moves : db.Moves after
  values : ∀ other name, (after.held key other name).map AtRestRow.value =
    (db.held key other name).map AtRestRow.value
  current : ∀ row, after.rows.get (store, physical) = some row → needsBlindingMigration row = false

theorem rewrite_written_back (sound : db.Sound key) (row : AtRestRow Content)
    (found : db.rows.get (store, physicalKey key store row.name row.blinded) = some row) :
    WrittenBack key db
      ((if store.keyPathChanged then
        db.deleteRow store (physicalKey key store row.name row.blinded) else db).putSealed key store
          row.name row.value) store (physicalKey key store row.name row.blinded) := by
  have held := sound.held_of_get found
  by_cases changed : store.keyPathChanged = true
  · rw [if_pos changed]
    refine ⟨(sound.delete _).put ?_, (delete_row_moves _).trans put_sealed_moves, ?_, ?_⟩
    · intro _
      rw [delete_row_get]
      split_ifs with here
      · rfl
      · by_contra plain
        have form : row.blinded = true := by
          by_contra unblinded
          simp [physicalKey, unblinded] at here
        have absent := sound.single store row.name changed plain
        simp only [physicalKey, changed, form, Bool.and_self, if_true] at found
        rw [absent] at found
        cases found
    · intro other name
      by_cases here : (other, name) = (store, row.name)
      · obtain ⟨rfl, rfl⟩ := Prod.mk.inj here
        rw [put_sealed_held, held]
        rfl
      · rw [put_sealed_held_other here, delete_row_held_other here]
    · intro later stored
      rw [put_sealed_get, delete_row_get, if_pos rfl] at stored
      split_ifs at stored
      cases stored
      rfl
  · rw [if_neg changed]
    refine ⟨sound.put fun yes => absurd yes changed, put_sealed_moves, ?_, ?_⟩
    · intro other name
      by_cases here : (other, name) = (store, row.name)
      · obtain ⟨rfl, rfl⟩ := Prod.mk.inj here
        rw [put_sealed_held, held]
        rfl
      · rw [put_sealed_held_other here]
    · intro later stored
      rw [put_sealed_get, if_pos (by simp [physicalKey, changed])] at stored
      cases stored
      rfl

theorem write_back_kept (sound : db.Sound key) (read : ReadItem db store item) :
    WrittenBack key db (writeBack key store db item) store item.1 := by
  have unchanged : ∀ (current : ∀ row, db.rows.get (store, item.1) = some row →
      needsBlindingMigration row = false), WrittenBack key db db store item.1 :=
    fun current => ⟨sound, .refl db, fun _ _ => rfl, current⟩
  unfold writeBack
  split
  · next absent =>
      exact unchanged fun row found => by rw [absent] at found; cases found
  · next fresh found =>
      by_cases differs : sameOnDisk fresh item.2 = true
      · have same := read.same fresh found differs
        subst same
        have whole := sound.opens _ item.2 found
        have place := sound.keyed store item.1 item.2 found
        rw [differs, Bool.not_true, if_neg Bool.false_ne_true, if_neg (by rw [whole]; nofun)]
        obtain ⟨physical, row⟩ := item
        dsimp only at place found ⊢
        subst place
        exact rewrite_written_back sound row found
      · rw [if_pos (by simpa using differs)]
        apply unchanged
        intro row stored
        rw [found] at stored
        cases stored
        by_contra behind
        rw [not_eq_false] at behind
        rw [read.behind fresh found behind, same_on_disk_refl] at differs
        exact differs rfl

theorem write_back_all (items : List (String × AtRestRow Content)) (sound : db.Sound key)
    (read : ∀ item ∈ items, ReadItem db store item) :
    (items.foldl (writeBack key store) db).Sound key ∧
      db.Moves (items.foldl (writeBack key store) db) ∧
      (∀ other name, ((items.foldl (writeBack key store) db).held key other name).map
        AtRestRow.value = (db.held key other name).map AtRestRow.value) ∧
      ∀ item ∈ items, ∀ row,
        (items.foldl (writeBack key store) db).rows.get (store, item.1) = some row →
          needsBlindingMigration row = false := by
  induction items generalizing db with
  | nil => exact ⟨sound, .refl db, fun _ _ => rfl, by simp⟩
  | cons head rest ih =>
    have first := write_back_kept sound (read head (by simp))
    have reads : ∀ item ∈ rest, ReadItem (writeBack key store db head) store item :=
      fun item mem => (read item (mem_cons_of_mem _ mem)).moves first.moves
    obtain ⟨later, moved, values, current⟩ := ih first.sound reads
    refine ⟨later, first.moves.trans moved, fun other name => ?_, ?_⟩
    · rw [foldl_cons, values, first.values]
    · intro item mem row found
      rcases mem_cons.mp mem with rfl | old
      · by_contra behind
        rw [not_eq_false] at behind
        rw [first.current row (moved.behind _ row found behind)] at behind
        cases behind
      · exact current item old row found

end WriteBack

/-! ## The walk over the stores -/

section Walk

variable {Content : Type} {key : IndexKey} {db after : AtRestDb Content} {store : AtRestStore}
  {lastKey : Option String} {physical : String}

theorem mem_cursor_rows {item : String × AtRestRow Content} :
    item ∈ cursorRows db store lastKey ↔
      db.rows.get (store, item.1) = some item.2 ∧ keyAfter lastKey item.1 = true := by
  obtain ⟨physical, row⟩ := item
  unfold cursorRows
  rw [List.mem_insertionSort, List.mem_map]
  constructor
  · rintro ⟨⟨⟨other, named⟩, stored⟩, mem, same⟩
    obtain ⟨rfl, rfl⟩ := Prod.mk.inj same
    obtain ⟨entry, kept⟩ := mem_filter.mp mem
    simp only [and_eq_true, decide_eq_true_eq] at kept
    rw [← kept.1]
    exact ⟨get_of_mem entry, kept.2⟩
  · rintro ⟨found, later⟩
    refine ⟨((store, physical), row), mem_filter.mpr ⟨mem_of_get found, ?_⟩, rfl⟩
    simp [later]

/-- The keys a chunk still answers for: its items, and those after a chunk that was cut. -/
def SweepChunk.Covers (chunk : SweepChunk Content) (physical : String) : Prop :=
  (∃ item ∈ chunk.items, item.1 = physical) ∨
    chunk.full = true ∧ keyAfter chunk.lastKey physical = true

theorem next_chunk_covers {row : AtRestRow Content}
    (found : db.rows.get (store, physical) = some row) (later : keyAfter lastKey physical = true) :
    (nextChunk db store lastKey).Covers physical := by
  have mem : (physical, row) ∈ cursorRows db store lastKey := mem_cursor_rows.mpr ⟨found, later⟩
  have sorted := pairwise_insertionSort (@keyLe Content)
    ((db.rows.entries.filter fun entry =>
      decide (entry.1.1 = store) && keyAfter lastKey entry.1.2).map fun entry => (entry.1.2, entry.2))
  by_cases taken : ∃ item ∈ (nextChunk db store lastKey).items, item.1 = physical
  · exact .inl taken
  · refine .inr ?_
    have split := take_append_drop store.chunkSize (cursorRows db store lastKey)
    have dropped : (physical, row) ∈ (cursorRows db store lastKey).drop store.chunkSize := by
      rw [← split] at mem
      rcases mem_append.mp mem with early | late
      · exact absurd ⟨_, early, rfl⟩ taken
      · exact late
    have long : store.chunkSize < (cursorRows db store lastKey).length := by
      by_contra short
      rw [drop_eq_nil_of_le (Nat.not_lt.mp short)] at dropped
      cases dropped
    refine ⟨?_, ?_⟩
    · simp only [nextChunk, length_take, decide_eq_true_eq]
      omega
    · unfold keyAfter nextChunk
      rw [Option.all_eq_true]
      intro last named
      obtain ⟨item, ending, rfl⟩ := Option.mem_map.mp named
      have inside := mem_of_getLast? ending
      have before : keyLe item (physical, row) := by
        change (cursorRows db store lastKey).Pairwise keyLe at sorted
        rw [← split, pairwise_append] at sorted
        exact sorted.2.2 item inside _ dropped
      rw [decide_eq_true_eq]
      refine lt_of_le_of_ne before ?_
      intro same
      exact taken ⟨item, inside, utf16_units_injective same⟩

theorem chunk_size_pos (store : AtRestStore) : 0 < store.chunkSize := by
  cases store <;> decide

theorem not_covers_of_empty (empty : (nextChunk db store lastKey).items = []) :
    ¬(nextChunk db store lastKey).Covers physical := by
  rintro (⟨item, mem, -⟩ | ⟨full, -⟩)
  · rw [empty] at mem
    cases mem
  · have cut := of_decide_eq_true full
    have none_taken : ((cursorRows db store lastKey).take store.chunkSize) = [] := empty
    rw [none_taken] at cut
    exact absurd cut (Nat.not_le.mpr (chunk_size_pos store))

/-- The places the sweep has still to look at. -/
def SweepPhase.Covers (phase : SweepPhase Content) (other : AtRestStore) (physical : String) :
    Prop :=
  match phase with
  | .scanning [] _ => False
  | .scanning (store :: rest) lastKey =>
    other ∈ rest ∨ other = store ∧ keyAfter lastKey physical = true
  | .sealing store rest chunk => other ∈ rest ∨ other = store ∧ chunk.Covers physical
  | .writing store rest chunk => other ∈ rest ∨ other = store ∧ chunk.Covers physical
  | .finished => True

def SweepPhase.ItemsRead (db : AtRestDb Content) : SweepPhase Content → Prop
  | .sealing store _ chunk => ∀ item ∈ chunk.items, ReadItem db store item
  | .writing store _ chunk => ∀ item ∈ chunk.items, ReadItem db store item
  | _ => True

/-- Every row that is behind is still ahead of the sweep. -/
structure SweepPhase.Held (db : AtRestDb Content) (phase : SweepPhase Content) : Prop where
  covers : ∀ store physical row, db.rows.get (store, physical) = some row →
    needsBlindingMigration row = true → phase.Covers store physical
  items : phase.ItemsRead db

theorem SweepPhase.Held.moves {phase : SweepPhase Content} (held : phase.Held db)
    (moved : db.Moves after) : phase.Held after := by
  refine ⟨?_, ?_⟩
  · intro store physical row found behind
    exact held.covers store physical row (moved.behind _ row found behind) behind
  · cases phase with
    | scanning stores lastKey | finished => trivial
    | sealing store rest chunk | writing store rest chunk =>
      exact fun item mem => (held.items item mem).moves moved

theorem scanning_covers {rest : List AtRestStore} {other : AtRestStore} (mem : other ∈ rest) :
    (SweepPhase.scanning rest none : SweepPhase Content).Covers other physical := by
  cases rest with
  | nil => cases mem
  | cons store rest =>
    rcases mem_cons.mp mem with rfl | later
    · exact .inr ⟨rfl, rfl⟩
    · exact .inl later

/-- What an act of the sweep keeps: no value changes. -/
structure SweepKept (key : IndexKey) (db after : AtRestDb Content) (next : SweepPhase Content) :
    Prop where
  sound : after.Sound key
  held : next.Held after
  moves : db.Moves after
  values : ∀ other name, (after.held key other name).map AtRestRow.value =
    (db.held key other name).map AtRestRow.value

section

variable (sound : db.Sound key)
include sound

theorem finish_kept (held : (SweepPhase.scanning [] lastKey).Held db) :
    SweepKept key db { db with complete := true } .finished := by
  refine ⟨⟨sound.keyed, sound.opens, sound.iv, sound.single, ?_⟩, ⟨fun _ _ _ _ _ => trivial, trivial⟩,
    ⟨fun _ _ found _ => found, fun _ _ found => .inl found, Nat.le_refl _⟩, fun _ _ => rfl⟩
  intro _ place row found
  by_contra behind
  rw [not_eq_false] at behind
  exact held.covers place.1 place.2 row found behind

variable {rest : List AtRestStore} {chunk : SweepChunk Content}

theorem scan_kept (held : (SweepPhase.scanning (store :: rest) lastKey).Held db) :
    SweepKept key db db (if (nextChunk db store lastKey).items.isEmpty then .scanning rest none
      else .sealing store rest (nextChunk db store lastKey)) := by
  have covered : ∀ other physical row, db.rows.get (other, physical) = some row →
      needsBlindingMigration row = true →
      other ∈ rest ∨ other = store ∧ (nextChunk db store lastKey).Covers physical := by
    intro other physical row found behind
    rcases held.covers other physical row found behind with later | ⟨rfl, here⟩
    · exact .inl later
    · exact .inr ⟨rfl, next_chunk_covers found here⟩
  refine ⟨sound, ?_, .refl db, fun _ _ => rfl⟩
  split_ifs with empty
  · rw [List.isEmpty_iff] at empty
    refine ⟨?_, trivial⟩
    intro other physical row found behind
    rcases covered other physical row found behind with later | ⟨-, here⟩
    · exact scanning_covers later
    · exact absurd here (not_covers_of_empty empty)
  · refine ⟨covered, ?_⟩
    intro item mem
    exact read_item_now sound (mem_cursor_rows.mp (mem_of_mem_take mem)).1

theorem seal_kept (held : (SweepPhase.sealing store rest chunk).Held db) :
    SweepKept key db db (.writing store rest
      { chunk with items := chunk.items.filter fun item => rewrites item.2 }) := by
  refine ⟨sound, ⟨?_, ?_⟩, .refl db, fun _ _ => rfl⟩
  · intro other physical row found behind
    rcases held.covers other physical row found behind with later | ⟨rfl, ⟨item, mem, rfl⟩ | after⟩
    · exact .inl later
    · have same := (held.items item mem).behind row found behind
      have opens := sound.opens _ row found
      refine .inr ⟨rfl, .inl ⟨item, mem_filter.mpr ⟨mem, ?_⟩, rfl⟩⟩
      unfold rewrites
      rw [← same, opens]
      exact behind
    · exact .inr ⟨rfl, .inr after⟩
  · intro item mem
    exact held.items item (mem_filter.mp mem).1

theorem write_kept (held : (SweepPhase.writing store rest chunk).Held db) :
    SweepKept key db (chunk.items.foldl (writeBack key store) db)
      (if chunk.full then .scanning (store :: rest) chunk.lastKey else .scanning rest none) := by
  obtain ⟨later, moved, values, current⟩ := write_back_all chunk.items sound held.items
  have covered : ∀ other physical row,
      (chunk.items.foldl (writeBack key store) db).rows.get (other, physical) = some row →
      needsBlindingMigration row = true →
      other ∈ rest ∨ other = store ∧ chunk.full = true ∧ keyAfter chunk.lastKey physical = true := by
    intro other physical row found behind
    rcases held.covers other physical row (moved.behind _ row found behind) behind with
      ahead | ⟨rfl, ⟨item, mem, rfl⟩ | after⟩
    · exact .inl ahead
    · rw [current item mem row found] at behind
      cases behind
    · exact .inr ⟨rfl, after⟩
  refine ⟨later, ?_, moved, values⟩
  split_ifs with full
  · refine ⟨?_, trivial⟩
    intro other physical row found behind
    rcases covered other physical row found behind with ahead | ⟨rfl, -, after⟩
    · exact .inl ahead
    · exact .inr ⟨rfl, after⟩
  · refine ⟨?_, trivial⟩
    intro other physical row found behind
    rcases covered other physical row found behind with ahead | ⟨-, cut, -⟩
    · exact scanning_covers ahead
    · exact absurd cut full

theorem sweep_act_kept {phase next : SweepPhase Content} (held : phase.Held db)
    (acted : sweepAct key db phase = some (after, next)) :
    SweepKept key db after next := by
  cases phase with
  | scanning stores lastKey =>
    cases stores with
    | nil =>
      cases acted
      exact finish_kept sound held
    | cons store rest =>
      cases acted
      exact scan_kept sound held
  | sealing store rest chunk =>
    cases acted
    exact seal_kept sound held
  | writing store rest chunk =>
    cases acted
    exact write_kept sound held
  | finished => cases acted

end

end Walk

/-! ## Whole interleavings -/

section Sweeps

variable {Content : Type} {key : IndexKey} {db after : AtRestDb Content}

/-- No watermark is lower than it was. -/
def WatermarksUp (key : IndexKey) (db after : AtRestDb Content) : Prop :=
  ∀ id waiting, db.getWatermark key id waiting ≤ after.getWatermark key id waiting

theorem watermarks_up_of_values (sound : db.Sound key) (later : after.Sound key)
    (same : ∀ id, (after.held key .watermarks id).map AtRestRow.value =
      (db.held key .watermarks id).map AtRestRow.value) : WatermarksUp key db after := by
  intro id waiting
  rw [sound.watermark_eq, later.watermark_eq, same]

variable {store other : AtRestStore}

theorem put_sealed_held_store {name asked : Plain} {value : AtRestValue Content}
    (different : other ≠ store) :
    (db.putSealed key store name value).held key other asked = db.held key other asked :=
  put_sealed_held_other fun same => different (Prod.mk.inj same).1

theorem delete_row_held_store {physical : String} {asked : Plain} (different : other ≠ store) :
    (db.deleteRow store physical).held key other asked = db.held key other asked := by
  apply held_of_get_eq
  intro blinded
  rw [delete_row_get, if_neg]
  intro here
  exact different (Prod.mk.inj here).1

theorem commit_watermark_up {id : Plain} {maxLamport : Int} (sound : db.Sound key)
    (later : (db.putSealed key .watermarks id (.watermark maxLamport)).Sound key)
    (higher : ∀ row, db.held key .watermarks id = some row → row.value.maxLamport < maxLamport) :
    WatermarksUp key db (db.putSealed key .watermarks id (.watermark maxLamport)) := by
  intro asked waiting
  rw [sound.watermark_eq, later.watermark_eq]
  by_cases here : asked = id
  · subst here
    rw [put_sealed_held]
    cases found : db.held key .watermarks asked with
    | none =>
      simp only [map_none, getD_none, map_some, getD_some,
        AtRestValue.maxLamport]
      omega
    | some row =>
      have less := higher row found
      simp only [map_some, getD_some, AtRestValue.maxLamport] at less ⊢
      omega
  · rw [put_sealed_held_other fun same => here (Prod.mk.inj same).2]

theorem live_write_up (sound : db.Sound key) {write : LiveWrite Content}
    (alone : landsAlone db write = true) : WatermarksUp key db (liveWrite key db write) := by
  have later := (live_write_kept sound alone).1
  cases write with
  | putMessage id content | putPhonebookEntry peerId content =>
    exact watermarks_up_of_values sound later fun _ => by
      simp (disch := decide) only [liveWrite, put_sealed_held_store]
  | deleteMessage id | deleteRoom roomCode | deletePhonebookEntry peerId =>
    exact watermarks_up_of_values sound later fun _ => by
      simp (disch := decide) only [liveWrite, delete_row_held_store]
  | putRoom roomCode content =>
    exact watermarks_up_of_values sound later fun _ => by
      simp (disch := decide) only [liveWrite, put_sealed_held_store, delete_row_held_store]
  | commitWatermark id maxLamport =>
    have plain := isNone_iff_eq_none.mp alone
    have held : db.held key .watermarks id = db.rows.get (.watermarks, id.blind key) := by
      simp [AtRestDb.held, AtRestStore.keyPathChanged, plain]
    simp only [liveWrite] at later ⊢
    cases found : db.rows.get (AtRestStore.watermarks, id.blind key) with
    | none =>
      simp only [found] at later ⊢
      exact commit_watermark_up sound later fun row stored => by
        rw [held, found] at stored
        cases stored
    | some existing =>
      simp only [found] at later ⊢
      split_ifs at later ⊢ with less
      · exact commit_watermark_up sound later fun row stored => by
          rw [held, found] at stored
          cases stored
          exact less
      · exact fun _ _ => Int.le_refl _
  | purgeUnreadable id =>
    simp only [liveWrite]
    split
    · exact fun _ _ => Int.le_refl _
    · next existing found =>
        rw [if_pos (sound.opens _ existing found)]
        exact fun _ _ => Int.le_refl _

/-- The same of a turn. -/
def landsAloneTurn (pool : Pool (AtRestDb Content) (SweepPhase Content)) :
    Turn Unit (LiveWrite Content) → Bool
  | .outside write => landsAlone pool.shared write
  | _ => true

theorem sweeps_keep : Keeps (atRestSweep Content key)
    (fun pool turn => landsAloneTurn pool turn = true) (AtRestDb.Sound key)
    (fun db phase => phase.Held db) (fun db after => db.Moves after ∧ WatermarksUp key db after) where
  refl := fun db => ⟨.refl db, fun _ _ => Int.le_refl _⟩
  trans := fun first second => ⟨first.1.trans second.1,
    fun id waiting => Int.le_trans (first.2 id waiting) (second.2 id waiting)⟩
  start := by
    intro pool call db phase _ sound started
    cases started
    refine ⟨sound, ?_, .refl _, fun _ _ => Int.le_refl _⟩
    split_ifs
    · exact ⟨fun _ _ _ _ _ => trivial, trivial⟩
    · refine ⟨?_, trivial⟩
      intro store physical row _ _
      exact scanning_covers (by cases store <;> decide)
  act := by
    intro pool index phase db next _ _ sound held acted
    have kept := sweep_act_kept sound held acted
    exact ⟨kept.sound, kept.held, kept.moves,
      watermarks_up_of_values sound kept.sound fun id => kept.values _ id⟩
  outside := by
    intro pool write db alone sound happened
    cases happened
    obtain ⟨later, moved⟩ := live_write_kept sound alone
    exact ⟨later, moved, live_write_up sound alone⟩
  stable := fun _ moved held => held.moves moved.1

end Sweeps

/-! ## A watermark over a legacy row -/

section LegacyRow

def legacyMark : AtRestDb Unit :=
  ⟨OrderedMap.empty.set (.watermarks, "den") ⟨den, .watermark 5, none⟩, 0, false⟩

theorem legacy_mark_get {place : AtRestStore × String} {row : AtRestRow Unit}
    (found : legacyMark.rows.get place = some row) :
    place = (.watermarks, den.value) ∧ row = ⟨den, .watermark 5, none⟩ := by
  simp only [legacyMark, get_set, get_empty] at found
  split_ifs at found with here
  cases found
  exact ⟨here, rfl⟩

theorem legacy_mark_sound : legacyMark.Sound plainKey where
  keyed := by
    intro store physical row found
    obtain ⟨here, rfl⟩ := legacy_mark_get found
    cases here
    rfl
  opens := by
    intro place row found
    obtain ⟨-, rfl⟩ := legacy_mark_get found
    rfl
  iv := by
    intro place row found blob sealed
    obtain ⟨-, rfl⟩ := legacy_mark_get found
    cases sealed
  single := by
    intro store name changed stored
    cases found : legacyMark.rows.get (store, name.blind plainKey) with
    | none => rfl
    | some row =>
      obtain ⟨here, -⟩ := legacy_mark_get found
      exact absurd (Prod.mk.inj here).2 (blind_ne_value plainKey name den)
  swept := nofun

def chunkRead : List (Turn Unit (LiveWrite Unit)) :=
  [.start (), .advance 0, .advance 0, .advance 0, .advance 0]

def chunkWritten : List (Turn Unit (LiveWrite Unit)) := [.advance 0, .advance 0]

end LegacyRow

end AwfulChat.Storage
