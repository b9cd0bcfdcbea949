import AwfulChat.Inbound.Claimable
import AwfulChat.Storage.Blinding

/-!
# Room reads of the message store

A message row is stored in one of two forms: sealed, with its room and sender
blinded for the indexes, or as a build before the at-rest migration left it, in
plaintext. Its id, lamport, type and status are clear in both. While the
migration is not complete every room read looks under both room keys.

The index `byRoomLamport` is walked by room, then lamport, then primary key,
which is conversation order within one room.
-/

namespace AwfulChat.Storage

open Library MessageOrder Inbound Library.OrderedMap
open List hiding get_of_mem

set_option autoImplicit false

inductive MessageStatus
  | sending
  | sent
  | delivered
  | read
  deriving DecidableEq

def MessageStatus.rank : MessageStatus → Nat
  | .sending => 0
  | .sent => 1
  | .delivered => 2
  | .read => 3

structure Message where
  id : String
  roomCode : Plain
  senderId : Plain
  lamport : Int
  type : MessageType
  status : Option MessageStatus
  deriving DecidableEq

/-- A row of the store: a message, and whether the migration reached it. -/
structure StoredMessage where
  message : Message
  migrated : Bool
  deriving DecidableEq

namespace StoredMessage

def roomCode (key : IndexKey) (row : StoredMessage) : String :=
  if row.migrated then row.message.roomCode.blind key else row.message.roomCode.value

def senderId (key : IndexKey) (row : StoredMessage) : String :=
  if row.migrated then row.message.senderId.blind key else row.message.senderId.value

def lamport (row : StoredMessage) : Int := row.message.lamport

end StoredMessage

instance : Row StoredMessage where
  cursor := fun row => ⟨row.message.lamport, row.message.id⟩
  type := fun row => row.message.type

structure MessageStore where
  rows : List StoredMessage
  keyed : (rows.map fun row => row.message.id).Nodup

section Reads

variable (key : IndexKey) (complete : Bool) (store : MessageStore) (room : Plain)

/-- `IDBKeyRange.bound([code, low], [code, high])` over `byRoomLamport`. -/
def roomRange (code : String) (low high : Int) : List StoredMessage :=
  sortRows (store.rows.filter fun row =>
    decide (row.roomCode key = code) && decide (low ≤ row.lamport) && decide (row.lamport ≤ high))

/-- `byId`: later rows replace earlier ones of the same id. -/
def mergeById (rows : List StoredMessage) : List StoredMessage :=
  (OrderedMap.collect (rows.map fun row => (row.message.id, row))).values

/-- Both forms of a room's rows, the blinded ones first. -/
def bothRanges (low high : Int) : List StoredMessage :=
  if complete then roomRange key store (room.blind key) low high
  else mergeById
    (roomRange key store (room.blind key) low high ++ roomRange key store room.value low high)

/-- `_open`: an unsealed row is refused once the migration is complete. -/
def openMessage (row : StoredMessage) : Option Message :=
  if complete ∧ ¬row.migrated then none else some row.message

def rawRoomMessages (low : Int) : List StoredMessage :=
  bothRanges key complete store room low maxSafeInteger

def nameSender (result : OrderedMap Sender Int) (row : StoredMessage) : OrderedMap Sender Int :=
  match openMessage complete row with
  | some message =>
    if message.senderId.value ≠ "" then result.set message.senderId.value row.lamport else result
  | none => result

/-- One row is opened for each sender the rows show, the highest. -/
def getSenderMaxLamports : OrderedMap Sender Int :=
  (OrderedMap.highestBy (StoredMessage.senderId key) StoredMessage.lamport
    (rawRoomMessages key complete store room 0)).values.foldl (nameSender complete) .empty

/-- What the peer claims of a sender, for the read's floor. -/
def theirMark (watermarks : OrderedMap Sender Int) (sender : Sender) : Int :=
  match watermarks.get sender with
  | some mark => if isSafeInteger mark then mark else -1
  | none => -1

/-- The lowest mark of a sender the peer is behind on; `none` is `Infinity`. -/
def lowerFloor (watermarks : OrderedMap Sender Int) (floor : Option Int) (entry : Sender × Int) :
    Option Int :=
  if theirMark watermarks entry.1 < entry.2 then
    some (match floor with
      | some lowest => min lowest (theirMark watermarks entry.1)
      | none => theirMark watermarks entry.1)
  else floor

/-- The mark a stored row is compared with: by its blinded sender, else by its
plaintext one. -/
def markOf (watermarks : OrderedMap Sender Int) (row : StoredMessage) : Int :=
  match (OrderedMap.collect (watermarks.entries.map fun entry =>
      (blindValue key entry.1, entry.2))).get (row.senderId key) with
  | some blinded => blinded
  | none => (watermarks.get (row.senderId key)).getD (-1)

def getMessagesAboveWatermarks (watermarks : OrderedMap Sender Int) : List Message :=
  match (getSenderMaxLamports key complete store room).entries.foldl (lowerFloor watermarks) none with
  | none => []
  | some floor =>
    ((rawRoomMessages key complete store room (max 0 (floor + 1))).filter fun row =>
      decide (markOf key watermarks row < row.lamport)).filterMap (openMessage complete)

variable {row : StoredMessage} {watermarks : OrderedMap Sender Int}

theorem mem_room_range {code : String} {low high : Int} :
    row ∈ roomRange key store code low high ↔
      row ∈ store.rows ∧ row.roomCode key = code ∧ low ≤ row.lamport ∧ row.lamport ≤ high := by
  unfold roomRange
  rw [mem_sort_rows, mem_filter]
  simp [and_assoc]

theorem room_code_eq_blind :
    row.roomCode key = room.blind key ↔ row.migrated = true ∧ row.message.roomCode = room := by
  unfold StoredMessage.roomCode
  by_cases migrated : row.migrated = true
  · simp [migrated]
  · simp [migrated]

theorem room_code_eq_value :
    row.roomCode key = room.value ↔ row.migrated = false ∧ row.message.roomCode = room := by
  unfold StoredMessage.roomCode
  by_cases migrated : row.migrated = true
  · simp [migrated]
  · simp [migrated, plain_value_inj]

theorem room_range_nodup (code : String) (low high : Int) :
    ((roomRange key store code low high).map fun row => row.message.id).Nodup := by
  unfold roomRange
  refine ((sort_rows_perm _).map _).nodup_iff.mpr ?_
  exact store.keyed.sublist (filter_sublist.map _)

theorem both_ranges_eq (low high : Int) :
    bothRanges key complete store room low high =
      if complete then roomRange key store (room.blind key) low high
      else roomRange key store (room.blind key) low high ++
        roomRange key store room.value low high := by
  unfold bothRanges
  split_ifs
  · rfl
  · unfold mergeById OrderedMap.values
    rw [collect_entries]
    · rw [map_map]
      exact map_id _
    · rw [map_map]
      have names : (Prod.fst ∘ fun row : StoredMessage => (row.message.id, row)) =
          fun row => row.message.id := rfl
      rw [names, map_append, nodup_append]
      refine ⟨room_range_nodup key store _ low high, room_range_nodup key store _ low high, ?_⟩
      intro left leftMember right rightMember same
      obtain ⟨blinded, blindedMember, rfl⟩ := mem_map.mp leftMember
      obtain ⟨legacy, legacyMember, rfl⟩ := mem_map.mp rightMember
      have blindedRow := (mem_room_range key store).mp blindedMember
      have legacyRow := (mem_room_range key store).mp legacyMember
      have equal := inj_on_of_nodup_map store.keyed blindedRow.1 legacyRow.1 same
      rw [equal, legacyRow.2.1] at blindedRow
      exact value_ne_blind key room room blindedRow.2.1

theorem mem_both_ranges {low high : Int} :
    row ∈ bothRanges key complete store room low high ↔
      row ∈ store.rows ∧ row.message.roomCode = room ∧
        (complete = true → row.migrated = true) ∧ low ≤ row.lamport ∧ row.lamport ≤ high := by
  rw [both_ranges_eq]
  cases complete with
  | true =>
    rw [if_pos rfl, mem_room_range, room_code_eq_blind]
    constructor
    · rintro ⟨mem, ⟨migrated, here⟩, bounds⟩
      exact ⟨mem, here, fun _ => migrated, bounds⟩
    · rintro ⟨mem, here, migrated, bounds⟩
      exact ⟨mem, ⟨migrated rfl, here⟩, bounds⟩
  | false =>
    rw [if_neg (by decide), mem_append, mem_room_range, mem_room_range, room_code_eq_blind,
      room_code_eq_value]
    constructor
    · rintro (⟨mem, ⟨-, here⟩, bounds⟩ | ⟨mem, ⟨-, here⟩, bounds⟩)
      · exact ⟨mem, here, by simp, bounds⟩
      · exact ⟨mem, here, by simp, bounds⟩
    · rintro ⟨mem, here, -, bounds⟩
      cases migrated : row.migrated with
      | true => exact Or.inl ⟨mem, ⟨rfl, here⟩, bounds⟩
      | false => exact Or.inr ⟨mem, ⟨rfl, here⟩, bounds⟩

theorem name_sender_get (result : OrderedMap Sender Int) (row : StoredMessage)
    (readable : complete = true → row.migrated = true) (sender : Sender) (named : sender ≠ "") :
    (nameSender complete result row).get sender =
      if row.message.senderId.value = sender then some row.lamport else result.get sender := by
  have opened : openMessage complete row = some row.message := by
    unfold openMessage
    rw [if_neg]
    intro refused
    exact refused.2 (readable refused.1)
  unfold nameSender
  rw [opened]
  dsimp only
  by_cases hit : row.message.senderId.value = sender
  · rw [if_pos (by rw [hit]; exact named), if_pos hit, get_set, if_pos hit.symm]
  · rw [if_neg hit]
    split_ifs
    · rw [get_set, if_neg fun same => hit same.symm]
    · rfl

theorem name_senders_get (rows : List StoredMessage) (result : OrderedMap Sender Int)
    (readable : ∀ row ∈ rows, complete = true → row.migrated = true) (sender : Sender)
    (named : sender ≠ "") :
    (rows.foldl (nameSender complete) result).get sender =
      match rows.reverse.find? fun row => decide (row.message.senderId.value = sender) with
      | some row => some row.lamport
      | none => result.get sender := by
  induction rows using List.reverseRecOn with
  | nil => rfl
  | append_singleton rest row ih =>
    rw [foldl_append, foldl_cons, foldl_nil,
      name_sender_get complete _ row (readable row (by simp)) sender named]
    rw [reverse_append, reverse_singleton, singleton_append, List.find?_cons]
    by_cases hit : row.message.senderId.value = sender
    · simp [hit]
    · rw [if_neg hit, decide_eq_false hit]
      exact ih fun other mem => readable other (mem_append_left _ mem)

theorem mem_highest_values {rows : List StoredMessage}
    (mem : row ∈ (OrderedMap.highestBy (StoredMessage.senderId key) StoredMessage.lamport
      rows).values) :
    OrderedMap.Highest (StoredMessage.senderId key) StoredMessage.lamport rows
      (row.senderId key) row := by
  obtain ⟨name, found⟩ := mem_values_iff.mp mem
  have highest := highest_by_get _ _ found
  rw [highest.keyed]
  exact highest

theorem sender_max_covers (mem : row ∈ rawRoomMessages key true store room 0)
    (named : row.message.senderId.value ≠ "") :
    ∃ highest, row.lamport ≤ highest ∧
      (getSenderMaxLamports key true store room).get row.message.senderId.value = some highest := by
  have migratedRows : ∀ other ∈ rawRoomMessages key true store room 0, other.migrated = true :=
    fun other otherMember => ((mem_both_ranges key true store room).mp otherMember).2.2.1 rfl
  unfold getSenderMaxLamports
  have readable : ∀ other ∈ (OrderedMap.highestBy (StoredMessage.senderId key)
      StoredMessage.lamport (rawRoomMessages key true store room 0)).values,
        true = true → other.migrated = true :=
    fun other otherMember _ => migratedRows other (mem_highest_values key otherMember).member
  rw [name_senders_get true _ _ readable _ named]
  cases found : (OrderedMap.highestBy (StoredMessage.senderId key) StoredMessage.lamport
      (rawRoomMessages key true store room 0)).values.reverse.find?
        (fun other => decide (other.message.senderId.value = row.message.senderId.value)) with
  | some best =>
    have bestMember := mem_reverse.mp (mem_of_find?_eq_some found)
    have highest := mem_highest_values key bestMember
    have sameSender : best.message.senderId = row.message.senderId := by
      have same := List.find?_some found
      exact (plain_value_inj _ _).mp (of_decide_eq_true same)
    refine ⟨best.lamport, highest.above row mem ?_, rfl⟩
    unfold StoredMessage.senderId
    rw [migratedRows row mem, migratedRows best highest.member, sameSender]
  | none =>
    exfalso
    have none_named := List.find?_eq_none.mp found
    cases entry : (OrderedMap.highestBy (StoredMessage.senderId key) StoredMessage.lamport
        (rawRoomMessages key true store room 0)).get (row.senderId key) with
    | none =>
      exact (highest_by_get_none _ _ _ _).mp entry row mem rfl
    | some best =>
      have highest := highest_by_get _ _ entry
      have sameSender : best.message.senderId = row.message.senderId := by
        have same := highest.keyed
        unfold StoredMessage.senderId at same
        rw [migratedRows row mem, migratedRows best highest.member] at same
        simpa using same
      refine none_named best ?_ (by simp [sameSender])
      exact mem_reverse.mpr (mem_values_iff.mpr ⟨_, entry⟩)

theorem their_mark_lt {sender : Sender} {lamport : Int} (positive : 0 ≤ lamport)
    (above : (watermarks.get sender).getD (-1) < lamport) :
    theirMark watermarks sender < lamport := by
  unfold theirMark
  cases stored : watermarks.get sender with
  | none =>
    dsimp only
    omega
  | some mark =>
    rw [stored] at above
    dsimp only
    split_ifs
    · exact above
    · omega

theorem lower_floor_covers (watermarks : OrderedMap Sender Int) (entries : List (Sender × Int))
    (floor : Option Int) {sender : Sender} {highest : Int}
    (behind : theirMark watermarks sender < highest)
    (mem : (sender, highest) ∈ entries ∨
      ∃ lowest, floor = some lowest ∧ lowest ≤ theirMark watermarks sender) :
    ∃ lowest, entries.foldl (lowerFloor watermarks) floor = some lowest ∧
      lowest ≤ theirMark watermarks sender := by
  induction entries generalizing floor with
  | nil =>
    rcases mem with impossible | reached
    · cases impossible
    · exact reached
  | cons entry rest ih =>
    rw [foldl_cons]
    apply ih
    rcases mem with inside | ⟨lowest, rfl, low⟩
    · rcases mem_cons.mp inside with here | later
      · right
        subst here
        unfold lowerFloor
        rw [if_pos behind]
        cases floor with
        | none => exact ⟨_, rfl, le_refl _⟩
        | some lowest => exact ⟨_, rfl, min_le_right _ _⟩
      · exact Or.inl later
    · right
      unfold lowerFloor
      split_ifs
      · exact ⟨_, rfl, (min_le_left _ _).trans low⟩
      · exact ⟨lowest, rfl, low⟩

/-- The marks name senders, not blinded ones. -/
def PlainMarks (watermarks : OrderedMap Sender Int) : Prop :=
  ∀ entry ∈ watermarks.entries, isBlinded entry.1 = false

theorem mark_of_migrated (plain : PlainMarks watermarks) (migrated : row.migrated = true) :
    markOf key watermarks row = (watermarks.get row.message.senderId.value).getD (-1) := by
  have shown : row.senderId key = row.message.senderId.blind key := by
    simp [StoredMessage.senderId, migrated]
  have named : ∀ entry ∈ watermarks.entries, blindValue key entry.1 = row.senderId key →
      entry.1 = row.message.senderId.value := by
    intro entry mem same
    have blind : Plain.blind key ⟨entry.1, plain entry mem⟩ = row.message.senderId.blind key :=
      same.trans shown
    rw [blind_inj] at blind
    exact congrArg Plain.value blind
  unfold markOf
  cases found : (OrderedMap.collect (watermarks.entries.map fun entry =>
      (blindValue key entry.1, entry.2))).get (row.senderId key) with
  | some mark =>
    obtain ⟨⟨name, value⟩, mem, same⟩ := mem_map.mp (collect_get_mem found)
    have sameName : blindValue key name = row.senderId key := congrArg Prod.fst same
    have sameValue : value = mark := congrArg Prod.snd same
    have sameSender : name = row.message.senderId.value := named (name, value) mem sameName
    have stored := get_of_mem mem
    rw [sameSender, sameValue] at stored
    rw [stored]
    rfl
  | none =>
    have absent := (collect_get_none _ _).mp found
    have noMark : watermarks.get row.message.senderId.value = none := by
      cases stored : watermarks.get row.message.senderId.value with
      | none => rfl
      | some mark =>
        have mem := mem_of_get stored
        have hit := absent (blindValue key row.message.senderId.value, mark)
          (mem_map.mpr ⟨_, mem, rfl⟩)
        exact absurd shown.symm hit
    have noBlind : watermarks.get (row.senderId key) = none := by
      cases stored : watermarks.get (row.senderId key) with
      | none => rfl
      | some mark =>
        have unblinded := plain _ (mem_of_get stored)
        rw [shown, is_blinded_blind] at unblinded
        cases unblinded
    rw [noMark, noBlind]

/-- A store the migration is through with. Its rows were issued here or passed
`remoteLamportAllowed`, so they have a sender and a lamport in range. -/
structure Migrated : Prop where
  migrated : ∀ row ∈ store.rows, row.migrated = true
  valid : ∀ row ∈ store.rows, validRow ⟨row.message.senderId.value, row.lamport⟩ = true

theorem mem_messages_above (settled : Migrated store) (plain : PlainMarks watermarks)
    {message : Message} :
    message ∈ getMessagesAboveWatermarks key true store room watermarks ↔
      (∃ row ∈ store.rows, row.message = message) ∧ message.roomCode = room ∧
        (watermarks.get message.senderId.value).getD (-1) < message.lamport := by
  constructor
  · intro selected
    unfold getMessagesAboveWatermarks at selected
    split at selected
    · cases selected
    · obtain ⟨row, mem, opened⟩ := mem_filterMap.mp selected
      obtain ⟨read, above⟩ := mem_filter.mp mem
      obtain ⟨stored, here, migrated, -⟩ := (mem_both_ranges key true store room).mp read
      have same : row.message = message := by
        unfold openMessage at opened
        split_ifs at opened
        exact Option.some.inj opened
      rw [mark_of_migrated key plain (migrated rfl)] at above
      refine ⟨⟨row, stored, same⟩, same ▸ here, ?_⟩
      rw [← same]
      exact of_decide_eq_true above
  · rintro ⟨⟨row, stored, rfl⟩, here, above⟩
    have migrated := settled.migrated row stored
    have valid := settled.valid row stored
    simp only [validRow, Bool.and_eq_true, decide_eq_true_eq, isSafeInteger] at valid
    obtain ⟨⟨named, -, small⟩, positive⟩ := valid
    have read : row ∈ rawRoomMessages key true store room 0 :=
      (mem_both_ranges key true store room).mpr ⟨stored, here, fun _ => migrated, positive, small⟩
    obtain ⟨highest, most, found⟩ := sender_max_covers key store room read named
    have behind := their_mark_lt positive above
    obtain ⟨floor, lowered, low⟩ := lower_floor_covers watermarks
      (getSenderMaxLamports key true store room).entries none (behind.trans_le most)
      (Or.inl (mem_of_get found))
    unfold getMessagesAboveWatermarks
    rw [lowered]
    refine mem_filterMap.mpr ⟨row, mem_filter.mpr ⟨?_, ?_⟩, ?_⟩
    · refine (mem_both_ranges key true store room).mpr
        ⟨stored, here, fun _ => migrated, ?_, small⟩
      omega
    · rw [mark_of_migrated key plain migrated]
      exact decide_eq_true above
    · simp [openMessage, migrated]

end Reads

end AwfulChat.Storage
