import AwfulChat.Library.Interleaving
import AwfulChat.Storage.RoomWrites

/-!
# Room profiles and leave markers

A text room's `createdAt` is the generation its profiles are bound to, and a leave
marker refuses every generation at or below its cutoff. `putRoom`,
`putOwnRoomProfile`, `putPeerRoomProfile`, `deleteRoomProfilesForRoom` and
`putRoomDeletionMarker` of `storage.ts`, for one room, any number of them side by
side and in any number of tabs. Each reads what it needs, opens and seals outside any
transaction, and writes in one of its own. A profile write compares the marker's seal
there with the one it read; the two marker writers and a `putRoom` do not, so their
promises hold as long as the marker they read still stands when they write.
-/

namespace AwfulChat.Storage

open Library Library.OrderedMap List Option Bool

set_option autoImplicit false

/-- A deletion row: what it opens to, if it does, the IV of its seal, none for a
plaintext row, and the number of the write that put it. -/
structure MarkerRow where
  opened : Option RoomDeletionMarker
  iv : Option Nat
  stamp : Nat

inductive ProfileKind where
  | own
  | peer
  deriving DecidableEq

structure ProfileRow (Content : Type) where
  generation : Int
  content : Content
  stamp : Nat

/-- A text room to put; `createdAt` is not optional in its type. -/
structure TextRoom where
  record : RoomRecord
  text : record.type = .text
  dated : record.createdAt ≠ none

/-- A room put where none was read, or none was stored any more, and the marker
stored at that moment. -/
structure Creation where
  room : RoomRecord
  marker : Option RoomDeletionMarker

/-- The rows of one room. `sealed` remembers what each IV was used for. -/
structure GenerationStore (Content : Type) where
  rooms : RoomDisk
  marker : Option MarkerRow
  profiles : OrderedMap (ProfileKind × String) (ProfileRow Content)
  nextIv : Nat
  stamp : Nat
  sealed : OrderedMap Nat (Option RoomDeletionMarker)
  created : List Creation

/-- The error texts of the profile writers. -/
inductive GenerationError where
  | notJoined
  | wasDeleted
  deriving DecidableEq

def GenerationError.text : GenerationError → String
  | .notJoined => "room generation is not joined"
  | .wasDeleted => "room generation was deleted"

inductive GenerationCall (Content : Type) where
  | putRoom (room : TextRoom)
  | putProfile (kind : ProfileKind) (did : String) (generation : Int) (content : Content)
  | deleteRoomProfilesForRoom (generation deletedAt : Int)
  | putRoomDeletionMarker (marker : RoomDeletionMarker)

/-- What a call writes in its transaction. -/
inductive GenerationWrite (Content : Type) where
  | room (record : RoomRecord) (creating : Bool)
  | profile (key : ProfileKind × String) (generation : Int) (content : Content)
  | clear (marker : Option (RoomDeletionMarker × Nat))
  | marker (marker : RoomDeletionMarker) (iv : Nat)

inductive GenerationPhase (Content : Type) where
  | room
  | legacyRoom
  | marker
  | committing (before : Option MarkerRow) (write : GenerationWrite Content)
  | finished (error : Option GenerationError)

structure GenerationJob (Content : Type) where
  call : GenerationCall Content
  phase : GenerationPhase Content

section Model

variable {Content : Type}

def putOwnRoomProfile (did : String) (generation : Int) (content : Content) :
    GenerationCall Content :=
  .putProfile .own did generation content

def putPeerRoomProfile (did : String) (generation : Int) (content : Content) :
    GenerationCall Content :=
  .putProfile .peer did generation content

def openMarker (row : Option MarkerRow) : Option RoomDeletionMarker := row.bind MarkerRow.opened

/-- `_sealFingerprint`; no row and a plaintext row read alike. -/
def sealFingerprint (row : Option MarkerRow) : Option Nat := row.bind MarkerRow.iv

def deletionMarkerIsNewer (incoming : RoomDeletionMarker) : Option RoomDeletionMarker → Bool
  | none => true
  | some existing =>
    decide (roomDeletionCutoff existing < roomDeletionCutoff incoming) ||
      (decide (roomDeletionCutoff incoming = roomDeletionCutoff existing) &&
        decide (existing.generation < incoming.generation))

/-- The first check of a profile write. -/
def joined (room : Option RoomRecord) (generation : Int) : Bool :=
  match room with
  | none => false
  | some room => decide (room.type = .text) && decide (room.createdAt = some generation)

def deletedBy (marker : Option RoomDeletionMarker) (generation : Int) : Bool :=
  match marker with
  | none => false
  | some marker => decide (generation ≤ roomDeletionCutoff marker)

/-- Why a profile write of a generation is refused, if it is. -/
def profileRefusal (room : Option RoomRecord) (marker : Option RoomDeletionMarker)
    (generation : Int) : Option GenerationError :=
  if !joined room generation then some .notJoined
  else if deletedBy marker generation then some .wasDeleted
  else none

/-- What a call goes on to once it has read the room. -/
def roomRead (room : Option RoomRecord) : GenerationCall Content → GenerationPhase Content
  | .putRoom text =>
    match room with
    | some _ => .committing none (.room text.record false)
    | none => .marker
  | .putProfile _ _ generation _ =>
    if joined room generation then .marker else .finished (some .notJoined)
  | _ => .marker

/-- `putRoom` of a code outside the `dm-` ones, given the marker it read. -/
def siteOf (migrating : Bool) (marker : Option RoomDeletionMarker) : RoomSite :=
  ⟨false, migrating, marker⟩

def GenerationStore.seal (store : GenerationStore Content) (marker : RoomDeletionMarker) :
    GenerationStore Content :=
  { store with nextIv := store.nextIv + 1, sealed := store.sealed.set store.nextIv (some marker) }

/-- What a call does once it has read the marker, up to its transaction. -/
def markerRead (migrating : Bool) (store : GenerationStore Content) :
    GenerationCall Content → GenerationStore Content × GenerationPhase Content
  | .putRoom text =>
    (store, .committing store.marker (.room
      (withLiveGeneration (siteOf migrating (openMarker store.marker)) text.record none) true))
  | .putProfile kind did generation content =>
    if deletedBy (openMarker store.marker) generation then
      (store, .finished (some .wasDeleted))
    else (store, .committing store.marker (.profile (kind, did) generation content))
  | .deleteRoomProfilesForRoom generation deletedAt =>
    let incoming : RoomDeletionMarker := ⟨generation, deletedAt⟩
    if deletionMarkerIsNewer incoming (openMarker store.marker) then
      (store.seal incoming, .committing store.marker (.clear (some (incoming, store.nextIv))))
    else (store, .committing store.marker (.clear none))
  | .putRoomDeletionMarker incoming =>
    if deletionMarkerIsNewer incoming (openMarker store.marker) then
      (store.seal incoming, .committing store.marker (.marker incoming store.nextIv))
    else (store, .finished none)

def GenerationStore.putMarker (store : GenerationStore Content) (marker : RoomDeletionMarker)
    (iv : Nat) : GenerationStore Content :=
  { store with marker := some ⟨some marker, some iv, store.stamp + 1⟩, stamp := store.stamp + 1 }

/-- The write transaction, and the error it throws. -/
def commitWrite (migrating : Bool) (store : GenerationStore Content) (before : Option MarkerRow) :
    GenerationWrite Content → GenerationStore Content × Option GenerationError
  | .room record creating =>
    let sealed := putRoomNow (siteOf migrating none) record none
    ({ store with
        rooms := ⟨some (.readable sealed), none⟩
        created := if creating || !store.rooms.present then
            ⟨sealed, openMarker store.marker⟩ :: store.created
          else store.created }, none)
  | .profile key generation content =>
    if sealFingerprint store.marker = sealFingerprint before then
      ({ store with
          profiles := store.profiles.set key ⟨generation, content, store.stamp + 1⟩
          stamp := store.stamp + 1 }, none)
    else (store, some .wasDeleted)
  | .clear none => ({ store with profiles := .empty }, none)
  | .clear (some (marker, iv)) => ({ store with profiles := .empty }.putMarker marker iv, none)
  | .marker marker iv => (store.putMarker marker iv, none)

def generationAct (migrating : Bool) (store : GenerationStore Content)
    (job : GenerationJob Content) : Option (GenerationStore Content × GenerationJob Content) :=
  match job.phase with
  | .room =>
    match store.rooms.blinded with
    | some stored => some (store, { job with phase := roomRead (openRoom stored) job.call })
    | none =>
      some (store, { job with phase := if migrating then .legacyRoom else roomRead none job.call })
  | .legacyRoom =>
    some (store, { job with phase := roomRead (store.rooms.legacy.bind openRoom) job.call })
  | .marker =>
    let read := markerRead migrating store job.call
    some (read.1, { job with phase := read.2 })
  | .committing before write =>
    let committed := commitWrite migrating store before write
    some (committed.1, { job with phase := .finished committed.2 })
  | .finished _ => none

def GenerationCall.firstPhase : GenerationCall Content → GenerationPhase Content
  | .putRoom _ => .room
  | .putProfile _ _ _ _ => .room
  | _ => .marker

inductive GenerationOutside where
  | deleteRoom
  | deletePeerRoomProfile (did : String)

/-- The calls of one room; rooms are left and peers' rows deleted from outside. -/
def roomGenerations (Content : Type) (migrating : Bool) :
    Program (GenerationStore Content) (GenerationCall Content) (GenerationJob Content)
      GenerationOutside where
  start := fun store call => (store, ⟨call, call.firstPhase⟩)
  act := generationAct migrating
  outside := fun store event =>
    match event with
    | .deleteRoom => some { store with rooms := ⟨none, none⟩ }
    | .deletePeerRoomProfile did =>
      some { store with profiles := store.profiles.delete (.peer, did) }

end Model

/-! ## What a write relies on -/

section Standing

variable {Content : Type} {migrating : Bool}

structure GenerationStore.Sound (store : GenerationStore Content) : Prop where
  sealed : ∀ row ∈ store.marker, ∀ iv ∈ row.iv, store.sealed.get iv = some row.opened
  fresh : ∀ iv, store.nextIv ≤ iv → store.sealed.get iv = none
  marker_stamp : ∀ row ∈ store.marker, row.stamp ≤ store.stamp
  profile_stamp : ∀ key, ∀ profile ∈ store.profiles.get key, profile.stamp ≤ store.stamp
  /-- A profile row written after the marker is above its cutoff. -/
  respected : ∀ row ∈ store.marker, ∀ marker ∈ row.opened, ∀ key,
    ∀ profile ∈ store.profiles.get key, row.stamp < profile.stamp →
      roomDeletionCutoff marker < profile.generation

/-- The store still holds the row a call read, or one sealed since. -/
structure MarkerRead (store : GenerationStore Content) (before : Option MarkerRow) : Prop where
  sealed : ∀ row ∈ before, ∀ iv ∈ row.iv, store.sealed.get iv = some row.opened
  stored : store.marker = before ∨ ∃ row ∈ store.marker, row.iv ≠ none

/-- A room record above a marker's cutoff. -/
def Outlives (room : RoomRecord) (marker : RoomDeletionMarker) : Prop :=
  room.type = .text ∧ ∃ generation, room.createdAt = some generation ∧
    roomDeletionCutoff marker < generation

def MarkerReady (store : GenerationStore Content) (before : Option MarkerRow)
    (marker : RoomDeletionMarker) (iv : Nat) : Prop :=
  MarkerRead store before ∧ store.sealed.get iv = some (some marker) ∧
    deletionMarkerIsNewer marker (openMarker before) = true

/-- What a call knows of its write when its transaction begins. -/
def GenerationWrite.Ready (store : GenerationStore Content) (before : Option MarkerRow) :
    GenerationWrite Content → Prop
  | .room _ false => True
  | .room record true => MarkerRead store before ∧ ∀ marker ∈ openMarker before, Outlives record marker
  | .profile _ generation _ =>
    MarkerRead store before ∧ ∀ marker ∈ openMarker before, roomDeletionCutoff marker < generation
  | .clear none => True
  | .clear (some (incoming, iv)) => MarkerReady store before incoming iv
  | .marker incoming iv => MarkerReady store before incoming iv

def GenerationJob.Held (store : GenerationStore Content) (job : GenerationJob Content) : Prop :=
  match job.phase with
  | .committing before write => write.Ready store before
  | _ => True

/-- What every act does to the store: an IV keeps its use, and the marker stays or
is replaced by a sealed one. -/
structure GenerationStore.Moves (store after : GenerationStore Content) : Prop where
  sealed : ∀ iv opened, store.sealed.get iv = some opened → after.sealed.get iv = some opened
  marker : after.marker = store.marker ∨ ∃ row ∈ after.marker, row.iv ≠ none

variable {store after : GenerationStore Content} {before : Option MarkerRow}

theorem GenerationStore.Moves.refl (store : GenerationStore Content) : store.Moves store :=
  ⟨fun _ _ found => found, .inl rfl⟩

theorem GenerationStore.Moves.trans {third : GenerationStore Content} (first : store.Moves after)
    (second : after.Moves third) : store.Moves third := by
  refine ⟨fun iv opened found => second.sealed iv opened (first.sealed iv opened found), ?_⟩
  rcases second.marker with same | sealed
  · rw [same]
    exact first.marker
  · exact .inr sealed

theorem MarkerRead.moves (read : MarkerRead store before) (moved : store.Moves after) :
    MarkerRead after before := by
  refine ⟨fun row found iv sealed => moved.sealed iv _ (read.sealed row found iv sealed), ?_⟩
  rcases moved.marker with same | sealed
  · rw [same]
    exact read.stored
  · exact .inr sealed

theorem MarkerRead.same_marker (read : MarkerRead store before) (sound : store.Sound)
    (fingerprint : sealFingerprint store.marker = sealFingerprint before) :
    openMarker store.marker = openMarker before := by
  rcases read.stored with same | ⟨row, stored, sealed⟩
  · rw [same]
  · obtain ⟨iv, used⟩ := ne_none_iff_exists'.mp sealed
    rw [mem_def] at stored
    have shown : sealFingerprint before = some iv := by
      rw [← fingerprint, stored]
      exact used
    obtain ⟨row_before, was, used_before⟩ := bind_eq_some_iff.mp shown
    have now := sound.sealed row stored iv used
    rw [read.sealed row_before was iv used_before] at now
    rw [stored, was]
    exact (Option.some.inj now).symm

theorem GenerationWrite.Ready.moves {write : GenerationWrite Content}
    (ready : write.Ready store before) (moved : store.Moves after) : write.Ready after before := by
  cases write with
  | room record creating =>
    cases creating with
    | false => trivial
    | true => exact ⟨ready.1.moves moved, ready.2⟩
  | profile key generation content => exact ⟨ready.1.moves moved, ready.2⟩
  | clear marker =>
    cases marker with
    | none => trivial
    | some put => exact ⟨ready.1.moves moved, moved.sealed _ _ ready.2.1, ready.2.2⟩
  | marker marker iv => exact ⟨ready.1.moves moved, moved.sealed _ _ ready.2.1, ready.2.2⟩

theorem GenerationJob.Held.moves {job : GenerationJob Content} (held : job.Held store)
    (moved : store.Moves after) : job.Held after := by
  unfold GenerationJob.Held at held ⊢
  split at held
  · exact held.moves moved
  · trivial

theorem marker_read_now (sound : store.Sound) : MarkerRead store store.marker :=
  ⟨sound.sealed, .inl rfl⟩

theorem lives_above (text : TextRoom) (marker : Option RoomDeletionMarker) :
    ∀ cut ∈ marker, Outlives (withLiveGeneration (siteOf migrating marker) text.record none) cut := by
  intro cut found
  rw [mem_def] at found
  subst found
  obtain ⟨generation, dated⟩ := ne_none_iff_exists'.mp text.dated
  simp only [withLiveGeneration, siteOf, Outlives]
  split_ifs with above
  · rw [dated, getD_some] at above
    exact ⟨text.text, generation, dated, by omega⟩
  · exact ⟨text.text, _, rfl, by omega⟩

theorem not_deleted_by {marker : Option RoomDeletionMarker} {generation : Int}
    (alive : ¬deletedBy marker generation = true) :
    ∀ cut ∈ marker, roomDeletionCutoff cut < generation := by
  intro cut found
  rw [mem_def] at found
  subst found
  simpa [deletedBy] using alive

theorem newer_cutoff {incoming existing : RoomDeletionMarker}
    (newer : deletionMarkerIsNewer incoming (some existing) = true) :
    roomDeletionCutoff existing ≤ roomDeletionCutoff incoming := by
  simp only [deletionMarkerIsNewer, or_eq_true, and_eq_true, decide_eq_true_eq] at newer
  omega

end Standing

/-! ## One act -/

section Acts

variable {Content : Type} {migrating : Bool} {store after : GenerationStore Content}
  {before : Option MarkerRow} {job next : GenerationJob Content}

theorem GenerationStore.Sound.seal (sound : store.Sound) (marker : RoomDeletionMarker) :
    (store.seal marker).Sound ∧ store.Moves (store.seal marker) := by
  have unused := sound.fresh store.nextIv (Nat.le_refl _)
  have grown : ∀ iv opened, store.sealed.get iv = some opened →
      (store.seal marker).sealed.get iv = some opened := by
    intro iv opened found
    have other : iv ≠ store.nextIv := by
      intro same
      rw [same, unused] at found
      cases found
    simpa [GenerationStore.seal, get_set, other] using found
  refine ⟨⟨?_, ?_, sound.marker_stamp, sound.profile_stamp, sound.respected⟩, grown, .inl rfl⟩
  · intro row found iv used
    exact grown iv row.opened (sound.sealed row found iv used)
  · intro iv later
    simp only [GenerationStore.seal] at later ⊢
    rw [get_set_other _ _ _ _ (by omega)]
    exact sound.fresh iv (by omega)

theorem sealed_now (marker : RoomDeletionMarker) :
    (store.seal marker).sealed.get store.nextIv = some (some marker) := by
  simp [GenerationStore.seal]

theorem GenerationStore.Sound.put_marker (sound : store.Sound) {marker : RoomDeletionMarker}
    {iv : Nat} (sealed : store.sealed.get iv = some (some marker)) :
    (store.putMarker marker iv).Sound ∧ store.Moves (store.putMarker marker iv) := by
  refine ⟨⟨?_, sound.fresh, ?_, ?_, ?_⟩, fun _ _ found => found, .inr ⟨_, rfl, nofun⟩⟩
  · intro row found other used
    cases found
    cases used
    exact sealed
  · intro row found
    cases found
    exact Nat.le_refl _
  · intro key profile found
    exact Nat.le_succ_of_le (sound.profile_stamp key profile found)
  · intro row found cut opened key profile stored later
    cases found
    have earlier := sound.profile_stamp key profile stored
    simp only at later
    omega

theorem GenerationStore.Sound.put_profile (sound : store.Sound) (key : ProfileKind × String)
    {generation : Int} (content : Content)
    (alive : ∀ marker ∈ openMarker store.marker, roomDeletionCutoff marker < generation) :
    { store with
      profiles := store.profiles.set key ⟨generation, content, store.stamp + 1⟩
      stamp := store.stamp + 1 }.Sound := by
  refine ⟨sound.sealed, sound.fresh, ?_, ?_, ?_⟩
  · intro row found
    exact Nat.le_succ_of_le (sound.marker_stamp row found)
  · intro other profile found
    simp only [get_set] at found
    split_ifs at found with same
    · cases found
      exact Nat.le_refl _
    · exact Nat.le_succ_of_le (sound.profile_stamp other profile found)
  · intro row found cut opened other profile stored later
    simp only [get_set] at stored
    split_ifs at stored with same
    · cases stored
      exact alive cut (bind_eq_some_iff.mpr ⟨row, found, opened⟩)
    · exact sound.respected row found cut opened other profile stored later

theorem GenerationStore.Sound.drop_profiles (sound : store.Sound)
    (kept : OrderedMap (ProfileKind × String) (ProfileRow Content))
    (fewer : ∀ key, ∀ profile ∈ kept.get key, store.profiles.get key = some profile) :
    { store with profiles := kept }.Sound := by
  refine ⟨sound.sealed, sound.fresh, sound.marker_stamp, ?_, ?_⟩
  · intro key profile found
    exact sound.profile_stamp key profile (fewer key profile found)
  · intro row found cut opened key profile stored
    exact sound.respected row found cut opened key profile (fewer key profile stored)

theorem GenerationStore.Sound.with_rooms (sound : store.Sound) (rooms : RoomDisk)
    (created : List Creation) : { store with rooms, created }.Sound :=
  ⟨sound.sealed, sound.fresh, sound.marker_stamp, sound.profile_stamp, sound.respected⟩

theorem room_read_held (room : Option RoomRecord) (call : GenerationCall Content) :
    GenerationJob.Held store ⟨call, roomRead room call⟩ := by
  cases call with
  | putRoom text => cases room <;> trivial
  | putProfile kind did generation content =>
    simp only [roomRead]
    split_ifs <;> trivial
  | deleteRoomProfilesForRoom generation deletedAt | putRoomDeletionMarker marker => trivial

theorem marker_read_kept (sound : store.Sound) (call : GenerationCall Content) :
    (markerRead migrating store call).1.Sound ∧
      GenerationJob.Held (markerRead migrating store call).1
        ⟨call, (markerRead migrating store call).2⟩ ∧
      store.Moves (markerRead migrating store call).1 := by
  cases call with
  | putRoom text =>
    exact ⟨sound, ⟨marker_read_now sound, lives_above text _⟩, .refl store⟩
  | putProfile kind did generation content =>
    simp only [markerRead]
    split_ifs with deleted
    · exact ⟨sound, trivial, .refl store⟩
    · exact ⟨sound, ⟨marker_read_now sound, not_deleted_by deleted⟩, .refl store⟩
  | deleteRoomProfilesForRoom generation deletedAt =>
    simp only [markerRead]
    split_ifs with newer
    · obtain ⟨kept, moved⟩ := sound.seal ⟨generation, deletedAt⟩
      exact ⟨kept, ⟨(marker_read_now sound).moves moved, sealed_now _, newer⟩, moved⟩
    · exact ⟨sound, trivial, .refl store⟩
  | putRoomDeletionMarker incoming =>
    simp only [markerRead]
    split_ifs with newer
    · obtain ⟨kept, moved⟩ := sound.seal incoming
      exact ⟨kept, ⟨(marker_read_now sound).moves moved, sealed_now _, newer⟩, moved⟩
    · exact ⟨sound, trivial, .refl store⟩

theorem commit_kept (sound : store.Sound) {write : GenerationWrite Content}
    (ready : write.Ready store before) :
    (commitWrite migrating store before write).1.Sound ∧
      store.Moves (commitWrite migrating store before write).1 := by
  cases write with
  | room record creating =>
    exact ⟨sound.with_rooms _ _, fun _ _ found => found, .inl rfl⟩
  | profile key generation content =>
    simp only [commitWrite]
    split_ifs with same
    · refine ⟨sound.put_profile key content ?_, fun _ _ found => found, .inl rfl⟩
      rw [ready.1.same_marker sound same]
      exact ready.2
    · exact ⟨sound, .refl store⟩
  | clear put =>
    have cleared := sound.drop_profiles .empty (by simp)
    have moved : store.Moves { store with profiles := .empty } := ⟨fun _ _ found => found, .inl rfl⟩
    cases put with
    | none => exact ⟨cleared, moved⟩
    | some put =>
      obtain ⟨kept, later⟩ := cleared.put_marker ready.2.1
      exact ⟨kept, moved.trans later⟩
  | marker marker iv => exact sound.put_marker ready.2.1

theorem generation_act_cases (acted : generationAct migrating store job = some (after, next)) :
    (after = store ∧ ∃ phase, next = { job with phase } ∧
      (phase = .legacyRoom ∨ ∃ room, phase = roomRead room job.call)) ∨
    (job.phase = .marker ∧ after = (markerRead migrating store job.call).1 ∧
      next = { job with phase := (markerRead migrating store job.call).2 }) ∨
    ∃ before write, job.phase = .committing before write ∧
      after = (commitWrite migrating store before write).1 ∧
      next = { job with phase := .finished (commitWrite migrating store before write).2 } := by
  unfold generationAct at acted
  split at acted
  · split at acted
    · cases acted
      exact .inl ⟨rfl, _, rfl, .inr ⟨_, rfl⟩⟩
    · cases acted
      refine .inl ⟨rfl, _, rfl, ?_⟩
      split_ifs
      · exact .inl rfl
      · exact .inr ⟨_, rfl⟩
  · cases acted
    exact .inl ⟨rfl, _, rfl, .inr ⟨_, rfl⟩⟩
  case h_3 reading =>
    cases acted
    exact .inr (.inl ⟨reading, rfl, rfl⟩)
  case h_4 before write committing =>
    cases acted
    exact .inr (.inr ⟨before, write, committing, rfl, rfl⟩)
  · cases acted

theorem GenerationJob.Held.ready {write : GenerationWrite Content} (held : job.Held store)
    (committing : job.phase = .committing before write) : write.Ready store before := by
  unfold GenerationJob.Held at held
  rw [committing] at held
  exact held

theorem generation_act_kept (sound : store.Sound) (held : job.Held store)
    (acted : generationAct migrating store job = some (after, next)) :
    after.Sound ∧ next.Held after ∧ store.Moves after := by
  rcases generation_act_cases acted with ⟨rfl, phase, rfl, asked⟩ | ⟨-, rfl, rfl⟩ |
    ⟨before, write, committing, rfl, rfl⟩
  · refine ⟨sound, ?_, .refl _⟩
    rcases asked with rfl | ⟨room, rfl⟩
    · trivial
    · exact room_read_held room job.call
  · exact marker_read_kept sound job.call
  · obtain ⟨kept, moved⟩ := commit_kept sound (held.ready committing)
    exact ⟨kept, trivial, moved⟩

end Acts

/-! ## Whole interleavings -/

section Interleavings

variable {Content : Type} {migrating : Bool} {store after : GenerationStore Content}
  {before : Option MarkerRow}

theorem first_phase_held (store : GenerationStore Content) (call : GenerationCall Content) :
    GenerationJob.Held store ⟨call, call.firstPhase⟩ := by
  cases call <;> trivial

theorem outside_kept (sound : store.Sound) (event : GenerationOutside)
    (happened : (roomGenerations Content migrating).outside store event = some after) :
    after.Sound ∧ after.marker = store.marker ∧ after.created = store.created ∧
      store.Moves after := by
  cases event with
  | deleteRoom =>
    cases happened
    exact ⟨sound.with_rooms _ _, rfl, rfl, fun _ _ found => found, .inl rfl⟩
  | deletePeerRoomProfile did =>
    cases happened
    refine ⟨sound.drop_profiles _ ?_, rfl, rfl, fun _ _ found => found, .inl rfl⟩
    intro key profile found
    rw [get_delete] at found
    split_ifs at found
    · cases found
    · exact found

theorem generations_keep : Keeps (roomGenerations Content migrating) (fun _ _ => True)
    GenerationStore.Sound (fun store job => job.Held store) GenerationStore.Moves where
  refl := .refl
  trans := .trans
  start := by
    intro pool call store job _ sound started
    cases started
    exact ⟨sound, first_phase_held _ call, .refl _⟩
  act := by
    intro pool index job store next _ _ sound held acted
    exact generation_act_kept sound held acted
  outside := by
    intro pool event store _ sound happened
    obtain ⟨kept, -, -, moved⟩ := outside_kept sound event happened
    exact ⟨kept, moved⟩
  stable := fun _ moved held => held.moves moved

/-- The rows a call acts on are still as it read them: the marker of a call that
writes one or creates a room, the room of a `putRoom` that found one. -/
def GenerationWrite.undisturbed (store : GenerationStore Content) (before : Option MarkerRow) :
    GenerationWrite Content → Bool
  | .room _ true => decide (sealFingerprint store.marker = sealFingerprint before)
  | .room _ false => store.rooms.present
  | .profile _ _ _ => true
  | .clear none => true
  | .clear (some _) => decide (sealFingerprint store.marker = sealFingerprint before)
  | .marker _ _ => decide (sealFingerprint store.marker = sealFingerprint before)

/-- The same of the call that takes the turn, if it is about to write. -/
def undisturbedTurn (pool : Pool (GenerationStore Content) (GenerationJob Content)) :
    Turn (GenerationCall Content) GenerationOutside → Bool
  | .advance index =>
    match pool.jobs[index]? with
    | some ⟨_, .committing before write⟩ => write.undisturbed pool.shared before
    | _ => true
  | _ => true

/-- Every room created while a marker was stored is above it. -/
def CreatedAbove (store : GenerationStore Content) : Prop :=
  ∀ creation ∈ store.created, ∀ marker ∈ creation.marker, Outlives creation.room marker

/-- The stored marker stays, and its cutoff with it, or gives way to a later cutoff. -/
def CutoffHeld (store after : GenerationStore Content) : Prop :=
  ∀ marker ∈ openMarker store.marker, ∃ later ∈ openMarker after.marker,
    roomDeletionCutoff marker ≤ roomDeletionCutoff later

theorem cutoff_held_of_same (same : after.marker = store.marker) : CutoffHeld store after := by
  intro marker found
  exact ⟨marker, same ▸ found, Int.le_refl _⟩

theorem put_marker_cutoff {marker : RoomDeletionMarker} {iv : Nat} (sound : store.Sound)
    (ready : MarkerReady store before marker iv)
    (same : sealFingerprint store.marker = sealFingerprint before)
    (put : openMarker after.marker = some marker) : CutoffHeld store after := by
  intro existing found
  have newer := ready.2.2
  rw [← ready.1.same_marker sound same, mem_def.mp found] at newer
  exact ⟨marker, put, newer_cutoff newer⟩

theorem commit_undisturbed (sound : store.Sound) (above : CreatedAbove store)
    {write : GenerationWrite Content} (ready : write.Ready store before)
    (undisturbed : write.undisturbed store before = true) :
    CreatedAbove (commitWrite migrating store before write).1 ∧
      CutoffHeld store (commitWrite migrating store before write).1 := by
  cases write with
  | room record creating =>
    refine ⟨?_, cutoff_held_of_same rfl⟩
    cases creating with
    | false =>
      simp only [GenerationWrite.undisturbed] at undisturbed
      intro creation mem
      simp only [commitWrite, undisturbed] at mem
      exact above creation mem
    | true =>
      have same := of_decide_eq_true undisturbed
      intro creation mem
      rcases mem_cons.mp mem with rfl | old
      · intro marker found
        rw [ready.1.same_marker sound same] at found
        exact ready.2 marker found
      · exact above creation old
  | profile key generation content =>
    simp only [commitWrite]
    split_ifs
    · exact ⟨above, cutoff_held_of_same rfl⟩
    · exact ⟨above, cutoff_held_of_same rfl⟩
  | clear put =>
    cases put with
    | none => exact ⟨above, cutoff_held_of_same rfl⟩
    | some put =>
      exact ⟨above, put_marker_cutoff sound ready (of_decide_eq_true undisturbed) rfl⟩
  | marker marker iv =>
    exact ⟨above, put_marker_cutoff sound ready (of_decide_eq_true undisturbed) rfl⟩

theorem marker_read_rest (migrating : Bool) (store : GenerationStore Content)
    (call : GenerationCall Content) :
    (markerRead migrating store call).1.marker = store.marker ∧
      (markerRead migrating store call).1.created = store.created := by
  cases call with
  | putRoom text => exact ⟨rfl, rfl⟩
  | putProfile kind did generation content | deleteRoomProfilesForRoom generation deletedAt
  | putRoomDeletionMarker incoming =>
    simp only [markerRead]
    split_ifs <;> exact ⟨rfl, rfl⟩

theorem act_undisturbed {pool : Pool (GenerationStore Content) (GenerationJob Content)}
    {index : Nat} {job next : GenerationJob Content} (found : pool.jobs[index]? = some job)
    (undisturbed : undisturbedTurn pool (.advance index) = true) (sound : pool.shared.Sound)
    (above : CreatedAbove pool.shared) (held : job.Held pool.shared)
    (acted : generationAct migrating pool.shared job = some (after, next)) :
    CreatedAbove after ∧ CutoffHeld pool.shared after := by
  rcases generation_act_cases acted with ⟨rfl, -⟩ | ⟨-, rfl, -⟩ |
    ⟨before, write, committing, rfl, -⟩
  · exact ⟨above, cutoff_held_of_same rfl⟩
  · obtain ⟨marker, created⟩ := marker_read_rest migrating pool.shared job.call
    refine ⟨?_, cutoff_held_of_same marker⟩
    unfold CreatedAbove
    rw [created]
    exact above
  · refine commit_undisturbed sound above (held.ready committing) ?_
    obtain ⟨call, phase⟩ := job
    cases committing
    simpa only [undisturbedTurn, found] using undisturbed

theorem cutoffs_keep : Keeps (roomGenerations Content migrating)
    (fun pool turn => undisturbedTurn pool turn = true)
    (fun store => store.Sound ∧ CreatedAbove store) (fun store job => job.Held store)
    (fun store after => store.Moves after ∧ CutoffHeld store after) where
  refl := fun store => ⟨.refl store, cutoff_held_of_same rfl⟩
  trans := by
    rintro first second third ⟨moved, held⟩ ⟨moved_again, held_again⟩
    refine ⟨moved.trans moved_again, ?_⟩
    intro marker found
    obtain ⟨later, stored, first_le⟩ := held marker found
    obtain ⟨last, stored_last, second_le⟩ := held_again later stored
    exact ⟨last, stored_last, Int.le_trans first_le second_le⟩
  start := by
    intro pool call store job _ good started
    cases started
    exact ⟨good, first_phase_held _ call, .refl _, cutoff_held_of_same rfl⟩
  act := by
    intro pool index job store next found undisturbed good held acted
    obtain ⟨sound, held_after, moved⟩ := generation_act_kept good.1 held acted
    obtain ⟨above, cutoff⟩ := act_undisturbed found undisturbed good.1 good.2 held acted
    exact ⟨⟨sound, above⟩, held_after, moved, cutoff⟩
  outside := by
    intro pool event store _ good happened
    obtain ⟨sound, marker, created, moved⟩ := outside_kept good.1 event happened
    refine ⟨⟨sound, ?_⟩, moved, cutoff_held_of_same marker⟩
    unfold CreatedAbove
    rw [created]
    exact good.2
  stable := fun _ moved held => held.moves moved.1

theorem profiles_above_marker {start : GenerationStore Content}
    {final : Pool (GenerationStore Content) (GenerationJob Content)}
    {turns : List (Turn (GenerationCall Content) GenerationOutside)} (sound : start.Sound)
    (ran : run (roomGenerations Content migrating).step ⟨start, []⟩ turns = some final) :
    final.shared.Sound :=
  (generations_keep.run ⟨sound, by simp⟩ (meets_of_forall (fun _ _ => trivial) _ _) ran).1.inv

/-- A later `putOwnRoomProfile` of the generation is accepted, at whatever moments it
reads the room, reads the marker and writes, while room and marker are still those. -/
def AcceptsProfiles (Content : Type) (migrating : Bool) (room : RoomRecord)
    (marker : RoomDeletionMarker) (generation : Int) : Prop :=
  ∀ (asked read written : GenerationStore Content) (did : String) (content : Content),
    asked.rooms.blinded = some (.readable room) → openMarker read.marker = some marker →
    sealFingerprint written.marker = sealFingerprint read.marker →
    ∃ checked ready after call,
      generationAct migrating asked ⟨putOwnRoomProfile did generation content, .room⟩ =
        some (asked, checked) ∧
      generationAct migrating read checked = some (read, ready) ∧
      generationAct migrating written ready = some (after, ⟨call, .finished none⟩) ∧
      after.profiles.get (.own, did) = some ⟨generation, content, written.stamp + 1⟩

theorem Outlives.accepts {room : RoomRecord} {marker : RoomDeletionMarker}
    (outlives : Outlives room marker) :
    ∃ generation, room.createdAt = some generation ∧ roomDeletionCutoff marker < generation ∧
      AcceptsProfiles Content migrating room marker generation := by
  obtain ⟨text, generation, dated, above⟩ := outlives
  refine ⟨generation, dated, above, ?_⟩
  intro asked read written did content stored opened same
  have is_joined : joined (some room) generation = true := by simp [joined, text, dated]
  have alive : deletedBy (some marker) generation = false := by simpa [deletedBy] using above
  have first : generationAct migrating asked ⟨putOwnRoomProfile did generation content, .room⟩ =
      some (asked, ⟨putOwnRoomProfile did generation content, .marker⟩) := by
    simp only [generationAct, stored, openRoom, putOwnRoomProfile, roomRead, is_joined, if_true]
  have second : generationAct migrating read
      ⟨putOwnRoomProfile did generation content, .marker⟩ =
      some (read, ⟨putOwnRoomProfile did generation content,
        .committing read.marker (.profile (.own, did) generation content)⟩) := by
    simp only [generationAct, putOwnRoomProfile, markerRead, opened, alive, false_eq_true,
      if_false]
  have third : generationAct migrating written ⟨putOwnRoomProfile did generation content,
        .committing read.marker (.profile (.own, did) generation content)⟩ =
      some ({ written with
        profiles := written.profiles.set (.own, did) ⟨generation, content, written.stamp + 1⟩
        stamp := written.stamp + 1 },
        ⟨putOwnRoomProfile did generation content, .finished none⟩) := by
    simp only [generationAct, commitWrite, if_pos same]
  exact ⟨_, _, _, _, first, second, third, by simp⟩

/-- Leave markers are respected in every interleaving whose calls find the rows they
read still standing when they write: the cutoff never falls, profile rows written after
the marker are above it, and so is a room created under it, whose own profile is then
accepted. -/
theorem leave_markers_respected {start : GenerationStore Content}
    {middle final : Pool (GenerationStore Content) (GenerationJob Content)}
    {first second : List (Turn (GenerationCall Content) GenerationOutside)}
    (sound : start.Sound) (none_created : start.created = [])
    (undisturbed : Meets (roomGenerations Content migrating).step
      (fun pool turn => undisturbedTurn pool turn = true) ⟨start, []⟩ (first ++ second))
    (reached : run (roomGenerations Content migrating).step ⟨start, []⟩ first = some middle)
    (ran : run (roomGenerations Content migrating).step middle second = some final) :
    CutoffHeld middle.shared final.shared ∧
      (∀ row ∈ final.shared.marker, ∀ marker ∈ row.opened, ∀ key,
        ∀ profile ∈ final.shared.profiles.get key, row.stamp < profile.stamp →
          roomDeletionCutoff marker < profile.generation) ∧
      ∀ creation ∈ final.shared.created, ∀ marker ∈ creation.marker,
        ∃ generation, creation.room.createdAt = some generation ∧
          roomDeletionCutoff marker < generation ∧
          AcceptsProfiles Content migrating creation.room marker generation := by
  obtain ⟨before, later⟩ := meets_append.mp undisturbed
  have above : CreatedAbove start := by
    unfold CreatedAbove
    rw [none_created]
    simp
  obtain ⟨good, -⟩ := cutoffs_keep.run ⟨⟨sound, above⟩, by simp⟩ before reached
  obtain ⟨final_good, -, cutoff⟩ := cutoffs_keep.run good (later middle reached) ran
  refine ⟨cutoff, final_good.inv.1.respected, ?_⟩
  intro creation mem marker found
  exact (final_good.inv.2 creation mem marker found).accepts

end Interleavings

def GenerationStore.empty (Content : Type) : GenerationStore Content :=
  ⟨⟨none, none⟩, none, .empty, 0, 0, .empty, []⟩

theorem empty_store_sound (Content : Type) : (GenerationStore.empty Content).Sound where
  sealed := nofun
  fresh := fun _ _ => rfl
  marker_stamp := nofun
  profile_stamp := fun _ => nofun
  respected := nofun

def leave : List (Turn (GenerationCall Unit) GenerationOutside) :=
  [.start (.putRoomDeletionMarker ⟨3, 10⟩), .advance 0, .advance 0]

def rejoin : List (Turn (GenerationCall Unit) GenerationOutside) :=
  [.start (.putRoom ⟨⟨.text, none, none, some 7, none, none, none, none, none, none, none⟩,
      rfl, nofun⟩), .advance 1, .advance 1, .advance 1]

theorem rejoin_above_marker :
    ∃ middle final,
      run (roomGenerations Unit false).step ⟨.empty Unit, []⟩ leave = some middle ∧
      run (roomGenerations Unit false).step middle rejoin = some final ∧
      CutoffHeld middle.shared final.shared ∧
      ∃ creation ∈ final.shared.created, creation.room.createdAt = some 11 ∧
        AcceptsProfiles Unit false creation.room ⟨3, 10⟩ 11 := by
  have undisturbed : Meets (roomGenerations Unit false).step
      (fun pool turn => undisturbedTurn pool turn = true) ⟨.empty Unit, []⟩ (leave ++ rejoin) := by
    decide
  refine ⟨_, _, rfl, rfl, ?_⟩
  obtain ⟨cutoff, -, created⟩ :=
    leave_markers_respected (empty_store_sound Unit) rfl undisturbed rfl rfl
  refine ⟨cutoff, _, mem_singleton.mpr rfl, rfl, ?_⟩
  obtain ⟨generation, dated, -, accepts⟩ := created _ (mem_singleton.mpr rfl) ⟨3, 10⟩ rfl
  cases dated
  exact accepts

/-- Two leave events read an empty store and the older one is put last. -/
theorem older_marker_put_last :
    ∃ first second middle final,
      run (roomGenerations Unit false).step ⟨.empty Unit, []⟩ first = some middle ∧
      run (roomGenerations Unit false).step middle second = some final ∧
      ¬CutoffHeld middle.shared final.shared := by
  refine ⟨[.start (.putRoomDeletionMarker ⟨3, 10⟩), .start (.putRoomDeletionMarker ⟨3, 5⟩),
    .advance 0, .advance 1, .advance 0], [.advance 1], _, _, rfl, rfl, ?_⟩
  intro held
  obtain ⟨later, found, le⟩ := held ⟨3, 10⟩ rfl
  cases found
  exact absurd le (by decide)

end AwfulChat.Storage
