import AwfulChat.Library.OrderedMap
import AwfulChat.Library.Runs
import Mathlib.Order.Nat

/-!
# Writes of one room record

`putRoom`, the patches of a room record and `deleteRoom` of `storage.ts`, for one
room code. A queued write reads the record, changes it, and writes the whole
record back in a transaction of its own; writes of one room run one at a time,
but `deleteRoom` is not one of them. Its transaction may fall between the read of
a patch and its write, or before a `putRoom` that was already asked for.
-/

namespace AwfulChat.Storage

open Library List Option Bool

set_option autoImplicit false

inductive RoomType where
  | text
  | dm
  deriving DecidableEq

structure DmPqState where
  ct : String
  ek : String
  deriving DecidableEq

/-- The fields of a room record that its writers read or set. -/
structure RoomRecord where
  type : RoomType
  lastSeenLamport : Option Int
  seenAt : Option Int
  createdAt : Option Int
  participants : Option (List String)
  participantLastSeen : Option (OrderedMap String Int)
  pinnedAt : Option Int
  position : Option Nat
  pinnedMessages : Option (List String)
  pq : Option DmPqState
  request : Option Bool

section Patches

def setDmPqState (state : DmPqState) (room : RoomRecord) : Option RoomRecord :=
  if room.type ≠ .dm then none
  else if room.pq = some state then none
  else some { room with pq := some state }

def setDmRequest (request : Bool) (room : RoomRecord) : Option RoomRecord :=
  if room.type ≠ .dm then none
  else if decide (room.request = some true) = request then none
  else some { room with request := some request }

def setRoomPinned (pinnedAt : Option Int) (room : RoomRecord) : Option RoomRecord :=
  if room.pinnedAt = pinnedAt then none else some { room with pinnedAt }

def setMessagePinned (messageId : String) (pinned : Bool) (room : RoomRecord) :
    Option RoomRecord :=
  let current := room.pinnedMessages.getD []
  if current.contains messageId = pinned then none
  else some { room with
    pinnedMessages :=
      some (if pinned then current ++ [messageId] else current.filter (· ≠ messageId)) }

/-- The patch `setRoomPositions` makes to the room it puts at `position`. -/
def setRoomPositions (position : Nat) (room : RoomRecord) : Option RoomRecord :=
  if room.position = some position then none else some { room with position := some position }

def maxRoomParticipants : Nat := 512

/-- `new Set(room.participants ?? [])`, in the order of the set. -/
def roomMembers (room : RoomRecord) : List String := (room.participants.getD []).eraseDups

structure Roster where
  participants : List String
  lastSeen : OrderedMap String Int
  changed : Bool

/-- One member seen: added below the cap, its last-seen time only moved forward. -/
def addParticipant (roster : Roster) (seen : String × Int) : Roster :=
  let known := roster.participants.contains seen.1
  if !known && decide (maxRoomParticipants ≤ roster.participants.length) then roster
  else
    let joined := if known then roster
      else { roster with participants := roster.participants ++ [seen.1], changed := true }
    if seen.2 ≤ (joined.lastSeen.get seen.1).getD 0 then joined
    else { joined with lastSeen := joined.lastSeen.set seen.1 seen.2, changed := true }

def addRoomParticipants (seen : List (String × Int)) (room : RoomRecord) : Option RoomRecord :=
  let roster := (seen.filter fun entry => entry.1.startsWith "did:").foldl addParticipant
    ⟨roomMembers room, room.participantLastSeen.getD .empty, false⟩
  if roster.changed then
    some { room with
      participants := some roster.participants
      participantLastSeen := some roster.lastSeen }
  else none

def updateParticipantLastSeen (peerId : String) (now : Int) (room : RoomRecord) :
    Option RoomRecord :=
  some { room with
    participantLastSeen := some ((room.participantLastSeen.getD .empty).set peerId now) }

def removeRoomParticipant (peerId : String) (room : RoomRecord) : Option RoomRecord :=
  some { room with
    participants := some ((roomMembers room).filter (· ≠ peerId))
    participantLastSeen := some ((room.participantLastSeen.getD .empty).delete peerId) }

def participantInactiveMs : Int := 30 * 24 * 60 * 60 * 1000

/-- One member checked: an unknown time is set to now, a stale one ends the membership. -/
def checkParticipant (now : Int) (roster : Roster) (peerId : String) : Roster :=
  let lastSeen := (roster.lastSeen.get peerId).getD now
  if lastSeen < now - participantInactiveMs then
    { roster with
      participants := roster.participants.filter (· ≠ peerId)
      lastSeen := roster.lastSeen.delete peerId }
  else { roster with lastSeen := roster.lastSeen.set peerId lastSeen }

def cleanupInactiveParticipants (now : Int) (room : RoomRecord) : Option RoomRecord :=
  let participants := roomMembers room
  let roster := participants.foldl (checkParticipant now)
    ⟨participants, room.participantLastSeen.getD .empty, true⟩
  some { room with
    participants := some roster.participants
    participantLastSeen := some roster.lastSeen }

def markRoomSeen (lamport now : Int) (room : RoomRecord) : Option RoomRecord :=
  some { room with
    lastSeenLamport := some (max (room.lastSeenLamport.getD 0) lamport)
    seenAt := some now }

end Patches

inductive RoomPatch where
  | setDmPqState (state : DmPqState)
  | setDmRequest (request : Bool)
  | setRoomPinned (pinnedAt : Option Int)
  | setMessagePinned (messageId : String) (pinned : Bool)
  | setRoomPositions (position : Nat)
  | addRoomParticipants (seen : List (String × Int))
  | updateParticipantLastSeen (peerId : String) (now : Int)
  | removeRoomParticipant (peerId : String)
  | cleanupInactiveParticipants (now : Int)
  | markRoomSeen (lamport now : Int)

def RoomPatch.apply : RoomPatch → RoomRecord → Option RoomRecord
  | .setDmPqState state => Storage.setDmPqState state
  | .setDmRequest request => Storage.setDmRequest request
  | .setRoomPinned pinnedAt => Storage.setRoomPinned pinnedAt
  | .setMessagePinned messageId pinned => Storage.setMessagePinned messageId pinned
  | .setRoomPositions position => Storage.setRoomPositions position
  | .addRoomParticipants seen => Storage.addRoomParticipants seen
  | .updateParticipantLastSeen peerId now => Storage.updateParticipantLastSeen peerId now
  | .removeRoomParticipant peerId => Storage.removeRoomParticipant peerId
  | .cleanupInactiveParticipants now => Storage.cleanupInactiveParticipants now
  | .markRoomSeen lamport now => Storage.markRoomSeen lamport now

structure RoomDeletionMarker where
  generation : Int
  deletedAt : Int

def roomDeletionCutoff (marker : RoomDeletionMarker) : Int :=
  max marker.generation marker.deletedAt

/-- What stays the same for one room: whether its code starts with `dm-`, whether
the at-rest sweep is still to finish, and its leave marker. -/
structure RoomSite where
  dmCode : Bool
  migrating : Bool
  marker : Option RoomDeletionMarker

/-- A stored record; one that does not open reads as absent. -/
inductive StoredRoom where
  | readable (room : RoomRecord)
  | unreadable

def openRoom : StoredRoom → Option RoomRecord
  | .readable room => some room
  | .unreadable => none

/-- The record under its blinded key and under the plaintext key of an older version. -/
structure RoomDisk where
  blinded : Option StoredRoom
  legacy : Option StoredRoom

def RoomDisk.present (disk : RoomDisk) : Bool := disk.blinded.isSome || disk.legacy.isSome

/-- `getRoom`, when nothing writes between its two lookups. -/
def getRoom (site : RoomSite) (disk : RoomDisk) : Option RoomRecord :=
  match disk.blinded with
  | some stored => openRoom stored
  | none => if site.migrating then disk.legacy.bind openRoom else none

inductive RoomCall where
  | put (room : RoomRecord)
  | patch (change : RoomPatch)

inductive WritePhase where
  | waiting
  | legacyKey
  | committing (room : RoomRecord)

structure RoomWrite where
  issue : Nat
  call : RoomCall
  phase : WritePhase

/-- `putRoom`: a text room and every DM code go through the queue, as patches do. -/
def RoomCall.queued (site : RoomSite) : RoomCall → Bool
  | .put room => site.dmCode || decide (room.type = .text)
  | .patch _ => true

/-- Whether the write starts with a read of the record. -/
def RoomCall.reads (site : RoomSite) : RoomCall → Bool
  | .put room =>
    if site.dmCode then room.pq.isNone || room.request.isNone else decide (room.type = .text)
  | .patch _ => true

def withLiveGeneration (site : RoomSite) (room : RoomRecord) (stored : Option RoomRecord) :
    RoomRecord :=
  match stored, site.marker with
  | none, some marker =>
    let floor := roomDeletionCutoff marker + 1
    if floor ≤ room.createdAt.getD 0 then room else { room with createdAt := some floor }
  | _, _ => room

/-- `_putRoomNow` up to its seal: what a DM record lacks is carried over. -/
def putRoomNow (site : RoomSite) (room : RoomRecord) (stored : Option RoomRecord) : RoomRecord :=
  let carried := { room with participants := some (room.participants.getD []) }
  if site.dmCode then
    { carried with
      pq := room.pq.or (stored.bind RoomRecord.pq)
      request := room.request.or (stored.bind RoomRecord.request) }
  else carried

/-- The record a write puts once it has read `stored`; a patch may have nothing to put. -/
def RoomCall.prepare (site : RoomSite) (stored : Option RoomRecord) : RoomCall → Option RoomRecord
  | .put room =>
    some (putRoomNow site
      (if !site.dmCode && decide (room.type = .text) then withLiveGeneration site room stored
        else room) stored)
  | .patch change => stored.bind change.apply

inductive WriteOutcome where
  | settled
  | moved (phase : WritePhase)
  | stored (room : RoomRecord)

def WriteOutcome.ofPrepared : Option RoomRecord → WriteOutcome
  | none => .settled
  | some room => .moved (.committing room)

/-- One act of a write, up to its next await. -/
def writeAct (site : RoomSite) (disk : RoomDisk) (write : RoomWrite) : WriteOutcome :=
  match write.phase with
  | .waiting =>
    if write.call.reads site then
      match disk.blinded with
      | some stored => .ofPrepared (write.call.prepare site (openRoom stored))
      | none =>
        if site.migrating then .moved .legacyKey
        else .ofPrepared (write.call.prepare site none)
    else .ofPrepared (write.call.prepare site none)
  | .legacyKey => .ofPrepared (write.call.prepare site (disk.legacy.bind openRoom))
  | .committing room => .stored room

/-- What became of the store, the newest first: a deletion, with the number of
writes asked for by then, and a write, with whether no record was stored before it. -/
inductive RoomEntry where
  | deleted (issued : Nat)
  | stored (write : RoomWrite) (created : Bool)

structure RoomWorld where
  disk : RoomDisk
  queue : List RoomWrite
  /-- Writes outside the queue: a `putRoom` of a DM record under another code. -/
  direct : List RoomWrite
  issued : Nat
  log : List RoomEntry

inductive RoomEvent where
  | call (call : RoomCall)
  | run
  | fail
  | runDirect (index : Nat)
  | delete

def RoomWorld.commit (world : RoomWorld) (write : RoomWrite) (room : RoomRecord) : RoomWorld :=
  { world with
    disk := ⟨some (.readable room), none⟩
    log := .stored write (!world.disk.present) :: world.log }

def roomStep (site : RoomSite) (world : RoomWorld) : RoomEvent → Option RoomWorld
  | .call call =>
    let write : RoomWrite := ⟨world.issued, call, .waiting⟩
    let asked := { world with issued := world.issued + 1 }
    some (if call.queued site then { asked with queue := world.queue ++ [write] }
      else { asked with direct := world.direct ++ [write] })
  | .run =>
    match world.queue with
    | [] => none
    | write :: rest =>
      some (match writeAct site world.disk write with
        | .settled => { world with queue := rest }
        | .moved phase => { world with queue := { write with phase } :: rest }
        | .stored room => { world.commit write room with queue := rest })
  | .fail =>
    match world.queue with
    | [] => none
    | _ :: rest => some { world with queue := rest }
  | .runDirect index =>
    world.direct[index]?.map fun write =>
      match writeAct site world.disk write with
      | .settled => { world with direct := world.direct.eraseIdx index }
      | .moved phase => { world with direct := world.direct.set index { write with phase } }
      | .stored room => { world.commit write room with direct := world.direct.eraseIdx index }
  | .delete =>
    some { world with disk := ⟨none, none⟩, log := .deleted world.issued :: world.log }

section Kept

/-- A write that says outright that the conversation is no longer a request. -/
def RoomCall.clearsRequest : RoomCall → Bool
  | .put room => decide (room.request = some false)
  | .patch (.setDmRequest false) => true
  | _ => false

/-- What a DM record never loses to a write that does not say so. -/
structure KeepsDm (clears : Bool) (old new : RoomRecord) : Prop where
  pq : old.pq.isSome → new.pq.isSome
  request : old.request = some true → new.request = some true ∨ clears = true

theorem keeps_dm_of_eq {clears : Bool} {old new : RoomRecord} (pq : new.pq = old.pq)
    (request : new.request = old.request) : KeepsDm clears old new := by
  refine ⟨?_, ?_⟩
  · intro has
    rw [pq]
    exact has
  · intro asked
    exact Or.inl (request.trans asked)

theorem patch_keeps_dm {patch : RoomPatch} {room updated : RoomRecord}
    (applied : patch.apply room = some updated) :
    KeepsDm (RoomCall.patch patch).clearsRequest room updated := by
  cases patch with
  | setDmPqState state =>
    simp only [RoomPatch.apply, setDmPqState] at applied
    split_ifs at applied
    cases applied
    exact ⟨fun _ => rfl, Or.inl⟩
  | setDmRequest request =>
    simp only [RoomPatch.apply, setDmRequest] at applied
    split_ifs at applied
    cases applied
    refine ⟨id, ?_⟩
    intro asked
    cases request with
    | false => exact Or.inr rfl
    | true => exact Or.inl rfl
  | setRoomPinned | setMessagePinned | setRoomPositions | addRoomParticipants =>
    simp only [RoomPatch.apply, setRoomPinned, setMessagePinned, setRoomPositions,
      addRoomParticipants] at applied
    split_ifs at applied
    all_goals
      cases applied
      exact keeps_dm_of_eq rfl rfl
  | updateParticipantLastSeen | removeRoomParticipant | cleanupInactiveParticipants
  | markRoomSeen =>
    cases applied
    exact keeps_dm_of_eq rfl rfl

section

variable {site : RoomSite} (dm : site.dmCode = true)
include dm

theorem put_keeps_dm (room old : RoomRecord) :
    KeepsDm (RoomCall.put room).clearsRequest old (putRoomNow site room (some old)) := by
  refine ⟨?_, ?_⟩
  · intro has
    cases given : room.pq <;> simp [putRoomNow, dm, given, has]
  · intro asked
    cases given : room.request with
    | none => simp [putRoomNow, dm, given, asked]
    | some request => cases request <;> simp [putRoomNow, dm, given, RoomCall.clearsRequest]

theorem prepare_keeps_dm {call : RoomCall} {old room : RoomRecord}
    (prepared : call.prepare site (some old) = some room) :
    KeepsDm call.clearsRequest old room := by
  cases call with
  | put given =>
    simp only [RoomCall.prepare, dm, Bool.not_true, Bool.false_and, Bool.false_eq_true, if_false,
      Option.some.injEq] at prepared
    subst prepared
    exact put_keeps_dm dm given old
  | patch change => exact patch_keeps_dm prepared

theorem unread_keeps_dm {call : RoomCall} (unread : call.reads site = false) {room : RoomRecord}
    (prepared : call.prepare site none = some room) (old : RoomRecord) :
    KeepsDm call.clearsRequest old room := by
  cases call with
  | patch => cases unread
  | put given =>
    simp only [RoomCall.reads, dm, if_true, or_eq_false_iff, isNone_eq_false_iff,
      isSome_iff_exists] at unread
    obtain ⟨⟨pq, has_pq⟩, request, has_request⟩ := unread
    simp only [RoomCall.prepare, dm, Bool.not_true, Bool.false_and, Bool.false_eq_true, if_false,
      Option.some.injEq] at prepared
    subst prepared
    refine ⟨fun _ => by simp [putRoomNow, dm, has_pq], fun _ => ?_⟩
    cases request <;> simp [putRoomNow, dm, has_request, RoomCall.clearsRequest]

end

end Kept

def RoomCall.isPut : RoomCall → Bool
  | .put _ => true
  | .patch _ => false

def WritePhase.isCommitting : WritePhase → Bool
  | .committing _ => true
  | _ => false

/-- A write that would store a record without reading one again: a `putRoom`, or a
patch between its read and its write. -/
def RoomWrite.stale (write : RoomWrite) : Bool := write.call.isPut || write.phase.isCommitting

def quietDelete (world : RoomWorld) : RoomEvent → Bool
  | .delete => (world.queue ++ world.direct).all fun write => !write.stale
  | _ => true

/-- A record stored after a deletion was created by a `putRoom` asked for after it. -/
def DeletedUntilPut (world : RoomWorld) : Prop :=
  ∀ newer older issued, world.log = newer ++ .deleted issued :: older →
    world.disk.present = true →
    ∃ write, .stored write true ∈ newer ∧ write.call.isPut = true ∧ issued ≤ write.issue

structure DeletionKept (world : RoomWorld) : Prop where
  issued : ∀ issued, .deleted issued ∈ world.log → issued ≤ world.issued
  puts : ∀ issued, .deleted issued ∈ world.log → ∀ write ∈ world.queue ++ world.direct,
    write.call.isPut = true → issued ≤ write.issue
  patches : world.disk.present = false → ∀ write ∈ world.queue,
    write.phase.isCommitting = true → write.call.isPut = true
  direct : ∀ write ∈ world.direct, write.call.isPut = true
  created : DeletedUntilPut world

section Deletion

variable {site : RoomSite} {world : RoomWorld}

variable {room : RoomRecord} {write : RoomWrite}

theorem absent_prepares {call : RoomCall}
    (prepared : call.prepare site none = some room) : call.isPut = true := by
  cases call with
  | put => rfl
  | patch => cases prepared

variable {prepared : Option RoomRecord}

theorem of_prepared_moved {phase : WritePhase}
    (moved : WriteOutcome.ofPrepared prepared = .moved phase) :
    ∃ room, prepared = some room ∧ phase = .committing room := by
  cases prepared with
  | none => cases moved
  | some room =>
    cases moved
    exact ⟨room, rfl, rfl⟩

theorem of_prepared_not_stored :
    WriteOutcome.ofPrepared prepared ≠ .stored room := by
  cases prepared <;> simp [WriteOutcome.ofPrepared]

theorem write_act_stored {disk : RoomDisk}
    (stored : writeAct site disk write = .stored room) : write.phase = .committing room := by
  unfold writeAct at stored
  split at stored
  · split at stored
    · split at stored
      · exact absurd stored of_prepared_not_stored
      · split at stored
        · cases stored
        · exact absurd stored of_prepared_not_stored
    · exact absurd stored of_prepared_not_stored
  · exact absurd stored of_prepared_not_stored
  · next phase =>
      cases stored
      exact phase

theorem absent_write_act {disk : RoomDisk} (absent : disk.present = false) {phase : WritePhase}
    (moved : writeAct site disk write = .moved phase)
    (commits : phase.isCommitting = true) : write.call.isPut = true := by
  simp only [RoomDisk.present, or_eq_false_iff, isSome_eq_false_iff,
    isNone_iff_eq_none] at absent
  simp only [writeAct, absent] at moved
  split at moved
  · split at moved
    · split at moved
      · cases moved
        cases commits
      · obtain ⟨room, prepared, -⟩ := of_prepared_moved moved
        exact absent_prepares prepared
    · obtain ⟨room, prepared, -⟩ := of_prepared_moved moved
      exact absent_prepares prepared
  · obtain ⟨room, prepared, -⟩ := of_prepared_moved moved
    exact absent_prepares prepared
  · cases moved

section

variable (kept : DeletionKept world)
include kept

variable {queue direct : List RoomWrite}

theorem DeletionKept.fewer (queued : ∀ write ∈ queue, write ∈ world.queue)
    (directed : ∀ write ∈ direct, write ∈ world.direct) :
    DeletionKept { world with queue := queue, direct := direct } where
  issued := kept.issued
  puts := by
    intro issued gone write mem
    apply kept.puts issued gone
    rcases mem_append.mp mem with one | one
    · exact mem_append_left _ (queued write one)
    · exact mem_append_right _ (directed write one)
  patches := fun absent write mem => kept.patches absent write (queued write mem)
  direct := fun write mem => kept.direct write (directed write mem)
  created := kept.created

theorem DeletionKept.moved
    {phase : WritePhase}
    (known : write ∈ world.queue ++ world.direct)
    (acted : writeAct site world.disk write = .moved phase)
    (queued : ∀ other ∈ queue, other ∈ world.queue ∨ other = { write with phase })
    (directed : ∀ other ∈ direct, other ∈ world.direct ∨
      other = { write with phase } ∧ write ∈ world.direct) :
    DeletionKept { world with queue := queue, direct := direct } where
  issued := kept.issued
  puts := by
    intro issued gone other mem put
    rcases mem_append.mp mem with one | one
    · rcases queued other one with old | rfl
      · exact kept.puts issued gone other (mem_append_left _ old) put
      · exact kept.puts issued gone write known put
    · rcases directed other one with old | ⟨rfl, -⟩
      · exact kept.puts issued gone other (mem_append_right _ old) put
      · exact kept.puts issued gone write known put
  patches := by
    intro absent other mem commits
    rcases queued other mem with old | rfl
    · exact kept.patches absent other old commits
    · have put : write.call.isPut = true := absent_write_act absent acted commits
      exact put
  direct := by
    intro other mem
    rcases directed other mem with old | ⟨rfl, old⟩
    · exact kept.direct other old
    · exact kept.direct write old
  created := kept.created

theorem DeletionKept.commit (known : write ∈ world.queue ++ world.direct)
    (commits : write.phase = .committing room) :
    DeletionKept (world.commit write room) where
  issued := by
    intro issued gone
    exact kept.issued issued (by simpa [RoomWorld.commit] using gone)
  puts := by
    intro issued gone
    exact kept.puts issued (by simpa [RoomWorld.commit] using gone)
  patches := nofun
  direct := kept.direct
  created := by
    intro newer older issued split _
    change .stored write (!world.disk.present) :: world.log = newer ++ .deleted issued :: older
      at split
    cases newer with
    | nil => cases split
    | cons entry rest =>
      simp only [cons_append, List.cons.injEq] at split
      obtain ⟨rfl, split⟩ := split
      cases was : world.disk.present with
      | true =>
        obtain ⟨creator, mem, put, after⟩ := kept.created rest older issued split was
        exact ⟨creator, mem_cons_of_mem _ mem, put, after⟩
      | false =>
        have put : write.call.isPut = true := by
          rcases mem_append.mp known with queued | directed
          · exact kept.patches was write queued (by rw [commits]; rfl)
          · exact kept.direct write directed
        have gone : .deleted issued ∈ world.log := by simp [split]
        exact ⟨write, mem_cons_self, put, kept.puts issued gone write known put⟩

theorem DeletionKept.call (call : RoomCall) {next : RoomWorld}
    (stepped : roomStep site world (.call call) = some next) : DeletionKept next := by
  have later : ∀ issued, .deleted issued ∈ world.log → issued ≤ world.issued + 1 :=
    fun issued gone => le_trans (kept.issued issued gone) (Nat.le_succ _)
  simp only [roomStep, Option.some.injEq] at stepped
  subst stepped
  split_ifs with queued
  · refine ⟨later, ?_, ?_, kept.direct, kept.created⟩
    · intro issued gone write mem put
      simp only [mem_append, mem_singleton] at mem
      rcases mem with (old | rfl) | old
      · exact kept.puts issued gone write (mem_append_left _ old) put
      · exact kept.issued issued gone
      · exact kept.puts issued gone write (mem_append_right _ old) put
    · intro absent write mem commits
      simp only [mem_append, mem_singleton] at mem
      rcases mem with old | rfl
      · exact kept.patches absent write old commits
      · cases commits
  · refine ⟨later, ?_, kept.patches, ?_, kept.created⟩
    · intro issued gone write mem put
      simp only [mem_append, mem_singleton] at mem
      rcases mem with old | old | rfl
      · exact kept.puts issued gone write (mem_append_left _ old) put
      · exact kept.puts issued gone write (mem_append_right _ old) put
      · exact kept.issued issued gone
    · intro write mem
      simp only [mem_append, mem_singleton] at mem
      rcases mem with old | rfl
      · exact kept.direct write old
      · cases call with
        | put => rfl
        | patch => exact absurd rfl queued

theorem DeletionKept.delete (quiet : quietDelete world .delete = true) :
    DeletionKept { world with disk := ⟨none, none⟩, log := .deleted world.issued :: world.log } := by
  have unstale : ∀ write ∈ world.queue ++ world.direct, write.stale = false := by
    intro write mem
    simpa using all_eq_true.mp quiet write mem
  refine ⟨?_, ?_, ?_, kept.direct, ?_⟩
  · intro issued gone
    simp only [mem_cons, RoomEntry.deleted.injEq] at gone
    rcases gone with rfl | old
    · exact le_refl _
    · exact kept.issued issued old
  · intro issued _ write mem put
    have fresh := unstale write mem
    simp [RoomWrite.stale, put] at fresh
  · intro _ write mem commits
    have fresh := unstale write (mem_append_left _ mem)
    simp [RoomWrite.stale, commits] at fresh
  · nofun

theorem DeletionKept.step {event : RoomEvent} {next : RoomWorld}
    (quiet : quietDelete world event = true) (stepped : roomStep site world event = some next) :
    DeletionKept next := by
  cases event with
  | call call => exact kept.call call stepped
  | run =>
    simp only [roomStep] at stepped
    cases queue : world.queue with
    | nil =>
      rw [queue] at stepped
      cases stepped
    | cons write rest =>
      have head : write ∈ world.queue := by simp [queue]
      have tail : ∀ other ∈ rest, other ∈ world.queue := by
        intro other mem
        simp [queue, mem]
      rw [queue] at stepped
      cases acted : writeAct site world.disk write with
      | settled =>
        simp only [acted, Option.some.injEq] at stepped
        subst stepped
        exact kept.fewer tail fun _ mem => mem
      | moved phase =>
        simp only [acted, Option.some.injEq] at stepped
        subst stepped
        apply kept.moved (mem_append_left _ head) acted
        · intro other mem
          rcases mem_cons.mp mem with rfl | old
          · exact Or.inr rfl
          · exact Or.inl (tail other old)
        · intro other mem
          exact Or.inl mem
      | stored room =>
        simp only [acted, Option.some.injEq] at stepped
        subst stepped
        exact (kept.commit (mem_append_left _ head) (write_act_stored acted)).fewer tail
          fun _ mem => mem
  | fail =>
    simp only [roomStep] at stepped
    cases queue : world.queue with
    | nil =>
      rw [queue] at stepped
      cases stepped
    | cons write rest =>
      rw [queue] at stepped
      cases stepped
      apply kept.fewer
      · intro other mem
        simp [queue, mem]
      · intro other mem
        exact mem
  | runDirect index =>
    simp only [roomStep, map_eq_some_iff] at stepped
    obtain ⟨write, found, same⟩ := stepped
    have known : write ∈ world.direct := mem_of_getElem? found
    cases acted : writeAct site world.disk write with
    | settled =>
      simp only [acted] at same
      subst same
      exact kept.fewer (fun _ mem => mem) fun _ mem => mem_of_mem_eraseIdx mem
    | moved phase =>
      simp only [acted] at same
      subst same
      apply kept.moved (mem_append_right _ known) acted
      · intro other mem
        exact Or.inl mem
      · intro other mem
        rcases mem_or_eq_of_mem_set mem with old | new
        · exact Or.inl old
        · exact Or.inr ⟨new, known⟩
    | stored room =>
      simp only [acted] at same
      subst same
      exact (kept.commit (mem_append_right _ known) (write_act_stored acted)).fewer
        (fun _ mem => mem) fun _ mem => mem_of_mem_eraseIdx mem
  | delete =>
    cases stepped
    exact kept.delete quiet

end

end Deletion

def RoomEntry.clearsRequest : RoomEntry → Bool
  | .stored write _ => write.call.clearsRequest
  | .deleted _ => false

/-- What the running write of a DM holds, against the record now stored. -/
def HeadKept (site : RoomSite) (disk : RoomDisk) (write : RoomWrite) : Prop :=
  match write.phase with
  | .waiting => True
  | .legacyKey => disk.blinded = none ∧ site.migrating = true
  | .committing room =>
    ∀ old, getRoom site disk = some old → KeepsDm write.call.clearsRequest old room

structure DmKept (site : RoomSite) (world : RoomWorld) : Prop where
  direct : world.direct = []
  head : ∀ write rest, world.queue = write :: rest → HeadKept site world.disk write
  tail : ∀ write rest, world.queue = write :: rest → ∀ other ∈ rest, other.phase = .waiting

/-- Between two states with no deletion between them the record stays, with its
`pq` state, and with its request unless a write said otherwise. -/
def DmProtected (site : RoomSite) (before after : RoomWorld) : Prop :=
  ∃ recent, after.log = recent ++ before.log ∧
    ∀ old, getRoom site before.disk = some old →
      ∃ new, getRoom site after.disk = some new ∧
        KeepsDm (recent.any RoomEntry.clearsRequest) old new

section Protected

variable {site : RoomSite} {world next : RoomWorld}

theorem KeepsDm.trans {first second : Bool} {old middle new : RoomRecord}
    (early : KeepsDm first old middle) (late : KeepsDm second middle new) :
    KeepsDm (second || first) old new := by
  refine ⟨fun has => late.pq (early.pq has), ?_⟩
  intro asked
  rcases early.request asked with still | cleared
  · rcases late.request still with kept | cleared
    · exact Or.inl kept
    · exact Or.inr (by simp [cleared])
  · exact Or.inr (by simp [cleared])

theorem dm_protected_of_disk (disk : next.disk = world.disk) (log : next.log = world.log) :
    DmProtected site world next := by
  refine ⟨[], log, ?_⟩
  intro old found
  rw [disk]
  exact ⟨old, found, keeps_dm_of_eq rfl rfl⟩

theorem dm_protected_trans {first second third : RoomWorld} (early : DmProtected site first second)
    (late : DmProtected site second third) :
    DmProtected site first third := by
  obtain ⟨older, older_log, older_keeps⟩ := early
  obtain ⟨newer, newer_log, newer_keeps⟩ := late
  refine ⟨newer ++ older, ?_, ?_⟩
  · rw [newer_log, older_log, append_assoc]
  · intro old found
    obtain ⟨middle, at_middle, kept⟩ := older_keeps old found
    obtain ⟨new, at_new, still⟩ := newer_keeps middle at_middle
    refine ⟨new, at_new, ?_⟩
    rw [any_append]
    exact kept.trans still

variable {write : RoomWrite}

variable {disk : RoomDisk}

theorem prepared_head_kept (dm : site.dmCode = true) {phase : WritePhase}
    (moved : WriteOutcome.ofPrepared (write.call.prepare site (getRoom site disk)) = .moved phase) :
    HeadKept site disk { write with phase } := by
  obtain ⟨room, prepared, rfl⟩ := of_prepared_moved moved
  intro old found
  rw [found] at prepared
  exact prepare_keeps_dm dm prepared

theorem write_act_head_kept (dm : site.dmCode = true) (kept : HeadKept site disk write)
    {phase : WritePhase} (moved : writeAct site disk write = .moved phase) :
    HeadKept site disk { write with phase } := by
  cases was : write.phase with
  | waiting =>
    simp only [writeAct, was] at moved
    cases reads : write.call.reads site with
    | false =>
      simp only [reads, Bool.false_eq_true, if_false] at moved
      obtain ⟨room, prepared, rfl⟩ := of_prepared_moved moved
      intro old _
      exact unread_keeps_dm dm reads prepared old
    | true =>
      simp only [reads, if_true] at moved
      cases blinded : disk.blinded with
      | some stored =>
        simp only [blinded] at moved
        apply prepared_head_kept dm
        simpa only [getRoom, blinded] using moved
      | none =>
        simp only [blinded] at moved
        split_ifs at moved with migrating
        · cases moved
          exact ⟨blinded, migrating⟩
        · apply prepared_head_kept dm
          simpa [getRoom, blinded, migrating] using moved
  | legacyKey =>
    simp only [HeadKept, was] at kept
    simp only [writeAct, was] at moved
    apply prepared_head_kept dm
    simpa only [getRoom, kept.1, kept.2, if_true] using moved
  | committing room =>
    simp only [writeAct, was] at moved
    cases moved

theorem HeadKept.delete (kept : HeadKept site disk write) :
    HeadKept site ⟨none, none⟩ write := by
  unfold HeadKept at kept ⊢
  split
  · trivial
  · next phase =>
      simp only [phase] at kept
      exact ⟨rfl, kept.2⟩
  · intro old found
    simp [getRoom] at found

theorem head_kept_of_waiting (disk : RoomDisk)
    (waits : write.phase = .waiting) : HeadKept site disk write := by
  simp [HeadKept, waits]

section

variable (kept : DmKept site world)
include kept

theorem DmKept.pop {disk : RoomDisk} {log : List RoomEntry} {rest : List RoomWrite}
    (queue : world.queue = write :: rest) :
    DmKept site { world with disk := disk, log := log, queue := rest } := by
  have waits := kept.tail write rest queue
  refine ⟨kept.direct, ?_, ?_⟩
  · intro first others split
    cases split
    exact head_kept_of_waiting disk (waits first mem_cons_self)
  · intro first others split other mem
    cases split
    exact waits other (mem_cons_of_mem _ mem)

theorem DmKept.call (dm : site.dmCode = true) (call : RoomCall)
    (stepped : roomStep site world (.call call) = some next) :
    DmKept site next ∧ DmProtected site world next := by
  have queued : call.queued site = true := by
    cases call <;> simp [RoomCall.queued, dm]
  simp only [roomStep, queued, if_true, Option.some.injEq] at stepped
  subst stepped
  refine ⟨⟨kept.direct, ?_, ?_⟩, dm_protected_of_disk rfl rfl⟩
  · intro write rest split
    cases queue : world.queue with
    | nil =>
      simp only [queue, nil_append] at split
      cases split
      trivial
    | cons first others =>
      simp only [queue, cons_append, List.cons.injEq] at split
      obtain ⟨rfl, -⟩ := split
      exact kept.head first others queue
  · intro write rest split other mem
    cases queue : world.queue with
    | nil =>
      simp only [queue, nil_append] at split
      cases split
      cases mem
    | cons first others =>
      simp only [queue, cons_append, List.cons.injEq] at split
      obtain ⟨-, rfl⟩ := split
      rcases mem_append.mp mem with old | new
      · exact kept.tail first others queue other old
      · rw [mem_singleton.mp new]

theorem DmKept.run (dm : site.dmCode = true) (stepped : roomStep site world .run = some next) :
    DmKept site next ∧ DmProtected site world next := by
  simp only [roomStep] at stepped
  cases queue : world.queue with
  | nil =>
    rw [queue] at stepped
    cases stepped
  | cons write rest =>
    rw [queue] at stepped
    have head := kept.head write rest queue
    cases acted : writeAct site world.disk write with
    | settled =>
      simp only [acted, Option.some.injEq] at stepped
      subst stepped
      exact ⟨kept.pop queue, dm_protected_of_disk rfl rfl⟩
    | moved phase =>
      simp only [acted, Option.some.injEq] at stepped
      subst stepped
      refine ⟨⟨kept.direct, ?_, ?_⟩, dm_protected_of_disk rfl rfl⟩
      · intro first others split
        cases split
        exact write_act_head_kept dm head acted
      · intro first others split
        cases split
        exact kept.tail write rest queue
    | stored room =>
      simp only [acted, Option.some.injEq] at stepped
      subst stepped
      refine ⟨kept.pop queue, [.stored write (!world.disk.present)], rfl, ?_⟩
      intro old found
      refine ⟨room, rfl, ?_⟩
      simp only [HeadKept, write_act_stored acted] at head
      simpa [RoomEntry.clearsRequest] using head old found

theorem DmKept.step {event : RoomEvent} (dm : site.dmCode = true)
    (stepped : roomStep site world event = some next) :
    DmKept site next ∧ (event ≠ .delete → DmProtected site world next) := by
  cases event with
  | call call =>
    obtain ⟨still, moves⟩ := kept.call dm call stepped
    exact ⟨still, fun _ => moves⟩
  | run =>
    obtain ⟨still, moves⟩ := kept.run dm stepped
    exact ⟨still, fun _ => moves⟩
  | fail =>
    simp only [roomStep] at stepped
    cases queue : world.queue with
    | nil =>
      rw [queue] at stepped
      cases stepped
    | cons write rest =>
      rw [queue] at stepped
      cases stepped
      exact ⟨kept.pop queue, fun _ => dm_protected_of_disk rfl rfl⟩
  | runDirect index =>
    simp [roomStep, kept.direct] at stepped
  | delete =>
    cases stepped
    refine ⟨⟨kept.direct, ?_, kept.tail⟩, fun other => absurd rfl other⟩
    intro write rest queue
    exact (kept.head write rest queue).delete

theorem DmKept.run_kept {events : List RoomEvent} (dm : site.dmCode = true)
    (ran : Library.run (roomStep site) world events = some next) :
    DmKept site next :=
  run_keeps (fun _ _ _ holds _ stepped => (DmKept.step holds dm stepped).1) kept
    (meets_of_forall (fun _ _ => trivial) world events) ran

theorem DmKept.run_protected {events : List RoomEvent} (dm : site.dmCode = true)
    (undeleted : ∀ event ∈ events, event ≠ .delete)
    (ran : Library.run (roomStep site) world events = some next) :
    DmProtected site world next := by
  induction events generalizing world with
  | nil =>
    cases ran
    exact dm_protected_of_disk rfl rfl
  | cons event rest ih =>
    obtain ⟨middle, stepped, later⟩ := run_cons ran
    obtain ⟨still, moves⟩ := kept.step dm stepped
    have first := moves (undeleted event mem_cons_self)
    have others := ih still (fun other mem =>
      undeleted other (mem_cons_of_mem _ mem)) later
    exact dm_protected_trans first others

end

end Protected

def roomAtRest (disk : RoomDisk) : RoomWorld := ⟨disk, [], [], 0, []⟩

/-- In every interleaving of writes and deletions of one room: if no deletion runs
while a `putRoom` is unfinished or a patch is between its read and its write, a
deleted room stays deleted until a later `putRoom`; and a DM keeps its `pq` state
and its request between two deletions, whatever the interleaving. -/
theorem rooms_stay_deleted_and_dms_protected {site : RoomSite} {disk : RoomDisk}
    {events : List RoomEvent} {final : RoomWorld}
    (ran : run (roomStep site) (roomAtRest disk) events = some final) :
    (Meets (roomStep site) (fun world event => quietDelete world event = true) (roomAtRest disk)
        events → DeletedUntilPut final) ∧
    (site.dmCode = true → ∀ before between middle, events = before ++ between →
      run (roomStep site) (roomAtRest disk) before = some middle →
      (∀ event ∈ between, event ≠ .delete) → DmProtected site middle final) := by
  refine ⟨?_, ?_⟩
  · intro quiet
    have fresh : DeletionKept (roomAtRest disk) :=
      ⟨by simp [roomAtRest], by simp [roomAtRest], by simp [roomAtRest], by simp [roomAtRest],
        by
          intro newer older issued split
          simp [roomAtRest] at split⟩
    exact (run_keeps (fun _ _ _ holds quiet stepped => DeletionKept.step holds quiet stepped) fresh
      quiet ran).created
  · intro dm before between middle split reached undeleted
    have fresh : DmKept site (roomAtRest disk) :=
      ⟨rfl, by simp [roomAtRest], by simp [roomAtRest]⟩
    rw [split, run_append, reached, bind_some] at ran
    exact (fresh.run_kept dm reached).run_protected dm undeleted ran

section Schedules

def dmSite : RoomSite := ⟨true, false, none⟩

def dmRecord : RoomRecord :=
  ⟨.dm, some 0, none, some 1, some [], none, none, none, none, some ⟨"ct", "ek"⟩, some true⟩

/-- A conversation deleted between two `putRoom`s, and its request kept by a patch. -/
def recreated : List RoomEvent :=
  [.delete, .call (.put { dmRecord with pq := none }), .run, .run, .call (.patch (.markRoomSeen 5 9)),
    .run, .run]

/-- `markRoomSeen` has read the record when the room is deleted. -/
def seenWhileDeleted : List RoomEvent :=
  [.call (.patch (.markRoomSeen 5 9)), .run, .delete, .run]

theorem recreated_by_put :
    ∃ final, run (roomStep dmSite) (roomAtRest ⟨some (.readable dmRecord), none⟩) recreated =
        some final ∧
      DeletedUntilPut final ∧ final.disk.present = true := by
  have ran : run (roomStep dmSite) (roomAtRest ⟨some (.readable dmRecord), none⟩) recreated =
    some _ := rfl
  exact ⟨_, ran, (rooms_stay_deleted_and_dms_protected ran).1 (by decide), rfl⟩

theorem seen_patch_restores_deleted_room :
    ∃ final, run (roomStep dmSite) (roomAtRest ⟨some (.readable dmRecord), none⟩)
        seenWhileDeleted = some final ∧
      ¬DeletedUntilPut final := by
  refine ⟨_, rfl, ?_⟩
  intro until_put
  obtain ⟨write, mem, put, -⟩ := until_put [.stored _ true] [] 1 rfl rfl
  rw [mem_singleton] at mem
  cases mem
  cases put

end Schedules

end AwfulChat.Storage
