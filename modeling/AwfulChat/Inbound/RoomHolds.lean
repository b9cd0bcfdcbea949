import AwfulChat.Inbound.Standing
import AwfulChat.Storage.Watermarks

/-!
# Rooms are held while they must be

Every step of the class keeps the room records in line with the history, a reset
only where no push it leaves behind can still end. Wired to storage, a room is
then held exactly while a push into it is open, its latest push to end ended
short, or a digest to some peer is unanswered; and an advance of `setWatermark`
lands in such a room only if it was already on its way when the room became
held.
-/

namespace AwfulChat.Inbound

open Library SyncPush Storage List Option Bool Function

set_option autoImplicit false

section Steps

variable {Proc : Type} {newcomer : Option Nat} {state : State Proc}

theorem steady_update_push (state : State Proc) (push : Nat) (change : Push → Push)
    (room : (change (state.push push)).room = (state.push push).room)
    (ended : (state.push push).ended = true → (change (state.push push)).ended = true) :
    Steady state (updatePush state push change) := by
  refine ⟨rfl, rfl, rfl, rfl, rfl, rfl, ?_, ?_, Grows.of_same rfl⟩
  · intro other
    by_cases hit : other = push
    · subst hit
      simpa [updatePush] using room
    · simp [updatePush, hit]
  · intro other
    by_cases hit : other = push
    · subst hit
      simpa [updatePush] using ended
    · simp [updatePush, hit]

theorem steady_note (state : State Proc) {call : Call Proc} (neutral : Neutral call) :
    Steady state (note state call) :=
  ⟨rfl, rfl, rfl, rfl, rfl, rfl, fun _ => rfl, fun _ => id, (Grows.refl state).note neutral⟩

theorem steady_set_stage (state : State Proc) (job : Nat) (stage : Stage) :
    Steady state (setStage state job stage) :=
  Steady.of_push rfl rfl rfl rfl rfl rfl rfl rfl

theorem steady_enqueue (state : State Proc) (push : Nat) (task : Task Proc) :
    Steady state (enqueue state push task) := by
  unfold enqueue
  refine Steady.trans ?_ (steady_update_push _ push _ rfl id)
  exact Steady.of_push rfl rfl rfl rfl rfl rfl rfl rfl

theorem steady_unregister (state : State Proc) (push : Nat) :
    Steady state (unregister state push) := by
  unfold unregister
  split_ifs
  · exact Steady.of_push rfl rfl rfl rfl rfl rfl rfl rfl
  · exact Steady.refl state

theorem steady_settle_done (state : State Proc) (push : Nat) :
    Steady state (settleDone state push) := by
  unfold settleDone
  refine Steady.trans ?_ (steady_update_push _ push _ rfl id)
  split_ifs
  · exact Steady.of_push rfl rfl rfl rfl rfl rfl rfl rfl
  · exact Steady.refl state

theorem steady_finish (state : State Proc) (push : Nat) : Steady state (finish state push) := by
  unfold finish
  split_ifs
  · dsimp only
    refine Steady.trans ?_ (steady_enqueue _ push .finish)
    refine Steady.trans ((steady_update_push state push
      (fun record => { record with timer := false }) rfl id).trans (steady_unregister _ push)) ?_
    exact Steady.of_push rfl rfl rfl rfl rfl rfl rfl rfl
  · exact Steady.refl state

theorem steady_start_over (state : State Proc) (key : Key) (prior : Option Nat) :
    Steady state (startOver state key prior) := by
  cases prior with
  | none => exact Steady.refl state
  | some push =>
    refine Steady.trans ?_ (steady_enqueue _ push .endShort)
    exact Steady.of_push rfl rfl rfl rfl rfl rfl rfl rfl

theorem Kept.register (kept : Kept none none state) (key : Key) (order : Option PushOrder)
    (total : Int) (prior : Option Nat) :
    Kept none (some state.pushCount) (register state key order total prior) := by
  refine ⟨kept.fresh, kept.apart, kept.waits, kept.agrees, kept.held, kept.busy, ?_, kept.nonces,
    kept.rising⟩
  intro push bound notNew alive
  have older : push ≠ state.pushCount := by simpa using notNew
  simp only [Inbound.register, update_of_ne older] at alive bound ⊢
  exact kept.alive push (by omega) (by simp) alive

theorem Kept.join {name : Room} {record push : Nat} {key : Key}
    (kept : Kept (some name) (some push) state) (placed : state.rooms.get name = some record)
    (sameRoom : key.2 = name) (own : (state.push push).room = name) (process : Proc) :
    Kept none none (note
      (updateRecord state record fun current =>
        { current with openPushes := current.openPushes ++ [push] })
      (.opened push key process)) := by
  have joined : Kept (some name) none (note
      (updateRecord state record fun current =>
        { current with openPushes := current.openPushes ++ [push] })
      (.opened push key process)) := by
    refine kept.amend (Or.inr rfl) placed rfl rfl rfl rfl ?_ ?_ (fun _ _ => rfl) ?_ ?_ (le_refl _) ?_
    · simp [Standing.after, sameRoom, RoomState.view]
    · intro other standing different
      simp only [Standing.after, sameRoom]
      rw [if_neg fun same => different same.symm]
    · intro wait mem
      obtain ⟨found, waiting⟩ := kept.waits wait mem
      refine ⟨found, ?_⟩
      by_cases hit : wait.record = record
      · rw [hit] at waiting ⊢
        rw [update_self]
        exact waiting
      · rw [update_of_ne hit]
        exact waiting
    · intro other bound _ alive
      change (state.push other).ended = false at alive
      change other ∈ Standing.openPushes (if (state.push other).room = name then _ else _)
      by_cases new : other = push
      · subst new
        rw [if_pos own]
        simp [RoomState.view]
      · have old := kept.alive other bound (by simpa using new) alive
        split_ifs with hit
        · rw [hit, standing_of_placed placed] at old
          exact mem_append_left _ old
        · exact old
    · simp
  apply joined.tighten
  intro other found
  have same : state.rooms.get name = some other := found
  rw [placed] at same
  cases same
  by_contra idle
  have nothing := RoomState.idle_iff.mp (by simpa using idle)
  have none := congrArg Standing.openPushes nothing
  simp [note, updateRecord, RoomState.view, Standing.nothing] at none

section

variable (kept : Kept none none state)
include kept

theorem Kept.start (key : Key) (order : Option PushOrder)
    (total : Int) (prior : Option Nat) (process : Proc) :
    Kept none none (start state key order total prior process).2 := by
  have left := kept.steady (steady_start_over state key prior)
  obtain ⟨held, placed, -⟩ := (left.register key order total prior).room key.2
  have own : ((Inbound.room (Inbound.register (startOver state key prior) key order total prior)
      key.2).2.push (startOver state key prior).pushCount).room = key.2 := by
    rw [(hold_room _ key.2).push]
    simp [Inbound.register, newPush]
  unfold Inbound.start
  dsimp only
  exact held.join placed rfl own process

theorem Kept.push_for (key : Key) (order : Option PushOrder)
    (place : Option (Int × Int)) (process : Proc) :
    Kept none none (pushFor state key order place process).2 := by
  unfold pushFor
  split
  · split_ifs
    · exact kept.start key order _ _ process
    · exact kept
  · have started := kept.start key order ((place.map Prod.snd).getD 0) none process
    dsimp only
    split_ifs
    · exact started
    · exact started.steady (steady_update_push _ _ _ rfl id)

theorem Kept.batch (peer : Peer) (name : Room) (frame : PushFrame)
    (process : Proc) : Kept none none (batch state peer name frame process) := by
  have opened := kept.push_for (peer, name) frame.pushOrder frame.place process
  have taken := opened.steady ((steady_update_push _
    (pushFor state (peer, name) frame.pushOrder frame.place process).1
    (takeFrame frame.pushOrder frame.place) rfl id).trans
    (steady_update_push _ (pushFor state (peer, name) frame.pushOrder frame.place process).1
      (fun record => { record with timer := true }) rfl id))
  have queued := (taken.answered peer name none).steady (steady_enqueue _
    (pushFor state (peer, name) frame.pushOrder frame.place process).1
    (.batch frame.pushOrder process))
  unfold Inbound.batch
  dsimp only
  split_ifs
  · exact queued.steady (steady_finish _ _)
  · exact queued

theorem Kept.leave {name : Room} {record push : Nat} (placed : state.rooms.get name = some record)
    (past : (state.push push).ended = true) (completed : Bool) :
    Kept (some name) none (updateRecord (note state (.ended push name completed)) record
      fun current =>
        { current with
          openPushes := current.openPushes.filter fun other => decide (other ≠ push)
          owed := !completed }) := by
  refine kept.amend (Or.inl rfl) placed rfl rfl rfl rfl ?_ ?_ (fun _ _ => rfl) ?_ ?_ (le_refl _) ?_
  · simp only [Standing.after, if_true]
    rfl
  · intro other standing different
    simp only [Standing.after]
    rw [if_neg fun same => different same.symm]
  · intro wait mem
    obtain ⟨found, waiting⟩ := kept.waits wait mem
    refine ⟨found, ?_⟩
    by_cases hit : wait.record = record
    · rw [hit] at waiting ⊢
      rw [update_self]
      exact waiting
    · rw [update_of_ne hit]
      exact waiting
  · intro other bound notNew alive
    change (state.push other).ended = false at alive
    change other ∈ Standing.openPushes (if (state.push other).room = name then _ else _)
    have old := kept.alive other bound notNew alive
    have different : other ≠ push := by
      rintro rfl
      rw [past] at alive
      cases alive
    split_ifs with hit
    · rw [hit, standing_of_placed placed] at old
      exact List.mem_filter.mpr ⟨old, by simpa using different⟩
    · exact old
  · simp

theorem Kept.close_and_leave {push record : Nat} (completed : Bool)
    (placed : state.rooms.get (state.push push).room = some record) :
    Kept (some (state.push push).room) none
      (leaveRoom (closePush state push completed) push record completed) := by
  have marked := steady_update_push state push
    (fun record => { record with ended := true, timer := false }) rfl fun _ => rfl
  have dropped := steady_unregister
    (updatePush state push fun record => { record with ended := true, timer := false }) push
  have past : ((unregister (updatePush state push
      fun record => { record with ended := true, timer := false }) push).push push).ended = true := by
    apply dropped.ended
    simp [updatePush]
  have stands : (unregister (updatePush state push
      fun record => { record with ended := true, timer := false }) push).rooms.get
        (state.push push).room = some record := by
    rw [dropped.rooms]
    exact placed
  have left := (kept.steady (marked.trans dropped)).leave stands past completed
  unfold leaveRoom closePush
  dsimp only
  refine Kept.steady ?_ (steady_note _ (show Neutral (.owed push _ (!completed)) from trivial))
  split_ifs
  · apply left.steady
    unfold claim
    dsimp only
    split_ifs
    · exact Steady.refl _
    · exact Steady.of_push rfl rfl rfl rfl rfl rfl rfl rfl
  · exact left

theorem Kept.end_push (job : Nat) {push : Nat} (known : push < state.pushCount) (completed : Bool) :
    Kept none none (endPush state job push completed) := by
  unfold endPush
  split_ifs with past
  · exact kept.steady (steady_set_stage state job .done)
  · have alive : (state.push push).ended = false := by simpa using past
    have mem := kept.alive push known (by simp) alive
    obtain ⟨record, placed⟩ : ∃ record, state.rooms.get (state.push push).room = some record := by
      cases found : state.rooms.get (state.push push).room with
      | none => simp [standingOf, found, Standing.nothing] at mem
      | some record => exact ⟨record, rfl⟩
    have closedRooms : (closePush state push completed).rooms = state.rooms := by
      unfold closePush claim unregister
      dsimp only
      split_ifs <;> rfl
    have settled := (kept.close_and_leave completed placed).settle (some push)
    dsimp only
    rw [closedRooms, placed]
    dsimp only
    split_ifs with free
    · exact settled.steady (steady_set_stage _ job .releasing)
    · unfold Inbound.settle at settled
      rw [if_neg free] at settled
      exact (settled.steady (steady_settle_done _ push)).steady (steady_set_stage _ job .done)

theorem Kept.commit_next (job : Nat) {push : Nat}
    (known : push < state.pushCount) (claims : List (Sender × Int)) :
    Kept none none (commitNext state job push claims) := by
  cases claims with
  | cons claim rest =>
    obtain ⟨sender, lamport⟩ := claim
    refine Kept.steady (kept.steady (steady_note state ?_)) (steady_set_stage _ job _)
    trivial
  | nil =>
    simp only [commitNext]
    split
    · exact kept.end_push job known true
    · exact kept.steady (steady_set_stage state job .done)

theorem Kept.start_job (job : Nat)
    (known : (state.job job).push < state.pushCount) : Kept none none (startJob state job) := by
  unfold startJob
  dsimp only
  split
  · exact kept.steady (steady_set_stage state job .processing)
  · exact kept.end_push job known false
  · split_ifs
    · exact kept.commit_next job known _
    · exact kept.end_push job known false

theorem Kept.account (job : Nat) {push : Nat}
    (known : push < state.pushCount) (order : Option PushOrder) (outcome : BatchOutcome) :
    Kept none none (account state job push order outcome) := by
  unfold Inbound.account
  dsimp only
  split_ifs
  · exact kept.steady (steady_set_stage state job .done)
  · exact (kept.steady (steady_update_push state push _ rfl id)).steady
      (steady_set_stage _ job .done)
  · exact (kept.steady (steady_update_push state push _ rfl id)).steady
      (steady_set_stage _ job .done)
  · exact (kept.steady (steady_update_push state push _ rfl id)).commit_next job known _
  · exact ((kept.steady (steady_update_push state push _ rfl id)).steady
      (steady_update_push _ push _ rfl id)).steady (steady_set_stage _ job .done)

theorem Kept.reset (registered : AllRegistered state) :
    Kept none none (reset state) := by
  refine ⟨?_, ?_, ?_, ?_, ?_, ?_, ?_, ?_, ?_⟩
  · intro name record found
    simp [Inbound.reset, note] at found
  · intro left right record found
    simp [Inbound.reset, note] at found
  · intro wait mem
    simp only [Inbound.reset, note, List.mem_filter, Bool.not_eq_true', List.any_eq_false,
      decide_eq_true_eq] at mem
    obtain ⟨found, waiting⟩ := kept.waits wait mem.1
    have listed := mem.2 wait.record (OrderedMap.mem_values_iff.mpr ⟨_, found⟩)
    exact absurd (OrderedMap.mem_values_iff.mpr ⟨_, waiting⟩) listed
  · intro name
    simp [standingOf, Inbound.reset, note, standing, Standing.after]
  · intro name
    simp [Inbound.reset, note, heldIn, heldAfter]
  · intro name record _ found
    simp [Inbound.reset, note] at found
  · intro push known _ alive
    rw [reset_ends registered known] at alive
    cases alive
  · intro peer name nonce mem
    rcases mem_cons.mp mem with new | old
    · cases new
    · exact kept.nonces peer name nonce old
  · refine ⟨?_, kept.rising⟩
    intro _ _ _ same
    cases same

end

/-- What a reset asks for; other steps ask for nothing. -/
def ResetsRegistered (state : State Proc) : Event Proc → Prop
  | .reset => AllRegistered state
  | _ => True

theorem Kept.step {after : State Proc} (kept : Kept none none state) (enrolled : Enrolled state)
    {event : Event Proc} (registered : ResetsRegistered state event)
    (stepped : step state event = some after) : Kept none none after := by
  cases event with
  | expect peer name =>
    cases stepped
    exact kept.expect peer name
  | answered peer name nonce =>
    cases stepped
    exact kept.answered peer name nonce
  | batch peer name frame process =>
    cases stepped
    exact kept.batch peer name frame process
  | complete peer name =>
    cases stepped
    unfold complete
    split
    · exact kept.answered peer name none
    · apply Kept.answered
      split_ifs
      · exact kept.steady (steady_finish state _)
      · exact kept.steady (steady_update_push state _ _ rfl id)
  | reset =>
    cases stepped
    exact kept.reset registered
  | expectTimer wait =>
    simp only [Inbound.step] at stepped
    split_ifs at stepped with armed
    cases stepped
    exact kept.expect_timer armed
  | stallTimer push =>
    simp only [Inbound.step] at stepped
    split_ifs at stepped
    cases stepped
    exact kept.steady (((steady_update_push state push _ rfl id).trans
      (steady_unregister _ push)).trans (steady_enqueue _ push .endShort))
  | startJob job =>
    simp only [Inbound.step] at stepped
    split_ifs at stepped with start
    cases stepped
    simp only [ready, and_eq_true, decide_eq_true_eq] at start
    exact kept.start_job job (enrolled.owner job start.1.1)
  | processed job result =>
    simp only [Inbound.step] at stepped
    split_ifs at stepped with processing
    cases stepped
    have known : (state.job job).push < state.pushCount :=
      enrolled.owner_of_active (by rw [processing]; simp)
    unfold processed
    dsimp only
    split
    · exact (kept.steady (steady_note state (by trivial))).account job known _ _
    · exact (kept.steady (steady_update_push state _ _ rfl id)).steady
        (steady_set_stage _ job .done)
  | committed job ok =>
    simp only [Inbound.step] at stepped
    split at stepped
    · rename_i rest stage
      cases stepped
      have known : (state.job job).push < state.pushCount :=
        enrolled.owner_of_active (by rw [stage]; simp)
      unfold committed
      dsimp only
      split_ifs
      · exact kept.commit_next job known rest
      · split
        · exact kept.end_push job known false
        · exact (kept.steady (steady_update_push state _ _ rfl id)).steady
            (steady_set_stage _ job .done)
    · cases stepped
  | released job =>
    simp only [Inbound.step] at stepped
    split_ifs at stepped
    cases stepped
    exact (kept.steady (steady_settle_done state _)).steady (steady_set_stage _ job .done)

theorem earlier_answer_waits {peer : Peer} {name : Room} {earlier later : Nat} (risen : earlier < later)
    (waiting : (standingOf state name).unanswered peer = some later) :
    (standingOf (Inbound.answered state peer name (some earlier)) name).unanswered peer =
      some later := by
  unfold Inbound.answered
  dsimp only
  cases placed : (note state (.answered peer name (some earlier))).rooms.get name with
  | none => exact waiting
  | some record =>
    have found : state.rooms.get name = some record := placed
    have armed : (state.record record).expecting.get peer = some later := by
      rw [standing_of_placed found] at waiting
      exact waiting
    have noted : ((note state (.answered peer name (some earlier))).record record).expecting.get
        peer = some later := armed
    dsimp only
    rw [noted]
    dsimp only
    rw [if_pos ⟨by simp, by simpa using Nat.ne_of_lt risen⟩]
    exact waiting

end Steps

section Wiring

variable {Proc : Type}

/-- A watermark on its way to the store; `live` when `setWatermark` sent it there
itself. -/
structure Write where
  room : Room
  sender : Sender
  lamport : Int
  live : Bool

structure WatermarkStore where
  holds : Holds
  writes : List Write
  saved : Room → OrderedMap Sender Int

/-- What storage does at a call of the class. A reset comes with the identity
lock, which drops the holds and stops the writes of the session. -/
def perform (call : Call Proc) (store : WatermarkStore) : WatermarkStore :=
  match call with
  | .hold room => { store with holds := holdWatermarks store.holds room }
  | .release _ room =>
    { store with
      holds := (releaseWatermarks store.holds room).1
      writes := store.writes ++ (releaseWatermarks store.holds room).2.map fun entry =>
        { room := room, sender := entry.1, lamport := entry.2, live := false } }
  | .commit _ room sender lamport =>
    { store with
      writes := store.writes ++
        [{ room := room, sender := sender, lamport := lamport, live := false }] }
  | .reset => { store with holds := .empty, writes := [] }
  | _ => store

structure HoldWorld (Proc : Type) where
  inbound : State Proc
  store : WatermarkStore

inductive HoldEvent (Proc : Type)
  | inbound (event : Event Proc)
  | setWatermark (room : Room) (sender : Sender) (lamport : Int)
  /-- The transaction of one write commits. -/
  | land (index : Nat)

def newCalls (before after : State Proc) : List (Call Proc) :=
  after.log.take (after.log.length - before.log.length)

def landWrite (store : WatermarkStore) (index : Nat) (write : Write) : WatermarkStore :=
  { store with
    writes := store.writes.eraseIdx index
    saved := Function.update store.saved write.room
      (commitMark (store.saved write.room) write.sender write.lamport) }

def holdStep (world : HoldWorld Proc) : HoldEvent Proc → Option (HoldWorld Proc)
  | .inbound event => (step world.inbound event).map fun next =>
    { inbound := next, store := (newCalls world.inbound next).foldr perform world.store }
  | .setWatermark room sender lamport => some
      { world with
        store :=
          { world.store with
            holds := (setWatermark world.store.holds room sender lamport).1
            writes := if (setWatermark world.store.holds room sender lamport).2 then
                world.store.writes ++
                  [{ room := room, sender := sender, lamport := lamport, live := true }]
              else world.store.writes } }
  | .land index => (world.store.writes[index]?).map fun write =>
    { world with store := landWrite world.store index write }

def HoldWorld.init (Proc : Type) (saved : Room → OrderedMap Sender Int) : HoldWorld Proc where
  inbound := State.init Proc
  store := { holds := .empty, writes := [], saved := saved }

/-- A room that is not held becomes held while no advance of `setWatermark` is on
its way to it, and a reset finds every push that is not over registered. -/
def Unraced (world : HoldWorld Proc) : HoldEvent Proc → Prop
  | .inbound event => ResetsRegistered world.inbound event ∧
      ∀ name, event.room = some name → world.store.holds.has name = false →
        ∀ write ∈ world.store.writes, write.live = true → write.room ≠ name
  | _ => True

structure Guarded (world : HoldWorld Proc) : Prop where
  enrolled : Enrolled world.inbound
  kept : Kept none none world.inbound
  held : ∀ name, world.store.holds.has name = heldIn name world.inbound.log
  live : ∀ write ∈ world.store.writes, write.live = true →
    world.store.holds.has write.room = false

theorem new_calls_eq {before after : State Proc} {extra : List (Call Proc)}
    (extended : after.log = extra ++ before.log) : newCalls before after = extra := by
  unfold newCalls
  rw [extended]
  simp

theorem perform_held (calls log : List (Call Proc)) (store : WatermarkStore)
    (held : ∀ name, store.holds.has name = heldIn name log) (name : Room) :
    (calls.foldr perform store).holds.has name = heldIn name (calls ++ log) := by
  induction calls with
  | nil => exact held name
  | cons call rest ih =>
    change (perform call (rest.foldr perform store)).holds.has name =
      heldAfter name call (heldIn name (rest ++ log))
    rw [← ih]
    cases call with
    | hold room =>
      simp only [perform, heldAfter, hold_has]
      rw [show decide (name = room) = decide (room = name) by simp [eq_comm]]
    | release cause room =>
      simp only [perform, heldAfter, release_has]
      rw [show decide (name = room) = decide (room = name) by simp [eq_comm]]
    | reset => rfl
    | _ => rfl

theorem perform_live (calls : List (Call Proc)) (store : WatermarkStore)
    (live : ∀ write ∈ store.writes, write.live = true → store.holds.has write.room = false)
    (unraced : ∀ name, .hold name ∈ calls → store.holds.has name = false →
      ∀ write ∈ store.writes, write.live = true → write.room ≠ name) :
    ∀ write ∈ (calls.foldr perform store).writes, write.live = true →
      write ∈ store.writes ∧ (calls.foldr perform store).holds.has write.room = false := by
  induction calls with
  | nil => exact fun write mem isLive => ⟨mem, live write mem isLive⟩
  | cons call rest ih =>
    have earlier := ih fun name mem => unraced name (mem_cons_of_mem call mem)
    rw [foldr_cons]
    intro write mem isLive
    cases call with
    | hold room =>
      obtain ⟨old, free⟩ := earlier write mem isLive
      refine ⟨old, ?_⟩
      simp only [perform, hold_has, free, Bool.or_false, decide_eq_false_iff_not]
      intro same
      have wasFree := live write old isLive
      rw [same] at wasFree
      exact unraced room mem_cons_self wasFree write old isLive same
    | release cause room =>
      simp only [perform, List.mem_append, List.mem_map] at mem
      rcases mem with kept | ⟨entry, -, rfl⟩
      · obtain ⟨old, free⟩ := earlier write kept isLive
        refine ⟨old, ?_⟩
        simp only [perform, release_has, free, Bool.and_false]
      · cases isLive
    | commit push room sender lamport =>
      simp only [perform, List.mem_append, mem_singleton] at mem
      rcases mem with kept | rfl
      · exact earlier write kept isLive
      · cases isLive
    | reset =>
      simp [perform] at mem
    | _ => exact earlier write mem isLive

theorem guarded_init (saved : Room → OrderedMap Sender Int) : Guarded (HoldWorld.init Proc saved) where
  enrolled := enrolled_init
  kept := kept_init
  held := fun _ => rfl
  live := by
    intro write mem
    simp [HoldWorld.init] at mem

theorem Guarded.step {world next : HoldWorld Proc} (guarded : Guarded world)
    {event : HoldEvent Proc} (unraced : Unraced world event)
    (stepped : holdStep world event = some next) : Guarded next := by
  cases event with
  | inbound event =>
    obtain ⟨after, taken, rfl⟩ := map_eq_some_iff.mp stepped
    obtain ⟨extra, extended, caused⟩ := step_caused taken
    have calls := new_calls_eq extended
    refine ⟨guarded.enrolled.step taken, guarded.kept.step guarded.enrolled unraced.1 taken, ?_, ?_⟩
    · intro name
      dsimp only
      rw [calls, extended]
      exact perform_held extra world.inbound.log world.store guarded.held name
    · dsimp only
      rw [calls]
      intro write mem isLive
      refine (perform_live extra world.store guarded.live ?_ write mem isLive).2
      intro name asked
      exact unraced.2 name (caused _ asked)
  | setWatermark room sender lamport =>
    cases stepped
    refine ⟨guarded.enrolled, guarded.kept, ?_, ?_⟩
    · intro name
      dsimp only
      rw [set_watermark_has]
      exact guarded.held name
    · intro write mem isLive
      dsimp only at mem ⊢
      rw [set_watermark_has]
      rw [set_watermark_commits] at mem
      split_ifs at mem with free
      · rcases List.mem_append.mp mem with old | new
        · exact guarded.live write old isLive
        · cases mem_singleton.mp new
          simpa using free
      · exact guarded.live write mem isLive
  | land index =>
    obtain ⟨write, -, rfl⟩ := map_eq_some_iff.mp stepped
    refine ⟨guarded.enrolled, guarded.kept, guarded.held, ?_⟩
    intro other mem isLive
    exact guarded.live other (mem_of_mem_eraseIdx mem) isLive

theorem Guarded.held_iff {world : HoldWorld Proc} (guarded : Guarded world) (name : Room) :
    world.store.holds.has name = true ↔ (standing name world.inbound.log).Needed := by
  rw [guarded.held, guarded.kept.held, ← guarded.kept.agrees]
  constructor
  · intro found
    obtain ⟨record, placed⟩ := isSome_iff_exists.mp found
    have busy := guarded.kept.busy name record (by simp) placed
    rw [standing_of_placed placed]
    by_contra unneeded
    rw [RoomState.idle_iff.mpr (Standing.not_needed_iff.mp unneeded)] at busy
    cases busy
  · intro needed
    by_contra missing
    have none : world.inbound.rooms.get name = none := by simpa using missing
    apply Standing.not_needed_iff.mpr _ needed
    simp [standingOf, none]

theorem rising_before {newer older : List (Call Proc)} {peer : Peer} {name : Room} {later : Nat}
    (rising : Rising (newer ++ .asked peer name later :: older)) {other : Peer} {place : Room}
    {earlier : Nat} (asked : .asked other place earlier ∈ older) : earlier < later := by
  induction newer with
  | nil => exact rising.1 peer name later rfl other place earlier asked
  | cons call rest ih => exact ih rising.2

/-- A room is held exactly while it has to be, no late answer ends a newer wait,
and no advance of `setWatermark` lands in a room that has to be held. -/
theorem rooms_held_while_needed (saved : Room → OrderedMap Sender Int)
    (events : List (HoldEvent Proc)) (final : HoldWorld Proc)
    (unraced : Meets holdStep Unraced (HoldWorld.init Proc saved) events)
    (ran : run holdStep (HoldWorld.init Proc saved) events = some final) :
    (∀ name, final.store.holds.has name = true ↔ (standing name final.inbound.log).Needed) ∧
    (∀ newer older peer name later earlier next,
      final.inbound.log = newer ++ .asked peer name later :: older →
        .asked peer name earlier ∈ older →
          (standingOf final.inbound name).unanswered peer = some later →
            step final.inbound (.answered peer name (some earlier)) = some next →
              (standingOf next name).unanswered peer = some later) ∧
    ∀ (index : Nat) (write : Write), final.store.writes[index]? = some write → write.live = true →
      ¬(standing write.room final.inbound.log).Needed := by
  have guarded : Guarded final :=
    run_keeps (fun _ _ _ guarded unraced stepped => guarded.step unraced stepped)
      (guarded_init saved) unraced ran
  refine ⟨guarded.held_iff, ?_, ?_⟩
  · intro newer older peer name later earlier next split asked waiting stepped
    cases stepped
    have rising := guarded.kept.rising
    rw [split] at rising
    exact earlier_answer_waits (rising_before rising asked) waiting
  · intro index write found isLive needed
    have free := guarded.live write (mem_of_getElem? found) isLive
    rw [(guarded.held_iff write.room).mpr needed] at free
    cases free

end Wiring

section Schedules

def nothingSaved (_ : Room) : OrderedMap Sender Int := .empty

def askedTwice : List (HoldEvent Unit) :=
  [.setWatermark "den" "alice" 3, .land 0, .inbound (.expect "bob" "den"),
    .inbound (.expect "bob" "den"), .setWatermark "den" "alice" 5]

theorem asked_twice_held :
    ∃ final, run holdStep (HoldWorld.init Unit nothingSaved) askedTwice = some final ∧
      final.store.holds.has "den" = true ∧ (standing "den" final.inbound.log).Needed ∧
        ∀ next, step final.inbound (.answered "bob" "den" (some 1)) = some next →
          (standingOf next "den").unanswered "bob" = some 2 := by
  refine ⟨_, rfl, rfl, ?_⟩
  obtain ⟨held, waits, -⟩ := rooms_held_while_needed nothingSaved askedTwice _ (by
    refine Meets.cons trivial rfl (Meets.cons trivial rfl (Meets.cons ⟨trivial, ?_⟩ rfl
      (Meets.cons ⟨trivial, ?_⟩ rfl (Meets.cons trivial rfl trivial))))
    · nofun
    · intro name _ _ write mem
      cases mem) rfl
  refine ⟨(held "den").mp rfl, ?_⟩
  intro next stepped
  exact waits [] [.hold "den", .asked "bob" "den" 1, .hold "den"] "bob" "den" 2 1 next rfl
    (by simp) rfl stepped

def racedAdvance : List (HoldEvent Unit) :=
  [.setWatermark "den" "alice" 5, .inbound (.expect "bob" "den")]

def lateShortEnd : List (HoldEvent Unit) :=
  [.inbound (.batch "bob" "den" ⟨.int 0, .int 1, .text "asc"⟩ ()), .inbound (.startJob 0),
    .inbound (.processed 0 none), .inbound .reset, .inbound (.startJob 1)]

theorem advance_lands_in_held_room :
    (∃ world next, run holdStep (HoldWorld.init Unit nothingSaved) racedAdvance = some world ∧
      world.store.holds.has "den" = true ∧ (standing "den" world.inbound.log).Needed ∧
        world.store.writes[0]? = some ⟨"den", "alice", 5, true⟩ ∧
          holdStep world (.land 0) = some next ∧ (next.store.saved "den").get "alice" = some 5) ∧
    ∃ world, run holdStep (HoldWorld.init Unit nothingSaved) lateShortEnd = some world ∧
      (standing "den" world.inbound.log).Needed ∧ world.store.holds.has "den" = false := by
  refine ⟨⟨_, _, rfl, rfl, ?_, rfl, rfl, rfl⟩, ⟨_, rfl, ?_, rfl⟩⟩
  · exact Or.inr (Or.inr ⟨"bob", 1, rfl⟩)
  · exact Or.inr (Or.inl rfl)

end Schedules

end AwfulChat.Inbound
