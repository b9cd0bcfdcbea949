import AwfulChat.Inbound.Quiet

/-!
# Who a call is made for

The history of the class only grows, and every new entry of it comes from the
step that was taken: a push is opened by a frame of its peer, a report comes
from `process()`, a claim is made by a job that could still claim, and only a
job of a push that was not over ends it, frees its room or sets what it owes.
-/

namespace AwfulChat.Inbound

open Library SyncPush List

set_option autoImplicit false

variable {Proc : Type}

/-- The history grew, by allowed calls. -/
def Grows (allowed : Call Proc → Prop) (before after : State Proc) : Prop :=
  ∃ extra, after.log = extra ++ before.log ∧ ∀ call ∈ extra, allowed call

namespace Grows

variable {allowed wider : Call Proc → Prop} {first second third : State Proc}

theorem of_same (same : second.log = first.log) : Grows allowed first second :=
  ⟨[], same, by simp⟩

theorem refl (state : State Proc) : Grows allowed state state :=
  of_same rfl

theorem trans (left : Grows allowed first second) (right : Grows allowed second third) :
    Grows allowed first third := by
  obtain ⟨earlier, earlierLog, earlierAllowed⟩ := left
  obtain ⟨later, laterLog, laterAllowed⟩ := right
  refine ⟨later ++ earlier, by rw [laterLog, earlierLog, append_assoc], ?_⟩
  intro call mem
  rcases mem_append.mp mem with new | old
  · exact laterAllowed call new
  · exact earlierAllowed call old

theorem mono (grows : Grows allowed first second) (widen : ∀ call, allowed call → wider call) :
    Grows wider first second := by
  obtain ⟨extra, extended, all⟩ := grows
  exact ⟨extra, extended, fun call mem => widen call (all call mem)⟩

theorem note (grows : Grows allowed first second) {call : Call Proc} (fine : allowed call) :
    Grows allowed first (note second call) := by
  apply grows.trans
  exact ⟨[call], rfl, by simpa using fine⟩

theorem mem (grows : Grows allowed first second) {call : Call Proc} (member : call ∈ second.log) :
    call ∈ first.log ∨ allowed call := by
  obtain ⟨extra, extended, all⟩ := grows
  rw [extended] at member
  rcases mem_append.mp member with new | old
  · exact Or.inr (all call new)
  · exact Or.inl old

end Grows

/-- Calls about digests and releases that no push causes. -/
def Idle : Call Proc → Prop
  | .asked _ _ _ => True
  | .answered _ _ _ => True
  | .lapsed _ _ _ => True
  | .release none _ => True
  | _ => False

/-- Calls that looking up a room's record adds. -/
def Holding (name : Room) : Call Proc → Prop
  | .hold other => other = name
  | call => Idle call

theorem idle_holding (name : Room) (call : Call Proc) (idle : Idle call) : Holding name call := by
  cases call <;> first | exact idle | exact idle.elim

/-- Calls the end of a push makes. -/
def Ends (push : Nat) : Call Proc → Prop
  | .ended other _ _ => other = push
  | .owed other _ _ => other = push
  | .release (some other) _ => other = push
  | _ => False

section Idleness

variable (state : State Proc)

theorem room_grows (name : Room) : Grows (Holding name) state (room state name).2 := by
  unfold room
  split
  · exact (Grows.refl state).note rfl
  · exact ⟨[.hold name], rfl, by simp [Holding]⟩

theorem settle_grows (name : Room) : Grows Idle state (settle state name none) := by
  unfold settle
  split_ifs
  · exact ⟨[.release none name], rfl, by simp [Idle]⟩
  · exact Grows.refl state

theorem end_wait_grows (record : Nat) (peer : Peer) (name : Room) :
    Grows Idle state (endWait state record peer name) :=
  settle_grows _ name

theorem answered_grows (peer : Peer) (name : Room) (nonce : Option Nat) :
    Grows Idle state (answered state peer name nonce) := by
  have told : Grows Idle state (note state (.answered peer name nonce)) :=
    (Grows.refl state).note trivial
  unfold answered
  dsimp only
  split
  · exact told
  · split
    · exact told
    · split_ifs
      · exact told
      · exact told.trans (end_wait_grows _ _ peer name)

theorem expect_grows (peer : Peer) (name : Room) :
    Grows (Holding name) state (expect state peer name).2 := by
  have held := room_grows state name
  have cleared : Grows (Holding name) (room state name).2
      (clearBefore (room state name).2 (room state name).1 peer) := by
    unfold clearBefore
    split <;> exact Grows.of_same rfl
  unfold expect
  dsimp only
  refine Grows.note ?_ trivial
  exact (held.trans cleared).trans (Grows.of_same rfl)

theorem expect_timer_grows (wait : Wait) : Grows Idle state (expectTimer state wait) := by
  have fired : Grows Idle state (clearWait state wait.nonce) := Grows.of_same rfl
  unfold expectTimer
  dsimp only
  split_ifs
  · refine Grows.trans ?_ (end_wait_grows _ _ _ _)
    apply Grows.note fired
    trivial
  · exact fired

theorem finish_grows (allowed : Call Proc → Prop) (push : Nat) :
    Grows allowed state (finish state push) := by
  unfold finish unregister
  dsimp only
  split_ifs <;> exact Grows.of_same rfl

theorem complete_grows (peer : Peer) (name : Room) :
    Grows Idle state (complete state peer name).2 := by
  unfold complete
  split
  · exact answered_grows state peer name none
  · refine Grows.trans ?_ (answered_grows _ peer name none)
    split_ifs
    · exact finish_grows state Idle _
    · exact Grows.of_same rfl

end Idleness

/-- Calls an arriving frame makes. -/
def Opens (key : Key) (process : Proc) : Call Proc → Prop
  | .opened _ origin opener => origin = key ∧ opener = process
  | call => Holding key.2 call

theorem holding_opens (key : Key) (process : Proc) (call : Call Proc) (holds : Holding key.2 call) :
    Opens key process call := by
  cases call <;> first | exact holds | exact holds.elim

section Frames

variable (state : State Proc) (key : Key) (order : Option PushOrder) (process : Proc)

theorem start_grows (total : Int) (before : Option Nat) :
    Grows (Opens key process) state (start state key order total before process).2 := by
  have left : Grows (Opens key process) state
      (register (startOver state key before) key order total before) := by
    cases before <;> exact Grows.of_same rfl
  have held := (room_grows (register (startOver state key before) key order total before)
    key.2).mono (holding_opens key process)
  unfold start
  dsimp only
  refine Grows.note ?_ ⟨rfl, rfl⟩
  exact (left.trans held).trans (Grows.of_same rfl)

theorem push_for_grows (place : Option (Int × Int)) :
    Grows (Opens key process) state (pushFor state key order place process).2 := by
  unfold pushFor
  split
  · split_ifs
    · exact start_grows state key order process _ _
    · exact Grows.refl state
  · have started := start_grows state key order process ((place.map Prod.snd).getD 0) none
    dsimp only
    split_ifs
    · exact started
    · exact started.trans (Grows.of_same rfl)

theorem batch_grows (peer : Peer) (name : Room) (frame : PushFrame) :
    Grows (Opens (peer, name) process) state (batch state peer name frame process) := by
  have opened := push_for_grows state (peer, name) frame.pushOrder process frame.place
  have taken : Grows (Opens (peer, name) process) state
      (answered (arm (updatePush (pushFor state (peer, name) frame.pushOrder frame.place process).2
        (pushFor state (peer, name) frame.pushOrder frame.place process).1
        (takeFrame frame.pushOrder frame.place))
        (pushFor state (peer, name) frame.pushOrder frame.place process).1) peer name none) := by
    refine (opened.trans (Grows.of_same rfl)).trans ?_
    exact (answered_grows _ peer name none).mono fun call idle =>
      holding_opens (peer, name) process call (idle_holding name call idle)
  unfold batch
  dsimp only
  split_ifs
  · refine Grows.trans ?_ (finish_grows _ _ _)
    exact taken.trans (Grows.of_same rfl)
  · exact taken.trans (Grows.of_same rfl)

end Frames

/-- Whether the job may still call `commit`. -/
def mayClaim (state : State Proc) (job : Nat) : Bool :=
  let push := state.push (state.job job).push
  match (state.job job).stage, (state.job job).task with
  | .committing rest, _ => !rest.isEmpty
  | .queued, .batch (some .asc) _ | .processing, .batch (some .asc) _ =>
    !push.broken && !push.isPartial && !push.overflowed
  | .queued, .finish => wholePush push
  | _, _ => false

def Event.job : Event Proc → Option Nat
  | .startJob job => some job
  | .processed job _ => some job
  | .committed job _ => some job
  | .released job => some job
  | _ => none

def Event.room : Event Proc → Option Room
  | .expect _ room => some room
  | .batch _ room _ _ => some room
  | _ => none

/-- What has to be so for a step to make a call. -/
def Caused (state : State Proc) (event : Event Proc) : Call Proc → Prop
  | .opened _ origin process => ∃ frame, event = .batch origin.1 origin.2 frame process
  | .outcome push process outcome => ∃ job order, event = .processed job (some outcome) ∧
      (state.job job).push = push ∧ (state.job job).task = .batch order process
  | .commit push _ _ _ => ∃ job, event.job = some job ∧ (state.job job).push = push ∧
      mayClaim state job = true
  | .ended push _ _ => ∃ job, event.job = some job ∧ (state.job job).push = push ∧
      (state.push push).ended = false
  | .owed push _ _ => ∃ job, event.job = some job ∧ (state.job job).push = push ∧
      (state.push push).ended = false
  | .release (some push) _ => ∃ job, event.job = some job ∧ (state.job job).push = push ∧
      (state.push push).ended = false
  | .hold name => event.room = some name
  | .reset => event = .reset
  | _ => True

theorem idle_caused (state : State Proc) (event : Event Proc) (call : Call Proc)
    (idle : Idle call) : Caused state event call := by
  cases call with
  | release cause name =>
    cases cause with
    | none => trivial
    | some push => exact idle.elim
  | opened push key process | outcome push process outcome | commit push name sender lamport
  | ended push name completed | owed push name short | hold name | reset => exact idle.elim
  | _ => trivial

theorem holding_caused (state : State Proc) {event : Event Proc} {name : Room}
    (looks : event.room = some name) (call : Call Proc) (holds : Holding name call) :
    Caused state event call := by
  cases call with
  | hold other =>
    cases holds
    exact looks
  | _ => exact idle_caused state event _ holds

theorem opens_caused (state : State Proc) (peer : Peer) (name : Room) (frame : PushFrame)
    (process : Proc) (call : Call Proc) (opens : Opens (peer, name) process call) :
    Caused state (.batch peer name frame process) call := by
  cases call with
  | opened push origin opener =>
    obtain ⟨rfl, rfl⟩ := opens
    exact ⟨frame, rfl⟩
  | _ => exact holding_caused state rfl _ opens

section Jobs

variable {state : State Proc} {event : Event Proc} {job : Nat}

theorem ends_caused (runs : event.job = some job)
    (alive : (state.push (state.job job).push).ended = false) (call : Call Proc)
    (ends : Ends (state.job job).push call) : Caused state event call := by
  cases call with
  | release cause name =>
    cases cause with
    | none => exact ends.elim
    | some push =>
      cases ends
      exact ⟨job, runs, rfl, alive⟩
  | ended push name completed | owed push name short =>
    cases ends
    exact ⟨job, runs, rfl, alive⟩
  | _ => exact ends.elim

theorem end_push_grows (state : State Proc) (job push : Nat) (completed : Bool) :
    Grows (fun call => Ends push call ∧ (state.push push).ended = false) state
      (endPush state job push completed) := by
  unfold endPush
  split_ifs with past
  · exact Grows.of_same rfl
  · have alive : (state.push push).ended = false := by simpa using past
    have closed : Grows (fun call => Ends push call ∧ (state.push push).ended = false) state
        (closePush state push completed) := by
      refine ⟨[.ended push (state.push push).room completed], ?_, by simpa [Ends] using alive⟩
      unfold closePush claim unregister
      dsimp only
      split_ifs <;> rfl
    have settled : ∀ middle : State Proc, Grows
        (fun call => Ends push call ∧ (state.push push).ended = false) middle
        (settleDone middle push) := by
      intro middle
      unfold settleDone
      split_ifs <;> exact Grows.of_same rfl
    dsimp only
    split
    · exact closed.trans ((settled _).trans (Grows.of_same rfl))
    · rename_i record found
      have left : Grows (fun call => Ends push call ∧ (state.push push).ended = false) state
          (leaveRoom (closePush state push completed) push record completed) := by
        apply closed.trans
        exact ⟨[.owed push _ (!completed)], rfl, by simpa [Ends] using alive⟩
      split_ifs with free
      · refine left.trans ⟨[.release (some push) (state.push push).room], ?_,
          by simpa [Ends] using alive⟩
        unfold settle
        rw [if_pos free]
        rfl
      · exact left.trans ((settled _).trans (Grows.of_same rfl))

variable (runs : event.job = some job)
include runs

theorem end_push_caused (completed : Bool) :
    Grows (Caused state event) state (endPush state job (state.job job).push completed) :=
  (end_push_grows state job _ completed).mono fun call said =>
    ends_caused runs said.2 call said.1

theorem commit_next_caused {middle : State Proc} (claims : List (Sender × Int))
    (silent : Grows (Caused state event) state middle)
    (sameEnd : (middle.push (state.job job).push).ended =
      (state.push (state.job job).push).ended)
    (may : claims ≠ [] → mayClaim state job = true) :
    Grows (Caused state event) state (commitNext middle job (state.job job).push claims) := by
  cases claims with
  | cons claim rest =>
    obtain ⟨sender, lamport⟩ := claim
    refine Grows.trans (Grows.note silent ?_) (Grows.of_same rfl)
    exact ⟨job, runs, rfl, may (by simp)⟩
  | nil =>
    simp only [commitNext]
    split
    · apply silent.trans
      apply (end_push_grows middle job _ true).mono
      intro call said
      rw [sameEnd] at said
      exact ends_caused runs said.2 call said.1
    · exact silent.trans (Grows.of_same rfl)

end Jobs

section Steps

variable {state : State Proc}

theorem start_job_caused (job : Nat) (queued : (state.job job).stage = .queued) :
    Grows (Caused state (.startJob job)) state (startJob state job) := by
  unfold startJob
  dsimp only
  split
  · exact Grows.of_same rfl
  · exact end_push_caused rfl false
  · rename_i task
    split_ifs with whole
    · apply commit_next_caused rfl _ (Grows.refl state) rfl
      intro _
      simp only [mayClaim, queued, task]
      exact whole
    · exact end_push_caused rfl false

theorem account_caused (job : Nat) (order : Option PushOrder) (process : Proc)
    (outcome : BatchOutcome) (stage : (state.job job).stage = .processing)
    (task : (state.job job).task = .batch order process) :
    Grows (Caused state (.processed job (some outcome))) state
      (account (note state (.outcome (state.job job).push process outcome)) job
        (state.job job).push order outcome) := by
  have told : Grows (Caused state (.processed job (some outcome))) state
      (note state (.outcome (state.job job).push process outcome)) := by
    apply (Grows.refl state).note
    exact ⟨job, order, rfl, rfl, task⟩
  unfold account
  dsimp only
  split_ifs with past full marked stuck
  · exact told.trans (Grows.of_same rfl)
  · exact told.trans (Grows.of_same rfl)
  · exact told.trans (Grows.of_same rfl)
  · apply commit_next_caused rfl
    · exact told.trans (Grows.of_same rfl)
    · simp [updatePush, note]
    · intro _
      subst marked
      simp only [mayClaim, stage, task]
      simp only [note, not_or, Bool.not_eq_true] at past stuck
      simp [past, stuck.1, stuck.2]
  · exact told.trans (Grows.of_same rfl)

theorem committed_caused (job : Nat) (rest : List (Sender × Int)) (ok : Bool)
    (stage : (state.job job).stage = .committing rest) :
    Grows (Caused state (.committed job ok)) state (committed state job rest ok) := by
  unfold committed
  dsimp only
  split_ifs
  · apply commit_next_caused rfl _ (Grows.refl state) rfl
    intro more
    simp only [mayClaim, stage]
    simpa using more
  · split
    · exact end_push_caused rfl false
    · exact Grows.of_same rfl

theorem step_caused {after : State Proc} {event : Event Proc}
    (stepped : step state event = some after) : Grows (Caused state event) state after := by
  cases event with
  | expect peer name =>
    cases stepped
    exact (expect_grows state peer name).mono (holding_caused state rfl)
  | answered peer name nonce =>
    cases stepped
    exact (answered_grows state peer name nonce).mono (idle_caused state _)
  | batch peer name frame process =>
    cases stepped
    exact (batch_grows state process peer name frame).mono
      (opens_caused state peer name frame process)
  | complete peer name =>
    cases stepped
    exact (complete_grows state peer name).mono (idle_caused state _)
  | reset =>
    cases stepped
    exact ⟨[.reset], rfl, by simp [Caused]⟩
  | expectTimer wait =>
    simp only [step] at stepped
    split_ifs at stepped
    cases stepped
    exact (expect_timer_grows state wait).mono (idle_caused state _)
  | stallTimer push =>
    simp only [step] at stepped
    split_ifs at stepped
    cases stepped
    unfold stallTimer unregister
    split_ifs <;> exact Grows.of_same rfl
  | startJob job =>
    simp only [step] at stepped
    split_ifs at stepped with start
    cases stepped
    simp only [ready, Bool.and_eq_true, decide_eq_true_eq] at start
    exact start_job_caused job start.1.2
  | processed job result =>
    simp only [step] at stepped
    split_ifs at stepped with processing
    cases stepped
    unfold processed
    dsimp only
    split
    · rename_i order process outcome task
      exact account_caused job order process outcome processing task
    · exact Grows.of_same rfl
  | committed job ok =>
    simp only [step] at stepped
    split at stepped
    · rename_i rest stage
      cases stepped
      exact committed_caused job rest ok stage
    · cases stepped
  | released job =>
    simp only [step] at stepped
    split_ifs at stepped
    cases stepped
    unfold settleDone
    split_ifs <;> exact Grows.of_same rfl

end Steps

end AwfulChat.Inbound
