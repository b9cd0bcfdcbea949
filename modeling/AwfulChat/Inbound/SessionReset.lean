import AwfulChat.Inbound.Enrolled

/-!
# What a reset leaves behind

`reset` marks the registered pushes as over and forgets the maps. A push that a
finish, a stall or a restart had already taken out of the map is not marked, and
a batch that is queued or being stored still claims. `Retired` is what a push
has to be for nothing more to come of it; where a reset finds every earlier push
so, nothing is issued for any of them again.
-/

namespace AwfulChat.Inbound

open Library SyncPush List

set_option autoImplicit false

variable {Proc : Type}

/-- Calls on behalf of a push that the session it belonged to must answer for. -/
def OnBehalf (push : Nat) : Call Proc → Prop
  | .commit other _ _ _ => other = push
  | .owed other _ _ => other = push
  | .release (some other) _ => other = push
  | _ => False

/-- Nothing more comes of the push: it is over, in no map, and none of its jobs
can claim. -/
structure Retired (push : Nat) (state : State Proc) : Prop where
  known : push < state.pushCount
  ended : (state.push push).ended = true
  unregistered : ∀ key, state.pushes.get key ≠ some push
  jobs : ∀ job, (state.job job).push = push → mayClaim state job = false

/-- A push record that can do no more than before. -/
structure Fading (before after : Push) : Prop where
  ended : before.ended = true → after.ended = true
  broken : before.broken = true → after.broken = true
  isPartial : after.isPartial = before.isPartial
  overflowed : before.overflowed = true → after.overflowed = true
  next : after.next = before.next
  total : after.total = before.total

theorem Fading.refl (push : Push) : Fading push push :=
  ⟨id, id, rfl, id, rfl, rfl⟩

theorem Fading.of_core {before after : Push} (same : after.core = before.core)
    (ended : before.ended = true → after.ended = true) : Fading before after := by
  have field : ∀ {Value : Type} (project : Push → Value),
      (∀ record : Push, project record.core = project record) →
        project after = project before := by
    intro Value project kept
    rw [← kept, same, kept]
  refine ⟨ended, ?_, field Push.isPartial fun _ => rfl, ?_, field Push.next fun _ => rfl,
    field Push.total fun _ => rfl⟩
  · intro broken
    rw [field Push.broken fun _ => rfl]
    exact broken
  · intro overflowed
    rw [field Push.overflowed fun _ => rfl]
    exact overflowed

theorem may_claim_fades {before after : State Proc} {job : Nat}
    (same : after.job job = before.job job)
    (fades : Fading (before.push (before.job job).push) (after.push (before.job job).push))
    (mute : mayClaim before job = false) : mayClaim after job = false := by
  have broken := fades.broken
  have overflowed := fades.overflowed
  unfold mayClaim wholePush at mute ⊢
  rw [same]
  dsimp only at mute ⊢
  rw [fades.isPartial, fades.next, fades.total]
  revert mute
  split <;> simp only [Bool.and_eq_false_iff, Bool.not_eq_false', imp_self]
  all_goals
    intro mute
    tauto

section Keeping

variable {push : Nat} {state before after : State Proc}

theorem Retired.carry (retired : Retired push before) (count : before.pushCount ≤ after.pushCount)
    (fades : Fading (before.push push) (after.push push))
    (registered : ∀ key, after.pushes.get key = some push → before.pushes.get key = some push)
    (jobs : ∀ job, (after.job job).push = push →
      after.job job = before.job job ∨ mayClaim after job = false) : Retired push after where
  known := lt_of_lt_of_le retired.known count
  ended := fades.ended retired.ended
  unregistered := by
    intro key found
    exact retired.unregistered key (registered key found)
  jobs := by
    intro job owner
    rcases jobs job owner with same | mute
    · rw [same] at owner
      refine may_claim_fades same ?_ (retired.jobs job owner)
      rw [owner]
      exact fades
    · exact mute

theorem Retired.of_quiet (retired : Retired push before) (quiet : Quiet before after)
    (ended : (before.push push).ended = true → (after.push push).ended = true) :
    Retired push after := by
  apply retired.carry (le_of_eq quiet.pushCount.symm) (Fading.of_core (quiet.core push) ended)
  · intro key found
    exact quiet.registered key push found
  · intro job _
    exact Or.inl (by rw [quiet.job])

theorem Retired.hold (retired : Retired push before) (holds : HoldOnly before after) :
    Retired push after := by
  apply retired.of_quiet holds.quiet
  rw [holds.push]
  exact id

theorem Retired.note (retired : Retired push state) (call : Call Proc) :
    Retired push (note state call) :=
  retired.carry (le_refl _) (Fading.refl _) (fun _ found => found) fun _ _ => Or.inl rfl

theorem Retired.update_push (retired : Retired push state) (target : Nat) (change : Push → Push)
    (fades : target = push → Fading (state.push push) (change (state.push push))) :
    Retired push (updatePush state target change) := by
  refine retired.carry (le_refl _) ?_ ?_ ?_
  · by_cases hit : target = push
    · subst hit
      simpa [updatePush] using fades rfl
    · have missed : push ≠ target := fun same => hit same.symm
      simp only [updatePush, Function.update_of_ne missed]
      exact Fading.refl _
  · exact fun _ found => found
  · exact fun _ _ => Or.inl rfl

theorem Retired.set_stage (retired : Retired push state) (job : Nat) (stage : Stage)
    (mute : (state.job job).push = push → mayClaim (setStage state job stage) job = false) :
    Retired push (setStage state job stage) := by
  refine retired.carry (le_refl _) (Fading.refl _) ?_ ?_
  · exact fun _ found => found
  · intro other owner
    rw [set_stage_push] at owner
    by_cases hit : other = job
    · subst hit
      exact Or.inr (mute owner)
    · exact Or.inl (by simp [setStage, hit])

theorem may_claim_over (state : State Proc) (job : Nat) {stage : Stage}
    (past : stage = .done ∨ stage = .releasing) :
    mayClaim (setStage state job stage) job = false := by
  rcases past with rfl | rfl <;> simp [mayClaim, setStage]

section

variable (retired : Retired push state)
include retired

theorem Retired.set_over (job : Nat) {stage : Stage}
    (past : stage = .done ∨ stage = .releasing) : Retired push (setStage state job stage) :=
  retired.set_stage job stage fun _ => may_claim_over state job past

theorem Retired.enqueue (target : Nat) (task : Task Proc)
    (short : target = push → task = .endShort) : Retired push (enqueue state target task) := by
  refine retired.carry (le_refl _) ?_ ?_ ?_
  · rw [enqueue_push]
    split_ifs with hit
    · subst hit
      exact ⟨id, id, rfl, id, rfl, rfl⟩
    · exact Fading.refl _
  · exact fun _ found => found
  · intro job owner
    rw [enqueue_job] at owner ⊢
    split_ifs at owner ⊢ with new
    · right
      subst new
      rw [show task = Task.endShort from short owner]
      simp [mayClaim, enqueue_job_new]
    · exact Or.inl rfl

theorem Retired.unregister (target : Nat) :
    Retired push (unregister state target) := by
  apply retired.of_quiet (quiet_unregister state target)
  unfold Inbound.unregister
  split_ifs <;> exact id

theorem Retired.settle_done (target : Nat) :
    Retired push (settleDone state target) := by
  apply retired.of_quiet (quiet_settle_done state target)
  unfold settleDone
  by_cases hit : push = target
  · subst hit
    split_ifs <;> simp [updatePush]
  · split_ifs <;> simp [updatePush, hit]

theorem Retired.register (key : Key) (order : Option PushOrder)
    (total : Int) (prior : Option Nat) : Retired push (register state key order total prior) := by
  have older : push ≠ state.pushCount := Nat.ne_of_lt retired.known
  refine retired.carry (Nat.le_succ _) ?_ ?_ ?_
  · simp only [Inbound.register, Function.update_of_ne older]
    exact Fading.refl _
  · intro other found
    simp only [Inbound.register, OrderedMap.get_set] at found
    split_ifs at found with hit
    · cases found
      exact absurd rfl older
    · exact found
  · exact fun _ _ => Or.inl rfl

theorem Retired.close_push (target : Nat) (completed : Bool) :
    Retired push (closePush state target completed) := by
  have past : Retired push (Inbound.note
      (Inbound.unregister
        (updatePush state target fun record => { record with ended := true, timer := false }) target)
      (.ended target (state.push target).room completed)) := by
    apply Retired.note
    apply Retired.unregister
    apply retired.update_push
    intro _
    exact ⟨fun _ => rfl, id, rfl, id, rfl, rfl⟩
  unfold closePush
  dsimp only
  split_ifs
  · apply past.of_quiet (quiet_claim _ target)
    unfold claim
    dsimp only
    split_ifs <;> exact id
  · exact past

theorem Retired.end_push (job target : Nat) (completed : Bool) :
    Retired push (endPush state job target completed) := by
  have closed := retired.close_push target completed
  unfold endPush
  split_ifs
  · exact retired.set_over job (Or.inl rfl)
  · dsimp only
    split
    · exact (closed.settle_done target).set_over job (Or.inl rfl)
    · rename_i record found
      have left := closed.hold (hold_leave_room _ target record completed)
      split_ifs
      · exact (left.hold (hold_settle _ _ _)).set_over job (Or.inr rfl)
      · exact (left.settle_done target).set_over job (Or.inl rfl)

theorem Retired.commit_next (job target : Nat)
    (claims : List (Sender × Int)) (none : (state.job job).push = push → claims = []) :
    Retired push (commitNext state job target claims) := by
  cases claims with
  | cons claim rest =>
    obtain ⟨sender, lamport⟩ := claim
    apply (retired.note (.commit target (state.push target).room sender lamport)).set_stage
    intro owner
    cases none owner
  | nil =>
    simp only [commitNext]
    split
    · exact retired.end_push job target true
    · exact retired.set_over job (Or.inl rfl)

theorem Retired.start_job (job : Nat)
    (queued : (state.job job).stage = .queued) : Retired push (startJob state job) := by
  unfold startJob
  dsimp only
  split
  · rename_i order process task
    apply retired.set_stage
    intro owner
    have mute := retired.jobs job owner
    simp only [mayClaim, queued, task] at mute
    simp only [mayClaim, setStage, Function.update_self, task]
    rcases order with _ | (_ | _)
    · rfl
    · rfl
    · exact mute
  · exact retired.end_push job _ false
  · rename_i task
    split_ifs with whole
    · apply retired.commit_next
      intro owner
      have mute := retired.jobs job owner
      simp only [mayClaim, queued, task, whole] at mute
      cases mute
    · exact retired.end_push job _ false

theorem Retired.account (job : Nat) (order : Option PushOrder)
    (process : Proc) (outcome : BatchOutcome) (stage : (state.job job).stage = .processing)
    (task : (state.job job).task = .batch order process) :
    Retired push (account state job (state.job job).push order outcome) := by
  have floored : ∀ change : Push → Push,
      (∀ record : Push, Fading record (change record)) →
        Retired push (updatePush state (state.job job).push change) := by
    intro change fades
    exact retired.update_push _ change fun _ => fades _
  unfold Inbound.account
  dsimp only
  split_ifs with past full marked stuck
  · exact retired.set_over job (Or.inl rfl)
  · apply Retired.set_over _ job (Or.inl rfl)
    apply floored
    exact fun record => ⟨id, fun _ => rfl, rfl, fun _ => rfl, rfl, rfl⟩
  · apply Retired.set_over _ job (Or.inl rfl)
    apply floored
    exact fun record => ⟨id, id, rfl, id, rfl, rfl⟩
  · apply Retired.commit_next
    · apply floored
      exact fun record => ⟨id, id, rfl, id, rfl, rfl⟩
    · intro owner
      have mute := retired.jobs job owner
      subst marked
      simp only [not_or, Bool.not_eq_true] at past stuck
      simp [mayClaim, stage, task, past, stuck.1, stuck.2] at mute
  · apply Retired.set_over _ job (Or.inl rfl)
    apply Retired.update_push
    · apply floored
      exact fun record => ⟨id, id, rfl, id, rfl, rfl⟩
    · exact fun _ => ⟨id, id, rfl, id, rfl, rfl⟩

theorem Retired.processed (job : Nat)
    (stage : (state.job job).stage = .processing) (result : Option BatchOutcome) :
    Retired push (processed state job result) := by
  unfold Inbound.processed
  dsimp only
  split
  · rename_i order process outcome task
    exact (retired.note (.outcome _ process outcome)).account job order process outcome stage task
  · apply Retired.set_over _ job (Or.inl rfl)
    apply retired.update_push
    exact fun _ => ⟨id, fun _ => rfl, rfl, id, rfl, rfl⟩

theorem Retired.committed (job : Nat) {rest : List (Sender × Int)}
    (stage : (state.job job).stage = .committing rest) (ok : Bool) :
    Retired push (committed state job rest ok) := by
  unfold Inbound.committed
  dsimp only
  split_ifs
  · apply retired.commit_next
    intro owner
    have mute := retired.jobs job owner
    simpa [mayClaim, stage] using mute
  · split
    · exact retired.end_push job _ false
    · apply Retired.set_over _ job (Or.inl rfl)
      apply retired.update_push
      exact fun _ => ⟨id, fun _ => rfl, rfl, id, rfl, rfl⟩

theorem Retired.finish (target : Nat) :
    Retired push (finish state target) := by
  unfold Inbound.finish
  split_ifs with registered
  · have other : target ≠ push := by
      rintro rfl
      exact retired.unregistered _ registered
    dsimp only
    apply Retired.enqueue
    · refine Retired.carry (Retired.unregister (retired.update_push target
        (fun record => { record with timer := false }) ?_) target) (le_refl _) (Fading.refl _)
        (fun _ found => found) fun _ _ => Or.inl rfl
      exact fun same => absurd same other
    · exact fun same => absurd same other
  · exact retired

theorem Retired.start (key : Key) (order : Option PushOrder) (total : Int) (prior : Option Nat)
    (process : Proc) (registered : ∀ target, prior = some target → target ≠ push) :
    Retired push (start state key order total prior process).2 := by
  have left : Retired push (startOver state key prior) := by
    cases prior with
    | none => exact retired
    | some target =>
      apply Retired.enqueue
      · refine retired.carry (le_refl _) (Fading.refl _) ?_ fun _ _ => Or.inl rfl
        intro other found
        simp only [OrderedMap.get_delete] at found
        split_ifs at found
        exact found
      · exact fun same => absurd same (registered target rfl)
  have held := (left.register key order total prior).hold (hold_room _ key.2)
  unfold Inbound.start
  dsimp only
  apply Retired.note
  exact held.hold (hold_update_record _ _ _)

theorem Retired.push_for (key : Key) (order : Option PushOrder)
    (place : Option (Int × Int)) (process : Proc) :
    Retired push (pushFor state key order place process).2 ∧
      (pushFor state key order place process).1 ≠ push := by
  have fresh : ∀ total prior, (Inbound.start state key order total prior process).1 ≠ push := by
    intro total prior same
    have count : (startOver state key prior).pushCount = state.pushCount := by
      cases prior <;> rfl
    have new : (Inbound.start state key order total prior process).1 =
        (startOver state key prior).pushCount := rfl
    have known := retired.known
    omega
  unfold pushFor
  split
  · rename_i current found
    have other : current ≠ push := by
      rintro rfl
      exact retired.unregistered key found
    split_ifs
    · refine ⟨retired.start key order _ _ process ?_, fresh _ _⟩
      rintro target ⟨⟩
      exact other
    · exact ⟨retired, other⟩
  · have started := retired.start key order ((place.map Prod.snd).getD 0) none process (by simp)
    dsimp only
    refine ⟨?_, fresh _ _⟩
    split_ifs
    · exact started
    · apply started.update_push
      exact fun same => absurd same (fresh _ _)

theorem Retired.batch (peer : Peer) (name : Room)
    (frame : PushFrame) (process : Proc) : Retired push (batch state peer name frame process) := by
  obtain ⟨opened, other⟩ :=
    retired.push_for (peer, name) frame.pushOrder frame.place process
  have queued : Retired push (Inbound.enqueue
      (answered (arm (updatePush (pushFor state (peer, name) frame.pushOrder frame.place process).2
        (pushFor state (peer, name) frame.pushOrder frame.place process).1
        (takeFrame frame.pushOrder frame.place))
        (pushFor state (peer, name) frame.pushOrder frame.place process).1) peer name none)
      (pushFor state (peer, name) frame.pushOrder frame.place process).1
      (.batch frame.pushOrder process)) := by
    apply Retired.enqueue
    · apply Retired.hold _ (hold_answered _ peer name none)
      apply Retired.update_push
      · apply opened.update_push
        exact fun same => absurd same other
      · exact fun same => absurd same other
    · exact fun same => absurd same other
  unfold Inbound.batch
  dsimp only
  split_ifs
  · exact queued.finish _
  · exact queued

theorem Retired.step {event : Event Proc}
    (stepped : step state event = some after) : Retired push after := by
  cases event with
  | expect peer name =>
    cases stepped
    exact retired.hold (hold_expect state peer name)
  | answered peer name nonce =>
    cases stepped
    exact retired.hold (hold_answered state peer name nonce)
  | batch peer name frame process =>
    cases stepped
    exact retired.batch peer name frame process
  | complete peer name =>
    cases stepped
    unfold complete
    split
    · exact retired.hold (hold_answered _ peer name none)
    · apply Retired.hold _ (hold_answered _ peer name none)
      split_ifs
      · exact retired.finish _
      · apply retired.update_push
        exact fun _ => ⟨id, id, rfl, id, rfl, rfl⟩
  | reset =>
    cases stepped
    apply retired.of_quiet (quiet_reset state)
    intro ended
    simp only [reset, Inbound.note]
    split_ifs
    · rfl
    · exact ended
  | expectTimer wait =>
    simp only [Inbound.step] at stepped
    split_ifs at stepped
    cases stepped
    exact retired.hold (hold_expect_timer state wait)
  | stallTimer target =>
    simp only [Inbound.step] at stepped
    split_ifs at stepped
    cases stepped
    apply Retired.enqueue
    · apply Retired.unregister
      apply retired.update_push
      exact fun _ => ⟨id, id, rfl, id, rfl, rfl⟩
    · exact fun _ => rfl
  | startJob job =>
    simp only [Inbound.step] at stepped
    split_ifs at stepped with start
    cases stepped
    simp only [ready, Bool.and_eq_true, decide_eq_true_eq] at start
    exact retired.start_job job start.1.2
  | processed job result =>
    simp only [Inbound.step] at stepped
    split_ifs at stepped with processing
    cases stepped
    exact retired.processed job processing result
  | committed job ok =>
    simp only [Inbound.step] at stepped
    split at stepped
    · rename_i rest stage
      cases stepped
      exact retired.committed job stage ok
    · cases stepped
  | released job =>
    simp only [Inbound.step] at stepped
    split_ifs at stepped
    cases stepped
    exact (retired.settle_done _).set_over job (Or.inl rfl)

end

end Keeping

/-- A reset finds no job that could still claim, and every push that is not over
still registered. -/
def NothingPending (state : State Proc) : Event Proc → Prop
  | .reset => (∀ job, mayClaim state job = false) ∧ AllRegistered state
  | _ => True

/-- After a reset nothing was issued on behalf of a push opened before it. -/
def SessionsApart (log : List (Call Proc)) : Prop :=
  ∀ newer older, log = newer ++ .reset :: older →
    ∀ push origin opener, .opened push origin opener ∈ older →
      ∀ call ∈ newer, ¬OnBehalf push call

structure Isolated (state : State Proc) : Prop where
  enrolled : Enrolled state
  retired : ∀ newer older, state.log = newer ++ .reset :: older →
    ∀ push origin opener, .opened push origin opener ∈ older → Retired push state
  apart : SessionsApart state.log

section Isolation

variable {state after : State Proc}

theorem isolated_init : Isolated (State.init Proc) where
  enrolled := enrolled_init
  retired := by
    intro newer older split
    simp [State.init] at split
  apart := by
    intro newer older split
    simp [State.init] at split

theorem reset_retires (pending : NothingPending state .reset) {push : Nat}
    (known : push < state.pushCount) : Retired push (reset state) where
  known := known
  ended := reset_ends pending.2 known
  unregistered := by
    intro key found
    simp [reset, note] at found
  jobs := by
    intro job _
    apply may_claim_fades _ _ (pending.1 job)
    · rfl
    · apply Fading.of_core ((quiet_reset state).core _)
      intro ended
      simp only [reset, note]
      split_ifs
      · rfl
      · exact ended

theorem Retired.not_caused {push : Nat} (retired : Retired push state) {event : Event Proc}
    {call : Call Proc} (caused : Caused state event call) : ¬OnBehalf push call := by
  intro behalf
  cases call with
  | commit other name sender lamport =>
    cases behalf
    obtain ⟨job, -, owner, may⟩ := caused
    rw [retired.jobs job owner] at may
    cases may
  | owed other name short =>
    cases behalf
    obtain ⟨job, -, -, alive⟩ := caused
    rw [retired.ended] at alive
    cases alive
  | release cause name =>
    cases cause with
    | none => exact behalf
    | some other =>
      cases behalf
      obtain ⟨job, -, -, alive⟩ := caused
      rw [retired.ended] at alive
      cases alive
  | _ => exact behalf

theorem reset_split {extra log newer older : List (Call Proc)}
    (split : extra ++ log = newer ++ .reset :: older) :
    (∃ middle, newer = extra ++ middle ∧ log = middle ++ .reset :: older) ∨
      ∃ middle, extra = newer ++ .reset :: middle ∧ older = middle ++ log := by
  rcases append_eq_append_iff.mp split with ⟨middle, left, right⟩ | ⟨middle, left, right⟩
  · exact Or.inl ⟨middle, left, right⟩
  · cases middle with
    | nil =>
      refine Or.inl ⟨[], ?_, ?_⟩
      · simpa using left.symm
      · simpa using right.symm
    | cons call rest =>
      rw [cons_append, List.cons.injEq] at right
      obtain ⟨rfl, tail⟩ := right
      exact Or.inr ⟨rest, left, tail⟩

theorem Isolated.step (isolated : Isolated state) {event : Event Proc}
    (pending : NothingPending state event) (stepped : step state event = some after) :
    Isolated after := by
  obtain ⟨extra, extended, caused⟩ := step_caused stepped
  have later : ∀ newer older, after.log = newer ++ .reset :: older →
      ∀ push origin opener, .opened push origin opener ∈ older →
        Retired push after ∧ ∀ call ∈ newer, ¬OnBehalf push call := by
    intro newer older split push origin opener opened
    rw [extended] at split
    rcases reset_split split with ⟨middle, rfl, old⟩ | ⟨middle, new, rfl⟩
    · have retired := isolated.retired middle older old push origin opener opened
      refine ⟨retired.step stepped, ?_⟩
      intro call mem
      rcases mem_append.mp mem with fresh | earlier
      · exact retired.not_caused (caused call fresh)
      · exact isolated.apart middle older old push origin opener opened call earlier
    · have isReset : event = .reset := caused .reset (by simp [new])
      subst isReset
      cases stepped
      have single : extra = [.reset] := append_cancel_right extended.symm
      rw [single] at new
      have alone : newer = [] ∧ middle = [] := by
        cases newer with
        | nil => simpa using new.symm
        | cons call rest => simp at new
      obtain ⟨rfl, rfl⟩ := alone
      refine ⟨reset_retires pending (isolated.enrolled.opened push origin opener opened), ?_⟩
      simp
  refine ⟨isolated.enrolled.step stepped, ?_, ?_⟩
  · intro newer older split push origin opener opened
    exact (later newer older split push origin opener opened).1
  · intro newer older split push origin opener opened
    exact (later newer older split push origin opener opened).2

/-- Along every schedule whose resets find nothing pending, sessions stay apart. -/
theorem settled_resets_keep_sessions_apart (events : List (Event Proc)) (final : State Proc)
    (pending : Meets step NothingPending (State.init Proc) events)
    (ran : run step (State.init Proc) events = some final) : SessionsApart final.log := by
  have isolated : Isolated final :=
    run_keeps (fun _ _ _ isolated pending stepped => isolated.step pending stepped)
      isolated_init pending ran
  exact isolated.apart

end Isolation

section Schedules

def storedRow (lamport : Int) : BatchOutcome where
  held := [⟨"alice", lamport⟩]
  floors := .empty

def ascOf (index total : Int) : PushFrame := ⟨.int index, .int total, .text "asc"⟩

def settledRun : List (Event Unit) :=
  [.batch "bob" "den" (ascOf 0 2) (), .startJob 0, .processed 0 (some (storedRow 1)),
    .committed 0 true, .reset, .batch "bob" "den" (ascOf 0 1) (), .startJob 1,
    .processed 1 (some (storedRow 2))]

theorem settled_run_apart :
    ∃ final, run step (State.init Unit) settledRun = some final ∧
      final.log.take 1 = [.commit 1 "den" "alice" 2] ∧ SessionsApart final.log := by
  refine ⟨_, rfl, rfl, ?_⟩
  refine settled_resets_keep_sessions_apart settledRun _ ?_ rfl
  refine Meets.cons trivial rfl (Meets.cons trivial rfl (Meets.cons trivial rfl
    (Meets.cons trivial rfl (Meets.cons ⟨?_, ?_⟩ rfl (Meets.cons trivial rfl
    (Meets.cons trivial rfl (Meets.cons trivial rfl trivial)))))))
  · intro job
    match job with
    | 0 | _ + 1 => rfl
  · intro push known _
    match push, known with
    | 0, _ => rfl

def lateBatchRun : List (Event Unit) :=
  [.batch "bob" "den" (ascOf 0 2) (), .startJob 0, .reset, .processed 0 (some (storedRow 1))]

def lateFinishRun : List (Event Unit) :=
  [.batch "bob" "den" (ascOf 0 1) (), .startJob 0, .processed 0 (some ⟨[], .empty⟩), .reset,
    .batch "carol" "den" (ascOf 0 2) (), .stallTimer 1, .startJob 2, .processed 2 none,
    .startJob 3, .startJob 1]

/-- A batch left over from before the reset claims after it, and a push left over
releases the room of the session that follows. -/
theorem reset_leaves_pushes_behind :
    (∃ final, run step (State.init Unit) lateBatchRun = some final ∧
      .commit 0 "den" "alice" 1 ∈ final.log ∧ ¬SessionsApart final.log) ∧
    ∃ final, run step (State.init Unit) lateFinishRun = some final ∧
      .release (some 0) "den" ∈ final.log ∧ ¬SessionsApart final.log := by
  refine ⟨⟨_, rfl, mem_cons_self, ?_⟩, ⟨_, rfl, mem_cons_self, ?_⟩⟩
  · intro apart
    apply apart [.commit 0 "den" "alice" 1, .outcome 0 () (storedRow 1)]
      [.answered "bob" "den" none, .opened 0 ("bob", "den") (), .hold "den"] rfl 0 ("bob", "den") ()
      (by simp) (.commit 0 "den" "alice" 1) (by simp)
    rfl
  · intro apart
    apply apart [.release (some 0) "den", .owed 0 "den" false, .ended 0 "den" true,
        .owed 1 "den" true, .ended 1 "den" false, .answered "carol" "den" none,
        .opened 1 ("carol", "den") (), .hold "den"]
      [.outcome 0 () ⟨[], .empty⟩, .answered "bob" "den" none, .opened 0 ("bob", "den") (),
        .hold "den"] rfl 0 ("bob", "den") () (by simp) (.release (some 0) "den") (by simp)
    rfl

end Schedules

end AwfulChat.Inbound
