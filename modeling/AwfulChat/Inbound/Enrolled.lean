import AwfulChat.Inbound.Calls
import AwfulChat.Inbound.Chains

/-!
# Indices that are in use

Pushes and jobs are numbered as they are made. Along every schedule a job
belongs to a push that was made, a registered push is found under its own key,
and the pushes in the history are pushes that were made.
-/

namespace AwfulChat.Inbound

open Library SyncPush Library.OrderedMap Function

set_option autoImplicit false

variable {Proc : Type}

structure Enrolled (state : State Proc) : Prop where
  absent : ∀ job, state.jobCount ≤ job → (state.job job).stage = .done
  owner : ∀ job < state.jobCount, (state.job job).push < state.pushCount
  registered : ∀ key push, state.pushes.get key = some push →
    push < state.pushCount ∧ (state.push push).key = key
  rooms : ∀ push < state.pushCount, (state.push push).room = (state.push push).key.2
  opened : ∀ push origin opener, .opened push origin opener ∈ state.log → push < state.pushCount

def AllRegistered (state : State Proc) : Prop :=
  ∀ push < state.pushCount, (state.push push).ended = false →
    state.pushes.get (state.push push).key = some push

theorem reset_ends {state : State Proc} (registered : AllRegistered state) {push : Nat}
    (known : push < state.pushCount) : ((reset state).push push).ended = true := by
  simp only [reset, note]
  split_ifs with listed
  · rfl
  · by_contra alive
    have found := registered push known (by simpa using alive)
    exact listed (mem_values_iff.mpr ⟨_, found⟩)

theorem enrolled_init : Enrolled (State.init Proc) where
  absent := fun _ _ => rfl
  owner := fun job bound => absurd bound (Nat.not_lt_zero job)
  registered := by
    intro key push found
    simp [State.init] at found
  rooms := fun push bound => absurd bound (Nat.not_lt_zero push)
  opened := by
    intro push origin opener mem
    simp [State.init] at mem

section Keeping

variable {state before after : State Proc}

theorem Enrolled.owner_of_active (enrolled : Enrolled state) {job : Nat}
    (active : (state.job job).stage ≠ .done) : (state.job job).push < state.pushCount := by
  apply enrolled.owner
  by_contra outside
  exact active (enrolled.absent job (Nat.le_of_not_lt outside))

theorem Enrolled.carry (enrolled : Enrolled before) (jobCount : after.jobCount = before.jobCount)
    (pushCount : after.pushCount = before.pushCount)
    (absent : ∀ job, before.jobCount ≤ job → (after.job job).stage = .done)
    (owner : ∀ job, (after.job job).push = (before.job job).push)
    (keys : ∀ push, (after.push push).key = (before.push push).key)
    (rooms : ∀ push, (after.push push).room = (before.push push).room)
    (registered : ∀ key push, after.pushes.get key = some push →
      before.pushes.get key = some push)
    (opened : ∀ push origin opener, .opened push origin opener ∈ after.log →
      .opened push origin opener ∈ before.log) : Enrolled after where
  absent := by
    rw [jobCount]
    exact absent
  owner := by
    intro job bound
    rw [jobCount] at bound
    rw [owner, pushCount]
    exact enrolled.owner job bound
  registered := by
    intro key push found
    rw [pushCount, keys]
    exact enrolled.registered key push (registered key push found)
  rooms := by
    intro push bound
    rw [pushCount] at bound
    rw [keys, rooms]
    exact enrolled.rooms push bound
  opened := by
    intro push origin opener mem
    rw [pushCount]
    exact enrolled.opened push origin opener (opened push origin opener mem)

theorem Enrolled.quiet (enrolled : Enrolled before) (quiet : Quiet before after) :
    Enrolled after := by
  refine enrolled.carry quiet.jobCount quiet.pushCount ?_ ?_ quiet.key quiet.room
    quiet.registered ?_
  · rw [quiet.job]
    exact enrolled.absent
  · intro job
    rw [quiet.job]
  · intro push origin opener mem
    exact (quiet.log_mem (by simp [Minor])).mp mem

section

variable (enrolled : Enrolled state)
include enrolled

theorem Enrolled.note {call : Call Proc}
    (late : ∀ push origin opener, call ≠ .opened push origin opener) :
    Enrolled (note state call) := by
  refine enrolled.carry rfl rfl enrolled.absent (fun _ => rfl) (fun _ => rfl) (fun _ => rfl)
    (fun _ _ found => found) ?_
  intro push origin opener mem
  rcases List.mem_cons.mp mem with same | old
  · exact absurd same.symm (late push origin opener)
  · exact old

theorem Enrolled.update_push (target : Nat) (change : Push → Push)
    (key : (change (state.push target)).key = (state.push target).key)
    (room : (change (state.push target)).room = (state.push target).room) :
    Enrolled (updatePush state target change) := by
  refine enrolled.carry rfl rfl enrolled.absent (fun _ => rfl) ?_ ?_ (fun _ _ found => found)
    (fun _ _ _ mem => mem)
  · intro push
    by_cases hit : push = target
    · subst hit
      simpa [updatePush] using key
    · simp [updatePush, hit]
  · intro push
    by_cases hit : push = target
    · subst hit
      simpa [updatePush] using room
    · simp [updatePush, hit]

theorem Enrolled.set_stage {job : Nat} (stage : Stage)
    (bound : job < state.jobCount) : Enrolled (setStage state job stage) := by
  refine enrolled.carry rfl rfl ?_ (fun other => set_stage_push state job other stage)
    (fun _ => rfl) (fun _ => rfl) (fun _ _ found => found) (fun _ _ _ mem => mem)
  intro other outside
  rw [set_stage_stage, if_neg (by omega)]
  exact enrolled.absent other outside

theorem Enrolled.enqueue {push : Nat} (known : push < state.pushCount)
    (task : Task Proc) : Enrolled (enqueue state push task) where
  absent := by
    intro job outside
    rw [enqueue_job_count] at outside
    rw [enqueue_job, if_neg (by omega)]
    exact enrolled.absent job (by omega)
  owner := by
    intro job bound
    rw [enqueue_job_count] at bound
    rw [enqueue_job]
    split_ifs with new
    · exact known
    · exact enrolled.owner job (by omega)
  registered := by
    intro key other found
    have old := enrolled.registered key other found
    rw [enqueue_push]
    split_ifs with hit
    · subst hit
      exact old
    · exact old
  rooms := by
    intro other bound
    rw [enqueue_push]
    split_ifs with hit
    · subst hit
      exact enrolled.rooms other bound
    · exact enrolled.rooms other bound
  opened := enrolled.opened

theorem Enrolled.register (key : Key) (order : Option PushOrder)
    (total : Int) (prior : Option Nat) : Enrolled (register state key order total prior) where
  absent := enrolled.absent
  owner := by
    intro job bound
    exact Nat.lt_succ_of_lt (enrolled.owner job bound)
  registered := by
    intro other push found
    simp only [Inbound.register, get_set] at found ⊢
    split_ifs at found with hit
    · cases found
      subst hit
      exact ⟨Nat.lt_succ_self _, by simp [newPush]⟩
    · obtain ⟨known, sameKey⟩ := enrolled.registered other push found
      rw [update_of_ne (Nat.ne_of_lt known)]
      exact ⟨Nat.lt_succ_of_lt known, sameKey⟩
  rooms := by
    intro push bound
    simp only [Inbound.register] at bound ⊢
    by_cases hit : push = state.pushCount
    · subst hit
      simp [newPush]
    · rw [update_of_ne hit]
      exact enrolled.rooms push (by omega)
  opened := by
    intro push origin opener mem
    exact Nat.lt_succ_of_lt (enrolled.opened push origin opener mem)

theorem Enrolled.end_push {job : Nat} (bound : job < state.jobCount)
    (push : Nat) (completed : Bool) : Enrolled (endPush state job push completed) := by
  obtain ⟨past, stage, quiet, ends, -⟩ := end_push_quiet state job push completed
  rw [ends]
  apply (enrolled.quiet quiet).set_stage
  rw [quiet.jobCount]
  exact bound

theorem Enrolled.commit_next {job : Nat} (bound : job < state.jobCount)
    (push : Nat) (claims : List (Sender × Int)) :
    Enrolled (commitNext state job push claims) := by
  cases claims with
  | cons claim rest =>
    obtain ⟨sender, lamport⟩ := claim
    refine Enrolled.set_stage (enrolled.note ?_) _ bound
    nofun
  | nil =>
    simp only [commitNext]
    split
    · exact enrolled.end_push bound push true
    · exact enrolled.set_stage _ bound

theorem Enrolled.start_job {job : Nat} (bound : job < state.jobCount) :
    Enrolled (startJob state job) := by
  unfold startJob
  dsimp only
  split
  · exact enrolled.set_stage _ bound
  · exact enrolled.end_push bound _ false
  · split_ifs
    · exact enrolled.commit_next bound _ _
    · exact enrolled.end_push bound _ false

theorem Enrolled.account {job : Nat} (bound : job < state.jobCount)
    (push : Nat) (order : Option PushOrder) (outcome : BatchOutcome) :
    Enrolled (account state job push order outcome) := by
  unfold Inbound.account
  dsimp only
  split_ifs
  · exact enrolled.set_stage _ bound
  · exact (enrolled.update_push push _ rfl rfl).set_stage _ bound
  · exact (enrolled.update_push push _ rfl rfl).set_stage _ bound
  · exact (enrolled.update_push push _ rfl rfl).commit_next bound push _
  · exact ((enrolled.update_push push _ rfl rfl).update_push push _ rfl rfl).set_stage _ bound

theorem Enrolled.finish {push : Nat} (known : push < state.pushCount) :
    Enrolled (finish state push) := by
  unfold Inbound.finish
  split_ifs
  · dsimp only
    have closed := (enrolled.update_push push (fun record => { record with timer := false })
      rfl rfl).quiet (quiet_unregister _ push)
    refine Enrolled.enqueue (closed.quiet ?_) ?_ .finish
    · exact quiet_of_same rfl rfl rfl rfl rfl rfl
    · have same := (quiet_unregister (updatePush state push
        fun record => { record with timer := false }) push).pushCount
      exact lt_of_lt_of_eq known same.symm
  · exact enrolled

theorem Enrolled.start (key : Key) (order : Option PushOrder) (total : Int) (prior : Option Nat)
    (process : Proc) (known : ∀ push, prior = some push → push < state.pushCount) :
    Enrolled (start state key order total prior process).2 ∧
      (start state key order total prior process).1 <
        (start state key order total prior process).2.pushCount := by
  have left : Enrolled (startOver state key prior) := by
    cases prior with
    | none => exact enrolled
    | some push =>
      have dropped : Enrolled { state with pushes := state.pushes.delete key } := by
        refine enrolled.carry rfl rfl enrolled.absent (fun _ => rfl) (fun _ => rfl)
          (fun _ => rfl) ?_ (fun _ _ _ mem => mem)
        intro other target found
        simp only [get_delete] at found
        split_ifs at found
        exact found
      exact dropped.enqueue (known push rfl) .endShort
  have held := (left.register key order total prior).quiet (hold_room _ key.2).quiet
  have count := (hold_room (Inbound.register (startOver state key prior) key order total prior)
    key.2).pushCount
  have new : (startOver state key prior).pushCount <
      (room (Inbound.register (startOver state key prior) key order total prior)
        key.2).2.pushCount := by
    rw [count]
    exact Nat.lt_succ_self _
  refine ⟨?_, new⟩
  have recorded := held.quiet (hold_update_record _
    (room (Inbound.register (startOver state key prior) key order total prior) key.2).1
    fun current => { current with
      openPushes := current.openPushes ++ [(startOver state key prior).pushCount] }).quiet
  refine ⟨recorded.absent, recorded.owner, recorded.registered, recorded.rooms, ?_⟩
  intro push origin opener mem
  rcases List.mem_cons.mp mem with same | old
  · cases same
    exact new
  · exact recorded.opened push origin opener old

theorem Enrolled.push_for (key : Key) (order : Option PushOrder)
    (place : Option (Int × Int)) (process : Proc) :
    Enrolled (pushFor state key order place process).2 ∧
      (pushFor state key order place process).1 <
        (pushFor state key order place process).2.pushCount := by
  unfold pushFor
  split
  · rename_i current found
    have known := (enrolled.registered key current found).1
    split_ifs
    · apply enrolled.start
      rintro push ⟨⟩
      exact known
    · exact ⟨enrolled, known⟩
  · obtain ⟨opened, known⟩ :=
      enrolled.start key order ((place.map Prod.snd).getD 0) none process (by simp)
    dsimp only
    split_ifs
    · exact ⟨opened, known⟩
    · exact ⟨opened.update_push _ _ rfl rfl, known⟩

theorem Enrolled.batch (peer : Peer) (name : Room) (frame : PushFrame)
    (process : Proc) : Enrolled (batch state peer name frame process) := by
  obtain ⟨opened, known⟩ := enrolled.push_for (peer, name) frame.pushOrder frame.place process
  have taken := ((opened.update_push
    (pushFor state (peer, name) frame.pushOrder frame.place process).1
    (takeFrame frame.pushOrder frame.place) rfl rfl).quiet (quiet_arm _ _)).quiet
      (hold_answered (arm _ (pushFor state (peer, name) frame.pushOrder frame.place process).1)
        peer name none).quiet
  have count := (hold_answered (arm (updatePush
    (pushFor state (peer, name) frame.pushOrder frame.place process).2
    (pushFor state (peer, name) frame.pushOrder frame.place process).1
    (takeFrame frame.pushOrder frame.place))
    (pushFor state (peer, name) frame.pushOrder frame.place process).1) peer name none).pushCount
  have queued := taken.enqueue (lt_of_lt_of_eq known count.symm) (.batch frame.pushOrder process)
  unfold Inbound.batch
  dsimp only
  split_ifs
  · apply queued.finish
    rw [enqueue_push_count, count]
    exact known
  · exact queued

theorem Enrolled.step {event : Event Proc}
    (stepped : step state event = some after) : Enrolled after := by
  have bound : ∀ job, (state.job job).stage ≠ .done → job < state.jobCount := by
    intro job active
    by_contra outside
    exact active (enrolled.absent job (Nat.le_of_not_lt outside))
  cases event with
  | expect peer name =>
    cases stepped
    exact enrolled.quiet (hold_expect state peer name).quiet
  | answered peer name nonce =>
    cases stepped
    exact enrolled.quiet (hold_answered state peer name nonce).quiet
  | batch peer name frame process =>
    cases stepped
    exact enrolled.batch peer name frame process
  | complete peer name =>
    cases stepped
    unfold complete
    split
    · exact enrolled.quiet (hold_answered _ peer name none).quiet
    · rename_i push found
      apply Enrolled.quiet _ (hold_answered _ peer name none).quiet
      split_ifs
      · exact enrolled.finish (enrolled.registered _ push found).1
      · exact enrolled.quiet (quiet_arm state push)
  | reset =>
    cases stepped
    exact enrolled.quiet (quiet_reset state)
  | expectTimer wait =>
    simp only [Inbound.step] at stepped
    split_ifs at stepped
    cases stepped
    exact enrolled.quiet (hold_expect_timer state wait).quiet
  | stallTimer push =>
    simp only [Inbound.step] at stepped
    split_ifs at stepped with armed
    cases stepped
    have closed := (enrolled.update_push push (fun record => { record with timer := false })
      rfl rfl).quiet (quiet_unregister _ push)
    have count := (quiet_unregister
      (updatePush state push fun record => { record with timer := false }) push).pushCount
    exact closed.enqueue (lt_of_lt_of_eq armed.1 count.symm) _
  | startJob job =>
    simp only [Inbound.step] at stepped
    split_ifs at stepped with start
    cases stepped
    simp only [ready, Bool.and_eq_true, decide_eq_true_eq] at start
    exact enrolled.start_job start.1.1
  | processed job result =>
    simp only [Inbound.step] at stepped
    split_ifs at stepped with processing
    cases stepped
    have inside := bound job (by rw [processing]; simp)
    unfold processed
    dsimp only
    split
    · refine Enrolled.account (enrolled.note ?_) inside _ _ _
      intro _ _ _ same
      cases same
    · exact (enrolled.update_push _ _ rfl rfl).set_stage _ inside
  | committed job ok =>
    simp only [Inbound.step] at stepped
    split at stepped
    · rename_i rest stage
      cases stepped
      have inside := bound job (by rw [stage]; simp)
      unfold committed
      dsimp only
      split_ifs
      · exact enrolled.commit_next inside _ rest
      · split
        · exact enrolled.end_push inside _ false
        · exact (enrolled.update_push _ _ rfl rfl).set_stage _ inside
    · cases stepped
  | released job =>
    simp only [Inbound.step] at stepped
    split_ifs at stepped with releasing
    cases stepped
    have quiet := quiet_settle_done state (state.job job).push
    apply (enrolled.quiet quiet).set_stage
    rw [quiet.jobCount]
    exact bound job (by rw [releasing]; simp)

end

end Keeping

end AwfulChat.Inbound
