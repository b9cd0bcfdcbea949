import AwfulChat.Inbound.Quiet

/-!
# Promise chains run in order

Frames of one push run one at a time, in arrival order: `p.chain` always ends
in the latest job of the push, and a job starts only once the one it was
chained behind is over. A restarted push starts behind the jobs of the push it
replaces, and the replaced push may still gain an `end` of its own beside it,
so the chains of a peer fork; within one push they stay a line.
-/

namespace AwfulChat.Inbound

open Library SyncPush Function

set_option autoImplicit false

variable {Proc : Type}

structure Chained (state : State Proc) : Prop where
  absent : ∀ job, state.jobCount ≤ job → (state.job job).stage = .done
  owner : ∀ job < state.jobCount, (state.job job).push < state.pushCount
  tail : ∀ push < state.pushCount, ∀ last, (state.push push).chain = some last →
    last < state.jobCount
  last : ∀ job < state.jobCount, ∃ last, (state.push (state.job job).push).chain = some last ∧
    job ≤ last ∧ (state.job last).push = (state.job job).push
  linked : ∀ job < state.jobCount, ∀ earlier < job,
    (state.job earlier).push = (state.job job).push →
      ∃ link, (state.job job).after = some link ∧ earlier ≤ link ∧ link < job ∧
        (state.job link).push = (state.job job).push
  inOrder : ∀ job, (state.job job).stage ≠ .queued → ∀ earlier < job,
    (state.job earlier).push = (state.job job).push → job < state.jobCount →
      (state.job earlier).stage = .done

/-- Awaiting something: started and not over. -/
def Active (stage : Stage) : Prop := stage ≠ .queued ∧ stage ≠ .done

variable {state : State Proc} {before after : State Proc} {job : Nat}

theorem Chained.bound_of_active (chained : Chained state)
    (active : (state.job job).stage ≠ .done) : job < state.jobCount := by
  by_contra outside
  exact active (chained.absent job (Nat.le_of_not_lt outside))

theorem Chained.active_unique (chained : Chained state) {left right : Nat}
    (leftActive : Active (state.job left).stage) (rightActive : Active (state.job right).stage)
    (same : (state.job left).push = (state.job right).push) : left = right := by
  have leftBound := chained.bound_of_active leftActive.2
  have rightBound := chained.bound_of_active rightActive.2
  rcases Nat.lt_trichotomy left right with less | equal | greater
  · exact absurd (chained.inOrder right rightActive.1 left less same rightBound) leftActive.2
  · exact equal
  · exact absurd (chained.inOrder left leftActive.1 right greater same.symm leftBound) rightActive.2

theorem Chained.earlier_done (chained : Chained state) (start : ready state job = true)
    {earlier : Nat} (before : earlier < job)
    (same : (state.job earlier).push = (state.job job).push) :
    (state.job earlier).stage = .done := by
  simp only [ready, Bool.and_eq_true, decide_eq_true_eq] at start
  obtain ⟨⟨bound, -⟩, free⟩ := start
  obtain ⟨link, linked, earlierLink, linkBefore, linkPush⟩ :=
    chained.linked job bound earlier before same
  rw [linked] at free
  have linkDone : (state.job link).stage = .done := by simpa using free
  rcases Nat.eq_or_lt_of_le earlierLink with equal | less
  · rw [equal]
    exact linkDone
  · refine chained.inOrder link (by rw [linkDone]; decide) earlier less ?_ (by omega)
    rw [same, linkPush]

theorem chained_init : Chained (State.init Proc) where
  absent := fun _ _ => rfl
  owner := fun job bound => absurd bound (Nat.not_lt_zero job)
  tail := fun push bound => absurd bound (Nat.not_lt_zero push)
  last := fun job bound => absurd bound (Nat.not_lt_zero job)
  linked := fun job bound => absurd bound (Nat.not_lt_zero job)
  inOrder := fun job _ _ _ _ bound => absurd bound (Nat.not_lt_zero job)

theorem Chained.of_same (chained : Chained before) (job : after.job = before.job)
    (jobCount : after.jobCount = before.jobCount) (pushCount : after.pushCount = before.pushCount)
    (chain : ∀ push, (after.push push).chain = (before.push push).chain) : Chained after where
  absent := by
    rw [job, jobCount]
    exact chained.absent
  owner := by
    rw [job, jobCount, pushCount]
    exact chained.owner
  tail := by
    intro push bound last ends
    rw [pushCount] at bound
    rw [chain] at ends
    rw [jobCount]
    exact chained.tail push bound last ends
  last := by
    intro index bound
    rw [jobCount] at bound
    obtain ⟨last, ends, later, same⟩ := chained.last index bound
    exact ⟨last, by rw [chain, job]; exact ends, later, by rw [job]; exact same⟩
  linked := by
    rw [job, jobCount]
    exact chained.linked
  inOrder := by
    rw [job, jobCount]
    exact chained.inOrder

theorem Chained.quiet (chained : Chained before) (quiet : Quiet before after) : Chained after :=
  chained.of_same quiet.job quiet.jobCount quiet.pushCount quiet.chain

theorem Chained.update_push (chained : Chained state) (push : Nat) (change : Push → Push)
    (kept : (change (state.push push)).chain = (state.push push).chain) :
    Chained (updatePush state push change) := by
  refine chained.of_same rfl rfl rfl ?_
  intro other
  by_cases hit : other = push
  · subst other
    simpa [updatePush] using kept
  · simp [updatePush, hit]

theorem Chained.note (chained : Chained state) (call : Call Proc) :
    Chained (note state call) :=
  chained.of_same rfl rfl rfl fun _ => rfl

@[simp] theorem set_stage_push (state : State Proc) (job other : Nat) (stage : Stage) :
    ((setStage state job stage).job other).push = (state.job other).push := by
  by_cases hit : other = job <;> simp [setStage, hit]

@[simp] theorem set_stage_task (state : State Proc) (job other : Nat) (stage : Stage) :
    ((setStage state job stage).job other).task = (state.job other).task := by
  by_cases hit : other = job <;> simp [setStage, hit]

@[simp] theorem set_stage_after (state : State Proc) (job other : Nat) (stage : Stage) :
    ((setStage state job stage).job other).after = (state.job other).after := by
  by_cases hit : other = job <;> simp [setStage, hit]

theorem set_stage_stage (state : State Proc) (job other : Nat) (stage : Stage) :
    ((setStage state job stage).job other).stage =
      if other = job then stage else (state.job other).stage := by
  by_cases hit : other = job <;> simp [setStage, hit]

/-- The job may move on: it is not over, and everything its push queued before
it is. -/
structure Turn (state : State Proc) (job : Nat) : Prop where
  pending : (state.job job).stage ≠ .done
  first : ∀ earlier < job, (state.job earlier).push = (state.job job).push →
    (state.job earlier).stage = .done

theorem Turn.of_same (turn : Turn before job) (same : after.job = before.job) : Turn after job := by
  refine ⟨?_, ?_⟩
  · rw [same]
    exact turn.pending
  · rw [same]
    exact turn.first

theorem Chained.turn_of_active (chained : Chained state)
    (active : Active (state.job job).stage) : Turn state job where
  pending := active.2
  first := fun earlier before same =>
    chained.inOrder job active.1 earlier before same (chained.bound_of_active active.2)

theorem queued_of_ready (start : ready state job = true) :
    (state.job job).stage = .queued := by
  simp only [ready, Bool.and_eq_true, decide_eq_true_eq] at start
  exact start.1.2

theorem Chained.turn_of_ready (chained : Chained state)
    (start : ready state job = true) : Turn state job where
  pending := by
    rw [queued_of_ready start]
    decide
  first := fun _ before same => chained.earlier_done start before same

theorem Chained.set_stage (chained : Chained state) (turn : Turn state job)
    (stage : Stage) : Chained (setStage state job stage) where
  absent := by
    intro other outside
    have different : other ≠ job := by
      rintro rfl
      exact turn.pending (chained.absent other outside)
    rw [set_stage_stage, if_neg different]
    exact chained.absent other outside
  owner := by
    intro other bound
    rw [set_stage_push]
    exact chained.owner other bound
  tail := chained.tail
  last := by
    intro other bound
    obtain ⟨last, ends, later, same⟩ := chained.last other bound
    refine ⟨last, ?_, later, ?_⟩
    · rw [set_stage_push]
      exact ends
    · rw [set_stage_push, set_stage_push]
      exact same
  linked := by
    intro other bound earlier before same
    rw [set_stage_push, set_stage_push] at same
    obtain ⟨link, linked, earlierLink, linkBefore, linkPush⟩ :=
      chained.linked other bound earlier before same
    refine ⟨link, ?_, earlierLink, linkBefore, ?_⟩
    · rw [set_stage_after]
      exact linked
    · rw [set_stage_push, set_stage_push]
      exact linkPush
  inOrder := by
    intro other started earlier before same bound
    rw [set_stage_push, set_stage_push] at same
    rw [set_stage_stage] at started ⊢
    by_cases hit : other = job
    · subst other
      rw [if_neg (Nat.ne_of_lt before)]
      exact turn.first earlier before same
    · rw [if_neg hit] at started
      have done := chained.inOrder other started earlier before same bound
      by_cases early : earlier = job
      · subst earlier
        exact absurd done turn.pending
      · rw [if_neg early]
        exact done

theorem enqueue_job (state : State Proc) (push : Nat) (task : Task Proc) (job : Nat) :
    (enqueue state push task).job job =
      if job = state.jobCount then
        { push := push, task := task, after := (state.push push).chain, stage := .queued }
      else state.job job := by
  by_cases hit : job = state.jobCount <;> simp [enqueue, updatePush, hit]

theorem enqueue_job_old (state : State Proc) (push : Nat) (task : Task Proc)
    (old : job < state.jobCount) : (enqueue state push task).job job = state.job job := by
  rw [enqueue_job, if_neg (Nat.ne_of_lt old)]

theorem enqueue_job_new (state : State Proc) (push : Nat) (task : Task Proc) :
    (enqueue state push task).job state.jobCount =
      { push := push, task := task, after := (state.push push).chain, stage := .queued } := by
  rw [enqueue_job, if_pos rfl]

theorem enqueue_push (state : State Proc) (push : Nat) (task : Task Proc) (other : Nat) :
    (enqueue state push task).push other =
      if other = push then { state.push push with chain := some state.jobCount }
      else state.push other := by
  by_cases hit : other = push <;> simp [enqueue, updatePush, hit]

@[simp] theorem enqueue_job_count (state : State Proc) (push : Nat) (task : Task Proc) :
    (enqueue state push task).jobCount = state.jobCount + 1 := rfl

@[simp] theorem enqueue_push_count (state : State Proc) (push : Nat) (task : Task Proc) :
    (enqueue state push task).pushCount = state.pushCount := rfl

theorem Chained.enqueue (chained : Chained state) {push : Nat} (known : push < state.pushCount)
    (task : Task Proc) :
    Chained (enqueue state push task) where
  absent := by
    intro job outside
    rw [enqueue_job_count] at outside
    rw [enqueue_job, if_neg (Nat.ne_of_gt outside)]
    exact chained.absent job (Nat.le_of_lt outside)
  owner := by
    intro job bound
    rw [enqueue_job_count] at bound
    rcases Nat.lt_succ_iff_lt_or_eq.mp bound with old | new
    · rw [enqueue_job_old state push task old]
      exact chained.owner job old
    · subst new
      rw [enqueue_job_new]
      exact known
  tail := by
    intro other bound last ends
    rw [enqueue_job_count]
    rw [enqueue_push] at ends
    split_ifs at ends with hit
    · cases ends
      omega
    · have old := chained.tail other bound last ends
      omega
  last := by
    intro job bound
    rw [enqueue_job_count] at bound
    rcases Nat.lt_succ_iff_lt_or_eq.mp bound with old | new
    · rw [enqueue_job_old state push task old, enqueue_push]
      by_cases hit : (state.job job).push = push
      · refine ⟨state.jobCount, by rw [if_pos hit], by omega, ?_⟩
        rw [enqueue_job_new]
        exact hit.symm
      · obtain ⟨last, ends, later, same⟩ := chained.last job old
        have lastOld := chained.tail _ (chained.owner job old) last ends
        refine ⟨last, by rw [if_neg hit]; exact ends, later, ?_⟩
        rw [enqueue_job_old state push task lastOld]
        exact same
    · subst new
      rw [enqueue_job_new, enqueue_push, if_pos rfl]
      exact ⟨state.jobCount, rfl, Nat.le_refl _, by rw [enqueue_job_new]⟩
  linked := by
    intro job bound earlier before same
    rw [enqueue_job_count] at bound
    rcases Nat.lt_succ_iff_lt_or_eq.mp bound with old | new
    · rw [enqueue_job_old state push task old,
        enqueue_job_old state push task (by omega)] at same
      obtain ⟨link, linked, earlierLink, linkBefore, linkPush⟩ :=
        chained.linked job old earlier before same
      rw [enqueue_job_old state push task old]
      refine ⟨link, linked, earlierLink, linkBefore, ?_⟩
      rw [enqueue_job_old state push task (by omega)]
      exact linkPush
    · subst new
      rw [enqueue_job_new, enqueue_job_old state push task before] at same
      rw [enqueue_job_new]
      obtain ⟨last, ends, later, lastPush⟩ := chained.last earlier before
      rw [same] at ends lastPush
      have lastOld := chained.tail push known last ends
      refine ⟨last, ends, later, lastOld, ?_⟩
      rw [enqueue_job_old state push task lastOld]
      exact lastPush
  inOrder := by
    intro job started earlier before same bound
    rw [enqueue_job_count] at bound
    rcases Nat.lt_succ_iff_lt_or_eq.mp bound with old | new
    · rw [enqueue_job_old state push task old] at started same
      rw [enqueue_job_old state push task (by omega)] at same ⊢
      exact chained.inOrder job started earlier before same old
    · subst new
      rw [enqueue_job_new] at started
      exact absurd rfl started

theorem Chained.add_push (chained : Chained before) (record : Push) (job : after.job = before.job)
    (jobCount : after.jobCount = before.jobCount)
    (pushCount : after.pushCount = before.pushCount + 1)
    (push : after.push = Function.update before.push before.pushCount record)
    (ends : ∀ last, record.chain = some last → last < before.jobCount) : Chained after where
  absent := by
    rw [job, jobCount]
    exact chained.absent
  owner := by
    intro index bound
    rw [jobCount] at bound
    rw [job, pushCount]
    have old := chained.owner index bound
    omega
  tail := by
    intro other bound last tail
    rw [pushCount] at bound
    rw [jobCount]
    rw [push] at tail
    by_cases hit : other = before.pushCount
    · subst other
      rw [update_self] at tail
      exact ends last tail
    · rw [update_of_ne hit] at tail
      exact chained.tail other (by omega) last tail
  last := by
    intro index bound
    rw [jobCount] at bound
    rw [job, push]
    have owner := chained.owner index bound
    rw [update_of_ne (by omega)]
    exact chained.last index bound
  linked := by
    rw [job, jobCount]
    exact chained.linked
  inOrder := by
    rw [job, jobCount]
    exact chained.inOrder

end AwfulChat.Inbound
