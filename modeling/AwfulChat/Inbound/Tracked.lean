import AwfulChat.Inbound.Chains
import AwfulChat.Inbound.Claimable

/-!
# What an inbound push knows when it claims

A peer sends plans: lists of batches, each with its rows and its order marker.
`sent` says which frame of which plan a closure stands for. `Tracked` is the
invariant of one peer and room: a push that is not broken has taken in exactly
the first frames of the plan that opened it, every frame it handled was
reported on, and every claim it still has to make is `Proved`. `Honest` is the
condition on the schedule.
-/

namespace AwfulChat.Inbound

open Library MessageOrder SyncPush List Function

set_option autoImplicit false

class SentRow (T : Type) extends Row T where
  senderId : T → Sender

def heldRow {T : Type} [SentRow T] (row : T) : HeldRow where
  senderId := SentRow.senderId row
  lamport := (Row.cursor row).lamport

structure SentBatch (T : Type) where
  rows : List T
  order : Option PushOrder

structure Sent (T : Type) where
  plan : List (SentBatch T)
  index : Nat

variable {Proc T : Type} [SentRow T]

def Sent.batch (frame : Sent T) : Option (SentBatch T) := frame.plan[frame.index]?

/-- The frame on the wire is the one its plan has at that index. -/
def FrameSent (frame : PushFrame) (source : Sent T) : Prop :=
  frame.batchIndex = .int source.index ∧ frame.totalBatches = .int source.plan.length ∧
    ∃ batch, source.batch = some batch ∧ frame.pushOrder = batch.order

/-- A frame that an open push takes for its next one comes from the plan that
opened the push. -/
def OwnFrame (sent : Proc → Sent T) (key : Key) (state : State Proc) (frame : PushFrame)
    (process : Proc) : Prop :=
  ∀ push, state.pushes.get key = some push → (state.push push).broken = false →
    continues (state.push push) frame.pushOrder frame.place = true →
      opens state key frame.place = false →
        ∀ opener, .opened push key opener ∈ state.log →
          (sent opener).plan = (sent process).plan

/-- A report on a frame names rows of that frame. -/
def ReportsRows (sent : Proc → Sent T) (process : Proc) (outcome : BatchOutcome) : Prop :=
  ∀ batch, (sent process).batch = some batch →
    ∀ row ∈ outcome.held, row ∈ batch.rows.map heldRow

/-- What the peer and `process()` do: frames come from plans, and a report names
rows of its own frame. -/
def Delivered (sent : Proc → Sent T) (key : Key) (state : State Proc) : Event Proc → Prop
  | .batch peer room frame process => (peer, room) = key → FrameSent frame (sent process)
  | .processed job (some outcome) => (state.push (state.job job).push).key = key →
      ∀ order process, (state.job job).task = .batch order process →
        ReportsRows sent process outcome
  | _ => True

/-- No frame carries on a push of another plan. Frames name no plan, so the
receiver cannot tell. -/
def Unmixed (sent : Proc → Sent T) (key : Key) (state : State Proc) : Event Proc → Prop
  | .batch peer room frame process => (peer, room) = key → OwnFrame sent key state frame process
  | _ => True

/-- A push that opens while nothing is claimed of its peer answers a digest that
named no claims. Of a push that finds claims nothing is asked: it is partial. -/
def Answers (unclaimed : Proc → Prop) (key : Key) (state : State Proc) : Event Proc → Prop
  | .batch peer room frame process => (peer, room) = key → opens state key frame.place = true →
      state.claims.has key = false → unclaimed process
  | _ => True

structure Honest (sent : Proc → Sent T) (key : Key) (state : State Proc) (event : Event Proc) :
    Prop where
  delivered : Delivered sent key state event
  unmixed : Unmixed sent key state event

/-- The push heard back from `process()` on frame `index` of `plan`. -/
def Reported (sent : Proc → Sent T) (log : List (Call Proc)) (push : Nat) (plan : List (SentBatch T))
    (index : Nat) : Prop :=
  ∃ process outcome, .outcome push process outcome ∈ log ∧ sent process = ⟨plan, index⟩

/-- What stands behind one claim: every frame up to an oldest-first one that
carries the claimed row, or the whole plan; and no floor the push was told. -/
structure Proved (sent : Proc → Sent T) (log : List (Call Proc)) (push : Nat)
    (plan : List (SentBatch T)) (sender : Sender) (lamport : Int) : Prop where
  reach : (∃ (index : Nat) (batch : SentBatch T), plan[index]? = some batch ∧
      batch.order = some .asc ∧ ⟨sender, lamport⟩ ∈ batch.rows.map heldRow ∧
        ∀ earlier ≤ index, Reported sent log push plan earlier) ∨
    ∀ index < plan.length, Reported sent log push plan index
  floors : ∀ process outcome, .outcome push process outcome ∈ log →
    BelowFloor outcome.floors sender lamport

/-- Every claim in the history was proved by what the history held then. -/
def Sound (sent : Proc → Sent T) (unclaimed : Proc → Prop) (key : Key) : List (Call Proc) → Prop
  | [] => True
  | call :: older =>
    (∀ push room sender lamport, call = .commit push room sender lamport →
      (∃ origin opener, .opened push origin opener ∈ older) ∧
        ∀ opener, .opened push key opener ∈ older →
          unclaimed opener ∧ Proved sent older push (sent opener).plan sender lamport) ∧
      Sound sent unclaimed key older

/-- The frames a push has taken in: the first `next` of its plan, in order. -/
structure Facts (sent : Proc → Sent T) (state : State Proc) (push : Nat) (plan : List (SentBatch T)) :
    Prop where
  total : (state.push push).total = plan.length
  next : ∃ count : Nat, (state.push push).next = count ∧ count ≤ plan.length ∧
    (∀ index < count, ∃ job < state.jobCount, (state.job job).push = push ∧
      ∃ order process, (state.job job).task = .batch order process ∧
        sent process = ⟨plan, index⟩) ∧
    ∀ job < state.jobCount, (state.job job).push = push → ∀ order process,
      (state.job job).task = .batch order process →
        ∃ index < count, sent process = ⟨plan, index⟩ ∧
          ∃ batch, plan[index]? = some batch ∧ order = batch.order
  increasing : ∀ left right, left < right → right < state.jobCount →
    (state.job left).push = push → (state.job right).push = push →
      ∀ leftOrder leftProcess rightOrder rightProcess,
        (state.job left).task = .batch leftOrder leftProcess →
          (state.job right).task = .batch rightOrder rightProcess →
            (sent leftProcess).index < (sent rightProcess).index

/-- The invariant of one peer and room. `exempt` names a push whose frames are
being taken in right now, for the steps inside one arrival. -/
structure Tracked (sent : Proc → Sent T) (unclaimed : Proc → Prop) (key : Key)
    (exempt : Option Nat) (state : State Proc) : Prop where
  chained : Chained state
  registered : ∀ origin push, state.pushes.get origin = some push →
    push < state.pushCount ∧ (state.push push).key = origin
  keyed : ∀ push origin opener, .opened push origin opener ∈ state.log →
    push < state.pushCount ∧ (state.push push).key = origin
  known : ∀ push < state.pushCount, some push ≠ exempt →
    ∃ origin opener, .opened push origin opener ∈ state.log
  opened : ∀ push opener, .opened push key opener ∈ state.log → some push ≠ exempt →
    (state.push push).broken = false → Facts sent state push (sent opener).plan
  reported : ∀ job < state.jobCount, (state.job job).stage ≠ .queued →
    (state.job job).stage ≠ .processing → ∀ order process,
      (state.job job).task = .batch order process →
        (state.push (state.job job).push).broken = false →
          ∃ outcome, .outcome (state.job job).push process outcome ∈ state.log
  floors : ∀ push process outcome, .outcome push process outcome ∈ state.log →
    push < state.pushCount ∧ ((state.push push).overflowed = false →
      ∀ sender floor, outcome.floors.get sender = some floor →
        ∃ lower ≤ floor, (state.push push).floors.get sender = some lower)
  overflow : ∀ push, (state.push push).overflowed = true → (state.push push).broken = true
  answers : ∀ push opener, .opened push key opener ∈ state.log →
    (state.push push).isPartial = false → unclaimed opener
  committing : ∀ job rest, (state.job job).stage = .committing rest → ∀ opener,
    .opened (state.job job).push key opener ∈ state.log → ∀ claim ∈ rest,
      unclaimed opener ∧ Proved sent state.log (state.job job).push (sent opener).plan claim.1 claim.2
  finishing : ∀ job < state.jobCount, (state.job job).task = .finish →
    state.pushes.get (state.push (state.job job).push).key ≠ some (state.job job).push ∧
      ∀ other < state.jobCount, (state.job other).push = (state.job job).push →
        ∀ order process, (state.job other).task = .batch order process → other < job
  sound : Sound sent unclaimed key state.log

section Preservation

variable {sent : Proc → Sent T} {unclaimed : Proc → Prop} {key : Key} {exempt : Option Nat}

variable {state : State Proc} {push : Nat} {before after : State Proc}

theorem Proved.carry {before after : List (Call Proc)}
    {plan : List (SentBatch T)} {sender : Sender} {lamport : Int}
    (proved : Proved sent before push plan sender lamport)
    (same : ∀ process outcome, .outcome push process outcome ∈ after ↔
      .outcome push process outcome ∈ before) :
    Proved sent after push plan sender lamport where
  reach := by
    have carried : ∀ index, Reported sent before push plan index →
        Reported sent after push plan index := by
      rintro index ⟨process, outcome, mem, source⟩
      exact ⟨process, outcome, (same process outcome).mpr mem, source⟩
    rcases proved.reach with ⟨index, batch, placed, marked, carries, earlier⟩ | whole
    · exact Or.inl ⟨index, batch, placed, marked, carries,
        fun other bound => carried other (earlier other bound)⟩
    · exact Or.inr fun index bound => carried index (whole index bound)
  floors := by
    intro process outcome mem
    exact proved.floors process outcome ((same process outcome).mp mem)

theorem sound_minor {call : Call Proc} {log : List (Call Proc)} (minor : Minor call)
    (sound : Sound sent unclaimed key log) : Sound sent unclaimed key (call :: log) := by
  refine ⟨?_, sound⟩
  rintro push room sender lamport rfl
  exact absurd minor (by simp [Minor])

theorem sound_extra {extra log : List (Call Proc)} (minor : ∀ call ∈ extra, Minor call)
    (sound : Sound sent unclaimed key log) : Sound sent unclaimed key (extra ++ log) := by
  induction extra with
  | nil => exact sound
  | cons call rest ih =>
    exact sound_minor (minor call (by simp))
      (ih fun other mem => minor other (by simp [mem]))

omit [SentRow T] in
theorem Facts.of_same {plan : List (SentBatch T)} (facts : Facts sent before push plan)
    (owner : ∀ job, (after.job job).push = (before.job job).push)
    (task : ∀ job, (after.job job).task = (before.job job).task)
    (jobCount : after.jobCount = before.jobCount)
    (total : (after.push push).total = (before.push push).total)
    (next : (after.push push).next = (before.push push).next) : Facts sent after push plan where
  total := by
    rw [total]
    exact facts.total
  next := by
    simp only [next, owner, task, jobCount]
    exact facts.next
  increasing := by
    simp only [owner, task, jobCount]
    exact facts.increasing

theorem tracked_init (exempt : Option Nat) : Tracked sent unclaimed key exempt (State.init Proc) where
  chained := chained_init
  registered := by
    intro origin push found
    simp [State.init] at found
  keyed := by
    intro push origin opener mem
    simp [State.init] at mem
  known := fun push bound => absurd bound (Nat.not_lt_zero push)
  opened := by
    intro push opener mem
    simp [State.init] at mem
  reported := fun job bound => absurd bound (Nat.not_lt_zero job)
  floors := by
    intro push process outcome mem
    simp [State.init] at mem
  overflow := nofun
  answers := by
    intro push opener mem
    simp [State.init] at mem
  committing := nofun
  finishing := fun job bound => absurd bound (Nat.not_lt_zero job)
  sound := trivial

theorem Tracked.quiet (tracked : Tracked sent unclaimed key exempt before)
    (quiet : Quiet before after) : Tracked sent unclaimed key exempt after where
  chained := tracked.chained.quiet quiet
  registered := by
    intro origin push found
    rw [quiet.pushCount, quiet.key]
    exact tracked.registered origin push (quiet.registered origin push found)
  keyed := by
    intro push origin opener mem
    rw [quiet.pushCount, quiet.key]
    exact tracked.keyed push origin opener ((quiet.log_mem (by simp [Minor])).mp mem)
  known := by
    intro push bound notExempt
    rw [quiet.pushCount] at bound
    obtain ⟨origin, opener, mem⟩ := tracked.known push bound notExempt
    exact ⟨origin, opener, (quiet.log_mem (by simp [Minor])).mpr mem⟩
  opened := by
    intro push opener mem notExempt
    have old := tracked.opened push opener ((quiet.log_mem (by simp [Minor])).mp mem) notExempt
    rw [quiet.broken]
    intro whole
    exact (old whole).of_same (fun job => by rw [quiet.job])
      (fun job => by rw [quiet.job]) quiet.jobCount (quiet.total push) (quiet.next push)
  reported := by
    intro job bound
    rw [quiet.jobCount] at bound
    rw [quiet.job, quiet.broken]
    intro notQueued notProcessing order process task whole
    obtain ⟨outcome, mem⟩ :=
      tracked.reported job bound notQueued notProcessing order process task whole
    exact ⟨outcome, (quiet.log_mem (by simp [Minor])).mpr mem⟩
  floors := by
    intro push process outcome mem
    rw [quiet.pushCount, quiet.overflowed, quiet.floors]
    exact tracked.floors push process outcome ((quiet.log_mem (by simp [Minor])).mp mem)
  overflow := by
    intro push
    rw [quiet.overflowed, quiet.broken]
    exact tracked.overflow push
  answers := by
    intro push opener mem
    rw [quiet.isPartial]
    exact tracked.answers push opener ((quiet.log_mem (by simp [Minor])).mp mem)
  committing := by
    intro job rest
    rw [quiet.job]
    intro stage opener mem claim pending
    have old := tracked.committing job rest stage opener
      ((quiet.log_mem (by simp [Minor])).mp mem) claim pending
    exact ⟨old.1, old.2.carry fun process outcome => quiet.log_mem (by simp [Minor])⟩
  finishing := by
    intro job bound
    rw [quiet.jobCount] at bound
    rw [quiet.job, quiet.key, quiet.jobCount]
    intro task
    obtain ⟨gone, last⟩ := tracked.finishing job bound task
    exact ⟨fun found => gone (quiet.registered _ _ found), last⟩
  sound := by
    obtain ⟨extra, extended, minor⟩ := quiet.log
    rw [extended]
    exact sound_extra minor tracked.sound

/-- Once `process()` is through with a frame of an unbroken push, its report is
in the history. -/
def Heard (state : State Proc) (job : Nat) : Prop :=
  ∀ order process, (state.job job).task = .batch order process →
    (state.push (state.job job).push).broken = false →
      ∃ outcome, .outcome (state.job job).push process outcome ∈ state.log

/-- What stands behind the claims a job has still to make. -/
def Backed (sent : Proc → Sent T) (unclaimed : Proc → Prop) (key : Key) (state : State Proc)
    (push : Nat) (claims : List (Sender × Int)) : Prop :=
  ∀ opener, .opened push key opener ∈ state.log → ∀ claim ∈ claims,
    unclaimed opener ∧ Proved sent state.log push (sent opener).plan claim.1 claim.2

theorem Tracked.set_stage (tracked : Tracked sent unclaimed key exempt state)
    {job : Nat} (turn : Turn state job) (stage : Stage)
    (heard : stage ≠ .processing → Heard state job)
    (backed : ∀ rest, stage = .committing rest → Backed sent unclaimed key state (state.job job).push rest) :
    Tracked sent unclaimed key exempt (setStage state job stage) where
  chained := tracked.chained.set_stage turn stage
  registered := tracked.registered
  keyed := tracked.keyed
  known := tracked.known
  opened := by
    intro push opener mem notExempt whole
    exact (tracked.opened push opener mem notExempt whole).of_same (fun other => set_stage_push state job other stage)
      (fun other => set_stage_task state job other stage) rfl rfl rfl
  reported := by
    intro other bound
    rw [set_stage_stage, set_stage_task, set_stage_push]
    by_cases hit : other = job
    · subst other
      rw [if_pos rfl]
      exact fun _ notProcessing => heard notProcessing
    · rw [if_neg hit]
      exact tracked.reported other bound
  floors := tracked.floors
  overflow := tracked.overflow
  answers := tracked.answers
  committing := by
    intro other rest
    rw [set_stage_stage, set_stage_push]
    by_cases hit : other = job
    · subst other
      rw [if_pos rfl]
      exact backed rest
    · rw [if_neg hit]
      exact tracked.committing other rest
  finishing := by
    intro other bound
    rw [set_stage_task, set_stage_push]
    intro task
    obtain ⟨gone, last⟩ := tracked.finishing other bound task
    refine ⟨gone, ?_⟩
    intro late lateBound same order process lateTask
    rw [set_stage_push] at same
    rw [set_stage_task] at lateTask
    exact last late lateBound same order process lateTask
  sound := tracked.sound

/-- A change of one push record that can only make it claim less. -/
structure Weaker (old new : Push) : Prop where
  key : new.key = old.key
  chain : new.chain = old.chain
  isPartial : new.isPartial = old.isPartial
  broken : new.broken = false → old.broken = false
  overflow : new.overflowed = true → new.broken = true
  floors : new.overflowed = false → old.overflowed = false ∧
    ∀ sender floor, old.floors.get sender = some floor →
      ∃ lower ≤ floor, new.floors.get sender = some lower

theorem update_push_self (state : State Proc) (push : Nat) (change : Push → Push) :
    (updatePush state push change).push push = change (state.push push) := by
  simp [updatePush]

theorem update_push_other (state : State Proc) {push other : Nat} (change : Push → Push)
    (different : other ≠ push) : (updatePush state push change).push other = state.push other := by
  simp [updatePush, different]

theorem update_push_key (state : State Proc) (push : Nat) (change : Push → Push)
    (same : (change (state.push push)).key = (state.push push).key) (other : Nat) :
    ((updatePush state push change).push other).key = (state.push other).key := by
  by_cases hit : other = push
  · subst other
    rw [update_push_self]
    exact same
  · rw [update_push_other state change hit]

section

variable (tracked : Tracked sent unclaimed key exempt state)
include tracked

theorem Tracked.update_push
    (push : Nat) (change : Push → Push) (weaker : Weaker (state.push push) (change (state.push push)))
    (counted : some push ≠ exempt →
      (change (state.push push)).next = (state.push push).next ∧
        (change (state.push push)).total = (state.push push).total) :
    Tracked sent unclaimed key exempt (updatePush state push change) where
  chained := tracked.chained.update_push push change weaker.chain
  registered := by
    intro origin other found
    rw [update_push_key state push change weaker.key]
    exact tracked.registered origin other found
  keyed := by
    intro other origin opener mem
    rw [update_push_key state push change weaker.key]
    exact tracked.keyed other origin opener mem
  known := tracked.known
  opened := by
    intro other opener mem notExempt whole
    have facts := tracked.opened other opener mem notExempt
    by_cases hit : other = push
    · subst other
      rw [update_push_self] at whole
      refine (facts (weaker.broken whole)).of_same (fun _ => rfl) (fun _ => rfl) rfl ?_ ?_
      · rw [update_push_self]
        exact (counted notExempt).2
      · rw [update_push_self]
        exact (counted notExempt).1
    · rw [update_push_other state change hit] at whole
      refine (facts whole).of_same (fun _ => rfl) (fun _ => rfl) rfl ?_ ?_
      · rw [update_push_other state change hit]
      · rw [update_push_other state change hit]
  reported := by
    intro job bound notQueued notProcessing order process task whole
    refine tracked.reported job bound notQueued notProcessing order process task ?_
    by_cases hit : (state.job job).push = push
    · have changed : ((updatePush state push change).push (state.job job).push).broken = false :=
        whole
      rw [hit, update_push_self] at changed
      rw [hit]
      exact weaker.broken changed
    · have changed : ((updatePush state push change).push (state.job job).push).broken = false :=
        whole
      rw [update_push_other state change hit] at changed
      exact changed
  floors := by
    intro other process outcome mem
    obtain ⟨bound, covered⟩ := tracked.floors other process outcome mem
    refine ⟨bound, fun fitted sender floor told => ?_⟩
    by_cases hit : other = push
    · subst other
      rw [update_push_self] at fitted ⊢
      obtain ⟨oldFitted, kept⟩ := weaker.floors fitted
      obtain ⟨lower, below, stored⟩ := covered oldFitted sender floor told
      obtain ⟨lowest, lowestBelow, lowestStored⟩ := kept sender lower stored
      exact ⟨lowest, lowestBelow.trans below, lowestStored⟩
    · rw [update_push_other state change hit] at fitted ⊢
      exact covered fitted sender floor told
  overflow := by
    intro other
    by_cases hit : other = push
    · subst other
      rw [update_push_self]
      exact weaker.overflow
    · rw [update_push_other state change hit]
      exact tracked.overflow other
  answers := by
    intro other opener mem
    by_cases hit : other = push
    · subst other
      rw [update_push_self, weaker.isPartial]
      exact tracked.answers push opener mem
    · rw [update_push_other state change hit]
      exact tracked.answers other opener mem
  committing := tracked.committing
  finishing := by
    intro job bound task
    obtain ⟨gone, last⟩ := tracked.finishing job bound task
    refine ⟨?_, last⟩
    rw [update_push_key state push change weaker.key]
    exact gone
  sound := tracked.sound

theorem Tracked.break_push
    (push : Nat) : Tracked sent unclaimed key exempt (breakPush state push) := by
  refine tracked.update_push push _ ⟨rfl, rfl, rfl, ?_, fun _ => rfl, ?_⟩ fun _ => ⟨rfl, rfl⟩
  · nofun
  · intro fitted
    exact ⟨fitted, fun sender floor stored => ⟨floor, le_refl _, stored⟩⟩

/-- A job joins its push's chain. Only the exempt push may gain a batch. -/
theorem Tracked.enqueue
    (known : push < state.pushCount) (task : Task Proc)
    (noBatch : ∀ order process, task = .batch order process → some push = exempt ∧
      ∀ job < state.jobCount, (state.job job).push = push → (state.job job).task ≠ .finish)
    (closed : task = .finish → state.pushes.get (state.push push).key ≠ some push) :
    Tracked sent unclaimed key exempt (enqueue state push task) where
  chained := tracked.chained.enqueue known task
  registered := by
    intro origin other found
    obtain ⟨bound, same⟩ := tracked.registered origin other found
    refine ⟨bound, ?_⟩
    rw [enqueue_push]
    split_ifs with hit
    · subst other
      exact same
    · exact same
  keyed := by
    intro other origin opener mem
    obtain ⟨bound, same⟩ := tracked.keyed other origin opener mem
    refine ⟨bound, ?_⟩
    rw [enqueue_push]
    split_ifs with hit
    · subst other
      exact same
    · exact same
  known := tracked.known
  opened := by
    intro other opener mem notExempt whole
    have kept : ((Inbound.enqueue state push task).push other).broken = (state.push other).broken ∧
        ((Inbound.enqueue state push task).push other).total = (state.push other).total ∧
        ((Inbound.enqueue state push task).push other).next = (state.push other).next := by
      rw [enqueue_push]
      split_ifs with hit
      · subst other
        exact ⟨rfl, rfl, rfl⟩
      · exact ⟨rfl, rfl, rfl⟩
    rw [kept.1] at whole
    have old := tracked.opened other opener mem notExempt whole
    -- the new job belongs to another push, or is no batch
    have other_batch : ∀ job < state.jobCount + 1,
        ((Inbound.enqueue state push task).job job).push = other → ∀ order process,
          ((Inbound.enqueue state push task).job job).task = .batch order process →
            job < state.jobCount ∧ (state.job job).push = other ∧
              (state.job job).task = .batch order process := by
      intro job bound owner order process batch
      rcases Nat.lt_succ_iff_lt_or_eq.mp bound with earlier | new
      · rw [enqueue_job_old state push task earlier] at owner batch
        exact ⟨earlier, owner, batch⟩
      · subst new
        rw [enqueue_job_new] at owner batch
        have own : push = other := owner
        subst own
        exact absurd (noBatch order process batch).1 notExempt
    refine ⟨by rw [kept.2.1]; exact old.total, ?_, ?_⟩
    · obtain ⟨count, next, within, present, placed⟩ := old.next
      refine ⟨count, by rw [kept.2.2]; exact next, within, ?_, ?_⟩
      · intro index bound
        obtain ⟨job, jobBound, owner, order, process, batch, source⟩ := present index bound
        refine ⟨job, Nat.lt_succ_of_lt jobBound, ?_, order, process, ?_, source⟩
        · rw [enqueue_job_old state push task jobBound]
          exact owner
        · rw [enqueue_job_old state push task jobBound]
          exact batch
      · intro job bound owner order process batch
        obtain ⟨earlier, oldOwner, oldBatch⟩ := other_batch job bound owner order process batch
        exact placed job earlier oldOwner order process oldBatch
    · intro left right less bound leftOwner rightOwner leftOrder leftProcess rightOrder
        rightProcess leftBatch rightBatch
      obtain ⟨rightEarlier, rightOld, rightOldBatch⟩ :=
        other_batch right bound rightOwner rightOrder rightProcess rightBatch
      obtain ⟨-, leftOld, leftOldBatch⟩ :=
        other_batch left (by omega) leftOwner leftOrder leftProcess leftBatch
      exact old.increasing left right less rightEarlier leftOld rightOld leftOrder leftProcess
        rightOrder rightProcess leftOldBatch rightOldBatch
  reported := by
    intro job bound
    rcases Nat.lt_succ_iff_lt_or_eq.mp bound with earlier | new
    · rw [enqueue_job_old state push task earlier]
      intro notQueued notProcessing order process batch whole
      refine tracked.reported job earlier notQueued notProcessing order process batch ?_
      rw [enqueue_push] at whole
      split_ifs at whole with hit
      · rw [hit]
        exact whole
      · exact whole
    · subst new
      rw [enqueue_job_new]
      intro notQueued
      exact absurd rfl notQueued
  floors := by
    intro other process outcome mem
    rw [enqueue_push]
    split_ifs with hit
    · subst other
      exact tracked.floors push process outcome mem
    · exact tracked.floors other process outcome mem
  overflow := by
    intro other
    rw [enqueue_push]
    split_ifs with hit
    · exact tracked.overflow push
    · exact tracked.overflow other
  answers := by
    intro other opener mem
    rw [enqueue_push]
    split_ifs with hit
    · subst other
      exact tracked.answers push opener mem
    · exact tracked.answers other opener mem
  committing := by
    intro job rest
    rw [enqueue_job]
    split_ifs with hit
    · rintro ⟨⟩
    · exact tracked.committing job rest
  finishing := by
    have sameKey : ∀ other, ((Inbound.enqueue state push task).push other).key =
        (state.push other).key := by
      intro other
      rw [enqueue_push]
      split_ifs with hit
      · rw [hit]
      · rfl
    intro job bound
    rcases Nat.lt_succ_iff_lt_or_eq.mp bound with earlier | new
    · rw [enqueue_job_old state push task earlier]
      intro finish
      obtain ⟨gone, last⟩ := tracked.finishing job earlier finish
      refine ⟨by rw [sameKey]; exact gone, ?_⟩
      intro other otherBound same order process batch
      rcases Nat.lt_succ_iff_lt_or_eq.mp otherBound with otherEarlier | otherNew
      · rw [enqueue_job_old state push task otherEarlier] at same batch
        exact last other otherEarlier same order process batch
      · subst otherNew
        rw [enqueue_job_new] at same batch
        have own : push = (state.job job).push := same
        exact absurd finish ((noBatch order process batch).2 job earlier own.symm)
    · subst new
      rw [enqueue_job_new]
      intro finish
      refine ⟨by rw [sameKey]; exact closed finish, ?_⟩
      intro other otherBound same order process batch
      rcases Nat.lt_succ_iff_lt_or_eq.mp otherBound with otherEarlier | otherNew
      · exact otherEarlier
      · subst otherNew
        rw [enqueue_job_new] at batch
        have isFinish : task = .finish := finish
        have isBatch : task = .batch order process := batch
        rw [isFinish] at isBatch
        cases isBatch
  sound := tracked.sound

theorem Tracked.noted {call : Call Proc}
    (opens : ∀ other origin opener, call = .opened other origin opener → exempt = some other ∧
      other < state.pushCount ∧ (state.push other).key = origin ∧
        (∀ job < state.jobCount, (state.job job).push ≠ other) ∧
        (origin = key → (state.push other).isPartial = false → unclaimed opener))
    (reports : ∀ other process outcome, call = .outcome other process outcome →
      other < state.pushCount ∧
        (∀ job rest, (state.job job).push = other → (state.job job).stage ≠ .committing rest) ∧
        ((state.push other).overflowed = false → ∀ sender floor,
          outcome.floors.get sender = some floor →
            ∃ lower ≤ floor, (state.push other).floors.get sender = some lower))
    (sound : ∀ other room sender lamport, call = .commit other room sender lamport →
      (∃ origin opener, .opened other origin opener ∈ state.log) ∧
        ∀ opener, .opened other key opener ∈ state.log →
          unclaimed opener ∧ Proved sent state.log other (sent opener).plan sender lamport) :
    Tracked sent unclaimed key exempt (note state call) where
  chained := tracked.chained.note _
  registered := tracked.registered
  keyed := by
    intro other origin opener mem
    rcases mem_cons.mp mem with new | old
    · obtain ⟨_, known, own, _⟩ := opens other origin opener new.symm
      exact ⟨known, own⟩
    · exact tracked.keyed other origin opener old
  known := by
    intro other bound notExempt
    obtain ⟨origin, opener, mem⟩ := tracked.known other bound notExempt
    exact ⟨origin, opener, mem_cons_of_mem _ mem⟩
  opened := by
    intro other opener mem notExempt whole
    rcases mem_cons.mp mem with new | old
    · exact absurd (opens other key opener new.symm).1.symm notExempt
    · have facts := tracked.opened other opener old notExempt whole
      exact facts.of_same (fun _ => rfl) (fun _ => rfl) rfl rfl rfl
  reported := by
    intro job bound notQueued notProcessing order process task whole
    obtain ⟨outcome, mem⟩ :=
      tracked.reported job bound notQueued notProcessing order process task whole
    exact ⟨outcome, mem_cons_of_mem _ mem⟩
  floors := by
    intro other process outcome mem
    rcases mem_cons.mp mem with new | old
    · obtain ⟨known, _, covered⟩ := reports other process outcome new.symm
      exact ⟨known, covered⟩
    · exact tracked.floors other process outcome old
  overflow := tracked.overflow
  answers := by
    intro other opener mem
    rcases mem_cons.mp mem with new | old
    · obtain ⟨_, _, _, _, answers⟩ := opens other key opener new.symm
      exact answers rfl
    · exact tracked.answers other opener old
  committing := by
    intro job rest stage opener mem claim pending
    have earlier : .opened (state.job job).push key opener ∈ state.log := by
      rcases mem_cons.mp mem with new | old
      · have bound : job < state.jobCount := by
          refine tracked.chained.bound_of_active ?_
          have same : (state.job job).stage = .committing rest := stage
          rw [same]
          simp
        obtain ⟨_, _, _, jobless, _⟩ := opens _ key opener new.symm
        exact absurd rfl (jobless job bound)
      · exact old
    have old := tracked.committing job rest stage opener earlier claim pending
    refine ⟨old.1, old.2.carry ?_⟩
    intro process outcome
    refine ⟨fun present => ?_, mem_cons_of_mem _⟩
    rcases mem_cons.mp present with new | older
    · exact absurd stage ((reports _ process outcome new.symm).2.1 job rest rfl)
    · exact older
  finishing := tracked.finishing
  sound := ⟨sound, tracked.sound⟩

theorem Tracked.note_commit
    (name : Room) {sender : Sender} {lamport : Int}
    (opened : ∃ origin opener, .opened push origin opener ∈ state.log)
    (proved : ∀ opener, .opened push key opener ∈ state.log →
      unclaimed opener ∧ Proved sent state.log push (sent opener).plan sender lamport) :
    Tracked sent unclaimed key exempt (note state (.commit push name sender lamport)) := by
  refine tracked.noted nofun nofun ?_
  rintro _ _ _ _ ⟨⟩
  exact ⟨opened, proved⟩

theorem Tracked.note_outcome
    (known : push < state.pushCount) (process : Proc) (outcome : BatchOutcome)
    (idle : ∀ job rest, (state.job job).push = push → (state.job job).stage ≠ .committing rest)
    (covered : (state.push push).overflowed = false → ∀ sender floor,
      outcome.floors.get sender = some floor →
        ∃ lower ≤ floor, (state.push push).floors.get sender = some lower) :
    Tracked sent unclaimed key exempt (note state (.outcome push process outcome)) := by
  refine tracked.noted nofun ?_ nofun
  rintro _ _ _ ⟨⟩
  exact ⟨known, idle, covered⟩

end

/-- A push record is made and registered; its history entry follows. -/
theorem Tracked.add_push (tracked : Tracked sent unclaimed key none before) (record : Push)
    (origin : Key) (sameKey : record.key = origin) (fitted : record.overflowed = false)
    (ends : ∀ last, record.chain = some last → last < before.jobCount)
    (job : after.job = before.job) (jobCount : after.jobCount = before.jobCount)
    (pushCount : after.pushCount = before.pushCount + 1)
    (push : after.push = Function.update before.push before.pushCount record)
    (pushes : after.pushes = before.pushes.set origin before.pushCount)
    (log : after.log = before.log) :
    Tracked sent unclaimed key (some before.pushCount) after := by
  have others : ∀ other, other ≠ before.pushCount → after.push other = before.push other := by
    intro other different
    rw [push, update_of_ne different]
  have own : after.push before.pushCount = record := by
    rw [push, update_self]
  refine
    { chained := tracked.chained.add_push record job jobCount pushCount push ends
      registered := ?_, keyed := ?_, known := ?_, opened := ?_, reported := ?_, floors := ?_
      overflow := ?_, answers := ?_, committing := ?_, finishing := ?_, sound := by rw [log]; exact tracked.sound }
  · intro other index found
    rw [pushCount]
    rw [pushes, OrderedMap.get_set] at found
    split_ifs at found with hit
    · cases found
      rw [own, hit]
      exact ⟨by omega, sameKey⟩
    · obtain ⟨bound, same⟩ := tracked.registered other index found
      rw [others index (by omega)]
      exact ⟨by omega, same⟩
  · intro other otherOrigin opener mem
    rw [log] at mem
    obtain ⟨bound, same⟩ := tracked.keyed other otherOrigin opener mem
    rw [others other (by omega)]
    exact ⟨by omega, same⟩
  · intro other bound notExempt
    have different : other ≠ before.pushCount := fun same => notExempt (by rw [same])
    rw [log]
    exact tracked.known other (by omega) (by simp)
  · intro other opener mem _
    rw [log] at mem
    have bound := (tracked.keyed other key opener mem).1
    rw [others other (by omega)]
    intro whole
    refine (tracked.opened other opener mem (by simp) whole).of_same (fun _ => by rw [job]) (fun _ => by rw [job]) jobCount ?_ ?_
    · rw [others other (by omega)]
    · rw [others other (by omega)]
  · intro index bound
    rw [jobCount] at bound
    have owner := tracked.chained.owner index bound
    rw [job, log, others _ (by omega)]
    exact tracked.reported index bound
  · intro other process outcome mem
    rw [log] at mem
    obtain ⟨bound, covered⟩ := tracked.floors other process outcome mem
    rw [others other (by omega)]
    exact ⟨by omega, covered⟩
  · intro other
    by_cases hit : other = before.pushCount
    · rw [hit, own, fitted]
      rintro ⟨⟩
    · rw [others other hit]
      exact tracked.overflow other
  · intro other opener mem
    rw [log] at mem
    have bound := (tracked.keyed other key opener mem).1
    rw [others other (by omega)]
    exact tracked.answers other opener mem
  · rw [job, log]
    exact tracked.committing
  · intro index bound
    rw [jobCount] at bound
    have owner := tracked.chained.owner index bound
    rw [job, jobCount, others _ (by omega)]
    intro finish
    obtain ⟨gone, last⟩ := tracked.finishing index bound finish
    refine ⟨?_, last⟩
    rw [pushes, OrderedMap.get_set]
    split_ifs
    · intro same
      have equal : before.pushCount = (before.job index).push := by simpa using same
      omega
    · exact gone

theorem Tracked.note_opened (tracked : Tracked sent unclaimed key (some push) state)
    (known : push < state.pushCount) (origin : Key) (process : Proc)
    (sameKey : (state.push push).key = origin)
    (jobless : ∀ job < state.jobCount, (state.job job).push ≠ push)
    (answers : origin = key → (state.push push).isPartial = false → unclaimed process) :
    Tracked sent unclaimed key (some push) (note state (.opened push origin process)) := by
  refine tracked.noted ?_ nofun nofun
  rintro _ _ _ ⟨⟩
  exact ⟨rfl, known, sameKey, jobless, answers⟩

theorem Tracked.restore
    (tracked : Tracked sent unclaimed key (some push) state)
    (known : ∃ origin opener, .opened push origin opener ∈ state.log)
    (facts : ∀ opener, .opened push key opener ∈ state.log → (state.push push).broken = false →
      Facts sent state push (sent opener).plan) : Tracked sent unclaimed key none state :=
  { tracked with
    known := by
      intro other bound _
      by_cases hit : other = push
      · rw [hit]
        exact known
      · exact tracked.known other bound (by simpa using hit)
    opened := by
      intro other opener mem _ whole
      by_cases hit : other = push
      · subst other
        exact facts opener mem whole
      · exact tracked.opened other opener mem (by simpa using hit) whole }

theorem Tracked.exempting (tracked : Tracked sent unclaimed key none state)
    (push : Nat) : Tracked sent unclaimed key (some push) state :=
  { tracked with
    known := fun other bound _ => tracked.known other bound (by simp)
    opened := fun other opener mem _ => tracked.opened other opener mem (by simp) }

end Preservation

end AwfulChat.Inbound
