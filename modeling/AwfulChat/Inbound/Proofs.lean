import AwfulChat.Inbound.Tracked

/-!
# Every claim of a push is proved

One lemma for each kind of step, and the run theorem: along every honest
schedule each claim in the history was `Proved` by the history before it.
-/

namespace AwfulChat.Inbound

open Library MessageOrder SyncPush Library.OrderedMap List Bool

set_option autoImplicit false

variable {Proc T : Type} [SentRow T] {sent : Proc → Sent T} {unclaimed : Proc → Prop} {key : Key}

section Jobs

variable {state : State Proc} {job : Nat}

section

variable (tracked : Tracked sent unclaimed key none state)
include tracked

theorem Tracked.heard
    (active : Active (state.job job).stage) (past : (state.job job).stage ≠ .processing) :
    Heard state job :=
  tracked.reported job (tracked.chained.bound_of_active active.2) active.1 past

theorem Tracked.end_push (turn : Turn state job)
    (heard : Heard state job) (push : Nat) (completed : Bool) :
    Tracked sent unclaimed key none (endPush state job push completed) := by
  obtain ⟨past, stage, quiet, ends, final⟩ := end_push_quiet state job push completed
  rw [ends]
  refine (tracked.quiet quiet).set_stage (turn.of_same quiet.job) stage ?_ ?_
  · intro _ order process
    rw [quiet.job, quiet.broken]
    intro task whole
    obtain ⟨outcome, mem⟩ := heard order process task whole
    exact ⟨outcome, (quiet.log_mem (by simp [Minor])).mpr mem⟩
  · rintro rest rfl
    rcases final with impossible | impossible <;> cases impossible

theorem Tracked.commit_next (turn : Turn state job) (heard : Heard state job)
    (known : (state.job job).push < state.pushCount) (claims : List (Sender × Int))
    (backed : Backed sent unclaimed key state (state.job job).push claims) :
    Tracked sent unclaimed key none (commitNext state job (state.job job).push claims) := by
  cases claims with
  | nil =>
    simp only [commitNext]
    split
    · exact tracked.end_push turn heard _ true
    · exact tracked.set_stage turn .done (fun _ => heard) (by simp)
  | cons claim rest =>
    obtain ⟨sender, lamport⟩ := claim
    simp only [commitNext]
    have noted := tracked.note_commit (state.push (state.job job).push).room
      (tracked.known _ known (by simp))
      (fun opener mem => backed opener mem (sender, lamport) (by simp))
    refine noted.set_stage (turn.of_same rfl) (.committing rest) ?_ ?_
    · intro _ order process task whole
      obtain ⟨outcome, mem⟩ := heard order process task whole
      exact ⟨outcome, mem_cons_of_mem _ mem⟩
    · rintro _ ⟨⟩ opener mem claim pending
      have old := backed opener (by simpa [note] using mem) claim (by simp [pending])
      exact ⟨old.1, old.2.carry fun process outcome => by simp [note]⟩

theorem Tracked.committed
    {rest : List (Sender × Int)} (stage : (state.job job).stage = .committing rest) (ok : Bool) :
    Tracked sent unclaimed key none (committed state job rest ok) := by
  have active : Active (state.job job).stage := by simp [Active, stage]
  have turn := tracked.chained.turn_of_active active
  have heard := tracked.heard active (by simp [stage])
  have bound := tracked.chained.bound_of_active active.2
  have known := tracked.chained.owner job bound
  unfold Inbound.committed
  dsimp only
  split_ifs
  · exact tracked.commit_next turn heard known rest fun opener mem claim pending =>
      tracked.committing job rest stage opener mem claim pending
  · split
    · exact tracked.end_push turn heard _ false
    · refine (tracked.break_push _).set_stage (turn.of_same rfl) .done ?_ (by simp)
      intro _ order process _ whole
      have changed : ((breakPush state (state.job job).push).push
          (state.job job).push).broken = false := whole
      rw [breakPush, update_push_self] at changed
      cases changed

theorem Tracked.below_floors {push : Nat} (fitted : (state.push push).overflowed = false)
    {sender : Sender} {lamport : Int} (below : BelowFloor (state.push push).floors sender lamport)
    (process : Proc) (outcome : BatchOutcome) (mem : .outcome push process outcome ∈ state.log) :
    BelowFloor outcome.floors sender lamport := by
  intro floor told
  obtain ⟨lower, lowerBelow, stored⟩ :=
    (tracked.floors push process outcome mem).2 fitted sender floor told
  exact lt_of_lt_of_le (below lower stored) lowerBelow

theorem Tracked.fitted {push : Nat}
    (whole : (state.push push).broken = false) : (state.push push).overflowed = false := by
  cases overflowed : (state.push push).overflowed with
  | false => rfl
  | true =>
    have broken := tracked.overflow push overflowed
    rw [whole] at broken
    cases broken

theorem Tracked.finish_backed
    (start : ready state job = true) (task : (state.job job).task = .finish)
    (whole : wholePush (state.push (state.job job).push) = true) :
    Backed sent unclaimed key state (state.job job).push
      (claimable (pendingEntries (state.push (state.job job).push).pending)
        (state.push (state.job job).push).floors).entries := by
  have turn := tracked.chained.turn_of_ready start
  have bound := tracked.chained.bound_of_active turn.pending
  simp only [wholePush, and_eq_true, not_eq_true', decide_eq_true_eq] at whole
  obtain ⟨⟨⟨unbroken, wholly⟩, -⟩, everything⟩ := whole
  intro opener mem claim claimed
  obtain ⟨-, below⟩ := claimable_sound claimed
  refine ⟨tracked.answers _ opener mem wholly, Or.inr ?_, fun process outcome told =>
    tracked.below_floors (tracked.fitted unbroken) below process outcome told⟩
  intro index within
  have facts := tracked.opened _ opener mem (by simp) unbroken
  obtain ⟨count, next, -, present, -⟩ := facts.next
  have counted : count = (sent opener).plan.length := by
    have total := facts.total
    omega
  obtain ⟨frame, frameBound, owner, order, process, batch, source⟩ :=
    present index (by omega)
  have before := (tracked.finishing job bound task).2 frame frameBound owner order process batch
  have done := turn.first frame before owner
  have heard := tracked.reported frame frameBound (by simp [done]) (by simp [done]) order process
    batch
  rw [owner] at heard
  obtain ⟨outcome, reported⟩ := heard unbroken
  exact ⟨process, outcome, reported, source⟩

theorem Tracked.start_job
    (start : ready state job = true) : Tracked sent unclaimed key none (startJob state job) := by
  have turn := tracked.chained.turn_of_ready start
  have bound := tracked.chained.bound_of_active turn.pending
  unfold startJob
  dsimp only
  split
  · exact tracked.set_stage turn .processing (fun notProcessing => absurd rfl notProcessing)
      (by simp)
  · rename_i task
    exact tracked.end_push turn (fun order process batch => by simp [task] at batch) _ false
  · rename_i task
    have heard : Heard state job := fun order process batch => by simp [task] at batch
    split_ifs with whole
    · exact tracked.commit_next turn heard (tracked.chained.owner job bound) _
        (tracked.finish_backed start task whole)
    · exact tracked.end_push turn heard _ false

theorem Tracked.report
    (processing : (state.job job).stage = .processing) (process : Proc) (outcome : BatchOutcome)
    (change : Push → Push)
    (weaker : Weaker (state.push (state.job job).push) (change (state.push (state.job job).push)))
    (counted : (change (state.push (state.job job).push)).next =
        (state.push (state.job job).push).next ∧
      (change (state.push (state.job job).push)).total = (state.push (state.job job).push).total)
    (covered : (change (state.push (state.job job).push)).overflowed = false →
      ∀ sender floor, outcome.floors.get sender = some floor → ∃ lower ≤ floor,
        (change (state.push (state.job job).push)).floors.get sender = some lower) :
    Tracked sent unclaimed key none
      (updatePush (note state (.outcome (state.job job).push process outcome))
        (state.job job).push change) := by
  have active : Active (state.job job).stage := by simp [Active, processing]
  have bound := tracked.chained.bound_of_active active.2
  refine (tracked.update_push _ change weaker fun _ => counted).note_outcome
    (tracked.chained.owner job bound) process outcome ?_ ?_
  · intro other rest same stage
    have otherActive : Active (state.job other).stage := by
      have committing : (state.job other).stage = .committing rest := stage
      simp [Active, committing]
    have equal := tracked.chained.active_unique otherActive active same
    subst equal
    have committing : (state.job other).stage = .committing rest := stage
    rw [processing] at committing
    cases committing
  · rw [update_push_self]
    exact covered

theorem Tracked.batch_backed (processing : (state.job job).stage = .processing) {process : Proc}
    {outcome : BatchOutcome} (task : (state.job job).task = .batch (some .asc) process)
    (told : .outcome (state.job job).push process outcome ∈ state.log)
    (reports : (state.push (state.job job).push).key = key → ReportsRows sent process outcome)
    (unbroken : (state.push (state.job job).push).broken = false)
    (wholly : (state.push (state.job job).push).isPartial = false) :
    Backed sent unclaimed key state (state.job job).push
      (claimable ((outcome.held.filter validRow).map fun row => (row.senderId, row.lamport))
        (state.push (state.job job).push).floors).entries := by
  have active : Active (state.job job).stage := by simp [Active, processing]
  have turn := tracked.chained.turn_of_active active
  have bound := tracked.chained.bound_of_active turn.pending
  rintro opener mem ⟨sender, lamport⟩ claimed
  obtain ⟨row, below⟩ := claimable_sound claimed
  refine ⟨tracked.answers _ opener mem wholly, Or.inl ?_, fun other otherOutcome otherTold =>
    tracked.below_floors (tracked.fitted unbroken) below other otherOutcome otherTold⟩
  have sameKey := (tracked.keyed _ key opener mem).2
  have inLine := tracked.opened _ opener mem (by simp) unbroken
  obtain ⟨count, -, -, present, placed⟩ := inLine.next
  obtain ⟨index, within, source, batch, found, marked⟩ :=
    placed job bound rfl (some .asc) process task
  refine ⟨index, batch, found, marked.symm, ?_, ?_⟩
  · have carried : (sent process).batch = some batch := by
      rw [Sent.batch, source, found]
    obtain ⟨held, heldMember, heldSame⟩ := mem_map.mp row
    cases heldSame
    exact reports sameKey batch carried held (mem_filter.mp heldMember).1
  · intro earlier upTo
    rcases Nat.eq_or_lt_of_le upTo with equal | less
    · rw [equal]
      exact ⟨process, outcome, told, source⟩
    · obtain ⟨frame, frameBound, owner, order, earlierProcess, frameTask, frameSource⟩ :=
        present earlier (by omega)
      have before : frame < job := by
        rcases Nat.lt_trichotomy frame job with less | equal | greater
        · exact less
        · subst equal
          rw [task] at frameTask
          cases frameTask
          rw [source] at frameSource
          injection frameSource
          omega
        · have ordered := inLine.increasing job frame greater frameBound rfl owner _ _ _ _ task
            frameTask
          rw [source, frameSource] at ordered
          dsimp only at ordered
          omega
      have done := turn.first frame before owner
      have heard := tracked.reported frame frameBound (by simp [done]) (by simp [done]) order
        earlierProcess frameTask
      rw [owner] at heard
      obtain ⟨earlierOutcome, reported⟩ := heard unbroken
      exact ⟨earlierProcess, earlierOutcome, reported, frameSource⟩

theorem Tracked.account
    (processing : (state.job job).stage = .processing) {order : Option PushOrder} {process : Proc}
    (task : (state.job job).task = .batch order process) (outcome : BatchOutcome)
    (reports : (state.push (state.job job).push).key = key → ReportsRows sent process outcome) :
    Tracked sent unclaimed key none
      (account (note state (.outcome (state.job job).push process outcome)) job
        (state.job job).push order outcome) := by
  have active : Active (state.job job).stage := by simp [Active, processing]
  have turn := tracked.chained.turn_of_active active
  have known := tracked.chained.owner job (tracked.chained.bound_of_active active.2)
  -- whatever becomes of the push record, this frame was reported on
  have heard : ∀ after : State Proc, after.job = state.job →
      .outcome (state.job job).push process outcome ∈ after.log → Heard after job := by
    intro after same mem otherOrder other otherTask _
    rw [same] at otherTask ⊢
    rw [task] at otherTask
    cases otherTask
    exact ⟨outcome, mem⟩
  have floored : (foldFloors (state.push (state.job job).push).floors
      outcome.floors.entries).2 = false → Tracked sent unclaimed key none
        (updatePush (note state (.outcome (state.job job).push process outcome))
          (state.job job).push fun current =>
            { current with
              floors := (foldFloors (state.push (state.job job).push).floors
                outcome.floors.entries).1 }) := by
    intro fits
    refine tracked.report processing process outcome _
      ⟨rfl, rfl, rfl, fun unbroken => unbroken, tracked.overflow _, fun fitted => ⟨fitted, ?_⟩⟩
      ⟨rfl, rfl⟩ ?_
    · intro sender floor stored
      exact fold_floors_keeps outcome.floors.entries _ stored
    · intro _ sender floor told
      exact fold_floors_covers outcome.floors.entries _ fits (mem_of_get told)
  unfold Inbound.account
  dsimp only
  split_ifs with past overflows asc stopped
  · have same : (state.push (state.job job).push).overflowed = true := past
    have noted := tracked.report processing process outcome id
      ⟨rfl, rfl, rfl, fun unbroken => unbroken, tracked.overflow _, fun fitted =>
        ⟨fitted, fun _ floor stored => ⟨floor, le_refl _, stored⟩⟩⟩ ⟨rfl, rfl⟩
      (fun fitted => by simp [same] at fitted)
    have unchanged : updatePush (note state (.outcome (state.job job).push process outcome))
        (state.job job).push id = note state (.outcome (state.job job).push process outcome) := by
      simp [updatePush]
    rw [unchanged] at noted
    refine noted.set_stage (turn.of_same rfl) .done (fun _ => ?_) (by simp)
    exact heard _ rfl mem_cons_self
  · refine (tracked.report processing process outcome _ ⟨rfl, rfl, rfl, ?_, fun _ => rfl, ?_⟩
      ⟨rfl, rfl⟩ ?_).set_stage (turn.of_same rfl) .done (fun _ => heard _ rfl mem_cons_self) (by simp)
    · rintro ⟨⟩
    · rintro ⟨⟩
    · rintro ⟨⟩
  · have fits := floored ((not_eq_true _).mp overflows)
    exact fits.set_stage (turn.of_same rfl) .done (fun _ => heard _ rfl mem_cons_self) (by simp)
  · have fits := floored ((not_eq_true _).mp overflows)
    have unbroken : (state.push (state.job job).push).broken = false := by
      by_contra broken
      exact stopped (Or.inl (by simpa [note] using broken))
    have wholly : (state.push (state.job job).push).isPartial = false := by
      by_contra partly
      exact stopped (Or.inr (by simpa [note] using partly))
    have backed := fits.batch_backed processing (by rw [← asc]; exact task)
      mem_cons_self
      (fun same => reports (by simpa [updatePush, note] using same))
      (by simpa [updatePush, note] using unbroken) (by simpa [updatePush, note] using wholly)
    refine fits.commit_next (turn.of_same rfl) (heard _ rfl mem_cons_self) known _ ?_
    simpa [updatePush, note] using backed
  · have fits := floored ((not_eq_true _).mp overflows)
    refine (fits.update_push _ _ ⟨rfl, rfl, rfl, fun unbroken => unbroken, fits.overflow _,
      fun fitted => ⟨fitted, fun _ floor stored => ⟨floor, le_refl _, stored⟩⟩⟩
      fun _ => ⟨rfl, rfl⟩).set_stage (turn.of_same rfl) .done ?_ (by simp)
    exact fun _ => heard _ rfl mem_cons_self

end

end Jobs

section Arrivals

variable {state : State Proc}

theorem unregister_gone (state : State Proc) (push : Nat) :
    (unregister state push).pushes.get ((unregister state push).push push).key ≠ some push := by
  unfold unregister
  split_ifs with held
  · rw [get_delete, if_pos rfl]
    simp
  · exact held

variable {push : Nat} {process : Proc} {origin : Key}

section

variable (tracked : Tracked sent unclaimed key none state)
include tracked

theorem Tracked.finish
    (known : push < state.pushCount) : Tracked sent unclaimed key none (finish state push) := by
  have closed : Quiet state
      (unregister (updatePush state push fun record => { record with timer := false }) push) :=
    (quiet_update_push state push _ rfl).trans (quiet_unregister _ push)
  unfold Inbound.finish
  dsimp only
  split_ifs
  · refine Tracked.enqueue ?_ ?_ .finish (by simp) ?_
    · exact (tracked.quiet closed).quiet (quiet_of_same rfl rfl rfl rfl rfl rfl)
    · exact lt_of_lt_of_eq known closed.pushCount.symm
    · intro _
      exact unregister_gone _ push
  · exact tracked

theorem Tracked.stall
    (known : push < state.pushCount) : Tracked sent unclaimed key none (stallTimer state push) := by
  have closed : Quiet state
      (unregister (updatePush state push fun record => { record with timer := false }) push) :=
    (quiet_update_push state push _ rfl).trans (quiet_unregister _ push)
  refine (tracked.quiet closed).enqueue ?_ .endShort (by simp) (by simp)
  exact lt_of_lt_of_eq known closed.pushCount.symm

theorem Tracked.start_over :
    Tracked sent unclaimed key none (startOver state origin (state.pushes.get origin)) := by
  cases found : state.pushes.get origin with
  | none => exact tracked
  | some before =>
    have removed : Quiet state { state with pushes := state.pushes.delete origin } := by
      refine ⟨rfl, rfl, rfl, fun _ => rfl, ?_, ⟨[], rfl, by simp⟩⟩
      intro other push held
      simp only [get_delete] at held
      split_ifs at held
      exact held
    exact (tracked.quiet removed).enqueue (tracked.registered origin before found).1 .endShort
      (by simp) (by simp)

end

/-- What holds between a frame's arrival at its push and the job it queues. -/
structure Arrived (sent : Proc → Sent T) (unclaimed : Proc → Prop) (key origin : Key) (order : Option PushOrder)
    (place : Option (Int × Int)) (process : Proc) (push : Nat) (state : State Proc) : Prop where
  tracked : Tracked sent unclaimed key (some push) state
  registered : state.pushes.get origin = some push
  known : ∃ opening opener, .opened push opening opener ∈ state.log
  unfinished : ∀ job < state.jobCount, (state.job job).push = push →
    (state.job job).task ≠ .finish
  facts : ∀ opener, .opened push key opener ∈ state.log → (state.push push).broken = false →
    continues (state.push push) order place = true →
      Facts sent state push (sent opener).plan ∧ (sent opener).plan = (sent process).plan

theorem register_self (state : State Proc) (origin : Key) (order : Option PushOrder) (total : Int)
    (before : Option Nat) : (register state origin order total before).push state.pushCount =
      newPush state origin order total before := by
  simp [register]

theorem room_pushes (state : State Proc) (name : Room) :
    (room state name).2.pushes = state.pushes := by
  unfold room
  split <;> rfl

theorem start_over_claims (state : State Proc) (origin : Key) (before : Option Nat) :
    (startOver state origin before).claims = state.claims := by
  cases before <;> rfl

/-- A push that just opened: the history knows it by one entry, and it has
neither frames nor jobs. -/
structure Opened (sent : Proc → Sent T) (unclaimed : Proc → Prop) (key origin : Key) (process : Proc) (total : Int)
    (push : Nat) (state : State Proc) : Prop where
  tracked : Tracked sent unclaimed key (some push) state
  registered : state.pushes.get origin = some push
  noted : .opened push origin process ∈ state.log
  only : ∀ other opener, .opened push other opener ∈ state.log →
    other = origin ∧ opener = process
  jobless : ∀ job < state.jobCount, (state.job job).push ≠ push
  next : (state.push push).next = 0
  total : (state.push push).total = total

theorem Tracked.start (tracked : Tracked sent unclaimed key none state) (origin : Key)
    (order : Option PushOrder) (total : Int) {before : Option Nat}
    (found : state.pushes.get origin = before) (process : Proc)
    (answers : origin = key → state.claims.has key = false → unclaimed process) :
    Opened sent unclaimed key origin process total (start state origin order total before process).1
      (start state origin order total before process).2 := by
  have left : Tracked sent unclaimed key none (startOver state origin before) := by
    rw [← found]
    exact tracked.start_over
  have ends : ∀ last, (newPush (startOver state origin before) origin order total before).chain =
      some last → last < (startOver state origin before).jobCount := by
    intro last tail
    cases before with
    | none => cases tail
    | some push =>
      exact left.chained.tail push (tracked.registered origin push found).1 last tail
  have added : Tracked sent unclaimed key (some (startOver state origin before).pushCount)
      (register (startOver state origin before) origin order total before) :=
    left.add_push _ origin rfl rfl ends rfl rfl rfl rfl rfl rfl
  have quiet : Quiet (register (startOver state origin before) origin order total before)
      (updateRecord
        (room (register (startOver state origin before) origin order total before) origin.2).2
        (room (register (startOver state origin before) origin order total before) origin.2).1
        fun current =>
          { current with
            openPushes := current.openPushes ++ [(startOver state origin before).pushCount] }) :=
    (hold_room _ origin.2).quiet.trans (hold_update_record _ _ _).quiet
  have fresh := register_self (startOver state origin before) origin order total before
  have jobless : ∀ job < (register (startOver state origin before) origin order total
      before).jobCount, ((register (startOver state origin before) origin order total
      before).job job).push ≠ (startOver state origin before).pushCount := by
    intro job bound
    exact Nat.ne_of_lt (left.chained.owner job bound)
  have unseen : ∀ other opener, .opened (startOver state origin before).pushCount other opener ∉
      (startOver state origin before).log := by
    intro other opener mem
    exact absurd (left.keyed _ other opener mem).1 (Nat.lt_irrefl _)
  refine
    { tracked := ?_, registered := ?_, noted := mem_cons_self, only := ?_, jobless := ?_
      next := ?_, total := ?_ }
  · refine (added.quiet quiet).note_opened ?_ origin process ?_ ?_ ?_
    · rw [quiet.pushCount]
      exact Nat.lt_succ_self _
    · rw [quiet.key, fresh]
      rfl
    · intro job bound
      rw [quiet.jobCount] at bound
      rw [quiet.job]
      exact jobless job bound
    · intro sameKey
      rw [quiet.isPartial, fresh]
      intro wholly
      refine answers sameKey ?_
      rw [← start_over_claims state origin before, ← sameKey]
      exact wholly
  · exact (room_pushes _ origin.2).symm ▸ get_set_self _ _ _
  · intro other opener mem
    rcases mem_cons.mp mem with new | old
    · cases new
      exact ⟨rfl, rfl⟩
    · exact absurd ((quiet.log_mem (by simp [Minor])).mp old) (unseen other opener)
  · intro job bound
    have inside : job < (register (startOver state origin before) origin order total
        before).jobCount := lt_of_lt_of_eq bound quiet.jobCount
    have kept := congrFun quiet.job job
    exact fun same => jobless job inside (kept ▸ same)
  · exact (quiet.next _).trans (congrArg Push.next fresh)
  · exact (quiet.total _).trans (congrArg Push.total fresh)

omit [SentRow T] in
theorem frame_place {frame : PushFrame} {source : Sent T} (framed : FrameSent frame source)
    {index total : Int} (place : frame.place = some (index, total)) :
    index = source.index ∧ total = source.plan.length ∧ index < total := by
  simp only [PushFrame.place, framed.1, framed.2.1] at place
  split_ifs at place with valid
  cases place
  exact ⟨rfl, rfl, valid.2.2.2.2⟩

theorem Opened.facts {total : Int}
    (opened : Opened sent unclaimed key origin process total push state) {plan : List (SentBatch T)}
    (length : total = plan.length) : Facts sent state push plan where
  total := opened.total.trans length
  next := by
    refine ⟨0, opened.next, Nat.zero_le _, ?_, ?_⟩
    · intro index impossible
      omega
    · intro job bound same
      exact absurd same (opened.jobless job bound)
  increasing := by
    intro left right less bound leftOwner
    exact absurd leftOwner (opened.jobless left (by omega))

theorem Opened.arrived {frame : PushFrame}
    (opened : Opened sent unclaimed key origin process ((frame.place.map Prod.snd).getD 0) push state)
    (framed : origin = key → FrameSent frame (sent process)) :
    Arrived sent unclaimed key origin frame.pushOrder frame.place process push state where
  tracked := opened.tracked
  registered := opened.registered
  known := ⟨origin, process, opened.noted⟩
  unfinished := fun job bound same => absurd same (opened.jobless job bound)
  facts := by
    intro opener mem _ follows
    obtain ⟨sameKey, sameOpener⟩ := opened.only key opener mem
    subst sameOpener
    cases place : frame.place with
    | none => simp [continues, place] at follows
    | some spot =>
      obtain ⟨index, total⟩ := spot
      have length : total = (sent opener).plan.length :=
        (frame_place (framed sameKey.symm) place).2.1
      refine ⟨opened.facts ?_, rfl⟩
      rw [place]
      exact length

theorem Arrived.broken {order : Option PushOrder} {place : Option (Int × Int)}
    (arrived : Arrived sent unclaimed key origin order place process push state) :
    Arrived sent unclaimed key origin order place process push
      (updatePush state push fun record => { record with broken := true }) where
  tracked := arrived.tracked.break_push push
  registered := arrived.registered
  known := arrived.known
  unfinished := arrived.unfinished
  facts := by
    intro opener _ whole
    rw [update_push_self] at whole
    cases whole

theorem Tracked.push_for (tracked : Tracked sent unclaimed key none state) (origin : Key)
    (frame : PushFrame) (process : Proc)
    (honest : origin = key →
      FrameSent frame (sent process) ∧ OwnFrame sent key state frame process)
    (answers : origin = key → opens state key frame.place = true →
      state.claims.has key = false → unclaimed process) :
    Arrived sent unclaimed key origin frame.pushOrder frame.place process
      (pushFor state origin frame.pushOrder frame.place process).1
      (pushFor state origin frame.pushOrder frame.place process).2 := by
  have framed : origin = key → FrameSent frame (sent process) := fun same => (honest same).1
  unfold pushFor
  split
  · rename_i current found
    split_ifs with restarted
    · refine (tracked.start origin frame.pushOrder _ found process ?_).arrived framed
      intro sameKey
      exact answers sameKey (sameKey ▸ restarted)
    · obtain ⟨known, sameKey⟩ := tracked.registered origin current found
      refine ⟨tracked.exempting current, found, tracked.known current known (by simp), ?_, ?_⟩
      · intro job bound same finish
        have gone := (tracked.finishing job bound finish).1
        rw [same, sameKey] at gone
        exact gone found
      · intro opener mem unbroken follows
        have sameOrigin : origin = key :=
          sameKey.symm.trans (tracked.keyed current key opener mem).2
        refine ⟨tracked.opened current opener mem (by simp) unbroken, ?_⟩
        rw [sameOrigin] at found restarted
        exact (honest sameOrigin).2 current found unbroken follows
          ((not_eq_true _).mp restarted) opener mem
  · rename_i found
    have opening : opens state origin frame.place = true := by simp [opens, found]
    have opened := (tracked.start origin frame.pushOrder ((frame.place.map Prod.snd).getD 0) found
      process fun sameKey => answers sameKey (sameKey ▸ opening)).arrived framed
    dsimp only
    split_ifs
    · exact opened
    · exact opened.broken

omit [SentRow T] in
theorem Facts.extend {before taken : State Proc} {plan : List (SentBatch T)}
    (facts : Facts sent before push plan) {batch : SentBatch T} {count : Nat}
    (next : (before.push push).next = count) (source : sent process = ⟨plan, count⟩)
    (found : plan[count]? = some batch) (job : taken.job = before.job)
    (jobCount : taken.jobCount = before.jobCount)
    (total : (taken.push push).total = (before.push push).total)
    (advanced : (taken.push push).next = count + 1) :
    Facts sent (enqueue taken push (.batch batch.order process)) push plan := by
  obtain ⟨taking, sameNext, -, present, placed⟩ := facts.next
  have sameCount : taking = count := by omega
  subst sameCount
  have within : taking < plan.length := (List.getElem?_eq_some_iff.mp found).1
  have newTask : ((enqueue taken push (.batch batch.order process)).job taken.jobCount).task =
      .batch batch.order process := by rw [enqueue_job_new]
  have oldJob : ∀ index < before.jobCount,
      (enqueue taken push (.batch batch.order process)).job index = before.job index := by
    intro index bound
    rw [enqueue_job_old _ _ _ (by rw [jobCount]; exact bound), job]
  -- a batch of the push is the new one, or was placed before
  have split : ∀ index < taken.jobCount + 1,
      ((enqueue taken push (.batch batch.order process)).job index).push = push →
        ∀ order other, ((enqueue taken push (.batch batch.order process)).job index).task =
          .batch order other →
            (index = before.jobCount ∧ order = batch.order ∧ other = process) ∨
              (index < before.jobCount ∧ (before.job index).push = push ∧
                (before.job index).task = .batch order other) := by
    intro index bound owner order other task
    rw [jobCount] at bound
    rcases Nat.lt_succ_iff_lt_or_eq.mp bound with old | new
    · rw [oldJob index old] at owner task
      exact Or.inr ⟨old, owner, task⟩
    · rw [new, ← jobCount, newTask] at task
      cases task
      exact Or.inl ⟨new, rfl, rfl⟩
  refine ⟨?_, ⟨taking + 1, ?_, within, ?_, ?_⟩, ?_⟩
  · rw [enqueue_push, if_pos rfl]
    exact total.trans facts.total
  · rw [enqueue_push, if_pos rfl]
    exact advanced
  · intro index bound
    rcases Nat.lt_succ_iff_lt_or_eq.mp bound with old | new
    · obtain ⟨frame, frameBound, owner, order, other, task, placedAt⟩ := present index old
      refine ⟨frame, by rw [enqueue_job_count]; omega, ?_, order, other, ?_, placedAt⟩
      · rw [oldJob frame frameBound]
        exact owner
      · rw [oldJob frame frameBound]
        exact task
    · refine ⟨taken.jobCount, by rw [enqueue_job_count]; omega, ?_, batch.order, process, newTask, ?_⟩
      · rw [enqueue_job_new]
      · rw [new]
        exact source
  · intro index bound owner order other task
    rcases split index bound owner order other task with ⟨-, rfl, rfl⟩ | ⟨old, oldOwner, oldTask⟩
    · exact ⟨taking, Nat.lt_succ_self _, source, batch, found, rfl⟩
    · obtain ⟨spot, spotBound, rest⟩ := placed index old oldOwner order other oldTask
      exact ⟨spot, Nat.lt_succ_of_lt spotBound, rest⟩
  · intro left right less bound leftOwner rightOwner leftOrder leftProcess rightOrder rightProcess
      leftTask rightTask
    rcases split left (by rw [enqueue_job_count] at bound; omega) leftOwner leftOrder leftProcess
      leftTask with ⟨leftNew, -, -⟩ | ⟨leftOld, leftOldOwner, leftOldTask⟩
    · rw [enqueue_job_count] at bound
      omega
    · rcases split right bound rightOwner rightOrder rightProcess rightTask with
        ⟨-, -, rfl⟩ | ⟨rightOld, rightOldOwner, rightOldTask⟩
      · obtain ⟨spot, spotBound, placedAt, -⟩ :=
          placed left leftOld leftOldOwner leftOrder leftProcess leftOldTask
        rw [placedAt, source]
        exact spotBound
      · exact facts.increasing left right less rightOld leftOldOwner rightOldOwner leftOrder
          leftProcess rightOrder rightProcess leftOldTask rightOldTask

theorem Arrived.queued {frame : PushFrame}
    (arrived : Arrived sent unclaimed key origin frame.pushOrder frame.place process push state)
    (framed : origin = key → FrameSent frame (sent process)) {taken : State Proc}
    (quiet : Quiet (updatePush state push (takeFrame frame.pushOrder frame.place)) taken) :
    Tracked sent unclaimed key none (enqueue taken push (.batch frame.pushOrder process)) := by
  obtain ⟨known, sameKey⟩ := arrived.tracked.registered origin push arrived.registered
  have record : ∀ {Value : Type} (project : Push → Value),
      (∀ push : Push, project push.core = project push) →
        project (taken.push push) = project (takeFrame frame.pushOrder frame.place
          (state.push push)) := by
    intro Value project kept
    rw [quiet.field push project kept, update_push_self]
  have weaker : Weaker (state.push push)
      (takeFrame frame.pushOrder frame.place (state.push push)) := by
    refine ⟨rfl, rfl, rfl, ?_, ?_, ?_⟩
    · intro unbroken
      exact (or_eq_false_iff.mp unbroken).1
    · intro overflowed
      exact or_eq_true_iff.mpr (Or.inl (arrived.tracked.overflow push overflowed))
    · intro fitted
      exact ⟨fitted, fun _ floor stored => ⟨floor, le_refl _, stored⟩⟩
  have taking := (arrived.tracked.update_push push _ weaker fun notExempt =>
    absurd rfl notExempt).quiet quiet
  have queued := taking.enqueue (lt_of_lt_of_eq known quiet.pushCount.symm)
    (.batch frame.pushOrder process)
    (fun _ _ _ => ⟨rfl, by
      rw [quiet.jobCount, quiet.job]
      exact arrived.unfinished⟩)
    (by simp)
  refine queued.restore ?_ ?_
  · obtain ⟨opening, opener, mem⟩ := arrived.known
    exact ⟨opening, opener, (quiet.log_mem (by simp [Minor])).mpr mem⟩
  · intro opener mem unbroken
    have earlier : .opened push key opener ∈ state.log :=
      (quiet.log_mem (by simp [Minor])).mp mem
    have sameOrigin : origin = key :=
      sameKey.symm.trans (arrived.tracked.keyed push key opener earlier).2
    rw [enqueue_push, if_pos rfl] at unbroken
    have whole := (record Push.broken fun _ => rfl).symm.trans unbroken
    obtain ⟨wasWhole, follows⟩ := or_eq_false_iff.mp whole
    have continuing : continues (state.push push) frame.pushOrder frame.place = true := by
      simpa using follows
    obtain ⟨facts, samePlan⟩ := arrived.facts opener earlier wasWhole continuing
    obtain ⟨-, -, batch, found, marked⟩ := framed sameOrigin
    cases place : frame.place with
    | none => simp [continues, place] at continuing
    | some spot =>
      obtain ⟨index, total⟩ := spot
      obtain ⟨sameIndex, -, -⟩ := frame_place (framed sameOrigin) place
      simp only [continues, place, and_eq_true, decide_eq_true_eq] at continuing
      have source : sent process = ⟨(sent opener).plan, (sent process).index⟩ := by
        rw [samePlan]
      rw [marked]
      refine facts.extend ?_ source ?_ quiet.job quiet.jobCount
        ?_ ?_
      · rw [← continuing.1.1, sameIndex]
      · rw [samePlan]
        exact found
      · exact record Push.total fun _ => rfl
      · refine (record Push.next fun _ => rfl).trans ?_
        simp only [takeFrame, place, sameIndex]

theorem Tracked.batch (tracked : Tracked sent unclaimed key none state) (peer : Peer) (name : Room)
    (frame : PushFrame) (process : Proc)
    (honest : (peer, name) = key →
      FrameSent frame (sent process) ∧ OwnFrame sent key state frame process)
    (answers : Answers unclaimed key state (.batch peer name frame process)) :
    Tracked sent unclaimed key none (batch state peer name frame process) := by
  have arrived := tracked.push_for (peer, name) frame process honest answers
  have queued := arrived.queued (fun same => (honest same).1)
    ((quiet_arm _ (pushFor state (peer, name) frame.pushOrder frame.place process).1).trans
      (hold_answered _ peer name none).quiet)
  unfold Inbound.batch
  dsimp only
  split_ifs
  · refine queued.finish ?_
    obtain ⟨opening, opener, mem⟩ := arrived.known
    have known := (arrived.tracked.keyed _ opening opener mem).1
    rw [enqueue_push_count, (hold_answered _ peer name none).pushCount]
    exact known
  · exact queued

theorem Tracked.complete (tracked : Tracked sent unclaimed key none state) (peer : Peer) (name : Room) :
    Tracked sent unclaimed key none (complete state peer name).2 := by
  unfold Inbound.complete
  split
  · exact tracked.quiet (hold_answered _ peer name none).quiet
  · rename_i push found
    refine Tracked.quiet ?_ (hold_answered _ peer name none).quiet
    split_ifs
    · exact tracked.finish (tracked.registered _ push found).1
    · exact tracked.quiet (quiet_arm state push)

end Arrivals

theorem Tracked.processed {state : State Proc} {job : Nat} (tracked : Tracked sent unclaimed key none state)
    (processing : (state.job job).stage = .processing) (result : Option BatchOutcome)
    (delivered : Delivered sent key state (.processed job result)) :
    Tracked sent unclaimed key none (processed state job result) := by
  have active : Active (state.job job).stage := by simp [Active, processing]
  have turn := tracked.chained.turn_of_active active
  have failed : Tracked sent unclaimed key none
      (setStage (breakPush state (state.job job).push) job .done) := by
    refine (tracked.break_push _).set_stage (turn.of_same rfl) .done ?_ (by simp)
    intro _ order process _ whole
    have changed : ((breakPush state (state.job job).push).push
        (state.job job).push).broken = false := whole
    rw [breakPush, update_push_self] at changed
    cases changed
  unfold Inbound.processed
  dsimp only
  split
  · rename_i order process outcome task
    exact tracked.account processing task outcome fun same => delivered same order process task
  · exact failed

theorem Tracked.step {state after : State Proc} (tracked : Tracked sent unclaimed key none state)
    {event : Event Proc} (honest : Honest sent key state event)
    (answers : Answers unclaimed key state event) (stepped : step state event = some after) : Tracked sent unclaimed key none after := by
  cases event with
  | expect peer name =>
    cases stepped
    exact tracked.quiet (hold_expect state peer name).quiet
  | answered peer name nonce =>
    cases stepped
    exact tracked.quiet (hold_answered state peer name nonce).quiet
  | batch peer name frame process =>
    cases stepped
    exact tracked.batch peer name frame process
      (fun same => ⟨honest.delivered same, honest.unmixed same⟩) answers
  | complete peer name =>
    cases stepped
    exact tracked.complete peer name
  | reset =>
    cases stepped
    exact tracked.quiet (quiet_reset state)
  | expectTimer wait =>
    simp only [Inbound.step] at stepped
    split_ifs at stepped
    cases stepped
    exact tracked.quiet (hold_expect_timer state wait).quiet
  | stallTimer push =>
    simp only [Inbound.step] at stepped
    split_ifs at stepped with armed
    cases stepped
    exact tracked.stall armed.1
  | startJob job =>
    simp only [Inbound.step] at stepped
    split_ifs at stepped with start
    cases stepped
    exact tracked.start_job start
  | processed job result =>
    simp only [Inbound.step] at stepped
    split_ifs at stepped with processing
    cases stepped
    exact tracked.processed processing result honest.delivered
  | committed job ok =>
    simp only [Inbound.step] at stepped
    split at stepped
    · rename_i rest stage
      cases stepped
      exact tracked.committed stage ok
    · cases stepped
  | released job =>
    simp only [Inbound.step] at stepped
    split_ifs at stepped with releasing
    cases stepped
    have active : Active (state.job job).stage := by simp [Active, releasing]
    have quiet := quiet_settle_done state (state.job job).push
    refine (tracked.quiet quiet).set_stage
      ((tracked.chained.turn_of_active active).of_same quiet.job) .done ?_ (by simp)
    intro _
    refine (tracked.quiet quiet).heard ?_ ?_
    · rw [quiet.job]
      exact active
    · rw [quiet.job, releasing]
      simp

theorem always_answers (key : Key) (state : State Proc) (event : Event Proc) :
    Answers (fun _ => True) key state event := by
  cases event with
  | batch peer name frame process => exact fun _ _ _ => trivial
  | _ => trivial

theorem honest_run_tracked (events : List (Event Proc)) {final : State Proc}
    (honest : Meets step (Honest sent key) (State.init Proc) events)
    (ran : run step (State.init Proc) events = some final) :
    Tracked sent (fun _ => True) key none final :=
  run_keeps
    (fun state event _ tracked honest stepped =>
      tracked.step honest (always_answers key state event) stepped)
    (tracked_init none) honest ran

end AwfulChat.Inbound
