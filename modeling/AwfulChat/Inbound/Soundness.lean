import AwfulChat.Inbound.Proofs

/-!
# Watermark soundness of a paced push

The frames of one peer and room are batches of `planPush`. When the push claims
`lamport` for `sender`, every planned row of that sender below it was in a frame
of this push that `process()` reported on, and no floor told so far is at or
below the claim. A row that `process()` neither held nor put a floor under is
claimed over: an unsigned row, or one whose plugin is gone, leaves no floor.
-/

namespace AwfulChat.Inbound

open Library MessageOrder SyncPush List

set_option autoImplicit false

/-- The fields of a message that its push looks at. -/
structure HistoryRow where
  id : String
  senderId : Sender
  lamport : Int
  type : MessageType
  deriving DecidableEq

instance : SentRow HistoryRow where
  cursor := fun row => ⟨row.lamport, row.id⟩
  type := HistoryRow.type
  senderId := HistoryRow.senderId

section Plans

variable {T : Type} [SentRow T]

/-- One frame of a planned push. -/
structure Planned (T : Type) where
  rows : List T
  plan : PushPlan T
  index : Nat

def sentBatches (batches : List (PushBatch T)) : List (SentBatch T) :=
  batches.map fun batch => { rows := batch.rows, order := some batch.order }

def Planned.sent (frame : Planned T) : Sent T where
  plan := sentBatches (planPush frame.rows frame.plan)
  index := frame.index

/-- A row of the frame that the report neither holds nor floors. -/
def LeftOut (outcome : BatchOutcome) (row : HeldRow) : Prop :=
  row ∉ outcome.held ∧ BelowFloor outcome.floors row.senderId row.lamport

omit [SentRow T] in
theorem sent_batch_at {batches : List (PushBatch T)} {index : Nat} {sent : SentBatch T}
    (found : (sentBatches batches)[index]? = some sent) :
    ∃ batch, batches[index]? = some batch ∧
      sent = { rows := batch.rows, order := some batch.order } := by
  simp only [sentBatches, List.getElem?_map, Option.map_eq_some_iff] at found
  obtain ⟨batch, placed, rfl⟩ := found
  exact ⟨batch, placed, rfl⟩

omit [SentRow T] in
theorem sent_batch_of {batches : List (PushBatch T)} {index : Nat} {batch : PushBatch T}
    (placed : batches[index]? = some batch) :
    (sentBatches batches)[index]? =
      some { rows := batch.rows, order := some batch.order } := by
  simp only [sentBatches, List.getElem?_map, placed, Option.map_some]

variable {Proc : Type} {origin : Proc → Planned T}

theorem Proved.covers {log : List (Call Proc)} {push : Nat} {rows : List T} {plan : PushPlan T}
    {sender : Sender} {lamport : Int}
    (proved : Proved (fun process => (origin process).sent) log push
      (sentBatches (planPush rows plan)) sender lamport)
    {row : T} (planned : row ∈ rows) (below : (Row.cursor row).lamport < lamport) :
    ∃ process outcome, .outcome push process outcome ∈ log ∧
      ∃ batch, (origin process).sent.batch = some batch ∧ row ∈ batch.rows := by
  have carried : ∀ index source, (planPush rows plan)[index]? = some source → row ∈ source.rows →
      Reported (fun process => (origin process).sent) log push
        (sentBatches (planPush rows plan)) index →
      ∃ process outcome, .outcome push process outcome ∈ log ∧
        ∃ batch, (origin process).sent.batch = some batch ∧ row ∈ batch.rows := by
    rintro index batch placed mem ⟨process, outcome, told, same⟩
    refine ⟨process, outcome, told,
      { rows := batch.rows, order := some batch.order }, ?_, mem⟩
    have source : (origin process).sent =
        { plan := sentBatches (planPush rows plan), index := index } := same
    rw [Sent.batch, source]
    exact sent_batch_of placed
  rcases proved.reach with ⟨index, sentBatch, found, marked, claimed, earlier⟩ | whole
  · obtain ⟨batch, placed, rfl⟩ := sent_batch_at found
    obtain ⟨claimedRow, claimedMember, claimedSame⟩ := mem_map.mp claimed
    have claimedLamport : (Row.cursor claimedRow).lamport = lamport :=
      congrArg HeldRow.lamport claimedSame
    obtain ⟨before, upTo, source, sourcePlaced, mem⟩ :=
      asc_batch_covers_below placed (Option.some.inj marked) claimedMember planned
        (by rw [claimedLamport]; exact below)
    exact carried before source sourcePlaced mem (earlier before upTo)
  · have sent := (mem_plan_push_rows rows plan row).mpr planned
    obtain ⟨source, sourceMember, mem⟩ := mem_batch_rows.mp sent
    obtain ⟨index, bound, placed⟩ := getElem_of_mem sourceMember
    refine carried index source ?_ mem (whole index ?_)
    · rw [List.getElem?_eq_getElem bound, placed]
    · simpa [sentBatches] using bound

end Plans

theorem Sound.at_commit {Proc T : Type} [SentRow T] {sent : Proc → Sent T} {unclaimed : Proc → Prop} {key : Key}
    {log newer older : List (Call Proc)} {push : Nat} {name : Room} {sender : Sender}
    {lamport : Int} (sound : Sound sent unclaimed key log)
    (split : log = newer ++ .commit push name sender lamport :: older) :
    (∃ origin opener, .opened push origin opener ∈ older) ∧
      ∀ opener, .opened push key opener ∈ older →
        unclaimed opener ∧ Proved sent older push (sent opener).plan sender lamport := by
  induction newer generalizing log with
  | nil =>
    subst split
    exact sound.1 push name sender lamport rfl
  | cons call rest ih =>
    subst split
    exact ih sound.2 rfl

/-- Claims of a paced push: see the module text. -/
theorem paced_claim_covers_plan {T Proc : Type} [SentRow T] (origin : Proc → Planned T)
    (key : Key) (events : List (Event Proc)) (final : State Proc)
    (honest : Meets step (Honest (fun process => (origin process).sent) key) (State.init Proc)
      events)
    (ran : run step (State.init Proc) events = some final)
    (newer older : List (Call Proc)) (push : Nat) (name : Room) (sender : Sender) (lamport : Int)
    (claimed : final.log = newer ++ .commit push name sender lamport :: older)
    (opener : Proc) (opened : .opened push key opener ∈ older) :
    (∀ row ∈ (origin opener).rows, SentRow.senderId row = sender →
      (Row.cursor row).lamport < lamport →
        ∃ process outcome, .outcome push process outcome ∈ older ∧
          (∃ batch, (origin process).sent.batch = some batch ∧ row ∈ batch.rows) ∧
            (heldRow row ∈ outcome.held ∨ LeftOut outcome (heldRow row))) ∧
      ∀ process outcome, .outcome push process outcome ∈ older →
        ∀ floor, outcome.floors.get sender = some floor → lamport < floor := by
  have proved :=
    (((honest_run_tracked events honest ran).sound.at_commit claimed).2 opener opened).2
  refine ⟨?_, proved.floors⟩
  intro row planned sameSender below
  obtain ⟨process, outcome, told, carried⟩ := proved.covers planned below
  refine ⟨process, outcome, told, carried, ?_⟩
  by_cases held : heldRow row ∈ outcome.held
  · exact Or.inl held
  · refine Or.inr ⟨held, ?_⟩
    intro floor floored
    have above := proved.floors process outcome told floor (by rw [← sameSender]; exact floored)
    exact below.trans above

/-- Every planned row below a claim of a push of `key` is held. -/
def HeldBelow {T Proc : Type} [SentRow T] (origin : Proc → Planned T) (key : Key)
    (log : List (Call Proc)) : Prop :=
  ∀ newer older push name sender lamport,
    log = newer ++ .commit push name sender lamport :: older →
      ∀ opener, .opened push key opener ∈ older →
        ∀ row ∈ (origin opener).rows, SentRow.senderId row = sender →
          (Row.cursor row).lamport < lamport →
            ∃ process outcome, .outcome push process outcome ∈ older ∧ heldRow row ∈ outcome.held

section Schedules

def textRow (id : String) (lamport : Int) : HistoryRow := ⟨id, "alice", lamport, .text⟩

def rowsPerBatch (batchSize : Nat) : PushPlan HistoryRow where
  batchSize := batchSize
  pageSize := 30
  maxBatchBytes := 1000
  sizeOf := fun _ => 1

def ascFrame (index total : Int) : PushFrame := ⟨.int index, .int total, .text "asc"⟩

def holding (lamports : List Int) : BatchOutcome where
  held := lamports.map fun lamport => ⟨"alice", lamport⟩
  floors := .empty

def pairPlan (_ : Unit) : Planned HistoryRow where
  rows := [textRow "a" 1, textRow "b" 2]
  plan := rowsPerBatch 2
  index := 0

def pairRun (lamports : List Int) : List (Event Unit) :=
  [.batch "bob" "den" (ascFrame 0 1) (), .startJob 0, .processed 0 (some (holding lamports))]

def pairHistory (lamports : List Int) : List (Call Unit) :=
  [.outcome 0 () (holding lamports), .answered "bob" "den" none, .opened 0 ("bob", "den") (),
    .hold "den"]

theorem pair_run_honest (lamports : List Int) (sub : ∀ lamport ∈ lamports, lamport = 1 ∨ lamport = 2) :
    Meets step (Honest (fun process => (pairPlan process).sent) ("bob", "den")) (State.init Unit)
      (pairRun lamports) := by
  refine Meets.cons ⟨fun _ => ⟨rfl, rfl, _, rfl, rfl⟩, ?_⟩ rfl
    (Meets.cons ⟨trivial, trivial⟩ rfl (Meets.cons ⟨?_, trivial⟩ rfl trivial))
  · nofun
  · rintro _ order ⟨⟩ _
    rintro batch ⟨⟩ row held
    obtain ⟨lamport, mem, rfl⟩ := mem_map.mp held
    rcases sub lamport mem with rfl | rfl <;> decide

theorem pair_claim_covers_plan :
    ∃ final, run step (State.init Unit) (pairRun [1, 2]) = some final ∧
      final.log = .commit 0 "den" "alice" 2 :: pairHistory [1, 2] ∧
      (∀ row ∈ (pairPlan ()).rows, SentRow.senderId row = "alice" → (Row.cursor row).lamport < 2 →
        ∃ process outcome, .outcome 0 process outcome ∈ pairHistory [1, 2] ∧
          (∃ batch, (pairPlan process).sent.batch = some batch ∧ row ∈ batch.rows) ∧
            (heldRow row ∈ outcome.held ∨ LeftOut outcome (heldRow row))) ∧
      ∀ process outcome, .outcome 0 process outcome ∈ pairHistory [1, 2] →
        ∀ floor, outcome.floors.get "alice" = some floor → 2 < floor := by
  refine ⟨_, rfl, rfl, ?_⟩
  exact paced_claim_covers_plan pairPlan ("bob", "den") (pairRun [1, 2]) _
    (pair_run_honest [1, 2] (by decide)) rfl [] (pairHistory [1, 2]) 0 "den" "alice" 2 rfl ()
    (by simp [pairHistory])

def restartedPlan : Bool → Planned HistoryRow
  | false => { rows := [textRow "a" 1, textRow "b" 2], plan := rowsPerBatch 1, index := 0 }
  | true => { rows := [textRow "c" 3, textRow "d" 4], plan := rowsPerBatch 1, index := 1 }

def restartedRun : List (Event Bool) :=
  [.batch "bob" "den" (ascFrame 0 2) false, .batch "bob" "den" (ascFrame 1 2) true,
    .startJob 0, .processed 0 (some (holding [1])), .committed 0 true,
    .startJob 1, .processed 1 (some (holding [4]))]

def restartedHistory : List (Call Bool) :=
  [.outcome 0 true (holding [4]), .commit 0 "den" "alice" 1, .outcome 0 false (holding [1]),
    .answered "bob" "den" none, .answered "bob" "den" none, .opened 0 ("bob", "den") false,
    .hold "den"]

theorem restarted_run_delivered :
    Meets step (Delivered (fun process => (restartedPlan process).sent) ("bob", "den"))
      (State.init Bool) restartedRun := by
  refine Meets.cons (fun _ => ⟨rfl, rfl, _, rfl, rfl⟩) rfl
    (Meets.cons (fun _ => ⟨rfl, rfl, _, rfl, rfl⟩) rfl
    (Meets.cons trivial rfl (Meets.cons ?_ rfl (Meets.cons trivial rfl (Meets.cons trivial rfl
    (Meets.cons ?_ rfl trivial))))))
  · intro _ order process task
    have same : Task.batch (some .asc) false = Task.batch order process := task
    cases same
    rintro batch ⟨⟩
    decide
  · intro _ order process task
    have same : Task.batch (some .asc) true = Task.batch order process := task
    cases same
    rintro batch ⟨⟩
    decide

/-- A row that `process()` leaves out without a floor is claimed over, and so is
one whose lost frame a later plan's frame stood in for. -/
theorem planned_rows_claimed_over :
    (∃ final, run step (State.init Unit) (pairRun [2]) = some final ∧
      Meets step (Honest (fun process => (pairPlan process).sent) ("bob", "den"))
        (State.init Unit) (pairRun [2]) ∧ ¬HeldBelow pairPlan ("bob", "den") final.log) ∧
    ∃ final, run step (State.init Bool) restartedRun = some final ∧
      Meets step (Delivered (fun process => (restartedPlan process).sent) ("bob", "den"))
        (State.init Bool) restartedRun ∧ ¬HeldBelow restartedPlan ("bob", "den") final.log := by
  refine ⟨⟨_, rfl, pair_run_honest [2] (by decide), ?_⟩, ⟨_, rfl, restarted_run_delivered, ?_⟩⟩
  · intro held
    obtain ⟨process, outcome, told, row⟩ := held [] (pairHistory [2]) 0 "den" "alice" 2 rfl ()
      (by simp [pairHistory]) (textRow "a" 1) (by decide) rfl (by decide)
    have same : outcome = holding [2] := by simpa [pairHistory] using told
    rw [same] at row
    exact absurd row (by decide)
  · intro held
    obtain ⟨process, outcome, told, row⟩ := held [] restartedHistory 0 "den" "alice" 4 rfl false
      (by simp [restartedHistory]) (textRow "b" 2) (by decide) rfl (by decide)
    have same : outcome = holding [4] ∨ outcome = holding [1] := by
      simp only [restartedHistory, mem_cons, Call.outcome.injEq, reduceCtorEq, not_mem_nil,
        or_false, false_or] at told
      rcases told with ⟨-, -, later⟩ | ⟨-, -, first⟩
      · exact Or.inl later
      · exact Or.inr first
    rcases same with rfl | rfl <;> exact absurd row (by decide)

end Schedules

end AwfulChat.Inbound
