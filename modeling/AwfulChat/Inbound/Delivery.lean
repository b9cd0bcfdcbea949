import AwfulChat.Inbound.Soundness

/-!
# A push that arrives intact until it is cut

The first `cut` frames of a push arrive in order, every row of them is held and
every commit succeeds; then the channel is gone and the push stalls. Whatever
the order of the steps in between, once the queued jobs are over each row of an
oldest-first frame that arrived is claimed.
-/

namespace AwfulChat.Inbound

open Library MessageOrder SyncPush List

set_option autoImplicit false

section Delivery

variable {T : Type} [SentRow T]

def orderText : PushOrder → String
  | .head => "head"
  | .asc => "asc"

/-- The frame that carries batch `index` of a push. -/
def frameAt (batches : List (PushBatch T)) (index : Nat) : PushFrame where
  batchIndex := .int index
  totalBatches := .int batches.length
  order := match batches[index]? with
    | some batch => .text (orderText batch.order)
    | none => .other

/-- Every row of the batch is held, and none was refused. -/
def wholeReport (batches : List (PushBatch T)) (index : Nat) : BatchOutcome where
  held := match batches[index]? with
    | some batch => batch.rows.map heldRow
    | none => []
  floors := .empty

def frameSent (batches : List (PushBatch T)) (index : Nat) : Sent T where
  plan := sentBatches batches
  index := index

/-- One step of an intact delivery. A push is given up only once its last frame
is in. -/
def Intact (batches : List (PushBatch T)) (key : Key) (cut : Nat) (state : State Nat) :
    Event Nat → Prop
  | .batch peer room frame index =>
    (peer, room) = key ∧ frame = frameAt batches index ∧ index < batches.length
  | .processed job result => ∃ order index, (state.job job).task = .batch order index ∧
      result = some (wholeReport batches index)
  | .committed _ ok => ok = true
  | .stallTimer push => (state.push push).next = cut
  | .complete _ _ => False
  | .reset => False
  | _ => True

def arrivals : List (Event Nat) → List Nat
  | [] => []
  | .batch _ _ _ index :: rest => index :: arrivals rest
  | _ :: rest => arrivals rest

/-- Head batches lead. -/
def HeadsFirst (batches : List (PushBatch T)) : Prop :=
  ∀ (earlier later : Nat) (left right : PushBatch T), earlier ≤ later →
    batches[earlier]? = some left → batches[later]? = some right → left.order = .asc →
      right.order = .asc

theorem plan_push_heads_first (rows : List T) (plan : PushPlan T) :
    HeadsFirst (planPush rows plan) := by
  intro earlier later left right upTo leftPlaced rightPlaced leftAsc
  obtain ⟨behind, -⟩ := asc_index_split leftPlaced leftAsc
  rw [plan_push_eq, List.getElem?_append_right (by omega)] at rightPlaced
  exact asc_batches_order (mem_of_getElem? rightPlaced)

omit [SentRow T] in
theorem frame_at_order {batches : List (PushBatch T)} {index : Nat} {batch : PushBatch T}
    (placed : batches[index]? = some batch) :
    (frameAt batches index).pushOrder = some batch.order := by
  simp only [frameAt, placed, PushFrame.pushOrder, orderText]
  cases batch.order <;> decide

omit [SentRow T] in
theorem frame_at_place {batches : List (PushBatch T)} {index : Nat}
    (small : (batches.length : Int) ≤ maxSafeInteger) (inside : index < batches.length) :
    (frameAt batches index).place = some ((index : Int), (batches.length : Int)) := by
  simp only [frameAt, PushFrame.place]
  rw [if_pos]
  have floor : -maxSafeInteger ≤ 0 := by decide
  simp only [isSafeInteger, Bool.and_eq_true, decide_eq_true_eq]
  omega

/-- The record of a push that took in `count` frames and lost none. -/
structure Clean (batches : List (PushBatch T)) (origin : Key) (count : Nat) (push : Push) :
    Prop where
  key : push.key = origin
  room : push.room = origin.2
  first : push.first ≠ none
  phase : ∀ batch, batches[count - 1]? = some batch → push.phase = some batch.order
  next : push.next = count
  total : push.total = batches.length
  broken : push.broken = false
  isPartial : push.isPartial = false
  floors : push.floors = .empty
  overflowed : push.overflowed = false

/-- A row is claimed once a commit of its sender reaches it. -/
def Claimed (log : List (Call Nat)) (name : Room) (row : HeldRow) : Prop :=
  ∃ lamport, row.lamport ≤ lamport ∧ .commit 0 name row.senderId lamport ∈ log

/-- How far a job is with the claims of its frame. -/
def Progress (batches : List (PushBatch T)) (name : Room) (log : List (Call Nat))
    (job : Job Nat) : Prop :=
  ∀ index batch, job.task = .batch (some .asc) index → batches[index]? = some batch →
    ∀ row ∈ batch.rows, validRow (heldRow row) = true →
      job.stage = .queued ∨ job.stage = .processing ∨ Claimed log name (heldRow row) ∨
        ∃ rest lamport, job.stage = .committing rest ∧ (heldRow row).lamport ≤ lamport ∧
          ((heldRow row).senderId, lamport) ∈ rest

/-- The state of an intact delivery after `count` frames. -/
structure Prefix (batches : List (PushBatch T)) (key : Key) (cut count : Nat)
    (state : State Nat) : Prop where
  claims : state.claims = .empty
  pushCount : state.pushCount = if count = 0 then 0 else 1
  record : 0 < count → Clean batches key count (state.push 0)
  registered : 0 < count → count = batches.length ∨ count = cut ∨
    state.pushes.get key = some 0
  ending : ∀ job < state.jobCount, (state.job job).task = .finish ∨
    (state.job job).task = .endShort → count = batches.length ∨ count = cut
  placed : ∀ job < state.jobCount, ∀ order index, (state.job job).task = .batch order index →
    ∃ batch, batches[index]? = some batch ∧ order = some batch.order ∧ index < count
  present : ∀ index < count, ∃ job < state.jobCount, ∃ order,
    (state.job job).task = .batch order index
  heard : ∀ push index outcome, .outcome push index outcome ∈ state.log → index < count
  progress : ∀ job < state.jobCount, Progress batches key.2 state.log (state.job job)

section Steps

variable {batches : List (PushBatch T)} {key : Key} {cut count : Nat} {state after : State Nat}

theorem Progress.grow {log later : List (Call Nat)} {name : Room} {job : Job Nat}
    (progress : Progress batches name log job) (grown : ∀ call ∈ log, call ∈ later) :
    Progress batches name later job := by
  intro index batch task placed row mem valid
  rcases progress index batch task placed row mem valid with
    queued | processing | ⟨lamport, above, claimed⟩ | committing
  · exact Or.inl queued
  · exact Or.inr (Or.inl processing)
  · exact Or.inr (Or.inr (Or.inl ⟨lamport, above, grown _ claimed⟩))
  · exact Or.inr (Or.inr (Or.inr committing))

omit [SentRow T] in
theorem Clean.of_core {before now : Push} (clean : Clean batches key count before)
    (same : now.core = before.core) : Clean batches key count now := by
  have field : ∀ {Value : Type} (project : Push → Value),
      (∀ record : Push, project record.core = project record) → project now = project before := by
    intro Value project kept
    rw [← kept, same, kept]
  refine ⟨?_, ?_, ?_, ?_, ?_, ?_, ?_, ?_, ?_, ?_⟩
  · exact (field Push.key fun _ => rfl).trans clean.key
  · exact (field Push.room fun _ => rfl).trans clean.room
  · rw [field Push.first fun _ => rfl]
    exact clean.first
  · rw [field Push.phase fun _ => rfl]
    exact clean.phase
  · exact (field Push.next fun _ => rfl).trans clean.next
  · exact (field Push.total fun _ => rfl).trans clean.total
  · exact (field Push.broken fun _ => rfl).trans clean.broken
  · exact (field Push.isPartial fun _ => rfl).trans clean.isPartial
  · exact (field Push.floors fun _ => rfl).trans clean.floors
  · exact (field Push.overflowed fun _ => rfl).trans clean.overflowed

section

variable (held : Prefix batches key cut count state)
include held

theorem Prefix.quiet (quiet : Quiet state after)
    (claims : after.claims = state.claims)
    (registered : 0 < count → count = batches.length ∨ count = cut ∨
      after.pushes.get key = some 0) : Prefix batches key cut count after where
  claims := claims.trans held.claims
  pushCount := quiet.pushCount.trans held.pushCount
  record := fun some => (held.record some).of_core (quiet.core 0)
  registered := registered
  ending := by
    rw [quiet.jobCount, quiet.job]
    exact held.ending
  placed := by
    rw [quiet.jobCount, quiet.job]
    exact held.placed
  present := by
    rw [quiet.jobCount, quiet.job]
    exact held.present
  heard := by
    intro push index outcome mem
    exact held.heard push index outcome ((quiet.log_mem (by simp [Minor])).mp mem)
  progress := by
    rw [quiet.jobCount, quiet.job]
    intro job bound
    refine (held.progress job bound).grow ?_
    intro call mem
    obtain ⟨extra, extended, -⟩ := quiet.log
    rw [extended]
    exact mem_append_right _ mem

theorem Prefix.hold (only : HoldOnly state after) :
    Prefix batches key cut count after := by
  refine held.quiet only.quiet only.claims ?_
  intro some
  rw [only.pushes]
  exact held.registered some

theorem Prefix.set_stage (job : Nat) (stage : Stage)
    (owed : job < state.jobCount →
      Progress batches key.2 state.log { state.job job with stage := stage }) :
    Prefix batches key cut count (setStage state job stage) where
  claims := held.claims
  pushCount := held.pushCount
  record := held.record
  registered := held.registered
  ending := by
    intro other bound
    rw [set_stage_task]
    exact held.ending other bound
  placed := by
    intro other bound order index
    rw [set_stage_task]
    exact held.placed other bound order index
  present := by
    intro index bound
    obtain ⟨other, otherBound, order, task⟩ := held.present index bound
    refine ⟨other, otherBound, order, ?_⟩
    rw [set_stage_task]
    exact task
  heard := held.heard
  progress := by
    intro other bound
    by_cases hit : other = job
    · subst other
      have moved : (setStage state job stage).job job = { state.job job with stage := stage } := by
        simp [setStage]
      rw [moved]
      exact owed bound
    · have kept : (setStage state job stage).job other = state.job other := by
        simp [setStage, hit]
      rw [kept]
      exact held.progress other bound

end

theorem progress_of_task {name : Room} {log : List (Call Nat)} {job : Job Nat}
    (other : ∀ order index, job.task ≠ .batch order index) : Progress batches name log job := by
  intro index batch task
  exact absurd task (other _ index)

theorem end_push_claims (state : State Nat) (job push : Nat) (completed : Bool)
    (marked : (state.push push).first ≠ none) :
    (endPush state job push completed).claims = state.claims := by
  have closed : (closePush state push completed).claims = state.claims := by
    unfold closePush
    rw [if_neg (fun both => marked both.1)]
    unfold unregister
    split_ifs <;> rfl
  have settled : ∀ past : State Nat, (settleDone past push).claims = past.claims := by
    intro past
    unfold settleDone
    split_ifs <;> rfl
  unfold endPush
  split_ifs
  · rfl
  · dsimp only
    split
    · exact (settled _).trans closed
    · rename_i record found
      have left := (hold_leave_room (closePush state push completed) push record completed).claims
      split_ifs
      · exact ((hold_settle _ _ _).claims.trans left).trans closed
      · exact ((settled _).trans left).trans closed

variable {order : Option PushOrder} {job : Nat}

section

variable (held : Prefix batches key cut count state)
include held

theorem Prefix.end_push (bound : job < state.jobCount)
    (owner : (state.job job).push = 0) (some : 0 < count)
    (past : (state.job job).task = .finish ∨ (state.job job).task = .endShort) (completed : Bool) :
    Prefix batches key cut count (endPush state job (state.job job).push completed) := by
  have ends := held.ending job bound past
  have claims := end_push_claims state job (state.job job).push completed
    (by rw [owner]; exact (held.record some).first)
  obtain ⟨ended, stage, quiet, moved, -⟩ :=
    end_push_quiet state job (state.job job).push completed
  rw [moved] at claims ⊢
  have settled : Prefix batches key cut count ended :=
    held.quiet quiet claims fun _ => ends.elim Or.inl fun reached => Or.inr (Or.inl reached)
  refine settled.set_stage job stage fun _ => progress_of_task ?_
  intro order index task
  have same : (state.job job).task = .batch order index := by
    rw [← quiet.job]
    exact task
  rcases past with finish | short
  · rw [finish] at same
    cases same
  · rw [short] at same
    cases same

theorem Prefix.owner (chained : Chained state)
    (bound : job < state.jobCount) : (state.job job).push = 0 ∧ 0 < count := by
  have known := chained.owner job bound
  rw [held.pushCount] at known
  split_ifs at known
  · omega
  · exact ⟨by omega, by omega⟩

theorem Prefix.note_commit (push : Nat) (name : Room) (sender : Sender) (lamport : Int) :
    Prefix batches key cut count (note state (.commit push name sender lamport)) :=
  { held with
    heard := by
      intro other index outcome mem
      exact held.heard other index outcome (by simpa [note] using mem)
    progress := by
      intro job bound
      exact (held.progress job bound).grow fun call mem => mem_cons_of_mem _ mem }

theorem Prefix.commit_next
    (bound : job < state.jobCount) (owner : (state.job job).push = 0) (some : 0 < count)
    (claims : List (Sender × Int))
    (owed : ∀ index batch, (state.job job).task = .batch (.some .asc) index →
      batches[index]? = .some batch → ∀ row ∈ batch.rows, validRow (heldRow row) = true →
        Claimed state.log key.2 (heldRow row) ∨ ∃ lamport, (heldRow row).lamport ≤ lamport ∧
          ((heldRow row).senderId, lamport) ∈ claims) :
    Prefix batches key cut count (commitNext state job (state.job job).push claims) := by
  cases claims with
  | nil =>
    simp only [commitNext]
    split
    · rename_i task
      exact held.end_push bound owner some (Or.inl task) true
    · refine held.set_stage job .done fun _ => ?_
      intro index batch task placed row mem valid
      rcases owed index batch task placed row mem valid with claimed | ⟨lamport, -, impossible⟩
      · exact Or.inr (Or.inr (Or.inl claimed))
      · cases impossible
  | cons claim rest =>
    obtain ⟨sender, lamport⟩ := claim
    simp only [commitNext]
    refine (held.note_commit _ _ _ _).set_stage job (.committing rest) fun _ => ?_
    intro index batch task placed row mem valid
    rcases owed index batch task placed row mem valid with
      ⟨reached, above, claimed⟩ | ⟨reached, above, listed⟩
    · exact Or.inr (Or.inr (Or.inl ⟨reached, above, mem_cons_of_mem _ claimed⟩))
    · rcases mem_cons.mp listed with now | later
      · refine Or.inr (Or.inr (Or.inl ⟨reached, above, ?_⟩))
        have same : (.commit 0 key.2 (heldRow row).senderId reached : Call Nat) =
            .commit (state.job job).push (state.push (state.job job).push).room sender
              lamport := by
          rw [owner, (held.record some).room]
          cases now
          rfl
        rw [same]
        exact mem_cons_self
      · exact Or.inr (Or.inr (Or.inr ⟨rest, reached, rfl, above, later⟩))

theorem Prefix.committed (chained : Chained state)
    {rest : List (Sender × Int)} (stage : (state.job job).stage = .committing rest) :
    Prefix batches key cut count (committed state job rest true) := by
  have bound := chained.bound_of_active (by rw [stage]; simp)
  obtain ⟨owner, some⟩ := held.owner chained bound
  refine held.commit_next bound owner some rest ?_
  intro index batch task placed row mem valid
  rcases held.progress job bound index batch task placed row mem valid with
    queued | processing | claimed | ⟨left, lamport, committing, above, listed⟩
  · rw [stage] at queued
    cases queued
  · rw [stage] at processing
    cases processing
  · exact Or.inl claimed
  · rw [stage] at committing
    cases committing
    exact Or.inr ⟨lamport, above, listed⟩

theorem Prefix.update_push (change : Push → Push)
    (kept : ∀ record, Clean batches key count record → Clean batches key count (change record)) :
    Prefix batches key cut count (updatePush state 0 change) :=
  { held with
    record := by
      intro taken
      rw [update_push_self]
      exact kept _ (held.record taken) }

end

theorem account_unfloored (state : State Nat) (job push : Nat) (order : Option PushOrder)
    (outcome : BatchOutcome) (fitted : (state.push push).overflowed = false)
    (unfloored : outcome.floors = .empty) :
    account state job push order outcome =
      if order = some .asc then
        if (state.push push).broken ∨ (state.push push).isPartial then setStage state job .done
        else commitNext state job push
          (claimable ((outcome.held.filter validRow).map fun row => (row.senderId, row.lamport))
            (state.push push).floors).entries
      else setStage
        (updatePush state push fun current =>
          { current with
            pending := (outcome.held.filter validRow).foldl addPending current.pending })
        job .done := by
  have same : updatePush state push (fun current =>
      { current with floors := (state.push push).floors }) = state := by
    simp [updatePush]
  unfold account
  dsimp only
  rw [fitted, unfloored]
  have noFloors : (OrderedMap.empty : OrderedMap Sender Int).entries = [] := rfl
  rw [noFloors]
  simp only [foldFloors, same]
  rfl

section

variable (held : Prefix batches key cut count state)
include held

theorem Prefix.processed (chained : Chained state)
    (processing : (state.job job).stage = .processing) {index : Nat}
    (task : (state.job job).task = .batch order index) :
    Prefix batches key cut count (processed state job (some (wholeReport batches index))) := by
  have bound := chained.bound_of_active (by rw [processing]; simp)
  obtain ⟨owner, taken⟩ := held.owner chained bound
  have clean := held.record taken
  obtain ⟨batch, placed, marked, within⟩ := held.placed job bound order index task
  have noted : Prefix batches key cut count
      (note state (.outcome (state.job job).push index (wholeReport batches index))) :=
    { held with
      heard := by
        intro push other outcome mem
        rcases mem_cons.mp mem with new | old
        · cases new
          exact within
        · exact held.heard push other outcome old
      progress := by
        intro other otherBound
        exact (held.progress other otherBound).grow fun call mem =>
          mem_cons_of_mem _ mem }
  have fitted : (state.push (state.job job).push).overflowed = false := by
    rw [owner]
    exact clean.overflowed
  unfold Inbound.processed
  simp only [task]
  rw [account_unfloored
    (note state (.outcome (state.job job).push index (wholeReport batches index))) job
    (state.job job).push order (wholeReport batches index) fitted rfl]
  by_cases asc : order = some .asc
  · rw [if_pos asc, if_neg]
    · refine noted.commit_next bound owner taken _ ?_
      intro other otherBatch otherTask otherPlaced row mem valid
      have sameTask : (state.job job).task = .batch (some .asc) other := otherTask
      rw [task] at sameTask
      cases sameTask
      have held : heldRow row ∈ (wholeReport batches index).held := by
        unfold wholeReport
        rw [otherPlaced]
        exact mem_map_of_mem mem
      have listed : ((heldRow row).senderId, (heldRow row).lamport) ∈
          ((wholeReport batches index).held.filter validRow).map
            fun row => (row.senderId, row.lamport) :=
        mem_map.mpr ⟨heldRow row, mem_filter.mpr ⟨held, valid⟩, rfl⟩
      have positive : 0 ≤ (heldRow row).lamport := by
        simp only [validRow, Bool.and_eq_true, decide_eq_true_eq] at valid
        exact valid.2
      refine Or.inr (claimable_complete listed ?_ positive)
      intro floor floored
      have noFloor : (state.push (state.job job).push).floors.get (heldRow row).senderId =
          some floor := floored
      rw [owner, clean.floors] at noFloor
      cases noFloor
    · rintro (broken | isPartial)
      · have same : (state.push (state.job job).push).broken = true := broken
        rw [owner, clean.broken] at same
        cases same
      · have same : (state.push (state.job job).push).isPartial = true := isPartial
        rw [owner, clean.isPartial] at same
        cases same
  · rw [if_neg asc, owner]
    rw [owner] at noted
    refine (noted.update_push _ fun record kept => ?_).set_stage job .done fun _ => ?_
    · exact ⟨kept.key, kept.room, kept.first, kept.phase, kept.next, kept.total, kept.broken,
        kept.isPartial, kept.floors, kept.overflowed⟩
    · intro other otherBatch otherTask
      have sameTask : (state.job job).task = .batch (some .asc) other := otherTask
      rw [task] at sameTask
      cases sameTask
      exact absurd rfl asc

theorem Prefix.start_job (chained : Chained state) (start : ready state job = true) :
    Prefix batches key cut count (startJob state job) := by
  have turn := chained.turn_of_ready start
  have bound := chained.bound_of_active turn.pending
  obtain ⟨owner, taken⟩ := held.owner chained bound
  unfold startJob
  dsimp only
  split
  · refine held.set_stage job .processing fun _ => ?_
    intro _ _ _ _ _ _ _
    exact Or.inr (Or.inl rfl)
  · rename_i task
    exact held.end_push bound owner taken (Or.inr task) false
  · rename_i task
    split_ifs
    · refine held.commit_next bound owner taken _ ?_
      intro index batch other
      rw [task] at other
      cases other
    · exact held.end_push bound owner taken (Or.inl task) false

theorem Prefix.enqueue_end (task : Task Nat)
    (past : task = .finish ∨ task = .endShort) (ends : count = batches.length ∨ count = cut) :
    Prefix batches key cut count (enqueue state 0 task) where
  claims := held.claims
  pushCount := held.pushCount
  record := by
    intro taken
    have clean := held.record taken
    rw [enqueue_push, if_pos rfl]
    exact ⟨clean.key, clean.room, clean.first, clean.phase, clean.next, clean.total, clean.broken,
      clean.isPartial, clean.floors, clean.overflowed⟩
  registered := held.registered
  ending := fun _ _ _ => ends
  placed := by
    intro job bound order index
    rw [enqueue_job]
    split_ifs with new
    · intro batch
      have same : task = .batch order index := batch
      rcases past with rfl | rfl <;> cases same
    · rw [enqueue_job_count] at bound
      exact held.placed job (by omega) order index
  present := by
    intro index bound
    obtain ⟨job, jobBound, order, batch⟩ := held.present index bound
    refine ⟨job, by rw [enqueue_job_count]; omega, order, ?_⟩
    rw [enqueue_job_old state 0 task jobBound]
    exact batch
  heard := held.heard
  progress := by
    intro job bound
    rw [enqueue_job]
    split_ifs with new
    · refine progress_of_task ?_
      intro order index same
      have batch : task = .batch order index := same
      rcases past with rfl | rfl <;> cases batch
    · rw [enqueue_job_count] at bound
      exact held.progress job (by omega)

theorem Prefix.unregister (ends : count = batches.length ∨ count = cut) :
    Prefix batches key cut count
      (unregister (updatePush state 0 fun record => { record with timer := false }) 0) := by
  refine held.quiet ((quiet_update_push state 0 _ rfl).trans (quiet_unregister _ 0)) ?_ ?_
  · unfold Inbound.unregister
    split_ifs <;> rfl
  · intro _
    exact ends.elim Or.inl fun reached => Or.inr (Or.inl reached)

theorem Prefix.stall {push : Nat}
    (known : push < state.pushCount) (given : (state.push push).next = cut) :
    Prefix batches key cut count (stallTimer state push) := by
  rw [held.pushCount] at known
  split_ifs at known with none
  · omega
  · have only : push = 0 := by omega
    subst only
    have next := (held.record (by omega)).next
    have reached : count = cut := by omega
    exact (held.unregister (Or.inr reached)).enqueue_end .endShort (Or.inr rfl) (Or.inr reached)

end

/-- The push as a frame finds it. -/
structure Awaiting (batches : List (PushBatch T)) (origin : Key) (count : Nat)
    (order : Option PushOrder) (push : Push) : Prop where
  key : push.key = origin
  room : push.room = origin.2
  first : push.first ≠ none
  fits : fits push order = true
  next : push.next = count
  total : push.total = batches.length
  broken : push.broken = false
  isPartial : push.isPartial = false
  floors : push.floors = .empty
  overflowed : push.overflowed = false

/-- The state between a frame's arrival and its job. -/
structure Admitted (batches : List (PushBatch T)) (key : Key) (count : Nat)
    (order : Option PushOrder) (before after : State Nat) : Prop where
  job : after.job = before.job
  jobCount : after.jobCount = before.jobCount
  claims : after.claims = .empty
  pushCount : after.pushCount = 1
  registered : after.pushes.get key = some 0
  grown : ∀ call ∈ before.log, call ∈ after.log
  heard : ∀ push index outcome, .outcome push index outcome ∈ after.log →
    .outcome push index outcome ∈ before.log
  record : Awaiting batches key count order (after.push 0)

omit [SentRow T] in
theorem Admitted.hold {before later : State Nat}
    (admitted : Admitted batches key count order before after) (only : HoldOnly after later) :
    Admitted batches key count order before later where
  job := only.job.trans admitted.job
  jobCount := only.jobCount.trans admitted.jobCount
  claims := only.claims.trans admitted.claims
  pushCount := only.pushCount.trans admitted.pushCount
  registered := by
    rw [only.pushes]
    exact admitted.registered
  grown := by
    intro call mem
    obtain ⟨extra, extended, -⟩ := only.log
    rw [extended]
    exact mem_append_right _ (admitted.grown call mem)
  heard := by
    intro push index outcome mem
    exact admitted.heard push index outcome ((only.quiet.log_mem (by simp [Minor])).mp mem)
  record := by
    rw [only.push]
    exact admitted.record

omit [SentRow T] in
theorem Admitted.note_opened {before : State Nat}
    (admitted : Admitted batches key count order before after) (push : Nat) (opener : Nat) :
    Admitted batches key count order before (note after (.opened push key opener)) :=
  { admitted with
    grown := fun call mem => mem_cons_of_mem _ (admitted.grown call mem)
    heard := by
      intro other index outcome mem
      exact admitted.heard other index outcome (by simpa [note] using mem) }

theorem Prefix.admit_first (held : Prefix batches key cut 0 state) (order : PushOrder)
    (process : Nat) :
    Admitted batches key 0 (some order) state
      (start state key (some order) batches.length none process).2 := by
  have none : state.pushCount = 0 := held.pushCount
  have noClaims : state.claims.has key = false := by
    rw [held.claims]
    rfl
  have base : Admitted batches key 0 (some order) state
      (register state key (some order) batches.length Option.none) := by
    refine ⟨rfl, rfl, ?_, ?_, ?_, fun _ mem => mem, fun _ _ _ mem => mem, ?_⟩
    · refine Eq.trans ?_ held.claims
      simp only [register]
      rw [if_neg]
      rintro ⟨-, has⟩
      rw [noClaims] at has
      cases has
    · simp [register, none]
    · simp [register, none]
    · have self := register_self state key (some order) batches.length Option.none
      rw [none] at self
      rw [self]
      refine ⟨rfl, rfl, by simp [newPush], ?_, rfl, rfl, rfl, noClaims, rfl, rfl⟩
      cases order <;> simp [fits, newPush]
  refine Admitted.note_opened ?_ _ process
  refine Admitted.hold ?_ (hold_update_record _ _ _)
  exact base.hold (hold_room _ key.2)

theorem Prefix.push_for (held : Prefix batches key cut count state)
    (tracked : Tracked (frameSent batches) (fun _ => True) key none state)
    (heads : HeadsFirst batches) (small : (batches.length : Int) ≤ maxSafeInteger)
    (before : count < cut) (inside : count < batches.length) :
    ∃ opened, pushFor state key (frameAt batches count).pushOrder (frameAt batches count).place
        count = (0, opened) ∧
      Admitted batches key count (frameAt batches count).pushOrder state opened := by
  obtain ⟨batch, placed⟩ : ∃ batch, batches[count]? = some batch :=
    ⟨_, List.getElem?_eq_getElem inside⟩
  rw [frame_at_order placed, frame_at_place small inside]
  rcases Nat.eq_zero_or_pos count with zero | taken
  · subst zero
    have noPush : state.pushes.get key = none := by
      cases found : state.pushes.get key with
      | none => rfl
      | some push =>
        have bound := (tracked.registered key push found).1
        rw [held.pushCount] at bound
        exact absurd bound (Nat.not_lt_zero _)
    refine ⟨_, ?_, held.admit_first batch.order 0⟩
    unfold pushFor
    rw [noPush]
    have first : (startOver state key none).pushCount = 0 := held.pushCount
    simp [start, first]
  · have found : state.pushes.get key = some 0 := by
      rcases held.registered taken with whole | reached | found
      · omega
      · omega
      · exact found
    have clean := held.record taken
    refine ⟨state, ?_, ⟨rfl, rfl, held.claims, ?_, found, fun _ mem => mem,
      fun _ _ _ mem => mem, ?_⟩⟩
    · have notFirst : count ≠ 0 := by omega
      simp [pushFor, opens, found, notFirst]
    · rw [held.pushCount, if_neg (by omega)]
    · refine ⟨clean.key, clean.room, clean.first, ?_, clean.next, clean.total, clean.broken,
        clean.isPartial, clean.floors, clean.overflowed⟩
      obtain ⟨last, lastPlaced⟩ : ∃ last, batches[count - 1]? = some last :=
        ⟨_, List.getElem?_eq_getElem (by omega)⟩
      have phase := clean.phase last lastPlaced
      have follows := heads (count - 1) count last batch (by omega) lastPlaced placed
      unfold fits
      rw [if_neg clean.first, phase]
      cases lastOrder : last.order with
      | head => simp
      | asc => simp [follows lastOrder]

omit [SentRow T] in
theorem take_frame_clean {push : Push} {batch : PushBatch T} (placed : batches[count]? = some batch)
    (awaiting : Awaiting batches key count (some batch.order) push) :
    Clean batches key (count + 1)
      (takeFrame (some batch.order) (some ((count : Int), (batches.length : Int))) push) := by
  have follows : continues push (some batch.order) (some ((count : Int), (batches.length : Int))) =
      true := by
    simp [continues, awaiting.next, awaiting.total, awaiting.fits]
  refine ⟨awaiting.key, awaiting.room, awaiting.first, ?_, ?_, awaiting.total, ?_,
    awaiting.isPartial, awaiting.floors, awaiting.overflowed⟩
  · intro other otherPlaced
    rw [Nat.add_sub_cancel, placed] at otherPlaced
    cases otherPlaced
    rfl
  · simp [takeFrame]
  · simp [takeFrame, awaiting.broken, follows]

section

variable (held : Prefix batches key cut count state)
include held

theorem Prefix.queue {batch : PushBatch T}
    (placed : batches[count]? = some batch) {taken : State Nat}
    (job : taken.job = state.job) (jobCount : taken.jobCount = state.jobCount)
    (claims : taken.claims = .empty) (pushCount : taken.pushCount = 1)
    (registered : taken.pushes.get key = some 0) (grown : ∀ call ∈ state.log, call ∈ taken.log)
    (heard : ∀ push index outcome, .outcome push index outcome ∈ taken.log →
      .outcome push index outcome ∈ state.log)
    (record : Clean batches key (count + 1) (taken.push 0)) (before : count < cut)
    (inside : count < batches.length) :
    Prefix batches key cut (count + 1) (enqueue taken 0 (.batch (some batch.order) count)) where
  claims := claims
  pushCount := by
    rw [enqueue_push_count, if_neg (Nat.succ_ne_zero count)]
    exact pushCount
  record := by
    intro _
    rw [enqueue_push, if_pos rfl]
    exact ⟨record.key, record.room, record.first, record.phase, record.next, record.total,
      record.broken, record.isPartial, record.floors, record.overflowed⟩
  registered := fun _ => Or.inr (Or.inr registered)
  ending := by
    intro index bound past
    rw [enqueue_job, job] at past
    split_ifs at past with new
    · rcases past with impossible | impossible <;> cases impossible
    · rw [enqueue_job_count, jobCount] at bound
      rw [jobCount] at new
      rcases held.ending index (by omega) past with whole | reached
      · omega
      · omega
  placed := by
    intro index bound order process
    rw [enqueue_job, job]
    split_ifs with new
    · intro same
      cases same
      exact ⟨batch, placed, rfl, Nat.lt_succ_self _⟩
    · intro task
      rw [enqueue_job_count, jobCount] at bound
      rw [jobCount] at new
      obtain ⟨other, otherPlaced, marked, within⟩ :=
        held.placed index (by omega) order process task
      exact ⟨other, otherPlaced, marked, Nat.lt_succ_of_lt within⟩
  present := by
    intro index bound
    rcases Nat.lt_succ_iff_lt_or_eq.mp bound with old | new
    · obtain ⟨frame, frameBound, order, task⟩ := held.present index old
      refine ⟨frame, by rw [enqueue_job_count, jobCount]; omega, order, ?_⟩
      rw [enqueue_job_old taken 0 _ (by rw [jobCount]; exact frameBound), job]
      exact task
    · subst new
      refine ⟨taken.jobCount, Nat.lt_succ_self _, some batch.order, ?_⟩
      rw [enqueue_job_new]
  heard := by
    intro push index outcome mem
    exact Nat.lt_succ_of_lt (held.heard push index outcome (heard push index outcome mem))
  progress := by
    intro index bound
    rw [enqueue_job, job]
    split_ifs with new
    · intro _ _ _ _ _ _ _
      exact Or.inl rfl
    · rw [enqueue_job_count, jobCount] at bound
      rw [jobCount] at new
      exact (held.progress index (by omega)).grow grown

theorem Prefix.finish (whole : count = batches.length) :
    Prefix batches key cut count (finish state 0) := by
  unfold Inbound.finish
  dsimp only
  split_ifs
  · refine Prefix.enqueue_end ?_ .finish (Or.inl rfl) (Or.inl whole)
    refine (held.unregister (Or.inl whole)).quiet ?_ rfl fun _ => Or.inl whole
    exact quiet_of_same rfl rfl rfl rfl rfl rfl
  · exact held

theorem Prefix.batch (tracked : Tracked (frameSent batches) (fun _ => True) key none state)
    (heads : HeadsFirst batches) (small : (batches.length : Int) ≤ maxSafeInteger)
    (before : count < cut) (inside : count < batches.length) :
    Prefix batches key cut (count + 1)
      (batch state key.1 key.2 (frameAt batches count) count) := by
  obtain ⟨batch, placed⟩ : ∃ batch, batches[count]? = some batch :=
    ⟨_, List.getElem?_eq_getElem inside⟩
  obtain ⟨opened, chosen, admitted⟩ := held.push_for tracked heads small before inside
  have only := hold_answered
    (arm (updatePush opened 0
      (takeFrame (frameAt batches count).pushOrder (frameAt batches count).place)) 0)
    key.1 key.2 none
  have queued : Prefix batches key cut (count + 1) (enqueue (answered
      (arm (updatePush opened 0
        (takeFrame (frameAt batches count).pushOrder (frameAt batches count).place)) 0)
      key.1 key.2 none) 0 (.batch (frameAt batches count).pushOrder count)) := by
    rw [frame_at_order placed, frame_at_place small inside] at only ⊢
    rw [frame_at_order placed] at admitted
    refine held.queue placed (only.job.trans admitted.job)
      (only.jobCount.trans admitted.jobCount) (only.claims.trans admitted.claims)
      (only.pushCount.trans admitted.pushCount) ?_ ?_ ?_ ?_ before inside
    · rw [only.pushes]
      exact admitted.registered
    · intro call mem
      obtain ⟨extra, extended, -⟩ := only.log
      rw [extended]
      exact mem_append_right _ (admitted.grown call mem)
    · intro push index outcome mem
      exact admitted.heard push index outcome ((only.quiet.log_mem (by simp [Minor])).mp mem)
    · rw [only.push]
      refine (take_frame_clean placed admitted.record).of_core ?_
      simp [arm, updatePush, Push.core]
  have counted := (queued.record (Nat.succ_pos count))
  have chosenKey : pushFor state (key.1, key.2) (frameAt batches count).pushOrder
      (frameAt batches count).place count = (0, opened) := chosen
  unfold Inbound.batch
  dsimp only
  rw [chosenKey]
  dsimp only
  split_ifs with past
  · refine queued.finish ?_
    rw [counted.total, counted.next] at past
    omega
  · exact queued

theorem Prefix.step (chained : Chained state)
    {event : Event Nat} (intact : Intact batches key cut state event)
    (stepped : step state event = some after) (inside : arrivals [event] = []) :
    Prefix batches key cut count after := by
  cases event with
  | batch peer name frame index => cases inside
  | expect peer name =>
    cases stepped
    exact held.hold (hold_expect state peer name)
  | answered peer name nonce =>
    cases stepped
    exact held.hold (hold_answered state peer name nonce)
  | complete peer name | reset => exact absurd intact id
  | expectTimer wait =>
    simp only [Inbound.step] at stepped
    split_ifs at stepped
    cases stepped
    exact held.hold (hold_expect_timer state wait)
  | stallTimer push =>
    simp only [Inbound.step] at stepped
    split_ifs at stepped with armed
    cases stepped
    exact held.stall armed.1 intact
  | startJob job =>
    simp only [Inbound.step] at stepped
    split_ifs at stepped with start
    cases stepped
    exact held.start_job chained start
  | processed job result =>
    simp only [Inbound.step] at stepped
    split_ifs at stepped with processing
    cases stepped
    obtain ⟨order, index, task, rfl⟩ := intact
    exact held.processed chained processing task
  | committed job ok =>
    simp only [Inbound.step] at stepped
    split at stepped
    · rename_i rest stage
      cases stepped
      have succeeded : ok = true := intact
      subst succeeded
      exact held.committed chained stage
    · cases stepped
  | released job =>
    simp only [Inbound.step] at stepped
    split_ifs at stepped with releasing
    cases stepped
    have quiet := quiet_settle_done state (state.job job).push
    have claims : (settleDone state (state.job job).push).claims = state.claims := by
      unfold settleDone
      split_ifs <;> rfl
    have pushes : (settleDone state (state.job job).push).pushes = state.pushes := by
      unfold settleDone
      split_ifs <;> rfl
    have settled := held.quiet quiet claims fun taken => by
      rw [pushes]
      exact held.registered taken
    refine settled.set_stage job .done fun bound => ?_
    intro index batch task placed row mem valid
    have owed := settled.progress job bound index batch task placed row mem valid
    rw [quiet.job, releasing] at owed
    rcases owed with impossible | impossible | claimed | ⟨_, _, impossible, -⟩
    · cases impossible
    · cases impossible
    · exact Or.inr (Or.inr (Or.inl claimed))
    · cases impossible

theorem intact_honest {event : Event Nat}
    (chained : Chained state) (intact : Intact batches key cut state event)
    (stepped : Inbound.step state event = some after) :
    Honest (frameSent batches) key state event := by
  cases event with
  | batch peer name frame index =>
    obtain ⟨-, rfl, inside⟩ := intact
    obtain ⟨batch, placed⟩ : ∃ batch, batches[index]? = some batch :=
      ⟨_, List.getElem?_eq_getElem inside⟩
    refine ⟨fun _ => ⟨rfl, by simp [frameSent, sentBatches, frameAt], _, sent_batch_of placed, ?_⟩,
      ?_⟩
    · exact frame_at_order placed
    · intro _ push _ _ _ _ opener _
      rfl
  | processed job result =>
    refine ⟨?_, trivial⟩
    simp only [Inbound.step] at stepped
    split_ifs at stepped with processing
    have bound := chained.bound_of_active (by rw [processing]; simp)
    obtain ⟨order, index, task, rfl⟩ := intact
    obtain ⟨batch, placed, -, -⟩ := held.placed job bound order index task
    intro _ otherOrder other otherTask
    rw [task] at otherTask
    cases otherTask
    intro carried found row mem
    have same := (sent_batch_of placed).symm.trans found
    cases same
    unfold wholeReport at mem
    rw [placed] at mem
    exact mem
  | expect peer name | answered peer name nonce | complete peer name | reset | expectTimer wait
  | stallTimer push | startJob job | committed job ok | released job => exact ⟨trivial, trivial⟩

end

theorem arrivals_cons (event : Event Nat) (rest : List (Event Nat)) :
    arrivals (event :: rest) = arrivals [event] ++ arrivals rest := by
  cases event <;> rfl

theorem intact_run (heads : HeadsFirst batches) (small : (batches.length : Int) ≤ maxSafeInteger)
    (events : List (Event Nat)) (upTo : count ≤ cut)
    (arrived : arrivals events = List.range' count (cut - count))
    (held : Prefix batches key cut count state)
    (tracked : Tracked (frameSent batches) (fun _ => True) key none state)
    (intact : Meets Inbound.step (Intact batches key cut) state events) {final : State Nat}
    (ran : run Inbound.step state events = some final) :
    Prefix batches key cut cut final ∧ Tracked (frameSent batches) (fun _ => True) key none final := by
  induction events generalizing count state with
  | nil =>
    cases ran
    have all : cut - count = 0 := by
      have length := congrArg List.length arrived
      simpa [arrivals] using length.symm
    have same : count = cut := by omega
    rw [same] at held
    exact ⟨held, tracked⟩
  | cons event rest ih =>
    obtain ⟨next, stepped, later⟩ := run_cons ran
    have honest := intact_honest held tracked.chained intact.1 stepped
    have nextTracked := tracked.step honest (always_answers key state event) stepped
    have nextIntact := intact.2 next stepped
    rw [arrivals_cons] at arrived
    by_cases arrival : arrivals [event] = []
    · rw [arrival, nil_append] at arrived
      exact ih upTo arrived (held.step tracked.chained intact.1 stepped arrival)
        nextTracked nextIntact later
    · cases event with
      | batch peer name frame index =>
        obtain ⟨sameKey, rfl, inside⟩ := intact.1
        obtain ⟨left, size⟩ : ∃ left, cut - count = left + 1 := by
          cases size : cut - count with
          | zero =>
            rw [size] at arrived
            cases arrived
          | succ left => exact ⟨left, rfl⟩
        rw [size, range'_succ] at arrived
        simp only [arrivals, singleton_append, List.cons.injEq] at arrived
        obtain ⟨rfl, restArrived⟩ := arrived
        cases stepped
        have nextHeld := held.batch tracked heads small (by omega) inside
        have peerKey : peer = key.1 := congrArg Prod.fst sameKey
        have nameKey : name = key.2 := congrArg Prod.snd sameKey
        subst peerKey nameKey
        refine ih (by omega) ?_ nextHeld nextTracked nextIntact later
        have rest : cut - (index + 1) = left := by omega
        rw [rest]
        exact restArrived
      | _ => exact absurd rfl arrival

theorem prefix_init : Prefix batches key cut 0 (State.init Nat) where
  claims := rfl
  pushCount := rfl
  record := fun impossible => absurd impossible (Nat.lt_irrefl 0)
  registered := fun impossible => absurd impossible (Nat.lt_irrefl 0)
  ending := fun job bound => absurd bound (Nat.not_lt_zero job)
  placed := fun job bound => absurd bound (Nat.not_lt_zero job)
  present := fun index bound => absurd bound (Nat.not_lt_zero index)
  heard := nofun
  progress := fun job bound => absurd bound (Nat.not_lt_zero job)

end Steps

end Delivery

end AwfulChat.Inbound
