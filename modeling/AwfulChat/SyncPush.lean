import AwfulChat.MessageOrder

/-!
# The sending end of a history push

`planPush` and `chunk` of `sync-push.ts`. The newest page goes first, newest
row first, and everything older follows oldest first. What the receiver rests
on is `asc_batch_covers_below`: when an oldest-first batch carries a row, every
planned row with a smaller lamport went out in that batch or in an earlier one.
-/

namespace AwfulChat.SyncPush

open AwfulChat.MessageOrder List

set_option autoImplicit false

inductive PushOrder
  | head
  | asc
  deriving DecidableEq

structure PushBatch (T : Type) where
  rows : List T
  order : PushOrder
  deriving DecidableEq

structure PushPlan (T : Type) where
  batchSize : Nat
  pageSize : Nat
  maxBatchBytes : Nat
  sizeOf : T → Nat

section Plan

variable {T : Type}

structure ChunkState (T : Type) where
  out : List (PushBatch T)
  cur : List T
  bytes : Nat

def chunkRow (order : PushOrder) (plan : PushPlan T) (state : ChunkState T) (row : T) :
    ChunkState T :=
  if state.cur ≠ [] ∧ (plan.batchSize ≤ state.cur.length ∨
      plan.maxBatchBytes < state.bytes + plan.sizeOf row) then
    { out := state.out ++ [{ rows := state.cur, order := order }]
      cur := [row]
      bytes := plan.sizeOf row }
  else
    { out := state.out
      cur := state.cur ++ [row]
      bytes := state.bytes + plan.sizeOf row }

def closeChunk (order : PushOrder) (state : ChunkState T) : List (PushBatch T) :=
  if state.cur = [] then state.out else state.out ++ [{ rows := state.cur, order := order }]

def chunk (rows : List T) (order : PushOrder) (plan : PushPlan T) : List (PushBatch T) :=
  closeChunk order (rows.foldl (chunkRow order plan) { out := [], cur := [], bytes := 0 })

/-- Rows of a push, batch after batch. -/
def batchRows (batches : List (PushBatch T)) : List T := (batches.map PushBatch.rows).flatten

theorem batch_rows_append (left right : List (PushBatch T)) :
    batchRows (left ++ right) = batchRows left ++ batchRows right := by
  simp [batchRows]

theorem mem_batch_rows {batches : List (PushBatch T)} {row : T} :
    row ∈ batchRows batches ↔ ∃ batch ∈ batches, row ∈ batch.rows := by
  simp [batchRows]

variable (rows : List T) (order : PushOrder)

theorem chunk_fold_rows (plan : PushPlan T) (rows : List T) (state : ChunkState T) :
    batchRows (closeChunk order (rows.foldl (chunkRow order plan) state)) =
      batchRows state.out ++ state.cur ++ rows := by
  induction rows generalizing state with
  | nil =>
    unfold closeChunk
    by_cases closed : state.cur = []
    · simp [closed]
    · simp [closed, batchRows]
  | cons row rest ih =>
    rw [foldl_cons, ih]
    unfold chunkRow
    split_ifs with closes
    · simp [batchRows]
    · simp

theorem chunk_rows (plan : PushPlan T) :
    batchRows (chunk rows order plan) = rows := by
  unfold chunk
  rw [chunk_fold_rows]
  simp [batchRows]

theorem chunk_fold_order (plan : PushPlan T) (rows : List T)
    (state : ChunkState T) (before : ∀ batch ∈ state.out, batch.order = order) :
    ∀ batch ∈ closeChunk order (rows.foldl (chunkRow order plan) state), batch.order = order := by
  induction rows generalizing state with
  | nil =>
    intro batch mem
    rw [foldl_nil] at mem
    unfold closeChunk at mem
    by_cases closed : state.cur = []
    · rw [if_pos closed] at mem
      exact before batch mem
    · rw [if_neg closed] at mem
      rcases mem_append.mp mem with old | new
      · exact before batch old
      · rw [mem_singleton.mp new]
  | cons row rest ih =>
    rw [foldl_cons]
    apply ih
    unfold chunkRow
    split_ifs
    · intro batch mem
      rcases mem_append.mp mem with old | new
      · exact before batch old
      · rw [mem_singleton.mp new]
    · exact before

theorem chunk_order (plan : PushPlan T) :
    ∀ batch ∈ chunk rows order plan, batch.order = order :=
  chunk_fold_order order plan rows _ (by simp)

variable [Row T]

/-- Rows the head takes, walking back from the newest one until it holds
`pageSize` rows the receiver's page would show. -/
def headLength (pageSize : Nat) : List T → Nat → Nat
  | [], _ => 0
  | row :: older, shown =>
    if shown < pageSize then
      headLength pageSize older
        (if Row.type row ≠ MessageType.pluginUpdate then shown + 1 else shown) + 1
    else 0

def headStart (sorted : List T) (plan : PushPlan T) : Nat :=
  let start := sorted.length - headLength plan.pageSize sorted.reverse 0
  if (sorted.take start).any fun row => decide (Row.type row ≠ MessageType.pluginUpdate) then start
  else sorted.length

def planPush (rows : List T) (plan : PushPlan T) : List (PushBatch T) :=
  let sorted := sortRows rows
  let start := headStart sorted plan
  chunk (sorted.drop start).reverse .head plan ++ chunk (sorted.take start) .asc plan

def headBatches (rows : List T) (plan : PushPlan T) : List (PushBatch T) :=
  chunk ((sortRows rows).drop (headStart (sortRows rows) plan)).reverse .head plan

def ascBatches (rows : List T) (plan : PushPlan T) : List (PushBatch T) :=
  chunk ((sortRows rows).take (headStart (sortRows rows) plan)) .asc plan

theorem plan_push_eq (plan : PushPlan T) :
    planPush rows plan = headBatches rows plan ++ ascBatches rows plan := rfl

variable {batch : PushBatch T} {plan : PushPlan T}

theorem head_batches_order {rows : List T}
    (mem : batch ∈ headBatches rows plan) : batch.order = .head :=
  chunk_order _ _ _ batch mem

theorem asc_batches_order {rows : List T}
    (mem : batch ∈ ascBatches rows plan) : batch.order = .asc :=
  chunk_order _ _ _ batch mem

theorem asc_then_head (plan : PushPlan T) :
    batchRows (ascBatches rows plan) ++ (batchRows (headBatches rows plan)).reverse =
      sortRows rows := by
  unfold ascBatches headBatches
  rw [chunk_rows, chunk_rows, reverse_reverse, take_append_drop]

theorem mem_plan_push_rows (plan : PushPlan T) (row : T) :
    row ∈ batchRows (planPush rows plan) ↔ row ∈ rows := by
  have sorted : row ∈ sortRows rows ↔ row ∈ rows := mem_sort_rows
  rw [plan_push_eq, batch_rows_append, ← sorted, ← asc_then_head rows plan]
  simp [or_comm]

theorem asc_rows_pairwise (plan : PushPlan T) :
    (batchRows (ascBatches rows plan)).Pairwise rowBefore := by
  have sorted := sort_rows_pairwise rows
  rw [← asc_then_head rows plan] at sorted
  exact (pairwise_append.mp sorted).1

theorem asc_before_head (plan : PushPlan T) {older newer : T}
    (older_asc : older ∈ batchRows (ascBatches rows plan))
    (newer_head : newer ∈ batchRows (headBatches rows plan)) : rowBefore older newer := by
  have sorted := sort_rows_pairwise rows
  rw [← asc_then_head rows plan] at sorted
  exact (pairwise_append.mp sorted).2.2 older older_asc newer (by simpa using newer_head)

theorem asc_batches_ordered (plan : PushPlan T) {earlier later : Nat} (apart : earlier < later)
    {left right : PushBatch T} (atEarlier : (ascBatches rows plan)[earlier]? = some left)
    (atLater : (ascBatches rows plan)[later]? = some right) :
    ∀ older ∈ left.rows, ∀ newer ∈ right.rows, rowBefore older newer := by
  have pairs := (pairwise_flatten.mp (asc_rows_pairwise rows plan)).2
  rw [pairwise_map, pairwise_iff_getElem] at pairs
  obtain ⟨earlierBound, rfl⟩ := List.getElem?_eq_some_iff.mp atEarlier
  obtain ⟨laterBound, rfl⟩ := List.getElem?_eq_some_iff.mp atLater
  exact pairs earlier later earlierBound laterBound apart

theorem asc_index_split {rows : List T} {index : Nat}
    (placed : (planPush rows plan)[index]? = some batch) (marked : batch.order = .asc) :
    (headBatches rows plan).length ≤ index ∧
      (ascBatches rows plan)[index - (headBatches rows plan).length]? = some batch := by
  rw [plan_push_eq] at placed
  by_cases inHead : index < (headBatches rows plan).length
  · rw [List.getElem?_append_left inHead] at placed
    have order := head_batches_order (mem_of_getElem? placed)
    rw [marked] at order
    exact absurd order (by decide)
  · have behind : (headBatches rows plan).length ≤ index := Nat.le_of_not_lt inHead
    rw [List.getElem?_append_right behind] at placed
    exact ⟨behind, placed⟩

theorem asc_batch_covers_below {rows : List T} {index : Nat} {row below : T}
    (placed : (planPush rows plan)[index]? = some batch) (marked : batch.order = .asc)
    (carried : row ∈ batch.rows) (planned : below ∈ rows)
    (smaller : (Row.cursor below).lamport < (Row.cursor row).lamport) :
    ∃ earlier ≤ index, ∃ source, (planPush rows plan)[earlier]? = some source ∧
      below ∈ source.rows := by
  obtain ⟨behind, ascPlaced⟩ := asc_index_split placed marked
  have carriedAsc : row ∈ batchRows (ascBatches rows plan) :=
    mem_batch_rows.mpr ⟨batch, mem_of_getElem? ascPlaced, carried⟩
  have sent := (mem_plan_push_rows rows plan below).mpr planned
  rw [plan_push_eq, batch_rows_append, mem_append] at sent
  rcases sent with inHead | inAsc
  · have order := asc_before_head rows plan carriedAsc inHead
    have bound := lamport_le_of_before order
    omega
  · obtain ⟨source, sourceMember, belowSource⟩ := mem_batch_rows.mp inAsc
    obtain ⟨position, positionBound, positioned⟩ := getElem_of_mem sourceMember
    have sourcePlaced : (ascBatches rows plan)[position]? = some source := by
      rw [List.getElem?_eq_getElem positionBound, positioned]
    have notLater : position ≤ index - (headBatches rows plan).length := by
      by_contra later
      have order := asc_batches_ordered rows plan (Nat.lt_of_not_le later) ascPlaced sourcePlaced
        row carried below belowSource
      have bound := lamport_le_of_before order
      omega
    refine ⟨(headBatches rows plan).length + position, by omega, source, ?_, belowSource⟩
    rw [plan_push_eq, List.getElem?_append_right (by omega)]
    simpa using sourcePlaced

end Plan

end AwfulChat.SyncPush
