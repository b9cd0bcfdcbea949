import AwfulChat.SyncPush

/-!
# What a push plan is made of

The head is the newest page and the rows it carries along, the rest follows oldest first, and
no batch goes past either of its limits.
-/

namespace AwfulChat.SyncPush

open AwfulChat.MessageOrder List

set_option autoImplicit false

section Batches

variable {T : Type}

def bytesOf (plan : PushPlan T) (rows : List T) : Nat := (rows.map plan.sizeOf).sum

structure Bounded (plan : PushPlan T) (rows : List T) : Prop where
  some : rows ≠ []
  few : rows.length ≤ plan.batchSize
  light : rows.length = 1 ∨ bytesOf plan rows ≤ plan.maxBatchBytes

structure Filling (plan : PushPlan T) (state : ChunkState T) : Prop where
  closed : ∀ batch ∈ state.out, Bounded plan batch.rows
  current : state.cur = [] ∨ Bounded plan state.cur
  counted : state.bytes = bytesOf plan state.cur

theorem chunk_row_filling {plan : PushPlan T} {state : ChunkState T} (order : PushOrder) (row : T)
    (batchSize : 1 ≤ plan.batchSize) (filling : Filling plan state) :
    Filling plan (chunkRow order plan state row) := by
  unfold chunkRow
  split_ifs with closes
  · constructor
    case closed =>
      intro batch mem
      rcases mem_append.mp mem with old | new
      · exact filling.closed batch old
      · rw [mem_singleton.mp new]
        exact filling.current.resolve_left closes.1
    case current => exact Or.inr ⟨by simp, batchSize, Or.inl rfl⟩
    case counted => simp [bytesOf]
  · have bytes : state.bytes + plan.sizeOf row = bytesOf plan (state.cur ++ [row]) := by
      rw [filling.counted]
      simp [bytesOf]
    constructor
    case closed => exact filling.closed
    case current =>
      right
      constructor
      case some => simp
      case few =>
        rw [length_append, length_singleton]
        by_cases empty : state.cur = []
        · rw [empty]
          exact batchSize
        · by_contra many
          exact closes ⟨empty, Or.inl (by omega)⟩
      case light =>
        by_cases empty : state.cur = []
        · left
          simp [empty]
        · right
          rw [← bytes]
          by_contra heavy
          exact closes ⟨empty, Or.inr (by omega)⟩
    case counted => exact bytes

theorem chunk_bounded {plan : PushPlan T} (rows : List T) (order : PushOrder)
    (batchSize : 1 ≤ plan.batchSize) :
    ∀ batch ∈ chunk rows order plan, Bounded plan batch.rows := by
  have filled : ∀ state : ChunkState T, Filling plan state →
      Filling plan (rows.foldl (chunkRow order plan) state) := by
    induction rows with
    | nil => exact fun _ filling => filling
    | cons row rest ih =>
      intro state filling
      exact ih _ (chunk_row_filling order row batchSize filling)
  have final := filled ⟨[], [], 0⟩ ⟨by simp, Or.inl rfl, rfl⟩
  unfold chunk closeChunk
  split_ifs with empty
  · exact final.closed
  · intro batch mem
    rcases mem_append.mp mem with old | new
    · exact final.closed batch old
    · rw [mem_singleton.mp new]
      exact final.current.resolve_left empty

end Batches

section Phases

variable {T : Type} [Row T]

def isShown (row : T) : Bool := decide (Row.type row ≠ MessageType.pluginUpdate)

theorem head_length_le (pageSize : Nat) (rows : List T) (shown : Nat) :
    headLength pageSize rows shown ≤ rows.length := by
  induction rows generalizing shown with
  | nil => exact le_refl _
  | cons row older ih =>
    rw [headLength, length_cons]
    split_ifs
    · exact Nat.succ_le_succ (ih _)
    · exact Nat.succ_le_succ (ih _)
    · exact Nat.zero_le _

theorem head_length_shown (pageSize : Nat) (rows : List T) (shown : Nat)
    (within : shown ≤ pageSize) :
    shown + (rows.take (headLength pageSize rows shown)).countP isShown =
      min pageSize (shown + rows.countP isShown) := by
  induction rows generalizing shown with
  | nil =>
    simp only [headLength, take_nil, countP_nil]
    omega
  | cons row older ih =>
    rw [headLength]
    by_cases room : shown < pageSize
    · rw [if_pos room, take_succ_cons, countP_cons, countP_cons]
      by_cases shows : Row.type row ≠ MessageType.pluginUpdate
      · have counted : isShown row = true := decide_eq_true shows
        have rest := ih (shown + 1) room
        rw [if_pos shows, if_pos counted]
        omega
      · have skipped : isShown row = false := decide_eq_false shows
        have rest := ih shown within
        rw [if_neg shows, skipped]
        simpa using rest
    · rw [if_neg room, take_zero, countP_nil]
      omega

theorem head_start_cases (sorted : List T) (plan : PushPlan T) :
    (headStart sorted plan = sorted.length ∧
      (sorted.take (sorted.length - headLength plan.pageSize sorted.reverse 0)).countP isShown = 0) ∨
    (headStart sorted plan = sorted.length - headLength plan.pageSize sorted.reverse 0 ∧
      0 < (sorted.take (headStart sorted plan)).countP isShown) := by
  simp only [headStart]
  by_cases more : ((sorted.take (sorted.length - headLength plan.pageSize sorted.reverse 0)).any
      fun row => decide (Row.type row ≠ MessageType.pluginUpdate)) = true
  · right
    rw [if_pos more]
    refine ⟨rfl, ?_⟩
    rw [any_eq_true] at more
    exact countP_pos_iff.mpr more
  · left
    rw [if_neg more]
    refine ⟨rfl, ?_⟩
    rw [countP_eq_zero]
    intro row mem shown
    exact more (any_eq_true.mpr ⟨row, mem, shown⟩)

theorem head_start_shown (sorted : List T) (plan : PushPlan T) :
    (sorted.drop (sorted.length - headLength plan.pageSize sorted.reverse 0)).countP isShown =
      min plan.pageSize (sorted.countP isShown) := by
  have walked := head_length_shown plan.pageSize sorted.reverse 0 (Nat.zero_le _)
  have bound := head_length_le plan.pageSize sorted.reverse 0
  rw [length_reverse] at bound
  rw [take_reverse, countP_reverse, countP_reverse] at walked
  simpa using walked

def headRows (rows : List T) (plan : PushPlan T) : List T :=
  batchRows ((planPush rows plan).filter fun batch => decide (batch.order = .head))

def ascRows (rows : List T) (plan : PushPlan T) : List T :=
  batchRows ((planPush rows plan).filter fun batch => decide (batch.order = .asc))

theorem plan_push_phases (rows : List T) (plan : PushPlan T) :
    (planPush rows plan).filter (fun batch => decide (batch.order = .head)) =
        headBatches rows plan ∧
      (planPush rows plan).filter (fun batch => decide (batch.order = .asc)) =
        ascBatches rows plan := by
  have heads : ∀ batch ∈ headBatches rows plan, batch.order = .head :=
    fun batch mem => head_batches_order mem
  have ascs : ∀ batch ∈ ascBatches rows plan, batch.order = .asc :=
    fun batch mem => asc_batches_order mem
  rw [plan_push_eq, filter_append, filter_append]
  constructor
  · rw [filter_eq_self.mpr (fun batch mem => decide_eq_true (heads batch mem)),
      filter_eq_nil_iff.mpr]
    · exact append_nil _
    · intro batch mem
      rw [ascs batch mem]
      decide
  · rw [filter_eq_nil_iff.mpr,
      filter_eq_self.mpr (fun batch mem => decide_eq_true (ascs batch mem))]
    · exact nil_append _
    · intro batch mem
      rw [heads batch mem]
      decide

theorem head_rows_eq (rows : List T) (plan : PushPlan T) :
    headRows rows plan =
      ((sortRows rows).drop (headStart (sortRows rows) plan)).reverse := by
  unfold headRows
  rw [(plan_push_phases rows plan).1]
  exact chunk_rows _ _ _

theorem asc_rows_eq (rows : List T) (plan : PushPlan T) :
    ascRows rows plan = (sortRows rows).take (headStart (sortRows rows) plan) := by
  unfold ascRows
  rw [(plan_push_phases rows plan).2]
  exact chunk_rows _ _ _

/-- `older` stands before `newer`, and they do not compare equal. -/
def Older (older newer : T) : Prop := compareMessages (Row.cursor older) (Row.cursor newer) < 0

theorem older_iff (older newer : T) : Older older newer ↔
    (Row.cursor older).lamport < (Row.cursor newer).lamport ∨
      ((Row.cursor older).lamport = (Row.cursor newer).lamport ∧
        utf16Units (Row.cursor older).id < utf16Units (Row.cursor newer).id) := by
  unfold Older compareMessages
  split_ifs with apart less greater
  · constructor
    · intro below
      left
      omega
    · rintro (less | ⟨same, _⟩) <;> omega
  · exact iff_of_true (by decide) (Or.inr ⟨by omega, less⟩)
  · apply iff_of_false (by decide)
    rintro (less | ⟨_, below⟩)
    · omega
    · exact less below
  · apply iff_of_false (by decide)
    rintro (lamport | ⟨_, below⟩)
    · omega
    · exact less below

theorem newer_iff (older newer : T) :
    0 < compareMessages (Row.cursor newer) (Row.cursor older) ↔ Older older newer := by
  rw [older_iff]
  unfold compareMessages
  split_ifs with apart less greater
  · constructor
    · intro above
      left
      omega
    · rintro (below | ⟨same, _⟩) <;> omega
  · apply iff_of_false (by decide)
    rintro (below | ⟨_, below⟩)
    · omega
    · exact lt_asymm less below
  · exact iff_of_true (by decide) (Or.inr ⟨by omega, greater⟩)
  · apply iff_of_false (by decide)
    rintro (below | ⟨_, below⟩)
    · omega
    · exact greater below

theorem older_of_before {older newer : T} (before : rowBefore older newer)
    (apart : (Row.cursor older).id ≠ (Row.cursor newer).id) : Older older newer := by
  rw [older_iff]
  rcases (before_iff _ _).mp before with below | ⟨same, least⟩
  · exact Or.inl below
  · right
    refine ⟨same, lt_of_le_of_ne least ?_⟩
    intro equal
    exact apart (utf16_units_injective equal)

/-- The two phases of a push. -/
structure TwoPhases (rows : List T) (plan : PushPlan T) : Prop where
  permutation : (batchRows (planPush rows plan)).Perm rows
  headFirst : planPush rows plan =
    (planPush rows plan).filter (fun batch => decide (batch.order = .head)) ++
      (planPush rows plan).filter fun batch => decide (batch.order = .asc)
  descending : (headRows rows plan).Pairwise fun first second =>
    0 < compareMessages (Row.cursor first) (Row.cursor second)
  ascending : (ascRows rows plan).Pairwise Older
  below : ∀ older ∈ ascRows rows plan, ∀ newer ∈ headRows rows plan, Older older newer
  page : headRows rows plan ≠ [] → (headRows rows plan).countP isShown = plan.pageSize
  newest : ∀ first ∈ (headRows rows plan).head?, ∀ row ∈ rows, row = first ∨ Older row first
  more : headRows rows plan ≠ [] → ∃ row ∈ ascRows rows plan,
    Row.type row ≠ MessageType.pluginUpdate
  fits : rows.countP isShown ≤ plan.pageSize → ∀ batch ∈ planPush rows plan, batch.order = .asc
  bounded : ∀ batch ∈ planPush rows plan, Bounded plan batch.rows

theorem sorted_older {rows : List T} (distinct : (rows.map fun row => (Row.cursor row).id).Nodup) :
    (sortRows rows).Pairwise Older := by
  have apart : (sortRows rows).Pairwise fun first second =>
      (Row.cursor first).id ≠ (Row.cursor second).id := by
    rw [← pairwise_map]
    exact ((sort_rows_perm rows).map _).nodup_iff.mpr distinct
  exact (sort_rows_pairwise rows).imp₂ (fun _ _ => older_of_before) apart

/-- For rows with distinct ids. -/
theorem plan_push_two_phases (rows : List T) (plan : PushPlan T)
    (distinct : (rows.map fun row => (Row.cursor row).id).Nodup) (batchSize : 1 ≤ plan.batchSize) :
    TwoPhases rows plan := by
  have sorted := sorted_older distinct
  obtain ⟨start, starts⟩ : ∃ start, headStart (sortRows rows) plan = start := ⟨_, rfl⟩
  have split : (sortRows rows).Pairwise Older := sorted
  rw [← take_append_drop start (sortRows rows), pairwise_append] at split
  have heads : headRows rows plan = ((sortRows rows).drop start).reverse := by
    rw [head_rows_eq, starts]
  have ascs : ascRows rows plan = (sortRows rows).take start := by
    rw [asc_rows_eq, starts]
  have parts := head_start_cases (sortRows rows) plan
  rw [starts] at parts
  have shown := head_start_shown (sortRows rows) plan
  have total : (sortRows rows).countP isShown = rows.countP isShown :=
    (sort_rows_perm rows).countP_eq _
  have cut : ((sortRows rows).take start).countP isShown +
      ((sortRows rows).drop start).countP isShown = (sortRows rows).countP isShown := by
    rw [← countP_append, take_append_drop]
  have paged : headRows rows plan ≠ [] →
      start = (sortRows rows).length - headLength plan.pageSize (sortRows rows).reverse 0 ∧
        0 < ((sortRows rows).take start).countP isShown := by
    intro some
    rcases parts with ⟨whole, _⟩ | later
    · rw [heads, whole] at some
      simp at some
    · exact later
  have pageCount : headRows rows plan ≠ [] →
      ((sortRows rows).drop start).countP isShown = plan.pageSize := by
    intro some
    obtain ⟨walked, left⟩ := paged some
    rw [← walked] at shown
    omega
  constructor
  case permutation =>
    rw [plan_push_eq, batch_rows_append]
    unfold headBatches ascBatches
    rw [chunk_rows, chunk_rows]
    apply List.Perm.trans _ (sort_rows_perm rows)
    apply ((reverse_perm _).append_right _).trans
    apply perm_append_comm.trans
    rw [take_append_drop]
  case headFirst =>
    rw [(plan_push_phases rows plan).1, (plan_push_phases rows plan).2, plan_push_eq]
  case descending =>
    rw [heads, pairwise_reverse]
    exact split.2.1.imp fun before => (newer_iff _ _).mpr before
  case ascending =>
    rw [ascs]
    exact split.1
  case below =>
    rw [heads, ascs]
    intro older isOlder newer isNewer
    exact split.2.2 older isOlder newer (mem_reverse.mp isNewer)
  case page =>
    intro some
    rw [← pageCount some, heads, countP_reverse]
  case newest =>
    intro first isFirst row mem
    rw [heads, List.head?_reverse] at isFirst
    obtain ⟨before, dropped⟩ := List.getLast?_eq_some_iff.mp isFirst
    have whole : sortRows rows = ((sortRows rows).take start ++ before) ++ [first] := by
      rw [append_assoc, ← dropped, take_append_drop]
    have listed : row ∈ sortRows rows := mem_sort_rows.mpr mem
    rw [whole] at sorted listed
    rcases mem_append.mp listed with earlier | last
    · exact Or.inr ((pairwise_append.mp sorted).2.2 row earlier first (by simp))
    · exact Or.inl (mem_singleton.mp last)
  case more =>
    intro some
    obtain ⟨_, left⟩ := paged some
    obtain ⟨row, mem, shows⟩ := countP_pos_iff.mp left
    rw [ascs]
    exact ⟨row, mem, of_decide_eq_true shows⟩
  case fits =>
    intro few batch mem
    have none : headRows rows plan = [] := by
      by_contra some
      obtain ⟨_, left⟩ := paged some
      have count := pageCount some
      omega
    have empty : headBatches rows plan = [] := by
      unfold headBatches
      rw [starts]
      rw [heads] at none
      rw [none]
      rfl
    rw [plan_push_eq, empty, nil_append] at mem
    exact asc_batches_order mem
  case bounded =>
    intro batch mem
    rw [plan_push_eq, mem_append] at mem
    rcases mem with head | asc
    · exact chunk_bounded _ _ batchSize batch head
    · exact chunk_bounded _ _ batchSize batch asc

end Phases

/-! Three rows, a page of one: the newest alone, then the rest. -/

structure SampleRow where
  id : String
  lamport : Int
  type : MessageType
  deriving DecidableEq

instance : Row SampleRow where
  cursor row := ⟨row.lamport, row.id⟩
  type row := row.type

def samplePushRows : List SampleRow :=
  [⟨"b", 2, .text⟩, ⟨"c", 3, .pluginUpdate⟩, ⟨"a", 1, .text⟩]

def samplePushPlan : PushPlan SampleRow := ⟨1, 1, 10, fun _ => 4⟩

theorem sample_plan_push : TwoPhases samplePushRows samplePushPlan :=
  plan_push_two_phases samplePushRows samplePushPlan (by decide) (by decide)

end AwfulChat.SyncPush
