import AwfulChat.Library.Runs
import AwfulChat.MessageOrder

/-!
# The window over a conversation

`chat-window.ts`: which of the held rows are mounted. A window is two cursors, found again
in a list that changes under them. A row that is in the list is found at its own index, so
the range of a window made from a range is that range; of any other window only the bounds
are known.
-/

namespace AwfulChat.ChatWindow

open Library MessageOrder List Option

set_option autoImplicit false

def followRows : Nat := 100

def maxRows : Nat := 200

def stepRows : Nat := 50

def trimAt : Nat := 400

def holdRows : Nat := 200

structure HeldWindow where
  start : MessageCursor
  end_ : Option MessageCursor

/-- `none` follows the newest rows. -/
abbrev Window := Option HeldWindow

structure WindowRange where
  from_ : Nat
  to_ : Nat

variable {list : List MessageCursor}

/-- The binary search of `indexOf`. -/
def firstAfter (list : List MessageCursor) (cursor : MessageCursor) (lo hi : Nat) : Nat :=
  if lo < hi then
    if (list[(lo + hi) / 2]?).any fun row => compareMessages row cursor < 0 then
      firstAfter list cursor ((lo + hi) / 2 + 1) hi
    else firstAfter list cursor lo ((lo + hi) / 2)
  else lo
termination_by hi - lo

def indexOf (list : List MessageCursor) (cursor : MessageCursor) : Nat :=
  (list.findIdx? fun row => row.id = cursor.id).getD (firstAfter list cursor 0 list.length)

/-- Where the rows of a window end, before they are cut to `maxRows`. -/
def endOf (list : List MessageCursor) : Option MessageCursor → Nat
  | none => list.length
  | some cursor =>
    if (list[indexOf list cursor]?).any fun row => row.id = cursor.id then indexOf list cursor + 1
    else indexOf list cursor

def follow (list : List MessageCursor) : WindowRange := ⟨list.length - followRows, list.length⟩

def windowRange (list : List MessageCursor) : Window → WindowRange
  | none => follow list
  | some window =>
    let start := indexOf list window.start
    let stop := max start (min (endOf list window.end_) (start + maxRows))
    if stop = start ∧ 0 < list.length then follow list else ⟨start, stop⟩

def held (list : List MessageCursor) (start stop : Nat) : Window :=
  list[start]?.map fun row =>
    ⟨row, if list.length ≤ stop then none else list[max start (stop - 1)]?⟩

def hold (list : List MessageCursor) (range : WindowRange) : Window :=
  held list range.from_ range.to_

def showOlder (list : List MessageCursor) (range : WindowRange) : Window :=
  held list (range.from_ - stepRows) (min range.to_ (range.from_ - stepRows + maxRows))

def showNewer (list : List MessageCursor) (range : WindowRange) : Window :=
  let stop := min list.length (range.to_ + stepRows)
  held list (max range.from_ (stop - maxRows)) stop

def around (list : List MessageCursor) (index : Nat) : Window :=
  let start := min (index - followRows / 2) (list.length - followRows)
  held list start (min list.length (start + followRows))

def trimPoint (list : List MessageCursor) (keep : Option MessageCursor) : Option MessageCursor :=
  if list.length ≤ trimAt then none
  else do
    let newest ← list[list.length - holdRows]?
    let first ← list.head?
    let cut := (keep.filter fun keep => compareMessages keep newest < 0).getD newest
    if compareMessages cut first ≤ 0 then none else some cut

/-- What `trimMessageView` leaves of the rows. -/
def trimmed (list : List MessageCursor) (keepFrom : MessageCursor) : List MessageCursor :=
  list.filter fun row => 0 ≤ compareMessages row keepFrom

/-- The rows of a conversation as they are held. -/
structure Ascending (list : List MessageCursor) : Prop where
  ordered : list.Pairwise fun left right => compareMessages left right < 0
  distinct : (list.map MessageCursor.id).Nodup

instance : Decidable (Ascending list) :=
  decidable_of_iff ((list.Pairwise fun left right => compareMessages left right < 0) ∧
    (list.map MessageCursor.id).Nodup) ⟨fun both => ⟨both.1, both.2⟩, fun rows => ⟨rows.1, rows.2⟩⟩

structure View where
  list : List MessageCursor
  window : Window

def View.range (view : View) : WindowRange := windowRange view.list view.window

inductive ViewEvent
  /-- Rows arrive, or leave the list. -/
  | rows (later : List MessageCursor)
  | hold
  | showOlder
  | showNewer
  | around (index : Nat)

def View.step (view : View) : ViewEvent → Option View
  | .rows later => if Ascending later then some { view with list := later } else none
  | .hold => some { view with window := hold view.list view.range }
  | .showOlder => some { view with window := showOlder view.list view.range }
  | .showNewer => some { view with window := showNewer view.list view.range }
  | .around index =>
    if index < view.list.length then some { view with window := around view.list index } else none

theorem first_after_le (list : List MessageCursor) (cursor : MessageCursor) {lo hi : Nat}
    (order : lo ≤ hi) : firstAfter list cursor lo hi ≤ hi := by
  induction lo, hi using firstAfter.induct list cursor with
  | case1 lo hi inside below ih =>
    rw [firstAfter, if_pos inside, if_pos below]
    exact ih (by omega)
  | case2 lo hi inside above ih =>
    rw [firstAfter, if_pos inside, if_neg above]
    exact (ih (by omega)).trans (by omega)
  | case3 lo hi outside =>
    rw [firstAfter, if_neg outside]
    exact order

theorem index_of_le (list : List MessageCursor) (cursor : MessageCursor) :
    indexOf list cursor ≤ list.length := by
  rw [indexOf]
  cases found : list.findIdx? fun row => row.id = cursor.id with
  | none => exact first_after_le list cursor (Nat.zero_le _)
  | some index =>
    obtain ⟨inside, _⟩ := List.findIdx?_eq_some_iff_getElem.mp found
    exact le_of_lt inside

theorem index_of_row (rows : Ascending list) {index : Nat} {row : MessageCursor}
    (found : list[index]? = some row) : indexOf list row = index := by
  obtain ⟨inside, rfl⟩ := List.getElem?_eq_some_iff.mp found
  have first : (list.findIdx? fun row => row.id = list[index].id) = some index := by
    rw [List.findIdx?_eq_some_iff_getElem]
    refine ⟨inside, by simp, ?_⟩
    intro before earlier same
    have apart := nodup_iff_getElem?_ne_getElem?.mp rows.distinct before index earlier
      (by rwa [length_map])
    simp only [List.getElem?_map, List.getElem?_eq_getElem inside,
      List.getElem?_eq_getElem (earlier.trans inside), map_some] at apart
    exact apart (congrArg some (of_decide_eq_true same))
  rw [indexOf, first]
  rfl

theorem end_of_le (list : List MessageCursor) (cursor : Option MessageCursor) :
    endOf list cursor ≤ list.length := by
  cases cursor with
  | none => exact le_refl _
  | some cursor =>
    have bound := index_of_le list cursor
    rw [endOf]
    split
    · rename_i there
      obtain ⟨row, found, _⟩ := (any_eq_true _ _).mp there
      exact (List.getElem?_eq_some_iff.mp found).1
    · exact bound

/-- A range of the list: bounded, and empty only where the list is. -/
structure Bounded (list : List MessageCursor) (range : WindowRange) : Prop where
  order : range.from_ ≤ range.to_
  inside : range.to_ ≤ list.length
  most : range.to_ - range.from_ ≤ maxRows
  some_ : 0 < list.length → range.from_ < range.to_

theorem window_range_bounded (list : List MessageCursor) (window : Window) :
    Bounded list (windowRange list window) := by
  have following : Bounded list (follow list) := by
    constructor <;> simp only [follow, followRows, maxRows] <;> omega
  cases window with
  | none => exact following
  | some window =>
    have start := index_of_le list window.start
    have stop := end_of_le list window.end_
    simp only [windowRange]
    split
    · exact following
    · constructor <;> simp only <;> omega

/-- Rows of the list held still are found again where they are. -/
theorem window_range_held (rows : Ascending list) {start stop : Nat}
    (some_ : 0 < list.length → start < stop) (order : start ≤ stop) (inside : stop ≤ list.length)
    (few : stop ≤ start + maxRows) : windowRange list (held list start stop) = ⟨start, stop⟩ := by
  rcases Nat.eq_zero_or_pos list.length with empty | held_
  · obtain rfl := length_eq_zero_iff.mp empty
    obtain rfl := Nat.le_zero.mp inside
    obtain rfl := Nat.le_zero.mp order
    rfl
  have filled := some_ held_
  have front : start < list.length := by omega
  have back : stop - 1 < list.length := by omega
  have first : list[start]? = some list[start] := List.getElem?_eq_getElem front
  have last : list[stop - 1]? = some list[stop - 1] := List.getElem?_eq_getElem back
  have ending : endOf list (if list.length ≤ stop then none else list[max start (stop - 1)]?) =
      stop := by
    split
    · exact Nat.le_antisymm ‹_› inside
    · rw [max_eq_right (by omega), last, endOf, index_of_row rows last, last]
      simp
      omega
  simp only [held, first, map_some, windowRange, ending, index_of_row rows first]
  rw [if_neg (by omega), min_eq_left few, max_eq_right (le_of_lt filled)]

def Shows (range : WindowRange) (index : Nat) : Prop := range.from_ ≤ index ∧ index < range.to_

/-- What a view is to show of its list, now and after one more move. -/
structure Shown (view : View) : Prop where
  bounded : Bounded view.list view.range
  around : ∀ index < view.list.length,
    Shows (windowRange view.list (around view.list index)) index
  older : ∀ range, range = windowRange view.list (showOlder view.list view.range) →
    (view.list ≠ [] → Shows range view.range.from_) ∧
      range.from_ = view.range.from_ - min stepRows view.range.from_
  newer : ∀ range, range = windowRange view.list (showNewer view.list view.range) →
    (view.list ≠ [] → Shows range (view.range.to_ - 1)) ∧
      range.to_ = view.range.to_ + min stepRows (view.list.length - view.range.to_)
  trim : ∀ keep cut, trimPoint view.list keep = some cut →
    (trimmed view.list cut).length < view.list.length ∧
      (∀ row ∈ view.list.drop (view.list.length - holdRows), row ∈ trimmed view.list cut) ∧
      ∀ row ∈ keep, row ∈ view.list → row ∈ trimmed view.list cut

/-- The cut is neither after the row that must stay nor after the newest that are held. -/
theorem cut_before (keep : Option MessageCursor) (newest : MessageCursor) :
    Before ((keep.filter fun keep => compareMessages keep newest < 0).getD newest) newest ∧
      ∀ row ∈ keep,
        Before ((keep.filter fun keep => compareMessages keep newest < 0).getD newest) row := by
  cases keep with
  | none => exact ⟨before_refl newest, by simp⟩
  | some keep =>
    by_cases older : compareMessages keep newest < 0
    · simp only [filter_some, older, decide_true, if_true, getD_some]
      refine ⟨le_of_lt older, ?_⟩
      rintro row ⟨⟩
      exact before_refl keep
    · simp only [filter_some, older, decide_false, Bool.false_eq_true, if_false,
        getD_none]
      refine ⟨before_refl newest, ?_⟩
      rintro row ⟨⟩
      exact not_not.mp ((compare_neg_iff _ _).not.mp older)

theorem before_of_drop (rows : Ascending list) {index : Nat} {newest row : MessageCursor}
    (found : list[index]? = some newest) (mem : row ∈ list.drop index) : Before newest row := by
  obtain ⟨inside, rfl⟩ := List.getElem?_eq_some_iff.mp found
  have later := rows.ordered.drop (i := index)
  rw [drop_eq_getElem_cons inside] at mem later
  rcases mem_cons.mp mem with rfl | behind
  · exact before_refl _
  · exact le_of_lt ((pairwise_cons.mp later).1 row behind)

theorem mem_trimmed {cut row : MessageCursor} (mem : row ∈ list) (kept : Before cut row) :
    row ∈ trimmed list cut :=
  mem_filter.mpr ⟨mem, decide_eq_true ((compare_nonneg_iff _ _).mpr kept)⟩

theorem trim_point_cuts (rows : Ascending list) {keep : Option MessageCursor} {cut : MessageCursor}
    (found : trimPoint list keep = some cut) :
    (trimmed list cut).length < list.length ∧
      (∀ row ∈ list.drop (list.length - holdRows), row ∈ trimmed list cut) ∧
      ∀ row ∈ keep, row ∈ list → row ∈ trimmed list cut := by
  unfold trimPoint at found
  split at found
  · cases found
  · obtain ⟨newest, held, found⟩ := bind_eq_some_iff.mp found
    obtain ⟨first, head, found⟩ := bind_eq_some_iff.mp found
    obtain ⟨late, least⟩ := cut_before keep newest
    dsimp only at found
    split at found
    · cases found
    · rename_i later
      cases found
      refine ⟨?_, ?_, ?_⟩
      · rw [trimmed, length_filter_lt_length_iff_exists]
        refine ⟨first, mem_of_head? head, ?_⟩
        rw [decide_eq_true_eq, not_le, compare_neg_iff]
        exact later
      · intro row mem
        exact mem_trimmed (mem_of_mem_drop mem)
          (before_trans late (before_of_drop rows held mem))
      · intro row kept mem
        exact mem_trimmed mem (least row kept)

/-- Any window over held rows shows a part of them. -/
theorem shown_of_ascending (view : View) (rows : Ascending view.list) : Shown view := by
  have bounded : Bounded view.list view.range := window_range_bounded view.list view.window
  obtain ⟨order, inside, most, filled⟩ := bounded
  refine ⟨⟨order, inside, most, filled⟩, ?_, ?_, ?_, fun keep cut => trim_point_cuts rows⟩
  · intro index held
    unfold around
    simp only [followRows]
    rw [window_range_held rows (by omega) (by omega) (by omega) (by unfold maxRows; omega)]
    constructor <;> simp only <;> omega
  · rintro range rfl
    unfold showOlder maxRows stepRows at *
    rw [window_range_held rows (by omega) (by omega) (by omega) (by unfold maxRows; omega)]
    refine ⟨fun held => ?_, by simp only; omega⟩
    have some_ := filled (length_pos_of_ne_nil held)
    constructor <;> simp only <;> omega
  · rintro range rfl
    unfold showNewer maxRows stepRows at *
    simp only
    rw [window_range_held rows (by omega) (by omega) (by omega) (by unfold maxRows; omega)]
    refine ⟨fun held => ?_, by simp only; omega⟩
    have some_ := filled (length_pos_of_ne_nil held)
    constructor <;> simp only <;> omega

/-- From the following window, the view shows a bounded part of its list in every run. -/
theorem run_shows_part_of_list (rows : Ascending list) {events : List ViewEvent} {view : View}
    (ran : run View.step ⟨list, none⟩ events = some view) : Shown view := by
  apply shown_of_ascending
  have keeps : ∀ (view : View) (event : ViewEvent) (next : View), Ascending view.list → True →
      view.step event = some next → Ascending next.list := by
    intro view event next rows _ stepped
    cases event with
    | rows later =>
      simp only [View.step, ite_none_right_eq_some, Option.some.injEq] at stepped
      obtain ⟨ascending, rfl⟩ := stepped
      exact ascending
    | hold | showOlder | showNewer =>
      cases stepped
      exact rows
    | around index =>
      simp only [View.step, ite_none_right_eq_some, Option.some.injEq] at stepped
      obtain ⟨_, rfl⟩ := stepped
      exact rows
  exact run_keeps keeps rows (meets_of_forall (fun _ _ => trivial) _ _) ran

theorem sample_window_shown :
    Shown ⟨[⟨2, "b"⟩, ⟨3, "c"⟩], some ⟨⟨1, "a"⟩, none⟩⟩ :=
  @run_shows_part_of_list [⟨1, "a"⟩, ⟨2, "b"⟩] (by decide) [.hold, .rows [⟨2, "b"⟩, ⟨3, "c"⟩]] _ rfl

end AwfulChat.ChatWindow
