import Mathlib.Data.List.Basic
import Mathlib.Data.List.Nodup
import Mathlib.Data.List.Sort

/-!
# What a stable sort does

A stable sort puts `first` before `second` when the order does, or when the order leaves
them equal and they stood so before. Two lists of the same items, each sorted by an order
of its own, come out as one list exactly when they agree on that for every two items.
-/

namespace AwfulChat.Library

open List

set_option autoImplicit false

variable {Item : Type*}

def SortedBefore (order : Item → Item → Prop) (list : List Item) (first second : Item) : Prop :=
  ¬ order second first ∨ (order first second ∧ [first, second].Sublist list)

variable {first second : Item} {list : List Item}

theorem pair_or_swap (one : first ∈ list) (two : second ∈ list) (apart : first ≠ second) :
    [first, second].Sublist list ∨ [second, first].Sublist list := by
  induction list with
  | nil => cases one
  | cons head rest ih =>
    rcases mem_cons.mp one with rfl | early
    · rcases mem_cons.mp two with rfl | late
      · exact absurd rfl apart
      · exact Or.inl ((singleton_sublist.mpr late).cons_cons _)
    · rcases mem_cons.mp two with rfl | late
      · exact Or.inr ((singleton_sublist.mpr early).cons_cons _)
      · exact (ih early late).imp (List.Sublist.cons head) (List.Sublist.cons head)

theorem not_both_pairs (unique : list.Nodup)
    (one : [first, second].Sublist list) : ¬ [second, first].Sublist list := by
  induction list with
  | nil => cases one
  | cons head rest ih =>
    obtain ⟨fresh, others⟩ := nodup_cons.mp unique
    intro two
    cases one with
    | cons _ one =>
      cases two with
      | cons _ two => exact ih others one two
      | cons_cons _ _ => exact fresh (one.subset (by simp))
    | cons_cons _ one =>
      cases two with
      | cons _ two => exact fresh (two.subset (by simp))
      | cons_cons _ two => exact fresh (singleton_sublist.mp two)

theorem pair_in_filter {keep : Item → Bool} :
    [first, second].Sublist (list.filter keep) ↔
      keep first = true ∧ keep second = true ∧ [first, second].Sublist list := by
  constructor
  · intro pair
    have one : first ∈ list.filter keep := pair.subset (by simp)
    have two : second ∈ list.filter keep := pair.subset (by simp)
    exact ⟨(mem_filter.mp one).2, (mem_filter.mp two).2, pair.trans filter_sublist⟩
  · rintro ⟨one, two, pair⟩
    simpa [one, two] using pair.filter keep

theorem eq_of_map_eq {Value : Type*} {value : Item → Value} {left right : List Item}
    (apart : ∀ first ∈ left, ∀ second ∈ right, value first = value second → first = second)
    (same : left.map value = right.map value) : left = right := by
  induction left generalizing right with
  | nil => exact (map_eq_nil_iff.mp same.symm).symm
  | cons first rest ih =>
    cases right with
    | nil => cases same
    | cons second others =>
      rw [map_cons, map_cons, List.cons.injEq] at same
      rw [apart first (by simp) second (by simp) same.1]
      congr 1
      apply ih _ same.2
      intro one oneMember two twoMember
      exact apart one (mem_cons_of_mem _ oneMember) two (mem_cons_of_mem _ twoMember)

theorem eq_of_pairs {left right : List Item} (same : left.Perm right) (unique : left.Nodup)
    (agree : ∀ first second, [first, second].Sublist left → [first, second].Sublist right) :
    left = right := by
  have one : left.Pairwise fun first second => [first, second].Sublist right :=
    pairwise_iff_forall_sublist.mpr fun pair => agree _ _ pair
  have two : right.Pairwise fun first second => [first, second].Sublist right :=
    pairwise_iff_forall_sublist.mpr fun pair => pair
  apply List.Perm.eq_of_pairwise _ one two same
  intro first second _ _ before after
  exact absurd after (not_both_pairs (same.nodup_iff.mp unique) before)

section Sorting

variable (order : Item → Item → Prop) [DecidableRel order] [Std.Total order] [IsTrans Item order]

theorem pair_in_sort {list : List Item} (unique : list.Nodup) {first second : Item}
    (one : first ∈ list) (two : second ∈ list) (apart : first ≠ second) :
    [first, second].Sublist (list.insertionSort order) ↔ SortedBefore order list first second := by
  have uniqueSorted : (list.insertionSort order).Nodup :=
    (perm_insertionSort order list).nodup_iff.mpr unique
  have ordered : ∀ {left right}, [left, right].Sublist (list.insertionSort order) →
      order left right :=
    pairwise_iff_forall_sublist.mp (pairwise_insertionSort order list)
  constructor
  · intro pair
    by_cases back : order second first
    · apply Or.inr
      refine ⟨ordered pair, ?_⟩
      rcases pair_or_swap one two apart with stood | swapped
      · exact stood
      · exact absurd (pair_sublist_insertionSort back swapped)
          (not_both_pairs uniqueSorted pair)
    · exact Or.inl back
  · rintro (strictly | ⟨before, stood⟩)
    · rcases pair_or_swap ((mem_insertionSort order).mpr one)
        ((mem_insertionSort order).mpr two) apart with pair | swapped
      · exact pair
      · exact absurd (ordered swapped) strictly
    · exact pair_sublist_insertionSort before stood

variable (other : Item → Item → Prop) [DecidableRel other] [Std.Total other] [IsTrans Item other]

theorem sort_eq_iff {left right : List Item} (same : left.Perm right) (unique : left.Nodup) :
    left.insertionSort order = right.insertionSort other ↔
      ∀ first ∈ left, ∀ second ∈ left, first ≠ second →
        (SortedBefore order left first second ↔ SortedBefore other right first second) := by
  have rightUnique : right.Nodup := same.nodup_iff.mp unique
  constructor
  · intro equal first one second two apart
    rw [← pair_in_sort order unique one two apart, equal,
      pair_in_sort other rightUnique (same.subset one) (same.subset two) apart]
  · intro agree
    have sorted : (left.insertionSort order).Perm (right.insertionSort other) :=
      ((perm_insertionSort order left).trans same).trans
        (perm_insertionSort other right).symm
    have uniqueSorted : (left.insertionSort order).Nodup :=
      (perm_insertionSort order left).nodup_iff.mpr unique
    apply eq_of_pairs sorted uniqueSorted
    intro first second pair
    have one : first ∈ left := (mem_insertionSort order).mp (pair.subset (by simp))
    have two : second ∈ left := (mem_insertionSort order).mp (pair.subset (by simp))
    have apart : first ≠ second := by
      rintro rfl
      exact not_both_pairs uniqueSorted pair pair
    rw [pair_in_sort other rightUnique (same.subset one) (same.subset two) apart,
      ← agree first one second two apart, ← pair_in_sort order unique one two apart]
    exact pair

end Sorting

end AwfulChat.Library
