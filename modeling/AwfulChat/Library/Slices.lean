import Mathlib.Data.List.Basic
import Mathlib.Tactic.Linarith

/-!
# Slices of a list

A list cut into slices of one width, the last of which may be shorter. The slices
put together are the list, and a list put together from blocks of that width has
the blocks as its slices.
-/

namespace AwfulChat.Library

open List

set_option autoImplicit false

variable {Item : Type*}

/-- `list.slice(index * width, (index + 1) * width)`. -/
def sliceAt (list : List Item) (width index : Nat) : List Item :=
  (list.drop (index * width)).take width

/-- How many slices a list of that length has, at least one. -/
def sliceCount (length width : Nat) : Nat := max 1 ((length + width - 1) / width)

theorem take_succ_slice (list : List Item) (width index : Nat) :
    list.take ((index + 1) * width) = list.take (index * width) ++ sliceAt list width index := by
  rw [Nat.succ_mul, take_add]
  rfl

theorem slices_front (list : List Item) (width count : Nat) :
    (List.range count).flatMap (sliceAt list width) = list.take (count * width) := by
  induction count with
  | zero => simp
  | succ count ih =>
    rw [range_succ, flatMap_append, ih, take_succ_slice]
    simp

theorem length_le_slices (length : Nat) {width : Nat} (positive : 0 < width) :
    length ≤ sliceCount length width * width := by
  have whole : length ≤ (length + width - 1) / width * width := by
    have division := Nat.div_add_mod (length + width - 1) width
    have remainder := Nat.mod_lt (length + width - 1) positive
    have turned : (length + width - 1) / width * width =
        width * ((length + width - 1) / width) := Nat.mul_comm _ _
    omega
  have more : (length + width - 1) / width * width ≤ sliceCount length width * width :=
    Nat.mul_le_mul_right width (Nat.le_max_right _ _)
  exact le_trans whole more

theorem slices_whole (list : List Item) {width : Nat} (positive : 0 < width) :
    (List.range (sliceCount list.length width)).flatMap (sliceAt list width) = list := by
  rw [slices_front]
  exact take_of_length_le (length_le_slices list.length positive)

theorem before_last_full {length width index : Nat} (positive : 0 < width)
    (before : index + 1 < sliceCount length width) : (index + 1) * width < length := by
  have inside : index + 1 < (length + width - 1) / width := by
    unfold sliceCount at before
    omega
  have reached : (index + 2) * width ≤ length + width - 1 := by
    have least : index + 2 ≤ (length + width - 1) / width := inside
    calc
      (index + 2) * width ≤ (length + width - 1) / width * width :=
        Nat.mul_le_mul_right width least
      _ ≤ length + width - 1 := Nat.div_mul_le_self _ _
  have spelled : (index + 2) * width = (index + 1) * width + width := by
    rw [Nat.succ_mul (index + 1) width]
  omega

theorem slice_start_le {length width index : Nat} (positive : 0 < width)
    (inside : index < sliceCount length width) : index * width ≤ length := by
  cases index with
  | zero => simp
  | succ index => exact Nat.le_of_lt (before_last_full positive inside)

theorem slice_length_le (list : List Item) (width index : Nat) :
    (sliceAt list width index).length ≤ width := length_take_le _ _

theorem slice_length_full {list : List Item} {width index : Nat}
    (full : (index + 1) * width ≤ list.length) : (sliceAt list width index).length = width := by
  have spelled : (index + 1) * width = index * width + width := Nat.succ_mul index width
  simp only [sliceAt, length_take, length_drop]
  omega

theorem slice_blocks (block : Nat → List Item) {width count : Nat}
    (full : ∀ index, index + 1 < count → (block index).length = width)
    (bounded : ∀ index, index < count → (block index).length ≤ width) {index : Nat}
    (inside : index < count) :
    sliceAt ((List.range count).flatMap block) width index = block index := by
  have lengths : ∀ reached, reached < count →
      ((List.range reached).flatMap block).length = reached * width := by
    intro reached
    induction reached with
    | zero => simp
    | succ reached ih =>
      intro below
      rw [range_succ, flatMap_append, length_append,
        ih (by omega), Nat.succ_mul]
      simp [full reached below]
  obtain ⟨rest, split⟩ : ∃ rest, count = index + (rest + 1) := ⟨count - index - 1, by omega⟩
  have parts : (List.range count).flatMap block = (List.range index).flatMap block ++
      (block index ++ (List.range rest).flatMap fun later => block (index + (later + 1))) := by
    rw [split, range_add, flatMap_append, range_succ_eq_map]
    simp [flatMap_map]
  rw [sliceAt, parts, drop_left' (lengths index inside)]
  by_cases last : index + 1 < count
  · exact take_left' (full index last)
  · have none_left : rest = 0 := by omega
    subst none_left
    simpa using take_of_length_le (bounded index inside)

theorem overwrite_slice {list written slice : List Item} {blank : Item} {offset width : Nat}
    (inside : offset ≤ list.length)
    (held : written = list.take offset ++ List.replicate (list.length - offset) blank)
    (cut : slice = (list.drop offset).take width) :
    offset + slice.length ≤ list.length ∧
      written.take offset ++ slice ++ written.drop (offset + slice.length) =
        list.take (offset + slice.length) ++
          List.replicate (list.length - (offset + slice.length)) blank := by
  have size : slice.length = min width (list.length - offset) := by simp [cut]
  have front : written.take offset = list.take offset := by
    rw [held]
    apply take_left'
    simp [inside]
  have back : written.drop (offset + slice.length) =
      List.replicate (list.length - (offset + slice.length)) blank := by
    rw [held, ← drop_drop, drop_left' (by simp [inside]), drop_replicate]
    congr 1
    omega
  have grown : list.take offset ++ slice = list.take (offset + slice.length) := by
    rw [take_add, size, Nat.min_def]
    split
    · rw [cut]
    · rename_i short
      have rest : slice = list.drop offset := by
        rw [cut]
        apply take_of_length_le
        rw [length_drop]
        omega
      rw [rest, ← length_drop, take_length]
  exact ⟨by omega, by rw [front, back, grown]⟩
end AwfulChat.Library
