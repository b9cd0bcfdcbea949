import AwfulChat.Library.OrderedMap
import Mathlib.Algebra.BigOperators.Group.List.Basic
import Mathlib.Algebra.Order.BigOperators.Group.List

/-!
# Totals over a finite map

The sum of a weight over the entries of an insertion-ordered map, and how the
writes of the map move it. The size of a map is the total of the weight one.
-/

namespace AwfulChat.Library.OrderedMap

open List

set_option autoImplicit false

variable {Key Value : Type*}

def total (weight : Key → Value → Int) (map : OrderedMap Key Value) : Int :=
  (map.entries.map fun entry => weight entry.1 entry.2).sum

@[simp] theorem total_empty (weight : Key → Value → Int) :
    (empty : OrderedMap Key Value).total weight = 0 := rfl

theorem total_one (map : OrderedMap Key Value) : map.total (fun _ _ => 1) = map.size := by
  simp [total, size]

theorem total_nonneg {weight : Key → Value → Int} (positive : ∀ key value, 0 ≤ weight key value)
    (map : OrderedMap Key Value) : 0 ≤ map.total weight := by
  apply sum_nonneg
  intro value mem
  obtain ⟨entry, -, rfl⟩ := mem_map.mp mem
  exact positive entry.1 entry.2

theorem total_mono {weight other : Key → Value → Int}
    (below : ∀ key value, weight key value ≤ other key value) (map : OrderedMap Key Value) :
    map.total weight ≤ map.total other :=
  sum_le_sum fun entry _ => below entry.1 entry.2

theorem total_add_const (weight : Key → Value → Int) (amount : Int) (map : OrderedMap Key Value) :
    map.total (fun key value => weight key value + amount) = map.total weight + amount * map.size := by
  unfold total size
  induction map.entries with
  | nil => simp
  | cons entry rest ih =>
    simp only [map_cons, sum_cons, length_cons]
    rw [ih]
    push_cast
    rw [Int.mul_add, Int.mul_one]
    omega

variable [DecidableEq Key] {map : OrderedMap Key Value} {key : Key} {old : Value}
  (weight : Key → Value → Int)

theorem total_set_of_absent (value : Value) (absent : map.get key = none) :
    (map.set key value).total weight = map.total weight + weight key value := by
  have unlisted : key ∉ map.keys := fun mem => mem_keys_iff.mp mem absent
  unfold total
  rw [set_entries_of_absent map key value unlisted]
  simp

theorem total_set_of_present (value : Value) (present : map.get key = some old) :
    (map.set key value).total weight = map.total weight - weight key old + weight key value := by
  obtain ⟨before, after, stands⟩ := stands_of_get present
  unfold total
  rw [stands.set, stands.split]
  simp only [map_append, map_cons, sum_append, sum_cons]
  omega

theorem total_delete_of_present (present : map.get key = some old) :
    (map.delete key).total weight = map.total weight - weight key old := by
  obtain ⟨before, after, stands⟩ := stands_of_get present
  unfold total
  rw [stands.delete, stands.split]
  simp only [map_append, map_cons, sum_append, sum_cons]
  omega

theorem size_delete_of_present (present : map.get key = some old) :
    ((map.delete key).size : Int) = map.size - 1 := by
  rw [← total_one, ← total_one, total_delete_of_present _ present]

theorem total_congr {weight other : Key → Value → Int}
    (same : ∀ key value, map.get key = some value → weight key value = other key value) :
    map.total weight = map.total other := by
  unfold total
  apply congrArg List.sum
  apply map_congr_left
  intro entry mem
  exact same entry.1 entry.2 (get_of_mem mem)

theorem total_reweigh {weight other : Key → Value → Int} (present : map.get key = some old)
    (same : ∀ second value, map.get second = some value → second ≠ key →
      other second value = weight second value) :
    map.total other = map.total weight - weight key old + other key old := by
  have rest : (map.delete key).total other = (map.delete key).total weight := by
    apply total_congr
    intro second value found
    rw [get_delete] at found
    split at found
    · cases found
    · rename_i apart
      exact same second value found apart
  rw [total_delete_of_present other present, total_delete_of_present weight present] at rest
  omega

theorem le_total {weight : Key → Value → Int} (positive : ∀ key value, 0 ≤ weight key value)
    (present : map.get key = some old) : weight key old ≤ map.total weight := by
  have rest := total_nonneg positive (map.delete key)
  rw [total_delete_of_present weight present] at rest
  omega

theorem total_zero_of_zero {weight other : Key → Value → Int}
    (positive : ∀ key value, 0 ≤ weight key value) (zero : map.total weight = 0)
    (weightless : ∀ key value, weight key value = 0 → other key value = 0) :
    map.total other = 0 := by
  have none_weighs : map.total other = map.total fun _ _ => 0 := by
    apply total_congr
    intro key value found
    have upper := le_total positive found
    have lower := positive key value
    exact weightless key value (by omega)
  rw [none_weighs]
  simp [total]

end AwfulChat.Library.OrderedMap
