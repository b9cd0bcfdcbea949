import Mathlib.Data.List.Nodup

/-!
# A list of parties one of which moves

The parties of a system stand in a list and a step replaces one of them. What holds of
the others stays, what the party keeps the list keeps, and whoever was there is still
there, further on.
-/

namespace AwfulChat.Library

open List

set_option autoImplicit false

variable {Party Value : Type*} {parties : List Party} {place : Nat} {before after : Party}

theorem exists_after_set {Later : Party → Party → Prop} (refl : ∀ party, Later party party)
    (found : parties[place]? = some before) (moves : Later before after) {other : Party}
    (mem : other ∈ parties) : ∃ party ∈ parties.set place after, Later other party := by
  obtain ⟨index, stands⟩ := mem_iff_getElem?.mp mem
  by_cases same : place = index
  · subst same
    rw [found] at stands
    obtain rfl := Option.some.inj stands
    have bound : place < parties.length := (List.getElem?_eq_some_iff.mp found).1
    exact ⟨after, mem_set bound after, moves⟩
  · refine ⟨other, ?_, refl other⟩
    apply mem_of_getElem?
    rw [List.getElem?_set_ne same]
    exact stands

theorem map_set_same (value : Party → Value) (found : parties[place]? = some before)
    (same : value after = value before) : (parties.set place after).map value = parties.map value := by
  obtain ⟨bound, rfl⟩ := List.getElem?_eq_some_iff.mp found
  rw [map_set, same]
  exact ext_getElem (by simp) (by
    intro index first second
    rw [getElem_set]
    split
    · rename_i here
      subst here
      simp
    · rfl)

end AwfulChat.Library
