import AwfulChat.Inbound.Model

/-!
# What a set of rows lets a push claim

`claimable` keeps, for each sender, the highest lamport below that sender's
floor, and the floors a push keeps are never above one it was told. Both loops
are folds over a walk of a map, so each fact is one induction over the walk.
-/

namespace AwfulChat.Inbound

open Library SyncPush Library.OrderedMap
open List hiding get_of_mem

set_option autoImplicit false

/-- A lamport that no floor of its sender stops. -/
def BelowFloor (floors : OrderedMap Sender Int) (sender : Sender) (lamport : Int) : Prop :=
  ∀ floor, floors.get sender = some floor → lamport < floor

theorem raise_best_get (best : OrderedMap Sender Int) (sender other : Sender) (lamport : Int) :
    (raiseBest best sender lamport).get other =
      if other = sender ∧ (best.get sender).getD (-1) < lamport then some lamport
      else best.get other := by
  unfold raiseBest
  by_cases higher : (best.get sender).getD (-1) < lamport
  · rw [if_pos higher, get_set]
    by_cases hit : other = sender <;> simp [hit, higher]
  · rw [if_neg higher, if_neg (fun both => higher both.2)]

theorem claim_row_cases (floors best : OrderedMap Sender Int) (row : Sender × Int) :
    (claimRow floors best row = best ∧ ¬BelowFloor floors row.1 row.2) ∨
      (claimRow floors best row = raiseBest best row.1 row.2 ∧
        BelowFloor floors row.1 row.2) := by
  unfold claimRow BelowFloor
  cases found : floors.get row.1 with
  | none => exact Or.inr ⟨rfl, by simp⟩
  | some floor =>
    by_cases stopped : floor ≤ row.2
    · refine Or.inl ⟨by simp [stopped], ?_⟩
      intro below
      have less := below floor rfl
      omega
    · refine Or.inr ⟨by simp [stopped], ?_⟩
      rintro _ ⟨⟩
      omega

theorem claim_fold_sound (floors : OrderedMap Sender Int) (rows : List (Sender × Int))
    (best : OrderedMap Sender Int) {sender : Sender} {lamport : Int}
    (claimed : (rows.foldl (claimRow floors) best).get sender = some lamport) :
    best.get sender = some lamport ∨
      ((sender, lamport) ∈ rows ∧ BelowFloor floors sender lamport) := by
  induction rows generalizing best with
  | nil => exact Or.inl claimed
  | cons row rest ih =>
    rw [foldl_cons] at claimed
    rcases ih _ claimed with kept | ⟨mem, below⟩
    · rcases claim_row_cases floors best row with ⟨same, -⟩ | ⟨raised, below⟩
      · rw [same] at kept
        exact Or.inl kept
      · rw [raised, raise_best_get] at kept
        split_ifs at kept with hit
        · cases kept
          obtain ⟨rfl, -⟩ := hit
          exact Or.inr ⟨by simp, below⟩
        · exact Or.inl kept
    · exact Or.inr ⟨mem_cons_of_mem _ mem, below⟩

theorem claimable_sound {rows : List (Sender × Int)} {floors : OrderedMap Sender Int}
    {sender : Sender} {lamport : Int}
    (claimed : (sender, lamport) ∈ (claimable rows floors).entries) :
    (sender, lamport) ∈ rows ∧ BelowFloor floors sender lamport := by
  have found := get_of_mem claimed
  rcases claim_fold_sound floors rows .empty found with impossible | sound
  · simp at impossible
  · exact sound

theorem claim_fold_mono (floors : OrderedMap Sender Int) (rows : List (Sender × Int))
    (best : OrderedMap Sender Int) {sender : Sender} {lamport : Int}
    (kept : best.get sender = some lamport) :
    ∃ higher, lamport ≤ higher ∧
      (rows.foldl (claimRow floors) best).get sender = some higher := by
  induction rows generalizing best lamport with
  | nil => exact ⟨lamport, le_refl _, kept⟩
  | cons row rest ih =>
    rw [foldl_cons]
    rcases claim_row_cases floors best row with ⟨same, -⟩ | ⟨raised, -⟩
    · rw [same]
      exact ih best kept
    · rw [raised]
      by_cases hit : sender = row.1 ∧ (best.get row.1).getD (-1) < row.2
      · have now : (raiseBest best row.1 row.2).get sender = some row.2 := by
          rw [raise_best_get, if_pos hit]
        obtain ⟨higher, above, final⟩ := ih _ now
        refine ⟨higher, ?_, final⟩
        have previous : (best.get row.1).getD (-1) = lamport := by
          rw [← hit.1, kept]
          rfl
        have raisedAbove := hit.2
        omega
      · refine ih _ ?_
        rw [raise_best_get, if_neg hit]
        exact kept

theorem claimable_complete {rows : List (Sender × Int)} {floors : OrderedMap Sender Int}
    {sender : Sender} {lamport : Int} (mem : (sender, lamport) ∈ rows)
    (below : BelowFloor floors sender lamport) (positive : 0 ≤ lamport) :
    ∃ higher, lamport ≤ higher ∧ (sender, higher) ∈ (claimable rows floors).entries := by
  obtain ⟨before, after, rfl⟩ := append_of_mem mem
  unfold claimable
  rw [foldl_append, foldl_cons]
  generalize before.foldl (claimRow floors) .empty = best
  have now : ∃ current, lamport ≤ current ∧
      (claimRow floors best (sender, lamport)).get sender = some current := by
    rcases claim_row_cases floors best (sender, lamport) with ⟨-, stopped⟩ | ⟨raised, -⟩
    · exact absurd below stopped
    · rw [raised, raise_best_get]
      by_cases higher : (best.get sender).getD (-1) < lamport
      · exact ⟨lamport, le_refl _, by simp [higher]⟩
      · cases found : best.get sender with
        | none =>
          rw [found] at higher
          simp only [Option.getD_none] at higher
          omega
        | some current =>
          rw [found] at higher
          simp only [Option.getD_some] at higher
          refine ⟨current, by omega, ?_⟩
          simp [higher]
  obtain ⟨current, above, kept⟩ := now
  obtain ⟨higher, higherAbove, final⟩ := claim_fold_mono floors after _ kept
  exact ⟨higher, above.trans higherAbove, mem_of_get final⟩

section

variable {sender : Sender} {floor : Int} (entries : List (Sender × Int))
  (floors : OrderedMap Sender Int)
include entries floors

theorem fold_floors_keeps (kept : floors.get sender = some floor) :
    ∃ lower ≤ floor, (foldFloors floors entries).1.get sender = some lower := by
  induction entries generalizing floors floor with
  | nil => exact ⟨floor, le_refl _, kept⟩
  | cons entry rest ih =>
    obtain ⟨name, lamport⟩ := entry
    simp only [foldFloors]
    cases found : floors.get name with
    | none =>
      dsimp only
      split_ifs
      · exact ⟨floor, le_refl _, kept⟩
      · refine ih _ ?_
        rw [get_set_other _ _ _ _ ?_]
        · exact kept
        · rintro rfl
          rw [found] at kept
          cases kept
    | some current =>
      dsimp only
      by_cases lower : lamport < current
      · rw [if_pos lower]
        by_cases hit : sender = name
        · subst hit
          rw [found] at kept
          cases kept
          obtain ⟨final, bound, stored⟩ := ih _ (get_set_self floors sender lamport)
          exact ⟨final, by omega, stored⟩
        · exact ih _ (by rw [get_set_other _ _ _ _ hit]; exact kept)
      · rw [if_neg lower]
        exact ih _ kept

theorem fold_floors_covers (fitted : (foldFloors floors entries).2 = false)
    (named : (sender, floor) ∈ entries) :
    ∃ lower ≤ floor, (foldFloors floors entries).1.get sender = some lower := by
  induction entries generalizing floors with
  | nil => simp at named
  | cons entry rest ih =>
    obtain ⟨name, lamport⟩ := entry
    simp only [foldFloors] at fitted ⊢
    cases found : floors.get name with
    | none =>
      simp only [found] at fitted
      dsimp only
      split_ifs at fitted ⊢ with full
      rcases mem_cons.mp named with equal | later
      · cases equal
        exact fold_floors_keeps rest _ (get_set_self floors sender floor)
      · exact ih _ fitted later
    | some current =>
      simp only [found] at fitted
      dsimp only
      rcases mem_cons.mp named with equal | later
      · cases equal
        by_cases lower : floor < current
        · rw [if_pos lower]
          exact fold_floors_keeps rest _ (get_set_self floors sender floor)
        · rw [if_neg lower]
          obtain ⟨final, bound, stored⟩ := fold_floors_keeps rest floors found
          exact ⟨final, by omega, stored⟩
      · exact ih _ fitted later

end

end AwfulChat.Inbound
