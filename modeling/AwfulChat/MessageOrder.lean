import Mathlib.Data.List.Lex
import Mathlib.Data.List.Sort
import Mathlib.Tactic.Linarith

/-!
# Conversation order

`compareMessages` of `message-order.ts`: lamport first, then the id by binary
string comparison. JavaScript compares strings by their UTF-16 code units, so
ids are compared through `utf16Units` and not by code points: the two orders
differ above the basic plane.
-/

namespace AwfulChat.MessageOrder

open List

set_option autoImplicit false

inductive MessageType
  | text
  | reply
  | reaction
  | file
  | pluginCard
  | pluginUpdate
  deriving DecidableEq

def charUnits (char : Char) : List Nat :=
  if char.toNat < 0x10000 then [char.toNat]
  else [0xD800 + (char.toNat - 0x10000) / 0x400, 0xDC00 + (char.toNat - 0x10000) % 0x400]

def utf16Units (value : String) : List Nat := value.toList.flatMap charUnits

structure MessageCursor where
  lamport : Int
  id : String
  deriving DecidableEq

def compareMessages (left right : MessageCursor) : Int :=
  if left.lamport - right.lamport ≠ 0 then left.lamport - right.lamport
  else if utf16Units left.id < utf16Units right.id then -1
  else if utf16Units right.id < utf16Units left.id then 1
  else 0

/-- What `Array.prototype.sort` asks of the comparison: `left` may stay before
`right`. -/
def Before (left right : MessageCursor) : Prop := compareMessages left right ≤ 0

instance : DecidableRel Before := fun left right =>
  inferInstanceAs (Decidable (compareMessages left right ≤ 0))

section

variable (left right : MessageCursor)
include left right

theorem before_iff :
    Before left right ↔ left.lamport < right.lamport ∨
      (left.lamport = right.lamport ∧ utf16Units left.id ≤ utf16Units right.id) := by
  unfold Before compareMessages
  split_ifs with apart less greater
  · constructor
    · intro bound
      left
      omega
    · rintro (less | ⟨same, -⟩) <;> omega
  · simp only [Left.neg_nonpos_iff, zero_le_one, true_iff]
    exact Or.inr ⟨by omega, le_of_lt less⟩
  · constructor
    · intro bound
      omega
    · rintro (less | ⟨-, least⟩)
      · omega
      · exact absurd (lt_of_lt_of_le greater least) (lt_irrefl _)
  · simp only [le_refl, true_iff]
    exact Or.inr ⟨by omega, not_lt.mp greater⟩

theorem compare_swap :
    compareMessages right left = -compareMessages left right := by
  unfold compareMessages
  by_cases apart : left.lamport - right.lamport = 0
  · have back : right.lamport - left.lamport = 0 := by omega
    rw [if_neg (not_not.mpr apart), if_neg (not_not.mpr back)]
    rcases lt_trichotomy (utf16Units left.id) (utf16Units right.id) with less | same | more
    · rw [if_pos less, if_neg (lt_asymm less), if_pos less]
      rfl
    · rw [same, if_neg (lt_irrefl _), if_neg (lt_irrefl _)]
      rfl
    · rw [if_pos more, if_neg (lt_asymm more), if_pos more]
  · have back : right.lamport - left.lamport ≠ 0 := by omega
    rw [if_pos apart, if_pos back]
    omega

theorem compare_neg_iff :
    compareMessages left right < 0 ↔ ¬ Before right left := by
  unfold Before
  rw [compare_swap left right]
  omega

theorem compare_nonneg_iff :
    0 ≤ compareMessages left right ↔ Before right left := by
  unfold Before
  rw [compare_swap left right]
  omega

end

theorem lamport_le_of_before {left right : MessageCursor} (before : Before left right) :
    left.lamport ≤ right.lamport := by
  rcases (before_iff left right).mp before with less | ⟨same, -⟩
  · exact le_of_lt less
  · exact le_of_eq same

theorem before_total (left right : MessageCursor) : Before left right ∨ Before right left := by
  rw [before_iff, before_iff]
  rcases lt_trichotomy left.lamport right.lamport with less | same | greater
  · exact Or.inl (Or.inl less)
  · rcases le_total (utf16Units left.id) (utf16Units right.id) with least | most
    · exact Or.inl (Or.inr ⟨same, least⟩)
    · exact Or.inr (Or.inr ⟨same.symm, most⟩)
  · exact Or.inr (Or.inl greater)

theorem before_refl (cursor : MessageCursor) : Before cursor cursor :=
  (before_total _ _).elim id id

theorem before_trans {first second third : MessageCursor}
    (left : Before first second) (right : Before second third) : Before first third := by
  rw [before_iff] at left right ⊢
  rcases left with less | ⟨same, least⟩
  · rcases right with next | ⟨equal, -⟩
    · exact Or.inl (less.trans next)
    · exact Or.inl (equal ▸ less)
  · rcases right with next | ⟨equal, more⟩
    · exact Or.inl (same ▸ next)
    · exact Or.inr ⟨same.trans equal, least.trans more⟩

theorem char_range (char : Char) :
    char.toNat < 0xD800 ∨ (0xDFFF < char.toNat ∧ char.toNat < 0x110000) := by
  have valid := char.valid
  simpa [UInt32.isValidChar, Nat.isValidChar] using valid

theorem char_units_append {left right : Char} {leftRest rightRest : List Nat}
    (same : charUnits left ++ leftRest = charUnits right ++ rightRest) :
    left = right ∧ leftRest = rightRest := by
  have leftRange := char_range left
  have rightRange := char_range right
  unfold charUnits at same
  rw [← Char.toNat_inj]
  split_ifs at same with leftSmall rightSmall rightSmall
  · simpa using same
  · simp only [cons_append, nil_append, List.cons.injEq] at same
    omega
  · simp only [cons_append, nil_append, List.cons.injEq] at same
    omega
  · simp only [cons_append, nil_append, List.cons.injEq] at same
    exact ⟨by omega, same.2.2⟩

theorem utf16_units_injective : Function.Injective utf16Units := by
  have lists : ∀ left right : List Char,
      left.flatMap charUnits = right.flatMap charUnits → left = right := by
    intro left
    induction left with
    | nil =>
      intro right same
      cases right with
      | nil => rfl
      | cons char rest =>
        exfalso
        rw [flatMap_nil, flatMap_cons] at same
        unfold charUnits at same
        split_ifs at same <;> cases same
    | cons char rest ih =>
      intro right same
      cases right with
      | nil =>
        exfalso
        rw [flatMap_nil, flatMap_cons] at same
        unfold charUnits at same
        split_ifs at same <;> cases same
      | cons other others =>
        rw [flatMap_cons, flatMap_cons] at same
        obtain ⟨rfl, tails⟩ := char_units_append same
        rw [ih others tails]
  intro left right same
  exact String.toList_inj.mp (lists left.toList right.toList same)

theorem before_antisymm {left right : MessageCursor} (first : Before left right)
    (second : Before right left) : left = right := by
  rw [before_iff] at first second
  have sameLamport : left.lamport = right.lamport := by
    rcases first with less | ⟨same, -⟩
    · rcases second with more | ⟨same, -⟩ <;> omega
    · exact same
  have sameUnits : utf16Units left.id = utf16Units right.id := by
    rcases first with less | ⟨-, least⟩
    · omega
    · rcases second with less | ⟨-, most⟩
      · omega
      · exact le_antisymm least most
  cases left
  cases right
  simp only [MessageCursor.mk.injEq]
  exact ⟨sameLamport, utf16_units_injective sameUnits⟩

/-- `T extends { id: string; lamport: number; type: string }`. -/
class Row (T : Type) where
  cursor : T → MessageCursor
  type : T → MessageType

section Sorting

variable {T : Type} [Row T]

def rowBefore (left right : T) : Prop := Before (Row.cursor left) (Row.cursor right)

instance : DecidableRel (rowBefore (T := T)) := fun left right =>
  inferInstanceAs (Decidable (Before (Row.cursor left) (Row.cursor right)))

instance : Std.Total (rowBefore (T := T)) := ⟨fun _ _ => before_total _ _⟩

instance : IsTrans T rowBefore := ⟨fun _ _ _ left right => before_trans left right⟩

/-- `[...rows].sort(compareMessages)`. The specification makes `sort` stable,
and so is insertion sort, so the two agree on rows that compare equal too. -/
def sortRows (rows : List T) : List T := rows.insertionSort rowBefore

theorem sort_rows_perm (rows : List T) : (sortRows rows).Perm rows :=
  perm_insertionSort rowBefore rows

theorem sort_rows_pairwise (rows : List T) : (sortRows rows).Pairwise rowBefore :=
  pairwise_insertionSort rowBefore rows

theorem mem_sort_rows {rows : List T} {row : T} : row ∈ sortRows rows ↔ row ∈ rows :=
  mem_insertionSort rowBefore

end Sorting

end AwfulChat.MessageOrder
