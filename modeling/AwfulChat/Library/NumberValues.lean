import AwfulChat.Library.JsonRoundTrip
import Mathlib.Algebra.Order.Field.Rat
import Mathlib.Data.List.Count

/-!
# What the text of a number tells

A number is printed by its sign and its decimal, so numbers of one text have one value: the same
rational, or the same infinity, or NaN. In JSON all that are not finite are written alike.
-/

namespace AwfulChat.Library

open List

set_option autoImplicit false

/-- A number up to the sign of zero and the spelling of its decimal. -/
inductive NumberValue
  | finite (value : ℚ)
  | infinite (negative : Bool)
  | nan
  deriving DecidableEq

def JsNumber.value : JsNumber → NumberValue
  | .finite negative coefficient exponent =>
    .finite (if negative then -(coefficient * 10 ^ exponent) else coefficient * 10 ^ exponent)
  | .infinite negative => .infinite negative
  | .nan => .nan

def JsNumber.isFinite : JsNumber → Bool
  | .finite _ _ _ => true
  | .infinite _ => false
  | .nan => false

namespace Json

theorem reread_number_value {number reread : JsNumber}
    (read : rereadNumber number = .number reread) : reread.value = number.value := by
  cases number with
  | infinite negative | nan => cases read
  | finite negative coefficient exponent =>
    rw [rereadNumber] at read
    split_ifs at read with zero whole
    · cases read
      simp [JsNumber.value, zero]
    · cases read
      have power : (10 : ℚ) ^ exponent = 10 ^ exponent.toNat := by
        conv_lhs => rw [← Int.toNat_of_nonneg whole.1]
        exact zpow_natCast 10 _
      simp [JsNumber.value, power]
    · cases read
      rfl

theorem reread_same_value {left right : JsNumber} (finite : left.isFinite = true)
    (same : rereadNumber left = rereadNumber right) : left.value = right.value := by
  have number : ∃ number, rereadNumber left = .number number := by
    cases left with
    | infinite negative | nan => cases finite
    | finite negative coefficient exponent =>
      rw [rereadNumber]
      split_ifs
      all_goals exact ⟨_, rfl⟩
  obtain ⟨number, read⟩ := number
  have other : rereadNumber right = .number number := same.symm.trans read
  rw [← reread_number_value read, ← reread_number_value other]

theorem reread_text_number {left right : JsNumber}
    (same : stringify (.number left) = stringify (.number right)) :
    rereadNumber left = rereadNumber right := by
  have read := congrArg parse same
  rw [parse_stringify, parse_stringify] at read
  exact Option.some.inj read

theorem infinity_text (negative : Bool) :
    signText negative ++ text "Infinity" ≠ text "NaN" := by
  cases negative <;> decide +kernel

theorem finite_text_apart (negative : Bool) (coefficient : Nat) (exponent : Int) :
    (∀ sign, numberText (.finite negative coefficient exponent) ≠
      signText sign ++ text "Infinity") ∧
      numberText (.finite negative coefficient exponent) ≠ text "NaN" := by
  have infinity : text "Infinity" = [73, 110, 102, 105, 110, 105, 116, 121] := by decide +kernel
  have nan : text "NaN" = [78, 97, 78] := by decide +kernel
  have capital : ¬IsDigit 73 ∧ ¬IsDigit 78 := by decide
  obtain ⟨first, rest, shape, digit⟩ := magnitude_text_cons coefficient exponent
  simp only [numberText, shape, infinity, nan]
  constructor
  · intro sign same
    split_ifs at same
    · cases sign <;> simp [signText] at same
    · cases negative <;> cases sign <;> simp [signText] at same
      all_goals
        first
          | exact capital.1 (same.1 ▸ digit)
          | skip
      · rw [same.1] at digit
        exact absurd digit (by decide)
  · intro same
    split_ifs at same
    · cases same
    · cases negative <;> simp [signText] at same
      exact capital.2 (same.1 ▸ digit)

theorem number_text_value {left right : JsNumber} (same : numberText left = numberText right) :
    left.value = right.value := by
  cases left with
  | finite negative coefficient exponent =>
    have apart := finite_text_apart negative coefficient exponent
    cases right with
    | finite other count power => exact reread_same_value rfl (reread_text_number same)
    | infinite sign => exact absurd same (apart.1 sign)
    | nan => exact absurd same apart.2
  | infinite negative =>
    cases right with
    | finite other count power =>
      exact absurd same.symm ((finite_text_apart other count power).1 negative)
    | infinite sign =>
      cases negative <;> cases sign
      · rfl
      · exact absurd same (by decide +kernel)
      · exact absurd same (by decide +kernel)
      · rfl
    | nan => exact absurd same (infinity_text negative)
  | nan =>
    cases right with
    | finite other count power =>
      exact absurd same.symm (finite_text_apart other count power).2
    | infinite sign => exact absurd same.symm (infinity_text sign)
    | nan => rfl

theorem number_text_no_colon (number : JsNumber) : 58 ∉ numberText number := by
  cases number with
  | infinite negative => cases negative <;> decide +kernel
  | nan => decide +kernel
  | finite negative coefficient exponent =>
    have digits : ∀ unit, IsDigit unit → unit ≠ 58 := by
      rintro unit digit rfl
      exact absurd digit (by decide)
    have units := magnitude_text_units digits (by decide) (by decide) (by decide) (by decide)
      coefficient exponent
    have magnitude : 58 ∉ magnitudeText coefficient exponent :=
      fun mem => units 58 mem rfl
    rw [numberText]
    split_ifs
    · decide
    · cases negative <;> simpa [signText] using magnitude

end Json

section Marks

variable {Item : Type*} [DecidableEq Item]

theorem split_at_mark {mark : Item} {left right first second : List Item}
    (counts : left.count mark = right.count mark)
    (same : left ++ mark :: first = right ++ mark :: second) : left = right ∧ first = second := by
  induction left generalizing right with
  | nil =>
    cases right with
    | nil => exact ⟨rfl, (List.cons.inj same).2⟩
    | cons head rest =>
      have equal := (List.cons.inj same).1
      rw [← equal, count_cons_self, count_nil] at counts
      cases counts
  | cons head rest ih =>
    cases right with
    | nil =>
      have equal := (List.cons.inj same).1
      rw [equal, count_cons_self, count_nil] at counts
      cases counts
    | cons other others =>
      obtain ⟨equal, behind⟩ := List.cons.inj same
      subst equal
      have fewer : rest.count mark = others.count mark := by
        rw [count_cons, count_cons] at counts
        exact Nat.add_right_cancel counts
      obtain ⟨pieces, rests⟩ := ih fewer behind
      exact ⟨by rw [pieces], rests⟩

end Marks

end AwfulChat.Library
