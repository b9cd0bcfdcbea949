import AwfulChat.Library.JsonReading
import Mathlib.Tactic.Ring

/-!
# Reading back what was written

`JSON.parse(JSON.stringify(value))` for every value. The text of a number carries
neither the sign of a zero nor whether it was finite; everything else comes back,
and what comes back is written as the same text again.
-/

namespace AwfulChat.Library.Json

open List Option

set_option autoImplicit false

/-- What the text of a number is read as. -/
def rereadNumber : JsNumber → Json
  | .finite negative coefficient exponent =>
    if coefficient = 0 then .number (.finite false 0 0)
    else if 0 ≤ exponent ∧ (digitText coefficient).length + exponent ≤ 21 then
      .number (.finite negative (coefficient * 10 ^ exponent.toNat) 0)
    else .number (.finite negative coefficient exponent)
  | .infinite _ => .null
  | .nan => .null

mutual

/-- What the text of a value is read as. -/
def reread : Json → Json
  | .null => .null
  | .bool value => .bool value
  | .number value => rereadNumber value
  | .string value => .string value
  | .array items => .array (rereadItems items)
  | .object fields => .object (rereadFields [] fields)

def rereadItems : List Json → List Json
  | [] => []
  | item :: rest => reread item :: rereadItems rest

def rereadFields (before : List (Text × Json)) : List (Text × Json) → List (Text × Json)
  | [] => before
  | (name, value) :: rest => rereadFields (setField before name (reread value)) rest

end

def AllDigits (digits : Text) : Prop := ∀ unit ∈ digits, isDigit unit = true

theorem digit_text_all (value : Nat) : AllDigits (digitText value) :=
  fun _ mem => decide_eq_true (digit_text_digits mem)

theorem zeros_all (count : Nat) : AllDigits (List.replicate count 48) := by
  intro unit mem
  rw [eq_of_mem_replicate mem]
  decide

theorem digit_zero : AllDigits [48] := zeros_all 1

theorem all_digits_nil : AllDigits [] := by
  nofun

theorem AllDigits.append {left right : Text} (first : AllDigits left) (second : AllDigits right) :
    AllDigits (left ++ right) := by
  intro unit mem
  cases mem_append.mp mem with
  | inl before => exact first unit before
  | inr after => exact second unit after

theorem AllDigits.take {digits : Text} (all : AllDigits digits) (count : Nat) :
    AllDigits (digits.take count) := fun unit mem => all unit (mem_of_mem_take mem)

theorem AllDigits.drop {digits : Text} (all : AllDigits digits) (count : Nat) :
    AllDigits (digits.drop count) := fun unit mem => all unit (mem_of_mem_drop mem)

def EndsDigits (rest : Text) : Prop := ∀ unit, rest.head? = some unit → isDigit unit = false

/-- The text after a value: its end, or the next mark of an array or an object. -/
def EndsValue (rest : Text) : Prop :=
  ∀ unit, rest.head? = some unit → unit = 44 ∨ unit = 93 ∨ unit = 125

variable {rest : Text}

theorem EndsValue.digits (ending : EndsValue rest) : EndsDigits rest := by
  intro unit head
  rcases ending unit head with rfl | rfl | rfl <;> decide

theorem ends_value_nil : EndsValue [] := by
  nofun

theorem ends_value_cons {unit : UInt16} (mark : unit = 44 ∨ unit = 93 ∨ unit = 125) (rest : Text) :
    EndsValue (unit :: rest) := by
  intro found head
  cases head
  exact mark

theorem read_digits_run {digits rest : Text} (all : AllDigits digits) (filled : digits ≠ [])
    (ending : EndsDigits rest) : readDigits (digits ++ rest) = some (digits, rest) := by
  have taken : (digits ++ rest).takeWhile isDigit = digits := by
    rw [takeWhile_append_of_pos all]
    cases rest with
    | nil => simp
    | cons unit tail => rw [takeWhile_cons_of_neg (by simp [ending unit rfl]), append_nil]
  have dropped : (digits ++ rest).dropWhile isDigit = rest := by
    rw [dropWhile_append_of_pos all]
    cases rest with
    | nil => rfl
    | cons unit tail => rw [dropWhile_cons_of_neg (by simp [ending unit rfl])]
  rw [readDigits, taken, dropped, if_neg filled]

/-- The fraction and the exponent as a number's text has them. -/
def fractionText (fraction : Text) : Text := if fraction = [] then [] else 46 :: fraction

def exponentText : Option Int → Text
  | none => []
  | some exponent => 101 :: (if 0 ≤ exponent then 43 else 45) :: digitText exponent.natAbs

theorem exponent_ends (exponent : Option Int) (ending : EndsValue rest) :
    EndsDigits (exponentText exponent ++ rest) := by
  cases exponent with
  | none => exact ending.digits
  | some exponent =>
    intro unit head
    cases head
    decide

theorem fraction_ends (fraction : Text) (exponent : Option Int) (ending : EndsValue rest) :
    EndsDigits (fractionText fraction ++ (exponentText exponent ++ rest)) := by
  unfold fractionText
  split
  · exact exponent_ends exponent ending
  · intro unit head
    cases head
    decide

theorem read_fraction_text {fraction : Text} (all : AllDigits fraction) (exponent : Option Int)
    (ending : EndsValue rest) :
    readFraction (fractionText fraction ++ (exponentText exponent ++ rest)) =
      some (fraction, exponentText exponent ++ rest) := by
  by_cases empty : fraction = []
  · rw [fractionText, if_pos empty, empty, nil_append]
    cases exponent with
    | some exponent => rfl
    | none =>
      cases rest with
      | nil => rfl
      | cons unit tail =>
        have other : unit ≠ 46 := by
          rcases ending unit rfl with rfl | rfl | rfl <;> decide
        simp only [exponentText, nil_append, readFraction, if_neg other]
  · rw [fractionText, if_neg empty, cons_append, readFraction, if_pos rfl]
    exact read_digits_run all empty (exponent_ends exponent ending)

theorem digit_text_ne_nil (value : Nat) : digitText value ≠ [] := by
  obtain ⟨first, rest, shape, _⟩ := digit_text_cons value
  rw [shape]
  exact cons_ne_nil first rest

theorem read_exponent_text (exponent : Option Int) (ending : EndsValue rest) :
    readExponent (exponentText exponent ++ rest) = some (exponent.getD 0, rest) := by
  cases exponent with
  | none =>
    cases rest with
    | nil => rfl
    | cons unit tail =>
      have other : ¬ (unit = 101 ∨ unit = 69) := by
        rcases ending unit rfl with rfl | rfl | rfl <;> decide
      simp only [exponentText, nil_append, readExponent, if_neg other, getD_none]
  | some exponent =>
    have digits := read_digits_run (digit_text_all exponent.natAbs)
      (digit_text_ne_nil exponent.natAbs) ending.digits
    by_cases positive : 0 ≤ exponent
    · have value : ((exponent.natAbs : Nat) : Int) = exponent := Int.natAbs_of_nonneg positive
      rw [exponentText, if_pos positive, cons_append, cons_append, readExponent,
        if_pos (Or.inl rfl)]
      rw [show readSign (43 :: (digitText exponent.natAbs ++ rest)) =
          (false, 43 :: (digitText exponent.natAbs ++ rest)) from rfl, if_neg Bool.false_ne_true,
        readPlus, if_pos rfl, digits, map_some, digits_value_text, value,
        getD_some]
    · have value : -((exponent.natAbs : Nat) : Int) = exponent := by omega
      simp only [exponentText, if_neg positive, cons_append, readExponent, readSign, if_true,
        digits, map_some, digits_value_text, value, getD_some]
      simp

variable (negative : Bool) (fuel : Nat)

theorem sign_text_read {whole : Text} (all : AllDigits whole) (filled : whole ≠ []) (rest : Text) :
    readSign (signText negative ++ (whole ++ rest)) = (negative, whole ++ rest) := by
  cases negative with
  | true => rfl
  | false =>
    obtain ⟨first, others, rfl⟩ := exists_cons_of_ne_nil filled
    have digit := all first mem_cons_self
    have other : first ≠ 45 := by
      rintro rfl
      exact absurd digit (by decide)
    simp only [signText, Bool.false_eq_true, if_false, nil_append, cons_append,
      readSign, if_neg other]

theorem read_number_run {whole fraction : Text} (exponent : Option Int) (all : AllDigits whole)
    (filled : whole ≠ []) (leading : whole.head? ≠ some 48 ∨ whole.length = 1)
    (allFraction : AllDigits fraction) (ending : EndsValue rest) :
    readNumber (signText negative ++ (whole ++ (fractionText fraction ++
        (exponentText exponent ++ rest)))) =
      some (.finite negative (digitsValue (whole ++ fraction))
        (exponent.getD 0 - fraction.length), rest) := by
  have integer : readInteger (whole ++ (fractionText fraction ++ (exponentText exponent ++ rest))) =
      some (whole, fractionText fraction ++ (exponentText exponent ++ rest)) := by
    rw [readInteger, read_digits_run all filled (fraction_ends fraction exponent ending),
      filter_some, if_pos (by simpa using leading)]
  simp only [readNumber, sign_text_read negative all filled, integer,
    read_fraction_text allFraction exponent ending, read_exponent_text exponent ending,
    bind_eq_bind, bind_some]

theorem digits_value_append (left right : Text) :
    digitsValue (left ++ right) =
      Nat.ofDigitChars 10 (right.map fun unit => Char.ofNat unit.toNat) (digitsValue left) := by
  rw [digitsValue, map_append, Nat.ofDigitChars_append, digitsValue]

theorem digits_value_zeros_before (count : Nat) (digits : Text) :
    digitsValue (List.replicate count 48 ++ digits) = digitsValue digits := by
  have zeros : digitsValue (List.replicate count 48) = 0 := by
    rw [digitsValue, map_replicate]
    exact Nat.ofDigitChars_replicate_zero
  rw [digits_value_append, zeros, digitsValue]

theorem digits_value_zeros_after (value count : Nat) :
    digitsValue (digitText value ++ List.replicate count 48) = value * 10 ^ count := by
  rw [digits_value_append, digits_value_text, map_replicate]
  exact Nat.ofDigitChars_replicate_zero.trans (Nat.mul_comm _ _)

theorem digit_text_shift {value : Nat} (positive : 0 < value) (count : Nat) :
    digitText (value * 10 ^ count) = digitText value ++ List.replicate count 48 := by
  induction count with
  | zero => simp
  | succ count ih =>
    have shifted : value * 10 ^ (count + 1) = 10 * (value * 10 ^ count) + 0 := by
      rw [Nat.pow_succ]
      ring
    have split : digitText (10 * (value * 10 ^ count) + 0) =
        digitText (value * 10 ^ count) ++ [48] := by
      rw [digitText, ← Nat.toDigits_append_toDigits (by decide)
        (Nat.mul_pos positive (by positivity)) (by decide), map_append]
      rfl
    rw [shifted, split, ih, append_assoc, ← replicate_succ']

theorem digit_text_head {value : Nat} (positive : value ≠ 0) :
    (digitText value).head? ≠ some 48 := by
  intro leading
  have zero : digitText value = digitText 0 := (digit_text_leading leading).trans (by decide)
  exact positive (digit_text_injective zero)

theorem read_magnitude {coefficient : Nat} (positive : coefficient ≠ 0)
    (exponent : Int) (ending : EndsValue rest) :
    (readNumber (signText negative ++ (magnitudeText coefficient exponent ++ rest))).map
        (fun read => (Json.number read.1, read.2)) =
      some (rereadNumber (.finite negative coefficient exponent), rest) := by
  have all := digit_text_all coefficient
  have filled := digit_text_ne_nil coefficient
  have head := digit_text_head positive
  have long : 0 < (digitText coefficient).length := length_pos_of_ne_nil filled
  simp only [magnitudeText, rereadNumber, if_neg positive]
  split
  · rename_i whole
    have read := read_number_run negative none
      (all.append (zeros_all ((((digitText coefficient).length : Int) + exponent -
        (digitText coefficient).length).toNat)))
      (by simp [filled]) (Or.inl (by rwa [List.head?_append_of_ne_nil _ filled]))
      all_digits_nil ending
    rw [if_pos (by omega)]
    simp only [fractionText, exponentText, if_true, nil_append, append_nil] at read
    rw [read, digits_value_zeros_after]
    simp
  · rename_i above
    have scaled : ¬ (0 ≤ exponent ∧ ((digitText coefficient).length : Int) + exponent ≤ 21) := by
      omega
    rw [if_neg scaled]
    split
    · rename_i inside
      obtain ⟨count, point⟩ : ∃ count : Nat,
          ((digitText coefficient).length : Int) + exponent = (count : Int) :=
        ⟨_, (Int.toNat_of_nonneg (by omega)).symm⟩
      have shorter : count < (digitText coefficient).length := by omega
      have read := read_number_run negative none (all.take count)
        (by simp [filled]; omega)
        (Or.inl (by rwa [List.head?_take, if_neg (by omega)])) (all.drop count) ending
      have dropped : (digitText coefficient).drop count ≠ [] := by simp; omega
      simp only [fractionText, if_neg dropped, exponentText, nil_append, cons_append]
        at read
      rw [point, Int.toNat_natCast, append_assoc, cons_append, read,
        take_append_drop, digits_value_text]
      simp only [map_some, getD_none, length_drop, Option.some.injEq,
        Prod.mk.injEq, Json.number.injEq, JsNumber.finite.injEq, true_and, and_true]
      omega
    · split
      · rename_i small
        have read := read_number_run negative none
          digit_zero (by simp) (Or.inr rfl)
          ((zeros_all (-(((digitText coefficient).length : Int) + exponent)).toNat).append all)
          ending
        have fraction : List.replicate (-(((digitText coefficient).length : Int) + exponent)).toNat
            48 ++ digitText coefficient ≠ [] := by simp [filled]
        simp only [fractionText, if_neg fraction, exponentText, nil_append] at read
        simp only [cons_append, nil_append, append_assoc] at read ⊢
        rw [read]
        have value := digits_value_zeros_before
          ((-(((digitText coefficient).length : Int) + exponent)).toNat + 1) (digitText coefficient)
        rw [replicate_succ, cons_append, digits_value_text] at value
        rw [value]
        simp only [map_some, getD_none, length_append, length_replicate,
          Option.some.injEq, Prod.mk.injEq, Json.number.injEq, JsNumber.finite.injEq, true_and,
          and_true]
        omega
      · rename_i large
        have read := read_number_run negative
          (some ((digitText coefficient).length + exponent - 1))
          (all.take 1) (by simp [filled])
          (Or.inl (by rwa [List.head?_take, if_neg (by decide)])) (all.drop 1) ending
        have fraction : fractionText ((digitText coefficient).drop 1) =
            if (digitText coefficient).length = 1 then [] else
              46 :: (digitText coefficient).drop 1 := by
          by_cases single : (digitText coefficient).length = 1
          · have empty : (digitText coefficient).drop 1 = [] :=
              drop_eq_nil_of_le (by omega)
            rw [if_pos single, fractionText, if_pos empty]
          · have more : (digitText coefficient).drop 1 ≠ [] := by
              rw [ne_eq, drop_eq_nil_iff]
              omega
            rw [if_neg single, fractionText, if_neg more]
        rw [fraction] at read
        simp only [exponentText, cons_append, append_assoc] at read ⊢
        rw [read, take_append_drop, digits_value_text]
        simp only [map_some, getD_some, length_drop, Option.some.injEq,
          Prod.mk.injEq, Json.number.injEq, JsNumber.finite.injEq, true_and, and_true]
        omega

/-- A unit that opens a value. -/
def Opens (unit : UInt16) : Prop := isSpace unit = false ∧ unit ≠ 93

theorem opens_number {unit : UInt16} (start : unit = 45 ∨ IsDigit unit) :
    Opens unit ∧ unit ≠ 34 ∧ unit ≠ 91 ∧ unit ≠ 123 ∧ unit ≠ 110 ∧ unit ≠ 116 ∧ unit ≠ 102 := by
  cases start with
  | inl minus =>
    rw [minus]
    exact ⟨⟨by decide, by decide⟩, by decide⟩
  | inr digit =>
    have apart : ∀ other : UInt16, ¬ IsDigit other → unit ≠ other := by
      rintro other letter rfl
      exact letter digit
    have printed : isSpace unit = false := by
      simp only [isSpace, Bool.or_eq_false_iff, decide_eq_false_iff_not]
      exact ⟨⟨⟨apart 32 (by decide), apart 9 (by decide)⟩, apart 10 (by decide)⟩,
        apart 13 (by decide)⟩
    exact ⟨⟨printed, apart 93 (by decide)⟩, apart 34 (by decide), apart 91 (by decide),
      apart 123 (by decide), apart 110 (by decide), apart 116 (by decide), apart 102 (by decide)⟩

theorem finite_text_cons (coefficient : Nat) (exponent : Int) :
    ∃ first rest, numberText (.finite negative coefficient exponent) = first :: rest ∧
      (first = 45 ∨ IsDigit first) := by
  obtain ⟨first, rest, shape, digit⟩ := magnitude_text_cons coefficient exponent
  rw [numberText]
  split
  · exact ⟨48, [], rfl, Or.inr (by decide)⟩
  · cases negative with
    | true => exact ⟨45, magnitudeText coefficient exponent, rfl, Or.inl rfl⟩
    | false => exact ⟨first, rest, shape, Or.inr digit⟩

theorem null_text : text "null" = [110, 117, 108, 108] := by decide +kernel

theorem true_text : text "true" = [116, 114, 117, 101] := by decide +kernel

theorem false_text : text "false" = [102, 97, 108, 115, 101] := by decide +kernel

theorem stringify_cons (value : Json) :
    ∃ first rest, stringify value = first :: rest ∧ Opens first := by
  cases value with
  | null => exact ⟨110, [117, 108, 108], null_text, by decide, by decide⟩
  | bool value =>
    cases value with
    | true => exact ⟨116, [114, 117, 101], true_text, by decide, by decide⟩
    | false => exact ⟨102, [97, 108, 115, 101], false_text, by decide, by decide⟩
  | number value =>
    cases value with
    | finite negative coefficient exponent =>
      obtain ⟨first, rest, shape, start⟩ := finite_text_cons negative coefficient exponent
      exact ⟨first, rest, shape, (opens_number start).1⟩
    | infinite negative => exact ⟨110, [117, 108, 108], null_text, by decide, by decide⟩
    | nan => exact ⟨110, [117, 108, 108], null_text, by decide, by decide⟩
  | string value => exact ⟨34, escape value ++ [34], rfl, by decide, by decide⟩
  | array items => exact ⟨91, itemsText items ++ [93], rfl, by decide, by decide⟩
  | object fields => exact ⟨123, fieldsText fields ++ [125], rfl, by decide, by decide⟩

theorem read_null (rest : Text) :
    readValue (fuel + 1) (text "null" ++ rest) = some (.null, rest) := by
  rw [null_text, cons_append, readValue, skip_cons (by decide)]
  simp [readLiteral, null_text]

theorem read_bool (value : Bool) (rest : Text) :
    readValue (fuel + 1) (stringify (.bool value) ++ rest) = some (.bool value, rest) := by
  cases value with
  | true =>
    rw [stringify, if_pos rfl, true_text, cons_append, readValue, skip_cons (by decide)]
    simp [readLiteral, true_text]
  | false =>
    rw [stringify, if_neg Bool.false_ne_true, false_text, cons_append, readValue,
      skip_cons (by decide)]
    simp [readLiteral, false_text]

theorem read_finite (coefficient : Nat) (exponent : Int) (ending : EndsValue rest) :
    (readNumber (numberText (.finite negative coefficient exponent) ++ rest)).map
        (fun read => (Json.number read.1, read.2)) =
      some (rereadNumber (.finite negative coefficient exponent), rest) := by
  by_cases zero : coefficient = 0
  · have read := read_number_run false none
      digit_zero (by decide) (Or.inr rfl) all_digits_nil ending
    simp only [fractionText, exponentText, if_true, nil_append, signText,
      Bool.false_eq_true, if_false] at read
    rw [numberText, if_pos zero, read, rereadNumber, if_pos zero]
    rfl
  · rw [numberText, if_neg zero, append_assoc]
    exact read_magnitude negative zero exponent ending

theorem read_number_value (value : JsNumber) (ending : EndsValue rest) :
    readValue (fuel + 1) (numberJson value ++ rest) = some (rereadNumber value, rest) := by
  cases value with
  | infinite negative | nan => exact read_null fuel rest
  | finite negative coefficient exponent =>
    obtain ⟨first, tail, shape, start⟩ := finite_text_cons negative coefficient exponent
    obtain ⟨⟨printed, _⟩, quoted, bracket, brace, n, t, f⟩ := opens_number start
    have read := read_finite negative coefficient exponent ending
    rw [shape, cons_append] at read
    rw [numberJson, shape, cons_append, readValue, skip_cons printed]
    simp only [if_neg quoted, if_neg bracket, if_neg brace, if_neg n, if_neg t, if_neg f]
    exact read

theorem read_string_value (value rest : Text) :
    readValue (fuel + 1) (quote value ++ rest) = some (.string value, rest) := by
  rw [quote, cons_append, readValue, skip_cons (by decide)]
  simp only [if_true, append_assoc, cons_append, nil_append, read_escape,
    map_some]

theorem fields_text_field (name : Text) (value : Json) (rest : List (Text × Json)) :
    fieldsText ((name, value) :: rest) = quote name ++ 58 :: (stringify value ++
      (if rest = [] then [] else 44 :: fieldsText rest)) := by
  cases rest with
  | nil => simp [fieldsText]
  | cons next others => rw [fieldsText, if_neg (cons_ne_nil next others)]

theorem read_field (before : List (Text × Json)) (name : Text) (value : Text)
    (json : Json) (read : readValue fuel (value ++ rest) = some (json, rest)) :
    readFields (fuel + 1) before (quote name ++ 58 :: (value ++ rest)) =
      if (skip rest).head? = some 44 then
        readFields fuel (setField before name json) (skip rest).tail
      else if (skip rest).head? = some 125 then some (setField before name json, (skip rest).tail)
      else none := by
  obtain ⟨quoted, named⟩ := read_name name (58 :: (value ++ rest))
  rw [readFields, if_pos quoted, named]
  simp only [skip_cons (show isSpace 58 = false by decide), List.head?_cons, tail_cons,
    if_true, read]

theorem items_text_item (item : Json) (rest : List Json) :
    itemsText (item :: rest) = stringify item ++ (if rest = [] then [] else 44 :: itemsText rest) := by
  cases rest with
  | nil => simp [itemsText]
  | cons next others => rw [itemsText, if_neg (cons_ne_nil next others)]

theorem read_item (value : Text) (json : Json)
    (read : readValue fuel (value ++ rest) = some (json, rest)) :
    readItems (fuel + 1) (value ++ rest) =
      if (skip rest).head? = some 44 then
        (readItems fuel (skip rest).tail).map fun read => (json :: read.1, read.2)
      else if (skip rest).head? = some 93 then some ([json], (skip rest).tail)
      else none := by
  rw [readItems, read]

theorem skip_opened {value : Text} (opened : ∃ first tail, value = first :: tail ∧ Opens first)
    (rest : Text) : skip (value ++ rest) = value ++ rest ∧ (value ++ rest).head? ≠ some 93 := by
  obtain ⟨first, tail, rfl, printed, other⟩ := opened
  rw [cons_append, skip_cons printed]
  exact ⟨rfl, fun head => other (Option.some.inj head)⟩

theorem items_text_opened (item : Json) (rest : List Json) :
    ∃ first tail, itemsText (item :: rest) = first :: tail ∧ Opens first := by
  obtain ⟨first, tail, shape, opened⟩ := stringify_cons item
  rw [items_text_item, shape]
  exact ⟨first, _, rfl, opened⟩

mutual

theorem read_stringify : (value : Json) → (fuel : Nat) → (rest : Text) →
    (stringify value).length ≤ fuel → EndsValue rest →
      readValue fuel (stringify value ++ rest) = some (reread value, rest)
  | .null, fuel + 1, rest, _, _ => read_null fuel rest
  | .bool value, fuel + 1, rest, _, _ => read_bool fuel value rest
  | .number value, fuel + 1, rest, _, ending => by
    rw [stringify, reread]
    exact read_number_value fuel value ending
  | .string value, fuel + 1, rest, _, _ => read_string_value fuel value rest
  | .array [], fuel + 1, rest, _, _ => by
    simp [stringify, itemsText, readValue, skip_cons (show isSpace 91 = false by decide),
      skip_cons (show isSpace 93 = false by decide), reread, rereadItems]
  | .array (item :: items), fuel + 1, rest, enough, _ => by
    have room : (itemsText (item :: items)).length + 1 ≤ fuel := by
      simp only [stringify, length_cons, length_append, length_nil] at enough
      omega
    have read := read_items_text (item :: items) fuel rest (cons_ne_nil item items) room
    obtain ⟨plain, open_⟩ := skip_opened (items_text_opened item items) (93 :: rest)
    rw [stringify, cons_append, readValue, skip_cons (by decide), append_assoc,
      singleton_append]
    simp only [plain, open_, show ¬ ((91 : UInt16) = 34) by decide, if_false, if_true, read,
      map_some, reread]
  | .object [], fuel + 1, rest, _, _ => by
    simp [stringify, fieldsText, readValue, skip_cons (show isSpace 123 = false by decide),
      skip_cons (show isSpace 125 = false by decide), reread, rereadFields]
  | .object (field :: fields), fuel + 1, rest, enough, _ => by
    have room : (fieldsText (field :: fields)).length + 1 ≤ fuel := by
      simp only [stringify, length_cons, length_append, length_nil] at enough
      omega
    have read := read_fields_text (field :: fields) [] fuel rest (cons_ne_nil field fields)
      room
    obtain ⟨tail, quoted, _⟩ := fields_text_cons field fields
    have plain : skip (fieldsText (field :: fields) ++ 125 :: rest) =
        fieldsText (field :: fields) ++ 125 :: rest := by
      rw [quoted, cons_append, skip_cons (by decide)]
    have opened : (fieldsText (field :: fields) ++ 125 :: rest).head? ≠ some 125 := by
      rw [quoted]
      exact fun head => absurd (Option.some.inj head) (by decide)
    rw [stringify, cons_append, readValue, skip_cons (by decide), append_assoc,
      singleton_append]
    simp only [plain, opened, show ¬ ((123 : UInt16) = 34) by decide,
      show ¬ ((123 : UInt16) = 91) by decide, if_false, if_true, read, map_some, reread]
  | value, 0, _, enough, _ => by
    obtain ⟨first, tail, shape, _⟩ := stringify_cons value
    rw [shape] at enough
    exact absurd enough (by simp)

theorem read_items_text : (items : List Json) → (fuel : Nat) → (rest : Text) → items ≠ [] →
    (itemsText items).length + 1 ≤ fuel →
      readItems fuel (itemsText items ++ 93 :: rest) = some (rereadItems items, rest)
  | [], _, _, filled, _ => absurd rfl filled
  | _ :: _, 0, _, _, enough => absurd enough (by omega)
  | [item], fuel + 1, rest, _, enough => by
    have room : (stringify item).length ≤ fuel := by
      rw [itemsText] at enough
      omega
    have read := read_stringify item fuel (93 :: rest) room (ends_value_cons (by decide) rest)
    rw [itemsText, read_item fuel (stringify item) (reread item) read,
      skip_cons (by decide)]
    rfl
  | item :: next :: others, fuel + 1, rest, _, enough => by
    have length : (itemsText (item :: next :: others)).length =
        (stringify item).length + 1 + (itemsText (next :: others)).length := by
      rw [itemsText, length_append, length_cons]
      omega
    obtain ⟨first, tail, shape, _⟩ := stringify_cons item
    have long : 0 < (stringify item).length := by rw [shape]; simp
    have read := read_stringify item fuel (44 :: (itemsText (next :: others) ++ 93 :: rest))
      (by omega) (ends_value_cons (by decide) _)
    have later := read_items_text (next :: others) fuel rest (cons_ne_nil next others)
      (by omega)
    rw [itemsText, append_assoc, cons_append,
      read_item fuel (stringify item) (reread item) read, skip_cons (by decide), List.head?_cons,
      if_pos rfl, tail_cons, later]
    rfl

theorem read_fields_text : (fields : List (Text × Json)) → (before : List (Text × Json)) →
    (fuel : Nat) → (rest : Text) → fields ≠ [] → (fieldsText fields).length + 1 ≤ fuel →
      readFields fuel before (fieldsText fields ++ 125 :: rest) =
        some (rereadFields before fields, rest)
  | [], _, _, _, filled, _ => absurd rfl filled
  | _ :: _, _, 0, _, _, enough => absurd enough (by omega)
  | [(name, value)], before, fuel + 1, rest, _, enough => by
    have room : (stringify value).length ≤ fuel := by
      rw [fieldsText, length_append, length_cons] at enough
      omega
    have read := read_stringify value fuel (125 :: rest) room (ends_value_cons (by decide) rest)
    rw [fieldsText, append_assoc, cons_append,
      read_field fuel before name (stringify value) (reread value) read,
      skip_cons (by decide)]
    rfl
  | (name, value) :: next :: others, before, fuel + 1, rest, _, enough => by
    have length : (fieldsText ((name, value) :: next :: others)).length =
        (quote name).length + 2 + (stringify value).length +
          (fieldsText (next :: others)).length := by
      rw [fieldsText, length_append, length_cons, length_append, length_cons]
      omega
    have read := read_stringify value fuel
      (44 :: (fieldsText (next :: others) ++ 125 :: rest)) (by omega)
      (ends_value_cons (by decide) _)
    have later := read_fields_text (next :: others) (setField before name (reread value)) fuel
      rest (cons_ne_nil next others) (by omega)
    rw [fieldsText, append_assoc, cons_append, append_assoc, cons_append,
      read_field fuel before name (stringify value) (reread value) read,
      skip_cons (by decide), List.head?_cons, if_pos rfl, tail_cons, later]
    rfl

end

theorem parse_stringify (value : Json) : parse (stringify value) = some (reread value) := by
  have read := read_stringify value ((stringify value).length + 1) [] (by omega) ends_value_nil
  rw [append_nil] at read
  rw [parse, read]
  rfl

mutual

/-- No object names a field twice, as no JavaScript object does. -/
def Distinct : Json → Prop
  | .array items => DistinctItems items
  | .object fields => (fields.map Prod.fst).Nodup ∧ DistinctFields fields
  | .null => True
  | .bool _ => True
  | .number _ => True
  | .string _ => True

def DistinctItems : List Json → Prop
  | [] => True
  | item :: rest => Distinct item ∧ DistinctItems rest

def DistinctFields : List (Text × Json) → Prop
  | [] => True
  | (_, value) :: rest => Distinct value ∧ DistinctFields rest

end

theorem reread_number_text (value : JsNumber) :
    stringify (rereadNumber value) = numberJson value := by
  cases value with
  | infinite negative | nan => rfl
  | finite negative coefficient exponent =>
    rw [rereadNumber]
    by_cases zero : coefficient = 0
    · simp [zero, stringify, numberJson, numberText]
    · rw [if_neg zero]
      split
      · rename_i whole
        have shifted := digit_text_shift (Nat.pos_of_ne_zero zero) exponent.toNat
        have filled : coefficient * 10 ^ exponent.toNat ≠ 0 := by positivity
        simp only [stringify, numberJson, numberText, if_neg zero, if_neg filled, magnitudeText,
          shifted, length_append, length_replicate]
        rw [if_pos (by omega), if_pos (by omega)]
        have none_more : ((((digitText coefficient).length + exponent.toNat : Nat) : Int) + 0 -
            (((digitText coefficient).length + exponent.toNat : Nat) : Int)).toNat = 0 := by omega
        have zeros : (((digitText coefficient).length : Int) + exponent -
            (digitText coefficient).length).toNat = exponent.toNat := by omega
        rw [none_more, zeros, replicate_zero, append_nil]
      · rfl

theorem reread_fields_distinct (fields before : List (Text × Json))
    (distinct : (before.map Prod.fst ++ fields.map Prod.fst).Nodup) :
    rereadFields before fields = before ++ fields.map fun field => (field.1, reread field.2) := by
  induction fields generalizing before with
  | nil => simp [rereadFields]
  | cons field rest ih =>
    obtain ⟨name, value⟩ := field
    have fresh : name ∉ before.map Prod.fst := by
      intro mem
      exact (nodup_append.mp distinct).2.2 name mem name (by simp) rfl
    rw [rereadFields, set_field_fresh fresh, ih _ (by simpa using distinct)]
    simp

mutual

theorem stringify_reread : (value : Json) → Distinct value →
    stringify (reread value) = stringify value
  | .null, _ | .bool _, _ => rfl
  | .number value, _ => reread_number_text value
  | .string _, _ => rfl
  | .array items, distinct => by
    rw [reread, stringify, stringify, items_text_reread items distinct]
  | .object fields, distinct => by
    rw [reread, stringify, stringify, reread_fields_distinct fields [] (by simpa using distinct.1),
      nil_append, fields_text_reread fields distinct.2]

theorem items_text_reread : (items : List Json) → DistinctItems items →
    itemsText (rereadItems items) = itemsText items
  | [], _ => rfl
  | item :: rest, distinct => by
    have shape : (rereadItems rest = []) = (rest = []) := by
      cases rest <;> simp [rereadItems]
    rw [rereadItems, items_text_item, items_text_item, stringify_reread item distinct.1,
      items_text_reread rest distinct.2]
    simp only [shape]

theorem fields_text_reread : (fields : List (Text × Json)) → DistinctFields fields →
    fieldsText (fields.map fun field => (field.1, reread field.2)) = fieldsText fields
  | [], _ => rfl
  | (name, value) :: rest, distinct => by
    rw [map_cons, fields_text_field, fields_text_field, stringify_reread value distinct.1,
      fields_text_reread rest distinct.2]
    simp only [map_eq_nil_iff]

end

theorem reread_atom (atom : Atom) : reread atom.json = atom.json := by
  cases atom with
  | null | string value => rfl
  | nat value =>
    have small : value.val < 10 ^ 21 := lt_trans value.isLt (by decide)
    have short := digit_text_length (by decide) small
    have whole : ((digitText value.val).length : Int) + 0 ≤ 21 := by omega
    simp only [Atom.json, safe, reread, rereadNumber, le_refl, true_and, if_pos whole]
    split_ifs with zero
    · rw [zero]
    · simp

theorem atom_json_injective : Function.Injective Atom.json := by
  intro left right same
  cases left <;> cases right <;> simp_all [Atom.json, safe, Fin.ext_iff]

theorem reread_atoms (items : List Atom) : reread (atoms items) = atoms items := by
  have same : rereadItems (items.map Atom.json) = items.map Atom.json := by
    induction items with
    | nil => rfl
    | cons item rest ih => rw [map_cons, rereadItems, reread_atom, ih]
  rw [atoms, reread, same]

theorem atoms_bytes_injective {left right : List Atom}
    (same : Text.encodeUtf8 (stringify (atoms left)) = Text.encodeUtf8 (stringify (atoms right))) :
    left = right := by
  have texts := Text.encode_utf8_injective (stringify_well_formed _) (stringify_well_formed _) same
  have read := congrArg parse texts
  rw [parse_stringify, parse_stringify, reread_atoms, reread_atoms] at read
  exact atom_json_injective.list_map (Json.array.inj (Option.some.inj read))

theorem parse_record_bytes {fields : List (Text × Atom)} (some_fields : fields ≠ [])
    (distinct : (fields.map Prod.fst).Nodup) :
    parse (Text.decodeUtf8 (Text.encodeUtf8 (stringify (record fields)))) =
      some (record fields) := by
  obtain ⟨first, others, rfl⟩ := exists_cons_of_ne_nil some_fields
  have names : (recordFields (first :: others)).map Prod.fst = (first :: others).map Prod.fst := by
    rw [recordFields, List.map_map]
    rfl
  have same : reread (record (first :: others)) = record (first :: others) := by
    rw [record, reread, ← recordFields, reread_fields_distinct _ [] (by rw [names]; exact distinct)]
    simp [recordFields, reread_atom]
  rw [Text.decode_encode_utf8 (stringify_well_formed _), parse_stringify, same]
  intro unit head
  rw [record_text] at head
  cases head
  decide

end AwfulChat.Library.Json
