import AwfulChat.Library.JsText
import Mathlib.Tactic.IntervalCases

/-!
# JSON text

`JSON.stringify` without indentation, over values that carry no `undefined`.
A lone surrogate is written as an escape, so the text is always well formed.
The reader for string bodies, which is also that of `JSON.parse`, inverts the
escapes; from it the text of an array of nulls, safe integers and strings
determines the array.
-/

namespace AwfulChat.Library

open List Option

set_option autoImplicit false

/-- A JavaScript number as `Number::toString` sees it: a finite one by its sign
and its shortest decimal `coefficient * 10 ^ exponent`. -/
inductive JsNumber
  | finite (negative : Bool) (coefficient : Nat) (exponent : Int)
  | infinite (negative : Bool)
  | nan
  deriving DecidableEq

inductive Json
  | null
  | bool (value : Bool)
  | number (value : JsNumber)
  | string (value : Text)
  | array (items : List Json)
  | object (fields : List (Text × Json))

namespace Json

def digitText (value : Nat) : Text :=
  (Nat.toDigits 10 value).map fun char => UInt16.ofNat char.toNat

/-- The five layouts of `Number::toString` for a positive number; `point` is
where the decimal point stands among the digits. -/
def magnitudeText (coefficient : Nat) (exponent : Int) : Text :=
  let digits := digitText coefficient
  let point := (digits.length : Int) + exponent
  if digits.length ≤ point ∧ point ≤ 21 then
    digits ++ List.replicate (point - digits.length).toNat 48
  else if 0 < point ∧ point ≤ 21 then
    digits.take point.toNat ++ 46 :: digits.drop point.toNat
  else if -6 < point ∧ point ≤ 0 then
    48 :: 46 :: List.replicate (-point).toNat 48 ++ digits
  else
    digits.take 1 ++ (if digits.length = 1 then [] else 46 :: digits.drop 1) ++
      101 :: (if 0 ≤ point - 1 then 43 else 45) :: digitText (point - 1).natAbs

def signText (negative : Bool) : Text := if negative then [45] else []

/-- `String(number)`. -/
def numberText : JsNumber → Text
  | .finite negative coefficient exponent =>
    if coefficient = 0 then [48] else signText negative ++ magnitudeText coefficient exponent
  | .infinite negative => signText negative ++ text "Infinity"
  | .nan => text "NaN"

/-- A number inside `JSON.stringify`: one that is not finite is written as null. -/
def numberJson : JsNumber → Text
  | .finite negative coefficient exponent => numberText (.finite negative coefficient exponent)
  | .infinite _ => text "null"
  | .nan => text "null"

def hexDigit (value : Nat) : UInt16 := UInt16.ofNat (if value < 10 then 48 + value else 87 + value)

def escapeUnit (unit : UInt16) : Text :=
  if unit = 34 then [92, 34]
  else if unit = 92 then [92, 92]
  else if unit = 8 then [92, 98]
  else if unit = 9 then [92, 116]
  else if unit = 10 then [92, 110]
  else if unit = 12 then [92, 102]
  else if unit = 13 then [92, 114]
  else if unit.toNat < 32 ∨ Text.isSurrogate unit = true then
    [92, 117, hexDigit (unit.toNat / 4096), hexDigit (unit.toNat / 256 % 16),
      hexDigit (unit.toNat / 16 % 16), hexDigit (unit.toNat % 16)]
  else [unit]

def escape : Text → Text
  | [] => []
  | [unit] => escapeUnit unit
  | unit :: next :: rest =>
    if Text.isHigh unit && Text.isLow next then unit :: next :: escape rest
    else escapeUnit unit ++ escape (next :: rest)

def quote (value : Text) : Text := 34 :: (escape value ++ [34])

mutual

/-- `JSON.stringify(value)`. -/
def stringify : Json → Text
  | .null => text "null"
  | .bool value => if value then text "true" else text "false"
  | .number value => numberJson value
  | .string value => quote value
  | .array items => 91 :: (itemsText items ++ [93])
  | .object fields => 123 :: (fieldsText fields ++ [125])

def itemsText : List Json → Text
  | [] => []
  | [item] => stringify item
  | item :: next :: rest => stringify item ++ 44 :: itemsText (next :: rest)

def fieldsText : List (Text × Json) → Text
  | [] => []
  | [(name, value)] => quote name ++ 58 :: stringify value
  | (name, value) :: next :: rest =>
    quote name ++ 58 :: (stringify value ++ 44 :: fieldsText (next :: rest))

end

def hexValue (unit : UInt16) : Option Nat :=
  if 48 ≤ unit.toNat ∧ unit.toNat ≤ 57 then some (unit.toNat - 48)
  else if 97 ≤ unit.toNat ∧ unit.toNat ≤ 102 then some (unit.toNat - 87)
  else if 65 ≤ unit.toNat ∧ unit.toNat ≤ 70 then some (unit.toNat - 55)
  else none

def hexUnit (first second third fourth : UInt16) : Option UInt16 := do
  let one ← hexValue first
  let two ← hexValue second
  let three ← hexValue third
  let four ← hexValue fourth
  some (UInt16.ofNat (one * 4096 + two * 256 + three * 16 + four))

def shortEscape (code : UInt16) : Option UInt16 :=
  if code = 98 then some 8
  else if code = 116 then some 9
  else if code = 110 then some 10
  else if code = 102 then some 12
  else if code = 114 then some 13
  else if code = 34 ∨ code = 92 ∨ code = 47 then some code
  else none

def push (unit : UInt16) (read : Text × Text) : Text × Text := (unit :: read.1, read.2)

/-- Reads a string body up to its closing quote. -/
def readString : Text → Option (Text × Text)
  | [] => none
  | unit :: rest =>
    if unit = 34 then some ([], rest)
    else if unit = 92 then
      match rest with
      | [] => none
      | code :: rest =>
        if code = 117 then
          match rest with
          | first :: second :: third :: fourth :: rest =>
            (hexUnit first second third fourth).bind fun value =>
              (readString rest).map (push value)
          | _ => none
        else (shortEscape code).bind fun value => (readString rest).map (push value)
    else if unit.toNat < 32 then none
    else (readString rest).map (push unit)

theorem hex_value_digit {value : Nat} (small : value < 16) :
    hexValue (hexDigit value) = some value := by
  interval_cases value <;> rfl

theorem hex_unit_digits (unit : UInt16) :
    hexUnit (hexDigit (unit.toNat / 4096)) (hexDigit (unit.toNat / 256 % 16))
      (hexDigit (unit.toNat / 16 % 16)) (hexDigit (unit.toNat % 16)) = some unit := by
  have bound : unit.toNat < 65536 := unit.toNat_lt
  have whole : unit.toNat / 4096 * 4096 + unit.toNat / 256 % 16 * 256 +
      unit.toNat / 16 % 16 * 16 + unit.toNat % 16 = unit.toNat := by omega
  simp only [hexUnit, hex_value_digit (show unit.toNat / 4096 < 16 by omega),
    hex_value_digit (show unit.toNat / 256 % 16 < 16 by omega),
    hex_value_digit (show unit.toNat / 16 % 16 < 16 by omega),
    hex_value_digit (show unit.toNat % 16 < 16 by omega), bind_eq_bind, bind_some,
    whole, UInt16.ofNat_toNat]

theorem read_plain {unit : UInt16} (quoted : unit ≠ 34) (escaped : unit ≠ 92)
    (printed : 32 ≤ unit.toNat) (rest : Text) :
    readString (unit :: rest) = (readString rest).map (push unit) := by
  rw [readString.eq_def]
  simp only [if_neg quoted, if_neg escaped, if_neg (show ¬ unit.toNat < 32 by omega)]

theorem read_short {code value : UInt16} (escaped : shortEscape code = some value) (rest : Text) :
    readString (92 :: code :: rest) = (readString rest).map (push value) := by
  have short : code ≠ 117 := by
    rintro rfl
    rw [show shortEscape 117 = none by decide] at escaped
    cases escaped
  rw [readString.eq_def]
  simp only [show (92 : UInt16) ≠ 34 by decide, if_false, if_true, if_neg short, escaped,
    bind_some]

theorem read_hex {first second third fourth value : UInt16}
    (coded : hexUnit first second third fourth = some value) (rest : Text) :
    readString (92 :: 117 :: first :: second :: third :: fourth :: rest) =
      (readString rest).map (push value) := by
  rw [readString.eq_def]
  simp only [show (92 : UInt16) ≠ 34 by decide, if_false, if_true, coded, bind_some]

theorem read_escape_unit (unit : UInt16) (rest : Text) :
    readString (escapeUnit unit ++ rest) = (readString rest).map (push unit) := by
  unfold escapeUnit
  split_ifs with quoted slash back tab line feed carriage coded
  · subst quoted
    exact read_short (by decide) rest
  · subst slash
    exact read_short (by decide) rest
  · subst back
    exact read_short (by decide) rest
  · subst tab
    exact read_short (by decide) rest
  · subst line
    exact read_short (by decide) rest
  · subst feed
    exact read_short (by decide) rest
  · subst carriage
    exact read_short (by decide) rest
  · exact read_hex (hex_unit_digits unit) rest
  · exact read_plain quoted slash (by omega) rest

theorem read_escape (value rest : Text) :
    readString (escape value ++ 34 :: rest) = some (value, rest) := by
  induction value using escape.induct with
  | case1 =>
    rw [escape, nil_append, readString.eq_def]
    simp
  | case2 unit =>
    rw [escape, read_escape_unit, readString.eq_def]
    simp [push]
  | case3 unit next tail paired ih =>
    have high : Text.isHigh unit = true := by
      simp only [Bool.and_eq_true] at paired
      exact paired.1
    have low : Text.isLow next = true := by
      simp only [Bool.and_eq_true] at paired
      exact paired.2
    have plain : unit ≠ 34 ∧ unit ≠ 92 := by
      constructor <;> rintro rfl <;> revert high <;> decide
    have plainNext : next ≠ 34 ∧ next ≠ 92 := by
      constructor <;> rintro rfl <;> revert low <;> decide
    have printed : 32 ≤ unit.toNat ∧ 32 ≤ next.toNat := by
      simp only [Text.isHigh, Text.isLow, Bool.and_eq_true, decide_eq_true_eq] at high low
      omega
    rw [escape, if_pos paired, cons_append, cons_append,
      read_plain plain.1 plain.2 printed.1, read_plain plainNext.1 plainNext.2 printed.2,
      ih]
    rfl
  | case4 unit next tail apart ih =>
    rw [escape, if_neg apart, append_assoc, read_escape_unit, ih]
    rfl

theorem quote_injective {left right : Text} (same : quote left = quote right) : left = right := by
  have read := congrArg (fun value => readString value.tail) same
  simp only [quote, tail_cons, read_escape, Option.some.injEq, Prod.mk.injEq] at read
  exact read.1

def IsDigit (unit : UInt16) : Prop := 48 ≤ unit.toNat ∧ unit.toNat ≤ 57

instance : DecidablePred IsDigit := fun unit =>
  inferInstanceAs (Decidable (48 ≤ unit.toNat ∧ unit.toNat ≤ 57))

section

variable {char : Char} {value : Nat} (member : char ∈ Nat.toDigits 10 value)
include member

theorem digit_char_bounds :
    48 ≤ char.toNat ∧ char.toNat ≤ 57 := by
  have digit := Nat.isDigit_of_mem_toDigits (by decide) (by decide) member
  simp only [Char.isDigit, Bool.and_eq_true, decide_eq_true_eq] at digit
  exact ⟨UInt32.le_iff_toNat_le.mp digit.1, UInt32.le_iff_toNat_le.mp digit.2⟩

theorem digit_unit_value :
    (UInt16.ofNat char.toNat).toNat = char.toNat := by
  have bounds := digit_char_bounds member
  rw [UInt16.toNat_ofNat', Nat.mod_eq_of_lt (by omega)]

end

theorem digit_text_digits {value : Nat} {unit : UInt16} (member : unit ∈ digitText value) :
    IsDigit unit := by
  obtain ⟨char, listed, rfl⟩ := mem_map.mp member
  unfold IsDigit
  rw [digit_unit_value listed]
  exact digit_char_bounds listed

theorem digit_text_cons (value : Nat) :
    ∃ first rest, digitText value = first :: rest ∧ IsDigit first := by
  cases shape : digitText value with
  | nil =>
    have empty : Nat.toDigits 10 value = [] := map_eq_nil_iff.mp shape
    exact absurd empty Nat.toDigits_ne_nil
  | cons first rest =>
    exact ⟨first, rest, rfl, digit_text_digits (by rw [shape]; simp)⟩

theorem digit_text_chars (value : Nat) :
    (digitText value).map (fun unit => Char.ofNat unit.toNat) = Nat.toDigits 10 value := by
  rw [digitText, List.map_map]
  conv_rhs => rw [← List.map_id (Nat.toDigits 10 value)]
  apply List.map_congr_left
  intro char member
  simp only [Function.comp_apply, digit_unit_value member, Char.ofNat_toNat, id]

theorem digit_text_injective {left right : Nat} (same : digitText left = digitText right) :
    left = right := by
  have chars : Nat.toDigits 10 left = Nat.toDigits 10 right := by
    rw [← digit_text_chars, ← digit_text_chars, same]
  rw [← Nat.ofDigitChars_ten_toDigits (n := left), chars, Nat.ofDigitChars_ten_toDigits]

/-- A safe integer, as a number value. -/
def safe (value : Fin (2 ^ 53)) : JsNumber := .finite false value.val 0

theorem digit_text_length {value count : Nat} (positive : 0 < count) (small : value < 10 ^ count) :
    (digitText value).length ≤ count := by
  rw [digitText, length_map]
  exact (Nat.length_toDigits_le_iff (by decide) positive).mpr small

theorem number_json_safe (value : Fin (2 ^ 53)) : numberJson (safe value) = digitText value.val := by
  have bound : (digitText value.val).length ≤ 21 := by
    apply digit_text_length (by decide)
    exact lt_trans value.isLt (by decide)
  by_cases zero : value.val = 0
  · simp [numberJson, safe, numberText, zero]
    decide
  · simp only [numberJson, safe, numberText, if_neg zero, signText, magnitudeText]
    simp [bound]

/-- The values that the arrays of the protocols are made of. -/
inductive Atom
  | null
  | nat (value : Fin (2 ^ 53))
  | string (value : Text)
  deriving DecidableEq

def Atom.json : Atom → Json
  | .null => .null
  | .nat value => .number (safe value)
  | .string value => .string value

def atoms (items : List Atom) : Json := .array (items.map Atom.json)

theorem digit_plain {unit : UInt16} (digit : IsDigit unit) : Text.isSurrogate unit = false := by
  unfold IsDigit at digit
  simp only [Text.isSurrogate, Text.isHigh, Text.isLow, Bool.or_eq_false_iff,
    Bool.and_eq_false_iff, decide_eq_false_iff_not]
  omega

theorem magnitude_text_units {Holds : UInt16 → Prop} (digits : ∀ unit, IsDigit unit → Holds unit)
    (dot : Holds 46) (letter : Holds 101) (plus : Holds 43) (minus : Holds 45) (coefficient : Nat)
    (exponent : Int) : ∀ unit ∈ magnitudeText coefficient exponent, Holds unit := by
  have zero : Holds 48 := digits 48 (by decide)
  have written : ∀ value, ∀ unit ∈ digitText value, Holds unit :=
    fun _ unit member => digits unit (digit_text_digits member)
  intro unit member
  simp only [magnitudeText] at member
  split at member
  · rcases mem_append.mp member with digit | padding
    · exact written _ unit digit
    · rw [eq_of_mem_replicate padding]
      exact zero
  · split at member
    · rcases mem_append.mp member with digit | rest
      · exact written _ unit (mem_of_mem_take digit)
      · rcases mem_cons.mp rest with rfl | digit
        · exact dot
        · exact written _ unit (mem_of_mem_drop digit)
    · split at member
      · rcases mem_append.mp member with front | digit
        · rcases mem_cons.mp front with rfl | front
          · exact zero
          · rcases mem_cons.mp front with rfl | padding
            · exact dot
            · rw [eq_of_mem_replicate padding]
              exact zero
        · exact written _ unit digit
      · rcases mem_append.mp member with front | back
        · rcases mem_append.mp front with digit | fraction
          · exact written _ unit (mem_of_mem_take digit)
          · split at fraction
            · cases fraction
            · rcases mem_cons.mp fraction with rfl | digit
              · exact dot
              · exact written _ unit (mem_of_mem_drop digit)
        · rcases mem_cons.mp back with rfl | back
          · exact letter
          · rcases mem_cons.mp back with sign | digit
            · rw [sign]
              split
              · exact plus
              · exact minus
            · exact written _ unit digit

theorem magnitude_text_plain (coefficient : Nat) (exponent : Int) :
    ∀ unit ∈ magnitudeText coefficient exponent, Text.isSurrogate unit = false :=
  magnitude_text_units (fun _ => digit_plain) (by decide) (by decide) (by decide) (by decide)
    coefficient exponent

theorem number_json_well_formed (value : JsNumber) : Text.WellFormed (numberJson value) := by
  have nullPlain : Text.WellFormed (text "null") := Text.WellFormed.of_all (by decide)
  cases value with
  | finite negative coefficient exponent =>
    simp only [numberJson, numberText]
    split
    · exact .unit (by decide) .nil
    · apply Text.WellFormed.append
      · unfold signText
        split
        · exact .unit (by decide) .nil
        · exact .nil
      · exact Text.WellFormed.of_plain (magnitude_text_plain coefficient exponent)
  | infinite negative | nan => exact nullPlain

theorem hex_digit_plain {value : Nat} (small : value < 16) :
    Text.isSurrogate (hexDigit value) = false := by
  interval_cases value <;> rfl

theorem escape_unit_well_formed (unit : UInt16) : Text.WellFormed (escapeUnit unit) := by
  unfold escapeUnit
  split_ifs with quoted slash back tab line feed carriage coded
  all_goals first
    | exact Text.WellFormed.of_all (by decide)
    | skip
  · have bound : unit.toNat < 65536 := unit.toNat_lt
    apply Text.WellFormed.unit (by decide)
    apply Text.WellFormed.unit (by decide)
    apply Text.WellFormed.unit (hex_digit_plain (by omega))
    apply Text.WellFormed.unit (hex_digit_plain (by omega))
    apply Text.WellFormed.unit (hex_digit_plain (by omega))
    exact Text.WellFormed.unit (hex_digit_plain (by omega)) .nil
  · apply Text.WellFormed.unit _ .nil
    cases shape : Text.isSurrogate unit with
    | false => rfl
    | true => exact absurd (Or.inr shape) coded

theorem escape_well_formed (value : Text) : Text.WellFormed (escape value) := by
  induction value using escape.induct with
  | case1 => exact .nil
  | case2 unit => exact escape_unit_well_formed unit
  | case3 unit next tail paired ih =>
    rw [escape, if_pos paired]
    simp only [Bool.and_eq_true] at paired
    exact .pair paired.1 paired.2 ih
  | case4 unit next tail apart ih =>
    rw [escape, if_neg apart]
    exact (escape_unit_well_formed unit).append ih

theorem quote_well_formed (value : Text) : Text.WellFormed (quote value) := by
  apply Text.WellFormed.unit (by decide)
  exact (escape_well_formed value).append (.unit (by decide) .nil)

theorem items_text_cons (item : Json) {rest : List Json} (more : rest ≠ []) :
    itemsText (item :: rest) = stringify item ++ 44 :: itemsText rest := by
  cases rest with
  | nil => exact absurd rfl more
  | cons next rest => rw [itemsText]

theorem array_text_item_iff (before after : List Json) (left right : Json) :
    stringify (.array (before ++ left :: after)) = stringify (.array (before ++ right :: after)) ↔
      stringify left = stringify right := by
  have items : itemsText (before ++ left :: after) = itemsText (before ++ right :: after) ↔
      stringify left = stringify right := by
    induction before with
    | nil =>
      cases after with
      | nil => simp only [nil_append, itemsText]
      | cons next rest =>
        rw [nil_append, nil_append, items_text_cons left (by simp),
          items_text_cons right (by simp), append_left_inj]
    | cons item rest ih =>
      rw [cons_append, cons_append, items_text_cons item (by simp),
        items_text_cons item (by simp), append_right_inj, List.cons.injEq]
      simpa using ih
  simp only [stringify, List.cons.injEq, true_and, append_left_inj]
  exact items

theorem magnitude_text_cons (coefficient : Nat) (exponent : Int) :
    ∃ first rest, magnitudeText coefficient exponent = first :: rest ∧ IsDigit first := by
  obtain ⟨first, rest, shape, digit⟩ := digit_text_cons coefficient
  simp only [magnitudeText, shape]
  split
  · exact ⟨first, _, rfl, digit⟩
  · split
    · rename_i inside
      obtain ⟨count, point⟩ : ∃ count, (((first :: rest).length : Int) + exponent).toNat =
          count + 1 := ⟨_, (Nat.succ_pred_eq_of_pos (by omega)).symm⟩
      rw [point, take_succ_cons]
      exact ⟨first, _, rfl, digit⟩
    · split
      · exact ⟨48, _, rfl, by decide⟩
      · rw [take_succ_cons]
        exact ⟨first, _, rfl, digit⟩

theorem finite_text_ne_null (negative : Bool) (coefficient : Nat) (exponent : Int) :
    numberText (.finite negative coefficient exponent) ≠ text "null" := by
  have nullText : text "null" = [110, 117, 108, 108] := by decide +kernel
  intro same
  rw [nullText] at same
  simp only [numberText] at same
  split at same
  · cases same
  · obtain ⟨first, rest, shape, digit⟩ := magnitude_text_cons coefficient exponent
    cases negative with
    | true => simp [signText] at same
    | false =>
      simp only [signText, shape, Bool.false_eq_true, if_false, nil_append,
        List.cons.injEq] at same
      rw [same.1] at digit
      exact absurd digit (by decide)

/-- The values that `JSON.stringify` writes as null. -/
def WritesNull : Json → Prop
  | .null => True
  | .number (.infinite _) => True
  | .number .nan => True
  | _ => False

theorem stringify_eq_null (value : Json) : stringify value = text "null" ↔ WritesNull value := by
  have nullText : text "null" = [110, 117, 108, 108] := by decide +kernel
  cases value with
  | null => simp [stringify, WritesNull]
  | bool value =>
    have trueText : text "true" = [116, 114, 117, 101] := by decide +kernel
    have falseText : text "false" = [102, 97, 108, 115, 101] := by decide +kernel
    cases value <;> simp [stringify, WritesNull, nullText, trueText, falseText]
  | number value =>
    cases value with
    | finite negative coefficient exponent =>
      simp only [stringify, numberJson, WritesNull, iff_false]
      exact finite_text_ne_null negative coefficient exponent
    | infinite negative => simp [stringify, numberJson, WritesNull]
    | nan => simp [stringify, numberJson, WritesNull]
  | string value => simp [stringify, quote, WritesNull, nullText]
  | array items | object fields => simp [stringify, WritesNull, nullText]

mutual

theorem stringify_well_formed (value : Json) : Text.WellFormed (stringify value) := by
  cases value with
  | null => exact Text.WellFormed.of_all (by decide)
  | bool value =>
    cases value with
    | false => exact Text.WellFormed.of_all (by decide)
    | true => exact Text.WellFormed.of_all (by decide)
  | number value => exact number_json_well_formed value
  | string value => exact quote_well_formed value
  | array items =>
    apply Text.WellFormed.unit (by decide)
    exact (items_text_well_formed items).append (.unit (by decide) .nil)
  | object fields =>
    apply Text.WellFormed.unit (by decide)
    exact (fields_text_well_formed fields).append (.unit (by decide) .nil)

theorem items_text_well_formed (items : List Json) : Text.WellFormed (itemsText items) := by
  match items with
  | [] => exact .nil
  | [item] => exact stringify_well_formed item
  | item :: next :: rest =>
    apply (stringify_well_formed item).append
    exact .unit (by decide) (items_text_well_formed (next :: rest))

theorem fields_text_well_formed (fields : List (Text × Json)) :
    Text.WellFormed (fieldsText fields) := by
  match fields with
  | [] => exact .nil
  | [(name, value)] =>
    apply (quote_well_formed name).append
    exact .unit (by decide) (stringify_well_formed value)
  | (name, value) :: next :: rest =>
    apply (quote_well_formed name).append
    apply Text.WellFormed.unit (by decide)
    apply (stringify_well_formed value).append
    exact .unit (by decide) (fields_text_well_formed (next :: rest))

end

end Json

end AwfulChat.Library
