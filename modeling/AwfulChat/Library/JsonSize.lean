import AwfulChat.Library.Base64
import AwfulChat.Library.JsonReading
import Mathlib.Tactic.Linarith

/-!
# How long JSON text gets

The bytes of a text, of a quoted string and of a record. A unit takes at most six bytes
when it is quoted, a base64 letter one.
-/

namespace AwfulChat.Library

open List

set_option autoImplicit false

namespace Text

def size (value : Text) : Nat := (encodeUtf8 value).length

theorem scalars_append {left : Text} (whole : WellFormed left) (right : Text) :
    scalars (left ++ right) = scalars left ++ scalars right := by
  induction whole with
  | nil => rfl
  | unit single _ ih =>
    rw [cons_append, scalars_unit single, scalars_unit single, ih, cons_append]
  | pair high low _ ih =>
    rw [cons_append, cons_append, scalars_pair high low, scalars_pair high low,
      ih, cons_append]

theorem size_append {left : Text} (whole : WellFormed left) (right : Text) :
    size (left ++ right) = size left + size right := by
  rw [size, encodeUtf8, scalars_append whole, flatMap_append, length_append]
  rfl

theorem char_size (char : Char) : (String.utf8EncodeChar char).length =
    if char.toNat < 0x80 then 1 else if char.toNat < 0x800 then 2
    else if char.toNat < 0x10000 then 3 else 4 := by
  have value : char.toNat = char.val.toNat := rfl
  simp only [String.length_utf8EncodeChar, Char.utf8Size, UInt32.le_iff_toNat_le, value]
  split_ifs <;> simp_all <;> omega

theorem scalar_value {unit : UInt16} (plain : isSurrogate unit = false) :
    (scalar unit).toNat = unit.toNat := by
  have bound := unit.toNat_lt
  have valid : unit.toNat.isValidChar := by
    simp only [isSurrogate, isHigh, isLow, Bool.or_eq_false_iff, Bool.and_eq_false_iff,
      decide_eq_false_iff_not] at plain
    unfold Nat.isValidChar
    omega
  rw [scalar, plain]
  exact char_value valid

/-- A lone surrogate is written as U+FFFD, in three bytes as every unit above it is. -/
theorem scalar_size (unit : UInt16) : (String.utf8EncodeChar (scalar unit)).length =
    if unit.toNat < 0x80 then 1 else if unit.toNat < 0x800 then 2 else 3 := by
  rw [char_size]
  cases plain : isSurrogate unit with
  | false =>
    have bound := unit.toNat_lt
    rw [scalar_value plain, if_pos (show unit.toNat < 0x10000 from bound)]
  | true =>
    have mark : (Char.ofNat 0xFFFD).toNat = 0xFFFD := by decide
    rw [scalar, plain, if_pos rfl, mark]
    simp only [isSurrogate, isHigh, isLow, Bool.or_eq_true, Bool.and_eq_true,
      decide_eq_true_eq] at plain
    rw [if_neg (show ¬unit.toNat < 0x80 by omega), if_neg (show ¬unit.toNat < 0x800 by omega)]
    decide

theorem size_le (value : Text) : size value ≤ 3 * value.length := by
  have three : ∀ unit, (String.utf8EncodeChar (scalar unit)).length ≤ 3 := by
    intro unit
    rw [scalar_size]
    split_ifs <;> decide
  unfold size encodeUtf8
  induction value using scalars.induct with
  | case1 => simp [scalars]
  | case2 unit =>
    rw [scalars, flatMap_singleton]
    exact three unit
  | case3 unit next rest paired ih =>
    have four : (String.utf8EncodeChar (pairScalar unit next)).length ≤ 4 := by
      rw [char_size]
      split_ifs <;> decide
    rw [scalars, if_pos paired, flatMap_cons, length_append]
    simp only [length_cons]
    omega
  | case4 unit next rest apart ih =>
    have first := three unit
    rw [scalars, if_neg apart, flatMap_cons, length_append]
    simp only [length_cons] at ih ⊢
    omega

theorem ascii_plain {unit : UInt16} (ascii : unit.toNat < 128) : isSurrogate unit = false := by
  simp only [isSurrogate, isHigh, isLow, Bool.or_eq_false_iff, Bool.and_eq_false_iff,
    decide_eq_false_iff_not]
  omega

theorem size_ascii {value : Text} (ascii : ∀ unit ∈ value, unit.toNat < 128) :
    size value = value.length := by
  induction value with
  | nil => rfl
  | cons unit rest ih =>
    have small := ascii unit (by simp)
    have plain := ascii_plain small
    have single := scalar_size unit
    rw [if_pos small] at single
    have tail := ih (fun other mem => ascii other (by simp [mem]))
    have whole : WellFormed [unit] := .unit plain .nil
    rw [← singleton_append, size_append whole, tail, length_append, size, encodeUtf8, scalars,
      flatMap_singleton, single, length_singleton]

end Text

namespace Json

theorem hex_digit_ascii {value : Nat} (small : value < 16) : (hexDigit value).toNat < 128 := by
  interval_cases value <;> decide

theorem escape_unit_size (unit : UInt16) : Text.size (escapeUnit unit) ≤ 6 := by
  have pair : ∀ first second : UInt16, Text.size [first, second] ≤ 6 := by
    intro first second
    exact Text.size_le [first, second]
  unfold escapeUnit
  split_ifs with quoted slash back tab line feed carriage coded
  · exact pair _ _
  · exact pair _ _
  · exact pair _ _
  · exact pair _ _
  · exact pair _ _
  · exact pair _ _
  · exact pair _ _
  · have bound : unit.toNat < 65536 := unit.toNat_lt
    rw [Text.size_ascii]
    · simp
    · intro other mem
      simp only [mem_cons, not_mem_nil, or_false] at mem
      rcases mem with rfl | rfl | rfl | rfl | rfl | rfl
      · decide
      · decide
      · exact hex_digit_ascii (by omega)
      · exact hex_digit_ascii (by omega)
      · exact hex_digit_ascii (by omega)
      · exact hex_digit_ascii (by omega)
  · have one := Text.size_le [unit]
    simp only [length_cons, length_nil] at one
    omega

theorem escape_size (value : Text) : Text.size (escape value) ≤ 6 * value.length := by
  induction value using escape.induct with
  | case1 => simp [escape, Text.size, Text.encodeUtf8, Text.scalars]
  | case2 unit => simpa [escape] using escape_unit_size unit
  | case3 unit next rest paired ih =>
    simp only [Bool.and_eq_true] at paired
    have whole : Text.WellFormed [unit, next] := .pair paired.1 paired.2 .nil
    have pair := Text.size_le [unit, next]
    have split : unit :: next :: escape rest = [unit, next] ++ escape rest := rfl
    rw [escape, if_pos (by simp [paired]), split, Text.size_append whole]
    simp only [length_cons, length_nil] at pair ⊢
    omega
  | case4 unit next rest apart ih =>
    have one := escape_unit_size unit
    rw [escape, if_neg apart, Text.size_append (escape_unit_well_formed unit)]
    simp only [length_cons] at ih ⊢
    omega

theorem size_quote (value : Text) : Text.size (quote value) = Text.size (escape value) + 2 := by
  have mark : Text.WellFormed [34] := .unit (by decide) .nil
  have one : Text.size [34] = 1 := by decide
  rw [quote, ← singleton_append, Text.size_append mark,
    Text.size_append (escape_well_formed value), one]
  omega

theorem quote_size_le (value : Text) : Text.size (quote value) ≤ 6 * value.length + 2 := by
  have inner := escape_size value
  rw [size_quote]
  omega

def Plain (unit : UInt16) : Prop :=
  32 ≤ unit.toNat ∧ unit.toNat < 128 ∧ unit ≠ 34 ∧ unit ≠ 92

theorem letter_plain {unit : UInt16} (letter : (Base64.letterValue unit).isSome = true) :
    Plain unit := by
  unfold Base64.letterValue at letter
  have known : (65 ≤ unit.toNat ∧ unit.toNat ≤ 90) ∨ (97 ≤ unit.toNat ∧ unit.toNat ≤ 122) ∨
      (48 ≤ unit.toNat ∧ unit.toNat ≤ 57) ∨ unit.toNat = 45 ∨ unit.toNat = 95 := by
    by_contra other
    simp only [not_or] at other
    rw [if_neg other.1, if_neg other.2.1, if_neg other.2.2.1, if_neg other.2.2.2.1,
      if_neg other.2.2.2.2] at letter
    cases letter
  have apart : ∀ mark : UInt16, unit = mark → unit.toNat = mark.toNat := by
    intro mark same
    rw [same]
  refine ⟨by omega, by omega, ?_, ?_⟩
  · intro same
    have value := apart 34 same
    have mark : (34 : UInt16).toNat = 34 := rfl
    omega
  · intro same
    have value := apart 92 same
    have mark : (92 : UInt16).toNat = 92 := rfl
    omega

theorem escape_unit_plain {unit : UInt16} (plain : Plain unit) : escapeUnit unit = [unit] := by
  obtain ⟨printed, ascii, quoted, slash⟩ := plain
  have single := Text.ascii_plain ascii
  have apart : ∀ mark : UInt16, mark.toNat < 32 → unit ≠ mark := by
    intro mark small same
    rw [same] at printed
    omega
  rw [escapeUnit, if_neg quoted, if_neg slash, if_neg (apart 8 (by decide)),
    if_neg (apart 9 (by decide)), if_neg (apart 10 (by decide)), if_neg (apart 12 (by decide)),
    if_neg (apart 13 (by decide)), if_neg]
  rw [single]
  simpa using printed

theorem escape_plain {value : Text} (plain : ∀ unit ∈ value, Plain unit) : escape value = value := by
  induction value using escape.induct with
  | case1 => rfl
  | case2 unit => exact escape_unit_plain (plain unit (by simp))
  | case3 unit next rest paired ih =>
    have single := Text.ascii_plain (plain unit (by simp)).2.1
    simp only [Text.isSurrogate, Bool.or_eq_false_iff] at single
    simp [single.1] at paired
  | case4 unit next rest apart ih =>
    rw [escape, if_neg apart, escape_unit_plain (plain unit (by simp)), ih]
    · rfl
    · intro other mem
      exact plain other (mem_cons_of_mem _ mem)

theorem quote_plain_size {value : Text} (plain : ∀ unit ∈ value, Plain unit) :
    Text.size (quote value) = value.length + 2 := by
  rw [size_quote, escape_plain plain, Text.size_ascii]
  intro unit mem
  exact (plain unit mem).2.1

theorem quote_encoded_size (bytes : Bytes) :
    Text.size (quote (Base64.encode bytes)) = (4 * bytes.length + 2) / 3 + 2 := by
  rw [quote_plain_size, Base64.encode_length]
  intro unit mem
  exact letter_plain (Base64.encode_alphabet bytes unit mem)

theorem nat_size_le (value : Fin (2 ^ 53)) : Text.size (stringify (.number (safe value))) ≤ 16 := by
  have digits : (digitText value.val).length ≤ 16 := by
    apply digit_text_length (by decide)
    exact lt_trans value.isLt (by decide)
  rw [stringify, number_json_safe, Text.size_ascii]
  · exact digits
  · intro unit mem
    have digit := digit_text_digits mem
    unfold IsDigit at digit
    omega

/-- The bytes of a field: its quoted name, a colon, its value and a comma. -/
def entrySize (field : Text × Json) : Nat :=
  Text.size (quote field.1) + Text.size (stringify field.2) + 2

theorem mark_size {mark : UInt16} (ascii : mark.toNat < 128) (rest : Text) :
    Text.size (mark :: rest) = Text.size rest + 1 := by
  have whole : Text.WellFormed [mark] := .unit (Text.ascii_plain ascii) .nil
  have one : Text.size [mark] = 1 := Text.size_ascii (by simpa using ascii)
  rw [← singleton_append, Text.size_append whole, one, Nat.add_comm]

theorem fields_text_size (first : Text × Json) (rest : List (Text × Json)) :
    Text.size (fieldsText (first :: rest)) + 1 = ((first :: rest).map entrySize).sum := by
  induction rest generalizing first with
  | nil =>
    rw [fieldsText, Text.size_append (quote_well_formed _), mark_size (by decide)]
    simp only [map_cons, map_nil, sum_cons, sum_nil, entrySize]
    omega
  | cons second others ih =>
    have later := ih second
    rw [fieldsText, Text.size_append (quote_well_formed _), mark_size (by decide),
      Text.size_append (stringify_well_formed _), mark_size (by decide)]
    simp only [map_cons, sum_cons, entrySize] at later ⊢
    omega

theorem items_text_size (first : Json) (rest : List Json) :
    Text.size (itemsText (first :: rest)) + 1 =
      ((first :: rest).map fun item => Text.size (stringify item) + 1).sum := by
  induction rest generalizing first with
  | nil =>
    rw [itemsText]
    rfl
  | cons second others ih =>
    have later := ih second
    rw [itemsText, Text.size_append (stringify_well_formed _), mark_size (by decide)]
    simp only [map_cons, sum_cons] at later ⊢
    omega

theorem object_size (first : Text × Json) (rest : List (Text × Json)) :
    Text.size (stringify (.object (first :: rest))) =
      ((first :: rest).map entrySize).sum + 1 := by
  have one : Text.size [125] = 1 := by decide
  rw [← fields_text_size, stringify, mark_size (by decide),
    Text.size_append (fields_text_well_formed _), one]

theorem array_size (first : Json) (rest : List Json) :
    Text.size (stringify (.array (first :: rest))) =
      ((first :: rest).map fun item => Text.size (stringify item) + 1).sum + 1 := by
  have one : Text.size [93] = 1 := by decide
  rw [← items_text_size, stringify, mark_size (by decide),
    Text.size_append (items_text_well_formed _), one]

def fieldSize (field : Text × Atom) : Nat :=
  Text.size (quote field.1) + Text.size (stringify field.2.json) + 2

theorem record_size (first : Text × Atom) (rest : List (Text × Atom)) :
    Text.size (stringify (record (first :: rest))) ≤
      ((first :: rest).map fieldSize).sum + 2 := by
  have same : ((first :: rest).map fun field => (field.1, field.2.json)).map entrySize =
      (first :: rest).map fieldSize := by
    rw [map_map]
    rfl
  rw [map_cons] at same
  rw [record, map_cons, object_size, same]
  exact Nat.le_succ _

end Json

end AwfulChat.Library
