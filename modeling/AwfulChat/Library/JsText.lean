import Mathlib.Data.List.Basic

/-!
# JavaScript text

A JavaScript string is a list of UTF-16 code units and may hold half of a
surrogate pair. `TextEncoder` joins the pairs, puts U+FFFD for a half that
stands alone and writes UTF-8; on text without lone halves it is injective.
-/

namespace AwfulChat.Library

open Bool

set_option autoImplicit false

abbrev Text := List UInt16

abbrev Bytes := List UInt8

namespace Text

def isHigh (unit : UInt16) : Bool := 0xD800 ≤ unit.toNat && unit.toNat < 0xDC00

def isLow (unit : UInt16) : Bool := 0xDC00 ≤ unit.toNat && unit.toNat < 0xE000

def isSurrogate (unit : UInt16) : Bool := isHigh unit || isLow unit

def charUnits (char : Char) : Text :=
  if char.toNat < 0x10000 then [UInt16.ofNat char.toNat]
  else [UInt16.ofNat (0xD800 + (char.toNat - 0x10000) / 0x400),
    UInt16.ofNat (0xDC00 + (char.toNat - 0x10000) % 0x400)]

end Text

/-- The literal of the source: its characters as code units. -/
def text (value : String) : Text := value.toList.flatMap Text.charUnits

namespace Text

def scalar (unit : UInt16) : Char :=
  if isSurrogate unit then Char.ofNat 0xFFFD else Char.ofNat unit.toNat

def pairScalar (high low : UInt16) : Char :=
  Char.ofNat (0x10000 + (high.toNat - 0xD800) * 0x400 + (low.toNat - 0xDC00))

def scalars : Text → List Char
  | [] => []
  | [unit] => [scalar unit]
  | unit :: next :: rest =>
    if isHigh unit && isLow next then pairScalar unit next :: scalars rest
    else scalar unit :: scalars (next :: rest)

/-- `TextEncoder.encode`. -/
def encodeUtf8 (value : Text) : Bytes := (scalars value).flatMap String.utf8EncodeChar

/-- Every half of a surrogate pair stands in a pair. -/
inductive WellFormed : Text → Prop
  | nil : WellFormed []
  | unit {unit : UInt16} {rest : Text} (single : isSurrogate unit = false)
      (tail : WellFormed rest) : WellFormed (unit :: rest)
  | pair {high low : UInt16} {rest : Text} (first : isHigh high = true)
      (second : isLow low = true) (tail : WellFormed rest) : WellFormed (high :: low :: rest)

theorem WellFormed.append {left right : Text} (first : WellFormed left)
    (second : WellFormed right) : WellFormed (left ++ right) := by
  induction first with
  | nil => exact second
  | unit single _ ih => exact .unit single ih
  | pair high low _ ih => exact .pair high low ih

theorem WellFormed.of_plain {value : Text}
    (plain : ∀ unit ∈ value, isSurrogate unit = false) : WellFormed value := by
  induction value with
  | nil => exact .nil
  | cons unit rest ih =>
    apply WellFormed.unit (plain unit (by simp))
    apply ih
    intro other mem
    exact plain other (by simp [mem])

theorem WellFormed.of_all {value : Text} (plain : value.all (!isSurrogate ·) = true) :
    WellFormed value :=
  of_plain fun unit mem => by simpa using List.all_eq_true.mp plain unit mem

theorem scalars_unit {unit : UInt16} (single : isSurrogate unit = false) (rest : Text) :
    scalars (unit :: rest) = Char.ofNat unit.toNat :: scalars rest := by
  have plain : isHigh unit = false := by
    simp only [isSurrogate, or_eq_false_iff] at single
    exact single.1
  cases rest with
  | nil => simp [scalars, scalar, single]
  | cons next rest => simp [scalars, scalar, single, plain]

theorem scalars_pair {high low : UInt16} (first : isHigh high = true) (second : isLow low = true)
    (rest : Text) : scalars (high :: low :: rest) = pairScalar high low :: scalars rest := by
  simp [scalars, first, second]

theorem char_value {value : Nat} (valid : value.isValidChar) : (Char.ofNat value).toNat = value := by
  have same : Char.ofNat value = Char.ofNatAux value valid := dif_pos valid
  rw [same]
  rfl

theorem char_units_scalar {unit : UInt16} (single : isSurrogate unit = false) :
    charUnits (Char.ofNat unit.toNat) = [unit] := by
  have bound : unit.toNat < 65536 := unit.toNat_lt
  have valid : unit.toNat.isValidChar := by
    simp only [isSurrogate, isHigh, isLow, or_eq_false_iff, and_eq_false_iff,
      decide_eq_false_iff_not] at single
    unfold Nat.isValidChar
    omega
  have value : (Char.ofNat unit.toNat).toNat = unit.toNat := char_value valid
  simp [charUnits, value, bound]

theorem char_units_pair {high low : UInt16} (first : isHigh high = true)
    (second : isLow low = true) : charUnits (pairScalar high low) = [high, low] := by
  simp only [isHigh, isLow, and_eq_true, decide_eq_true_eq] at first second
  have valid : (0x10000 + (high.toNat - 0xD800) * 0x400 + (low.toNat - 0xDC00)).isValidChar := by
    unfold Nat.isValidChar
    omega
  have value := char_value valid
  have large : ¬ (0x10000 + (high.toNat - 0xD800) * 0x400 + (low.toNat - 0xDC00)) < 0x10000 := by
    omega
  have upper : 0xD800 + ((0x10000 + (high.toNat - 0xD800) * 0x400 + (low.toNat - 0xDC00)) -
      0x10000) / 0x400 = high.toNat := by omega
  have lower : 0xDC00 + ((0x10000 + (high.toNat - 0xD800) * 0x400 + (low.toNat - 0xDC00)) -
      0x10000) % 0x400 = low.toNat := by omega
  simp only [charUnits, pairScalar, value, if_neg large, upper, lower, UInt16.ofNat_toNat]

theorem scalars_units {value : Text} (whole : WellFormed value) :
    (scalars value).flatMap charUnits = value := by
  induction whole with
  | nil => rfl
  | unit single _ ih =>
    rw [scalars_unit single, List.flatMap_cons, ih, char_units_scalar single]
    rfl
  | pair high low _ ih =>
    rw [scalars_pair high low, List.flatMap_cons, ih, char_units_pair high low]
    rfl

theorem utf8_chars_injective {left right : List Char}
    (same : left.flatMap String.utf8EncodeChar = right.flatMap String.utf8EncodeChar) :
    left = right := by
  have bytes : left.utf8Encode = right.utf8Encode := by
    unfold List.utf8Encode
    rw [same]
  have strings : String.ofList left = String.ofList right := by
    apply String.toByteArray_inj.mp
    simpa using bytes
  simpa using congrArg String.toList strings

theorem encode_utf8_injective {left right : Text} (first : WellFormed left)
    (second : WellFormed right) (same : encodeUtf8 left = encodeUtf8 right) : left = right := by
  have chars := utf8_chars_injective same
  rw [← scalars_units first, ← scalars_units second, chars]

end Text

end AwfulChat.Library
