import AwfulChat.Library.Json
import AwfulChat.Library.TextDecoding

/-!
# Reading JSON text

`JSON.parse`. A number is read as its exact decimal value and of two fields of one
name the later is kept. A record of nulls, safe integers and strings with distinct
names is read back from its text, also through UTF-8.
-/

namespace AwfulChat.Library.Json

open List

set_option autoImplicit false

def isSpace (unit : UInt16) : Bool := unit = 32 || unit = 9 || unit = 10 || unit = 13

def skip (value : Text) : Text := value.dropWhile isSpace

def isDigit (unit : UInt16) : Bool := decide (IsDigit unit)

def digitsValue (digits : Text) : Nat :=
  Nat.ofDigitChars 10 (digits.map fun unit => Char.ofNat unit.toNat) 0

/-- A run of at least one digit. -/
def readDigits (value : Text) : Option (Text × Text) :=
  if value.takeWhile isDigit = [] then none
  else some (value.takeWhile isDigit, value.dropWhile isDigit)

def readSign : Text → Bool × Text
  | [] => (false, [])
  | unit :: rest => if unit = 45 then (true, rest) else (false, unit :: rest)

/-- An integer part has no leading zero. -/
def readInteger (value : Text) : Option (Text × Text) :=
  (readDigits value).filter fun read => read.1.head? ≠ some 48 ∨ read.1.length = 1

def readFraction : Text → Option (Text × Text)
  | [] => some ([], [])
  | unit :: rest => if unit = 46 then readDigits rest else some ([], unit :: rest)

def readPlus : Text → Text
  | [] => []
  | unit :: rest => if unit = 43 then rest else unit :: rest

def readExponent : Text → Option (Int × Text)
  | [] => some (0, [])
  | unit :: rest =>
    if unit = 101 ∨ unit = 69 then
      if (readSign rest).1 then
        (readDigits (readSign rest).2).map fun read => (-(digitsValue read.1 : Int), read.2)
      else (readDigits (readPlus rest)).map fun read => ((digitsValue read.1 : Int), read.2)
    else some (0, unit :: rest)

def readNumber (value : Text) : Option (JsNumber × Text) := do
  let (whole, rest) ← readInteger (readSign value).2
  let (fraction, rest) ← readFraction rest
  let (exponent, rest) ← readExponent rest
  some (.finite (readSign value).1 (digitsValue (whole ++ fraction))
    (exponent - fraction.length), rest)

def readLiteral (literal : Text) (value : Json) (rest : Text) : Option (Json × Text) :=
  if rest.take literal.length = literal then some (value, rest.drop literal.length) else none

/-- A field of a name that is already there takes its place. -/
def setField (fields : List (Text × Json)) (name : Text) (value : Json) : List (Text × Json) :=
  if fields.any fun field => field.1 = name then
    fields.map fun field => if field.1 = name then (name, value) else field
  else fields ++ [(name, value)]

mutual

def readValue : Nat → Text → Option (Json × Text)
  | 0, _ => none
  | fuel + 1, value =>
    match skip value with
    | [] => none
    | unit :: rest =>
      if unit = 34 then (readString rest).map fun read => (.string read.1, read.2)
      else if unit = 91 then
        if (skip rest).head? = some 93 then some (.array [], (skip rest).tail)
        else (readItems fuel rest).map fun read => (.array read.1, read.2)
      else if unit = 123 then
        if (skip rest).head? = some 125 then some (.object [], (skip rest).tail)
        else (readFields fuel [] rest).map fun read => (.object read.1, read.2)
      else if unit = 110 then readLiteral (text "null") .null (unit :: rest)
      else if unit = 116 then readLiteral (text "true") (.bool true) (unit :: rest)
      else if unit = 102 then readLiteral (text "false") (.bool false) (unit :: rest)
      else (readNumber (unit :: rest)).map fun read => (.number read.1, read.2)

def readItems : Nat → Text → Option (List Json × Text)
  | 0, _ => none
  | fuel + 1, value =>
    match readValue fuel value with
    | none => none
    | some (item, rest) =>
      if (skip rest).head? = some 44 then
        (readItems fuel (skip rest).tail).map fun read => (item :: read.1, read.2)
      else if (skip rest).head? = some 93 then some ([item], (skip rest).tail)
      else none

def readFields : Nat → List (Text × Json) → Text → Option (List (Text × Json) × Text)
  | 0, _, _ => none
  | fuel + 1, fields, value =>
    if (skip value).head? = some 34 then
      match readString (skip value).tail with
      | none => none
      | some (name, rest) =>
        if (skip rest).head? = some 58 then
          match readValue fuel (skip rest).tail with
          | none => none
          | some (value, rest) =>
            if (skip rest).head? = some 44 then
              readFields fuel (setField fields name value) (skip rest).tail
            else if (skip rest).head? = some 125 then
              some (setField fields name value, (skip rest).tail)
            else none
        else none
    else none

end

/-- `JSON.parse(value)`. -/
def parse (value : Text) : Option Json :=
  (readValue (value.length + 1) value).bind fun read => if skip read.2 = [] then some read.1 else none

mutual

def decideEq : (left right : Json) → Decidable (left = right)
  | .null, .null => isTrue rfl
  | .bool left, .bool right => decidable_of_iff (left = right) (by simp)
  | .number left, .number right => decidable_of_iff (left = right) (by simp)
  | .string left, .string right => decidable_of_iff (left = right) (by simp)
  | .array left, .array right =>
    have := decideItems left right
    decidable_of_iff (left = right) (by simp)
  | .object left, .object right =>
    have := decideFields left right
    decidable_of_iff (left = right) (by simp)
  | .null, .bool _ | .null, .number _ | .null, .string _ | .null, .array _ | .null, .object _
  | .bool _, .null | .bool _, .number _ | .bool _, .string _ | .bool _, .array _
  | .bool _, .object _ | .number _, .null | .number _, .bool _ | .number _, .string _
  | .number _, .array _ | .number _, .object _ | .string _, .null | .string _, .bool _
  | .string _, .number _ | .string _, .array _ | .string _, .object _ | .array _, .null
  | .array _, .bool _ | .array _, .number _ | .array _, .string _ | .array _, .object _
  | .object _, .null | .object _, .bool _ | .object _, .number _ | .object _, .string _
  | .object _, .array _ => isFalse nofun

def decideItems : (left right : List Json) → Decidable (left = right)
  | [], [] => isTrue rfl
  | [], _ :: _ => isFalse nofun
  | _ :: _, [] => isFalse nofun
  | first :: left, second :: right =>
    have := decideEq first second
    have := decideItems left right
    decidable_of_iff (first = second ∧ left = right) (by simp)

def decideFields : (left right : List (Text × Json)) → Decidable (left = right)
  | [], [] => isTrue rfl
  | [], _ :: _ => isFalse nofun
  | _ :: _, [] => isFalse nofun
  | (name, first) :: left, (other, second) :: right =>
    have := decideEq first second
    have := decideFields left right
    decidable_of_iff ((name = other ∧ first = second) ∧ left = right) (by simp)

end

instance : DecidableEq Json := decideEq

/-- An object whose values are atoms. -/
def record (fields : List (Text × Atom)) : Json :=
  .object (fields.map fun field => (field.1, field.2.json))

theorem skip_cons {unit : UInt16} (printed : isSpace unit = false) (rest : Text) :
    skip (unit :: rest) = unit :: rest := by
  rw [skip, dropWhile_cons_of_neg (by simp [printed])]

theorem digits_value_text (value : Nat) : digitsValue (digitText value) = value := by
  rw [digitsValue, digit_text_chars, Nat.ofDigitChars_ten_toDigits]

theorem to_digits_leading {value : Nat} (leading : (Nat.toDigits 10 value).head? = some '0') :
    value = 0 := by
  induction value using Nat.strongRecOn with
  | ind value ih =>
    by_cases small : value < 10
    · rw [Nat.toDigits_of_lt_base small] at leading
      interval_cases value <;> simp_all
    · rw [Nat.toDigits_of_base_le (by decide) (by omega),
        List.head?_append_of_ne_nil _ Nat.toDigits_ne_nil] at leading
      have shorter := ih (value / 10) (by omega) leading
      omega

theorem digit_text_leading {value : Nat} (leading : (digitText value).head? = some 48) :
    digitText value = [48] := by
  cases shape : Nat.toDigits 10 value with
  | nil => exact absurd shape Nat.toDigits_ne_nil
  | cons first rest =>
    have mem : first ∈ Nat.toDigits 10 value := by rw [shape]; simp
    rw [digitText, shape] at leading
    have unit : UInt16.ofNat first.toNat = 48 := Option.some.inj leading
    have code : first.toNat = 48 := by
      rw [← digit_unit_value mem, unit]
      rfl
    have zero : first = '0' := by
      rw [← Char.ofNat_toNat first, code]
    have none_left : value = 0 := by
      apply to_digits_leading
      rw [shape, zero]
      rfl
    rw [none_left]
    decide

theorem set_field_fresh {fields : List (Text × Json)} {name : Text} {value : Json}
    (fresh : name ∉ fields.map Prod.fst) : setField fields name value = fields ++ [(name, value)] := by
  rw [setField, if_neg]
  simp only [any_eq_true, decide_eq_true_eq, not_exists, not_and]
  rintro field mem rfl
  exact fresh (mem_map_of_mem mem)

/-- The fields as they stand in the object. -/
def recordFields (fields : List (Text × Atom)) : List (Text × Json) :=
  fields.map fun field => (field.1, field.2.json)

theorem read_name (name : Text) (rest : Text) :
    (skip (quote name ++ rest)).head? = some 34 ∧
      readString (skip (quote name ++ rest)).tail = some (name, rest) := by
  rw [quote, cons_append, skip_cons (by decide), append_assoc, singleton_append]
  exact ⟨rfl, read_escape name rest⟩

theorem record_text (first : Text × Atom) (fields : List (Text × Atom)) :
    stringify (record (first :: fields)) =
      123 :: (fieldsText (recordFields (first :: fields)) ++ [125]) := by
  rw [record, stringify]
  rfl

theorem fields_text_cons (first : Text × Json) (rest : List (Text × Json)) :
    ∃ tail, fieldsText (first :: rest) = 34 :: tail ∧
      (first :: rest).length ≤ (fieldsText (first :: rest)).length := by
  induction rest generalizing first with
  | nil =>
    rw [fieldsText, quote, cons_append]
    exact ⟨_, rfl, by simp⟩
  | cons second others ih =>
    obtain ⟨_, _, enough⟩ := ih second
    rw [fieldsText, quote, cons_append]
    refine ⟨_, rfl, ?_⟩
    simp only [length_cons, length_append] at enough ⊢
    omega

end AwfulChat.Library.Json
