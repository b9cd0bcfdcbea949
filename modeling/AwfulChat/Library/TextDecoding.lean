import AwfulChat.Library.JsText

/-!
# Decoding UTF-8

`TextDecoder.decode`, as the standard gives it: one byte at a time, with the bytes
still owed to a character and the range of the next one. A byte out of range ends
the character with U+FFFD and is read again as a first byte. A byte order mark in
front is dropped.
-/

namespace AwfulChat.Library.Text

open List

set_option autoImplicit false

structure Utf8State where
  codePoint : Nat
  needed : Nat
  lower : Nat
  upper : Nat

def replacement : Char := Char.ofNat 0xFFFD

def firstByte (byte : Nat) : Option Utf8State × List Char :=
  if byte ≤ 0x7F then (none, [Char.ofNat byte])
  else if 0xC2 ≤ byte ∧ byte ≤ 0xDF then (some ⟨byte - 0xC0, 1, 0x80, 0xBF⟩, [])
  else if 0xE0 ≤ byte ∧ byte ≤ 0xEF then
    (some ⟨byte - 0xE0, 2, if byte = 0xE0 then 0xA0 else 0x80,
      if byte = 0xED then 0x9F else 0xBF⟩, [])
  else if 0xF0 ≤ byte ∧ byte ≤ 0xF4 then
    (some ⟨byte - 0xF0, 3, if byte = 0xF0 then 0x90 else 0x80,
      if byte = 0xF4 then 0x8F else 0xBF⟩, [])
  else (none, [replacement])

def laterByte (state : Utf8State) (byte : Nat) : Option Utf8State × List Char :=
  if state.lower ≤ byte ∧ byte ≤ state.upper then
    if state.needed = 1 then (none, [Char.ofNat (state.codePoint * 64 + (byte - 0x80))])
    else (some ⟨state.codePoint * 64 + (byte - 0x80), state.needed - 1, 0x80, 0xBF⟩, [])
  else ((firstByte byte).1, replacement :: (firstByte byte).2)

def feedByte : Option Utf8State → Nat → Option Utf8State × List Char
  | none, byte => firstByte byte
  | some state, byte => laterByte state byte

def decodeChars : Option Utf8State → Bytes → List Char
  | none, [] => []
  | some _, [] => [replacement]
  | state, byte :: rest =>
    (feedByte state byte.toNat).2 ++ decodeChars (feedByte state byte.toNat).1 rest

def byteOrderMark : Char := Char.ofNat 0xFEFF

def dropMark : List Char → List Char
  | [] => []
  | first :: rest => if first = byteOrderMark then rest else first :: rest

/-- `new TextDecoder().decode(bytes)`. -/
def decodeUtf8 (bytes : Bytes) : Text := (dropMark (decodeChars none bytes)).flatMap charUnits

theorem decode_chars_byte (state : Option Utf8State) {value : Nat} (small : value < 256)
    (rest : Bytes) : decodeChars state (UInt8.ofNat value :: rest) =
      (feedByte state value).2 ++ decodeChars (feedByte state value).1 rest := by
  have same : (UInt8.ofNat value).toNat = value := by
    rw [UInt8.toNat_ofNat', Nat.mod_eq_of_lt (by omega)]
  cases state <;> rw [decodeChars, same]

theorem decode_last {codePoint lower upper value : Nat} (small : value < 256)
    (above : lower ≤ value) (below : value ≤ upper) (rest : Bytes) :
    decodeChars (some ⟨codePoint, 1, lower, upper⟩) (UInt8.ofNat value :: rest) =
      Char.ofNat (codePoint * 64 + (value - 0x80)) :: decodeChars none rest := by
  rw [decode_chars_byte _ small, feedByte, laterByte, if_pos ⟨above, below⟩, if_pos rfl]
  rfl

theorem decode_middle {codePoint needed lower upper value : Nat} (small : value < 256)
    (above : lower ≤ value) (below : value ≤ upper) (rest : Bytes) :
    decodeChars (some ⟨codePoint, needed + 2, lower, upper⟩) (UInt8.ofNat value :: rest) =
      decodeChars (some ⟨codePoint * 64 + (value - 0x80), needed + 1, 0x80, 0xBF⟩) rest := by
  rw [decode_chars_byte _ small, feedByte, laterByte, if_pos ⟨above, below⟩, if_neg (by simp)]
  rfl

theorem first_two {value : Nat} (lower : 0xC2 ≤ value) (upper : value ≤ 0xDF) :
    firstByte value = (some ⟨value - 0xC0, 1, 0x80, 0xBF⟩, []) := by
  rw [firstByte, if_neg (by omega), if_pos ⟨lower, upper⟩]

theorem first_three {value : Nat} (lower : 0xE0 ≤ value) (upper : value ≤ 0xEF) :
    firstByte value = (some ⟨value - 0xE0, 2, if value = 0xE0 then 0xA0 else 0x80,
      if value = 0xED then 0x9F else 0xBF⟩, []) := by
  rw [firstByte, if_neg (by omega), if_neg (by omega), if_pos ⟨lower, upper⟩]

theorem first_four {value : Nat} (lower : 0xF0 ≤ value) (upper : value ≤ 0xF4) :
    firstByte value = (some ⟨value - 0xF0, 3, if value = 0xF0 then 0x90 else 0x80,
      if value = 0xF4 then 0x8F else 0xBF⟩, []) := by
  rw [firstByte, if_neg (by omega), if_neg (by omega), if_neg (by omega), if_pos ⟨lower, upper⟩]

theorem decode_two {code : Nat} (lower : 0x7F < code) (upper : code ≤ 0x7FF) (rest : Bytes) :
    decodeChars none (UInt8.ofNat (code / 64 % 0x20 + 0xC0) ::
      UInt8.ofNat (code % 0x40 + 0x80) :: rest) = Char.ofNat code :: decodeChars none rest := by
  rw [decode_chars_byte none (by omega), feedByte, first_two (by omega) (by omega)]
  simp only [nil_append]
  rw [decode_last (by omega) (by omega) (by omega)]
  have same : (code / 64 % 0x20 + 0xC0 - 0xC0) * 64 + (code % 0x40 + 0x80 - 0x80) = code := by omega
  rw [same]

theorem decode_three {code : Nat} (lower : 0x7FF < code) (upper : code ≤ 0xFFFF)
    (apart : code < 0xD800 ∨ 0xDFFF < code) (rest : Bytes) :
    decodeChars none (UInt8.ofNat (code / 4096 % 0x10 + 0xE0) ::
      UInt8.ofNat (code / 64 % 0x40 + 0x80) :: UInt8.ofNat (code % 0x40 + 0x80) :: rest) =
        Char.ofNat code :: decodeChars none rest := by
  rw [decode_chars_byte none (by omega), feedByte, first_three (by omega) (by omega)]
  simp only [nil_append]
  rw [decode_middle (by omega) (by split <;> omega) (by split <;> omega),
    decode_last (by omega) (by omega) (by omega)]
  have same : ((code / 4096 % 0x10 + 0xE0 - 0xE0) * 64 + (code / 64 % 0x40 + 0x80 - 0x80)) * 64 +
      (code % 0x40 + 0x80 - 0x80) = code := by omega
  rw [same]

theorem decode_four {code : Nat} (lower : 0xFFFF < code) (upper : code < 0x110000) (rest : Bytes) :
    decodeChars none (UInt8.ofNat (code / 262144 % 0x08 + 0xF0) ::
      UInt8.ofNat (code / 4096 % 0x40 + 0x80) :: UInt8.ofNat (code / 64 % 0x40 + 0x80) ::
        UInt8.ofNat (code % 0x40 + 0x80) :: rest) = Char.ofNat code :: decodeChars none rest := by
  rw [decode_chars_byte none (by omega), feedByte, first_four (by omega) (by omega)]
  simp only [nil_append]
  rw [decode_middle (by omega) (by split <;> omega) (by split <;> omega),
    decode_middle (by omega) (by omega) (by omega), decode_last (by omega) (by omega) (by omega)]
  have same : (((code / 262144 % 0x08 + 0xF0 - 0xF0) * 64 +
      (code / 4096 % 0x40 + 0x80 - 0x80)) * 64 + (code / 64 % 0x40 + 0x80 - 0x80)) * 64 +
      (code % 0x40 + 0x80 - 0x80) = code := by omega
  rw [same]

theorem decode_char (char : Char) (rest : Bytes) :
    decodeChars none (String.utf8EncodeChar char ++ rest) = char :: decodeChars none rest := by
  have valid : char.val.toNat < 0xD800 ∨ (0xDFFF < char.val.toNat ∧ char.val.toNat < 0x110000) :=
    char.valid
  have whole : Char.ofNat char.val.toNat = char := Char.ofNat_toNat char
  unfold String.utf8EncodeChar
  simp only
  split
  · rename_i one
    rw [singleton_append, decode_chars_byte none (by omega), feedByte, firstByte, if_pos one,
      whole]
    rfl
  · split
    · rename_i two
      have decoded := decode_two (show 0x7F < char.val.toNat by omega) two rest
      rw [whole] at decoded
      exact decoded
    · split
      · rename_i three
        have decoded :=
          decode_three (show 0x7FF < char.val.toNat by omega) three (by omega) rest
        rw [whole] at decoded
        exact decoded
      · have decoded := decode_four (show 0xFFFF < char.val.toNat by omega) (by omega) rest
        rw [whole] at decoded
        exact decoded

theorem decode_chars_encoded (chars : List Char) :
    decodeChars none (chars.flatMap String.utf8EncodeChar) = chars := by
  induction chars with
  | nil => rfl
  | cons char rest ih => rw [flatMap_cons, decode_char, ih]

theorem decode_encode_utf8 {value : Text} (whole : WellFormed value)
    (unmarked : ∀ unit ∈ value.head?, unit ≠ 0xFEFF) : decodeUtf8 (encodeUtf8 value) = value := by
  have kept : dropMark (scalars value) = scalars value := by
    cases shape : scalars value with
    | nil => rfl
    | cons first rest =>
      have units := scalars_units whole
      rw [shape, flatMap_cons] at units
      rw [dropMark, if_neg]
      rintro rfl
      apply unmarked 0xFEFF _ rfl
      rw [← units]
      rfl
  rw [decodeUtf8, encodeUtf8, decode_chars_encoded, kept, scalars_units whole]

end AwfulChat.Library.Text
