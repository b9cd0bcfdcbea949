import AwfulChat.Library.JsText
import Mathlib.Tactic.IntervalCases

/-!
# Unpadded base64url

The codec that `base64urlnopad` is: three bytes to four letters, one or two
bytes at the end to two or three letters. Decoding refuses a foreign letter, a
single letter at the end and spare bits that are not zero.
-/

namespace AwfulChat.Library.Base64

open Option

set_option autoImplicit false

/-- The letter for six bits: `A-Z`, `a-z`, `0-9`, `-` and `_`. -/
def letter (value : Nat) : UInt16 :=
  UInt16.ofNat
    (if value < 26 then 65 + value
    else if value < 52 then 71 + value
    else if value < 62 then value - 4
    else if value = 62 then 45
    else 95)

def letterValue (unit : UInt16) : Option Nat :=
  if 65 ≤ unit.toNat ∧ unit.toNat ≤ 90 then some (unit.toNat - 65)
  else if 97 ≤ unit.toNat ∧ unit.toNat ≤ 122 then some (unit.toNat - 71)
  else if 48 ≤ unit.toNat ∧ unit.toNat ≤ 57 then some (unit.toNat + 4)
  else if unit.toNat = 45 then some 62
  else if unit.toNat = 95 then some 63
  else none

def encode : Bytes → Text
  | [] => []
  | [first] => [letter (first.toNat / 4), letter (first.toNat % 4 * 16)]
  | [first, second] =>
    [letter (first.toNat / 4), letter (first.toNat % 4 * 16 + second.toNat / 16),
      letter (second.toNat % 16 * 4)]
  | first :: second :: third :: rest =>
    letter (first.toNat / 4) :: letter (first.toNat % 4 * 16 + second.toNat / 16) ::
      letter (second.toNat % 16 * 4 + third.toNat / 64) :: letter (third.toNat % 64) ::
      encode rest

def decode : Text → Option Bytes
  | [] => some []
  | [_] => none
  | [first, second] => do
      let high ← letterValue first
      let low ← letterValue second
      if low % 16 = 0 then some [UInt8.ofNat (high * 4 + low / 16)] else none
  | [first, second, third] => do
      let high ← letterValue first
      let middle ← letterValue second
      let low ← letterValue third
      if low % 4 = 0 then
        some [UInt8.ofNat (high * 4 + middle / 16), UInt8.ofNat (middle % 16 * 16 + low / 4)]
      else none
  | first :: second :: third :: fourth :: rest => do
      let one ← letterValue first
      let two ← letterValue second
      let three ← letterValue third
      let four ← letterValue fourth
      let bytes ← decode rest
      some (UInt8.ofNat (one * 4 + two / 16) :: UInt8.ofNat (two % 16 * 16 + three / 4) ::
        UInt8.ofNat (three % 4 * 64 + four) :: bytes)

theorem letter_value_letter {value : Nat} (small : value < 64) :
    letterValue (letter value) = some value := by
  interval_cases value <;> rfl

theorem letter_value_iff {unit : UInt16} {value : Nat} :
    letterValue unit = some value ↔ value < 64 ∧ letter value = unit := by
  constructor
  · intro found
    have bound := unit.toNat_lt
    unfold letterValue at found
    split_ifs at found <;> cases found <;> refine ⟨by omega, ?_⟩ <;> unfold letter <;>
      rw [← UInt16.toNat_inj, UInt16.toNat_ofNat'] <;> split_ifs <;> omega
  · rintro ⟨small, rfl⟩
    exact letter_value_letter small

theorem value_of_byte {value : Nat} (small : value < 256) : (UInt8.ofNat value).toNat = value := by
  rw [UInt8.toNat_ofNat', Nat.mod_eq_of_lt small]

theorem byte_of_value (byte : UInt8) {value : Nat} (same : value = byte.toNat) :
    UInt8.ofNat value = byte := by
  rw [same, UInt8.ofNat_toNat]

theorem decode_encode (bytes : Bytes) : decode (encode bytes) = some bytes := by
  induction bytes using encode.induct with
  | case1 => rfl
  | case2 first =>
    have bound : first.toNat < 256 := first.toNat_lt
    simp only [encode, decode, letter_value_letter (show first.toNat / 4 < 64 by omega),
      letter_value_letter (show first.toNat % 4 * 16 < 64 by omega), bind_eq_bind,
      bind_some]
    rw [if_pos (by omega), byte_of_value first (by omega)]
  | case3 first second =>
    have bound : first.toNat < 256 := first.toNat_lt
    have boundToo : second.toNat < 256 := second.toNat_lt
    simp only [encode, decode, letter_value_letter (show first.toNat / 4 < 64 by omega),
      letter_value_letter (show first.toNat % 4 * 16 + second.toNat / 16 < 64 by omega),
      letter_value_letter (show second.toNat % 16 * 4 < 64 by omega), bind_eq_bind,
      bind_some]
    rw [if_pos (by omega), byte_of_value first (by omega), byte_of_value second (by omega)]
  | case4 first second third rest ih =>
    have bound : first.toNat < 256 := first.toNat_lt
    have boundToo : second.toNat < 256 := second.toNat_lt
    have boundLast : third.toNat < 256 := third.toNat_lt
    simp only [encode, decode, letter_value_letter (show first.toNat / 4 < 64 by omega),
      letter_value_letter (show first.toNat % 4 * 16 + second.toNat / 16 < 64 by omega),
      letter_value_letter (show second.toNat % 16 * 4 + third.toNat / 64 < 64 by omega),
      letter_value_letter (show third.toNat % 64 < 64 by omega), bind_eq_bind,
      bind_some, ih]
    rw [byte_of_value first (by omega), byte_of_value second (by omega),
      byte_of_value third (by omega)]

theorem encode_length (bytes : Bytes) : (encode bytes).length = (4 * bytes.length + 2) / 3 := by
  induction bytes using encode.induct with
  | case1 => rfl
  | case2 first | case3 first second => simp [encode]
  | case4 first second third rest ih =>
    simp only [encode, List.length_cons, ih]
    omega

theorem letter_alphabet (value : Nat) : (letterValue (letter value)).isSome = true := by
  by_cases small : value < 62
  · rw [letter_value_letter (by omega)]
    rfl
  · by_cases dash : value = 62
    · subst dash
      rfl
    · simp only [letter, if_neg (show ¬ value < 26 by omega), if_neg (show ¬ value < 52 by omega),
        if_neg small, if_neg dash]
      rfl

theorem encode_alphabet (bytes : Bytes) :
    ∀ unit ∈ encode bytes, (letterValue unit).isSome = true := by
  induction bytes using encode.induct with
  | case1 => simp [encode]
  | case2 first | case3 first second => simp [encode, letter_alphabet]
  | case4 first second third rest ih => simpa [encode, letter_alphabet] using ih

end AwfulChat.Library.Base64
