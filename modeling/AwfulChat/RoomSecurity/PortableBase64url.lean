import AwfulChat.Library.Base64
import AwfulChat.Library.JsonSize
import AwfulChat.Library.TextDecoding

/-!
# The portable codec of room frames and keys

`portableBase64url` of `base64url.ts`, the one an engine without a codec of its own
runs: two tables, and three bytes or four letters packed into one number at each turn.
-/

namespace AwfulChat.PortableBase64url

open Library List Option

set_option autoImplicit false

def ALPHABET : Text := text "ABCDEFGHIJKLMNOPQRSTUVWXYZabcdefghijklmnopqrstuvwxyz0123456789-_"

def TO_CHAR : Bytes := ALPHABET.map fun unit => UInt8.ofNat unit.toNat

def FROM_CHAR : Bytes :=
  (List.range 64).foldl (fun table i => table.set (TO_CHAR.getD i 0).toNat (UInt8.ofNat i))
    (List.replicate 128 0)

/-- What stands behind the end of a table counts as 0 among the bits of a number. -/
def toChar (value : Nat) : UInt8 := TO_CHAR.getD value 0

def fromChar (code : Nat) : Nat := (FROM_CHAR.getD code 0).toNat

/-- A `Uint8Array` of this size after these were written one behind the other. -/
def filled (size : Nat) (written : Bytes) : Bytes :=
  (written ++ List.replicate (size - written.length) 0).take size

def encodeBytes : Bytes → Bytes
  | first :: second :: third :: rest =>
    let v := first.toNat <<< 16 ||| second.toNat <<< 8 ||| third.toNat
    toChar (v >>> 18) :: toChar (v >>> 12 &&& 63) :: toChar (v >>> 6 &&& 63) :: toChar (v &&& 63) ::
      encodeBytes rest
  | [first] =>
    let v := first.toNat <<< 16
    [toChar (v >>> 18), toChar (v >>> 12 &&& 63)]
  | [first, second] =>
    let v := first.toNat <<< 16 ||| second.toNat <<< 8
    [toChar (v >>> 18), toChar (v >>> 12 &&& 63), toChar (v >>> 6 &&& 63)]
  | [] => []

def encode (bytes : Bytes) : Text :=
  Text.decodeUtf8 (filled ((bytes.length * 4 + 2) / 3) (encodeBytes bytes))

/-- `/^[A-Za-z0-9_-]*$/` -/
def shape (value : Text) : Bool := value.all fun unit =>
  65 ≤ unit.toNat && unit.toNat ≤ 90 || 97 ≤ unit.toNat && unit.toNat ≤ 122 ||
    48 ≤ unit.toNat && unit.toNat ≤ 57 || unit.toNat = 95 || unit.toNat = 45

/-- The bits of the last character that no byte takes. -/
def spare (value : Text) : Nat :=
  fromChar ((value.getLastD 0).toNat) &&& (if value.length % 4 = 2 then 0x0f else 0x03)

/-- Where it does not throw. -/
def assertCanonical (value : Text) : Bool :=
  shape value && value.length % 4 ≠ 1 && (value.length % 4 = 0 || spare value = 0)

def decodeChars : Bytes → Bytes
  | first :: second :: third :: fourth :: rest =>
    let v := fromChar first.toNat <<< 18 ||| fromChar second.toNat <<< 12 |||
      fromChar third.toNat <<< 6 ||| fromChar fourth.toNat
    UInt8.ofNat (v >>> 16) :: UInt8.ofNat (v >>> 8 &&& 255) :: UInt8.ofNat (v &&& 255) ::
      decodeChars rest
  | [first, second] =>
    [UInt8.ofNat (fromChar first.toNat <<< 2 ||| fromChar second.toNat >>> 4)]
  | [first, second, third] =>
    let v := fromChar first.toNat <<< 12 ||| fromChar second.toNat <<< 6 ||| fromChar third.toNat
    [UInt8.ofNat (v >>> 10), UInt8.ofNat (v >>> 2 &&& 255)]
  | _ => []

/-- None is a throw. -/
def decode (value : Text) : Option Bytes :=
  if assertCanonical value then
    let chars := Text.encodeUtf8 value
    some (filled (chars.length * 3 / 4) (decodeChars chars))
  else none

theorem tables : ∀ value < 64, toChar value = UInt8.ofNat (Base64.letter value).toNat ∧
    fromChar (UInt8.ofNat (Base64.letter value).toNat).toNat = value ∧
      fromChar (Base64.letter value).toNat = value := by
  decide +kernel

theorem packed {high low bits : Nat} (small : low < 2 ^ bits) :
    high <<< bits ||| low = high * 2 ^ bits + low := by
  rw [← Nat.shiftLeft_add_eq_or_of_lt small, Nat.shiftLeft_eq]

theorem packed_three (first : Nat) {second third bits : Nat} (two : second < 2 ^ bits)
    (three : third < 2 ^ bits) : first <<< (bits + bits) ||| second <<< bits ||| third =
      (first * 2 ^ bits + second) * 2 ^ bits + third := by
  rw [Nat.shiftLeft_add, ← Nat.shiftLeft_or_distrib, packed three, packed two]

theorem packed_four (first : Nat) {second third fourth : Nat} (two : second < 2 ^ 6)
    (three : third < 2 ^ 6) (four : fourth < 2 ^ 6) :
    first <<< 18 ||| second <<< 12 ||| third <<< 6 ||| fourth =
      ((first * 2 ^ 6 + second) * 2 ^ 6 + third) * 2 ^ 6 + fourth := by
  have front : first <<< 18 ||| second <<< 12 ||| third <<< 6 =
      (first <<< (6 + 6) ||| second <<< 6 ||| third) <<< 6 := by
    simp only [Nat.shiftLeft_or_distrib, ← Nat.shiftLeft_add]
  rw [front, packed_three first two three, packed four]

theorem masked (value : Nat) : value &&& 63 = value % 64 ∧ value &&& 255 = value % 256 ∧
    value &&& 15 = value % 16 ∧ value &&& 3 = value % 4 :=
  ⟨Nat.and_two_pow_sub_one_eq_mod value 6, Nat.and_two_pow_sub_one_eq_mod value 8,
    Nat.and_two_pow_sub_one_eq_mod value 4, Nat.and_two_pow_sub_one_eq_mod value 2⟩

theorem letters_of_bytes (first : Nat) {second third value : Nat} (two : second < 256)
    (three : third < 256) (whole : value = first <<< 16 ||| second <<< 8 ||| third) :
    value >>> 18 = first / 4 ∧ value >>> 12 &&& 63 = first % 4 * 16 + second / 16 ∧
      value >>> 6 &&& 63 = second % 16 * 4 + third / 64 ∧ value &&& 63 = third % 64 := by
  rw [@packed_three first second third 8 two three] at whole
  simp only [masked, Nat.shiftRight_eq_div_pow]
  subst whole
  omega

theorem encode_bytes_letters (bytes : Bytes) :
    encodeBytes bytes = (Base64.encode bytes).map fun unit => UInt8.ofNat unit.toNat := by
  have char {value : Nat} (small : value < 64) := (tables value small).1
  fun_induction encodeBytes bytes with
  | case1 first second third rest v ih =>
    have bounds := And.intro first.toNat_lt (And.intro second.toNat_lt third.toNat_lt)
    obtain ⟨one, two, three, four⟩ := letters_of_bytes first.toNat bounds.2.1 bounds.2.2 (Eq.refl v)
    rw [one, two, three, four, char (by omega), char (by omega), char (by omega),
      char (by omega), ih]
    rfl
  | case2 first v =>
    have bound := first.toNat_lt
    have whole : v = first.toNat <<< 16 ||| 0 <<< 8 ||| 0 := by simp [v]
    obtain ⟨one, two, -⟩ := letters_of_bytes first.toNat (by decide) (by decide) whole
    rw [one, two, char (by omega), char (by omega)]
    rfl
  | case3 first second v =>
    have bounds := And.intro first.toNat_lt second.toNat_lt
    have whole : v = first.toNat <<< 16 ||| second.toNat <<< 8 ||| 0 := by simp [v]
    obtain ⟨one, two, three, -⟩ := letters_of_bytes first.toNat bounds.2 (by decide) whole
    rw [one, two, three, char (by omega), char (by omega), char (by omega)]
    rfl
  | case4 => rfl

theorem decode_chars_letters (bytes : Bytes) :
    decodeChars ((Base64.encode bytes).map fun unit => UInt8.ofNat unit.toNat) = bytes := by
  have char {value : Nat} (small : value < 64) := (tables value small).2.1
  induction bytes using Base64.encode.induct with
  | case1 => rfl
  | case2 first =>
    have bound := first.toNat_lt
    simp only [Base64.encode, map_cons, map_nil, decodeChars]
    rw [char (by omega), char (by omega), Nat.shiftRight_eq_div_pow,
      packed (show first.toNat % 4 * 16 / 2 ^ 4 < 2 ^ 2 by omega), Base64.byte_of_value first]
    omega
  | case3 first second =>
    have bounds := And.intro first.toNat_lt second.toNat_lt
    simp only [Base64.encode, map_cons, map_nil, decodeChars]
    rw [char (by omega), char (by omega), char (by omega),
      @packed_three _ _ _ 6 (by omega) (by omega)]
    simp only [masked, Nat.shiftRight_eq_div_pow]
    rw [Base64.byte_of_value first (by omega), Base64.byte_of_value second (by omega)]
  | case4 first second third rest ih =>
    have bounds := And.intro first.toNat_lt (And.intro second.toNat_lt third.toNat_lt)
    simp only [Base64.encode, map_cons, decodeChars, ih]
    rw [char (by omega), char (by omega), char (by omega), char (by omega),
      packed_four _ (by omega) (by omega) (by omega)]
    simp only [masked, Nat.shiftRight_eq_div_pow]
    rw [Base64.byte_of_value first (by omega), Base64.byte_of_value second (by omega),
      Base64.byte_of_value third (by omega)]

theorem ascii_bytes {value : Text} (ascii : ∀ unit ∈ value, unit.toNat < 128) :
    Text.encodeUtf8 value = value.map fun unit => UInt8.ofNat unit.toNat := by
  induction value with
  | nil => rfl
  | cons unit rest ih =>
    have small := ascii unit mem_cons_self
    have later := ih fun other mem => ascii other (mem_cons_of_mem _ mem)
    have char : (Char.ofNat unit.toNat).val.toNat = unit.toNat := by
      apply Text.char_value
      unfold Nat.isValidChar
      omega
    have one : String.utf8EncodeChar (Char.ofNat unit.toNat) = [UInt8.ofNat unit.toNat] := by
      rw [String.utf8EncodeChar, char, if_pos (by omega)]
    rw [Text.encodeUtf8, Text.scalars_unit (Text.ascii_plain small), flatMap_cons, one,
      ← Text.encodeUtf8, later]
    rfl

theorem shape_letter (unit : UInt16) : (65 ≤ unit.toNat && unit.toNat ≤ 90 ||
    97 ≤ unit.toNat && unit.toNat ≤ 122 || 48 ≤ unit.toNat && unit.toNat ≤ 57 ||
      unit.toNat = 95 || unit.toNat = 45) = (Base64.letterValue unit).isSome := by
  unfold Base64.letterValue
  split_ifs <;> simp <;> omega

/-- The letters are of the alphabet, their number fits, and the last has no bit to spare. -/
structure Canonical (value : Text) : Prop where
  letters : ∀ unit ∈ value, (Base64.letterValue unit).isSome
  length : value.length % 4 ≠ 1
  last : ∀ unit ∈ value.getLast?, ∀ bits ∈ Base64.letterValue unit,
    (value.length % 4 = 2 → bits % 16 = 0) ∧ (value.length % 4 = 3 → bits % 4 = 0)

theorem canonical_iff (value : Text) : assertCanonical value = true ↔ Canonical value := by
  have unused (letters : ∀ unit ∈ value, (Base64.letterValue unit).isSome)
      (length : value.length % 4 ≠ 1) :
      (value.length % 4 = 0 ∨ spare value = 0) ↔ ∀ unit ∈ value.getLast?,
        ∀ bits ∈ Base64.letterValue unit,
          (value.length % 4 = 2 → bits % 16 = 0) ∧ (value.length % 4 = 3 → bits % 4 = 0) := by
    cases last : value.getLast? with
    | none => simp [List.getLast?_eq_none_iff.mp last]
    | some unit =>
      obtain ⟨bits, found⟩ := isSome_iff_exists.mp (letters unit (mem_of_getLast? last))
      have shown : spare value = bits &&& if value.length % 4 = 2 then 15 else 3 := by
        obtain ⟨small, rfl⟩ := Base64.letter_value_iff.mp found
        rw [spare, getLastD_eq_getLast?, last, getD_some, (tables bits small).2.2]
      simp only [shown, found, mem_some_iff, forall_eq']
      split_ifs with two
      · simp [two, masked]
      · rw [(masked _).2.2.2]
        omega
  unfold assertCanonical shape
  simp only [Bool.and_eq_true, Bool.or_eq_true, decide_eq_true_eq, shape_letter, List.all_eq_true]
  constructor
  · rintro ⟨⟨letters, length⟩, last⟩
    exact ⟨letters, length, (unused letters length).mp last⟩
  · rintro ⟨letters, length, last⟩
    exact ⟨⟨letters, length⟩, (unused letters length).mpr last⟩

theorem canonical_cons {front rest : Text} (four : front.length = 4) :
    Canonical (front ++ rest) ↔
      (∀ unit ∈ front, (Base64.letterValue unit).isSome) ∧ Canonical rest := by
  have count : (front ++ rest).length % 4 = rest.length % 4 := by
    rw [length_append]
    omega
  have last : rest.length % 4 = 0 ∨ (front ++ rest).getLast? = rest.getLast? := by
    cases rest with
    | nil => exact Or.inl rfl
    | cons unit rest => exact Or.inr (List.getLast?_append_of_ne_nil _ (by simp))
  constructor
  · rintro ⟨letters, length, bits⟩
    rw [count] at length bits
    refine ⟨fun unit mem => letters unit (mem_append_left _ mem),
      fun unit mem => letters unit (mem_append_right _ mem), length, ?_⟩
    rcases last with whole | same
    · omega
    · rwa [same] at bits
  · rintro ⟨letters, later, length, bits⟩
    refine ⟨forall_mem_append.mpr ⟨letters, later⟩, count ▸ length, ?_⟩
    rw [count]
    rcases last with whole | same
    · omega
    · rwa [same]

theorem canonical_encoded (bytes : Bytes) : Canonical (Base64.encode bytes) := by
  induction bytes using Base64.encode.induct with
  | case1 => exact ⟨by simp [Base64.encode], by decide, by simp [Base64.encode]⟩
  | case2 first =>
    have bound := first.toNat_lt
    refine ⟨Base64.encode_alphabet [first], by simp [Base64.encode], ?_⟩
    simp [Base64.encode, Base64.letter_value_letter (show first.toNat % 4 * 16 < 64 by omega)]
  | case3 first second =>
    have bound := second.toNat_lt
    refine ⟨Base64.encode_alphabet [first, second], by simp [Base64.encode], ?_⟩
    simp [Base64.encode, Base64.letter_value_letter (show second.toNat % 16 * 4 < 64 by omega)]
  | case4 first second third rest ih =>
    refine (@canonical_cons [_, _, _, _] _ rfl).mpr ⟨?_, ih⟩
    simp [Base64.letter_alphabet]

theorem Canonical.decoded {value : Text} (canonical : Canonical value) :
    ∃ bytes, Base64.encode bytes = value := by
  induction value using Base64.decode.induct with
  | case1 => exact ⟨[], rfl⟩
  | case2 unit => exact absurd rfl canonical.length
  | case3 first second =>
    obtain ⟨letters, -, last⟩ := canonical
    simp only [forall_mem_cons, isSome_iff_exists, Base64.letter_value_iff] at letters
    obtain ⟨⟨high, one, rfl⟩, ⟨low, two, rfl⟩, -⟩ := letters
    have unused := (last _ rfl low (Base64.letter_value_letter two)).1 rfl
    refine ⟨[UInt8.ofNat (high * 4 + low / 16)], ?_⟩
    rw [Base64.encode, Base64.value_of_byte (by omega)]
    congr 3 <;> omega
  | case4 first second third =>
    obtain ⟨letters, -, last⟩ := canonical
    simp only [forall_mem_cons, isSome_iff_exists, Base64.letter_value_iff] at letters
    obtain ⟨⟨high, one, rfl⟩, ⟨middle, two, rfl⟩, ⟨low, three, rfl⟩, -⟩ := letters
    have unused := (last _ rfl low (Base64.letter_value_letter three)).2 rfl
    refine ⟨[UInt8.ofNat (high * 4 + middle / 16), UInt8.ofNat (middle % 16 * 16 + low / 4)], ?_⟩
    rw [Base64.encode, Base64.value_of_byte (by omega), Base64.value_of_byte (by omega)]
    congr 4 <;> omega
  | case5 first second third fourth rest ih =>
    obtain ⟨letters, later⟩ := (@canonical_cons [first, second, third, fourth] rest rfl).mp canonical
    obtain ⟨bytes, rfl⟩ := ih later
    simp only [forall_mem_cons, isSome_iff_exists, Base64.letter_value_iff] at letters
    obtain ⟨⟨a, one, rfl⟩, ⟨b, two, rfl⟩, ⟨c, three, rfl⟩, ⟨d, four, rfl⟩, -⟩ := letters
    refine ⟨UInt8.ofNat (a * 4 + b / 16) :: UInt8.ofNat (b % 16 * 16 + c / 4) ::
      UInt8.ofNat (c % 4 * 64 + d) :: bytes, ?_⟩
    rw [Base64.encode, Base64.value_of_byte (by omega), Base64.value_of_byte (by omega),
      Base64.value_of_byte (by omega)]
    congr 5 <;> omega

theorem filled_whole (written : Bytes) : filled written.length written = written := by
  simp [filled]

theorem encoded_ascii (bytes : Bytes) : ∀ unit ∈ Base64.encode bytes, unit.toNat < 128 := by
  intro unit mem
  obtain ⟨value, found⟩ := isSome_iff_exists.mp (Base64.encode_alphabet bytes unit mem)
  unfold Base64.letterValue at found
  split_ifs at found <;> omega

theorem encode_eq (bytes : Bytes) : encode bytes = Base64.encode bytes := by
  have ascii := encoded_ascii bytes
  have plain := Text.WellFormed.of_plain fun unit mem => Text.ascii_plain (ascii unit mem)
  have size : (bytes.length * 4 + 2) / 3 = (encodeBytes bytes).length := by
    rw [encode_bytes_letters, length_map, Base64.encode_length, Nat.mul_comm]
  rw [encode, size, filled_whole, encode_bytes_letters, ← ascii_bytes ascii]
  apply Text.decode_encode_utf8 plain
  intro unit head marked
  have small := ascii unit (mem_of_head? head)
  rw [marked] at small
  exact absurd small (by decide)

theorem decode_encode (bytes : Bytes) : decode (encode bytes) = some bytes := by
  have length := Base64.encode_length bytes
  rw [encode_eq, decode, if_pos ((canonical_iff _).mpr (canonical_encoded bytes))]
  simp only [ascii_bytes (encoded_ascii bytes), decode_chars_letters, length_map]
  rw [show (Base64.encode bytes).length * 3 / 4 = bytes.length by omega, filled_whole]

theorem portable_base64url_bijective :
    (∀ bytes, decode (encode bytes) = some bytes) ∧
      (∀ value bytes, decode value = some bytes → encode bytes = value) ∧
        ∀ value, decode value = none ↔ ¬Canonical value := by
  have thrown (value : Text) : decode value = none ↔ ¬Canonical value := by
    rw [← canonical_iff, decode]
    split <;> simp_all
  refine ⟨decode_encode, ?_, thrown⟩
  intro value bytes decoded
  have canonical : Canonical value := by
    by_contra refused
    rw [(thrown value).mpr refused] at decoded
    cases decoded
  obtain ⟨source, rfl⟩ := canonical.decoded
  rw [← encode_eq, decode_encode] at decoded
  cases decoded
  exact encode_eq bytes

end AwfulChat.PortableBase64url
