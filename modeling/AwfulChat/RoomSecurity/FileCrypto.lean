import AwfulChat.Library.Aead
import AwfulChat.Library.Slices
import AwfulChat.RoomSecurity.FileDescriptor
import Mathlib.Data.List.Nodup

/-!
# File encryption

`encryptFileTo` and `decryptFileTo` of `file-crypto.ts`: a file is cut into chunks
of one mebibyte, at least one, and each is encrypted under its index. A file is the
list of its bytes; the random key and id of an encryption are arguments, and the
sink takes every write.
-/

namespace AwfulChat.RoomSecurity

open Library List Option

set_option autoImplicit false

structure EncryptedFileDescriptor where
  version : Nat
  key : Text
  id : Text
  size : Nat
  chunkSize : Nat
  deriving DecidableEq

def whole (value : Nat) : Json := .number (.finite false value 0)

def EncryptedFileDescriptor.json (descriptor : EncryptedFileDescriptor) : Json :=
  .object [(text "version", whole descriptor.version), (text "key", .string descriptor.key),
    (text "id", .string descriptor.id), (text "size", whole descriptor.size),
    (text "chunkSize", whole descriptor.chunkSize)]

def chunkIv (index : Nat) : Bytes :=
  List.replicate 8 0 ++ [UInt8.ofNat (index / 2 ^ 24), UInt8.ofNat (index / 2 ^ 16),
    UInt8.ofNat (index / 2 ^ 8), UInt8.ofNat index]

def chunkAad (descriptor : EncryptedFileDescriptor) (index : Nat) : Bytes :=
  Text.encodeUtf8 (Json.stringify (.array [.string (text "awful:file:v2"),
    .string descriptor.id, whole descriptor.size, whole descriptor.chunkSize, whole index]))

def chunkCount (size : Nat) : Nat := sliceCount size CHUNK

/-- The descriptor that `encryptFileTo` makes out of its random bytes. -/
def newDescriptor (keyBytes idBytes file : Bytes) : EncryptedFileDescriptor where
  version := 2
  key := Base64.encode keyBytes
  id := Base64.encode idBytes
  size := file.length
  chunkSize := CHUNK

/-- The calls of `crypto.subtle.encrypt`, in order. -/
def chunkCall (descriptor : EncryptedFileDescriptor) (keyBytes file : Bytes) (index : Nat) :
    EncryptCall where
  key := keyBytes
  iv := chunkIv index
  aad := chunkAad descriptor index
  plain := sliceAt file CHUNK index

def encryptCalls (keyBytes idBytes file : Bytes) : List EncryptCall :=
  (List.range (chunkCount file.length)).map
    (chunkCall (newDescriptor keyBytes idBytes file) keyBytes file)

/-- The descriptor and what was written to the sink; none when the descriptor was
refused before anything was written. -/
def encryptFileTo (aead : Aead) (keyBytes idBytes file : Bytes) :
    Option (EncryptedFileDescriptor × Bytes) :=
  let descriptor := newDescriptor keyBytes idBytes file
  if validateFileEncryption (some descriptor.json) then do
    let key ← Base64.decode descriptor.key
    some (descriptor, (List.range (chunkCount file.length)).flatMap fun index =>
      aead.output (chunkCall descriptor key file index))
  else none

structure Decrypted where
  written : Bytes
  closed : Bool
  deriving DecidableEq

/-- The chunks from `index` on; the first that does not open ends the loop. -/
def decryptChunks (aead : Aead) (log : List EncryptCall) (descriptor : EncryptedFileDescriptor)
    (key file : Bytes) : Nat → Nat → Bytes → Decrypted
  | 0, _, written => { written := written, closed := true }
  | remaining + 1, index, written =>
    match aead.decrypt log key (chunkIv index) (chunkAad descriptor index)
        (sliceAt file (CHUNK + 16) index) with
    | some plain => decryptChunks aead log descriptor key file remaining (index + 1)
        (written ++ plain)
    | none => { written := written, closed := false }

/-- What reached the sink, and whether it was closed; otherwise the call threw. -/
def decryptFileTo (aead : Aead) (log : List EncryptCall) (file : Bytes)
    (descriptor : EncryptedFileDescriptor) : Decrypted :=
  let count := chunkCount descriptor.size
  if validateFileEncryption (some descriptor.json) = false then
    { written := [], closed := false }
  else if file.length ≠ descriptor.size + count * 16 then { written := [], closed := false }
  else match Base64.decode descriptor.key with
    | some key => decryptChunks aead log descriptor key file count 0 []
    | none => { written := [], closed := false }

/-- `encryptedFileSize`; none is a throw. -/
def encryptedFileSize (file : Option Json) : Option (Option Json) :=
  if truthy (property file (text "encryption")) = false then some (property file (text "size"))
  else if encryptedFileSizeAllowed file then
    match safeInteger (property file (text "size")) with
    | some size => some (some (whole (size.toNat + sliceCount size.toNat CHUNK * 16)))
    | none => none
  else none

/-- A file entry that carries the descriptor of its encryption. -/
def fileEntry (descriptor : EncryptedFileDescriptor) : Json :=
  .object [(text "size", whole descriptor.size), (text "encryption", descriptor.json)]

theorem safe_integer_whole {value : Nat} (small : value ≤ 2 ^ 53 - 1) :
    safeInteger (some (whole value)) = some (value : Int) := by
  have inside : -MAX_SAFE_INTEGER ≤ (value : Int) ∧ (value : Int) ≤ MAX_SAFE_INTEGER := by
    unfold MAX_SAFE_INTEGER
    omega
  have spelled : integer (.finite false value 0) = some (value : Int) := by
    simp [integer]
  simp [safeInteger, whole, spelled, inside]

theorem canonical_encoding (bytes : Bytes) :
    canonicalBase64 ((4 * bytes.length + 2) / 3) (some (.string (Base64.encode bytes))) = true := by
  have letters : (Base64.encode bytes).all (fun unit => (Base64.letterValue unit).isSome) = true := by
    rw [List.all_eq_true]
    exact Base64.encode_alphabet bytes
  simp only [canonicalBase64, Base64.encode_length, letters, Base64.decode_encode, Option.map_some,
    decide_true, Bool.and_self]

theorem new_descriptor_valid {keyBytes idBytes file : Bytes} (keyLength : keyBytes.length = 32)
    (idLength : idBytes.length = 16) (size : file.length ≤ MAX_SIZE) :
    validateFileEncryption (some (newDescriptor keyBytes idBytes file).json) = true := by
  have key := canonical_encoding keyBytes
  have id := canonical_encoding idBytes
  rw [keyLength] at key
  rw [idLength] at id
  have bound : MAX_SIZE ≤ 2 ^ 53 - 1 := by decide
  have version : safeInteger (property (some (newDescriptor keyBytes idBytes file).json)
      (text "version")) = some 2 := safe_integer_whole (show 2 ≤ 2 ^ 53 - 1 by decide)
  have chunkSize : safeInteger (property (some (newDescriptor keyBytes idBytes file).json)
      (text "chunkSize")) = some (CHUNK : Int) :=
    safe_integer_whole (show CHUNK ≤ 2 ^ 53 - 1 by decide)
  have sized : safeInteger (property (some (newDescriptor keyBytes idBytes file).json)
      (text "size")) = some (file.length : Int) := safe_integer_whole (le_trans size bound)
  have keyed : property (some (newDescriptor keyBytes idBytes file).json) (text "key") =
      some (.string (Base64.encode keyBytes)) := rfl
  have named : property (some (newDescriptor keyBytes idBytes file).json) (text "id") =
      some (.string (Base64.encode idBytes)) := rfl
  have there : truthy (some (newDescriptor keyBytes idBytes file).json) = true := rfl
  have inRange : (0 : Int) ≤ file.length ∧ (file.length : Int) ≤ MAX_SIZE := by omega
  simp only [validateFileEncryption, version, chunkSize, sized, keyed, named, there, key, id,
    inRange.1, inRange.2, decide_true, Bool.and_self]

theorem chunk_size_positive : 0 < CHUNK := by decide

theorem chunk_count_bound {size : Nat} (small : size ≤ MAX_SIZE) : chunkCount size ≤ 2 ^ 20 := by
  have most : (size + CHUNK - 1) / CHUNK ≤ 2 ^ 20 := by
    unfold MAX_SIZE at small
    unfold CHUNK
    omega
  unfold chunkCount sliceCount
  exact Nat.max_le.mpr ⟨by decide, most⟩

theorem byte_eq_mod {left right : Nat} (same : UInt8.ofNat left = UInt8.ofNat right) :
    left % 256 = right % 256 := by
  have values := congrArg UInt8.toNat same
  simpa using values

theorem chunk_iv_injective {left right : Nat} (leftSmall : left < 2 ^ 32)
    (rightSmall : right < 2 ^ 32) (same : chunkIv left = chunkIv right) : left = right := by
  simp only [chunkIv, append_cancel_left_eq, List.cons.injEq, and_true] at same
  obtain ⟨first, second, third, fourth⟩ := same
  have one := byte_eq_mod first
  have two := byte_eq_mod second
  have three := byte_eq_mod third
  have four := byte_eq_mod fourth
  omega

section Chunks

variable {aead : Aead} {keyBytes idBytes file : Bytes}

def ciphertext (aead : Aead) (keyBytes idBytes file : Bytes) : Bytes :=
  (List.range (chunkCount file.length)).flatMap fun index =>
    aead.output (chunkCall (newDescriptor keyBytes idBytes file) keyBytes file index)

theorem output_length (index : Nat) :
    (aead.output (chunkCall (newDescriptor keyBytes idBytes file) keyBytes file index)).length =
      (sliceAt file CHUNK index).length + 16 := aead.length _ _ _ _

theorem ciphertext_slice {index : Nat} (inside : index < chunkCount file.length) :
    sliceAt (ciphertext aead keyBytes idBytes file) (CHUNK + 16) index =
      aead.output (chunkCall (newDescriptor keyBytes idBytes file) keyBytes file index) := by
  apply slice_blocks (fun index =>
    aead.output (chunkCall (newDescriptor keyBytes idBytes file) keyBytes file index)) _ _ inside
  · intro other before
    rw [output_length, slice_length_full (le_of_lt (before_last_full chunk_size_positive before))]
  · intro other below
    rw [output_length]
    exact Nat.add_le_add_right (slice_length_le file CHUNK other) 16

theorem ciphertext_length (aead : Aead) (keyBytes idBytes file : Bytes) :
    (ciphertext aead keyBytes idBytes file).length =
      file.length + chunkCount file.length * 16 := by
  have counted : ∀ count, ((List.range count).flatMap fun index =>
      aead.output (chunkCall (newDescriptor keyBytes idBytes file) keyBytes file index)).length =
      ((List.range count).flatMap (sliceAt file CHUNK)).length + count * 16 := by
    intro count
    induction count with
    | zero => simp
    | succ count ih =>
      rw [range_succ, flatMap_append, flatMap_append, length_append,
        length_append, ih]
      simp only [flatMap_cons, flatMap_nil, append_nil, output_length]
      omega
  have pieces := slices_whole file chunk_size_positive
  unfold ciphertext
  rw [counted]
  unfold chunkCount
  rw [pieces]

/-- What is known of the log: the key was made for this file, so every other call
has another key. -/
def FreshKey (keyBytes : Bytes) (others : List EncryptCall) : Prop :=
  ∀ call ∈ others, call.key ≠ keyBytes

section

variable {others : List EncryptCall} (fresh : FreshKey keyBytes others)
  (size : file.length ≤ MAX_SIZE)
include fresh size

theorem chunk_opens_iff {index : Nat} (inside : index < chunkCount file.length)
    {cipher plain : Bytes} :
    aead.decrypt (others ++ encryptCalls keyBytes idBytes file) keyBytes (chunkIv index)
        (chunkAad (newDescriptor keyBytes idBytes file) index) cipher = some plain ↔
      cipher = aead.output (chunkCall (newDescriptor keyBytes idBytes file) keyBytes file index) ∧
        plain = sliceAt file CHUNK index := by
  have listed : chunkCall (newDescriptor keyBytes idBytes file) keyBytes file index ∈
      others ++ encryptCalls keyBytes idBytes file := by
    apply mem_append_right
    exact mem_map_of_mem (mem_range.mpr inside)
  have small := chunk_count_bound size
  constructor
  · intro opened
    obtain ⟨called, made⟩ := Aead.decrypt_sound opened
    rcases mem_append.mp called with other | own
    · exact absurd rfl (fresh _ other)
    · obtain ⟨found, below, same⟩ := mem_map.mp own
      obtain ⟨-, ivs, -, plains⟩ := EncryptCall.mk.inj same
      have foundBelow := mem_range.mp below
      have equal : found = index :=
        chunk_iv_injective (by omega) (by omega) ivs
      subst equal
      rw [made, ← plains]
      exact ⟨rfl, rfl⟩
  · rintro ⟨rfl, rfl⟩
    exact Aead.decrypt_output listed

theorem decrypt_chunks_spec
    (blob : Bytes) {remaining index : Nat} {written : Bytes}
    (whole : index + remaining = chunkCount file.length)
    (agrees : blob.take (index * (CHUNK + 16)) =
      (ciphertext aead keyBytes idBytes file).take (index * (CHUNK + 16)))
    (sofar : written = file.take (index * CHUNK)) :
    (decryptChunks aead (others ++ encryptCalls keyBytes idBytes file)
        (newDescriptor keyBytes idBytes file) keyBytes blob remaining index written).written <+: file ∧
    ((decryptChunks aead (others ++ encryptCalls keyBytes idBytes file)
        (newDescriptor keyBytes idBytes file) keyBytes blob remaining index written).closed = true →
      blob.take (chunkCount file.length * (CHUNK + 16)) =
        (ciphertext aead keyBytes idBytes file).take (chunkCount file.length * (CHUNK + 16))) := by
  induction remaining generalizing index written with
  | zero =>
    have ended : index = chunkCount file.length := by omega
    subst ended
    constructor
    · rw [decryptChunks, sofar]
      exact take_prefix _ _
    · intro _
      exact agrees
  | succ remaining ih =>
    have inside : index < chunkCount file.length := by omega
    rw [decryptChunks]
    cases opened : aead.decrypt (others ++ encryptCalls keyBytes idBytes file) keyBytes
        (chunkIv index) (chunkAad (newDescriptor keyBytes idBytes file) index)
        (sliceAt blob (CHUNK + 16) index) with
    | none =>
      constructor
      · rw [sofar]
        exact take_prefix _ _
      · nofun
    | some plain =>
      obtain ⟨sliced, rfl⟩ := (chunk_opens_iff fresh size inside).mp opened
      apply ih
      · omega
      · rw [take_succ_slice, take_succ_slice, agrees, sliced, ciphertext_slice inside]
      · rw [sofar, take_succ_slice]

theorem decrypt_chunks_ciphertext {remaining index : Nat} {written : Bytes}
    (whole : index + remaining = chunkCount file.length)
    (sofar : written = file.take (index * CHUNK)) :
    decryptChunks aead (others ++ encryptCalls keyBytes idBytes file)
        (newDescriptor keyBytes idBytes file) keyBytes (ciphertext aead keyBytes idBytes file)
        remaining index written =
      { written := file.take (chunkCount file.length * CHUNK), closed := true } := by
  induction remaining generalizing index written with
  | zero =>
    have ended : index = chunkCount file.length := by omega
    rw [decryptChunks, sofar, ended]
  | succ remaining ih =>
    have inside : index < chunkCount file.length := by omega
    have opened : aead.decrypt (others ++ encryptCalls keyBytes idBytes file) keyBytes
        (chunkIv index) (chunkAad (newDescriptor keyBytes idBytes file) index)
        (aead.output (chunkCall (newDescriptor keyBytes idBytes file) keyBytes file index)) =
        some (sliceAt file CHUNK index) :=
      (chunk_opens_iff fresh size inside).mpr ⟨rfl, rfl⟩
    rw [decryptChunks, ciphertext_slice inside, opened]
    apply ih
    · omega
    · rw [sofar, take_succ_slice]

end

theorem encrypt_calls_ivs (size : file.length ≤ MAX_SIZE) :
    ((encryptCalls keyBytes idBytes file).map EncryptCall.iv).Nodup := by
  have small := chunk_count_bound size
  rw [encryptCalls, List.map_map]
  apply List.Nodup.map_on _ List.nodup_range
  intro left leftBelow right rightBelow same
  have leftSmall := mem_range.mp leftBelow
  have rightSmall := mem_range.mp rightBelow
  exact chunk_iv_injective (by omega) (by omega) same

theorem encrypted_file_size_new (keyLength : keyBytes.length = 32) (idLength : idBytes.length = 16)
    (size : file.length ≤ MAX_SIZE) :
    encryptedFileSize (some (fileEntry (newDescriptor keyBytes idBytes file))) =
      some (some (whole (file.length + chunkCount file.length * 16))) := by
  have bound : MAX_SIZE ≤ 2 ^ 53 - 1 := by decide
  have valid := new_descriptor_valid keyLength idLength size
  have sized : safeInteger (property (some (fileEntry (newDescriptor keyBytes idBytes file)))
      (text "size")) = some (file.length : Int) := safe_integer_whole (le_trans size bound)
  have named : safeInteger (property (some (newDescriptor keyBytes idBytes file).json)
      (text "size")) = some (file.length : Int) := safe_integer_whole (le_trans size bound)
  have held : property (some (fileEntry (newDescriptor keyBytes idBytes file)))
      (text "encryption") = some (newDescriptor keyBytes idBytes file).json := rfl
  have there : truthy (some (newDescriptor keyBytes idBytes file).json) = true := rfl
  simp only [encryptedFileSize, encryptedFileSizeAllowed, held, there, valid, sized, named,
    decide_true, Bool.and_self, Bool.true_eq_false, if_false, if_true, Int.toNat_natCast]
  rfl

theorem decrypt_file_new (log : List EncryptCall) (blob : Bytes) (keyLength : keyBytes.length = 32)
    (idLength : idBytes.length = 16) (size : file.length ≤ MAX_SIZE) :
    decryptFileTo aead log blob (newDescriptor keyBytes idBytes file) =
      if blob.length = file.length + chunkCount file.length * 16 then
        decryptChunks aead log (newDescriptor keyBytes idBytes file) keyBytes blob
          (chunkCount file.length) 0 []
      else { written := [], closed := false } := by
  have valid := new_descriptor_valid keyLength idLength size
  have decoded : Base64.decode (newDescriptor keyBytes idBytes file).key = some keyBytes :=
    Base64.decode_encode keyBytes
  have sized : (newDescriptor keyBytes idBytes file).size = file.length := rfl
  simp only [decryptFileTo, valid, decoded, sized, Bool.true_eq_false, if_false]
  by_cases same : blob.length = file.length + chunkCount file.length * 16
  · rw [if_neg (not_not.mpr same), if_pos same]
  · rw [if_pos same, if_neg same]

/-- Encrypting a file and decrypting it is the file; the ciphertext has the size
that `encryptedFileSize` names and no IV twice; and anything else presented with the
descriptor is refused with at most a front part of the file written. -/
theorem file_encryption_authenticated (aead : Aead) (keyBytes idBytes file : Bytes)
    (keyLength : keyBytes.length = 32) (idLength : idBytes.length = 16)
    (size : file.length ≤ MAX_SIZE) (others : List EncryptCall) (fresh : FreshKey keyBytes others) :
    ∃ descriptor cipher, encryptFileTo aead keyBytes idBytes file = some (descriptor, cipher) ∧
      decryptFileTo aead (others ++ encryptCalls keyBytes idBytes file) cipher descriptor =
        { written := file, closed := true } ∧
      encryptedFileSize (some (fileEntry descriptor)) = some (some (whole cipher.length)) ∧
      ((encryptCalls keyBytes idBytes file).map EncryptCall.iv).Nodup ∧
      ∀ blob, blob ≠ cipher →
        (decryptFileTo aead (others ++ encryptCalls keyBytes idBytes file) blob
          descriptor).closed = false ∧
        (decryptFileTo aead (others ++ encryptCalls keyBytes idBytes file) blob
          descriptor).written <+: file := by
  have valid := new_descriptor_valid keyLength idLength size
  have decoded : Base64.decode (newDescriptor keyBytes idBytes file).key = some keyBytes :=
    Base64.decode_encode keyBytes
  have length := ciphertext_length aead keyBytes idBytes file
  refine ⟨newDescriptor keyBytes idBytes file, ciphertext aead keyBytes idBytes file, ?_, ?_, ?_,
    encrypt_calls_ivs size, ?_⟩
  · simp only [encryptFileTo, valid, decoded, if_true, bind_eq_bind, bind_some]
    rfl
  · have everything : file.take (chunkCount file.length * CHUNK) = file :=
      take_of_length_le (length_le_slices file.length chunk_size_positive)
    rw [decrypt_file_new _ _ keyLength idLength size, if_pos length,
      decrypt_chunks_ciphertext fresh size (Nat.zero_add _) (by simp), everything]
  · rw [length]
    exact encrypted_file_size_new keyLength idLength size
  · intro blob apart
    rw [decrypt_file_new _ _ keyLength idLength size]
    split_ifs with sized
    · obtain ⟨front, ended⟩ := decrypt_chunks_spec fresh size blob (Nat.zero_add _)
        (show blob.take (0 * (CHUNK + 16)) =
          (ciphertext aead keyBytes idBytes file).take (0 * (CHUNK + 16)) by simp)
        (show ([] : Bytes) = file.take (0 * CHUNK) by simp)
      refine ⟨?_, front⟩
      by_contra closed
      have agree := ended (by simpa using closed)
      have covered : file.length + chunkCount file.length * 16 ≤
          chunkCount file.length * (CHUNK + 16) := by
        have chunks := length_le_slices file.length chunk_size_positive
        rw [Nat.mul_add]
        exact Nat.add_le_add_right chunks _
      rw [take_of_length_le (by omega), take_of_length_le (by omega)] at agree
      exact apart agree
    · exact ⟨rfl, nil_prefix⟩

end Chunks

def plainTag : Aead where
  encrypt := fun _ _ _ plain => plain ++ List.replicate 16 0
  length := by
    intro key iv aad plain
    simp
  injective := by
    intro key iv aad left right same
    exact append_cancel_right same

theorem two_bytes_encrypted :
    ∃ descriptor cipher, encryptFileTo plainTag (List.replicate 32 7) (List.replicate 16 1) [1, 2] =
        some (descriptor, cipher) ∧
      (decryptFileTo plainTag
        ([] ++ encryptCalls (List.replicate 32 7) (List.replicate 16 1) [1, 2])
        cipher descriptor).written = [1, 2] := by
  obtain ⟨descriptor, cipher, made, opened, -⟩ := file_encryption_authenticated plainTag
    (List.replicate 32 7) (List.replicate 16 1) [1, 2] (by decide) (by decide) (by decide) []
    (by simp [FreshKey])
  exact ⟨descriptor, cipher, made, by rw [opened]⟩

end AwfulChat.RoomSecurity
