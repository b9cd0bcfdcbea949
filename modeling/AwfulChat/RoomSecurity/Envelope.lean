import AwfulChat.Library.Aead
import AwfulChat.Library.JsonReading
import AwfulChat.RoomSecurity.Membership

/-!
# Room envelopes

`envelope.ts`: a plaintext is encrypted under a key that is derived from the room's key
and a fresh salt, with the labels as additional data. What opens was sealed, with the
same labels, and what was sealed opens. `none` is a throw.
-/

namespace AwfulChat.RoomSecurity

open Library List Option

set_option autoImplicit false

def MAX_ROOM_PLAINTEXT : Nat := 1024 * 1024

structure RoomCrypto where
  aead : Aead
  hkdf : Bytes → Bytes → Bytes

def envelopeNonce : Bytes := List.replicate 12 0

def envelopeAad (room sender kind salt : Text) : Bytes :=
  Text.encodeUtf8 (Json.stringify (Json.atoms [.string (text "awful/room-envelope/v2"), .nat 2,
    .string room, .string sender, .string kind, .string salt]))

def validKind : Text → Bool
  | [] => false
  | first :: rest =>
    97 ≤ first.toNat && first.toNat ≤ 122 && rest.length ≤ 63 &&
      rest.all fun unit => (97 ≤ unit.toNat && unit.toNat ≤ 122) ||
        (48 ≤ unit.toNat && unit.toNat ≤ 57) || unit = 45

def validLabels (sender kind : Text) : Bool :=
  sender ≠ [] && sender.length ≤ 256 && validKind kind

def envelopeFields (room sender kind salt ciphertext : Text) : List (Text × Json.Atom) :=
  [(text "version", .nat 2), (text "room", .string room), (text "sender", .string sender),
    (text "kind", .string kind), (text "salt", .string salt),
    (text "ciphertext", .string ciphertext)]

def sealCall (crypto : RoomCrypto) (encryptionKey : Bytes) (room sender kind : Text)
    (salt plaintext : Bytes) : EncryptCall where
  key := crypto.hkdf encryptionKey salt
  iv := envelopeNonce
  aad := envelopeAad room sender kind (Base64.encode salt)
  plain := plaintext

def sealedFields (crypto : RoomCrypto) (room sender kind : Text) (salt : Bytes)
    (call : EncryptCall) : List (Text × Json.Atom) :=
  envelopeFields room sender kind (Base64.encode salt) (Base64.encode (crypto.aead.output call))

/-- The call it makes and the envelope it returns. -/
def sealRoomEnvelope (crypto : RoomCrypto) (encryptionKey : Bytes) (room sender kind : Text)
    (salt plaintext : Bytes) : Option (EncryptCall × Json) :=
  if !validLabels sender kind || MAX_ROOM_PLAINTEXT < plaintext.length then none
  else
    let call := sealCall crypto encryptionKey room sender kind salt plaintext
    some (call, Json.record (sealedFields crypto room sender kind salt call))

def envelopeCiphertext (value : Option Text) : Option Bytes := do
  let value ← value
  if (4 * (MAX_ROOM_PLAINTEXT + 16) + 2) / 3 < value.length ∨ value = [] ∨
      value.any (fun unit => (Base64.letterValue unit).isNone) then none
  else
    let ciphertext ← Base64.decode value
    if ciphertext.length < 16 ∨ MAX_ROOM_PLAINTEXT + 16 < ciphertext.length ∨
        Base64.encode ciphertext ≠ value then none
    else some ciphertext

def openRoomEnvelope (crypto : RoomCrypto) (log : List EncryptCall) (encryptionKey : Bytes)
    (room : Text) (input : Option Json) : Option Bytes := do
  let sender ← stringProperty input (text "sender")
  let kind ← stringProperty input (text "kind")
  let salt ← stringProperty input (text "salt")
  if safeInteger (property input (text "version")) ≠ some 2 ∨
      stringProperty input (text "room") ≠ some room ∨ !validLabels sender kind ∨
      !canonicalBase64 43 (some (.string salt)) then none
  else
    let saltBytes ← Base64.decode salt
    let ciphertext ← envelopeCiphertext (stringProperty input (text "ciphertext"))
    crypto.aead.decrypt log (crypto.hkdf encryptionKey saltBytes) envelopeNonce
      (envelopeAad room sender kind salt) ciphertext

theorem envelope_aad_injective {room sender kind salt room' sender' kind' salt' : Text}
    (same : envelopeAad room sender kind salt = envelopeAad room' sender' kind' salt') :
    room = room' ∧ sender = sender' ∧ kind = kind' ∧ salt = salt' := by
  have items := Json.atoms_bytes_injective same
  simpa using items

variable {encryptionKey : Bytes} {crypto : RoomCrypto}

theorem open_sound {log : List EncryptCall} {room : Text} {input : Option Json} {plaintext : Bytes}
    (opened : openRoomEnvelope crypto log encryptionKey room input = some plaintext) :
    ∃ sender kind salt, stringProperty input (text "sender") = some sender ∧
      stringProperty input (text "kind") = some kind ∧
      ∃ call ∈ log, call.aad = envelopeAad room sender kind salt ∧ call.plain = plaintext := by
  simp only [openRoomEnvelope, bind_eq_bind, bind_eq_some_iff] at opened
  obtain ⟨sender, senderRead, kind, kindRead, salt, _, opened⟩ := opened
  split at opened
  · cases opened
  · obtain ⟨saltBytes, _, opened⟩ := bind_eq_some_iff.mp opened
    obtain ⟨ciphertext, _, opened⟩ := bind_eq_some_iff.mp opened
    obtain ⟨known, _⟩ := Aead.decrypt_sound opened
    exact ⟨sender, kind, salt, senderRead, kindRead, _, known, rfl, rfl⟩

theorem encode_nonempty {bytes : Bytes} (some_bytes : bytes ≠ []) : Base64.encode bytes ≠ [] := by
  intro empty
  have length := Base64.encode_length bytes
  have positive := length_pos_of_ne_nil some_bytes
  rw [empty, length_nil] at length
  omega

theorem envelope_ciphertext_encoded {ciphertext : Bytes} (tagged : 16 ≤ ciphertext.length)
    (small : ciphertext.length ≤ MAX_ROOM_PLAINTEXT + 16) :
    envelopeCiphertext (some (Base64.encode ciphertext)) = some ciphertext := by
  have bounded : ¬ (4 * (MAX_ROOM_PLAINTEXT + 16) + 2) / 3 < (Base64.encode ciphertext).length := by
    rw [Base64.encode_length, not_lt]
    exact Nat.div_le_div_right (by omega)
  have nonempty : Base64.encode ciphertext ≠ [] := by
    apply encode_nonempty
    rintro rfl
    simp at tagged
  have letters : ((Base64.encode ciphertext).any fun unit =>
      (Base64.letterValue unit).isNone) = false := by
    rw [List.any_eq_false]
    intro unit mem
    have known := Base64.encode_alphabet ciphertext unit mem
    simp only [isNone_iff_eq_none]
    rw [isSome_iff_ne_none] at known
    exact known
  simp only [envelopeCiphertext, bind_eq_bind, bind_some, letters,
    Base64.decode_encode, bounded, nonempty]
  simp
  omega

theorem canonical_encode {bytes : Bytes} {length : Nat} (size : (4 * bytes.length + 2) / 3 = length) :
    canonicalBase64 length (some (.string (Base64.encode bytes))) = true := by
  have letters := Base64.encode_alphabet bytes
  simp only [canonicalBase64, Base64.encode_length, size, Base64.decode_encode, map_some]
  simpa using letters

theorem seal_spec {room sender kind : Text}
    {salt plaintext : Bytes} {call : EncryptCall} {envelope : Json}
    (made : sealRoomEnvelope crypto encryptionKey room sender kind salt plaintext =
      some (call, envelope)) :
    validLabels sender kind = true ∧ plaintext.length ≤ MAX_ROOM_PLAINTEXT ∧
      call = sealCall crypto encryptionKey room sender kind salt plaintext ∧
      envelope = Json.record (sealedFields crypto room sender kind salt call) := by
  unfold sealRoomEnvelope at made
  split at made
  · cases made
  · rename_i allowed
    simp only [Bool.or_eq_true, Bool.not_eq_true', decide_eq_true_eq, not_or,
      Bool.not_eq_false, not_lt] at allowed
    obtain ⟨rfl, rfl⟩ := Prod.mk.inj (Option.some.inj made)
    exact ⟨allowed.1, allowed.2, rfl, rfl⟩

theorem envelope_properties (room sender kind salt ciphertext : Text) :
    safeInteger (property (some (Json.record (envelopeFields room sender kind salt ciphertext)))
        (text "version")) = some 2 ∧
      stringProperty (some (Json.record (envelopeFields room sender kind salt ciphertext)))
        (text "room") = some room ∧
      stringProperty (some (Json.record (envelopeFields room sender kind salt ciphertext)))
        (text "sender") = some sender ∧
      stringProperty (some (Json.record (envelopeFields room sender kind salt ciphertext)))
        (text "kind") = some kind ∧
      stringProperty (some (Json.record (envelopeFields room sender kind salt ciphertext)))
        (text "salt") = some salt ∧
      stringProperty (some (Json.record (envelopeFields room sender kind salt ciphertext)))
        (text "ciphertext") = some ciphertext :=
  ⟨rfl, rfl, rfl, rfl, rfl, rfl⟩

theorem open_sealed {log : List EncryptCall}
    {room sender kind : Text} {salt plaintext : Bytes} {call : EncryptCall} {envelope : Json}
    (made : sealRoomEnvelope crypto encryptionKey room sender kind salt plaintext =
      some (call, envelope))
    (salted : salt.length = 32) (known : call ∈ log) :
    openRoomEnvelope crypto log encryptionKey room (some envelope) = some plaintext := by
  obtain ⟨labels, small, rfl, rfl⟩ := seal_spec made
  have tagged : (crypto.aead.output (sealCall crypto encryptionKey room sender kind salt
      plaintext)).length = plaintext.length + 16 := crypto.aead.length _ _ _ _
  have read := envelope_ciphertext_encoded (by omega) (by omega : (crypto.aead.output
    (sealCall crypto encryptionKey room sender kind salt plaintext)).length ≤
      MAX_ROOM_PLAINTEXT + 16)
  have canonical : canonicalBase64 43 (some (.string (Base64.encode salt))) = true :=
    canonical_encode (by omega)
  have opened : crypto.aead.decrypt log (crypto.hkdf encryptionKey salt) envelopeNonce
      (envelopeAad room sender kind (Base64.encode salt)) (crypto.aead.output
        (sealCall crypto encryptionKey room sender kind salt plaintext)) = some plaintext :=
    Aead.decrypt_output known
  obtain ⟨version, roomRead, senderRead, kindRead, saltRead, cipherRead⟩ :=
    envelope_properties room sender kind (Base64.encode salt) (Base64.encode (crypto.aead.output
      (sealCall crypto encryptionKey room sender kind salt plaintext)))
  simp only [openRoomEnvelope, sealedFields, version, roomRead, senderRead, kindRead, saltRead,
    cipherRead, bind_eq_bind, bind_some, labels, canonical, Base64.decode_encode, read]
  rw [if_neg (by simp)]
  exact opened

end AwfulChat.RoomSecurity
