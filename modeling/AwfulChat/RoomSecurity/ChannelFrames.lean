import AwfulChat.Library.JsonSize
import AwfulChat.RoomSecurity.Stream

/-!
# Every fragment fits

A fragment is written as JSON with its bytes in base64, sealed, and written as JSON with
the ciphertext in base64. Whatever the message, what comes out stays below the limits of
the envelope and of the frame.
-/

namespace AwfulChat.RoomSecurity

open Library Library.Framing List

set_option autoImplicit false

/-- The texts of an established channel: a room id as `deriveRoomKeys` makes them, peers
that `MembershipSession` admitted, two challenges, and 32 random bytes. -/
structure FramedEnd (channel : RoomChannel) (binding : Text) : Prop where
  room : channel.session.keys.discoveryId.length = 56
  localPeer : channel.session.localPeer ≠ []
  localShort : channel.session.localPeer.length ≤ 256
  remoteShort : channel.session.remotePeer.length ≤ 256
  sessionId : ∃ random : Bytes, random.length = 32 ∧ channel.sessionId = Base64.encode random
  binding : binding.length = 87

theorem chunk_value : CHUNK_BYTES = 262144 := by decide

theorem plaintext_value : MAX_ROOM_PLAINTEXT = 1048576 := by decide

theorem name_sizes :
    Text.size (Json.quote (text "room")) = 6 ∧ Text.size (Json.quote (text "sender")) = 8 ∧
      Text.size (Json.quote (text "recipient")) = 11 ∧
      Text.size (Json.quote (text "session")) = 9 ∧
      Text.size (Json.quote (text "membership")) = 12 ∧
      Text.size (Json.quote (text "sequence")) = 10 ∧
      Text.size (Json.quote (text "message")) = 9 ∧ Text.size (Json.quote (text "offset")) = 8 ∧
      Text.size (Json.quote (text "total")) = 7 ∧ Text.size (Json.quote (text "data")) = 6 ∧
      Text.size (Json.quote (text "version")) = 9 ∧ Text.size (Json.quote (text "kind")) = 6 ∧
      Text.size (Json.quote (text "salt")) = 6 ∧
      Text.size (Json.quote (text "ciphertext")) = 12 := by
  decide +kernel

theorem string_field_size (name value : Text) :
    Json.fieldSize (name, .string value) =
      Text.size (Json.quote name) + Text.size (Json.quote value) + 2 := rfl

theorem nat_field_size (name : Text) (value : Fin (2 ^ 53)) :
    Json.fieldSize (name, .nat value) ≤ Text.size (Json.quote name) + 18 := by
  have digits := Json.nat_size_le value
  show Text.size (Json.quote name) + Text.size (Json.stringify (.number (Json.safe value))) + 2 ≤ _
  omega

theorem fragment_bytes_short {channel : RoomChannel} {binding : Text}
    (framed : FramedEnd channel binding) {fragment : Fragment} (counted : fragment.Counted)
    (session : fragment.session = channel.sessionId) (membership : fragment.membership = binding)
    (data : fragment.data.length ≤ CHUNK_BYTES) :
    (fragmentBytes channel.session fragment).length ≤ 400000 := by
  obtain ⟨room, sender, recipient, sessionName, membershipName, sequence, message, offset, total,
    dataName, _⟩ := name_sizes
  obtain ⟨random, randomLength, encoded⟩ := framed.sessionId
  have roomSize := Json.quote_size_le channel.session.keys.discoveryId
  have senderSize := Json.quote_size_le channel.session.localPeer
  have recipientSize := Json.quote_size_le channel.session.remotePeer
  have sessionSize := Json.quote_encoded_size random
  have membershipSize := Json.quote_size_le fragment.membership
  have dataSize := Json.quote_encoded_size fragment.data
  have sequenceSize := nat_field_size (text "sequence") ⟨fragment.sequence, counted.sequence⟩
  have messageSize := nat_field_size (text "message") ⟨fragment.message, counted.message⟩
  have offsetSize := nat_field_size (text "offset") ⟨fragment.offset, counted.offset⟩
  have totalSize := nat_field_size (text "total") ⟨fragment.total, counted.total⟩
  have whole := Json.record_size (text "room", .string channel.session.keys.discoveryId)
    (fragmentFields channel.session.keys.discoveryId channel.session.localPeer
      channel.session.remotePeer fragment counted).tail
  have spelled : (text "room", Json.Atom.string channel.session.keys.discoveryId) ::
      (fragmentFields channel.session.keys.discoveryId channel.session.localPeer
        channel.session.remotePeer fragment counted).tail =
      fragmentFields channel.session.keys.discoveryId channel.session.localPeer
        channel.session.remotePeer fragment counted := rfl
  have localShort := framed.localShort
  have remoteShort := framed.remoteShort
  rw [membership, framed.binding] at membershipSize
  rw [framed.room] at roomSize
  rw [chunk_value] at data
  rw [spelled, ← fragment_body_record] at whole
  simp only [fragmentFields, map_cons, map_nil, sum_cons, sum_nil,
    string_field_size, session, membership, encoded, room, sender, recipient, sessionName,
    membershipName, dataName] at whole
  show Text.size _ ≤ 400000
  omega

theorem envelope_names (room sender kind salt ciphertext : Text) :
    ((envelopeFields room sender kind salt ciphertext).map Prod.fst).Nodup := by
  have names : [text "version", text "room", text "sender", text "kind", text "salt",
      text "ciphertext"].Nodup := by
    decide +kernel
  exact names

theorem envelope_framed {room sender salt : Text} {ciphertext : Bytes} (roomShort : room.length = 56)
    (senderShort : sender.length ≤ 256) (saltShort : salt.length ≤ 43)
    (short : ciphertext.length ≤ 400016) :
    Framed (Json.record (envelopeFields room sender (text "direct") salt
      (Base64.encode ciphertext))) := by
  obtain ⟨roomName, senderName, _, _, _, _, _, _, _, _, version, kind, saltName, cipherName⟩ :=
    name_sizes
  have roomSize := Json.quote_size_le room
  have senderSize := Json.quote_size_le sender
  have saltSize := Json.quote_size_le salt
  have cipherSize := Json.quote_encoded_size ciphertext
  have versionSize := nat_field_size (text "version") 2
  have kindSize : Text.size (Json.quote (text "direct")) = 8 := by decide +kernel
  have whole := Json.record_size (text "version", .nat 2)
    (envelopeFields room sender (text "direct") salt (Base64.encode ciphertext)).tail
  have spelled : (text "version", Json.Atom.nat 2) ::
      (envelopeFields room sender (text "direct") salt (Base64.encode ciphertext)).tail =
      envelopeFields room sender (text "direct") salt (Base64.encode ciphertext) := rfl
  rw [spelled] at whole
  constructor
  · simp only [envelopeFields, map_cons, map_nil, sum_cons, sum_nil,
      string_field_size, roomName, senderName, kind, kindSize, saltName, cipherName] at whole
    show Text.size _ ≤ MAX_ROOM_PLAINTEXT
    rw [plaintext_value]
    exact le_trans whole (by omega)
  · exact Json.parse_record_bytes (cons_ne_nil _ _) (envelope_names _ _ _ _ _)

theorem fragment_fits (crypto : RoomCrypto) {channel : RoomChannel} {binding : Text}
    (framed : FramedEnd channel binding) {message : Nat} {data : Bytes} {index : Nat}
    (counted : (messageFragment channel.sessionId binding message data index).Counted)
    {salt : Bytes} (salted : salt.length = 32) :
    ∃ call frame, sealRoomEnvelope crypto channel.encryptionKey channel.session.keys.discoveryId
        channel.session.localPeer (text "direct") salt (fragmentBytes channel.session
          (messageFragment channel.sessionId binding message data index)) = some (call, frame) ∧
      Framed frame := by
  have short := fragment_bytes_short framed counted rfl rfl (slice_length_le _ _ _)
  have kind : validKind (text "direct") = true := by decide +kernel
  have labels : validLabels channel.session.localPeer (text "direct") = true := by
    simp [validLabels, kind, framed.localPeer, framed.localShort]
  have tagged := crypto.aead.length (crypto.hkdf channel.encryptionKey salt) envelopeNonce
    (envelopeAad channel.session.keys.discoveryId channel.session.localPeer (text "direct")
      (Base64.encode salt)) (fragmentBytes channel.session
        (messageFragment channel.sessionId binding message data index))
  have allowed : (!validLabels channel.session.localPeer (text "direct") ||
      decide (MAX_ROOM_PLAINTEXT < (fragmentBytes channel.session
        (messageFragment channel.sessionId binding message data index)).length)) = false := by
    rw [labels, plaintext_value, Bool.not_true, Bool.false_or, decide_eq_false_iff_not]
    omega
  refine ⟨sealCall crypto channel.encryptionKey channel.session.keys.discoveryId
    channel.session.localPeer (text "direct") salt (fragmentBytes channel.session
      (messageFragment channel.sessionId binding message data index)), _,
    if_neg (by rw [allowed]; decide), ?_⟩
  apply envelope_framed framed.room framed.localShort
  · rw [Base64.encode_length, salted]
  · refine le_trans (le_of_eq tagged) ?_
    omega

theorem framed_written {frame : Json} (framed : Framed frame) :
    streamWrite frame = some (frameOf (frameText frame)) :=
  if_neg (not_lt.mpr (Nat.le_trans framed.short plaintext_below_limit))

end AwfulChat.RoomSecurity
