import AwfulChat.StoreAndForward
import AwfulChat.Library.JsonRoundTrip
import AwfulChat.Library.JsonSize
import Mathlib.Data.Bool.AllAny

/-!
# Outgoing room messages

The send paths of a room and the checks a receiver runs on what they build.
A send yields the signed row, or nothing when it throws. The limits of the two
sides are stated in different places: the text and the file count in
`prepareOutgoingText`, a plugin payload in `validate.ts`, the whole content
string in `verifyIncoming`.
-/

namespace AwfulChat.OutgoingMessages

open Library MessageOrder RoomSecurity StoreAndForward List

set_option autoImplicit false

structure Sha256 where
  digest : Bytes → Bytes
  length : ∀ bytes, (digest bytes).length = 32

def byteHex (byte : UInt8) : Text :=
  [Json.hexDigit (byte.toNat / 16), Json.hexDigit (byte.toNat % 16)]

def senderPrefix (sha256 : Sha256) (senderId : Text) : Text :=
  ((sha256.digest (Text.encodeUtf8 senderId)).take 12).flatMap byteHex

/-- What `crypto.randomUUID` returns. -/
structure Uuid where
  value : Text
  length : value.length = 36
  shape : ∀ unit ∈ value, lowerHex unit = true ∨ unit = 45

def newMessageId (sha256 : Sha256) (senderId : Text) (uuid : Uuid) : Text :=
  109 :: (senderPrefix sha256 senderId ++ 45 :: uuid.value)

/-- An unlocked identity; a signature is 64 bytes in hex. -/
structure Session where
  did : Text
  sign : Text → Text
  named : did ≠ []
  hex : ∀ canonical, (sign canonical).length = 128

structure UploadFile where
  name : Text
  type : Text
  data : Bytes
  deriving DecidableEq

structure ReplyTo where
  id : Text
  senderName : Text
  content : Text

def ReplyTo.json (replyTo : ReplyTo) : Json :=
  .object [(text "id", .string replyTo.id), (text "senderName", .string replyTo.senderName),
    (text "content", .string replyTo.content)]

/-- What a send reads while it runs: the target room and its guards, the identity
store, the own profile, the clocks, fresh ids, and the seeded entry of each file
with its measured size. -/
structure Device where
  roomCode : Text
  writable : Bool
  joined : Bool
  session : Option Session
  selfId : Text
  nickname : Option Text
  timestamp : JsNumber
  lamport : Nat
  uuid : Uuid
  attachmentId : Nat → Uuid
  seed : UploadFile → Option Json

/-- `identityStore.did ?? _transport.selfId()`; the store names the open session. -/
def Device.myId (device : Device) : Text := (device.session.map Session.did).getD device.selfId

/-- `profile?.nickname?.trim() || "Anonymous"`. -/
def Device.senderName (device : Device) : Text :=
  match device.nickname with
  | none => text "Anonymous"
  | some nickname => if trim nickname = [] then text "Anonymous" else trim nickname

def signable (message : Message) : Signable where
  type := some (messageTypeText message.type)
  roomCode := some message.roomCode
  id := message.id
  senderId := message.senderId
  lamport := message.lamport
  content := message.content
  reactionTo := message.reactionTo
  reactionEmoji := message.reactionEmoji.map Json.string
  reactionOp := message.reactionOp
  replyTo := message.replyTo
  metadata := message.metadata
  timestamp := some (.number message.timestamp)

/-- It throws while the identity is locked, and on a file it cannot bind. -/
def signMessage (device : Device) (message : Message) : Option Message := do
  let session ← device.session
  let canonical ← canonicalContentV3 (signable message)
  some { message with
    senderDid := some (.string session.did)
    sig := some (.string (session.sign canonical))
    sigV := some (.number (.finite false 3 0)) }

def prepareOutgoingText (value : Text) (files : List UploadFile) :
    Option (Text × List UploadFile) :=
  let oversized : Bool := MAX_CHAT_CONTENT_LENGTH < value.length
  if MAX_MESSAGE_FILES < files.length + oversized.toNat then none
  else if oversized = false then some (value, files)
  else some (text "Long message attached as message.txt",
    files ++ [⟨text "message.txt", text "text/plain;charset=utf-8", Text.encodeUtf8 value⟩])

/-- The fields every send path fills in the same way. -/
def draft (sha256 : Sha256) (device : Device) (type : MessageType) (content : Text) : Message where
  id := some (.string (newMessageId sha256 device.myId device.uuid))
  roomCode := device.roomCode
  senderId := some (.string device.myId)
  senderName := device.senderName
  senderDid := none
  sig := none
  sigV := none
  timestamp := device.timestamp
  lamport := some (.number (.finite false device.lamport 0))
  type := type
  content := some (.string content)
  metadata := none
  attachments := []
  replyTo := none
  reactionTo := none
  reactionEmoji := none
  reactionOp := none

def sendFiles (sha256 : Sha256) (device : Device) (files : List UploadFile) (value : Text)
    (replyTo : Option ReplyTo) : Option Message := do
  if device.writable = false ∨ device.roomCode = [] ∨ device.joined = false then none
  else
    let prepared ← prepareOutgoingText value files
    if prepared.2 = [] then none
    else
      let seeded ← prepared.2.mapM device.seed
      signMessage device { draft sha256 device .file (trim prepared.1) with
        metadata := some (.object [(text "files", .array seeded)])
        attachments := (List.range seeded.length).map fun index => (device.attachmentId index).value
        replyTo := replyTo.map ReplyTo.json }

/-- The options its callers pass; none of them passes file metadata. -/
structure SendMessageOptions where
  type : Option MessageType
  replyTo : Option ReplyTo
  reactionTo : Option Text
  reactionEmoji : Option Text
  reactionOp : Option Text

def sendMessage (sha256 : Sha256) (device : Device) (value : Text) (options : SendMessageOptions) :
    Option Message := do
  if device.writable = false ∨ device.roomCode = [] then none
  else
    let prepared ← prepareOutgoingText value []
    if prepared.2 ≠ [] then sendFiles sha256 device prepared.2 prepared.1 options.replyTo
    else signMessage device { draft sha256 device (options.type.getD .text) value with
      replyTo := options.replyTo.map ReplyTo.json
      reactionTo := options.reactionTo.map Json.string
      reactionEmoji := options.reactionEmoji
      reactionOp := options.reactionOp.map Json.string }

/-- `snapshot` is the target with its quotable text for content. -/
def sendReply (sha256 : Sha256) (device : Device) (value : Text) (snapshot : ReplyTo) :
    Option Message :=
  sendMessage sha256 device value ⟨some .reply, some snapshot, none, none, none⟩

/-- `existing` is the operation of the newest own reaction row with this emoji. -/
def toggleReaction (sha256 : Sha256) (device : Device) (messageId emoji : Text)
    (existing : Option Text) : Option Message :=
  sendMessage sha256 device [] ⟨some .reaction, none, some messageId, some emoji,
    some (if existing = some (text "add") then text "remove" else text "add")⟩

/-- `/^[a-z0-9-]{2,32}$/`. -/
def pluginIdShape (pluginId : Text) : Bool :=
  2 ≤ pluginId.length && pluginId.length ≤ 32 && pluginId.all fun unit =>
    (97 ≤ unit.toNat && unit.toNat ≤ 122) || (48 ≤ unit.toNat && unit.toNat ≤ 57) || unit = 45

def validatePluginId : Option Json → Bool
  | some (.string pluginId) => pluginIdShape pluginId
  | _ => false

def CARD_MAX_BYTES : Nat := 16 * 1024

def UPDATE_MAX_BYTES : Nat := 4 * 1024

def EPHEMERAL_MAX_BYTES : Nat := 4 * 1024

/-- A value that `JSON.stringify` turns into undefined makes the validator throw. -/
def validatePayload (limit : Nat) : Option Json → Option Bool
  | none => none
  | some data => some ((Json.stringify data).length ≤ limit)

def validateCardPayload (data : Option Json) : Option Bool := validatePayload CARD_MAX_BYTES data

def validateUpdatePayload (data : Option Json) : Option Bool := validatePayload UPDATE_MAX_BYTES data

def validateEphemeralPayload (data : Option Json) : Option Bool :=
  validatePayload EPHEMERAL_MAX_BYTES data

structure JsValue where
  json : Json
  distinct : json.Distinct

def cardContent (pluginId : Text) (payload : Json) : Text :=
  Json.stringify (.object [(text "pluginId", .string pluginId), (text "data", payload)])

def updateContent (pluginId cardId : Text) (payload : Json) : Text :=
  Json.stringify (.object [(text "pluginId", .string pluginId), (text "cardId", .string cardId),
    (text "data", payload)])

/-- A payload that is not there stands for every value without a JSON text. -/
def sendCard (sha256 : Sha256) (device : Device) (pluginId : Text) (payload : Option JsValue) :
    Option Message := do
  if device.writable = false ∨ device.roomCode = [] ∨ device.joined = false then none
  else if validatePluginId (some (.string pluginId)) = false then none
  else
    let valid ← validateCardPayload (payload.map JsValue.json)
    let data ← payload
    if valid = false then none
    else signMessage device (draft sha256 device .pluginCard (cardContent pluginId data.json))

/-- A stored update; an ephemeral one is not a message. -/
def sendUpdate (sha256 : Sha256) (device : Device) (pluginId cardId : Text)
    (payload : Option JsValue) : Option Message := do
  if device.writable = false ∨ device.roomCode = [] then none
  else if validatePluginId (some (.string pluginId)) = false then none
  else
    let valid ← validateUpdatePayload (payload.map JsValue.json)
    let data ← payload
    if valid = false then none
    else
      let content := updateContent pluginId cardId data.json
      signMessage device (draft sha256 device .pluginUpdate content)

structure PluginPayload where
  pluginId : Text
  cardId : Option Json
  data : Option Json
  deriving DecidableEq

def isObject : Option Json → Bool
  | some (.array _) => true
  | some (.object _) => true
  | _ => false

def filledString : Option Json → Bool
  | some (.string value) => value ≠ []
  | _ => false

/-- A type that is not a chat type is the ephemeral one. -/
def payloadCheck : Option MessageType → Option Json → Option Bool
  | some .pluginCard => validateCardPayload
  | some .pluginUpdate => validateUpdatePayload
  | _ => validateEphemeralPayload

def parsePluginPayload (type : Option MessageType) (content : Option Json) :
    Option PluginPayload := do
  match content with
  | some (.string content) =>
    let payload := Json.parse content
    if isObject payload = false then none
    else match property payload (text "pluginId") with
      | some (.string pluginId) =>
        if validatePluginId (some (.string pluginId)) = false then none
        else if type ≠ some .pluginCard ∧
            filledString (property payload (text "cardId")) = false then none
        else if (property payload (text "data")).isSome ∧
            (payloadCheck type (property payload (text "data"))).getD false = false then none
        else some ⟨pluginId, property payload (text "cardId"), property payload (text "data")⟩
      | _ => none
  | _ => none

/-- Everything a user or a plugin can send to a room. The card of an update was
made by `newMessageId` for its own author. -/
inductive Outgoing
  | message (value : Text) (replyTo : Option ReplyTo)
  | reply (value : Text) (snapshot : ReplyTo)
  | reaction (messageId emoji : Text) (existing : Option Text)
  | files (files : List UploadFile) (value : Text) (replyTo : Option ReplyTo)
  | card (pluginId : Text) (payload : Option JsValue)
  | update (pluginId : Text) (author : Text) (uuid : Uuid) (payload : Option JsValue)

def Outgoing.send (sha256 : Sha256) (device : Device) : Outgoing → Option Message
  | .message value replyTo => sendMessage sha256 device value ⟨none, replyTo, none, none, none⟩
  | .reply value snapshot => sendReply sha256 device value snapshot
  | .reaction messageId emoji existing => toggleReaction sha256 device messageId emoji existing
  | .files attached value replyTo => sendFiles sha256 device attached value replyTo
  | .card pluginId payload => sendCard sha256 device pluginId payload
  | .update pluginId author uuid payload =>
    sendUpdate sha256 device pluginId (newMessageId sha256 author uuid) payload

def Outgoing.parsed (sha256 : Sha256) : Outgoing → Option PluginPayload
  | .card pluginId payload =>
    some ⟨pluginId, none, payload.map fun data => Json.reread data.json⟩
  | .update pluginId author uuid payload =>
    some ⟨pluginId, some (.string (newMessageId sha256 author uuid)),
      payload.map fun data => Json.reread data.json⟩
  | _ => none

/-- The verdict of the receiver and, for a plugin message, the payload it reads. -/
def Accepted (sha256 : Sha256) (receiver : Receiver) (room : Text) (outgoing : Outgoing)
    (message : Message) : Prop :=
  verifyIncoming receiver room false (messageToWire message) = some .ok ∧
    ∀ payload, outgoing.parsed sha256 = some payload →
      parsePluginPayload (some message.type) (messageToWire message).content = some payload

/-- A card's content wraps its payload in 23 more units and the plugin's id. -/
def Outgoing.Fits : Outgoing → Prop
  | .card pluginId (some payload) =>
    (Json.stringify payload.json).length + pluginId.length + 23 ≤ MAX_CHAT_CONTENT_LENGTH
  | _ => True

/-- A receiver that hashes as the sender does, whose clock admits the lamport and
that verifies an honest signature. -/
structure Honest (sha256 : Sha256) (device : Device) (receiver : Receiver) : Prop where
  digest : receiver.senderPrefix = senderPrefix sha256
  clock : remoteLamportAllowed receiver device.roomCode
    (some (.number (.finite false device.lamport 0))) = true
  signatures : ∀ session, device.session = some session → ∀ canonical,
    receiver.verifySignature (.string session.did) (.string (session.sign canonical)) canonical =
      true

theorem lower_hex_digit {value : Nat} (small : value < 16) :
    lowerHex (Json.hexDigit value) = true := by
  have all : ∀ digit : Fin 16, lowerHex (Json.hexDigit digit.val) = true := by decide
  exact all ⟨value, small⟩

theorem byte_hex_lower (byte : UInt8) : ∀ unit ∈ byteHex byte, lowerHex unit = true := by
  have bound := byte.toNat_lt
  intro unit mem
  simp only [byteHex, mem_cons, not_mem_nil, or_false] at mem
  rcases mem with rfl | rfl
  · exact lower_hex_digit (by omega)
  · exact lower_hex_digit (by omega)

theorem hex_length (bytes : Bytes) : (bytes.flatMap byteHex).length = 2 * bytes.length := by
  induction bytes with
  | nil => rfl
  | cons byte rest ih =>
    rw [flatMap_cons, length_append, ih, length_cons]
    simp only [byteHex, length_cons, length_nil]
    omega

theorem sender_prefix_length (sha256 : Sha256) (senderId : Text) :
    (senderPrefix sha256 senderId).length = 24 := by
  rw [senderPrefix, hex_length, length_take, sha256.length]
  rfl

theorem sender_prefix_hex (sha256 : Sha256) (senderId : Text) :
    ∀ unit ∈ senderPrefix sha256 senderId, lowerHex unit = true := by
  intro unit mem
  obtain ⟨byte, _, digit⟩ := mem_flatMap.mp mem
  exact byte_hex_lower byte unit digit

theorem new_id_bound (sha256 : Sha256) (senderId : Text) (uuid : Uuid) :
    boundIdPrefix (newMessageId sha256 senderId uuid) = some (senderPrefix sha256 senderId) := by
  have length := sender_prefix_length sha256 senderId
  have digest : (senderPrefix sha256 senderId ++ 45 :: uuid.value).take 24 =
      senderPrefix sha256 senderId := take_left' length
  have dash : ((senderPrefix sha256 senderId ++ 45 :: uuid.value).drop 24).head? = some 45 := by
    rw [drop_left' length]
    rfl
  simp only [newMessageId, boundIdPrefix, digest, dash, and_true]
  rw [if_pos ⟨length, all_eq_true.mpr (sender_prefix_hex sha256 senderId)⟩]

variable {sha256 : Sha256} {device : Device} {signed : Message} {receiver : Receiver}

theorem new_id_allowed (digest : receiver.senderPrefix = senderPrefix sha256) (senderId : Text)
    (uuid : Uuid) :
    messageIdAllowedFor receiver (some (.string (newMessageId sha256 senderId uuid)))
      (some (.string senderId)) = true := by
  simp only [messageIdAllowedFor, new_id_bound, digest, decide_true, Bool.and_true,
    decide_eq_true_eq]
  exact cons_ne_nil 109 _

theorem sign_message_cases {message signed : Message}
    (sent : signMessage device message = some signed) :
    ∃ session canonical, device.session = some session ∧
      canonicalContentV3 (signable message) = some canonical ∧
      signed = { message with
        senderDid := some (.string session.did)
        sig := some (.string (session.sign canonical))
        sigV := some (.number (.finite false 3 0)) } := by
  obtain ⟨session, unlocked, rest⟩ := Option.bind_eq_some_iff.mp sent
  obtain ⟨canonical, read, built⟩ := Option.bind_eq_some_iff.mp rest
  exact ⟨session, canonical, unlocked, read, (Option.some.inj built).symm⟩

/-- What a row has to keep of its draft for the receiver's checks. -/
structure Drafted (sha256 : Sha256) (device : Device) (message : Message) : Prop where
  room : message.roomCode = device.roomCode
  id : message.id = some (.string (newMessageId sha256 device.myId device.uuid))
  sender : message.senderId = some (.string device.myId)
  lamport : message.lamport = some (.number (.finite false device.lamport 0))
  files : tooManyFiles message.metadata = false

theorem draft_drafted (sha256 : Sha256) (device : Device) (type : MessageType) (content : Text) :
    Drafted sha256 device (draft sha256 device type content) :=
  ⟨rfl, rfl, rfl, rfl, rfl⟩

variable {pluginId : Text} {value : Text}

theorem text_truthy (filled : value ≠ []) : truthy (some (.string value)) = true := by
  simpa [truthy] using filled

def signedRow (session : Session) (canonical : Text) (message : Message) : Message :=
  { message with
    senderDid := some (.string session.did)
    sig := some (.string (session.sign canonical))
    sigV := some (.number (.finite false 3 0)) }

theorem signed_half {room : Text} {session : Session} {canonical : Text}
    {message : Message} (inRoom : message.roomCode = room) (opened : room ≠ [])
    (sender : message.senderId = some (.string session.did))
    (read : canonicalContentV3 (signable message) = some canonical)
    (verified : receiver.verifySignature (.string session.did) (.string (session.sign canonical))
      canonical = true) :
    verifySigned receiver room (messageToWire (signedRow session canonical message))
      (.string (session.sign canonical)) = some .ok := by
  have version : safeInteger (some (.number (.finite false 3 0))) = some 3 := by decide +kernel
  have names : namesSender (.string session.did) message.senderId = true := by
    rw [sender]
    simp [namesSender]
  have same : canonicalContentV3 ((messageToWire (signedRow session canonical message)).signable
      room) = some canonical := by
    rw [← read, ← inRoom]
    rfl
  have version : safeInteger (messageToWire (signedRow session canonical message)).sigV = some 3 :=
    version
  have signer : (messageToWire (signedRow session canonical message)).senderDid =
      some (.string session.did) := rfl
  have sender : (messageToWire (signedRow session canonical message)).senderId =
      message.senderId := rfl
  simp only [verifySigned, version, signer, sender, names, text_truthy session.named, same, verified,
    opened, ne_eq, not_true_eq_false, Bool.true_eq_false, if_false, if_true, Option.bind_eq_bind,
    Option.bind_some]

theorem signed_verdict {message signed : Message} {content : Text}
    (drafted : Drafted sha256 device message) (written : message.content = some (.string content))
    (opened : device.roomCode ≠ []) (honest : Honest sha256 device receiver)
    (sent : signMessage device message = some signed) :
    verifyIncoming receiver device.roomCode false (messageToWire signed) =
      if MAX_CHAT_CONTENT_LENGTH < content.length then some (.refused .contentOversize)
      else some .ok := by
  obtain ⟨session, canonical, unlocked, read, shape⟩ := sign_message_cases sent
  have built : signed = signedRow session canonical message := shape
  have mine : device.myId = session.did := by
    rw [Device.myId, unlocked]
    rfl
  have hex : session.sign canonical ≠ [] := by
    intro empty
    have length := session.hex canonical
    rw [empty] at length
    cases length
  have half := signed_half drafted.room opened (by rw [drafted.sender, mine]) read
    (honest.signatures session unlocked canonical)
  have allowed := new_id_allowed honest.digest device.myId device.uuid
  rw [← drafted.id, ← drafted.sender] at allowed
  have clock := honest.clock
  rw [← drafted.lamport] at clock
  rw [built, verifyIncoming]
  simp only [show (messageToWire (signedRow session canonical message)).lamport = message.lamport
      from rfl, show (messageToWire (signedRow session canonical message)).content =
      message.content from rfl, show (messageToWire (signedRow session canonical message)).metadata
      = message.metadata from rfl, show (messageToWire (signedRow session canonical message)).id =
      message.id from rfl, show (messageToWire (signedRow session canonical message)).senderId =
      message.senderId from rfl, show (messageToWire (signedRow session canonical message)).sig =
      some (.string (session.sign canonical)) from rfl, clock, written, drafted.files, allowed,
    text_truthy hex, Bool.true_eq_false, Bool.false_eq_true, if_false, half]

theorem literal_lengths : (Json.quote (text "pluginId")).length = 10 ∧
    (Json.quote (text "cardId")).length = 8 ∧ (Json.quote (text "data")).length = 6 := by
  decide +kernel

theorem plain_quote_length (plain : ∀ unit ∈ value, Json.Plain unit) :
    (Json.quote value).length = value.length + 2 := by
  rw [Json.quote, Json.escape_plain plain, length_cons, length_append]
  rfl

theorem plugin_id_plain (valid : validatePluginId (some (.string pluginId)) = true) :
    (∀ unit ∈ pluginId, Json.Plain unit) ∧ pluginId.length ≤ 32 := by
  simp only [validatePluginId, pluginIdShape, Bool.and_eq_true, decide_eq_true_eq,
    all_eq_true, Bool.or_eq_true] at valid
  obtain ⟨⟨_, short⟩, shape⟩ := valid
  have quoteValue : (34 : UInt16).toNat = 34 := rfl
  have slashValue : (92 : UInt16).toNat = 92 := rfl
  have dashValue : (45 : UInt16).toNat = 45 := rfl
  refine ⟨?_, short⟩
  intro unit mem
  rcases shape unit mem with (letter | digit) | rfl
  · refine ⟨by omega, by omega, ?_, ?_⟩ <;> rintro rfl <;> omega
  · refine ⟨by omega, by omega, ?_, ?_⟩ <;> rintro rfl <;> omega
  · exact ⟨by decide, by decide, by decide, by decide⟩

theorem lower_hex_plain {unit : UInt16} (hex : lowerHex unit = true) : Json.Plain unit := by
  simp only [lowerHex, Bool.or_eq_true, Bool.and_eq_true, decide_eq_true_eq] at hex
  have quoteValue : (34 : UInt16).toNat = 34 := rfl
  have slashValue : (92 : UInt16).toNat = 92 := rfl
  refine ⟨by omega, by omega, ?_, ?_⟩ <;> rintro rfl <;> omega

theorem new_id_plain (sha256 : Sha256) (senderId : Text) (uuid : Uuid) :
    (∀ unit ∈ newMessageId sha256 senderId uuid, Json.Plain unit) ∧
      (newMessageId sha256 senderId uuid).length = 62 := by
  constructor
  · intro unit mem
    simp only [newMessageId, mem_cons, mem_append] at mem
    rcases mem with rfl | digest | rfl | random
    · exact ⟨by decide, by decide, by decide, by decide⟩
    · exact lower_hex_plain (sender_prefix_hex sha256 senderId unit digest)
    · exact ⟨by decide, by decide, by decide, by decide⟩
    · rcases uuid.shape unit random with hex | rfl
      · exact lower_hex_plain hex
      · exact ⟨by decide, by decide, by decide, by decide⟩
  · simp only [newMessageId, length_cons, length_append, sender_prefix_length,
      uuid.length]

theorem card_content_length (valid : validatePluginId (some (.string pluginId)) = true)
    (payload : Json) :
    (cardContent pluginId payload).length =
      (Json.stringify payload).length + pluginId.length + 23 := by
  obtain ⟨plugin, card, data⟩ := literal_lengths
  have quoted := plain_quote_length (plugin_id_plain valid).1
  simp only [cardContent, Json.stringify, Json.fieldsText, length_cons, length_append,
    length_nil, plugin, data, quoted]
  omega

theorem update_content_length {pluginId cardId : Text}
    (valid : validatePluginId (some (.string pluginId)) = true)
    (plain : ∀ unit ∈ cardId, Json.Plain unit) (payload : Json) :
    (updateContent pluginId cardId payload).length =
      (Json.stringify payload).length + pluginId.length + cardId.length + 35 := by
  obtain ⟨plugin, card, data⟩ := literal_lengths
  have quoted := plain_quote_length (plugin_id_plain valid).1
  have named := plain_quote_length plain
  simp only [updateContent, Json.stringify, Json.fieldsText, length_cons, length_append,
    length_nil, plugin, card, data, quoted, named]
  omega

theorem names_apart : text "pluginId" ≠ text "cardId" ∧ text "pluginId" ≠ text "data" ∧
    text "cardId" ≠ text "data" := by decide +kernel

theorem parse_card_content {payload : JsValue}
    (valid : validatePluginId (some (.string pluginId)) = true)
    (small : validateCardPayload (some payload.json) = some true) :
    parsePluginPayload (some .pluginCard) (some (.string (cardContent pluginId payload.json))) =
      some ⟨pluginId, none, some (Json.reread payload.json)⟩ := by
  obtain ⟨pluginCard, pluginData, cardData⟩ := names_apart
  have again : validateCardPayload (some (Json.reread payload.json)) = some true := by
    rw [← small, validateCardPayload, validatePayload, Json.stringify_reread _ payload.distinct]
    rfl
  have read : Json.parse (cardContent pluginId payload.json) = some (.object
      [(text "pluginId", .string pluginId), (text "data", Json.reread payload.json)]) := by
    rw [cardContent, Json.parse_stringify, Json.reread, Json.reread_fields_distinct]
    · rfl
    · simp [pluginData]
  simp only [parsePluginPayload, read]
  simp [isObject, property, valid, pluginData, cardData.symm, pluginCard, payloadCheck, again]

theorem parse_update_content {pluginId author : Text} {uuid : Uuid} {payload : JsValue}
    (valid : validatePluginId (some (.string pluginId)) = true)
    (small : validateUpdatePayload (some payload.json) = some true) :
    parsePluginPayload (some .pluginUpdate)
        (some (.string (updateContent pluginId (newMessageId sha256 author uuid) payload.json))) =
      some ⟨pluginId, some (.string (newMessageId sha256 author uuid)),
        some (Json.reread payload.json)⟩ := by
  obtain ⟨pluginCard, pluginData, cardData⟩ := names_apart
  have again : validateUpdatePayload (some (Json.reread payload.json)) = some true := by
    rw [← small, validateUpdatePayload, validatePayload, Json.stringify_reread _ payload.distinct]
    rfl
  have filled : newMessageId sha256 author uuid ≠ [] := cons_ne_nil 109 _
  have read : Json.parse (updateContent pluginId (newMessageId sha256 author uuid) payload.json) =
      some (.object [(text "pluginId", .string pluginId),
        (text "cardId", .string (newMessageId sha256 author uuid)),
        (text "data", Json.reread payload.json)]) := by
    rw [updateContent, Json.parse_stringify, Json.reread, Json.reread_fields_distinct]
    · rfl
    · simp [pluginData, pluginCard, cardData]
  simp only [parsePluginPayload, read]
  simp [isObject, property, valid, pluginData, cardData, pluginCard, payloadCheck, again,
    filledString, filled]

theorem prepare_cases {value kept : Text} {files listed : List UploadFile}
    (prepared : prepareOutgoingText value files = some (kept, listed)) :
    kept.length ≤ MAX_CHAT_CONTENT_LENGTH ∧ listed.length ≤ MAX_MESSAGE_FILES ∧
      (listed = [] → files = [] ∧ kept = value) := by
  unfold prepareOutgoingText at prepared
  by_cases long : MAX_CHAT_CONTENT_LENGTH < value.length
  · simp only [long, decide_true, Bool.toNat_true, Bool.true_eq_false, if_false] at prepared
    split at prepared
    · cases prepared
    · rename_i room
      cases prepared
      refine ⟨by decide +kernel, ?_, ?_⟩
      · rw [length_append, length_singleton]
        omega
      · intro empty
        exact absurd empty (by simp)
  · simp only [long, decide_false, Bool.toNat_false, Nat.add_zero, if_true] at prepared
    split at prepared
    · cases prepared
    · rename_i room
      cases prepared
      exact ⟨by omega, by omega, fun empty => ⟨empty, rfl⟩⟩

theorem trim_length (value : Text) : (trim value).length ≤ value.length := by
  have back := (dropWhile_sublist whiteSpace
    (l := (value.dropWhile whiteSpace).reverse)).length_le
  have front := (dropWhile_sublist whiteSpace (l := value)).length_le
  rw [length_reverse] at back
  rw [trim, length_reverse]
  omega

theorem map_some_length {files : List UploadFile} {seed : UploadFile → Option Json}
    {seeded : List Json} (listed : files.mapM seed = some seeded) :
    seeded.length = files.length := by
  induction files generalizing seeded with
  | nil =>
    cases listed
    rfl
  | cons file rest ih =>
    rw [mapM_cons] at listed
    obtain ⟨first, _, others⟩ := Option.bind_eq_some_iff.mp listed
    obtain ⟨tail, read, built⟩ := Option.bind_eq_some_iff.mp others
    cases built
    rw [length_cons, ih read, length_cons]

structure Sent (sha256 : Sha256) (device : Device) (signed : Message) (content : Text)
    (type : MessageType) : Prop where
  opened : device.roomCode ≠ []
  signs : ∃ message, Drafted sha256 device message ∧ message.content = some (.string content) ∧
    message.type = type ∧ signMessage device message = some signed

section

variable {content : Text} {type : MessageType} (sent : Sent sha256 device signed content type)
include sent

theorem Sent.verdict (honest : Honest sha256 device receiver) :
    verifyIncoming receiver device.roomCode false (messageToWire signed) =
      if MAX_CHAT_CONTENT_LENGTH < content.length then some (.refused .contentOversize)
      else some .ok := by
  obtain ⟨message, drafted, written, _, signs⟩ := sent.signs
  exact signed_verdict drafted written sent.opened honest signs

theorem Sent.written :
    (messageToWire signed).content = some (.string content) ∧ signed.type = type := by
  obtain ⟨message, _, written, typed, signs⟩ := sent.signs
  obtain ⟨session, canonical, _, _, rfl⟩ := sign_message_cases signs
  exact ⟨written, typed⟩

end

theorem send_files_sent {files : List UploadFile} {replyTo : Option ReplyTo}
    (sent : sendFiles sha256 device files value replyTo = some signed) :
    ∃ content, content.length ≤ MAX_CHAT_CONTENT_LENGTH ∧
      Sent sha256 device signed content .file := by
  unfold sendFiles at sent
  split at sent
  · cases sent
  · rename_i guards
    simp only [not_or] at guards
    obtain ⟨⟨kept, listed⟩, prepared, rest⟩ := Option.bind_eq_some_iff.mp sent
    obtain ⟨short, few, _⟩ := prepare_cases prepared
    simp only at rest
    split at rest
    · cases rest
    · obtain ⟨seeded, seeds, signs⟩ := Option.bind_eq_some_iff.mp rest
      have count := map_some_length seeds
      have length := trim_length kept
      refine ⟨trim kept, by omega, guards.2.1, _, ⟨rfl, rfl, rfl, rfl, ?_⟩, rfl, rfl, signs⟩
      simp only [tooManyFiles, property, List.find?_cons, decide_true, Option.map_some]
      exact decide_eq_false (by omega)

theorem send_message_sent {options : SendMessageOptions}
    (sent : sendMessage sha256 device value options = some signed) :
    ∃ content type, content.length ≤ MAX_CHAT_CONTENT_LENGTH ∧
      Sent sha256 device signed content type := by
  unfold sendMessage at sent
  split at sent
  · cases sent
  · rename_i guards
    simp only [not_or] at guards
    obtain ⟨⟨kept, listed⟩, prepared, rest⟩ := Option.bind_eq_some_iff.mp sent
    obtain ⟨short, _, plain⟩ := prepare_cases prepared
    simp only at rest
    split at rest
    · obtain ⟨content, fits, files⟩ := send_files_sent rest
      exact ⟨content, .file, fits, files⟩
    · rename_i empty
      obtain ⟨_, same⟩ := plain (not_not.mp empty)
      rw [same] at short
      exact ⟨value, options.type.getD .text, short, guards.2, _, ⟨rfl, rfl, rfl, rfl, rfl⟩, rfl,
        rfl, rest⟩

theorem send_card_sent {payload : Option JsValue}
    (sent : sendCard sha256 device pluginId payload = some signed) :
    ∃ data, payload = some data ∧ validatePluginId (some (.string pluginId)) = true ∧
      validateCardPayload (some data.json) = some true ∧
      Sent sha256 device signed (cardContent pluginId data.json) .pluginCard := by
  unfold sendCard at sent
  split at sent
  · cases sent
  · rename_i guards
    simp only [not_or] at guards
    split at sent
    · cases sent
    · rename_i named
      obtain ⟨valid, checked, rest⟩ := Option.bind_eq_some_iff.mp sent
      obtain ⟨data, there, signs⟩ := Option.bind_eq_some_iff.mp rest
      split at signs
      · cases signs
      · rename_i small
        rw [Bool.not_eq_false] at small named
        rw [there, Option.map_some, small] at checked
        exact ⟨data, there, named, checked, guards.2.1, _, draft_drafted sha256 device _ _, rfl, rfl,
          signs⟩

theorem send_update_sent {pluginId cardId : Text} {payload : Option JsValue}
    (sent : sendUpdate sha256 device pluginId cardId payload = some signed) :
    ∃ data, payload = some data ∧ validatePluginId (some (.string pluginId)) = true ∧
      validateUpdatePayload (some data.json) = some true ∧
      Sent sha256 device signed (updateContent pluginId cardId data.json) .pluginUpdate := by
  unfold sendUpdate at sent
  split at sent
  · cases sent
  · rename_i guards
    simp only [not_or] at guards
    split at sent
    · cases sent
    · rename_i named
      obtain ⟨valid, checked, rest⟩ := Option.bind_eq_some_iff.mp sent
      obtain ⟨data, there, signs⟩ := Option.bind_eq_some_iff.mp rest
      split at signs
      · cases signs
      · rename_i small
        rw [Bool.not_eq_false] at small named
        rw [there, Option.map_some, small] at checked
        exact ⟨data, there, named, checked, guards.2, _, draft_drafted sha256 device _ _, rfl, rfl,
          signs⟩

theorem Sent.accepted {content : Text} {type : MessageType}
    (sent : Sent sha256 device signed content type) (honest : Honest sha256 device receiver)
    (fits : content.length ≤ MAX_CHAT_CONTENT_LENGTH) :
    verifyIncoming receiver device.roomCode false (messageToWire signed) = some .ok := by
  rw [sent.verdict honest, if_neg (by omega)]

/-- Every message a send path builds is accepted, save for a card whose content
outgrows the limit that its payload kept. -/
theorem sent_message_accepted_iff {sha256 : Sha256} {device : Device} {receiver : Receiver}
    (outgoing : Outgoing) {signed : Message} (sent : outgoing.send sha256 device = some signed)
    (honest : Honest sha256 device receiver) :
    Accepted sha256 receiver device.roomCode outgoing signed ↔ outgoing.Fits := by
  cases outgoing with
  | message value replyTo | reply value snapshot | reaction messageId emoji existing =>
    obtain ⟨content, type, fits, row⟩ := send_message_sent sent
    exact iff_of_true ⟨row.accepted honest fits, fun _ none => nomatch none⟩ trivial
  | files attached value replyTo =>
    obtain ⟨content, fits, row⟩ := send_files_sent sent
    exact iff_of_true ⟨row.accepted honest fits, fun _ none => nomatch none⟩ trivial
  | card pluginId payload =>
    obtain ⟨data, rfl, named, small, row⟩ := send_card_sent sent
    have length := card_content_length named data.json
    obtain ⟨written, typed⟩ := row.written
    simp only [Outgoing.Fits, Accepted]
    constructor
    · rintro ⟨verdict, _⟩
      by_contra long
      rw [row.verdict honest, if_pos (by omega)] at verdict
      cases verdict
    · intro fits
      refine ⟨row.accepted honest (by omega), ?_⟩
      intro payload parsed
      cases parsed
      rw [written, typed]
      exact parse_card_content named small
  | update pluginId author uuid payload =>
    obtain ⟨data, rfl, named, small, row⟩ := send_update_sent sent
    obtain ⟨plain, idLength⟩ := new_id_plain sha256 author uuid
    have length := update_content_length named plain data.json
    have pluginLength := (plugin_id_plain named).2
    obtain ⟨written, typed⟩ := row.written
    have bounded : (Json.stringify data.json).length ≤ UPDATE_MAX_BYTES := by
      simpa [validateUpdatePayload, validatePayload] using small
    have limits : UPDATE_MAX_BYTES + 32 + 62 + 35 ≤ MAX_CHAT_CONTENT_LENGTH := by decide
    refine iff_of_true ⟨row.accepted honest (by omega), ?_⟩ trivial
    intro payload parsed
    cases parsed
    rw [written, typed]
    exact parse_update_content named small

def sampleHash : Sha256 where
  digest := fun _ => List.replicate 32 7
  length := fun _ => rfl

def sampleUuid : Uuid where
  value := text "0b7e4c1a-52d3-4f68-9a0c-d1e2f3a4b5c6"
  length := by decide +kernel
  shape := List.all_iff_forall_prop.mp (by decide +kernel)

def sampleSession : Session where
  did := text "did:key:z6MkA"
  sign := fun _ => List.replicate 128 97
  named := by decide +kernel
  hex := fun _ => rfl

def sampleDevice : Device where
  roomCode := text "rd2_a"
  writable := true
  joined := true
  session := some sampleSession
  selfId := text "12D3KooWA"
  nickname := some (text " Ada ")
  timestamp := .finite false 1700000000000 0
  lamport := 7
  uuid := sampleUuid
  attachmentId := fun _ => sampleUuid
  seed := fun _ => none

def sampleReceiver : Receiver where
  clocks := fun _ => 3
  senderPrefix := senderPrefix sampleHash
  verifySignature := fun did sig _ =>
    did = .string (text "did:key:z6MkA") ∧ sig = .string (List.replicate 128 97)

theorem sample_honest : Honest sampleHash sampleDevice sampleReceiver where
  digest := rfl
  clock := by decide +kernel
  signatures := by
    intro session unlocked canonical
    cases unlocked
    simp [sampleReceiver, sampleSession]

def samplePoll : JsValue where
  json := .object [(text "question", .string (text "Lunch?")), (text "options", .array [.null])]
  distinct := by
    refine ⟨by decide +kernel, trivial, ?_, trivial⟩
    exact ⟨trivial, trivial⟩

theorem sample_poll_accepted :
    ∃ signed, (Outgoing.card (text "poll") (some samplePoll)).send sampleHash sampleDevice =
        some signed ∧
      Accepted sampleHash sampleReceiver sampleDevice.roomCode
        (.card (text "poll") (some samplePoll)) signed := by
  have built : ((Outgoing.card (text "poll") (some samplePoll)).send sampleHash
      sampleDevice).isSome = true := by decide +kernel
  have sent := (Option.some_get built).symm
  have fits : (Outgoing.card (text "poll") (some samplePoll)).Fits := by
    rw [Outgoing.Fits]
    decide +kernel
  exact ⟨_, sent, (sent_message_accepted_iff _ sent sample_honest).mpr fits⟩

def fullPayload : JsValue where
  json := .string (List.replicate 16382 97)
  distinct := trivial

theorem full_payload_length : (Json.stringify fullPayload.json).length = CARD_MAX_BYTES := by
  have plain : ∀ unit ∈ List.replicate 16382 (97 : UInt16), Json.Plain unit := by
    intro unit mem
    rw [eq_of_mem_replicate mem]
    exact ⟨by decide, by decide, by decide, by decide⟩
  rw [fullPayload, Json.stringify, plain_quote_length plain, length_replicate]
  rfl

/-- The sender's own check lets the full payload through; the receiver refuses the
card because its content is longer than the payload. -/
theorem full_card_refused :
    ∃ signed, (Outgoing.card (text "poll") (some fullPayload)).send sampleHash sampleDevice =
        some signed ∧
      Honest sampleHash sampleDevice sampleReceiver ∧
      verifyIncoming sampleReceiver sampleDevice.roomCode false (messageToWire signed) =
        some (.refused .contentOversize) := by
  have named : validatePluginId (some (.string (text "poll"))) = true := by decide +kernel
  have small : validateCardPayload (some fullPayload.json) = some true := by
    rw [validateCardPayload, validatePayload, full_payload_length]
    rfl
  have opened : sampleDevice.roomCode ≠ [] := by decide +kernel
  have sent : ∃ signed, sendCard sampleHash sampleDevice (text "poll") (some fullPayload) =
      some signed := by
    simp only [sendCard, show sampleDevice.writable = true from rfl, opened,
      show sampleDevice.joined = true from rfl, Bool.true_eq_false, or_self, if_false, named,
      Option.map_some, small, Option.bind_eq_bind, Option.bind_some]
    exact ⟨_, rfl⟩
  obtain ⟨signed, sent⟩ := sent
  obtain ⟨data, there, _, _, row⟩ := send_card_sent sent
  cases there
  have length := card_content_length named fullPayload.json
  rw [full_payload_length] at length
  have limits : MAX_CHAT_CONTENT_LENGTH = CARD_MAX_BYTES := rfl
  refine ⟨signed, sent, sample_honest, ?_⟩
  rw [row.verdict sample_honest, if_pos (by omega)]

end AwfulChat.OutgoingMessages
