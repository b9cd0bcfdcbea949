import AwfulChat.MessageOrder
import AwfulChat.RoomSecurity.FileDescriptor

/-!
# Store and forward

A chat row arrives as JSON, is checked by `verifyIncoming`, turned into a stored
message by `wireToMessage` and sent on by `messageToWire`. Fields keep whatever
value the wire gave them, `none` being undefined, so that every normalisation of
`types/message.ts` can be compared with the canonical form the signature covers.
-/

namespace AwfulChat.StoreAndForward

open Library MessageOrder RoomSecurity List Option

set_option autoImplicit false

def messageTypeText : MessageType → Text
  | .text => text "text"
  | .reply => text "reply"
  | .reaction => text "reaction"
  | .file => text "file"
  | .pluginCard => text "plugin_card"
  | .pluginUpdate => text "plugin_update"

structure WireChatMessage where
  type : MessageType
  id : Option Json
  senderId : Option Json
  senderName : Option Json
  senderDid : Option Json
  sig : Option Json
  sigV : Option Json
  timestamp : Option Json
  lamport : Option Json
  content : Option Json
  metadata : Option Json
  replyTo : Option Json
  reactionTo : Option Json
  reactionEmoji : Option Json
  reactionOp : Option Json

structure Message where
  id : Option Json
  roomCode : Text
  senderId : Option Json
  senderName : Text
  senderDid : Option Json
  sig : Option Json
  sigV : Option Json
  timestamp : JsNumber
  lamport : Option Json
  type : MessageType
  content : Option Json
  metadata : Option Json
  attachments : List Text
  replyTo : Option Json
  reactionTo : Option Json
  reactionEmoji : Option Text
  reactionOp : Option Json

/-- `WIRE_CONTROL_RE`: C0, DEL and C1, the bidi overrides and the isolates. -/
def wireControl (unit : UInt16) : Bool :=
  unit.toNat ≤ 0x1F || (0x7F ≤ unit.toNat && unit.toNat ≤ 0x9F) ||
    (0x202A ≤ unit.toNat && unit.toNat ≤ 0x202E) || (0x2066 ≤ unit.toNat && unit.toNat ≤ 0x2069)

def stripWireControls (value : Text) : Text := value.filter fun unit => !wireControl unit

/-- What `String.prototype.trim` removes. -/
def whiteSpace (unit : UInt16) : Bool :=
  (0x9 ≤ unit.toNat && unit.toNat ≤ 0xD) || unit.toNat = 0x20 || unit.toNat = 0xA0 ||
    unit.toNat = 0x1680 || (0x2000 ≤ unit.toNat && unit.toNat ≤ 0x200A) || unit.toNat = 0x2028 ||
    unit.toNat = 0x2029 || unit.toNat = 0x202F || unit.toNat = 0x205F || unit.toNat = 0x3000 ||
    unit.toNat = 0xFEFF

def trim (value : Text) : Text :=
  ((value.dropWhile whiteSpace).reverse.dropWhile whiteSpace).reverse

def MAX_WIRE_NAME_LENGTH : Nat := 64

def normalizeWireName : Option Json → Text
  | some (.string name) => (trim (stripWireControls name)).take MAX_WIRE_NAME_LENGTH
  | _ => []

def MAX_REPLY_SNAPSHOT : Nat := 2048

/-- The own enumerable properties that `{ ...value }` copies. -/
def spread : Json → List (Text × Json)
  | .object fields => fields
  | .array items => items.zipIdx.map fun item => (Json.digitText item.2, item.1)
  | .string value => value.zipIdx.map fun unit => (Json.digitText unit.2, .string [unit.1])
  | _ => []

def assign (name : Text) (value : Json) : List (Text × Json) → List (Text × Json)
  | [] => [(name, value)]
  | field :: rest =>
    if field.1 = name then (name, value) :: rest else field :: assign name value rest

def isString (value : Option Json) (expected : Text) : Bool :=
  match value with
  | some (.string found) => found = expected
  | _ => false

def boundReplyTo (replyTo : Option Json) : Option Json :=
  match replyTo with
  | none => none
  | some reply =>
    if truthy (some reply) then
      let senderName := normalizeWireName (property (some reply) (text "senderName"))
      let content := match property (some reply) (text "content") with
        | some (.string value) => value.take MAX_REPLY_SNAPSHOT
        | _ => []
      if isString (property (some reply) (text "senderName")) senderName &&
          isString (property (some reply) (text "content")) content then some reply
      else some (.object (assign (text "content") (.string content)
        (assign (text "senderName") (.string senderName) (spread reply))))
    else some reply

def MAX_REACTION_EMOJI : Nat := 32

def boundReactionEmoji : Option Json → Option Text
  | some (.string emoji) =>
    let clean := (stripWireControls emoji).take MAX_REACTION_EMOJI
    if clean = [] then none else some clean
  | _ => none

def MAX_TIMESTAMP_SKEW_MS : Nat := 5 * 60000

/-- `Math.min(timestamp, limit)` for a positive finite timestamp. -/
def minimum (coefficient : Nat) (exponent : Int) (limit : Nat) : JsNumber :=
  if coefficient * 10 ^ exponent.toNat ≤ limit * 10 ^ (-exponent).toNat then
    .finite false coefficient exponent
  else .finite false limit 0

def boundTimestamp (now : Nat) : Option Json → JsNumber
  | some (.number (.finite false coefficient exponent)) =>
    if coefficient = 0 then .finite false now 0
    else minimum coefficient exponent (now + MAX_TIMESTAMP_SKEW_MS)
  | _ => .finite false now 0

/-- `now` is the receiver's `Date.now()`. -/
def wireToMessage (now : Nat) (wire : WireChatMessage) (roomCode : Text) : Message where
  id := wire.id
  roomCode := roomCode
  senderId := wire.senderId
  senderName := normalizeWireName wire.senderName
  senderDid := wire.senderDid
  sig := wire.sig
  sigV := wire.sigV
  timestamp := boundTimestamp now wire.timestamp
  lamport := wire.lamport
  type := wire.type
  content := wire.content
  metadata := wire.metadata
  attachments := []
  replyTo := boundReplyTo wire.replyTo
  reactionTo := wire.reactionTo
  reactionEmoji := boundReactionEmoji wire.reactionEmoji
  reactionOp := wire.reactionOp

def messageToWire (message : Message) : WireChatMessage where
  type := message.type
  id := message.id
  senderId := message.senderId
  senderName := some (.string message.senderName)
  senderDid := message.senderDid
  sig := message.sig
  sigV := message.sigV
  timestamp := some (.number message.timestamp)
  lamport := message.lamport
  content := message.content
  metadata := message.metadata
  replyTo := message.replyTo
  reactionTo := message.reactionTo
  reactionEmoji := message.reactionEmoji.map Json.string
  reactionOp := message.reactionOp

structure Signable where
  type : Option Text
  roomCode : Option Text
  id : Option Json
  senderId : Option Json
  lamport : Option Json
  content : Option Json
  reactionTo : Option Json
  reactionEmoji : Option Json
  reactionOp : Option Json
  replyTo : Option Json
  metadata : Option Json
  timestamp : Option Json

/-- `{ ...wire, roomCode }`. -/
def WireChatMessage.signable (wire : WireChatMessage) (roomCode : Text) : Signable where
  type := some (messageTypeText wire.type)
  roomCode := some roomCode
  id := wire.id
  senderId := wire.senderId
  lamport := wire.lamport
  content := wire.content
  reactionTo := wire.reactionTo
  reactionEmoji := wire.reactionEmoji
  reactionOp := wire.reactionOp
  replyTo := wire.replyTo
  metadata := wire.metadata
  timestamp := wire.timestamp

/-- `meta?.files?.map(fileSignatureBinding) ?? null`; anything but an array has no
`map` to call. -/
def filesBinding (metadata : Option Json) : Option Json :=
  match property metadata (text "files") with
  | none => some .null
  | some .null => some .null
  | some (.array files) => do
      let bindings ← files.mapM fileSignatureBinding
      some (.array (bindings.map Json.string))
  | some _ => none

def canonicalContentV3 (message : Signable) : Option Text := do
  let files ← filesBinding message.metadata
  some (Json.stringify (.array ([.number (.finite false 3 0),
    orNull (message.type.map Json.string), orNull (message.roomCode.map Json.string),
    orNull message.id, orNull message.senderId, orNull message.lamport, orNull message.content,
    orNull message.reactionTo, orNull message.reactionEmoji, orNull message.reactionOp,
    orNull (property message.replyTo (text "id")), files] ++
    (if message.type = some (text "plugin_ephemeral") then [orNull message.timestamp] else []))))

inductive VerifyReason
  | invalidLamport
  | contentType
  | contentOversize
  | tooManyFiles
  | unsigned
  | sigVersion
  | noDid
  | didMismatch
  | noRoom
  | idSender
  | badSignature
  deriving DecidableEq

inductive VerifyVerdict
  | ok
  | refused (reason : VerifyReason)
  deriving DecidableEq

/-- What a receiver brings to the check: its room clocks, the digest that opens a
bound id, and the signature check itself. -/
structure Receiver where
  clocks : Text → Nat
  senderPrefix : Text → Text
  verifySignature : Json → Json → Text → Bool

def BOOTSTRAP_CEILING : Nat := 2 ^ 48

def MAX_REMOTE_JUMP : Nat := 1000000

def remoteLamportAllowed (receiver : Receiver) (room : Text) (value : Option Json) : Bool :=
  match safeInteger value with
  | some lamport => 0 ≤ lamport && lamport < MAX_SAFE_INTEGER &&
      lamport ≤ ((max BOOTSTRAP_CEILING (receiver.clocks room + MAX_REMOTE_JUMP) : Nat) : Int)
  | none => false

def lowerHex (unit : UInt16) : Bool :=
  (48 ≤ unit.toNat && unit.toNat ≤ 57) || (97 ≤ unit.toNat && unit.toNat ≤ 102)

/-- `BOUND_ID.exec(id)`: the digest an id opens with, if it is a bound one. -/
def boundIdPrefix (id : Text) : Option Text :=
  match id with
  | 109 :: rest =>
    if (rest.take 24).length = 24 ∧ (rest.take 24).all lowerHex = true ∧
        (rest.drop 24).head? = some 45 then some (rest.take 24)
    else none
  | _ => none

def messageIdAllowedFor (receiver : Receiver) (id senderId : Option Json) : Bool :=
  match id, senderId with
  | some (.string id), some (.string senderId) =>
    id ≠ [] && (match boundIdPrefix id with
      | some digest => digest = receiver.senderPrefix senderId
      | none => true)
  | _, _ => false

def MAX_CHAT_CONTENT_LENGTH : Nat := 16384

def MAX_MESSAGE_FILES : Nat := 16

def tooManyFiles (metadata : Option Json) : Bool :=
  match property metadata (text "files") with
  | some (.array files) => MAX_MESSAGE_FILES < files.length
  | _ => false

/-- `senderDid === senderId`; the id check has already asked for a string. -/
def namesSender (senderDid : Json) (senderId : Option Json) : Bool :=
  match senderDid, senderId with
  | .string did, some (.string sender) => did = sender
  | _, _ => false

/-- The signed half of `verifyIncoming`; `none` is a throw of the canonical form. -/
def verifySigned (receiver : Receiver) (room : Text) (wire : WireChatMessage) (sig : Json) :
    Option VerifyVerdict :=
  if safeInteger wire.sigV ≠ some 3 then some (.refused .sigVersion)
  else match wire.senderDid with
    | none => some (.refused .noDid)
    | some senderDid =>
      if truthy (some senderDid) = false then some (.refused .noDid)
      else if namesSender senderDid wire.senderId = false then some (.refused .didMismatch)
      else if room = [] then some (.refused .noRoom)
      else do
        let canonical ← canonicalContentV3 (wire.signable room)
        some (if receiver.verifySignature senderDid sig canonical then .ok
          else .refused .badSignature)

def verifyIncoming (receiver : Receiver) (room : Text) (allowUnsigned : Bool)
    (wire : WireChatMessage) : Option VerifyVerdict :=
  if remoteLamportAllowed receiver room wire.lamport = false then
    some (.refused .invalidLamport)
  else match wire.content with
    | some (.string content) =>
      if MAX_CHAT_CONTENT_LENGTH < content.length then some (.refused .contentOversize)
      else if tooManyFiles wire.metadata then some (.refused .tooManyFiles)
      else if messageIdAllowedFor receiver wire.id wire.senderId = false then
        some (.refused .idSender)
      else match wire.sig with
        | none => some (if allowUnsigned then .ok else .refused .unsigned)
        | some sig =>
          if truthy (some sig) = false then
            some (if allowUnsigned then .ok else .refused .unsigned)
          else verifySigned receiver room wire sig
    | _ => some (.refused .contentType)

/-- The row as the next receiver gets it, after one device after another stored
it and sent it on; each device has its own clock. -/
def forward (roomCode : Text) : List Nat → WireChatMessage → WireChatMessage
  | [], wire => wire
  | now :: rest, wire => forward roomCode rest (messageToWire (wireToMessage now wire roomCode))

abbrev hop (roomCode : Text) (now : Nat) (wire : WireChatMessage) : WireChatMessage :=
  messageToWire (wireToMessage now wire roomCode)

/-- The emojis that `boundReactionEmoji` leaves as the canonical form writes them:
those written as null, and short strings without a control character. -/
def EmojiKept : Option Json → Prop
  | none => True
  | some (.string emoji) =>
    emoji ≠ [] ∧ emoji.length ≤ MAX_REACTION_EMOJI ∧ ∀ unit ∈ emoji, wireControl unit = false
  | some value => Json.WritesNull value

theorem strip_eq_self_iff (value : Text) :
    stripWireControls value = value ↔ ∀ unit ∈ value, wireControl unit = false := by
  simp [stripWireControls, filter_eq_self]

theorem strip_control_free (value : Text) :
    ∀ unit ∈ stripWireControls value, wireControl unit = false := by
  intro unit mem
  simpa using (mem_filter.mp mem).2

theorem bound_emoji_string (emoji : Text) :
    (boundReactionEmoji (some (.string emoji)) = some emoji) ↔
      EmojiKept (some (.string emoji)) := by
  simp only [boundReactionEmoji, EmojiKept]
  constructor
  · intro same
    split at same
    · cases same
    · rename_i filled
      have clean := Option.some.inj same
      refine ⟨fun empty => filled (by rw [clean, empty]), ?_, ?_⟩
      · rw [← clean]
        exact length_take_le _ _
      · intro unit mem
        rw [← clean] at mem
        exact strip_control_free emoji unit (mem_of_mem_take mem)
  · rintro ⟨filled, short, plain⟩
    rw [(strip_eq_self_iff emoji).mpr plain, take_of_length_le short, if_neg filled]

theorem bound_emoji_kept (emoji : Option Json) :
    EmojiKept ((boundReactionEmoji emoji).map Json.string) := by
  match emoji with
  | none | some .null | some (.bool _) | some (.number _) | some (.array _) | some (.object _) =>
    trivial
  | some (.string emoji) =>
    simp only [boundReactionEmoji]
    split
    · trivial
    · rename_i filled
      refine ⟨filled, length_take_le _ _, ?_⟩
      intro unit mem
      exact strip_control_free emoji unit (mem_of_mem_take mem)

theorem emoji_text_iff (emoji : Option Json) :
    Json.stringify (orNull ((boundReactionEmoji emoji).map Json.string)) =
      Json.stringify (orNull emoji) ↔ EmojiKept emoji := by
  have erased : ∀ value : Json, Json.stringify .null = Json.stringify value ↔
      Json.WritesNull value := by
    intro value
    rw [eq_comm]
    exact Json.stringify_eq_null value
  match emoji with
  | none => simp [boundReactionEmoji, orNull, EmojiKept]
  | some .null => simpa [boundReactionEmoji, orNull, EmojiKept] using erased .null
  | some (.bool value) => simpa [boundReactionEmoji, orNull, EmojiKept] using erased (.bool value)
  | some (.number value) =>
    simpa [boundReactionEmoji, orNull, EmojiKept] using erased (.number value)
  | some (.array items) =>
    simpa [boundReactionEmoji, orNull, EmojiKept] using erased (.array items)
  | some (.object fields) =>
    simpa [boundReactionEmoji, orNull, EmojiKept] using erased (.object fields)
  | some (.string emoji) =>
    rw [← bound_emoji_string]
    cases bound : boundReactionEmoji (some (.string emoji)) with
    | none =>
      have refused : ¬ Json.stringify .null = Json.stringify (.string emoji) := by
        rw [erased]
        exact id
      simpa [orNull] using refused
    | some clean =>
      simp only [orNull, map_some, getD_some, Option.some.injEq]
      constructor
      · intro same
        exact Json.quote_injective same
      · intro same
        rw [same]

theorem property_assign {name other : Text} (apart : other ≠ name) (value : Json)
    (fields : List (Text × Json)) :
    property (some (.object (assign name value fields))) other =
      property (some (.object fields)) other := by
  simp only [property]
  induction fields with
  | nil => simp [assign, apart.symm]
  | cons field rest ih =>
    rw [assign]
    split
    · rename_i same
      have different : ¬ field.1 = other := by
        rw [same]
        exact fun equal => apart equal.symm
      simp [apart.symm, different]
    · by_cases found : field.1 = other
      · simp [found]
      · simp [found, ih]

theorem property_numbered {name : Text} (named : ∀ index, Json.digitText index ≠ name)
    (fields : List (Text × Json)) (numbered : ∀ field ∈ fields, ∃ index, field.1 = Json.digitText index) :
    property (some (.object fields)) name = none := by
  simp only [property, map_eq_none_iff, List.find?_eq_none, decide_eq_true_eq]
  intro field mem same
  obtain ⟨index, digits⟩ := numbered field mem
  exact named index (digits.symm.trans same)

theorem id_not_index (index : Nat) : Json.digitText index ≠ text "id" := by
  obtain ⟨first, rest, shape, digit⟩ := Json.digit_text_cons index
  have idText : text "id" = [105, 100] := by decide +kernel
  rw [shape, idText]
  intro same
  rw [(List.cons.inj same).1] at digit
  exact absurd digit (by decide)

theorem property_spread_id (value : Json) :
    property (some (.object (spread value))) (text "id") = property (some value) (text "id") := by
  cases value with
  | null | bool value | number value | object fields => rfl
  | string value =>
    apply property_numbered id_not_index
    intro field mem
    obtain ⟨unit, -, rfl⟩ := mem_map.mp mem
    exact ⟨unit.2, rfl⟩
  | array items =>
    apply property_numbered id_not_index
    intro field mem
    obtain ⟨item, -, rfl⟩ := mem_map.mp mem
    exact ⟨item.2, rfl⟩

theorem bound_reply_id (replyTo : Option Json) :
    property (boundReplyTo replyTo) (text "id") = property replyTo (text "id") := by
  have content : text "id" ≠ text "content" := by decide +kernel
  have senderName : text "id" ≠ text "senderName" := by decide +kernel
  cases replyTo with
  | none => rfl
  | some reply =>
    simp only [boundReplyTo]
    split_ifs
    · rfl
    · rw [property_assign content, property_assign senderName, property_spread_id]
    · rfl

theorem chat_type_not_ephemeral (type : MessageType) :
    some (messageTypeText type) ≠ some (text "plugin_ephemeral") := by
  cases type <;> decide +kernel

variable {files : Json} {room : Text}

theorem canonical_row (room : Text) (wire : WireChatMessage)
    (readable : filesBinding wire.metadata = some files) :
    canonicalContentV3 (wire.signable room) = some (Json.stringify (.array
      ([.number (.finite false 3 0), .string (messageTypeText wire.type), .string room,
        orNull wire.id, orNull wire.senderId, orNull wire.lamport, orNull wire.content,
        orNull wire.reactionTo] ++ orNull wire.reactionEmoji ::
        [orNull wire.reactionOp, orNull (property wire.replyTo (text "id")), files]))) := by
  have chat : (wire.signable room).type ≠ some (text "plugin_ephemeral") :=
    chat_type_not_ephemeral wire.type
  have signed : filesBinding (wire.signable room).metadata = some files := readable
  unfold canonicalContentV3
  rw [if_neg chat, signed]
  rfl

theorem canonical_hop (room : Text) (now : Nat) (wire : WireChatMessage)
    (readable : filesBinding wire.metadata = some files) :
    canonicalContentV3 ((hop room now wire).signable room) =
      canonicalContentV3 (wire.signable room) ↔ EmojiKept wire.reactionEmoji := by
  have hopReadable : filesBinding (hop room now wire).metadata = some files := readable
  rw [← emoji_text_iff, canonical_row room wire readable, canonical_row room _ hopReadable,
    Option.some.injEq]
  simp only [messageToWire, wireToMessage, bound_reply_id]
  exact Json.array_text_item_iff _ _ _ _

variable {wire : WireChatMessage}

theorem canonical_forward (hops : List Nat) (readable : filesBinding wire.metadata = some files)
    (kept : EmojiKept wire.reactionEmoji) :
    canonicalContentV3 ((forward room hops wire).signable room) =
      canonicalContentV3 (wire.signable room) := by
  induction hops generalizing wire with
  | nil => rfl
  | cons now rest ih =>
    have onward : canonicalContentV3 ((forward room rest (hop room now wire)).signable room) =
        canonicalContentV3 ((hop room now wire).signable room) :=
      ih readable (bound_emoji_kept _)
    rw [forward, onward]
    exact (canonical_hop room now wire readable).mpr kept

theorem verify_hop {now : Nat}
    (same : canonicalContentV3 ((hop room now wire).signable room) =
      canonicalContentV3 (wire.signable room)) (receiver : Receiver) (allowUnsigned : Bool) :
    verifyIncoming receiver room allowUnsigned (hop room now wire) =
      verifyIncoming receiver room allowUnsigned wire := by
  have signed : ∀ sig, verifySigned receiver room (hop room now wire) sig =
      verifySigned receiver room wire sig := by
    intro sig
    unfold verifySigned
    rw [same]
    rfl
  unfold verifyIncoming
  simp only [signed]
  rfl

theorem verify_forward (hops : List Nat) (readable : filesBinding wire.metadata = some files)
    (kept : EmojiKept wire.reactionEmoji) (receiver : Receiver) (allowUnsigned : Bool) :
    verifyIncoming receiver room allowUnsigned (forward room hops wire) =
      verifyIncoming receiver room allowUnsigned wire := by
  induction hops generalizing wire with
  | nil => rfl
  | cons now rest ih =>
    have onward : verifyIncoming receiver room allowUnsigned (forward room rest (hop room now wire)) =
        verifyIncoming receiver room allowUnsigned (hop room now wire) :=
      ih readable (bound_emoji_kept _)
    rw [forward, onward]
    exact verify_hop ((canonical_hop room now wire readable).mpr kept) receiver allowUnsigned

theorem accepted_readable {receiver : Receiver}
    (accepted : verifyIncoming receiver room false wire = some .ok) :
    ∃ files, filesBinding wire.metadata = some files := by
  have signed : ∃ sig, verifySigned receiver room wire sig = some .ok := by
    unfold verifyIncoming at accepted
    split at accepted
    · cases accepted
    · split at accepted
      · split at accepted
        · cases accepted
        · split at accepted
          · cases accepted
          · split at accepted
            · cases accepted
            · split at accepted
              · cases accepted
              · split at accepted
                · cases accepted
                · exact ⟨_, accepted⟩
      · cases accepted
  obtain ⟨sig, signed⟩ := signed
  unfold verifySigned at signed
  split at signed
  · cases signed
  · split at signed
    · cases signed
    · split at signed
      · cases signed
      · split at signed
        · cases signed
        · split at signed
          · cases signed
          · obtain ⟨canonical, read, -⟩ := bind_eq_some_iff.mp signed
            obtain ⟨files, bound, -⟩ := bind_eq_some_iff.mp read
            exact ⟨files, bound⟩

/-- A row accepted into a room verifies again, after any number of devices stored
it and sent it on, exactly when its emoji is a kept one. -/
theorem forwarded_row_verifies_iff (receiver : Receiver) (room : Text) (wire : WireChatMessage)
    (accepted : verifyIncoming receiver room false wire = some .ok) (hops : List Nat)
    (forwarded : hops ≠ []) :
    (canonicalContentV3 ((forward room hops wire).signable room) =
      canonicalContentV3 (wire.signable room) ↔ EmojiKept wire.reactionEmoji) ∧
    (EmojiKept wire.reactionEmoji → ∀ next allowUnsigned,
      verifyIncoming next room allowUnsigned (forward room hops wire) =
        verifyIncoming next room allowUnsigned wire) := by
  obtain ⟨files, readable⟩ := accepted_readable accepted
  constructor
  · cases hops with
    | nil => exact absurd rfl forwarded
    | cons now rest =>
      have onward : canonicalContentV3 ((forward room rest (hop room now wire)).signable room) =
          canonicalContentV3 ((hop room now wire).signable room) :=
        canonical_forward rest readable (bound_emoji_kept _)
      rw [forward, onward]
      exact canonical_hop room now wire readable
  · intro kept next allowUnsigned
    exact verify_forward hops readable kept next allowUnsigned

def reactionRow (emoji : Text) : WireChatMessage where
  type := .reaction
  id := some (.string (text "m1"))
  senderId := some (.string (text "did:key:z6MkA"))
  senderName := some (.string (text "Ada"))
  senderDid := some (.string (text "did:key:z6MkA"))
  sig := some (.string (text "5a"))
  sigV := some (.number (.finite false 3 0))
  timestamp := some (.number (.finite false 1700000000000 0))
  lamport := some (.number (.finite false 7 0))
  content := some (.string [])
  metadata := none
  replyTo := none
  reactionTo := some (.string (text "m0"))
  reactionEmoji := some (.string emoji)
  reactionOp := some (.string (text "add"))

/-- A receiver whose signature check passes exactly what the author signed. -/
def signedOnly (wire : WireChatMessage) (room : Text) : Receiver where
  clocks := fun _ => 0
  senderPrefix := fun _ => []
  verifySignature := fun _ _ canonical =>
    decide (canonicalContentV3 (wire.signable room) = some canonical)

theorem plain_thumbs_up_verifies :
    verifyIncoming (signedOnly (reactionRow [0xD83D, 0xDC4D]) (text "r1")) (text "r1") false
      (reactionRow [0xD83D, 0xDC4D]) = some .ok ∧
    verifyIncoming (signedOnly (reactionRow [0xD83D, 0xDC4D]) (text "r1")) (text "r1") false
      (forward (text "r1") [1700000000000, 1700000000500] (reactionRow [0xD83D, 0xDC4D])) = some .ok := by
  have accepted : verifyIncoming (signedOnly (reactionRow [0xD83D, 0xDC4D]) (text "r1")) (text "r1") false
      (reactionRow [0xD83D, 0xDC4D]) = some .ok := by decide +kernel
  have kept : EmojiKept (reactionRow [0xD83D, 0xDC4D]).reactionEmoji := by
    simp [reactionRow, EmojiKept, MAX_REACTION_EMOJI, wireControl]
  have again := (forwarded_row_verifies_iff _ _ _ accepted [1700000000000, 1700000000500]
    (by decide)).2 kept (signedOnly (reactionRow [0xD83D, 0xDC4D]) (text "r1")) false
  exact ⟨accepted, again.trans accepted⟩

/-- A reaction whose emoji holds a right-to-left override is accepted and stored
without it; the stored row no longer verifies. -/
theorem stripped_emoji_refused_next :
    ∃ receiver room wire now,
      verifyIncoming receiver room false wire = some .ok ∧
      canonicalContentV3 ((hop room now wire).signable room) ≠
        canonicalContentV3 (wire.signable room) ∧
      verifyIncoming receiver room false (hop room now wire) = some (.refused .badSignature) := by
  refine ⟨signedOnly (reactionRow [0x202E, 0xD83D, 0xDC4D]) (text "r1"), text "r1",
    reactionRow [0x202E, 0xD83D, 0xDC4D], 1700000000000, ?_, ?_, ?_⟩
  · decide +kernel
  · decide +kernel
  · decide +kernel

end AwfulChat.StoreAndForward
