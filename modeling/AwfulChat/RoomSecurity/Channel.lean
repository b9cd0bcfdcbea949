import AwfulChat.Library.Slices
import AwfulChat.RoomSecurity.Envelope
import AwfulChat.RoomSecurity.Replay

/-!
# The room channel

`SecureRoomChannel` of `channel.ts`. Its methods run up to their next await: `receive`
queues a frame, `process` handles the first queued one, and a message that is being sent
goes through sealing, handing over to the stream and the end of that write, one fragment
after the other. A throw inside a handler closes the channel. Besides its fields a
channel here remembers which messages `trySend` took, how each call of it was resolved
and what was delivered.
-/

namespace AwfulChat.RoomSecurity

open Library Option

set_option autoImplicit false

def MAX_ROOM_MESSAGE : Nat := 4 * 1024 * 1024

def CHUNK_BYTES : Nat := 256 * 1024

structure Assembly where
  id : Nat
  total : Nat
  offset : Nat
  bytes : Bytes
  deriving DecidableEq

inductive JobPhase
  | idle
  | sealed (frame : Json)
  | writing

structure SendJob where
  message : Nat
  data : Bytes
  index : Nat
  phase : JobPhase
  handedOver : Bool

inductive SendResult
  | sent
  | unsent
  | failed
  deriving DecidableEq

/-- `pending` are the frames of `processing`, `jobs` the messages of `outgoing`; their
counts and byte sums are those of the source. -/
structure RoomChannel where
  session : MembershipSession
  encryptionKey : Bytes
  sessionId : Text
  replay : ReplayWindow
  sequence : Nat
  closed : Bool
  established : Bool
  receivedSession : Option Text
  pending : List (Option Json × Int)
  replying : Bool
  jobs : List SendJob
  assembly : Option Assembly
  sent : List (Nat × Bytes)
  resolved : List (Option Nat × Bytes × SendResult)
  delivered : List (Nat × Bytes)

def newRoomChannel (session : MembershipSession) (encryptionKey : Bytes) (sessionId : Text) :
    RoomChannel where
  session := session
  encryptionKey := encryptionKey
  sessionId := sessionId
  replay := newReplayWindow
  sequence := 0
  closed := false
  established := false
  receivedSession := none
  pending := []
  replying := false
  jobs := []
  assembly := none
  sent := []
  resolved := []
  delivered := []

def RoomChannel.verified (channel : RoomChannel) : Bool := !channel.closed && channel.established

def RoomChannel.close (channel : RoomChannel) : RoomChannel :=
  if channel.closed then channel
  else { channel with closed := true, assembly := none, session := channel.session.close }

def RoomChannel.pendingBytes (channel : RoomChannel) : Int := (channel.pending.map Prod.snd).sum

def RoomChannel.receive (channel : RoomChannel) (frame : Option Json) (bytes : Int) :
    RoomChannel :=
  if channel.closed then channel
  else if bytes < 0 ∨ 2 * MAX_ROOM_PLAINTEXT < bytes ∨ 32 ≤ channel.pending.length ∨
      4 * MAX_ROOM_PLAINTEXT < channel.pendingBytes + bytes then channel.close
  else { channel with pending := channel.pending ++ [(frame, bytes)] }

def natural (value : Option Json) : Option Nat :=
  (safeInteger value).bind fun value => if 0 ≤ value then some value.toNat else none

/-- The part of a message that one envelope carries. -/
structure Fragment where
  session : Text
  membership : Text
  sequence : Nat
  message : Nat
  offset : Nat
  total : Nat
  data : Bytes
  deriving DecidableEq

/-- The checks of a body that need only the channel's constants. -/
def readFragment (room remotePeer localPeer : Text) (body : Option Json) : Option Fragment := do
  let session ← stringProperty body (text "session")
  let membership ← stringProperty body (text "membership")
  let encoded ← stringProperty body (text "data")
  if stringProperty body (text "sender") ≠ some remotePeer ∨
      stringProperty body (text "recipient") ≠ some localPeer ∨
      stringProperty body (text "room") ≠ some room ∨ session.length ≠ 43 ∨
      session.any (fun unit => (Base64.letterValue unit).isNone) then none
  else
    let sequence ← natural (property body (text "sequence"))
    let data ← Base64.decode encoded
    let message ← natural (property body (text "message"))
    let offset ← natural (property body (text "offset"))
    let total ← natural (property body (text "total"))
    if Base64.encode data ≠ encoded ∨ MAX_ROOM_MESSAGE < total ∨ CHUNK_BYTES < data.length ∨
        total < offset + data.length ∨ (data = [] ∧ total ≠ 0) then none
    else some ⟨session, membership, sequence, message, offset, total, data⟩

/-- The assembly that a fragment goes to. -/
def openAssembly (assembly : Option Assembly) (fragment : Fragment) : Option Assembly :=
  match assembly with
  | some assembly => some assembly
  | none =>
    if fragment.offset ≠ 0 ∨ fragment.message ≠ fragment.sequence then none
    else some
      { id := fragment.message
        total := fragment.total
        offset := 0
        bytes := List.replicate fragment.total 0 }

def Assembly.set (assembly : Assembly) (data : Bytes) : Assembly :=
  { assembly with
    bytes := assembly.bytes.take assembly.offset ++ data ++
      assembly.bytes.drop (assembly.offset + data.length)
    offset := assembly.offset + data.length }

def RoomChannel.store (channel : RoomChannel) (assembly : Assembly) : RoomChannel :=
  if assembly.offset = assembly.total then
    { channel with
      assembly := none
      delivered := channel.delivered ++ [(assembly.id, assembly.bytes)] }
  else { channel with assembly := some assembly }

def RoomChannel.admit (channel : RoomChannel) (fragment : Fragment) : Option RoomChannel :=
  if channel.session.binding ≠ some fragment.membership then none
  else if channel.receivedSession ≠ none ∧ channel.receivedSession ≠ some fragment.session then none
  else if !(channel.replay.accept fragment.sequence).1 then none
  else
    match openAssembly channel.assembly fragment with
    | none => none
    | some assembly =>
      if assembly.id ≠ fragment.message ∨ assembly.total ≠ fragment.total ∨
          assembly.offset ≠ fragment.offset then none
      else some (RoomChannel.store
        { channel with
          replay := (channel.replay.accept fragment.sequence).2
          receivedSession := some fragment.session }
        (assembly.set fragment.data))

section Crypto

variable (crypto : RoomCrypto) (log : List EncryptCall)

/-- The handling of a frame once the channel is established. -/
def RoomChannel.takeData (channel : RoomChannel) (frame : Option Json) : Option RoomChannel := do
  let raw ← openRoomEnvelope crypto log channel.encryptionKey channel.session.keys.discoveryId frame
  if stringProperty frame (text "sender") ≠ some channel.session.remotePeer ∨
      stringProperty frame (text "kind") ≠ some (text "direct") then none
  else
    let body ← Json.parse (Text.decodeUtf8 raw)
    let fragment ← readFragment channel.session.keys.discoveryId channel.session.remotePeer
      channel.session.localPeer (some body)
    channel.admit fragment

def RoomChannel.finally (channel : RoomChannel) : RoomChannel :=
  { channel with pending := channel.pending.tail, replying := false }

def RoomChannel.settle (channel : RoomChannel) : RoomChannel :=
  if channel.closed then channel
  else if channel.session.state = .verified then { channel with established := true }
  else channel

structure Processed where
  channel : RoomChannel
  reply : Option Json
  made : Option Bytes
  checked : Option Bytes

def Processed.quiet (channel : RoomChannel) : Processed where
  channel := channel
  reply := none
  made := none
  checked := none

def RoomChannel.takeHandshake (hmac : Hmac) (now : Int) (channel : RoomChannel)
    (frame : Option Json) : Processed :=
  let outcome := channel.session.receive hmac now frame
  let spoken := { channel with session := outcome.session }
  { channel :=
      if outcome.thrown then spoken.close.finally
      else if outcome.reply.isSome then { spoken with replying := true }
      else spoken.settle.finally
    reply := outcome.reply
    made := outcome.made
    checked := outcome.checked }

/-- The handling of the first queued frame, up to the reply it writes. -/
def RoomChannel.process (hmac : Hmac) (now : Int) (channel : RoomChannel) : Option Processed :=
  match channel.pending with
  | [] => none
  | (frame, bytes) :: _ =>
    if channel.replying then none
    else if channel.closed then some (Processed.quiet channel.finally)
    else if !channel.established then
      if 2048 < bytes then some (Processed.quiet channel.close.finally)
      else some (channel.takeHandshake hmac now frame)
    else
      match channel.takeData crypto log frame with
      | none => some (Processed.quiet channel.close.finally)
      | some next => some (Processed.quiet next.finally)

/-- The write of a reply ended, well or with a throw. -/
def RoomChannel.replied (channel : RoomChannel) (ok : Bool) : Option RoomChannel :=
  if !channel.replying then none
  else if ok then some channel.settle.finally
  else some channel.close.finally

def fragmentCount (data : Bytes) : Nat := sliceCount data.length CHUNK_BYTES

def RoomChannel.outgoingBytes (channel : RoomChannel) : Nat :=
  (channel.jobs.map fun job => job.data.length).sum

/-- The answer of a `trySend`, under the number of its message if it was taken. -/
def RoomChannel.resolve (channel : RoomChannel) (message : Option Nat) (data : Bytes)
    (result : SendResult) : RoomChannel :=
  { channel with resolved := channel.resolved ++ [(message, data, result)] }

def RoomChannel.trySend (channel : RoomChannel) (data : Bytes) : RoomChannel :=
  if !channel.verified then channel.resolve none data .unsent
  else if MAX_ROOM_MESSAGE < data.length ∨
      MAX_SAFE_INTEGER - fragmentCount data < channel.sequence ∨ 32 ≤ channel.jobs.length ∨
      4 * MAX_ROOM_PLAINTEXT < channel.outgoingBytes + data.length then
    channel.resolve none data .failed
  else
    { channel with
      sequence := channel.sequence + fragmentCount data
      sent := channel.sent ++ [(channel.sequence, data)]
      jobs := channel.jobs ++
        [{ message := channel.sequence
           data := data
           index := 0
           phase := .idle
           handedOver := false }] }

def jsonCount (value : Nat) : Json := .number (.finite false value 0)

def fragmentBody (room sender recipient : Text) (fragment : Fragment) : Json :=
  .object [(text "room", .string room), (text "sender", .string sender),
    (text "recipient", .string recipient), (text "session", .string fragment.session),
    (text "membership", .string fragment.membership),
    (text "sequence", jsonCount fragment.sequence), (text "message", jsonCount fragment.message),
    (text "offset", jsonCount fragment.offset), (text "total", jsonCount fragment.total),
    (text "data", .string (Base64.encode fragment.data))]

def messageFragment (sessionId membership : Text) (message : Nat) (data : Bytes) (index : Nat) :
    Fragment where
  session := sessionId
  membership := membership
  sequence := message + index
  message := message
  offset := index * CHUNK_BYTES
  total := data.length
  data := sliceAt data CHUNK_BYTES index

def fragmentBytes (session : MembershipSession) (fragment : Fragment) : Bytes :=
  Text.encodeUtf8 (Json.stringify (fragmentBody session.keys.discoveryId session.localPeer
    session.remotePeer fragment))

/-- The first message cannot be sent on: its call is resolved and the channel closed. -/
def RoomChannel.failJob (channel : RoomChannel) (job : SendJob) : RoomChannel :=
  RoomChannel.close
    { channel.resolve (some job.message) job.data (if job.handedOver then .failed else .unsent) with
      jobs := channel.jobs.tail }

/-- The next fragment of the first message, sealed; with it the call it made. -/
def RoomChannel.sealNext (channel : RoomChannel) (salt : Bytes) :
    Option (RoomChannel × Option EncryptCall) :=
  match channel.jobs with
  | [] => none
  | job :: rest =>
    match job.phase, channel.verified, channel.session.binding with
    | .idle, true, some binding =>
      match sealRoomEnvelope crypto channel.encryptionKey channel.session.keys.discoveryId
          channel.session.localPeer (text "direct") salt (fragmentBytes channel.session
            (messageFragment channel.sessionId binding job.message job.data job.index)) with
      | none => some (channel.failJob job, none)
      | some (call, frame) =>
        some ({ channel with jobs := { job with phase := .sealed frame } :: rest }, some call)
    | .idle, _, _ => some (channel.failJob job, none)
    | _, _, _ => none

end Crypto

/-- The sealed fragment goes to the stream, which may refuse it. -/
def RoomChannel.handOver (channel : RoomChannel) (accepted : Bool) :
    Option (RoomChannel × Option Json) :=
  match channel.jobs with
  | [] => none
  | job :: rest =>
    match job.phase with
    | .sealed frame =>
      if !channel.verified then some (channel.failJob job, none)
      else if accepted then
        some ({ channel with jobs := { job with phase := .writing, handedOver := true } :: rest },
          some frame)
      else some (channel.failJob { job with handedOver := true }, none)
    | _ => none

/-- The write of a fragment ended, well or with a throw. -/
def RoomChannel.written (channel : RoomChannel) (ok : Bool) : Option RoomChannel :=
  match channel.jobs with
  | [] => none
  | job :: rest =>
    match job.phase with
    | .writing =>
      if !ok then some (channel.failJob job)
      else if job.index + 1 < fragmentCount job.data then
        some { channel with jobs := { job with phase := .idle, index := job.index + 1 } :: rest }
      else some { channel.resolve (some job.message) job.data .sent with jobs := rest }
    | _ => none

/-- The counts of a fragment fit the numbers of the language. -/
structure Fragment.Counted (fragment : Fragment) : Prop where
  sequence : fragment.sequence < 2 ^ 53
  message : fragment.message < 2 ^ 53
  offset : fragment.offset < 2 ^ 53
  total : fragment.total < 2 ^ 53

theorem natural_count {value : Nat} (small : value < 2 ^ 53) :
    natural (some (jsonCount value)) = some value := by
  have whole : integer (.finite false value 0) = some (value : Int) := by simp [integer]
  have bounded : -MAX_SAFE_INTEGER ≤ (value : Int) ∧ (value : Int) ≤ MAX_SAFE_INTEGER := by
    unfold MAX_SAFE_INTEGER
    omega
  rw [natural, jsonCount, safeInteger, whole, filter_some, if_pos (decide_eq_true bounded),
    bind_some, if_pos (Int.natCast_nonneg value), Int.toNat_natCast]

def fragmentFields (room sender recipient : Text) (fragment : Fragment)
    (counted : fragment.Counted) : List (Text × Json.Atom) :=
  [(text "room", .string room), (text "sender", .string sender),
    (text "recipient", .string recipient), (text "session", .string fragment.session),
    (text "membership", .string fragment.membership),
    (text "sequence", .nat ⟨fragment.sequence, counted.sequence⟩),
    (text "message", .nat ⟨fragment.message, counted.message⟩),
    (text "offset", .nat ⟨fragment.offset, counted.offset⟩),
    (text "total", .nat ⟨fragment.total, counted.total⟩),
    (text "data", .string (Base64.encode fragment.data))]

variable {fragment : Fragment}

theorem fragment_body_record (room sender recipient : Text)
    (counted : fragment.Counted) : fragmentBody room sender recipient fragment =
      Json.record (fragmentFields room sender recipient fragment counted) := rfl

theorem fragment_names (room sender recipient : Text) (counted : fragment.Counted) :
    ((fragmentFields room sender recipient fragment counted).map Prod.fst).Nodup := by
  have names : [text "room", text "sender", text "recipient", text "session", text "membership",
      text "sequence", text "message", text "offset", text "total", text "data"].Nodup := by
    decide +kernel
  exact names

theorem parse_fragment_bytes {session : MembershipSession} (counted : fragment.Counted) :
    Json.parse (Text.decodeUtf8 (fragmentBytes session fragment)) =
      some (fragmentBody session.keys.discoveryId session.localPeer session.remotePeer
        fragment) := by
  rw [fragmentBytes, fragment_body_record _ _ _ counted]
  exact Json.parse_record_bytes (List.cons_ne_nil _ _) (fragment_names _ _ _ counted)

theorem fragment_properties (room sender recipient : Text) (fragment : Fragment) :
    stringProperty (some (fragmentBody room sender recipient fragment)) (text "room") =
        some room ∧
      stringProperty (some (fragmentBody room sender recipient fragment)) (text "sender") =
        some sender ∧
      stringProperty (some (fragmentBody room sender recipient fragment)) (text "recipient") =
        some recipient ∧
      stringProperty (some (fragmentBody room sender recipient fragment)) (text "session") =
        some fragment.session ∧
      stringProperty (some (fragmentBody room sender recipient fragment)) (text "membership") =
        some fragment.membership ∧
      stringProperty (some (fragmentBody room sender recipient fragment)) (text "data") =
        some (Base64.encode fragment.data) :=
  ⟨rfl, rfl, rfl, rfl, rfl, rfl⟩

theorem fragment_counts (room sender recipient : Text) (fragment : Fragment) :
    property (some (fragmentBody room sender recipient fragment)) (text "sequence") =
        some (jsonCount fragment.sequence) ∧
      property (some (fragmentBody room sender recipient fragment)) (text "message") =
        some (jsonCount fragment.message) ∧
      property (some (fragmentBody room sender recipient fragment)) (text "offset") =
        some (jsonCount fragment.offset) ∧
      property (some (fragmentBody room sender recipient fragment)) (text "total") =
        some (jsonCount fragment.total) :=
  ⟨rfl, rfl, rfl, rfl⟩

theorem read_fragment_body {room remotePeer localPeer otherRoom sender recipient : Text}
    (counted : fragment.Counted) :
    readFragment room remotePeer localPeer
        (some (fragmentBody otherRoom sender recipient fragment)) =
      if sender ≠ remotePeer ∨ recipient ≠ localPeer ∨ otherRoom ≠ room ∨
          fragment.session.length ≠ 43 ∨
          fragment.session.any (fun unit => (Base64.letterValue unit).isNone) then none
      else if MAX_ROOM_MESSAGE < fragment.total ∨ CHUNK_BYTES < fragment.data.length ∨
          fragment.total < fragment.offset + fragment.data.length ∨
          (fragment.data = [] ∧ fragment.total ≠ 0) then none
      else some fragment := by
  obtain ⟨roomRead, senderRead, recipientRead, sessionRead, membershipRead, dataRead⟩ :=
    fragment_properties otherRoom sender recipient fragment
  obtain ⟨sequenceRead, messageRead, offsetRead, totalRead⟩ :=
    fragment_counts otherRoom sender recipient fragment
  simp only [readFragment, roomRead, senderRead, recipientRead, sessionRead, membershipRead,
    dataRead, sequenceRead, messageRead, offsetRead, totalRead, natural_count counted.sequence,
    natural_count counted.message, natural_count counted.offset, natural_count counted.total,
    Base64.decode_encode, bind_eq_bind, bind_some, ne_eq, Option.some.injEq,
    not_true_eq_false, false_or]

theorem read_fragment_sound {room remotePeer localPeer otherRoom sender recipient : Text}
    {fragment found : Fragment} (counted : fragment.Counted)
    (read : readFragment room remotePeer localPeer
      (some (fragmentBody otherRoom sender recipient fragment)) = some found) :
    found = fragment ∧ sender = remotePeer := by
  rw [read_fragment_body counted] at read
  split at read
  · cases read
  · rename_i addressed
    split at read
    · cases read
    · simp only [not_or, ne_eq, Decidable.not_not] at addressed
      exact ⟨(Option.some.inj read).symm, addressed.1⟩

end AwfulChat.RoomSecurity
