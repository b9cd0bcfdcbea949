import AwfulChat.RoomSecurity.ChannelIntegrity
import AwfulChat.RoomSecurity.ChannelReceiver

/-!
# Delivery over a room channel

Two ends of one handshake: one sends messages, may fail and close at any time, and its
stream brings the other what it handed over, cut into chunks in any way. Sending and
receiving take turns in any order.
-/

namespace AwfulChat.RoomSecurity

open Library Library.Framing List Option Bool

set_option autoImplicit false

/-- A channel as its handshake leaves it. -/
structure FreshEnd (channel : RoomChannel) : Prop where
  verified : channel.session.state = .verified
  reached : channel.session.reached = some channel.session.transcript
  fresh : ∃ random : Bytes, random.length = 32 ∧
    channel = { newRoomChannel channel.session channel.encryptionKey (Base64.encode random) with
      established := true }

/-- Two ends of one handshake. Its transcript was authenticated, so that its peers and its
challenges are valid; the room is one that `deriveRoomKeys` names. -/
structure EstablishedPair (sender receiver : RoomChannel) : Prop where
  senderFresh : FreshEnd sender
  receiverFresh : FreshEnd receiver
  ends : Ends sender receiver
  binding : receiver.session.transcript.binding = sender.session.transcript.binding
  room : sender.session.keys.discoveryId.length = 56
  peers : validPeers sender.session.localPeer sender.session.remotePeer = true
  initiator : validChallenge sender.session.transcript.initiatorChallenge = true
  responder : validChallenge sender.session.transcript.responderChallenge = true

/-- The two ends, the bytes between them and, for each frame that went to the stream, the
number of its message. -/
structure RoomPipe where
  sender : RoomChannel
  calls : List EncryptCall
  handed : List (Nat × Json)
  output : Bytes
  taken : Bytes
  receiver : RoomStream

def newRoomPipe (sender receiver : RoomChannel) : RoomPipe where
  sender := sender
  calls := []
  handed := []
  output := []
  taken := []
  receiver := ⟨[], receiver⟩

inductive PipeEvent
  | trySend (data : Bytes)
  | sealFragment (salt : { salt : Bytes // salt.length = 32 })
  | handOver (isOpen : Bool)
  | written (ok : Bool)
  | close
  | chunk (bytes : Bytes)
  | process (now : Int)

/-- The fragment that is handed over next, under the number of its message. -/
def RoomChannel.front (channel : RoomChannel) : Option (Nat × Json) :=
  match channel.jobs with
  | [] => none
  | job :: _ =>
    match job.phase with
    | .sealed frame => some (job.message, frame)
    | _ => none

/-- The write of a frame; a stream that is not open throws. -/
def RoomPipe.handOver (pipe : RoomPipe) (front : Nat × Json) (bytes : Option Bytes) :
    Option RoomPipe :=
  (pipe.sender.handOver bytes.isSome).map fun next =>
    { pipe with
      sender := next.1
      handed := pipe.handed ++ (next.2.map fun _ => front).toList
      output := pipe.output ++ (next.2.bind fun _ => bytes).getD [] }

def pipeStep (hmac : Hmac) (crypto : RoomCrypto) (pipe : RoomPipe) :
    PipeEvent → Option RoomPipe
  | .trySend data => some { pipe with sender := pipe.sender.trySend data }
  | .sealFragment salt =>
    (pipe.sender.sealNext crypto salt.val).map fun next =>
      { pipe with sender := next.1, calls := pipe.calls ++ next.2.toList }
  | .handOver isOpen =>
    pipe.sender.front.bind fun front =>
      pipe.handOver front (if isOpen then streamWrite front.2 else none)
  | .written ok => (pipe.sender.written ok).map fun next => { pipe with sender := next }
  | .close => some { pipe with sender := pipe.sender.close }
  | .chunk bytes =>
    if pipe.taken ++ bytes <+: pipe.output ∧ bytes.length ≤ 1024 * 1024 then
      some { pipe with taken := pipe.taken ++ bytes, receiver := pipe.receiver.receive bytes }
    else none
  | .process now =>
    (pipe.receiver.channel.process crypto pipe.calls hmac now).map fun processed =>
      { pipe with receiver :=
          { buf := if processed.channel.closed then [] else pipe.receiver.buf
            channel := processed.channel } }

/-- The frames that a chunk completes fit the receiver's queue. -/
def ChunkFits (pipe : RoomPipe) : PipeEvent → Prop
  | .chunk bytes => QueueFits pipe.receiver.channel
      (wholeFrames (pipe.receiver.buf ++ bytes).length (pipe.receiver.buf ++ bytes))
  | _ => True

instance decidableChunkFits (pipe : RoomPipe) : ∀ event, Decidable (ChunkFits pipe event)
  | .chunk bytes => decidableQueueFits pipe.receiver.channel
      (wholeFrames (pipe.receiver.buf ++ bytes).length (pipe.receiver.buf ++ bytes))
  | .trySend _ | .sealFragment _ | .handOver _ | .written _ | .close | .process _ => isTrue trivial

def Frames (crypto : RoomCrypto) (first : RoomChannel) (calls : List EncryptCall)
    (fragment : (Nat × Bytes) × Nat) (frame : Json) : Prop :=
  ∃ call ∈ calls, ∃ salt : Bytes, salt.length = 32 ∧
    sealRoomEnvelope crypto first.encryptionKey first.session.keys.discoveryId
      first.session.localPeer (text "direct") salt (fragmentBytes first.session
        (messageFragment first.sessionId first.session.transcript.binding fragment.1.1
          fragment.1.2 fragment.2)) = some (call, frame)

def Carried (crypto : RoomCrypto) (first : RoomChannel) (calls : List EncryptCall)
    (fragment : (Nat × Bytes) × Nat) (entry : Nat × Json) : Prop :=
  entry.1 = fragment.1.1 ∧ Frames crypto first calls fragment entry.2

structure SenderSide (crypto : RoomCrypto) (first : RoomChannel) (pipe : RoomPipe)
    (done failed : List (Nat × Bytes)) (part : List ((Nat × Bytes) × Nat)) : Prop where
  session : SameSession first pipe.sender
  opened : pipe.sender.closed = false → pipe.sender.session = first.session
  progress : Progress (Frames crypto first pipe.calls) pipe.sender done failed part
  handed : List.Forall₂ (Carried crypto first pipe.calls) (rowOf done ++ part) pipe.handed
  output : pipe.output = rowBytes (pipe.handed.map Prod.snd)

/-- The receiver has processed some of the frames that were handed over, has some queued,
and is to be brought the rest. -/
structure ReceiverSide (first second : RoomChannel) (pipe : RoomPipe)
    (whole : List (Nat × Bytes)) (index : Nat) (processed queued later : List Json)
    (rest : Bytes) : Prop where
  running : pipe.receiver.channel.closed = false
  established : pipe.receiver.channel.established = true
  replying : pipe.receiver.channel.replying = false
  session : pipe.receiver.channel.session = second.session
  encryptionKey : pipe.receiver.channel.encryptionKey = second.encryptionKey
  receivedSession : pipe.receiver.channel.receivedSession = none ∨
    pipe.receiver.channel.receivedSession = some first.sessionId
  receiving : Receiving pipe.receiver.channel pipe.sender.sent whole index
  frames : pipe.handed.map Prod.snd = processed ++ (queued ++ later)
  place : processed.length = (rowOf whole).length + index
  pending : pipe.receiver.channel.pending =
    queued.map fun frame => (some frame, ((frameText frame).length : Int))
  output : pipe.output = pipe.taken ++ rest
  buffer : pipe.receiver.buf ++ rest = rowBytes later
  incomplete : Incomplete pipe.receiver.buf later

structure PipeInv (crypto : RoomCrypto) (first second : RoomChannel) (pipe : RoomPipe) : Prop where
  sender : ∃ done failed part, SenderSide crypto first pipe done failed part
  receiver : ∃ whole index processed queued later rest,
    ReceiverSide first second pipe whole index processed queued later rest

section Pair

variable {sender receiver : RoomChannel} (pair : EstablishedPair sender receiver)
include pair

theorem EstablishedPair.framed : FramedEnd sender sender.session.transcript.binding where
  room := pair.room
  localPeer := by
    have peers := pair.peers
    simp only [validPeers, and_eq_true, decide_eq_true_eq] at peers
    exact peers.1.1.1.1
  localShort := by
    have peers := pair.peers
    simp only [validPeers, and_eq_true, decide_eq_true_eq] at peers
    exact peers.1.2
  remoteShort := by
    have peers := pair.peers
    simp only [validPeers, and_eq_true, decide_eq_true_eq] at peers
    exact peers.2
  sessionId := by
    obtain ⟨random, length, same⟩ := pair.senderFresh.fresh
    refine ⟨random, length, ?_⟩
    rw [same]
    rfl
  binding := by
    rw [MembershipTranscript.binding, length_append, length_cons,
      challenge_length pair.initiator, challenge_length pair.responder]

end Pair

variable {channel : RoomChannel}

theorem FreshEnd.fields (fresh : FreshEnd channel) :
    channel.sequence = 0 ∧ channel.sent = [] ∧ channel.jobs = [] ∧ channel.resolved = [] ∧
      channel.closed = false ∧ channel.established = true := by
  obtain ⟨random, _, same⟩ := fresh.fresh
  rw [same]
  exact ⟨rfl, rfl, rfl, rfl, rfl, rfl⟩

theorem FreshEnd.quiet (fresh : FreshEnd channel) :
    channel.pending = [] ∧ channel.replying = false ∧ channel.receivedSession = none ∧
      channel.assembly = none ∧ channel.delivered = [] ∧ channel.replay = newReplayWindow := by
  obtain ⟨random, _, same⟩ := fresh.fresh
  rw [same]
  exact ⟨rfl, rfl, rfl, rfl, rfl, rfl⟩

theorem fresh_progress {fits : (Nat × Bytes) × Nat → Json → Prop} (fresh : FreshEnd channel)
    (peers : channel.session.localPeer ≠ channel.session.remotePeer) :
    Progress fits channel [] [] [] := by
  obtain ⟨sequence, sent, jobs, resolved, _, _⟩ := fresh.fields
  exact {
    sound :=
      { reached := fun _ => ⟨_, fresh.reached⟩
        opened := fun _ => fresh.verified
        peers := peers
        apart := by simp [sent]
        below := by simp [sent]
        small := by simp [sent]
        counted := by simp [sequence]
        jobs := by simp [jobs] }
    numbered := by
      intro before message after same
      simp [sent] at same
    counted := by simp [sequence, sent, rowOf]
    sent := by simp [sent, jobs]
    finished := by simp [RoomChannel.finished, resolved]
    unsent := by simp [resolved]
    current := .idle jobs }

theorem new_pipe_inv (crypto : RoomCrypto) {sender receiver : RoomChannel}
    (pair : EstablishedPair sender receiver) :
    PipeInv crypto sender receiver (newRoomPipe sender receiver) where
  sender := by
    have peers := pair.peers
    simp only [validPeers, and_eq_true, decide_eq_true_eq] at peers
    exact ⟨[], [], [], SameSession.refl sender, fun _ => rfl,
      fresh_progress pair.senderFresh peers.1.1.2, .nil, rfl⟩
  receiver := by
    obtain ⟨_, _, _, _, running, established⟩ := pair.receiverFresh.fields
    obtain ⟨pending, replying, receivedSession, assembly, delivered, replay⟩ :=
      pair.receiverFresh.quiet
    refine ⟨[], 0, [], [], [], [], running, established, replying, rfl, rfl, Or.inl receivedSession,
      ⟨delivered, nil_prefix, fun _ => assembly, by rintro ⟨⟩, ?_⟩, rfl, rfl, pending, rfl, rfl,
      Or.inl rfl⟩
    show receiver.replay.highest = _
    rw [replay]
    rfl

theorem closed_still {channel after : RoomChannel} (closed : after.closed = true) :
    after.closed = false → after.session = channel.session := by
  intro running
  rw [closed] at running
  cases running

section Sender

variable {crypto : RoomCrypto} {first second next : RoomChannel} {pipe : RoomPipe}
  {done failed : List (Nat × Bytes)} {part : List ((Nat × Bytes) × Nat)}

variable {fragment : (Nat × Bytes) × Nat}

theorem Frames.later {calls more : List EncryptCall} {frame : Json}
    (frames : Frames crypto first calls fragment frame) (known : ∀ call ∈ calls, call ∈ more) :
    Frames crypto first more fragment frame := by
  obtain ⟨call, mem, rest⟩ := frames
  exact ⟨call, known call mem, rest⟩

theorem SenderSide.moves (side : SenderSide crypto first pipe done failed part)
    (moves : SendMoves pipe.sender next)
    (still : next.closed = false → next.session = pipe.sender.session) :
    SameSession first next ∧ (next.closed = false → next.session = first.session) := by
  refine ⟨side.session.trans moves.session, ?_⟩
  intro running
  have ran : pipe.sender.closed = false := by
    by_contra closed
    rw [moves.closed (by simpa using closed)] at running
    cases running
  rw [still running, side.opened ran]

variable {call : Option EncryptCall}

theorem seal_next_still {channel : RoomChannel} {salt : Bytes}
    (sealed : channel.sealNext crypto salt = some (next, call)) :
    next.closed = false → next.session = channel.session := by
  obtain ⟨job, _, _, _, ⟨rfl, _⟩ | ⟨_, _, _, _, _, _, _, rfl⟩⟩ := seal_next_cases sealed
  · exact closed_still (close_closed _)
  · exact fun _ => rfl

theorem hand_over_still {channel : RoomChannel} {accepted : Bool} {frame : Option Json}
    (handed : channel.handOver accepted = some (next, frame)) :
    next.closed = false → next.session = channel.session := by
  obtain ⟨_, _, _, _, _, ⟨_, _, _, rfl⟩ | ⟨_, _, rfl⟩⟩ := hand_over_cases handed
  · exact closed_still (close_closed _)
  · exact fun _ => rfl

theorem written_still {channel : RoomChannel} {ok : Bool}
    (written : channel.written ok = some next) :
    next.closed = false → next.session = channel.session := by
  obtain ⟨_, _, _, _, rfl | ⟨_, rfl⟩ | ⟨_, rfl⟩⟩ := written_cases written
  · exact closed_still (close_closed _)
  · exact fun _ => rfl
  · exact fun _ => rfl

theorem try_send_still (channel : RoomChannel) (data : Bytes) :
    (channel.trySend data).session = channel.session := by
  obtain ⟨_, _, same⟩ | ⟨_, _, _, same⟩ := try_send_cases channel data
  · rw [same]
    rfl
  · rw [same]

theorem SenderSide.trySend (side : SenderSide crypto first pipe done failed part) (data : Bytes) :
    SenderSide crypto first { pipe with sender := pipe.sender.trySend data } done failed part := by
  obtain ⟨session, opened⟩ := side.moves (try_send_moves pipe.sender data)
    fun _ => try_send_still pipe.sender data
  exact ⟨session, opened, side.progress.trySend data, side.handed, side.output⟩

theorem SenderSide.sealNext (side : SenderSide crypto first pipe done failed part)
    (verified : first.session.state = .verified) {salt : Bytes} (salted : salt.length = 32)
    (sealed : pipe.sender.sealNext crypto salt = some (next, call)) :
    ∃ failed, SenderSide crypto first
      { pipe with sender := next, calls := pipe.calls ++ call.toList } done failed part := by
  obtain ⟨session, opened⟩ := side.moves (seal_next_moves sealed) (seal_next_still sealed)
  have known : ∀ made ∈ pipe.calls, made ∈ pipe.calls ++ call.toList := by
    intro made mem
    exact mem_append_left _ mem
  have progress := side.progress.mono fun fragment frame frames => Frames.later frames known
  obtain ⟨failed', sealing⟩ := progress.sealNext sealed (by
    intro message data index binding made frame running _ _ bound called enveloped
    have same := side.opened ((verified_iff _).mp running).1
    rw [same, side.session.encryptionKey, side.session.sessionId] at enveloped
    rw [same, MembershipSession.binding, if_pos verified] at bound
    obtain rfl := Option.some.inj bound
    exact ⟨made, by simp [called], salt, salted, enveloped⟩)
  refine ⟨failed', session, opened, sealing, ?_, side.output⟩
  exact side.handed.imp fun _ _ carried => ⟨carried.1, carried.2.later known⟩

theorem SenderSide.written (side : SenderSide crypto first pipe done failed part) {ok : Bool}
    (written : pipe.sender.written ok = some next) :
    ∃ done failed part, SenderSide crypto first { pipe with sender := next } done failed part := by
  obtain ⟨session, opened⟩ := side.moves (written_moves written) (written_still written)
  obtain ⟨done', failed', part', progress, same⟩ := side.progress.written written
  exact ⟨done', failed', part', session, opened, progress, same ▸ side.handed, side.output⟩

theorem SenderSide.close (side : SenderSide crypto first pipe done failed part) :
    SenderSide crypto first { pipe with sender := pipe.sender.close } done failed part := by
  obtain ⟨session, opened⟩ := side.moves (close_moves pipe.sender) (closed_still (close_closed _))
  exact ⟨session, opened, side.progress.close, side.handed, side.output⟩

theorem sent_counted (progress : Progress (Frames crypto first pipe.calls) pipe.sender done failed
    part) {message : Nat × Bytes} (sent : message ∈ pipe.sender.sent) {index : Nat}
    (inside : index < fragmentCount message.2) (session membership : Text) :
    (messageFragment session membership message.1 message.2 index).Counted :=
  sent_fragment_counted progress.sound sent inside session membership

theorem row_inside {messages : List (Nat × Bytes)} (mem : fragment ∈ rowOf messages) :
    fragment.1 ∈ messages ∧ fragment.2 < fragmentCount fragment.1.2 := by
  obtain ⟨message, known, inside⟩ := mem_flatMap.mp mem
  obtain ⟨index, range, rfl⟩ := mem_map.mp inside
  exact ⟨known, mem_range.mp range⟩

theorem SenderSide.framed (side : SenderSide crypto first pipe done failed part)
    (framed : FramedEnd first first.session.transcript.binding)
    (mem : fragment ∈ rowOf pipe.sender.sent) {frame : Json}
    (frames : Frames crypto first pipe.calls fragment frame) : Framed frame := by
  obtain ⟨known, inside⟩ := row_inside mem
  obtain ⟨call, _, salt, salted, enveloped⟩ := frames
  have counted := sent_counted side.progress known inside first.sessionId
    first.session.transcript.binding
  obtain ⟨made, fit, sealed, good⟩ := fragment_fits crypto framed counted salted
  rw [enveloped] at sealed
  obtain ⟨_, rfl⟩ := Prod.mk.inj (Option.some.inj sealed)
  exact good

theorem SenderSide.handOver (side : SenderSide crypto first pipe done failed part)
    (framed : FramedEnd first first.session.transcript.binding) {front : Nat × Json}
    (found : pipe.sender.front = some front) {isOpen : Bool} {after : RoomPipe}
    (handed : pipe.handOver front (if isOpen then streamWrite front.2 else none) = some after) :
    (∃ done failed part, SenderSide crypto first after done failed part) ∧
      after.receiver = pipe.receiver ∧ after.taken = pipe.taken ∧
      pipe.sender.sent <+: after.sender.sent ∧
      ∃ more, after.handed = pipe.handed ++ more ∧
        after.output = pipe.output ++ rowBytes (more.map Prod.snd) := by
  obtain ⟨⟨next, frame⟩, stepped, rfl⟩ := map_eq_some_iff.mp handed
  have moves := hand_over_moves stepped
  obtain ⟨session, opened⟩ := side.moves moves (hand_over_still stepped)
  rcases side.progress.handOver stepped with ⟨rfl, failed', progress⟩ |
    ⟨job, rest, made, queue, phase, rfl, accepted, fits, progress⟩
  · refine ⟨⟨done, failed', part, session, opened, progress, ?_, ?_⟩, rfl, rfl, moves.sent, [], rfl,
      rfl⟩
    · simpa using side.handed
    · simpa using side.output
  · have item : front = (job.message, made) := by
      rw [RoomChannel.front, queue] at found
      simpa [phase] using found.symm
    subst item
    obtain ⟨known, inside⟩ := side.progress.sound.jobs job (by rw [queue]; exact mem_cons_self)
    have mem : (job.key, job.index) ∈ rowOf pipe.sender.sent :=
      mem_flatMap.mpr ⟨job.key, known, mem_map_of_mem (mem_range.mpr inside)⟩
    have bytes : (if isOpen then streamWrite made else none) = some (frameOf (frameText made)) := by
      cases isOpen with
      | false => cases accepted
      | true => exact framed_written (side.framed framed mem fits)
    have output : pipe.output ++ frameOf (frameText made) =
        rowBytes ((pipe.handed ++ [(job.message, made)]).map Prod.snd) := by
      rw [side.output]
      simp [rowBytes]
    simp only [bytes, map_some, toList_some, bind_some, getD_some]
    refine ⟨⟨done, failed, part ++ [(job.key, job.index)], session, opened, progress, ?_, output⟩,
      trivial, trivial, moves.sent, [(job.message, made)], rfl, by simp [rowBytes]⟩
    rw [← append_assoc]
    exact rel_append side.handed (.cons ⟨rfl, fits⟩ .nil)

end Sender

section Receiver

variable {crypto : RoomCrypto} {first second : RoomChannel} {pipe after : RoomPipe}
  {whole : List (Nat × Bytes)} {index : Nat} {processed queued later : List Json} {rest : Bytes}

theorem Incomplete.grow {buffer : Bytes} {frames : List Json} (incomplete : Incomplete buffer frames)
    (more : List Json) : Incomplete buffer (frames ++ more) := by
  rcases incomplete with nothing | ⟨frame, others, rfl, short⟩
  · exact Or.inl nothing
  · exact Or.inr ⟨frame, others ++ more, rfl, short⟩

theorem ReceiverSide.grow
    (side : ReceiverSide first second pipe whole index processed queued later rest)
    (same : after.receiver = pipe.receiver) (taken : after.taken = pipe.taken)
    (sent : pipe.sender.sent <+: after.sender.sent) {more : List (Nat × Json)}
    (handed : after.handed = pipe.handed ++ more)
    (output : after.output = pipe.output ++ rowBytes (more.map Prod.snd)) :
    ReceiverSide first second after whole index processed queued (later ++ more.map Prod.snd)
      (rest ++ rowBytes (more.map Prod.snd)) where
  running := same ▸ side.running
  established := same ▸ side.established
  replying := same ▸ side.replying
  session := same ▸ side.session
  encryptionKey := same ▸ side.encryptionKey
  receivedSession := same ▸ side.receivedSession
  receiving := same ▸ side.receiving.grow sent
  frames := by
    rw [handed, map_append, side.frames]
    simp only [append_assoc]
  place := side.place
  pending := same ▸ side.pending
  output := by
    rw [output, side.output, taken, append_assoc]
  buffer := by
    rw [same, ← append_assoc, side.buffer]
    simp [rowBytes]
  incomplete := by
    rw [same]
    exact side.incomplete.grow _

theorem Receiving.same {channel next : RoomChannel} {sent : List (Nat × Bytes)}
    (receiving : Receiving channel sent whole index) (delivered : next.delivered = channel.delivered)
    (assembly : next.assembly = channel.assembly) (replay : next.replay = channel.replay) :
    Receiving next sent whole index where
  delivered := delivered.trans receiving.delivered
  front := receiving.front
  idle := fun begun => assembly.trans (receiving.idle begun)
  partly := by
    rw [assembly]
    exact receiving.partly
  window := by
    rw [replay]
    exact receiving.window

theorem ReceiverSide.chunk
    (side : ReceiverSide first second pipe whole index processed queued later rest)
    (framed : ∀ frame ∈ later, Framed frame) {bytes : Bytes}
    (next : pipe.taken ++ bytes <+: pipe.output) (small : bytes.length ≤ 1024 * 1024)
    (fits : ChunkFits pipe (.chunk bytes)) :
    ∃ queued later rest, ReceiverSide first second
      { pipe with taken := pipe.taken ++ bytes, receiver := pipe.receiver.receive bytes }
      whole index processed queued later rest := by
  obtain ⟨beyond, split⟩ := next
  have remaining : rest = bytes ++ beyond := by
    have same := side.output
    rw [← split, append_assoc] at same
    exact (append_cancel_left same).symm
  have buffer := side.buffer
  rw [remaining] at buffer
  obtain ⟨count, left, received, row, incomplete⟩ :=
    receive_row side.running framed buffer side.incomplete small fits
  refine ⟨queued ++ later.take count, later.drop count, beyond, ?_⟩
  exact {
    running := by
      rw [received]
      exact side.running
    established := by
      rw [received]
      exact side.established
    replying := by
      rw [received]
      exact side.replying
    session := by
      rw [received]
      exact side.session
    encryptionKey := by
      rw [received]
      exact side.encryptionKey
    receivedSession := by
      rw [received]
      exact side.receivedSession
    receiving := by
      rw [received]
      exact side.receiving.same rfl rfl rfl
    frames := by
      show pipe.handed.map Prod.snd = _
      rw [side.frames, append_assoc, take_append_drop]
    place := side.place
    pending := by
      rw [received]
      show pipe.receiver.channel.pending ++ _ = _
      rw [side.pending, map_append]
    output := split.symm
    buffer := by
      rw [received]
      exact row
    incomplete := by
      rw [received]
      exact incomplete }

variable {part : List ((Nat × Bytes) × Nat)} {done failed : List (Nat × Bytes)}

theorem ReceiverSide.next {frame : Json} {others : List Json}
    (side : ReceiverSide first second pipe whole index processed (frame :: others) later rest)
    (sending : SenderSide crypto first pipe done failed part) :
    ∃ message, whole ++ [message] <+: pipe.sender.sent ∧ index < fragmentCount message.2 ∧
      Frames crypto first pipe.calls (message, index) frame := by
  have bound : processed.length < pipe.handed.length := by
    have count := congrArg List.length side.frames
    simp only [length_map, length_append, length_cons] at count
    omega
  have lengths := sending.handed.length_eq
  have found : pipe.handed[processed.length].2 = frame := by
    have at_place := congrArg (fun list => list[processed.length]?) side.frames
    simpa [List.getElem?_append_right, bound] using at_place
  have carried := sending.handed.get (by omega : processed.length < (rowOf done ++ part).length) bound
  have row := sending.progress.front
  have inside : processed.length < (rowOf pipe.sender.sent).length :=
    Nat.lt_of_lt_of_le (by omega) row.length_le
  obtain ⟨message, front, begun, there⟩ := side.receiving.next (side.place ▸ inside)
  refine ⟨message, front, begun, ?_⟩
  rw [← side.place] at there
  have fragment : (rowOf done ++ part)[processed.length]? = some (message, index) := by
    obtain ⟨beyond, same⟩ := row
    rw [← there, ← same]
    exact (List.getElem?_append_left (by omega)).symm
  rw [List.getElem?_eq_getElem (by omega), Option.some.injEq] at fragment
  simp only [get_eq_getElem, fragment] at carried
  exact found ▸ carried.2

theorem ReceiverSide.process (hmac : Hmac) (now : Int)
    (side : ReceiverSide first second pipe whole index processed queued later rest)
    (sending : SenderSide crypto first pipe done failed part) (pair : EstablishedPair first second)
    {outcome : Processed}
    (handled : pipe.receiver.channel.process crypto pipe.calls hmac now = some outcome) :
    outcome.channel.closed = false ∧ ∃ whole index processed queued,
      ReceiverSide first second
        { pipe with receiver := ⟨pipe.receiver.buf, outcome.channel⟩ }
        whole index processed queued later rest := by
  have pending := side.pending
  have established := side.established
  unfold RoomChannel.process at handled
  cases queued with
  | nil =>
    rw [pending] at handled
    cases handled
  | cons frame others =>
    obtain ⟨message, front, inside, call, known, salt, salted, enveloped⟩ := side.next sending
    have mem : message ∈ pipe.sender.sent := front.subset (by simp)
    have counted := sent_counted sending.progress mem inside first.sessionId
      first.session.transcript.binding
    have ends : Ends first pipe.receiver.channel := by
      obtain ⟨room, encryptionKey, localPeer, remotePeer⟩ := pair.ends
      rw [← side.session] at room localPeer remotePeer
      exact ⟨room, side.encryptionKey.trans encryptionKey, localPeer, remotePeer⟩
    have binding : pipe.receiver.channel.session.binding =
        some first.session.transcript.binding := by
      rw [side.session, MembershipSession.binding, if_pos pair.receiverFresh.verified,
        pair.binding]
    have number : message.1 = (rowOf whole).length := by
      obtain ⟨beyond, split⟩ := front
      rw [append_assoc] at split
      exact sending.progress.numbered whole message beyond split.symm
    have small := sending.progress.sound.small message mem
    obtain ⟨next, admitted, closed, shaken, session, key, queue, replying, received, whole',
      index', receiving, place⟩ := side.receiving.takes ⟨binding, side.receivedSession⟩ front
        inside number
    have taken := take_sent_frame pair.framed ends counted inside small salted known enveloped
    rw [admitted] at taken
    rw [pending, map_cons] at handled
    simp only [side.replying, side.running, established, taken, false_eq_true, if_false,
      Bool.not_true] at handled
    obtain rfl := (Option.some.inj handled).symm
    refine ⟨closed.trans side.running, whole', index', processed ++ [frame], others, ?_⟩
    exact {
      running := closed.trans side.running
      established := shaken.trans established
      replying := rfl
      session := session.trans side.session
      encryptionKey := key.trans side.encryptionKey
      receivedSession := Or.inr received
      receiving := receiving.same rfl rfl rfl
      frames := by
        show pipe.handed.map Prod.snd = _
        rw [side.frames]
        simp
      place := by
        rw [length_append, length_singleton, side.place, place]
      pending := by
        show next.pending.tail = _
        rw [queue, pending]
        rfl
      output := side.output
      buffer := side.buffer
      incomplete := side.incomplete }

end Receiver

section Run

variable {hmac : Hmac} {crypto : RoomCrypto} {first second : RoomChannel} {pipe next : RoomPipe}

theorem PipeInv.sends (inv : PipeInv crypto first second pipe)
    (sender : ∃ done failed part, SenderSide crypto first next done failed part)
    (same : next.receiver = pipe.receiver) (taken : next.taken = pipe.taken)
    (sent : pipe.sender.sent <+: next.sender.sent) {more : List (Nat × Json)}
    (handed : next.handed = pipe.handed ++ more)
    (output : next.output = pipe.output ++ rowBytes (more.map Prod.snd)) :
    PipeInv crypto first second next where
  sender := sender
  receiver := by
    obtain ⟨whole, index, processed, queued, later, rest, side⟩ := inv.receiver
    exact ⟨whole, index, processed, queued, _, _, side.grow same taken sent handed output⟩

theorem later_framed (pair : EstablishedPair first second) {done failed : List (Nat × Bytes)}
    {part : List ((Nat × Bytes) × Nat)} (sending : SenderSide crypto first pipe done failed part)
    {entry : Nat × Json} (mem : entry ∈ pipe.handed) : Framed entry.2 := by
  obtain ⟨place, inside, rfl⟩ := getElem_of_mem mem
  have lengths := sending.handed.length_eq
  have carried := sending.handed.get (by omega : place < (rowOf done ++ part).length) inside
  exact sending.framed pair.framed
    (sending.progress.front.subset (getElem_mem (by omega))) carried.2

theorem pipe_step_keeps (pair : EstablishedPair first second) (pipe : RoomPipe) (event : PipeEvent)
    (next : RoomPipe) (inv : PipeInv crypto first second pipe) (fits : ChunkFits pipe event)
    (stepped : pipeStep hmac crypto pipe event = some next) :
    PipeInv crypto first second next := by
  obtain ⟨done, failed, part, sending⟩ := inv.sender
  cases event with
  | trySend data =>
    obtain rfl := Option.some.inj stepped
    exact inv.sends ⟨_, _, _, sending.trySend data⟩ rfl rfl
      (try_send_moves pipe.sender data).sent (append_nil _).symm (append_nil _).symm
  | sealFragment salt =>
    obtain ⟨⟨channel, call⟩, sealed, rfl⟩ := map_eq_some_iff.mp stepped
    obtain ⟨failed', side⟩ := sending.sealNext pair.senderFresh.verified salt.property sealed
    exact inv.sends ⟨_, _, _, side⟩ rfl rfl (seal_next_moves sealed).sent
      (append_nil _).symm (append_nil _).symm
  | handOver isOpen =>
    obtain ⟨front, found, handed⟩ := bind_eq_some_iff.mp stepped
    obtain ⟨side, same, taken, sent, more, added, output⟩ :=
      sending.handOver pair.framed found handed
    exact inv.sends side same taken sent added output
  | written ok =>
    obtain ⟨channel, written, rfl⟩ := map_eq_some_iff.mp stepped
    exact inv.sends (sending.written written) rfl rfl (written_moves written).sent
      (append_nil _).symm (append_nil _).symm
  | close =>
    obtain rfl := Option.some.inj stepped
    exact inv.sends ⟨_, _, _, sending.close⟩ rfl rfl (close_moves pipe.sender).sent
      (append_nil _).symm (append_nil _).symm
  | chunk bytes =>
    simp only [pipeStep] at stepped
    split at stepped
    · rename_i allowed
      obtain rfl := Option.some.inj stepped
      obtain ⟨whole, index, processed, queued, later, rest, side⟩ := inv.receiver
      have framed : ∀ frame ∈ later, Framed frame := by
        intro frame mem
        have known : frame ∈ pipe.handed.map Prod.snd := by
          rw [side.frames]
          simp [mem]
        obtain ⟨entry, handed, rfl⟩ := mem_map.mp known
        exact later_framed pair sending handed
      obtain ⟨queued', later', rest', side'⟩ := side.chunk framed allowed.1 allowed.2 fits
      exact ⟨⟨done, failed, part, sending.session, sending.opened, sending.progress,
        sending.handed, sending.output⟩, _, _, _, _, _, _, side'⟩
    · cases stepped
  | process now =>
    obtain ⟨outcome, handled, rfl⟩ := map_eq_some_iff.mp stepped
    obtain ⟨whole, index, processed, queued, later, rest, side⟩ := inv.receiver
    obtain ⟨running, whole', index', processed', queued', side'⟩ :=
      side.process hmac now sending pair handled
    simp only [running, false_eq_true, if_false]
    exact ⟨⟨done, failed, part, sending.session, sending.opened, sending.progress,
      sending.handed, sending.output⟩, _, _, _, _, _, _, side'⟩

end Run

/-- What the pipe promises: every fragment is sealed and written; the receiver stays open and
delivers the messages in the order they were taken; once everything handed over has arrived,
it delivered the messages that were answered with `sent` and at most one in flight; and of a
message that was answered with `unsent` nothing was handed over. -/
structure ChannelDelivery (crypto : RoomCrypto) (first : RoomChannel) (pipe : RoomPipe) : Prop where
  fits : ∀ message ∈ pipe.sender.sent, ∀ index, index < fragmentCount message.2 → ∀ salt : Bytes,
    salt.length = 32 → ∃ call frame bytes,
      sealRoomEnvelope crypto first.encryptionKey first.session.keys.discoveryId
        first.session.localPeer (text "direct") salt (fragmentBytes first.session
          (messageFragment first.sessionId first.session.transcript.binding message.1 message.2
            index)) = some (call, frame) ∧
      streamWrite frame = some bytes
  running : pipe.receiver.channel.closed = false
  ordered : pipe.receiver.channel.delivered <+: pipe.sender.sent
  bytes : pipe.output = rowBytes (pipe.handed.map Prod.snd)
  exact : pipe.taken = pipe.output → pipe.receiver.channel.pending = [] →
    ∃ extra : List (Nat × Bytes), pipe.receiver.channel.delivered.map (fun message => (some message.1, message.2)) =
        pipe.sender.finished ++ extra.map (fun message => (some message.1, message.2)) ∧
      extra.length ≤ 1 ∧ ∀ message ∈ extra, InFlight pipe.sender message
  unsent : ∀ number data, (number, data, SendResult.unsent) ∈ pipe.sender.resolved →
    ∀ entry ∈ pipe.handed, number ≠ some entry.1

theorem row_empty {messages : List (Nat × Bytes)} (empty : (rowOf messages).length = 0) :
    messages = [] := by
  cases messages with
  | nil => rfl
  | cons message rest =>
    have positive := fragment_count_positive message.2
    have parts : rowOf (message :: rest) = fragmentsOf message ++ rowOf rest := rfl
    rw [parts, length_append, fragments_length] at empty
    omega

theorem whole_messages {sent done whole : List (Nat × Bytes)}
    {part : List ((Nat × Bytes) × Nat)} {index : Nat} (receiving : Receiving channel sent whole index)
    (front : done <+: sent)
    (shape : part = [] ∨ ∃ message rest count, sent = done ++ message :: rest ∧
      part = (fragmentsOf message).take count)
    (place : (rowOf done ++ part).length = (rowOf whole).length + index) :
    whole = done ∨ ∃ message rest, part ≠ [] ∧ sent = done ++ message :: rest ∧
      whole = done ++ [message] := by
  rw [length_append] at place
  rcases prefix_or_prefix_of_prefix receiving.front front with ⟨others, rfl⟩ | ⟨others, rfl⟩
  · cases others with
    | nil => exact Or.inl (append_nil _).symm
    | cons message others =>
      have parts : rowOf (whole ++ message :: others) =
          rowOf whole ++ (fragmentsOf message ++ rowOf others) := row_append _ _
      have positive := fragment_count_positive message.2
      rw [parts, length_append, length_append, fragments_length] at place
      obtain ⟨other, otherFront, inside, _⟩ := receiving.partly (by omega)
      have mine : whole ++ [message] <+: sent := by
        refine List.IsPrefix.trans ?_ front
        rw [prefix_append_right_inj]
        exact prefix_append [message] others
      obtain rfl := next_of_front mine otherFront
      omega
  · cases others with
    | nil => exact Or.inl (append_nil _)
    | cons message others =>
      have parts : rowOf (done ++ message :: others) =
          rowOf done ++ (fragmentsOf message ++ rowOf others) := row_append _ _
      have positive := fragment_count_positive message.2
      rw [parts, length_append, length_append, fragments_length] at place
      rcases shape with rfl | ⟨next, rest, count, split, taken⟩
      · rw [length_nil] at place
        omega
      · have mine : done ++ [message] <+: sent := by
          refine List.IsPrefix.trans ?_ receiving.front
          rw [prefix_append_right_inj]
          exact prefix_append [message] others
        have theirs : done ++ [next] <+: sent := by
          rw [split, prefix_append_right_inj]
          exact prefix_append [next] rest
        obtain rfl := next_of_front mine theirs
        have short : part.length ≤ fragmentCount message.2 := by
          rw [taken, ← fragments_length]
          exact length_take_le' _ _
        have none : others = [] := row_empty (by omega)
        refine Or.inr ⟨message, rest, ?_, split, by rw [none]⟩
        rintro rfl
        rw [length_nil] at place
        omega

theorem ReceiverSide.arrived {first second : RoomChannel} {pipe : RoomPipe}
    {whole : List (Nat × Bytes)} {index : Nat} {processed queued later : List Json} {rest : Bytes}
    (side : ReceiverSide first second pipe whole index processed queued later rest)
    (all : pipe.taken = pipe.output) (handled : pipe.receiver.channel.pending = []) :
    pipe.handed.length = (rowOf whole).length + index := by
  have nothing : rest = [] := by
    have output := side.output
    rw [all] at output
    simpa using output
  have idle : queued = [] := by
    have pending := side.pending
    rw [handled] at pending
    simpa using pending.symm
  have done : later = [] := by
    have buffer := side.buffer
    rw [nothing, append_nil] at buffer
    cases later with
    | nil => rfl
    | cons frame others =>
      have row : rowBytes (frame :: others) = frameOf (frameText frame) ++ rowBytes others := rfl
      have length := congrArg List.length buffer
      rw [row, length_append, frame_length] at length
      rcases side.incomplete with empty | ⟨next, more, same, short⟩
      · rw [empty, length_nil] at length
        omega
      · obtain ⟨rfl, rfl⟩ := List.cons.inj same
        omega
  have frames := congrArg List.length side.frames
  rw [idle, done, length_map, append_nil, append_nil, side.place] at frames
  exact frames

def sampleEnd (role : Role) (localPeer remotePeer : Text) : RoomChannel :=
  { newRoomChannel
      { keys := { discoveryId := List.replicate 56 97, membershipKey := [7] }
        localPeer := localPeer
        remotePeer := remotePeer
        role := role
        state := .verified
        transcript := { sampleTranscript with room := List.replicate 56 97 }
        deadline := 0
        own := sampleTranscript.challengeOf role
        answered := none
        reached := some { sampleTranscript with room := List.replicate 56 97 } }
      [9] (Base64.encode sampleSalt) with
    established := true }

def samplePipe : RoomPipe :=
  newRoomPipe (sampleEnd .initiator (text "alice") (text "bob"))
    (sampleEnd .responder (text "bob") (text "alice"))

theorem sample_pair : EstablishedPair (sampleEnd .initiator (text "alice") (text "bob"))
    (sampleEnd .responder (text "bob") (text "alice")) where
  senderFresh := ⟨rfl, rfl, sampleSalt, rfl, rfl⟩
  receiverFresh := ⟨rfl, rfl, sampleSalt, rfl, rfl⟩
  ends := ⟨rfl, rfl, rfl, rfl⟩
  binding := rfl
  room := rfl
  peers := by decide +kernel
  initiator := by decide +kernel
  responder := by decide +kernel

def sampleSending : List PipeEvent :=
  [.trySend [1, 2, 3], .trySend [], .trySend [4], .sealFragment ⟨sampleSalt, rfl⟩, .handOver true,
    .written true, .sealFragment ⟨sampleSalt, rfl⟩, .handOver true, .close, .written false,
    .sealFragment ⟨sampleSalt, rfl⟩]

def sampleRow : Bytes :=
  ((run (pipeStep sampleHmac sampleRoomCrypto) samplePipe sampleSending).map
    RoomPipe.output).getD []

def samplePipeRun : List PipeEvent :=
  sampleSending ++ [.chunk (sampleRow.take 700), .chunk (sampleRow.drop 700), .process 0, .process 0]

end AwfulChat.RoomSecurity
