import AwfulChat.RoomSecurity.ChannelCalls
import AwfulChat.RoomSecurity.FileCrypto

/-!
# Integrity of room channels

Any number of channels of honest holders of room keys, and a network that hands any of
them any value. Nothing opens but what one of them sealed. What a channel delivers are
messages its partner of the same handshake sent, each of them whole and once; the first
frame it does not accept closes it, and then it delivers nothing more.
-/

namespace AwfulChat.RoomSecurity

open Library List Option

set_option autoImplicit false

structure RoomWorld where
  channels : List RoomChannel
  calls : List EncryptCall
  proofs : List MembershipProof

def newRoomWorld : RoomWorld where
  channels := []
  calls := []
  proofs := []

inductive RoomEvent
  | connect (keys : RoomKeys) (encryptionKey : Bytes) (localPeer remotePeer : Text) (role : Role)
      (challenge : Text) (random : Bytes) (now : Int)
  | receive (id : Nat) (frame : Option Json) (bytes : Int)
  | process (id : Nat) (now : Int)
  | replied (id : Nat) (ok : Bool)
  | trySend (id : Nat) (data : Bytes)
  | sealFragment (id : Nat) (salt : Bytes)
  | handOver (id : Nat) (accepted : Bool)
  | written (id : Nat) (ok : Bool)
  | close (id : Nat)

/-- The constructor: an initiator starts its session. -/
def openChannel (keys : RoomKeys) (encryptionKey : Bytes) (localPeer remotePeer : Text)
    (role : Role) (challenge : Text) (random : Bytes) (now : Int) : Option RoomChannel :=
  (newMembershipSession keys localPeer remotePeer role challenge now).map fun session =>
    newRoomChannel (if role = .initiator then (session.start now).session else session)
      encryptionKey (Base64.encode random)

def RoomWorld.put (world : RoomWorld) (id : Nat) (channel : RoomChannel) : RoomWorld :=
  { world with channels := world.channels.set id channel }

def RoomWorld.take (world : RoomWorld) (id : Nat) (channel : RoomChannel) (processed : Processed) :
    RoomWorld where
  channels := world.channels.set id processed.channel
  calls := world.calls
  proofs := world.proofs ++ (processed.made.map
    (MembershipProof.mk channel.session.role channel.session.keys.membershipKey)).toList

def RoomWorld.log (world : RoomWorld) (call : Option EncryptCall) : RoomWorld :=
  { world with calls := world.calls ++ call.toList }

def roomStep (hmac : Hmac) (crypto : RoomCrypto) (world : RoomWorld) :
    RoomEvent → Option RoomWorld
  | .connect keys encryptionKey localPeer remotePeer role challenge random now =>
    (openChannel keys encryptionKey localPeer remotePeer role challenge random now).map
      fun channel => { world with channels := world.channels ++ [channel] }
  | .receive id frame bytes =>
    world.channels[id]?.map fun channel => world.put id (channel.receive frame bytes)
  | .process id now =>
    world.channels[id]?.bind fun channel =>
      (channel.process crypto world.calls hmac now).map fun processed =>
        world.take id channel processed
  | .replied id ok =>
    world.channels[id]?.bind fun channel => (channel.replied ok).map fun next => world.put id next
  | .trySend id data => world.channels[id]?.map fun channel => world.put id (channel.trySend data)
  | .sealFragment id salt =>
    world.channels[id]?.bind fun channel =>
      (channel.sealNext crypto salt).map fun next => (world.put id next.1).log next.2
  | .handOver id accepted =>
    world.channels[id]?.bind fun channel =>
      (channel.handOver accepted).map fun next => world.put id next.1
  | .written id ok =>
    world.channels[id]?.bind fun channel => (channel.written ok).map fun next => world.put id next
  | .close id => world.channels[id]?.map fun channel => world.put id channel.close

/-- Challenges are unique and HMAC is ideal, as for the handshake alone. -/
def IdealRoomStep (hmac : Hmac) (crypto : RoomCrypto) (world : RoomWorld) : RoomEvent → Prop
  | .connect _ _ _ _ _ challenge _ _ => ∀ channel ∈ world.channels, channel.session.own ≠ challenge
  | .process id now => ∀ channel ∈ world.channels[id]?,
      ∀ processed ∈ channel.process crypto world.calls hmac now,
      (∀ message ∈ processed.checked, ∃ proof ∈ world.proofs,
        proof.key = channel.session.keys.membershipKey ∧ proof.message = message) ∧
      (∀ message ∈ processed.made, ∀ proof ∈ world.proofs,
        proof.tag hmac = hmac.mac channel.session.keys.membershipKey message →
          proof.key = channel.session.keys.membershipKey ∧ proof.message = message)
  | _ => True

instance decidableIdealRoomStep (hmac : Hmac) (crypto : RoomCrypto) (world : RoomWorld) :
    ∀ event, Decidable (IdealRoomStep hmac crypto world event)
  | .connect _ _ _ _ _ challenge _ _ | .process id now => inferInstanceAs (Decidable (∀ _, _))
  | .receive _ _ _ | .replied _ _ | .trySend _ _ | .sealFragment _ _ | .handOver _ _ | .written _ _
  | .close _ => isTrue trivial

def RoomWorld.membership (world : RoomWorld) : MembershipWorld where
  sessions := world.channels.map RoomChannel.session
  proofs := world.proofs

/-- The call by which a channel sealed one of its fragments. -/
def SealedBy (crypto : RoomCrypto) (channel : RoomChannel) (call : EncryptCall) : Prop :=
  ∃ transcript, channel.session.reached = some transcript ∧ ∃ message ∈ channel.sent, ∃ index,
    index < fragmentCount message.2 ∧ ∃ salt,
      call = sealCall crypto channel.encryptionKey channel.session.keys.discoveryId
        channel.session.localPeer (text "direct") salt (fragmentBytes channel.session
          (messageFragment channel.sessionId transcript.binding message.1 message.2 index))

/-- The partner, verified with the same binding. -/
def FromPartner (channel partner : RoomChannel) : Prop :=
  Partner channel.session partner.session ∧ ∃ mine theirs,
    channel.session.reached = some mine ∧ partner.session.reached = some theirs ∧
      mine.binding = theirs.binding

/-- A message that the partner took to send. -/
def Genuine (channels : List RoomChannel) (channel : RoomChannel) (message : Nat × Bytes) : Prop :=
  ∃ partner ∈ channels, FromPartner channel partner ∧ message ∈ partner.sent

structure RoomInv (hmac : Hmac) (crypto : RoomCrypto) (world : RoomWorld) : Prop where
  membership : MembershipInv hmac world.membership
  sound : ∀ channel ∈ world.channels, ChannelSound channel
  calls : ∀ call ∈ world.calls, ∃ channel ∈ world.channels, SealedBy crypto channel call
  received : ∀ channel ∈ world.channels, Received (Genuine world.channels channel) channel

theorem sent_fragment_counted {channel : RoomChannel} (sound : ChannelSound channel)
    {message : Nat × Bytes} (sent : message ∈ channel.sent) {index : Nat}
    (inside : index < fragmentCount message.2) (session membership : Text) :
    (messageFragment session membership message.1 message.2 index).Counted := by
  have below := sound.below message sent
  have counted := sound.counted
  have small := sound.small message sent
  have start : index * CHUNK_BYTES ≤ message.2.length := slice_start_le chunk_positive inside
  have limit : MAX_ROOM_MESSAGE < 2 ^ 53 := by decide
  have short := Nat.lt_of_le_of_lt small limit
  exact {
    sequence := by
      show message.1 + index < 2 ^ 53
      omega
    message := by
      show message.1 < 2 ^ 53
      omega
    offset := Nat.lt_of_le_of_lt start short
    total := short }

section World

variable {hmac : Hmac} {crypto : RoomCrypto} {world : RoomWorld} {channel : RoomChannel}

theorem member_session (mem : channel ∈ world.channels) :
    channel.session ∈ world.membership.sessions := mem_map_of_mem mem

section

variable (inv : RoomInv hmac crypto world)
include inv

variable {first second : RoomChannel}

theorem channel_of_own (one : first ∈ world.channels) (two : second ∈ world.channels)
    (own : first.session.own = second.session.own) : first = second := by
  have unique := inv.membership.unique
  rw [RoomWorld.membership, List.map_map] at unique
  exact List.inj_on_of_nodup_map unique one two own

theorem partner_unique (one : first ∈ world.channels) (two : second ∈ world.channels)
    (mine : FromPartner channel first) (theirs : FromPartner channel second) : first = second := by
  obtain ⟨agrees, own, said, reached, saidThere, bound⟩ := mine
  obtain ⟨agreesToo, own', said', reached', saidThere', bound'⟩ := theirs
  rw [reached] at reached'
  obtain rfl := Option.some.inj reached'
  apply channel_of_own inv one two
  exact binding_own (inv.membership.sound _ (member_session one))
    (inv.membership.sound _ (member_session two)) saidThere saidThere'
    (agrees.role.trans agreesToo.role.symm) (bound.symm.trans bound')

theorem genuine_unique {number : Nat} {data other : Bytes}
    (first : Genuine world.channels channel (number, data))
    (second : Genuine world.channels channel (number, other)) : other = data := by
  obtain ⟨one, mem, agreed, sent⟩ := first
  obtain ⟨two, memberToo, agreedToo, sentToo⟩ := second
  obtain rfl := partner_unique inv mem memberToo agreed agreedToo
  by_contra different
  have apart := (inv.sound one mem).apart
  have positive := fragment_count_positive data
  have positiveToo := fragment_count_positive other
  have ordered := pairwise_iff_getElem.mp apart
  obtain ⟨left, leftBound, leftIs⟩ := getElem_of_mem sent
  obtain ⟨right, rightBound, rightIs⟩ := getElem_of_mem sentToo
  rcases Nat.lt_trichotomy left right with before | same | after
  · have order := ordered left right leftBound rightBound before
    rw [leftIs, rightIs] at order
    simp only at order
    omega
  · subst same
    rw [leftIs] at rightIs
    exact different (Prod.mk.inj rightIs).2.symm
  · have order := ordered right left rightBound leftBound after
    rw [leftIs, rightIs] at order
    simp only at order
    omega

end

variable {frame : Option Json} {session : MembershipSession} {before after : RoomChannel}
  {calls : List EncryptCall} {now : Int}

theorem take_data_genuine (inv : RoomInv hmac crypto world) (mem : channel ∈ world.channels)
    (verified : channel.verified = true) {next : RoomChannel}
    (taken : channel.takeData crypto world.calls frame = some next) :
    ∃ message index fragment, Genuine world.channels channel message ∧
      fragment.Carries message.1 message.2 index ∧ channel.admit fragment = some next := by
  obtain ⟨call, known, kind, salt, body, fragment, labels, parsed, read, admitted⟩ :=
    take_data_spec taken
  obtain ⟨partner, stands, theirs, reached, message, sent, index, inside, salted, rfl⟩ :=
    inv.calls call known
  obtain ⟨_, peer, _, _⟩ := envelope_aad_injective labels
  have counted := sent_fragment_counted (inv.sound partner stands) sent inside partner.sessionId
    theirs.binding
  have plain : Json.parse (Text.decodeUtf8 (fragmentBytes partner.session (messageFragment
      partner.sessionId theirs.binding message.1 message.2 index))) = some body := parsed
  rw [parse_fragment_bytes counted] at plain
  obtain rfl := Option.some.inj plain
  obtain ⟨rfl, _⟩ := read_fragment_sound counted read
  have sound := inv.sound channel mem
  obtain ⟨_, shaken⟩ := (verified_iff channel).mp verified
  obtain ⟨mine, mineReached⟩ := sound.reached shaken
  have session := inv.membership.sound _ (member_session mem)
  have same : mine.binding = theirs.binding := by
    have bound := (admit_spec admitted).1
    rw [MembershipSession.binding, if_pos (sound.opened verified)] at bound
    rw [session.verified (sound.opened verified)] at mineReached
    obtain rfl := Option.some.inj mineReached
    exact Option.some.inj bound
  have agrees : Partner channel.session partner.session :=
    bound_partner inv.membership (member_session mem) (member_session stands) mineReached
      reached same sound.peers peer
  exact ⟨message, index, _, ⟨partner, stands, ⟨agrees, mine, theirs, mineReached, reached, same⟩,
    sent⟩, message_fragment_carries _ _ _ _ _, admitted⟩

/-- What a call on a channel never takes back. -/
structure ChannelGrows (before after : RoomChannel) : Prop where
  session : Continues before.session after.session
  sent : ∀ message ∈ before.sent, message ∈ after.sent
  encryptionKey : after.encryptionKey = before.encryptionKey
  sessionId : after.sessionId = before.sessionId

theorem ChannelGrows.refl (channel : RoomChannel) : ChannelGrows channel channel where
  session := Continues.refl channel.session
  sent := by
    intro message mem
    exact mem
  encryptionKey := rfl
  sessionId := rfl

theorem SealedBy.later {call : EncryptCall} (made : SealedBy crypto before call)
    (grows : ChannelGrows before after) :
    SealedBy crypto after call := by
  obtain ⟨transcript, reached, message, sent, index, inside, salt, rfl⟩ := made
  refine ⟨transcript, grows.session.reached transcript reached, message, grows.sent message sent,
    index, inside, salt, ?_⟩
  rw [grows.encryptionKey, grows.sessionId, grows.session.keys, grows.session.localPeer,
    fragmentBytes, fragmentBytes, grows.session.keys, grows.session.localPeer,
    grows.session.remotePeer]

theorem Partner.later {session other after afterToo : MembershipSession}
    (agrees : Partner session other) (one : Continues session after)
    (two : Continues other afterToo) : Partner after afterToo where
  keys := by rw [two.keys, one.keys, agrees.keys]
  role := by rw [two.role, one.role, agrees.role]
  localPeer := by rw [two.localPeer, one.remotePeer, agrees.localPeer]
  remotePeer := by rw [two.remotePeer, one.localPeer, agrees.remotePeer]

theorem FromPartner.later {first second after afterToo : RoomChannel}
    (agreed : FromPartner first second) (one : ChannelGrows first after)
    (two : ChannelGrows second afterToo) : FromPartner after afterToo := by
  obtain ⟨agrees, mine, theirs, reached, reachedThere, same⟩ := agreed
  exact ⟨agrees.later one.session two.session, mine, theirs, one.session.reached mine reached,
    two.session.reached theirs reachedThere, same⟩

variable {id : Nat} {next : RoomChannel}

theorem Genuine.later (found : world.channels[id]? = some channel)
    (grows : ChannelGrows channel next) {first after : RoomChannel} (one : ChannelGrows first after)
    {message : Nat × Bytes} (genuine : Genuine world.channels first message) :
    Genuine (world.channels.set id next) after message := by
  obtain ⟨partner, mem, agreed, sent⟩ := genuine
  obtain ⟨later, stands, two⟩ := exists_after_set ChannelGrows.refl found grows mem
  exact ⟨later, stands, agreed.later one two, two.sent message sent⟩

variable {proofs : List MembershipProof} {localPeer remotePeer : Text}

theorem move_keeps (inv : RoomInv hmac crypto world) (found : world.channels[id]? = some channel)
    (grows : ChannelGrows channel next) (sound : ChannelSound next)
    (received : Received (Genuine world.channels channel) next)
    (logged : ∀ call ∈ calls, call ∈ world.calls ∨ SealedBy crypto next call)
    (membership : MembershipInv hmac
      ⟨(world.channels.map RoomChannel.session).set id next.session, proofs⟩) :
    RoomInv hmac crypto ⟨world.channels.set id next, calls, proofs⟩ where
  membership := by
    rw [RoomWorld.membership, map_set]
    exact membership
  sound := by
    intro other mem
    rcases mem_or_eq_of_mem_set mem with known | rfl
    · exact inv.sound other known
    · exact sound
  calls := by
    have bound : id < world.channels.length := (List.getElem?_eq_some_iff.mp found).1
    intro call mem
    rcases logged call mem with old | made
    · obtain ⟨maker, known, made⟩ := inv.calls call old
      obtain ⟨later, stands, growth⟩ := exists_after_set ChannelGrows.refl found grows known
      exact ⟨later, stands, made.later growth⟩
    · exact ⟨next, mem_set bound next, made⟩
  received := by
    intro other mem
    rcases mem_or_eq_of_mem_set mem with known | rfl
    · apply (inv.received other known).same (SameReceiving.refl other)
      intro message genuine
      exact genuine.later found grows (ChannelGrows.refl other)
    · apply received.same (SameReceiving.refl other)
      intro message genuine
      exact genuine.later found grows grows

theorem session_at (found : world.channels[id]? = some channel) :
    world.membership.sessions[id]? = some channel.session := by
  rw [RoomWorld.membership, List.getElem?_map, found]
  rfl

theorem same_session_membership {members : MembershipWorld} (inv : MembershipInv hmac members)
    {session after : MembershipSession} (found : members.sessions[id]? = some session)
    (same : after = session ∨ after = session.close) :
    MembershipInv hmac ⟨members.sessions.set id after, members.proofs⟩ := by
  obtain ⟨bound, place⟩ := List.getElem?_eq_some_iff.mp found
  rcases same with rfl | rfl
  · have unchanged : members.sessions.set id after = members.sessions := by
      rw [← place, set_getElem_self]
    rw [unchanged]
    exact inv
  · apply membership_step_keeps hmac members (.close id) _ inv trivial
    rw [membershipStep, found]
    rfl

theorem SameSession.grows (same : SameSession before after)
    (sent : ∀ message ∈ before.sent, message ∈ after.sent) : ChannelGrows before after :=
  ⟨same.continues, sent, same.encryptionKey, same.sessionId⟩

section

variable (inv : RoomInv hmac crypto world) (found : world.channels[id]? = some channel)
  (moves : SendMoves channel next) (sound : ChannelSound next)
include inv found moves sound

theorem calm_keeps (logged : ∀ call ∈ calls, call ∈ world.calls ∨ SealedBy crypto next call) :
    RoomInv hmac crypto ⟨world.channels.set id next, calls, world.proofs⟩ := by
  apply move_keeps inv found (moves.session.grows fun _ mem => moves.sent.subset mem) sound _ logged
  · exact same_session_membership inv.membership (session_at found) moves.session.session
  · exact (inv.received channel (mem_of_getElem? found)).same moves.receiving
      fun _ genuine => genuine

theorem calm_put_keeps : RoomInv hmac crypto (world.put id next) :=
  calm_keeps inv found moves sound fun _ mem => Or.inl mem

end

theorem finally_moves (moves : SendMoves before after) :
    SendMoves before after.finally :=
  ⟨moves.receiving.trans (finally_same after).1, moves.session.trans (finally_same after).2,
    moves.sent, moves.closed⟩

theorem close_moves (channel : RoomChannel) : SendMoves channel channel.close :=
  ⟨close_receiving channel, close_session channel,
    (close_sending channel).sent ▸ prefix_refl _, fun _ => close_closed channel⟩

theorem settle_moves (channel : RoomChannel) : SendMoves channel channel.settle := by
  refine ⟨(settle_same channel).1, (settle_same channel).2, ?_, ?_⟩
  · unfold RoomChannel.settle
    split
    · exact prefix_refl _
    · split
      · exact prefix_refl _
      · exact prefix_refl _
  · intro closed
    rw [RoomChannel.settle, if_pos closed]
    exact closed

theorem receive_moves (channel : RoomChannel) (frame : Option Json) (bytes : Int) :
    SendMoves channel (channel.receive frame bytes) := by
  refine ⟨(receive_same frame bytes).1, (receive_same frame bytes).2, ?_, ?_⟩
  · unfold RoomChannel.receive
    split
    · exact prefix_refl _
    · split
      · exact (close_moves channel).sent
      · exact prefix_refl _
  · intro closed
    rw [RoomChannel.receive, if_pos closed]
    exact closed

theorem spoken_sound (sound : ChannelSound channel) (fresh : channel.established = false)
    (continues : Continues channel.session session) :
    ChannelSound { channel with session := session } where
  reached := by
    intro established
    rw [show channel.established = true from established] at fresh
    cases fresh
  opened := by
    intro verified
    have established : channel.established = true := ((verified_iff _).mp verified).2
    rw [established] at fresh
    cases fresh
  peers := by
    rw [continues.localPeer, continues.remotePeer]
    exact sound.peers
  apart := sound.apart
  below := sound.below
  small := sound.small
  counted := sound.counted
  jobs := sound.jobs

theorem take_handshake_moves {middle : RoomChannel}
    (spoken : middle = { channel with session := (channel.session.receive hmac now frame).session })
    (sound : ChannelSound middle) (session : SessionSound middle.session) :
    SendMoves middle (channel.takeHandshake hmac now frame).channel ∧
      ChannelSound (channel.takeHandshake hmac now frame).channel := by
  unfold RoomChannel.takeHandshake
  simp only
  rw [← spoken]
  split
  · exact ⟨finally_moves (close_moves middle), finally_sound (close_channel_sound sound)⟩
  · split
    · subst spoken
      exact ⟨⟨⟨rfl, rfl, Or.inl rfl⟩, ⟨Or.inl rfl, rfl, rfl⟩, prefix_refl _,
          fun closed => closed⟩,
        sound.same ⟨rfl, rfl, rfl⟩ ⟨Or.inl rfl, rfl, rfl⟩ rfl fun running => ⟨running, rfl⟩⟩
    · exact ⟨finally_moves (settle_moves middle), finally_sound (settle_sound sound session)⟩

theorem take_handshake_keeps (inv : RoomInv hmac crypto world)
    (found : world.channels[id]? = some channel) (fresh : channel.established = false)
    (genuine : ∀ message ∈ (channel.takeHandshake hmac now frame).checked, ∃ proof ∈ world.proofs,
      proof.key = channel.session.keys.membershipKey ∧ proof.message = message)
    (apart : ∀ message ∈ (channel.takeHandshake hmac now frame).made, ∀ proof ∈ world.proofs,
      proof.tag hmac = hmac.mac channel.session.keys.membershipKey message →
        proof.key = channel.session.keys.membershipKey ∧ proof.message = message) :
    RoomInv hmac crypto (world.take id channel (channel.takeHandshake hmac now frame)) := by
  have mem := mem_of_getElem? found
  have advances := receive_advances hmac (inv.membership.sound _ (member_session mem)) now frame
  have spoken := outcome_keeps inv.membership (session_at found) advances genuine apart
  have bound : id < world.membership.sessions.length :=
    (List.getElem?_eq_some_iff.mp (session_at found)).1
  have place : (applyOutcome world.membership id channel.session
      (channel.session.receive hmac now frame)).sessions[id]? =
        some (channel.session.receive hmac now frame).session := List.getElem?_set_self bound
  obtain ⟨moves, sound⟩ := take_handshake_moves rfl
    (spoken_sound (inv.sound channel mem) fresh advances.continues) advances.sound
  have membership := same_session_membership spoken place moves.session.session
  rw [applyOutcome, set_set] at membership
  have continues := moves.session.continues
  have calm : SameReceiving channel
      { channel with session := (channel.session.receive hmac now frame).session } :=
    ⟨rfl, rfl, Or.inl rfl⟩
  apply move_keeps inv found ⟨Continues.trans advances.continues continues,
    fun _ mem => moves.sent.subset mem,
    moves.session.encryptionKey, moves.session.sessionId⟩ sound _ _ membership
  · exact (inv.received channel mem).same (calm.trans moves.receiving)
      fun _ genuine => genuine
  · intro call known
    exact Or.inl known

theorem take_data_fields {crypto : RoomCrypto} {log : List EncryptCall} {channel next : RoomChannel}
    (taken : channel.takeData crypto log frame = some next) :
    SameSending channel next ∧ next.session = channel.session ∧
      next.encryptionKey = channel.encryptionKey ∧ next.sessionId = channel.sessionId ∧
      next.established = channel.established ∧ next.closed = channel.closed := by
  obtain ⟨_, _, _, _, _, _, _, _, _, admitted⟩ := take_data_spec taken
  obtain ⟨_, _, assembly, _, _, _, rfl⟩ := admit_spec admitted
  unfold RoomChannel.store
  split
  · exact ⟨⟨rfl, rfl, rfl⟩, rfl, rfl, rfl, rfl, rfl⟩
  · exact ⟨⟨rfl, rfl, rfl⟩, rfl, rfl, rfl, rfl, rfl⟩

theorem take_data_keeps (inv : RoomInv hmac crypto world)
    (found : world.channels[id]? = some channel) (verified : channel.verified = true)
    (taken : channel.takeData crypto world.calls frame = some next) :
    RoomInv hmac crypto (world.put id next.finally) := by
  have mem := mem_of_getElem? found
  obtain ⟨message, index, fragment, genuine, carries, admitted⟩ :=
    take_data_genuine inv mem verified taken
  have received := admit_received (inv.received channel mem) carries genuine
    (fun other second => genuine_unique inv genuine second) admitted
  obtain ⟨sending, session, key, sessionId, established, closed⟩ := take_data_fields taken
  have same : SameSession channel next := ⟨Or.inl session, key, sessionId⟩
  have sound : ChannelSound next := (inv.sound channel mem).same sending same established
    fun running => ⟨closed.symm.trans running, session⟩
  have final := same.trans (finally_same next).2
  apply move_keeps inv found (final.grows _) (finally_sound sound) _ (fun _ known => Or.inl known)
    (same_session_membership inv.membership (session_at found) final.session)
  · intro sent known
    rw [show next.finally.sent = channel.sent from sending.sent]
    exact known
  · exact received.same (finally_same next).1 fun _ genuine => genuine

theorem process_cases {hmac : Hmac} {crypto : RoomCrypto} {log : List EncryptCall}
    {processed : Processed} (done : channel.process crypto log hmac now = some processed) :
    (channel.closed = true ∧ processed = Processed.quiet channel.finally) ∨
      processed = Processed.quiet channel.close.finally ∨
      (channel.established = false ∧ channel.closed = false ∧ ∃ frame, processed = channel.takeHandshake hmac now frame) ∨
      (channel.verified = true ∧ ∃ frame next, channel.takeData crypto log frame = some next ∧
        processed = Processed.quiet next.finally) := by
  unfold RoomChannel.process at done
  split at done
  · cases done
  · rename_i frame bytes rest queue
    split at done
    · cases done
    · split at done
      · rename_i closed
        exact Or.inl ⟨closed, (Option.some.inj done).symm⟩
      · rename_i running
        split at done
        · rename_i fresh
          split at done
          · exact Or.inr (Or.inl (Option.some.inj done).symm)
          · exact Or.inr (Or.inr (Or.inl ⟨by simpa using fresh, by simpa using running, frame,
              (Option.some.inj done).symm⟩))
        · rename_i shaken
          split at done
          · exact Or.inr (Or.inl (Option.some.inj done).symm)
          · rename_i next taken
            refine Or.inr (Or.inr (Or.inr ⟨?_, frame, next, taken, (Option.some.inj done).symm⟩))
            rw [verified_iff]
            exact ⟨by simpa using running, by simpa using shaken⟩

theorem quiet_take : world.take id channel (Processed.quiet next) = world.put id next := by
  simp [RoomWorld.take, Processed.quiet, RoomWorld.put]

section

variable (inv : RoomInv hmac crypto world) (found : world.channels[id]? = some channel)
include inv found

theorem process_keeps
    {processed : Processed}
    (done : channel.process crypto world.calls hmac now = some processed)
    (genuine : ∀ message ∈ processed.checked, ∃ proof ∈ world.proofs,
      proof.key = channel.session.keys.membershipKey ∧ proof.message = message)
    (apart : ∀ message ∈ processed.made, ∀ proof ∈ world.proofs,
      proof.tag hmac = hmac.mac channel.session.keys.membershipKey message →
        proof.key = channel.session.keys.membershipKey ∧ proof.message = message) :
    RoomInv hmac crypto (world.take id channel processed) := by
  have sound := inv.sound channel (mem_of_getElem? found)
  have still := SendMoves.refl channel
  obtain ⟨_, rfl⟩ | rfl | ⟨fresh, _, frame, rfl⟩ | ⟨verified, frame, next, taken, rfl⟩ :=
    process_cases done
  · rw [quiet_take]
    exact calm_put_keeps inv found (finally_moves still) (finally_sound sound)
  · rw [quiet_take]
    exact calm_put_keeps inv found (finally_moves (close_moves channel))
      (finally_sound (close_channel_sound sound))
  · exact take_handshake_keeps inv found fresh genuine apart
  · rw [quiet_take]
    exact take_data_keeps inv found verified taken

theorem seal_keeps {salt : Bytes} {call : Option EncryptCall}
    (sealed : channel.sealNext crypto salt = some (next, call)) :
    RoomInv hmac crypto ((world.put id next).log call) := by
  have mem := mem_of_getElem? found
  have sound := inv.sound channel mem
  apply calm_keeps inv found (seal_next_moves sealed) (seal_next_sound sound sealed)
  intro logged known
  rcases mem_append.mp known with old | made
  · exact Or.inl old
  · right
    obtain ⟨job, rest, queue, _, ⟨_, rfl⟩ | ⟨binding, made', frame, verified, bound, rfl,
      enveloped, rfl⟩⟩ := seal_next_cases sealed
    · cases made
    · obtain rfl := mem_some_iff.mp (mem_toList.mp made)
      have first : job ∈ channel.jobs := by rw [queue]; exact mem_cons_self
      obtain ⟨sent, inside⟩ := sound.jobs job first
      have state := sound.opened verified
      have reached := (inv.membership.sound _ (member_session mem)).verified state
      rw [MembershipSession.binding, if_pos state] at bound
      obtain rfl := Option.some.inj bound
      obtain ⟨_, _, rfl, _⟩ := seal_spec enveloped
      exact ⟨_, reached, (job.message, job.data), sent, job.index, inside, salt, rfl⟩

end

theorem replied_moves {ok : Bool} (replied : channel.replied ok = some next) :
    SendMoves channel next := by
  rcases replied_spec replied with rfl | rfl
  · exact finally_moves (settle_moves channel)
  · exact finally_moves (close_moves channel)

theorem new_session_peers {keys : RoomKeys} {role : Role} {challenge : Text}
    (created : newMembershipSession keys localPeer remotePeer role challenge now = some session) :
    session.localPeer ≠ session.remotePeer := by
  unfold newMembershipSession at created
  split at created
  · rename_i valid
    obtain rfl := Option.some.inj created
    simp only [validPeers, Bool.and_eq_true, decide_eq_true_eq] at valid
    exact valid.1.1.2
  · cases created

theorem start_reached (session : MembershipSession) (now : Int) :
    (session.start now).session.reached = session.reached := by
  unfold MembershipSession.start
  split <;> rfl

theorem new_channel_sound {encryptionKey : Bytes} {sessionId : Text}
    (peers : session.localPeer ≠ session.remotePeer) :
    ChannelSound (newRoomChannel session encryptionKey sessionId) where
  reached := nofun
  opened := nofun
  peers := peers
  apart := by simp [newRoomChannel]
  below := by simp [newRoomChannel]
  small := by simp [newRoomChannel]
  counted := by simp [newRoomChannel]
  jobs := by simp [newRoomChannel]

theorem new_channel_received (genuine : Nat × Bytes → Prop) (session : MembershipSession)
    (encryptionKey : Bytes) (sessionId : Text) :
    Received genuine (newRoomChannel session encryptionKey sessionId) where
  once := by simp [newRoomChannel]
  delivered := by simp [newRoomChannel]
  window := ⟨[], new_replay_window_covers, by simp [newRoomChannel], by simp [newRoomChannel]⟩
  assembly := by simp [newRoomChannel]

theorem connect_keeps (inv : RoomInv hmac crypto world) {keys : RoomKeys} {encryptionKey : Bytes}
    {role : Role} {challenge : Text} {random : Bytes}
    (opened : openChannel keys encryptionKey localPeer remotePeer role challenge random now =
      some channel)
    (fresh : ∀ channel ∈ world.channels, channel.session.own ≠ challenge) :
    RoomInv hmac crypto { world with channels := world.channels ++ [channel] } := by
  obtain ⟨session, created, rfl⟩ := map_eq_some_iff.mp opened
  obtain ⟨sound, own, unreached⟩ := new_session_sound created
  have advances := start_advances sound now
  obtain ⟨first, firstIs⟩ : ∃ first, first =
      if role = .initiator then (session.start now).session else session := ⟨_, rfl⟩
  rw [← firstIs]
  have ready : SessionSound first ∧ Continues session first ∧ first.reached = none := by
    rw [firstIs]
    split
    · exact ⟨advances.sound, advances.continues, (start_reached session now).trans unreached⟩
    · exact ⟨sound, Continues.refl session, unreached⟩
  obtain ⟨firstSound, continues, nothing⟩ := ready
  have peers := new_session_peers created
  have unused : ∀ other ∈ world.membership.sessions, other.own ≠ first.own := by
    intro other mem
    obtain ⟨channel, known, rfl⟩ := mem_map.mp mem
    rw [continues.own, own]
    exact fresh channel known
  exact {
    membership := by
      rw [RoomWorld.membership, map_append]
      exact append_keeps inv.membership firstSound unused nothing
    sound := by
      intro other mem
      rcases mem_append.mp mem with known | last
      · exact inv.sound other known
      · obtain rfl := mem_singleton.mp last
        apply new_channel_sound
        rw [continues.localPeer, continues.remotePeer]
        exact peers
    calls := by
      intro call known
      obtain ⟨maker, stands, made⟩ := inv.calls call known
      exact ⟨maker, mem_append_left _ stands, made⟩
    received := by
      intro other mem
      rcases mem_append.mp mem with known | last
      · apply (inv.received other known).same (SameReceiving.refl other)
        intro message genuine
        obtain ⟨partner, stands, agreed⟩ := genuine
        exact ⟨partner, mem_append_left _ stands, agreed⟩
      · obtain rfl := mem_singleton.mp last
        exact new_channel_received _ _ _ _ }

theorem room_step_keeps (hmac : Hmac) (crypto : RoomCrypto) (world : RoomWorld) (event : RoomEvent)
    (next : RoomWorld) (inv : RoomInv hmac crypto world)
    (ideal : IdealRoomStep hmac crypto world event)
    (stepped : roomStep hmac crypto world event = some next) : RoomInv hmac crypto next := by
  have mem : ∀ {id : Nat} {channel : RoomChannel}, world.channels[id]? = some channel →
      ChannelSound channel := fun found => inv.sound _ (mem_of_getElem? found)
  cases event with
  | connect keys encryptionKey localPeer remotePeer role challenge random now =>
    obtain ⟨channel, opened, rfl⟩ := map_eq_some_iff.mp stepped
    exact connect_keeps inv opened ideal
  | receive id frame bytes =>
    obtain ⟨channel, found, rfl⟩ := map_eq_some_iff.mp stepped
    exact calm_put_keeps inv found (receive_moves channel frame bytes)
      (receive_channel_sound (mem found) frame bytes)
  | process id now =>
    obtain ⟨channel, found, stepped⟩ := bind_eq_some_iff.mp stepped
    obtain ⟨processed, done, rfl⟩ := map_eq_some_iff.mp stepped
    obtain ⟨genuine, apart⟩ := ideal channel found processed done
    exact process_keeps inv found done genuine apart
  | replied id ok =>
    obtain ⟨channel, found, stepped⟩ := bind_eq_some_iff.mp stepped
    obtain ⟨next, replied, rfl⟩ := map_eq_some_iff.mp stepped
    have session := inv.membership.sound _ (member_session (mem_of_getElem? found))
    apply calm_put_keeps inv found (replied_moves replied)
    rcases replied_spec replied with rfl | rfl
    · exact finally_sound (settle_sound (mem found) session)
    · exact finally_sound (close_channel_sound (mem found))
  | trySend id data =>
    obtain ⟨channel, found, rfl⟩ := map_eq_some_iff.mp stepped
    exact calm_put_keeps inv found (try_send_moves channel data)
      (try_send_sound (mem found) data)
  | sealFragment id salt =>
    obtain ⟨channel, found, stepped⟩ := bind_eq_some_iff.mp stepped
    obtain ⟨next, sealed, rfl⟩ := map_eq_some_iff.mp stepped
    exact seal_keeps inv found sealed
  | handOver id accepted =>
    obtain ⟨channel, found, stepped⟩ := bind_eq_some_iff.mp stepped
    obtain ⟨next, handed, rfl⟩ := map_eq_some_iff.mp stepped
    exact calm_put_keeps inv found (hand_over_moves handed) (hand_over_sound (mem found) handed)
  | written id ok =>
    obtain ⟨channel, found, stepped⟩ := bind_eq_some_iff.mp stepped
    obtain ⟨next, written, rfl⟩ := map_eq_some_iff.mp stepped
    exact calm_put_keeps inv found (written_moves written) (written_sound (mem found) written)
  | close id =>
    obtain ⟨channel, found, rfl⟩ := map_eq_some_iff.mp stepped
    exact calm_put_keeps inv found (close_moves channel) (close_channel_sound (mem found))

theorem new_room_world_inv (hmac : Hmac) (crypto : RoomCrypto) :
    RoomInv hmac crypto newRoomWorld where
  membership := new_membership_world_inv hmac
  sound := by simp [newRoomWorld]
  calls := by simp [newRoomWorld]
  received := by simp [newRoomWorld]

/-- The channel is closed and has delivered what it had delivered. -/
def Silent (id : Nat) (delivered : List (Nat × Bytes)) (world : RoomWorld) : Prop :=
  ∃ channel, world.channels[id]? = some channel ∧ channel.closed = true ∧
    channel.delivered = delivered

theorem silent_after_set {delivered : List (Nat × Bytes)} (silent : Silent id delivered world)
    {place : Nat} (found : world.channels[place]? = some channel)
    (moves : channel.closed = true → SendMoves channel next) :
    Silent id delivered ⟨world.channels.set place next, calls, proofs⟩ := by
  obtain ⟨quiet, stands, closed, said⟩ := silent
  by_cases same : place = id
  · subst same
    rw [found] at stands
    obtain rfl := Option.some.inj stands
    have bound : place < world.channels.length := (List.getElem?_eq_some_iff.mp found).1
    exact ⟨next, List.getElem?_set_self bound, (moves closed).closed closed,
      (moves closed).receiving.delivered.trans said⟩
  · exact ⟨quiet, (List.getElem?_set_ne same).trans stands, closed, said⟩

theorem room_step_silent (hmac : Hmac) (crypto : RoomCrypto) (id : Nat)
    (delivered : List (Nat × Bytes)) (world : RoomWorld) (event : RoomEvent) (next : RoomWorld)
    (silent : Silent id delivered world) (_allowed : True)
    (stepped : roomStep hmac crypto world event = some next) : Silent id delivered next := by
  cases event with
  | connect keys encryptionKey localPeer remotePeer role challenge random now =>
    obtain ⟨channel, _, rfl⟩ := map_eq_some_iff.mp stepped
    obtain ⟨quiet, stands, closed⟩ := silent
    have bound : id < world.channels.length := (List.getElem?_eq_some_iff.mp stands).1
    exact ⟨quiet, (List.getElem?_append_left bound).trans stands, closed⟩
  | receive place frame bytes =>
    obtain ⟨channel, found, rfl⟩ := map_eq_some_iff.mp stepped
    exact silent_after_set silent found fun _ => receive_moves channel frame bytes
  | process place now =>
    obtain ⟨channel, found, stepped⟩ := bind_eq_some_iff.mp stepped
    obtain ⟨processed, done, rfl⟩ := map_eq_some_iff.mp stepped
    apply silent_after_set silent found
    intro closed
    obtain ⟨_, rfl⟩ | rfl | ⟨_, running, _⟩ | ⟨verified, _⟩ := process_cases done
    · exact finally_moves (SendMoves.refl channel)
    · exact finally_moves (close_moves channel)
    · rw [closed] at running
      cases running
    · have running := ((verified_iff channel).mp verified).1
      rw [closed] at running
      cases running
  | replied place ok =>
    obtain ⟨channel, found, stepped⟩ := bind_eq_some_iff.mp stepped
    obtain ⟨next, replied, rfl⟩ := map_eq_some_iff.mp stepped
    exact silent_after_set silent found fun _ => replied_moves replied
  | trySend place data =>
    obtain ⟨channel, found, rfl⟩ := map_eq_some_iff.mp stepped
    exact silent_after_set silent found fun _ => try_send_moves channel data
  | sealFragment place salt =>
    obtain ⟨channel, found, stepped⟩ := bind_eq_some_iff.mp stepped
    obtain ⟨next, sealed, rfl⟩ := map_eq_some_iff.mp stepped
    exact silent_after_set silent found fun _ => seal_next_moves sealed
  | handOver place accepted =>
    obtain ⟨channel, found, stepped⟩ := bind_eq_some_iff.mp stepped
    obtain ⟨next, handed, rfl⟩ := map_eq_some_iff.mp stepped
    exact silent_after_set silent found fun _ => hand_over_moves handed
  | written place ok =>
    obtain ⟨channel, found, stepped⟩ := bind_eq_some_iff.mp stepped
    obtain ⟨next, written, rfl⟩ := map_eq_some_iff.mp stepped
    exact silent_after_set silent found fun _ => written_moves written
  | close place =>
    obtain ⟨channel, found, rfl⟩ := map_eq_some_iff.mp stepped
    exact silent_after_set silent found fun _ => close_moves channel

theorem established_partner (inv : RoomInv hmac crypto world) (mem : channel ∈ world.channels)
    (established : channel.established = true) :
    ∃ partner ∈ world.channels, Partner channel.session partner.session ∧
      (∃ transcript, channel.session.reached = some transcript ∧
        (partner.session.answered = some transcript ∨
          partner.session.reached = some transcript)) ∧
      ∀ message ∈ channel.delivered, message ∈ partner.sent := by
  obtain ⟨mine, reached⟩ := (inv.sound channel mem).reached established
  obtain ⟨session, stands, agrees, answered, said⟩ :=
    reached_partner inv.membership (member_session mem) reached
  obtain ⟨partner, known, rfl⟩ := mem_map.mp stands
  have partnerSound := inv.membership.sound _ stands
  obtain ⟨_, message, made⟩ := (inv.membership.sound _ (member_session mem)).reached mine reached
  have spoken : Spoken partner.session mine ∧ (partner.session.answered = some mine ∨
      partner.session.reached = some mine) := by
    cases role : channel.session.role with
    | initiator =>
      exact ⟨(partnerSound.answered mine (answered role)).2, Or.inl (answered role)⟩
    | responder => exact ⟨(partnerSound.reached mine (said role)).1, Or.inr (said role)⟩
  refine ⟨partner, known, agrees, ⟨mine, reached, spoken.2⟩, ?_⟩
  intro sent delivered
  obtain ⟨other, otherKnown, ⟨otherAgrees, own, theirs, ownReached, otherReached, same⟩, taken⟩ :=
    (inv.received channel mem).delivered sent delivered
  rw [reached] at ownReached
  obtain rfl := Option.some.inj ownReached
  obtain ⟨otherSpoken, otherMessage, otherMade⟩ :=
    (inv.membership.sound _ (member_session otherKnown)).reached theirs otherReached
  have lengths : mine.initiatorChallenge.length = theirs.initiatorChallenge.length := by
    rw [proof_message_challenges made, proof_message_challenges otherMade]
  have roles : partner.session.role = other.session.role :=
    agrees.role.trans otherAgrees.role.symm
  have owns : partner.session.own = other.session.own := by
    rw [← spoken.1.own, ← otherSpoken.own, ← roles]
    exact binding_injective lengths same partner.session.role
  rw [channel_of_own inv known otherKnown owns]
  exact taken

end World

/-- What the channels guarantee in a state of the world. -/
structure ChannelIntegrity (hmac : Hmac) (crypto : RoomCrypto) (world : RoomWorld) : Prop where
  partner : ∀ channel ∈ world.channels, channel.established = true →
    ∃ partner ∈ world.channels, Partner channel.session partner.session ∧
      (∃ transcript, channel.session.reached = some transcript ∧
        (partner.session.answered = some transcript ∨
          partner.session.reached = some transcript)) ∧
      ∀ message ∈ channel.delivered, message ∈ partner.sent
  numbered : ∀ channel ∈ world.channels, (channel.sent.map Prod.fst).Nodup
  once : ∀ channel ∈ world.channels, (channel.delivered.map Prod.fst).Nodup
  accepted : ∀ channel ∈ world.channels, ∀ now processed,
    channel.verified = true → channel.process crypto world.calls hmac now = some processed →
    processed.channel.closed = false → ∃ message index fragment next,
      Genuine world.channels channel message ∧ fragment.Carries message.1 message.2 index ∧
      channel.admit fragment = some next ∧ processed.channel = next.finally
  silent : ∀ (id : Nat) (channel : RoomChannel), world.channels[id]? = some channel →
    channel.closed = true → ∀ later final, run (roomStep hmac crypto) world later = some final →
      Silent id channel.delivered final

/-- Any number of channels and any network: integrity. -/
theorem channel_integrity (hmac : Hmac) (crypto : RoomCrypto) (events : List RoomEvent)
    (world : RoomWorld)
    (ideal : Meets (roomStep hmac crypto) (IdealRoomStep hmac crypto) newRoomWorld events)
    (ran : run (roomStep hmac crypto) newRoomWorld events = some world) :
    ChannelIntegrity hmac crypto world := by
  have inv : RoomInv hmac crypto world :=
    run_keeps (room_step_keeps hmac crypto) (new_room_world_inv hmac crypto) ideal ran
  exact {
    partner := by
      intro channel mem established
      exact established_partner inv mem established
    numbered := by
      intro channel mem
      rw [List.Nodup, pairwise_map]
      apply (inv.sound channel mem).apart.imp
      intro first second apart same
      have positive := fragment_count_positive first.2
      omega
    once := by
      intro channel mem
      exact (inv.received channel mem).once
    accepted := by
      intro channel mem now processed verified done running
      obtain ⟨ready, shaken⟩ := (verified_iff channel).mp verified
      obtain ⟨closed, _⟩ | rfl | ⟨fresh, _⟩ | ⟨_, frame, next, taken, rfl⟩ := process_cases done
      · rw [closed] at ready
        cases ready
      · have closed : channel.close.finally.closed = true := close_closed channel
        rw [show channel.close.finally.closed = false from running] at closed
        cases closed
      · rw [shaken] at fresh
        cases fresh
      · obtain ⟨message, index, fragment, genuine, carries, admitted⟩ :=
          take_data_genuine inv mem verified taken
        exact ⟨message, index, fragment, next, genuine, carries, admitted, rfl⟩
    silent := by
      intro id channel found closed later final ran
      have silent : Silent id channel.delivered world := ⟨channel, found, closed, rfl⟩
      exact run_keeps (room_step_silent hmac crypto id channel.delivered) silent
        (meets_of_forall (fun _ _ => trivial) _ _) ran }

def sampleRoomCrypto : RoomCrypto where
  aead := plainTag
  hkdf := fun _ _ => []

def sampleSalt : Bytes := List.replicate 32 0

def sampleEnvelope : Option Json :=
  (sealRoomEnvelope sampleRoomCrypto [9] (text "room") (text "alice") (text "direct") sampleSalt
    (Text.encodeUtf8 (Json.stringify (fragmentBody (text "room") (text "alice") (text "bob")
      (messageFragment (Base64.encode sampleSalt) sampleTranscript.binding 0 [1, 2, 3] 0))))).map
        Prod.snd

def sampleChannelRun : List RoomEvent :=
  [.connect sampleKeys [9] (text "alice") (text "bob") .initiator (sampleChallenge 66) sampleSalt 0,
    .connect sampleKeys [9] (text "bob") (text "alice") .responder (sampleChallenge 67) sampleSalt 0,
    .receive 1 (sampleFrame (text "hello") [(text "challenge", .string (sampleChallenge 66))]) 100,
    .process 1 1, .replied 1 true,
    .receive 0 (sampleFrame (text "challenge")
      [(text "challenge", .string (sampleChallenge 67)), (text "proof", sampleProof .responder)])
      200,
    .process 0 2, .replied 0 true,
    .receive 1 (sampleFrame (text "finish") [(text "proof", sampleProof .initiator)]) 200,
    .process 1 3, .trySend 0 [1, 2, 3], .sealFragment 0 sampleSalt, .handOver 0 true,
    .written 0 true, .receive 1 sampleEnvelope 600, .process 1 4, .receive 1 sampleEnvelope 600,
    .process 1 5]

theorem sample_channel_integrity :
    ∃ world, run (roomStep sampleHmac sampleRoomCrypto) newRoomWorld sampleChannelRun =
        some world ∧
      world.channels.map (fun channel => (channel.closed, channel.delivered)) =
        [(false, []), (true, [(0, [1, 2, 3])])] ∧
      ChannelIntegrity sampleHmac sampleRoomCrypto world := by
  obtain ⟨world, ran, states⟩ := map_eq_some_iff.mp (show
    (run (roomStep sampleHmac sampleRoomCrypto) newRoomWorld sampleChannelRun).map
        (fun world => world.channels.map fun channel => (channel.closed, channel.delivered)) =
      some [(false, []), (true, [(0, [1, 2, 3])])] by decide +kernel)
  exact ⟨world, ran, states, channel_integrity sampleHmac sampleRoomCrypto sampleChannelRun world
    (by decide +kernel) ran⟩

end AwfulChat.RoomSecurity
