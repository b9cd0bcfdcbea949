import AwfulChat.RoomSecurity.ChannelSender

/-!
# What a receiving channel makes of the fragments in order

A channel that is given the fragments of its partner one after the other accepts each of
them. It has delivered the messages all of whose fragments it was given, and assembles the
one it was given some of.
-/

namespace AwfulChat.RoomSecurity

open Library List Option

set_option autoImplicit false

/-- The channel was given the fragments of the messages `whole`, and `index` fragments of
the next one of `sent`. -/
structure Receiving (channel : RoomChannel) (sent whole : List (Nat × Bytes)) (index : Nat) :
    Prop where
  delivered : channel.delivered = whole
  front : whole <+: sent
  idle : index = 0 → channel.assembly = none
  partly : 0 < index → ∃ message, whole ++ [message] <+: sent ∧ index < fragmentCount message.2 ∧
    ∃ assembly, channel.assembly = some assembly ∧ assembly.id = message.1 ∧
      assembly.offset = index * CHUNK_BYTES ∧ assembly.Holds message.2
  window : channel.replay.highest = ((rowOf whole).length + index : Nat) - 1

/-- The constants of a receiving end, and what it knows of its partner's session. -/
structure ReceivingEnd (channel : RoomChannel) (sessionId binding : Text) : Prop where
  binding : channel.session.binding = some binding
  receivedSession : channel.receivedSession = none ∨ channel.receivedSession = some sessionId

section Receiving

variable {channel : RoomChannel} {sent whole : List (Nat × Bytes)} {index : Nat}

theorem Receiving.grow (receiving : Receiving channel sent whole index)
    {more : List (Nat × Bytes)} (longer : sent <+: more) : Receiving channel more whole index where
  delivered := receiving.delivered
  front := receiving.front.trans longer
  idle := receiving.idle
  partly := by
    intro begun
    obtain ⟨message, front, inside, held⟩ := receiving.partly begun
    exact ⟨message, front.trans longer, inside, held⟩
  window := receiving.window

theorem next_of_front {before : List (Nat × Bytes)} {first second : Nat × Bytes}
    (one : before ++ [first] <+: sent) (two : before ++ [second] <+: sent) : first = second := by
  have same := prefix_of_prefix_length_le one two (by simp)
  have equal := same.eq_of_length (by simp)
  simpa using equal

theorem Receiving.next (receiving : Receiving channel sent whole index)
    (more : (rowOf whole).length + index < (rowOf sent).length) :
    ∃ message, whole ++ [message] <+: sent ∧ index < fragmentCount message.2 ∧
      (rowOf sent)[(rowOf whole).length + index]? = some (message, index) := by
  have found : ∃ message, whole ++ [message] <+: sent ∧ index < fragmentCount message.2 := by
    rcases Nat.eq_zero_or_pos index with rfl | begun
    · obtain ⟨rest, rfl⟩ := receiving.front
      cases rest with
      | nil => simp at more
      | cons message rest =>
        refine ⟨message, ?_, fragment_count_positive message.2⟩
        rw [prefix_append_right_inj]
        exact prefix_append [message] rest
    · obtain ⟨message, front, inside, _⟩ := receiving.partly begun
      exact ⟨message, front, inside⟩
  obtain ⟨message, ⟨rest, rfl⟩, inside⟩ := found
  refine ⟨message, prefix_append _ _, inside, ?_⟩
  rw [row_append, row_append, row_single, append_assoc,
    List.getElem?_append_right (Nat.le_add_right _ _), Nat.add_sub_cancel_left,
    List.getElem?_append_left (by rw [fragments_length]; exact inside)]
  simp [fragmentsOf, inside]

theorem Receiving.opened (receiving : Receiving channel sent whole index) {message : Nat × Bytes}
    (front : whole ++ [message] <+: sent) (sessionId binding : Text) :
    ∃ assembly, openAssembly channel.assembly
        (messageFragment sessionId binding message.1 message.2 index) = some assembly ∧
      assembly.id = message.1 ∧ assembly.offset = index * CHUNK_BYTES ∧
      assembly.Holds message.2 := by
  rcases Nat.eq_zero_or_pos index with rfl | begun
  · refine ⟨⟨message.1, message.2.length, 0, List.replicate message.2.length 0⟩, ?_, rfl,
      (Nat.zero_mul _).symm, rfl, Nat.zero_le _, by simp⟩
    rw [receiving.idle rfl, openAssembly, if_neg]
    · rfl
    · simp [messageFragment]
  · obtain ⟨other, otherFront, _, assembly, found, number, offset, holds⟩ := receiving.partly begun
    obtain rfl := next_of_front front otherFront
    refine ⟨assembly, ?_, number, offset, holds⟩
    rw [found]
    rfl

theorem slice_ends {data : Bytes} (inside : index < fragmentCount data) :
    index * CHUNK_BYTES + (sliceAt data CHUNK_BYTES index).length =
      if index + 1 < fragmentCount data then (index + 1) * CHUNK_BYTES else data.length := by
  have start : index * CHUNK_BYTES ≤ data.length := slice_start_le chunk_positive inside
  split
  · rename_i more
    have full := before_last_full chunk_positive more
    rw [slice_length_full (Nat.le_of_lt full), Nat.succ_mul]
  · rename_i last
    have whole : data.length ≤ fragmentCount data * CHUNK_BYTES :=
      length_le_slices data.length chunk_positive
    have count : fragmentCount data = index + 1 := by omega
    rw [count, Nat.succ_mul] at whole
    simp only [sliceAt, length_take, length_drop]
    omega

/-- The next fragment is accepted. -/
theorem Receiving.takes (receiving : Receiving channel sent whole index)
    {sessionId binding : Text} (known : ReceivingEnd channel sessionId binding)
    {message : Nat × Bytes} (front : whole ++ [message] <+: sent)
    (inside : index < fragmentCount message.2) (number : message.1 = (rowOf whole).length) :
    ∃ next, channel.admit (messageFragment sessionId binding message.1 message.2 index) =
        some next ∧
      next.closed = channel.closed ∧ next.established = channel.established ∧
      next.session = channel.session ∧ next.encryptionKey = channel.encryptionKey ∧
      next.pending = channel.pending ∧ next.replying = channel.replying ∧
      next.receivedSession = some sessionId ∧
      ∃ whole' index', Receiving next sent whole' index' ∧
        (rowOf whole').length + index' = (rowOf whole).length + index + 1 := by
  obtain ⟨assembly, opened, same, offset, holds⟩ := receiving.opened front sessionId binding
  have higher : channel.replay.highest < ((message.1 + index : Nat) : Int) := by
    rw [receiving.window, number]
    omega
  obtain ⟨accepts, highest⟩ := accept_next higher
  have admitted : channel.admit (messageFragment sessionId binding message.1 message.2 index) =
      some (RoomChannel.store
        { channel with
          replay := (channel.replay.accept (message.1 + index)).2
          receivedSession := some sessionId }
        (assembly.set (sliceAt message.2 CHUNK_BYTES index))) := by
    have session : ¬ (channel.receivedSession ≠ none ∧ channel.receivedSession ≠
        some (messageFragment sessionId binding message.1 message.2 index).session) := by
      rcases known.receivedSession with fresh | old
      · simp [fresh]
      · simp [old, messageFragment]
    have place : ¬ (assembly.id ≠ message.1 ∨ assembly.total ≠ message.2.length ∨
        assembly.offset ≠ index * CHUNK_BYTES) := by
      simp [same, holds.total, offset]
    unfold RoomChannel.admit
    rw [if_neg (by simp [messageFragment, known.binding]), if_neg session,
      if_neg (by simpa [messageFragment] using accepts), opened]
    exact if_neg place
  have slice : sliceAt message.2 CHUNK_BYTES index =
      (message.2.drop assembly.offset).take CHUNK_BYTES := by
    rw [offset, sliceAt]
  have stored := holds.set slice
  have ends := slice_ends inside
  rw [← offset] at ends
  refine ⟨_, admitted, ?_⟩
  by_cases more : index + 1 < fragmentCount message.2
  · rw [if_pos more] at ends
    have short := before_last_full chunk_positive more
    have partial' : (assembly.set (sliceAt message.2 CHUNK_BYTES index)).offset ≠
        (assembly.set (sliceAt message.2 CHUNK_BYTES index)).total := by
      show assembly.offset + _ ≠ assembly.total
      rw [ends, holds.total]
      exact Nat.ne_of_lt short
    rw [RoomChannel.store, if_neg partial']
    refine ⟨rfl, rfl, rfl, rfl, rfl, rfl, rfl, whole, index + 1, ?_, rfl⟩
    exact {
      delivered := receiving.delivered
      front := receiving.front
      idle := by rintro ⟨⟩
      partly := fun _ => ⟨message, front, more, _, rfl, same, ends, stored⟩
      window := by
        rw [highest, number]
        push_cast
        omega }
  · rw [if_neg more] at ends
    have complete : (assembly.set (sliceAt message.2 CHUNK_BYTES index)).offset =
        (assembly.set (sliceAt message.2 CHUNK_BYTES index)).total := by
      show assembly.offset + _ = assembly.total
      rw [ends, holds.total]
    have count : (rowOf (whole ++ [message])).length = (rowOf whole).length + index + 1 := by
      rw [row_append, row_single, length_append, fragments_length]
      omega
    rw [RoomChannel.store, if_pos complete, stored.whole complete]
    refine ⟨rfl, rfl, rfl, rfl, rfl, rfl, rfl, whole ++ [message], 0, ?_, count⟩
    exact {
      delivered := by
        show channel.delivered ++ [(assembly.id, message.2)] = whole ++ [message]
        rw [receiving.delivered, same]
      front := front
      idle := fun _ => rfl
      partly := by rintro ⟨⟩
      window := by
        rw [highest, number, count]
        push_cast
        omega }

end Receiving

section Opening

variable {crypto : RoomCrypto} {log : List EncryptCall} {sender receiver : RoomChannel}
  {binding : Text}

/-- The two ends of a channel have the same keys, and name each other. -/
structure Ends (sender receiver : RoomChannel) : Prop where
  room : receiver.session.keys.discoveryId = sender.session.keys.discoveryId
  encryptionKey : receiver.encryptionKey = sender.encryptionKey
  localPeer : receiver.session.localPeer = sender.session.remotePeer
  remotePeer : receiver.session.remotePeer = sender.session.localPeer

theorem read_sent_fragment (framed : FramedEnd sender binding) (ends : Ends sender receiver)
    {message : Nat} {data : Bytes} {index : Nat}
    (counted : (messageFragment sender.sessionId binding message data index).Counted)
    (inside : index < fragmentCount data) (small : data.length ≤ MAX_ROOM_MESSAGE) :
    readFragment receiver.session.keys.discoveryId receiver.session.remotePeer
        receiver.session.localPeer (some (fragmentBody sender.session.keys.discoveryId
          sender.session.localPeer sender.session.remotePeer
          (messageFragment sender.sessionId binding message data index))) =
      some (messageFragment sender.sessionId binding message data index) := by
  obtain ⟨random, length, encoded⟩ := framed.sessionId
  have letters : sender.sessionId.any (fun unit => (Base64.letterValue unit).isNone) = false := by
    rw [List.any_eq_false, encoded]
    intro unit mem
    have known := Base64.encode_alphabet random unit mem
    rw [Bool.not_eq_true, isNone_eq_false_iff]
    exact known
  have size : sender.sessionId.length = 43 := by rw [encoded, Base64.encode_length, length]
  have start : index * CHUNK_BYTES ≤ data.length := slice_start_le chunk_positive inside
  have ends' := slice_ends inside
  have bounded : index * CHUNK_BYTES + (sliceAt data CHUNK_BYTES index).length ≤ data.length := by
    rw [ends']
    split
    · rename_i more
      exact Nat.le_of_lt (before_last_full chunk_positive more)
    · exact Nat.le_refl _
  have empty : ¬ (sliceAt data CHUNK_BYTES index = [] ∧ data.length ≠ 0) := by
    rintro ⟨nothing, full⟩
    have short : index * CHUNK_BYTES < data.length := by
      cases index with
      | zero => simpa using Nat.pos_of_ne_zero full
      | succ index => exact before_last_full chunk_positive inside
    have positive := chunk_positive
    have none : (sliceAt data CHUNK_BYTES index).length = 0 := by rw [nothing]; rfl
    simp only [sliceAt, length_take, length_drop] at none
    generalize CHUNK_BYTES = width at none short positive
    omega
  rw [read_fragment_body counted, if_neg, if_neg]
  · show ¬ (MAX_ROOM_MESSAGE < data.length ∨ CHUNK_BYTES < (sliceAt data CHUNK_BYTES index).length ∨
      data.length < index * CHUNK_BYTES + (sliceAt data CHUNK_BYTES index).length ∨
      (sliceAt data CHUNK_BYTES index = [] ∧ data.length ≠ 0))
    have narrow := slice_length_le data CHUNK_BYTES index
    simp only [not_or]
    exact ⟨not_lt.mpr small, not_lt.mpr narrow, not_lt.mpr bounded, empty⟩
  · simp [messageFragment, ends.room, ends.localPeer, ends.remotePeer, size, letters]

theorem sealed_labels {encryptionKey : Bytes} {room peer kind : Text} {salt plaintext : Bytes}
    {call : EncryptCall} {frame : Json}
    (enveloped : sealRoomEnvelope crypto encryptionKey room peer kind salt plaintext =
      some (call, frame)) :
    stringProperty (some frame) (text "sender") = some peer ∧
      stringProperty (some frame) (text "kind") = some kind := by
  obtain ⟨_, _, _, rfl⟩ := seal_spec enveloped
  exact ⟨rfl, rfl⟩

theorem take_sent_frame (framed : FramedEnd sender binding) (ends : Ends sender receiver)
    {message : Nat} {data : Bytes} {index : Nat}
    (counted : (messageFragment sender.sessionId binding message data index).Counted)
    (inside : index < fragmentCount data) (small : data.length ≤ MAX_ROOM_MESSAGE) {salt : Bytes}
    (salted : salt.length = 32) {call : EncryptCall} {frame : Json} (known : call ∈ log)
    (enveloped : sealRoomEnvelope crypto sender.encryptionKey sender.session.keys.discoveryId
      sender.session.localPeer (text "direct") salt (fragmentBytes sender.session
        (messageFragment sender.sessionId binding message data index)) = some (call, frame)) :
    receiver.takeData crypto log (some frame) =
      receiver.admit (messageFragment sender.sessionId binding message data index) := by
  have opened := open_sealed enveloped salted known
  have read := read_sent_fragment framed ends counted inside small
  obtain ⟨senderRead, kindRead⟩ := sealed_labels enveloped
  have addressed : ¬ (stringProperty (some frame) (text "sender") ≠
      some receiver.session.remotePeer ∨
      stringProperty (some frame) (text "kind") ≠ some (text "direct")) := by
    simp [senderRead, kindRead, ends.remotePeer]
  unfold RoomChannel.takeData
  rw [ends.room] at read
  rw [ends.room, ends.encryptionKey, opened, bind_eq_bind, bind_some,
    if_neg addressed, parse_fragment_bytes counted, bind_eq_bind, bind_some, read,
    bind_eq_bind, bind_some]

end Opening

end AwfulChat.RoomSecurity
