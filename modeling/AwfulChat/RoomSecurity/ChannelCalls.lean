import AwfulChat.RoomSecurity.Channel

/-!
# The calls of a room channel

What each call leaves alone, what it keeps, and what a channel makes of the fragments it
is given. The sending side and the receiving side of a channel share only its session
and whether it is closed.
-/

namespace AwfulChat.RoomSecurity

open Library List Option

set_option autoImplicit false

/-- What a call leaves alone on the sending side. -/
structure SameSending (before after : RoomChannel) : Prop where
  sequence : after.sequence = before.sequence
  sent : after.sent = before.sent
  jobs : after.jobs = before.jobs

/-- What a call leaves alone on the receiving side; it may give up what it assembles. -/
structure SameReceiving (before after : RoomChannel) : Prop where
  replay : after.replay = before.replay
  delivered : after.delivered = before.delivered
  assembly : after.assembly = before.assembly ∨ after.assembly = none

/-- The session is the one it was, or closed. -/
structure SameSession (before after : RoomChannel) : Prop where
  session : after.session = before.session ∨ after.session = before.session.close
  encryptionKey : after.encryptionKey = before.encryptionKey
  sessionId : after.sessionId = before.sessionId

theorem SameReceiving.refl (channel : RoomChannel) : SameReceiving channel channel :=
  ⟨rfl, rfl, Or.inl rfl⟩

theorem SameSession.refl (channel : RoomChannel) : SameSession channel channel :=
  ⟨Or.inl rfl, rfl, rfl⟩

variable {first second third : RoomChannel} {fragment : Fragment} {data : Bytes}

theorem SameReceiving.trans (one : SameReceiving first second)
    (two : SameReceiving second third) : SameReceiving first third where
  replay := two.replay.trans one.replay
  delivered := two.delivered.trans one.delivered
  assembly := by
    rcases two.assembly with kept | dropped
    · rcases one.assembly with keptToo | droppedToo
      · exact Or.inl (kept.trans keptToo)
      · exact Or.inr (kept.trans droppedToo)
    · exact Or.inr dropped

theorem SameSession.trans (one : SameSession first second)
    (two : SameSession second third) : SameSession first third where
  session := by
    rcases two.session with kept | closed
    · rcases one.session with keptToo | closedToo
      · exact Or.inl (kept.trans keptToo)
      · exact Or.inr (kept.trans closedToo)
    · rcases one.session with keptToo | closedToo
      · exact Or.inr (closed.trans (by rw [keptToo]))
      · exact Or.inr (closed.trans (by rw [closedToo]; rfl))
  encryptionKey := two.encryptionKey.trans one.encryptionKey
  sessionId := two.sessionId.trans one.sessionId

structure ChannelSound (channel : RoomChannel) : Prop where
  reached : channel.established = true → ∃ transcript, channel.session.reached = some transcript
  opened : channel.verified = true → channel.session.state = .verified
  peers : channel.session.localPeer ≠ channel.session.remotePeer
  apart : channel.sent.Pairwise fun first second => first.1 + fragmentCount first.2 ≤ second.1
  below : ∀ message ∈ channel.sent, message.1 + fragmentCount message.2 ≤ channel.sequence
  small : ∀ message ∈ channel.sent, message.2.length ≤ MAX_ROOM_MESSAGE
  counted : channel.sequence < 2 ^ 53
  jobs : ∀ job ∈ channel.jobs, (job.message, job.data) ∈ channel.sent ∧
    job.index < fragmentCount job.data

theorem verified_iff (channel : RoomChannel) :
    channel.verified = true ↔ channel.closed = false ∧ channel.established = true := by
  simp [RoomChannel.verified]

variable {before after : RoomChannel} {genuine : Nat × Bytes → Prop} {assembly : Assembly}
  {channel next : RoomChannel}

theorem SameSession.reached (same : SameSession before after) :
    after.session.reached = before.session.reached := by
  rcases same.session with kept | closed
  · rw [kept]
  · rw [closed]
    rfl

theorem SameSession.continues (same : SameSession before after) :
    Continues before.session after.session := by
  rcases same.session with kept | closed
  · rw [kept]
    exact Continues.refl _
  · rw [closed]
    exact close_continues _

theorem ChannelSound.same (sound : ChannelSound before) (sending : SameSending before after)
    (session : SameSession before after) (established : after.established = before.established)
    (still : after.closed = false → before.closed = false ∧ after.session = before.session) :
    ChannelSound after where
  reached := by
    rw [established, session.reached]
    exact sound.reached
  opened := by
    intro verified
    obtain ⟨running, shaken⟩ := (verified_iff after).mp verified
    obtain ⟨ran, kept⟩ := still running
    rw [kept]
    exact sound.opened ((verified_iff before).mpr ⟨ran, established.symm.trans shaken⟩)
  peers := by
    rw [session.continues.localPeer, session.continues.remotePeer]
    exact sound.peers
  apart := by
    rw [sending.sent]
    exact sound.apart
  below := by
    rw [sending.sent, sending.sequence]
    exact sound.below
  small := by
    rw [sending.sent]
    exact sound.small
  counted := by
    rw [sending.sequence]
    exact sound.counted
  jobs := by
    rw [sending.jobs, sending.sent]
    exact sound.jobs

section Calls

variable {channel : RoomChannel}

theorem close_closed (channel : RoomChannel) : channel.close.closed = true := by
  unfold RoomChannel.close
  split
  · assumption
  · rfl

theorem close_sending (channel : RoomChannel) : SameSending channel channel.close := by
  unfold RoomChannel.close
  split <;> exact ⟨rfl, rfl, rfl⟩

theorem close_receiving (channel : RoomChannel) : SameReceiving channel channel.close := by
  unfold RoomChannel.close
  split
  · exact SameReceiving.refl channel
  · exact ⟨rfl, rfl, Or.inr rfl⟩

theorem close_session (channel : RoomChannel) : SameSession channel channel.close := by
  unfold RoomChannel.close
  split
  · exact SameSession.refl channel
  · exact ⟨Or.inr rfl, rfl, rfl⟩

theorem close_channel_sound (sound : ChannelSound channel) : ChannelSound channel.close := by
  apply sound.same (close_sending channel) (close_session channel)
  · unfold RoomChannel.close
    split <;> rfl
  · intro running
    rw [close_closed] at running
    cases running

theorem finally_sound (sound : ChannelSound channel) : ChannelSound channel.finally :=
  sound.same ⟨rfl, rfl, rfl⟩ ⟨Or.inl rfl, rfl, rfl⟩ rfl fun running => ⟨running, rfl⟩

theorem receive_same (frame : Option Json) (bytes : Int) :
    SameReceiving channel (channel.receive frame bytes) ∧
      SameSession channel (channel.receive frame bytes) := by
  unfold RoomChannel.receive
  split
  · exact ⟨SameReceiving.refl channel, SameSession.refl channel⟩
  · split
    · exact ⟨close_receiving channel, close_session channel⟩
    · exact ⟨⟨rfl, rfl, Or.inl rfl⟩, ⟨Or.inl rfl, rfl, rfl⟩⟩

theorem receive_channel_sound (sound : ChannelSound channel) (frame : Option Json) (bytes : Int) :
    ChannelSound (channel.receive frame bytes) := by
  unfold RoomChannel.receive
  split
  · exact sound
  · split
    · exact close_channel_sound sound
    · exact sound.same ⟨rfl, rfl, rfl⟩ ⟨Or.inl rfl, rfl, rfl⟩ rfl fun running => ⟨running, rfl⟩

theorem settle_same (channel : RoomChannel) :
    SameReceiving channel channel.settle ∧ SameSession channel channel.settle := by
  unfold RoomChannel.settle
  split
  · exact ⟨SameReceiving.refl channel, SameSession.refl channel⟩
  · split
    · exact ⟨⟨rfl, rfl, Or.inl rfl⟩, ⟨Or.inl rfl, rfl, rfl⟩⟩
    · exact ⟨SameReceiving.refl channel, SameSession.refl channel⟩

theorem settle_sound (sound : ChannelSound channel) (session : SessionSound channel.session) :
    ChannelSound channel.settle := by
  unfold RoomChannel.settle
  split
  · exact sound
  · split
    · rename_i verified
      exact { sound with
        reached := by
          intro _
          exact ⟨_, session.verified verified⟩
        opened := by
          intro _
          exact verified }
    · exact sound

variable {next : RoomChannel} {call : Option EncryptCall}

variable {crypto : RoomCrypto} {frame : Option Json} {accepted : Bool} {ok : Bool} {salt : Bytes}

theorem replied_spec (replied : channel.replied ok = some next) :
    next = channel.settle.finally ∨ next = channel.close.finally := by
  unfold RoomChannel.replied at replied
  split at replied
  · cases replied
  · split at replied
    · exact Or.inl (Option.some.inj replied).symm
    · exact Or.inr (Option.some.inj replied).symm

theorem finally_same (channel : RoomChannel) :
    SameReceiving channel channel.finally ∧ SameSession channel channel.finally :=
  ⟨⟨rfl, rfl, Or.inl rfl⟩, ⟨Or.inl rfl, rfl, rfl⟩⟩

theorem fragment_count_positive (data : Bytes) : 0 < fragmentCount data :=
  Nat.lt_of_lt_of_le Nat.one_pos (Nat.le_max_left 1 _)

theorem try_send_cases (channel : RoomChannel) (data : Bytes) :
    (∃ result, result ≠ .sent ∧ channel.trySend data = channel.resolve none data result) ∨
    (channel.verified = true ∧ data.length ≤ MAX_ROOM_MESSAGE ∧
      (channel.sequence : Int) + fragmentCount data ≤ MAX_SAFE_INTEGER ∧
      channel.trySend data =
        { channel with
          sequence := channel.sequence + fragmentCount data
          sent := channel.sent ++ [(channel.sequence, data)]
          jobs := channel.jobs ++
            [{ message := channel.sequence
               data := data
               index := 0
               phase := .idle
               handedOver := false }] }) := by
  unfold RoomChannel.trySend
  split
  · exact Or.inl ⟨.unsent, by decide, rfl⟩
  · rename_i verified
    split
    · exact Or.inl ⟨.failed, by decide, rfl⟩
    · rename_i allowed
      simp only [not_or, not_lt] at allowed
      refine Or.inr ⟨by simpa using verified, allowed.1, by omega, rfl⟩

theorem try_send_same (data : Bytes) :
    SameReceiving channel (channel.trySend data) ∧ SameSession channel (channel.trySend data) := by
  obtain ⟨result, _, same⟩ | ⟨_, _, _, same⟩ := try_send_cases channel data
  · rw [same]
    exact ⟨⟨rfl, rfl, Or.inl rfl⟩, ⟨Or.inl rfl, rfl, rfl⟩⟩
  · rw [same]
    exact ⟨⟨rfl, rfl, Or.inl rfl⟩, ⟨Or.inl rfl, rfl, rfl⟩⟩

section

variable (sound : ChannelSound channel)
include sound

theorem resolve_sound (message : Option Nat) (data : Bytes)
    (result : SendResult) : ChannelSound (channel.resolve message data result) :=
  sound.same ⟨rfl, rfl, rfl⟩ ⟨Or.inl rfl, rfl, rfl⟩ rfl fun running => ⟨running, rfl⟩

theorem try_send_sound (data : Bytes) :
    ChannelSound (channel.trySend data) := by
  obtain ⟨result, _, same⟩ | ⟨_, short, counted, same⟩ := try_send_cases channel data
  · rw [same]
    exact resolve_sound sound none data result
  · rw [same]
    exact {
      reached := sound.reached
      opened := by
        intro verified
        obtain ⟨running, shaken⟩ := (verified_iff _).mp verified
        exact sound.opened ((verified_iff channel).mpr ⟨running, shaken⟩)
      peers := sound.peers
      apart := by
        rw [pairwise_append]
        refine ⟨sound.apart, by simp, ?_⟩
        intro first mem second last
        obtain rfl := mem_singleton.mp last
        exact sound.below first mem
      below := by
        intro message mem
        rcases mem_append.mp mem with known | last
        · exact Nat.le_trans (sound.below message known) (Nat.le_add_right _ _)
        · obtain rfl := mem_singleton.mp last
          exact Nat.le_refl _
      small := by
        intro message mem
        rcases mem_append.mp mem with known | last
        · exact sound.small message known
        · obtain rfl := mem_singleton.mp last
          exact short
      counted := by
        have bound : MAX_SAFE_INTEGER = 9007199254740991 := rfl
        have limit : (2 : Nat) ^ 53 = 9007199254740992 := rfl
        rw [bound] at counted
        rw [limit]
        show channel.sequence + fragmentCount data < 9007199254740992
        omega
      jobs := by
        intro job mem
        rcases mem_append.mp mem with known | last
        · obtain ⟨sent, inside⟩ := sound.jobs job known
          exact ⟨mem_append_left _ sent, inside⟩
        · obtain rfl := mem_singleton.mp last
          exact ⟨by simp, fragment_count_positive data⟩ }

theorem jobs_sound {jobs : List SendJob}
    (valid : ∀ job ∈ jobs, (job.message, job.data) ∈ channel.sent ∧
      job.index < fragmentCount job.data) : ChannelSound { channel with jobs := jobs } :=
  { sound with jobs := valid }

theorem fail_job_sound (job : SendJob) :
    ChannelSound (channel.failJob job) := by
  apply close_channel_sound
  apply jobs_sound (resolve_sound sound _ _ _)
  intro other mem
  exact sound.jobs other (mem_of_mem_tail mem)

end

theorem fail_job_same (channel : RoomChannel) (job : SendJob) :
    SameReceiving channel (channel.failJob job) ∧ SameSession channel (channel.failJob job) ∧
      (channel.failJob job).sent = channel.sent := by
  refine ⟨SameReceiving.trans ?_ (close_receiving _), SameSession.trans ?_ (close_session _), ?_⟩
  · exact ⟨rfl, rfl, Or.inl rfl⟩
  · exact ⟨Or.inl rfl, rfl, rfl⟩
  · exact (close_sending _).sent

theorem seal_next_cases (sealed : channel.sealNext crypto salt = some (next, call)) :
    ∃ job rest, channel.jobs = job :: rest ∧ job.phase = .idle ∧
      ((next = channel.failJob job ∧ call = none) ∨
        ∃ binding made frame, channel.verified = true ∧
          channel.session.binding = some binding ∧ call = some made ∧
          sealRoomEnvelope crypto channel.encryptionKey channel.session.keys.discoveryId
            channel.session.localPeer (text "direct") salt (fragmentBytes channel.session
              (messageFragment channel.sessionId binding job.message job.data job.index)) =
                some (made, frame) ∧
          next = { channel with jobs := { job with phase := .sealed frame } :: rest }) := by
  unfold RoomChannel.sealNext at sealed
  split at sealed
  · cases sealed
  · rename_i job rest queue
    split at sealed
    · rename_i binding idle verified bound
      refine ⟨job, rest, queue, idle, ?_⟩
      split at sealed
      · obtain ⟨rfl, rfl⟩ := Prod.mk.inj (Option.some.inj sealed)
        exact Or.inl ⟨rfl, rfl⟩
      · rename_i made frame enveloped
        obtain ⟨rfl, rfl⟩ := Prod.mk.inj (Option.some.inj sealed)
        exact Or.inr ⟨binding, made, frame, verified, bound, rfl, enveloped, rfl⟩
    · rename_i idle _
      obtain ⟨rfl, rfl⟩ := Prod.mk.inj (Option.some.inj sealed)
      exact ⟨job, rest, queue, idle, Or.inl ⟨rfl, rfl⟩⟩
    · cases sealed

theorem hand_over_cases (handed : channel.handOver accepted = some (next, frame)) :
    ∃ job rest made, channel.jobs = job :: rest ∧ job.phase = .sealed made ∧
      ((∃ flagged, (flagged = false → job.handedOver = false) ∧ frame = none ∧
          next = channel.failJob { job with handedOver := flagged }) ∨
        (accepted = true ∧ frame = some made ∧ next = { channel with
          jobs := { job with phase := .writing, handedOver := true } :: rest })) := by
  unfold RoomChannel.handOver at handed
  split at handed
  · cases handed
  · rename_i job rest queue
    split at handed
    · rename_i made phase
      refine ⟨job, rest, made, queue, phase, ?_⟩
      split at handed
      · obtain ⟨rfl, rfl⟩ := Prod.mk.inj (Option.some.inj handed)
        exact Or.inl ⟨job.handedOver, fun unflagged => unflagged, rfl, rfl⟩
      · split at handed
        · rename_i accepts
          obtain ⟨rfl, rfl⟩ := Prod.mk.inj (Option.some.inj handed)
          exact Or.inr ⟨accepts, rfl, rfl⟩
        · obtain ⟨rfl, rfl⟩ := Prod.mk.inj (Option.some.inj handed)
          exact Or.inl ⟨true, nofun, rfl, rfl⟩
    · cases handed

theorem written_cases (written : channel.written ok = some next) :
    ∃ job rest, channel.jobs = job :: rest ∧ job.phase = .writing ∧
      (next = channel.failJob job ∨
        (job.index + 1 < fragmentCount job.data ∧
          next = { channel with
            jobs := { job with phase := .idle, index := job.index + 1 } :: rest }) ∨
        (fragmentCount job.data ≤ job.index + 1 ∧
          next = { channel.resolve (some job.message) job.data .sent with jobs := rest })) := by
  unfold RoomChannel.written at written
  split at written
  · cases written
  · rename_i job rest queue
    split at written
    · rename_i phase
      refine ⟨job, rest, queue, phase, ?_⟩
      split at written
      · exact Or.inl (Option.some.inj written).symm
      · split at written
        · rename_i more
          exact Or.inr (Or.inl ⟨more, (Option.some.inj written).symm⟩)
        · rename_i last
          exact Or.inr (Or.inr ⟨not_lt.mp last, (Option.some.inj written).symm⟩)
    · cases written

theorem seal_next_sound (sound : ChannelSound channel)
    (sealed : channel.sealNext crypto salt = some (next, call)) : ChannelSound next := by
  obtain ⟨job, rest, queue, _, ⟨rfl, _⟩ | ⟨_, _, frame, _, _, _, _, rfl⟩⟩ := seal_next_cases sealed
  · exact fail_job_sound sound job
  · apply jobs_sound sound
    intro other mem
    have jobs := sound.jobs
    rw [queue] at jobs
    rcases mem_cons.mp mem with rfl | later
    · exact jobs job mem_cons_self
    · exact jobs other (mem_cons_of_mem _ later)

theorem hand_over_sound (sound : ChannelSound channel)
    (handed : channel.handOver accepted = some (next, frame)) :
    ChannelSound next := by
  obtain ⟨job, rest, _, queue, _, ⟨flagged, _, _, rfl⟩ | ⟨_, _, rfl⟩⟩ := hand_over_cases handed
  · exact fail_job_sound sound _
  · apply jobs_sound sound
    intro other mem
    have jobs := sound.jobs
    rw [queue] at jobs
    rcases mem_cons.mp mem with rfl | later
    · exact jobs job mem_cons_self
    · exact jobs other (mem_cons_of_mem _ later)

theorem written_sound (sound : ChannelSound channel)
    (written : channel.written ok = some next) : ChannelSound next := by
  obtain ⟨job, rest, queue, _, rfl | ⟨more, rfl⟩ | ⟨_, rfl⟩⟩ := written_cases written
  · exact fail_job_sound sound job
  · apply jobs_sound sound
    intro other mem
    have jobs := sound.jobs
    rw [queue] at jobs
    rcases mem_cons.mp mem with rfl | later
    · exact ⟨(jobs job mem_cons_self).1, more⟩
    · exact jobs other (mem_cons_of_mem _ later)
  · apply jobs_sound (resolve_sound sound _ _ _)
    intro other mem
    apply sound.jobs other
    rw [queue]
    exact mem_cons_of_mem _ mem

/-- A call on the sending side. -/
structure SendMoves (before after : RoomChannel) : Prop where
  receiving : SameReceiving before after
  session : SameSession before after
  sent : before.sent <+: after.sent
  closed : before.closed = true → after.closed = true

theorem SendMoves.refl (channel : RoomChannel) : SendMoves channel channel :=
  ⟨SameReceiving.refl channel, SameSession.refl channel, prefix_refl _,
    fun closed => closed⟩

theorem try_send_moves (channel : RoomChannel) (data : Bytes) :
    SendMoves channel (channel.trySend data) where
  receiving := (try_send_same data).1
  session := (try_send_same data).2
  sent := by
    obtain ⟨result, _, same⟩ | ⟨_, _, _, same⟩ := try_send_cases channel data
    · rw [same]
      exact prefix_refl _
    · rw [same]
      exact prefix_append _ _
  closed := by
    intro closed
    obtain ⟨result, _, same⟩ | ⟨_, _, _, same⟩ := try_send_cases channel data
    · rw [same]
      exact closed
    · rw [same]
      exact closed

theorem fail_job_moves (channel : RoomChannel) (job : SendJob) :
    SendMoves channel (channel.failJob job) := by
  obtain ⟨receiving, session, sent⟩ := fail_job_same channel job
  exact ⟨receiving, session, sent ▸ prefix_refl _,
    fun _ => close_closed _⟩

theorem jobs_moves (channel : RoomChannel) (jobs : List SendJob) :
    SendMoves channel { channel with jobs := jobs } :=
  ⟨⟨rfl, rfl, Or.inl rfl⟩, ⟨Or.inl rfl, rfl, rfl⟩, prefix_refl _, fun closed => closed⟩

theorem seal_next_moves (sealed : channel.sealNext crypto salt = some (next, call)) :
    SendMoves channel next := by
  obtain ⟨job, _, _, _, ⟨rfl, _⟩ | ⟨_, _, _, _, _, _, _, rfl⟩⟩ := seal_next_cases sealed
  · exact fail_job_moves channel job
  · exact jobs_moves channel _

theorem hand_over_moves
    (handed : channel.handOver accepted = some (next, frame)) : SendMoves channel next := by
  obtain ⟨_, _, _, _, _, ⟨_, _, _, rfl⟩ | ⟨_, _, rfl⟩⟩ := hand_over_cases handed
  · exact fail_job_moves channel _
  · exact jobs_moves channel _

theorem written_moves (written : channel.written ok = some next) :
    SendMoves channel next := by
  obtain ⟨job, rest, _, _, rfl | ⟨_, rfl⟩ | ⟨_, rfl⟩⟩ := written_cases written
  · exact fail_job_moves channel job
  · exact jobs_moves channel _
  · exact ⟨⟨rfl, rfl, Or.inl rfl⟩, ⟨Or.inl rfl, rfl, rfl⟩, prefix_refl _,
      fun closed => closed⟩

end Calls

/-- The first `offset` bytes are those of the message, the rest still zero. -/
structure Assembly.Holds (assembly : Assembly) (data : Bytes) : Prop where
  total : assembly.total = data.length
  inside : assembly.offset ≤ data.length
  bytes : assembly.bytes =
    data.take assembly.offset ++ List.replicate (data.length - assembly.offset) 0

theorem Assembly.Holds.set {data part : Bytes} (holds : assembly.Holds data) {width : Nat}
    (slice : part = (data.drop assembly.offset).take width) :
    (assembly.set part).Holds data := by
  obtain ⟨inside, written⟩ := overwrite_slice holds.inside holds.bytes slice
  exact ⟨holds.total, inside, written⟩

theorem Assembly.Holds.whole (holds : assembly.Holds data)
    (complete : assembly.offset = assembly.total) : assembly.bytes = data := by
  rw [holds.bytes, complete, holds.total]
  simp

/-- The receiving side of a channel all of whose messages are `genuine`. -/
structure Received (genuine : Nat × Bytes → Prop) (channel : RoomChannel) : Prop where
  once : (channel.delivered.map Prod.fst).Nodup
  delivered : ∀ message ∈ channel.delivered, genuine message
  window : ∃ accepted, channel.replay.Covers accepted ∧
    (∀ message ∈ channel.delivered, message.1 ∈ accepted) ∧
    ∀ assembly, channel.assembly = some assembly → assembly.id ∈ accepted
  assembly : ∀ assembly, channel.assembly = some assembly →
    assembly.id ∉ channel.delivered.map Prod.fst ∧
    ∃ data, genuine (assembly.id, data) ∧ assembly.Holds data

theorem Received.same {genuine weaker : Nat × Bytes → Prop} (received : Received genuine before)
    (same : SameReceiving before after)
    (weaken : ∀ message, genuine message → weaker message) : Received weaker after where
  once := by
    rw [same.delivered]
    exact received.once
  delivered := by
    rw [same.delivered]
    intro message mem
    exact weaken message (received.delivered message mem)
  window := by
    obtain ⟨accepted, covers, known, current⟩ := received.window
    rw [same.replay, same.delivered]
    refine ⟨accepted, covers, known, ?_⟩
    intro assembly found
    rcases same.assembly with kept | dropped
    · exact current assembly (kept.symm.trans found)
    · rw [dropped] at found
      cases found
  assembly := by
    intro assembly found
    rcases same.assembly with kept | dropped
    · obtain ⟨fresh, data, sent, holds⟩ := received.assembly assembly (kept.symm.trans found)
      rw [same.delivered]
      exact ⟨fresh, data, weaken _ sent, holds⟩
    · rw [dropped] at found
      cases found

theorem admit_spec (admitted : channel.admit fragment = some next) :
    channel.session.binding = some fragment.membership ∧
      (channel.replay.accept fragment.sequence).1 = true ∧
      ∃ assembly, openAssembly channel.assembly fragment = some assembly ∧
        assembly.id = fragment.message ∧ assembly.offset = fragment.offset ∧
        next = RoomChannel.store
          { channel with
            replay := (channel.replay.accept fragment.sequence).2
            receivedSession := some fragment.session }
          (assembly.set fragment.data) := by
  unfold RoomChannel.admit at admitted
  split at admitted
  · cases admitted
  · rename_i bound
    split at admitted
    · cases admitted
    · split at admitted
      · cases admitted
      · rename_i accepts
        split at admitted
        · cases admitted
        · rename_i assembly opened
          split at admitted
          · cases admitted
          · rename_i fits
            simp only [not_or, ne_eq, Decidable.not_not] at fits bound
            exact ⟨bound, by simpa using accepts, assembly, opened, fits.1, fits.2.2,
              (Option.some.inj admitted).symm⟩

/-- The fragment is slice `index` of the message. -/
structure Fragment.Carries (fragment : Fragment) (message : Nat) (data : Bytes) (index : Nat) :
    Prop where
  sequence : fragment.sequence = message + index
  message : fragment.message = message
  offset : fragment.offset = index * CHUNK_BYTES
  total : fragment.total = data.length
  data : fragment.data = sliceAt data CHUNK_BYTES index

theorem message_fragment_carries (session membership : Text) (message : Nat) (data : Bytes)
    (index : Nat) : (messageFragment session membership message data index).Carries message data
      index := ⟨rfl, rfl, rfl, rfl, rfl⟩

theorem chunk_positive : 0 < CHUNK_BYTES := by decide

theorem open_assembly_received {channel : RoomChannel} (received : Received genuine channel)
    {message : Nat} {index : Nat} (carries : fragment.Carries message data index)
    (only : ∀ other, genuine (message, other) → other = data) {accepted : List Nat}
    (known : ∀ message ∈ channel.delivered, message.1 ∈ accepted)
    (current : ∀ assembly, channel.assembly = some assembly → assembly.id ∈ accepted)
    (fresh : fragment.sequence ∉ accepted)
    (opened : openAssembly channel.assembly fragment = some assembly)
    (same : assembly.id = fragment.message) :
    assembly.Holds data ∧ message ∉ channel.delivered.map Prod.fst ∧
      message ∈ fragment.sequence :: accepted := by
  rw [carries.message] at same
  unfold openAssembly at opened
  split at opened
  · rename_i running found
    obtain rfl := Option.some.inj opened
    obtain ⟨undelivered, other, sentToo, holds⟩ := received.assembly running found
    rw [same] at undelivered sentToo
    obtain rfl := only other sentToo
    exact ⟨holds, undelivered, mem_cons_of_mem _ (same ▸ current running found)⟩
  · split at opened
    · cases opened
    · rename_i first
      simp only [not_or, ne_eq, Decidable.not_not, carries.message] at first
      obtain rfl := Option.some.inj opened
      rw [← first.2] at fresh ⊢
      refine ⟨⟨carries.total, Nat.zero_le _, ?_⟩, ?_, mem_cons_self⟩
      · simp only [carries.total, take_zero, nil_append, Nat.sub_zero]
      · intro mem
        obtain ⟨earlier, delivered, number⟩ := mem_map.mp mem
        have old := known earlier delivered
        rw [number] at old
        exact fresh old

theorem store_received {channel : RoomChannel} {accepted : List Nat}
    (once : (channel.delivered.map Prod.fst).Nodup)
    (delivered : ∀ message ∈ channel.delivered, genuine message)
    (covers : channel.replay.Covers accepted)
    (known : ∀ message ∈ channel.delivered, message.1 ∈ accepted) (noted : assembly.id ∈ accepted)
    (undelivered : assembly.id ∉ channel.delivered.map Prod.fst)
    (sent : genuine (assembly.id, data)) (holds : assembly.Holds data) :
    Received genuine (channel.store assembly) := by
  by_cases complete : assembly.offset = assembly.total
  · rw [RoomChannel.store, if_pos complete]
    exact {
      once := by
        rw [map_append, nodup_append]
        refine ⟨once, by simp, ?_⟩
        intro first mem second last
        simp only [map_cons, map_nil, mem_singleton] at last
        rintro rfl
        rw [last] at mem
        exact undelivered mem
      delivered := by
        intro other mem
        rcases mem_append.mp mem with old | last
        · exact delivered other old
        · obtain rfl := mem_singleton.mp last
          rw [holds.whole complete]
          exact sent
      window := by
        refine ⟨accepted, covers, ?_, by simp⟩
        intro other mem
        rcases mem_append.mp mem with old | last
        · exact known other old
        · obtain rfl := mem_singleton.mp last
          exact noted
      assembly := by simp }
  · rw [RoomChannel.store, if_neg complete]
    exact {
      once := once
      delivered := delivered
      window := by
        refine ⟨accepted, covers, known, ?_⟩
        intro running found
        obtain rfl := Option.some.inj found
        exact noted
      assembly := by
        intro running found
        obtain rfl := Option.some.inj found
        exact ⟨undelivered, data, sent, holds⟩ }

theorem admit_received (received : Received genuine channel) {message : Nat} {index : Nat}
    (carries : fragment.Carries message data index) (sent : genuine (message, data))
    (only : ∀ other, genuine (message, other) → other = data)
    (admitted : channel.admit fragment = some next) : Received genuine next := by
  obtain ⟨_, accepts, assembly, opened, same, place, rfl⟩ := admit_spec admitted
  obtain ⟨accepted, covers, known, current⟩ := received.window
  obtain ⟨fresh, covered⟩ := accept_fresh covers accepts
  obtain ⟨holds, undelivered, noted⟩ :=
    open_assembly_received received carries only known current fresh opened same
  have number : (assembly.set fragment.data).id = message := same.trans carries.message
  have slice : fragment.data = (data.drop assembly.offset).take CHUNK_BYTES := by
    rw [carries.data, place, carries.offset, sliceAt]
  rw [← number] at undelivered noted sent
  have known' : ∀ other ∈ channel.delivered, other.1 ∈ fragment.sequence :: accepted := by
    intro other mem
    exact mem_cons_of_mem _ (known other mem)
  exact store_received received.once received.delivered covered known' noted undelivered sent
    (holds.set slice)

theorem take_data_spec {crypto : RoomCrypto} {log : List EncryptCall} {frame : Option Json}
    (taken : channel.takeData crypto log frame = some next) :
    ∃ call ∈ log, ∃ kind salt body fragment,
      call.aad = envelopeAad channel.session.keys.discoveryId channel.session.remotePeer kind salt ∧
      Json.parse (Text.decodeUtf8 call.plain) = some body ∧
      readFragment channel.session.keys.discoveryId channel.session.remotePeer
        channel.session.localPeer (some body) = some fragment ∧
      channel.admit fragment = some next := by
  obtain ⟨raw, opened, taken⟩ := bind_eq_some_iff.mp taken
  split at taken
  · cases taken
  · rename_i outer
    simp only [not_or, ne_eq, Decidable.not_not] at outer
    obtain ⟨body, parsed, taken⟩ := bind_eq_some_iff.mp taken
    obtain ⟨fragment, read, admitted⟩ := bind_eq_some_iff.mp taken
    obtain ⟨sender, kind, salt, senderRead, _, call, known, labels, rfl⟩ := open_sound opened
    rw [senderRead] at outer
    obtain rfl := Option.some.inj outer.1
    exact ⟨call, known, kind, salt, body, fragment, labels, parsed, read, admitted⟩

end AwfulChat.RoomSecurity
