import AwfulChat.RoomSecurity.ChannelFrames

/-!
# What a sending channel has handed over

The messages that `trySend` took are sent one after the other, the fragments of each in
order. At any time the fragments that went to the stream are those of the messages that
were sent, and then some of the next one. Once a message fails the channel is closed, and
no fragment of a later one is handed over.
-/

namespace AwfulChat.RoomSecurity

open Library List

set_option autoImplicit false

/-- The fragments of a message: the message, and which of them. -/
def fragmentsOf (message : Nat × Bytes) : List ((Nat × Bytes) × Nat) :=
  (List.range (fragmentCount message.2)).map fun index => (message, index)

def rowOf (messages : List (Nat × Bytes)) : List ((Nat × Bytes) × Nat) :=
  messages.flatMap fragmentsOf

theorem fragments_length (message : Nat × Bytes) :
    (fragmentsOf message).length = fragmentCount message.2 := by
  simp [fragmentsOf]

theorem row_append (first second : List (Nat × Bytes)) :
    rowOf (first ++ second) = rowOf first ++ rowOf second := flatMap_append

theorem row_single (message : Nat × Bytes) : rowOf [message] = fragmentsOf message := by
  simp [rowOf]

theorem take_fragments_succ {message : Nat × Bytes} {index : Nat}
    (inside : index < fragmentCount message.2) :
    (fragmentsOf message).take (index + 1) =
      (fragmentsOf message).take index ++ [(message, index)] := by
  rw [take_add_one]
  simp [fragmentsOf, inside]

theorem take_fragments_whole (message : Nat × Bytes) :
    (fragmentsOf message).take (fragmentCount message.2) = fragmentsOf message := by
  rw [← fragments_length, take_length]

variable {fragment : (Nat × Bytes) × Nat} {messages : List (Nat × Bytes)}

theorem fragment_message {message : Nat × Bytes}
    (mem : fragment ∈ fragmentsOf message) : fragment.1 = message := by
  obtain ⟨index, _, rfl⟩ := mem_map.mp mem
  rfl

theorem row_message (mem : fragment ∈ rowOf messages) : fragment.1 ∈ messages := by
  obtain ⟨message, known, inside⟩ := mem_flatMap.mp mem
  rw [fragment_message inside]
  exact known

/-- Every message has the number of its first fragment. -/
def Numbered (messages : List (Nat × Bytes)) : Prop :=
  ∀ before message after, messages = before ++ message :: after →
    message.1 = (rowOf before).length

theorem Numbered.append (numbered : Numbered messages)
    (data : Bytes) : Numbered (messages ++ [((rowOf messages).length, data)]) := by
  intro before message after same
  rcases eq_nil_or_concat after with rfl | ⟨front, last, rfl⟩
  · obtain ⟨rfl, mine⟩ := append_inj' same rfl
    rw [← (List.cons.inj mine).1]
  · have split : messages ++ [((rowOf messages).length, data)] =
        (before ++ message :: front) ++ [last] := by
      rw [same]
      simp
    obtain ⟨earlier, _⟩ := append_inj' split rfl
    exact numbered before message front earlier

def SendJob.key (job : SendJob) : Nat × Bytes := (job.message, job.data)

/-- How many fragments of a message went to the stream. -/
def SendJob.handed (job : SendJob) : Nat :=
  match job.phase with
  | .writing => job.index + 1
  | _ => job.index

structure SendJob.Fresh (job : SendJob) : Prop where
  index : job.index = 0
  phase : job.phase = .idle
  handedOver : job.handedOver = false

/-- The messages whose `trySend` was answered with `sent`. -/
def RoomChannel.finished (channel : RoomChannel) : List (Option Nat × Bytes) :=
  (channel.resolved.filter fun answer => answer.2.2 = .sent).map fun answer =>
    (answer.1, answer.2.1)

section Progress

variable (fits : (Nat × Bytes) × Nat → Json → Prop)

/-- The message after those that were sent, and `part`, its fragments that were handed
over: there is none, it is being sent, or it failed. -/
inductive Current (channel : RoomChannel) :
    List (Nat × Bytes) → List ((Nat × Bytes) × Nat) → Prop
  | idle (queue : channel.jobs = []) : Current channel [] []
  | busy (job : SendJob) (rest : List SendJob) (queue : channel.jobs = job :: rest)
      (fresh : ∀ other ∈ rest, other.Fresh)
      (unflagged : job.handedOver = false → job.handed = 0)
      (made : ∀ frame, job.phase = .sealed frame → fits (job.key, job.index) frame) :
      Current channel [] ((fragmentsOf job.key).take job.handed)
  | broken (first : Nat × Bytes) (more : List (Nat × Bytes)) (count : Nat)
      (closed : channel.closed = true) (fresh : ∀ job ∈ channel.jobs, job.Fresh)
      (answered : 0 < count → (some first.1, first.2, SendResult.failed) ∈ channel.resolved) :
      Current channel (first :: more) ((fragmentsOf first).take count)

structure Progress (channel : RoomChannel) (done failed : List (Nat × Bytes))
    (part : List ((Nat × Bytes) × Nat)) : Prop where
  sound : ChannelSound channel
  numbered : Numbered channel.sent
  counted : channel.sequence = (rowOf channel.sent).length
  sent : channel.sent = done ++ failed ++ channel.jobs.map SendJob.key
  finished : channel.finished = done.map fun message => (some message.1, message.2)
  unsent : ∀ number data, (some number, data, SendResult.unsent) ∈ channel.resolved →
    (number, data) ∈ failed ∧ ∀ fragment ∈ rowOf done ++ part, fragment.1.1 ≠ number
  current : Current fits channel failed part

end Progress

theorem sent_numbers {channel : RoomChannel} (sound : ChannelSound channel) :
    (channel.sent.map Prod.fst).Nodup := by
  rw [List.Nodup, pairwise_map]
  refine sound.apart.imp ?_
  intro first second apart
  have positive := fragment_count_positive first.2
  omega

section Steps

variable {fits : (Nat × Bytes) × Nat → Json → Prop} {channel next : RoomChannel}
  {done failed : List (Nat × Bytes)} {part : List ((Nat × Bytes) × Nat)}

theorem finished_resolve {result : SendResult} (message : Option Nat) (data : Bytes)
    (other : result ≠ .sent) : (channel.resolve message data result).finished = channel.finished := by
  simp [RoomChannel.finished, RoomChannel.resolve, filter_append, other]

theorem close_finished (channel : RoomChannel) : channel.close.finished = channel.finished := by
  unfold RoomChannel.close
  split <;> rfl

theorem close_resolved (channel : RoomChannel) : channel.close.resolved = channel.resolved := by
  unfold RoomChannel.close
  split <;> rfl

theorem Current.close (current : Current fits channel failed part) :
    Current fits channel.close failed part := by
  have jobs := (close_sending channel).jobs
  cases current with
  | idle queue => exact .idle (jobs.trans queue)
  | busy job rest queue fresh unflagged made =>
    exact .busy job rest (jobs.trans queue) fresh unflagged made
  | broken first more count closed fresh answered =>
    refine .broken first more count (close_closed channel) ?_ ?_
    · rw [jobs]
      exact fresh
    · rw [close_resolved]
      exact answered

theorem Progress.close (progress : Progress fits channel done failed part) :
    Progress fits channel.close done failed part where
  sound := close_channel_sound progress.sound
  numbered := by
    rw [(close_sending channel).sent]
    exact progress.numbered
  counted := by
    rw [(close_sending channel).sent, (close_sending channel).sequence]
    exact progress.counted
  sent := by
    rw [(close_sending channel).sent, (close_sending channel).jobs]
    exact progress.sent
  finished := by
    rw [close_finished]
    exact progress.finished
  unsent := by
    rw [close_resolved]
    exact progress.unsent
  current := progress.current.close

theorem Progress.resolve (progress : Progress fits channel done failed part) (data : Bytes)
    {result : SendResult} (other : result ≠ .sent) :
    Progress fits (channel.resolve none data result) done failed part where
  sound := resolve_sound progress.sound none data result
  numbered := progress.numbered
  counted := progress.counted
  sent := progress.sent
  finished := (finished_resolve none data other).trans progress.finished
  unsent := by
    intro number bytes mem
    rcases mem_append.mp mem with known | last
    · exact progress.unsent number bytes known
    · simp at last
  current := by
    cases progress.current with
    | idle queue => exact .idle queue
    | busy job rest queue fresh unflagged made => exact .busy job rest queue fresh unflagged made
    | broken first more count closed fresh answered =>
      exact .broken first more count closed fresh
        fun some => mem_append_left _ (answered some)

theorem Current.begin (job : SendJob) (rest : List SendJob) (queue : channel.jobs = job :: rest)
    (beginning : job.Fresh) (fresh : ∀ other ∈ rest, other.Fresh) : Current fits channel [] [] := by
  have none : job.handed = 0 := by rw [SendJob.handed, beginning.phase, beginning.index]
  have nothing : [] = (fragmentsOf job.key).take job.handed := by rw [none, take_zero]
  rw [nothing]
  refine .busy job rest queue fresh (fun _ => none) ?_
  intro frame sealed
  rw [beginning.phase] at sealed
  cases sealed

section

variable (progress : Progress fits channel done failed part)
include progress

theorem Progress.trySend (data : Bytes) :
    Progress fits (channel.trySend data) done failed part := by
  have sound := try_send_sound progress.sound data
  obtain ⟨result, other, same⟩ | ⟨verified, _, _, same⟩ := try_send_cases channel data
  · rw [same]
    exact progress.resolve data other
  · rw [same] at sound ⊢
    have entering : SendJob.Fresh
        { message := channel.sequence, data := data, index := 0, phase := .idle,
          handedOver := false } := ⟨rfl, rfl, rfl⟩
    exact {
      sound := sound
      numbered := by
        show Numbered (channel.sent ++ [(channel.sequence, data)])
        rw [progress.counted]
        exact progress.numbered.append data
      counted := by
        show channel.sequence + fragmentCount data =
          (rowOf (channel.sent ++ [(channel.sequence, data)])).length
        rw [row_append, row_single, length_append, fragments_length, progress.counted]
      sent := by
        show channel.sent ++ _ = _
        rw [progress.sent]
        simp [SendJob.key]
      finished := by
        rw [RoomChannel.finished]
        exact progress.finished
      unsent := progress.unsent
      current := by
        cases progress.current with
        | idle queue =>
          exact Current.begin _ [] (by rw [queue]; rfl) entering nofun
        | busy job rest queue fresh unflagged made =>
          refine .busy job _ (by rw [queue]; rfl) ?_ unflagged made
          intro later mem
          rcases mem_append.mp mem with known | last
          · exact fresh later known
          · obtain rfl := mem_singleton.mp last
            exact entering
        | broken first more count closed =>
          rw [((verified_iff channel).mp verified).1] at closed
          cases closed }

variable {rest : List SendJob} {job : SendJob}

theorem Progress.fail (queue : channel.jobs = job :: rest) {flagged : Bool}
    (untouched : flagged = false → job.handedOver = false) :
    Progress fits (channel.failJob { job with handedOver := flagged }) done (failed ++ [job.key])
      part := by
  have keys : channel.sent = (done ++ failed) ++ job.key :: rest.map SendJob.key := by
    rw [progress.sent, queue]
    simp
  have numbers := sent_numbers progress.sound
  rw [keys, map_append, nodup_append] at numbers
  have current : Current fits (channel.failJob { job with handedOver := flagged })
      (failed ++ [job.key]) part := by
    cases progress.current with
    | idle none => rw [none] at queue; cases queue
    | busy first others found fresh unflagged made =>
      rw [queue] at found
      obtain ⟨rfl, rfl⟩ := List.cons.inj found
      refine .broken job.key [] job.handed (close_closed _) ?_ ?_
      · rw [RoomChannel.failJob, (close_sending _).jobs]
        simpa [queue] using fresh
      · intro handed
        cases flagged with
        | false =>
          rw [unflagged (untouched rfl)] at handed
          cases handed
        | true =>
          rw [RoomChannel.failJob, close_resolved]
          exact mem_append_right _ (mem_singleton.mpr rfl)
    | broken first more count closed fresh answered =>
      refine .broken first (more ++ [job.key]) count (close_closed _) ?_ ?_
      · rw [RoomChannel.failJob, (close_sending _).jobs]
        intro other mem
        exact fresh other (mem_of_mem_tail mem)
      · intro some
        rw [RoomChannel.failJob, close_resolved]
        exact mem_append_left _ (answered some)
  have earlier : flagged = false → ∀ fragment ∈ rowOf done ++ part, fragment.1 ∈ done ++ failed := by
    intro plain fragment mem
    rcases mem_append.mp mem with whole | partly
    · exact mem_append_left _ (row_message whole)
    · cases progress.current with
      | idle none => cases partly
      | busy first others found fresh unflagged made =>
        rw [queue] at found
        obtain ⟨rfl, rfl⟩ := List.cons.inj found
        rw [unflagged (untouched plain), take_zero] at partly
        cases partly
      | broken first more count closed fresh answered =>
        rw [fragment_message (mem_of_mem_take partly)]
        simp
  exact {
    sound := fail_job_sound progress.sound _
    numbered := by
      rw [RoomChannel.failJob, (close_sending _).sent]
      exact progress.numbered
    counted := by
      rw [RoomChannel.failJob, (close_sending _).sent, (close_sending _).sequence]
      exact progress.counted
    sent := by
      rw [RoomChannel.failJob, (close_sending _).jobs, (close_sending _).sent]
      show channel.sent = done ++ (failed ++ [job.key]) ++ channel.jobs.tail.map SendJob.key
      rw [keys, queue]
      simp
    finished := by
      rw [RoomChannel.failJob, close_finished]
      refine Eq.trans (finished_resolve _ _ ?_) progress.finished
      split <;> decide
    unsent := by
      intro number data mem
      rw [RoomChannel.failJob, close_resolved] at mem
      rcases mem_append.mp mem with known | last
      · obtain ⟨among, apart⟩ := progress.unsent number data known
        exact ⟨mem_append_left _ among, apart⟩
      · simp only [mem_singleton, Prod.mk.injEq, Option.some.injEq] at last
        obtain ⟨rfl, rfl, result⟩ := last
        have plain : flagged = false := by
          cases flagged with
          | false => rfl
          | true => cases result
        refine ⟨mem_append_right _ (mem_singleton.mpr rfl), ?_⟩
        intro fragment handed
        exact numbers.2.2 fragment.1.1 (mem_map_of_mem (earlier plain fragment handed))
          job.message (by simp [SendJob.key])
    current := current }

theorem Progress.fail_same (queue : channel.jobs = job :: rest) :
    Progress fits (channel.failJob job) done (failed ++ [job.key]) part :=
  progress.fail queue fun unflagged => unflagged

theorem Progress.at_work (queue : channel.jobs = job :: rest) (working : job.phase ≠ .idle) :
    failed = [] ∧ part = (fragmentsOf job.key).take job.handed ∧
      (∀ other ∈ rest, other.Fresh) ∧ (job.handedOver = false → job.handed = 0) ∧
      ∀ frame, job.phase = .sealed frame → fits (job.key, job.index) frame := by
  cases progress.current with
  | idle none => rw [none] at queue; cases queue
  | busy first others found fresh unflagged made =>
    rw [queue] at found
    obtain ⟨rfl, rfl⟩ := List.cons.inj found
    exact ⟨rfl, rfl, fresh, unflagged, made⟩
  | broken first more count closed fresh answered =>
    exact absurd (fresh job (by rw [queue]; exact mem_cons_self)).phase working

theorem Progress.sealNext {crypto : RoomCrypto}
    {salt : Bytes} {call : Option EncryptCall}
    (sealed : channel.sealNext crypto salt = some (next, call))
    (makes : ∀ message data index binding made frame, channel.verified = true →
      (message, data) ∈ channel.sent → index < fragmentCount data →
      channel.session.binding = some binding → call = some made →
      sealRoomEnvelope crypto channel.encryptionKey channel.session.keys.discoveryId
        channel.session.localPeer (text "direct") salt (fragmentBytes channel.session
          (messageFragment channel.sessionId binding message data index)) = some (made, frame) →
      fits ((message, data), index) frame) :
    ∃ failed, Progress fits next done failed part := by
  have sound := seal_next_sound progress.sound sealed
  obtain ⟨job, rest, queue, idle, ⟨rfl, _⟩ | ⟨binding, made, frame, verified, bound, called,
    enveloped, rfl⟩⟩ := seal_next_cases sealed
  · exact ⟨_, progress.fail_same queue⟩
  · obtain ⟨known, inside⟩ := progress.sound.jobs job (by rw [queue]; exact mem_cons_self)
    cases progress.current with
    | idle none => rw [none] at queue; cases queue
    | busy first others found fresh unflagged _ =>
      rw [queue] at found
      obtain ⟨rfl, rfl⟩ := List.cons.inj found
      have count : job.handed = job.index := by rw [SendJob.handed, idle]
      rw [count] at unflagged
      refine ⟨[], { progress with sound := sound, sent := ?_, current := ?_ }⟩
      · rw [progress.sent, queue]
        rfl
      · rw [count]
        refine .busy { job with phase := .sealed frame } rest rfl fresh unflagged ?_
        intro other found
        cases found
        exact makes _ _ _ _ _ _ verified known inside bound called enveloped
    | broken first more count closed =>
      rw [((verified_iff channel).mp verified).1] at closed
      cases closed

theorem Progress.handOver {accepted : Bool} {frame : Option Json}
    (handed : channel.handOver accepted = some (next, frame)) :
    (frame = none ∧ ∃ failed, Progress fits next done failed part) ∨
    ∃ job rest made, channel.jobs = job :: rest ∧ job.phase = .sealed made ∧ frame = some made ∧
      accepted = true ∧ fits (job.key, job.index) made ∧
      Progress fits next done failed (part ++ [(job.key, job.index)]) := by
  have sound := hand_over_sound progress.sound handed
  obtain ⟨job, rest, made, queue, phase, ⟨flagged, untouched, rfl, rfl⟩ | ⟨accepts, rfl, rfl⟩⟩ :=
    hand_over_cases handed
  · exact Or.inl ⟨rfl, _, progress.fail queue untouched⟩
  · obtain ⟨_, inside⟩ := progress.sound.jobs job (by rw [queue]; exact mem_cons_self)
    obtain ⟨rfl, rfl, fresh, _, fit⟩ := progress.at_work queue (by rw [phase]; nofun)
    have grown : (fragmentsOf job.key).take job.handed ++ [(job.key, job.index)] =
        (fragmentsOf job.key).take (job.index + 1) := by
      rw [take_fragments_succ inside, SendJob.handed, phase]
    refine Or.inr ⟨job, rest, made, queue, phase, rfl, accepts, fit made phase, ?_⟩
    rw [grown]
    refine { progress with sound := sound, sent := ?_, unsent := ?_, current := ?_ }
    · rw [progress.sent, queue]
      rfl
    · intro number data mem
      cases (progress.unsent number data mem).1
    · exact .busy { job with phase := .writing, handedOver := true } rest rfl fresh nofun nofun

theorem Progress.written {ok : Bool} (written : channel.written ok = some next) :
    ∃ done' failed' part', Progress fits next done' failed' part' ∧
      rowOf done' ++ part' = rowOf done ++ part := by
  have sound := written_sound progress.sound written
  obtain ⟨job, rest, queue, phase, rfl | ⟨more, rfl⟩ | ⟨last, rfl⟩⟩ := written_cases written
  · exact ⟨_, _, _, progress.fail_same queue, rfl⟩
  · obtain ⟨rfl, rfl, fresh, unflagged, _⟩ := progress.at_work queue (by rw [phase]; nofun)
    have count : job.handed = job.index + 1 := by rw [SendJob.handed, phase]
    rw [count] at unflagged ⊢
    refine ⟨done, [], _, { progress with sound := sound, sent := ?_, unsent := ?_, current := ?_ },
      rfl⟩
    · rw [progress.sent, queue]
      rfl
    · intro number data mem
      cases (progress.unsent number data mem).1
    · refine .busy { job with phase := .idle, index := job.index + 1 } rest rfl fresh ?_ nofun
      intro plain
      cases unflagged plain
  · obtain ⟨rfl, rfl, fresh, _⟩ := progress.at_work queue (by rw [phase]; nofun)
    obtain ⟨_, inside⟩ := progress.sound.jobs job (by rw [queue]; exact mem_cons_self)
    have count : job.handed = fragmentCount job.data := by
      rw [SendJob.handed, phase]
      exact Nat.le_antisymm inside last
    have whole : (fragmentsOf job.key).take job.handed = fragmentsOf job.key := by
      rw [count]
      exact take_fragments_whole job.key
    refine ⟨done ++ [job.key], [], [], ⟨sound, progress.numbered, progress.counted, ?_, ?_, ?_, ?_⟩,
      ?_⟩
    · show channel.sent = _
      rw [progress.sent, queue]
      simp
    · have answered : (channel.resolve (some job.message) job.data .sent).finished =
          channel.finished ++ [(some job.message, job.data)] := by
        simp [RoomChannel.finished, RoomChannel.resolve, filter_append]
      refine Eq.trans answered ?_
      rw [progress.finished]
      simp [SendJob.key]
    · intro number data mem
      rcases mem_append.mp mem with known | mine
      · cases (progress.unsent number data known).1
      · simp at mine
    · cases rest with
      | nil => exact .idle rfl
      | cons first others =>
        apply Current.begin first others rfl (fresh first mem_cons_self)
        intro other mem
        exact fresh other (mem_cons_of_mem _ mem)
    · rw [row_append, row_single, whole, append_nil]

end

/-- A message some fragments of which were handed over, and that was not sent: it failed,
or it is being sent. -/
def InFlight (channel : RoomChannel) (message : Nat × Bytes) : Prop :=
  (some message.1, message.2, SendResult.failed) ∈ channel.resolved ∨
    ∃ job ∈ channel.jobs, job.key = message ∧ job.handedOver = true

section

variable (progress : Progress fits channel done failed part)
include progress

theorem Progress.shape :
    part = [] ∨ ∃ message rest count, channel.sent = done ++ message :: rest ∧
      part = (fragmentsOf message).take count ∧ InFlight channel message := by
  have sent := progress.sent
  cases progress.current with
  | idle queue => exact Or.inl rfl
  | busy job rest queue fresh unflagged made =>
    cases flag : job.handedOver with
    | false =>
      left
      rw [unflagged flag, take_zero]
    | true =>
      refine Or.inr ⟨job.key, rest.map SendJob.key, job.handed, ?_, rfl, Or.inr ⟨job, ?_, rfl,
        flag⟩⟩
      · rw [sent, queue]
        simp
      · rw [queue]
        exact mem_cons_self
  | broken first more count closed fresh answered =>
    rcases Nat.eq_zero_or_pos count with rfl | positive
    · exact Or.inl take_zero
    · refine Or.inr ⟨first, more ++ channel.jobs.map SendJob.key, count, ?_, rfl,
        Or.inl (answered positive)⟩
      rw [sent]
      simp

theorem Progress.front :
    rowOf done ++ part <+: rowOf channel.sent := by
  rcases progress.shape with rfl | ⟨message, rest, count, sent, rfl, _⟩
  · rw [append_nil, progress.sent, append_assoc, row_append]
    exact prefix_append _ _
  · rw [sent, row_append, prefix_append_right_inj]
    exact ( take_prefix _ _).trans (prefix_append _ _)

theorem Progress.mono {weaker : (Nat × Bytes) × Nat → Json → Prop}
    (weaken : ∀ fragment frame, fits fragment frame → weaker fragment frame) :
    Progress weaker channel done failed part where
  sound := progress.sound
  numbered := progress.numbered
  counted := progress.counted
  sent := progress.sent
  finished := progress.finished
  unsent := progress.unsent
  current := by
    cases progress.current with
    | idle queue => exact .idle queue
    | busy job rest queue fresh unflagged made =>
      exact .busy job rest queue fresh unflagged fun frame sealed =>
        weaken _ _ (made frame sealed)
    | broken first more count closed fresh answered =>
      exact .broken first more count closed fresh answered

end

end Steps

end AwfulChat.RoomSecurity
