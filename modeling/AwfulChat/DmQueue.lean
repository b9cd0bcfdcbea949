import AwfulChat.Library.Json
import AwfulChat.Library.OrderedMap
import AwfulChat.Library.Runs

/-!
# The offline DM queue

The queue of `dm.svelte.ts`: every write of it is one turn of the mutation chain,
a flush works on a snapshot, sends entry by entry and at its end removes what it
sent by a key, against a fresh read. Any number of flushes may be in flight, which
covers other contexts that share the stored queue. The serial of an entry and what
a flush remembers of its start are not in the source; they name an entry when two
look alike.
-/

namespace AwfulChat.DmQueue

open Library Library.OrderedMap List

set_option autoImplicit false

def DM_QUEUE_MAX : Nat := 200

structure QueuedMessage where
  recipient : Text
  data : Bytes
  queuedAt : Nat
  messageId : Option Text
  deriving DecidableEq

structure Entry where
  serial : Nat
  message : QueuedMessage
  deriving DecidableEq

def queueEntryKey (entry : QueuedMessage) : Text :=
  entry.recipient ++ 124 :: (Json.digitText entry.queuedAt ++ 124 :: entry.messageId.getD [])

/-- What the transport knows of its peers when a call looks. -/
structure Contacts where
  peers : List Text
  peerIdToDid : OrderedMap Text Text

def looksLikePeerId (value : Text) : Bool :=
  (text "12D3").isPrefixOf value || (text "Qm").isPrefixOf value

def looksLikeDid (value : Text) : Bool := (text "did:").isPrefixOf value

def resolveToDid (contacts : Contacts) (peerIdOrDid : Text) : Text :=
  if looksLikeDid peerIdOrDid then peerIdOrDid
  else (contacts.peerIdToDid.get peerIdOrDid).getD peerIdOrDid

def peerIdOf (contacts : Contacts) (did : Text) : Option Text :=
  (contacts.peerIdToDid.entries.find? fun entry => entry.2 = did).map Prod.fst

def resolveDmPeerId (contacts : Contacts) (candidate : Text) : Option Text :=
  if candidate = [] then none
  else if looksLikePeerId candidate then some candidate
  else if looksLikeDid candidate then some ((peerIdOf contacts candidate).getD candidate)
  else peerIdOf contacts candidate

def dmPeerDid (contacts : Contacts) (peerIdOrDid : Text) : Option Text :=
  if looksLikeDid peerIdOrDid then some peerIdOrDid
  else
    let resolved := resolveToDid contacts peerIdOrDid
    if looksLikeDid resolved then some resolved else none

inductive FlushCall
  | peer (peerId : Text)
  | connected
  deriving DecidableEq

/-- What a flush works out before its first await; `none` ends it at once. -/
inductive FlushTarget
  | peer (peerId peerDid : Text)
  | connected (byDid : OrderedMap Text Text) (peers : List Text)

def dids (contacts : Contacts) : OrderedMap Text Text :=
  OrderedMap.collect (contacts.peers.filterMap fun peerId =>
    (contacts.peerIdToDid.get peerId).bind fun did =>
      if did = [] then none else some (did, peerId))

def flushTarget (contacts : Contacts) : FlushCall → Option FlushTarget
  | .peer peerId =>
    let peerDid := (contacts.peerIdToDid.get peerId).getD (resolveToDid contacts peerId)
    if peerDid = [] then none else some (.peer peerId peerDid)
  | .connected =>
    if contacts.peers = [] then none else some (.connected (dids contacts) contacts.peers)

/-- The peer an entry is sent to, if this flush sends it. -/
def FlushTarget.peerFor : FlushTarget → Text → Option Text
  | .peer peerId peerDid, recipient =>
    if recipient ≠ peerDid ∧ recipient ≠ peerId then none else some peerId
  | .connected byDid peers, recipient =>
    match byDid.get recipient with
    | some peerId => some peerId
    | none => if recipient ∈ peers then some recipient else none

structure Flush where
  target : FlushTarget
  pending : List Entry
  sent : List Text
  snapshot : List Entry
  accepted : List Nat
  startedAt : Nat

structure State where
  queue : List Entry
  flushes : OrderedMap Nat Flush
  nextSerial : Nat

inductive Event
  | queueDmMessage (toDid : Text) (data : Bytes) (messageId : Option Text) (now : Nat)
      (saved : Bool)
  | beginFlush (flush : Nat) (call : FlushCall) (contacts : Contacts)
  | sendNext (flush : Nat) (ok : Bool)
  | finishFlush (flush : Nat) (saved : Bool)
  | abandonFlush (flush : Nat)
  | removeDmConversation (peerIdOrDid : Text) (contacts : Contacts) (saved : Bool)

/-- `while (queue.length >= DM_QUEUE_MAX) queue.shift()`. -/
def shiftOldest : List Entry → List Entry
  | [] => []
  | entry :: rest =>
    if DM_QUEUE_MAX ≤ (entry :: rest).length then shiftOldest rest else entry :: rest

/-- One turn of `mutateDmQueue`; a save that fails leaves the stored queue. -/
def mutateDmQueue (state : State) (saved : Bool) (mutate : List Entry → List Entry) : State :=
  if saved then { state with queue := mutate state.queue } else state

def queueDmMessage (state : State) (saved : Bool) (message : QueuedMessage) : State :=
  let entry : Entry := { serial := state.nextSerial, message := message }
  { mutateDmQueue state saved (fun queue => shiftOldest queue ++ [entry]) with
    nextSerial := state.nextSerial + 1 }

def beginFlush (state : State) (target : FlushTarget) : Flush where
  target := target
  pending := state.queue
  sent := []
  snapshot := state.queue
  accepted := []
  startedAt := state.nextSerial

/-- One turn of the loop over the snapshot: skip, or send and note the key. -/
def Flush.sendNext (flush : Flush) (entry : Entry) (rest : List Entry) (ok : Bool) : Flush :=
  match flush.target.peerFor entry.message.recipient with
  | none => { flush with pending := rest }
  | some _ =>
    if ok then
      { flush with
        pending := rest
        sent := queueEntryKey entry.message :: flush.sent
        accepted := entry.serial :: flush.accepted }
    else { flush with pending := rest }

def finishFlush (state : State) (saved : Bool) (id : Nat) (flush : Flush) : State :=
  let ended := { state with flushes := state.flushes.delete id }
  if flush.sent = [] then ended
  else mutateDmQueue ended saved fun queue =>
    queue.filter fun entry => decide (queueEntryKey entry.message ∉ flush.sent)

/-- Whether an entry is addressed to the conversation that is being deleted. -/
def addressedTo (contacts : Contacts) (peerIdOrDid recipient : Text) : Bool :=
  let resolvedPeerId := (resolveDmPeerId contacts peerIdOrDid).getD peerIdOrDid
  recipient = resolvedPeerId || some recipient = dmPeerDid contacts resolvedPeerId

def removeDmConversation (state : State) (saved : Bool) (contacts : Contacts)
    (peerIdOrDid : Text) : State :=
  mutateDmQueue state saved fun queue =>
    queue.filter fun entry => !addressedTo contacts peerIdOrDid entry.message.recipient

def step (state : State) : Event → Option State
  | .queueDmMessage toDid data messageId now saved =>
    some (queueDmMessage state saved
      { recipient := toDid, data := data, queuedAt := now, messageId := messageId })
  | .beginFlush id call contacts =>
    match state.flushes.get id, flushTarget contacts call with
    | none, some target =>
      some { state with flushes := state.flushes.set id (beginFlush state target) }
    | _, _ => none
  | .sendNext id ok =>
    match state.flushes.get id with
    | some flush =>
      match flush.pending with
      | entry :: rest =>
        some { state with flushes := state.flushes.set id (flush.sendNext entry rest ok) }
      | [] => none
    | none => none
  | .finishFlush id saved =>
    match state.flushes.get id with
    | some flush => if flush.pending = [] then some (finishFlush state saved id flush) else none
    | none => none
  | .abandonFlush id =>
    match state.flushes.get id with
    | some _ => some { state with flushes := state.flushes.delete id }
    | none => none
  | .removeDmConversation peerIdOrDid contacts saved =>
    some (removeDmConversation state saved contacts peerIdOrDid)

/-- Why an entry may leave the queue in one step. -/
def MayLeave (state : State) (entry : Entry) : Event → Prop
  | .queueDmMessage .. => entry ∈ state.queue.take (state.queue.length + 1 - DM_QUEUE_MAX)
  | .finishFlush id _ => ∃ flush, state.flushes.get id = some flush ∧
      entry.serial ∈ flush.accepted ∧ entry ∈ flush.snapshot ∧ entry.serial < flush.startedAt
  | .removeDmConversation peerIdOrDid contacts _ =>
    addressedTo contacts peerIdOrDid entry.message.recipient = true
  | _ => False

/-- The key of a new entry is not the key of an entry in the queue, nor of one in
the snapshot of a flush in flight. -/
def KeyFresh (state : State) : Event → Prop
  | .queueDmMessage toDid data messageId now _ =>
    let key := queueEntryKey
      { recipient := toDid, data := data, queuedAt := now, messageId := messageId }
    (∀ entry ∈ state.queue, queueEntryKey entry.message ≠ key) ∧
      ∀ flush ∈ state.flushes.values, ∀ entry ∈ flush.snapshot,
        queueEntryKey entry.message ≠ key
  | _ => True

instance (state : State) : DecidablePred (KeyFresh state) := fun event =>
  match event with
  | .queueDmMessage toDid data messageId now _ => inferInstanceAs (Decidable (_ ∧ _))
  | .beginFlush .. | .sendNext .. | .finishFlush .. | .abandonFlush .. | .removeDmConversation .. =>
    isTrue trivial

/-- A queue as a session finds it: no flush in flight, and the stored entries have
keys of their own. -/
structure Opens (state : State) : Prop where
  idle : state.flushes = OrderedMap.empty
  serials : ∀ entry ∈ state.queue, entry.serial < state.nextSerial
  keys : ∀ entry ∈ state.queue, ∀ other ∈ state.queue,
    queueEntryKey entry.message = queueEntryKey other.message → entry = other

structure Flush.Sound (queue : List Entry) (flush : Flush) : Prop where
  pending : ∀ entry ∈ flush.pending, entry ∈ flush.snapshot
  sent : ∀ key ∈ flush.sent, ∃ entry ∈ flush.snapshot,
    queueEntryKey entry.message = key ∧ entry.serial ∈ flush.accepted
  started : ∀ entry ∈ flush.snapshot, entry.serial < flush.startedAt
  keys : ∀ entry ∈ queue, ∀ other ∈ flush.snapshot,
    queueEntryKey entry.message = queueEntryKey other.message → entry = other

structure Inv (state : State) : Prop where
  serials : ∀ entry ∈ state.queue, entry.serial < state.nextSerial
  keys : ∀ entry ∈ state.queue, ∀ other ∈ state.queue,
    queueEntryKey entry.message = queueEntryKey other.message → entry = other
  flushes : ∀ id flush, state.flushes.get id = some flush → flush.Sound state.queue

variable {state : State} {entry : Entry} {flush : Flush}

theorem Opens.inv (opens : Opens state) : Inv state where
  serials := opens.serials
  keys := opens.keys
  flushes := by
    intro id flush found
    rw [opens.idle, get_empty] at found
    cases found

theorem shift_oldest_eq (queue : List Entry) :
    shiftOldest queue = queue.drop (queue.length + 1 - DM_QUEUE_MAX) := by
  induction queue with
  | nil => rfl
  | cons entry rest ih =>
    rw [shiftOldest]
    split
    · rename_i full
      simp only [length_cons] at full ⊢
      have count : rest.length + 1 + 1 - DM_QUEUE_MAX =
          (rest.length + 1 - DM_QUEUE_MAX) + 1 := by omega
      rw [ih, count, drop_succ_cons]
    · rename_i small
      simp only [length_cons] at small ⊢
      have count : rest.length + 1 + 1 - DM_QUEUE_MAX = 0 := by omega
      rw [count, drop_zero]

theorem mem_of_mem_shift {queue : List Entry}
    (mem : entry ∈ shiftOldest queue) : entry ∈ queue := by
  rw [shift_oldest_eq] at mem
  exact mem_of_mem_drop mem

theorem Flush.Sound.move {queue moved : List Entry} (sound : flush.Sound queue)
    (from_queue : ∀ entry ∈ moved, entry ∈ queue ∨
      ∀ other ∈ flush.snapshot, queueEntryKey other.message ≠ queueEntryKey entry.message) :
    flush.Sound moved where
  pending := sound.pending
  sent := sound.sent
  started := sound.started
  keys := by
    intro entry mem other listed same
    rcases from_queue entry mem with old | apart
    · exact sound.keys entry old other listed same
    · exact absurd same.symm (apart other listed)

theorem Inv.shrink {state next : State} (inv : Inv state)
    (fewer : ∀ entry ∈ next.queue, entry ∈ state.queue)
    (ended : ∀ id flush, next.flushes.get id = some flush → state.flushes.get id = some flush)
    (serial : next.nextSerial = state.nextSerial) : Inv next where
  serials := by
    intro entry mem
    rw [serial]
    exact inv.serials entry (fewer entry mem)
  keys := by
    intro entry mem other listed same
    exact inv.keys entry (fewer entry mem) other (fewer other listed) same
  flushes := by
    intro id flush found
    apply (inv.flushes id flush (ended id flush found)).move
    intro entry mem
    exact Or.inl (fewer entry mem)

theorem mutate_filter_fewer (state : State) (saved : Bool) (stays : Entry → Bool) :
    ∀ entry ∈ (mutateDmQueue state saved fun queue => queue.filter stays).queue,
      entry ∈ state.queue := by
  intro entry mem
  unfold mutateDmQueue at mem
  split at mem
  · exact mem_of_mem_filter mem
  · exact mem

theorem mutate_flushes (state : State) (saved : Bool) (mutate : List Entry → List Entry) :
    (mutateDmQueue state saved mutate).flushes = state.flushes := by
  unfold mutateDmQueue
  split <;> rfl

theorem mutate_serial (state : State) (saved : Bool) (mutate : List Entry → List Entry) :
    (mutateDmQueue state saved mutate).nextSerial = state.nextSerial := by
  unfold mutateDmQueue
  split <;> rfl

theorem queued_member {saved : Bool} {message : QueuedMessage}
    (mem : entry ∈ (queueDmMessage state saved message).queue) :
    entry ∈ state.queue ∨ entry = { serial := state.nextSerial, message := message } := by
  simp only [queueDmMessage, mutateDmQueue] at mem
  split at mem
  · rcases mem_append.mp mem with old | new
    · exact Or.inl (mem_of_mem_shift old)
    · exact Or.inr (mem_singleton.mp new)
  · exact Or.inl mem

theorem queue_keeps {toDid : Text} {data : Bytes} {messageId : Option Text} {now : Nat}
    {saved : Bool} (inv : Inv state)
    (fresh : KeyFresh state (.queueDmMessage toDid data messageId now saved)) :
    Inv (queueDmMessage state saved
      { recipient := toDid, data := data, queuedAt := now, messageId := messageId }) where
  serials := by
    intro entry mem
    have bound : entry.serial < state.nextSerial + 1 := by
      rcases queued_member mem with old | rfl
      · exact Nat.lt_succ_of_lt (inv.serials entry old)
      · exact Nat.lt_succ_self _
    exact bound
  keys := by
    intro entry mem other listed same
    rcases queued_member mem with old | rfl
    · rcases queued_member listed with oldToo | rfl
      · exact inv.keys entry old other oldToo same
      · exact absurd same (fresh.1 entry old)
    · rcases queued_member listed with oldToo | rfl
      · exact absurd same.symm (fresh.1 other oldToo)
      · rfl
  flushes := by
    intro id flush found
    have running : state.flushes.get id = some flush := by
      rwa [← mutate_flushes state saved]
    apply (inv.flushes id flush running).move
    intro entry mem
    rcases queued_member mem with old | rfl
    · exact Or.inl old
    · right
      intro other listed
      exact fresh.2 flush (mem_values_iff.mpr ⟨id, running⟩) other listed

theorem begin_sound (inv : Inv state) (target : FlushTarget) :
    (beginFlush state target).Sound state.queue where
  pending := by
    intro entry mem
    exact mem
  sent := nofun
  started := inv.serials
  keys := inv.keys

theorem send_next_sound {queue : List Entry} {rest : List Entry} (sound : flush.Sound queue)
    (pending : flush.pending = entry :: rest) (ok : Bool) :
    (flush.sendNext entry rest ok).Sound queue := by
  have later : ∀ other ∈ rest, other ∈ flush.snapshot := by
    intro other mem
    apply sound.pending
    rw [pending]
    exact mem_cons_of_mem _ mem
  have listed : entry ∈ flush.snapshot := by
    apply sound.pending
    rw [pending]
    exact mem_cons_self
  unfold Flush.sendNext
  split
  · exact { sound with pending := later }
  · split
    · exact
      { pending := later
        started := sound.started
        keys := sound.keys
        sent := by
          intro key mem
          rcases mem_cons.mp mem with rfl | earlier
          · exact ⟨entry, listed, rfl, mem_cons_self⟩
          · obtain ⟨other, kept, same, accepted⟩ := sound.sent key earlier
            exact ⟨other, kept, same, mem_cons_of_mem _ accepted⟩ }
    · exact { sound with pending := later }

theorem set_flush_keeps (inv : Inv state) {id : Nat} (sound : flush.Sound state.queue) :
    Inv { state with flushes := state.flushes.set id flush } where
  serials := inv.serials
  keys := inv.keys
  flushes := by
    intro other found running
    simp only [get_set] at running
    split at running
    · cases running
      exact sound
    · exact inv.flushes other found running

theorem get_of_get_delete {id other : Nat}
    (running : (state.flushes.delete id).get other = some flush) :
    state.flushes.get other = some flush := by
  rw [get_delete] at running
  split at running
  · cases running
  · exact running

theorem finish_keeps (inv : Inv state) (saved : Bool) (id : Nat) (flush : Flush) :
    Inv (finishFlush state saved id flush) := by
  simp only [finishFlush]
  split
  · exact inv.shrink (fun entry mem => mem)
      (fun other found running => get_of_get_delete running) rfl
  · apply inv.shrink
    · exact mutate_filter_fewer { state with flushes := state.flushes.delete id } saved _
    · intro other found running
      rw [mutate_flushes] at running
      exact get_of_get_delete running
    · exact mutate_serial _ _ _

theorem step_keeps (state : State) (event : Event) (next : State) (inv : Inv state)
    (fresh : KeyFresh state event) (stepped : step state event = some next) : Inv next := by
  cases event with
  | queueDmMessage toDid data messageId now saved =>
    obtain rfl := Option.some.inj stepped
    exact queue_keeps inv fresh
  | beginFlush id call contacts =>
    simp only [step] at stepped
    split at stepped
    · obtain rfl := Option.some.inj stepped
      exact set_flush_keeps inv (begin_sound inv _)
    · cases stepped
  | sendNext id ok =>
    simp only [step] at stepped
    split at stepped
    · rename_i flush running
      split at stepped
      · rename_i entry rest pending
        obtain rfl := Option.some.inj stepped
        exact set_flush_keeps inv (send_next_sound (inv.flushes id flush running) pending ok)
      · cases stepped
    · cases stepped
  | finishFlush id saved =>
    simp only [step] at stepped
    split at stepped
    · split at stepped
      · obtain rfl := Option.some.inj stepped
        exact finish_keeps inv saved id _
      · cases stepped
    · cases stepped
  | abandonFlush id =>
    simp only [step] at stepped
    split at stepped
    · obtain rfl := Option.some.inj stepped
      exact inv.shrink (fun entry mem => mem)
        (fun other found running => get_of_get_delete running) rfl
    · cases stepped
  | removeDmConversation peerIdOrDid contacts saved =>
    obtain rfl := Option.some.inj stepped
    apply inv.shrink (mutate_filter_fewer state saved _)
    · intro id flush running
      rwa [mutate_flushes] at running
    · exact mutate_serial _ _ _

theorem finish_removes_sent {saved : Bool} {id : Nat} (inv : Inv state)
    (running : state.flushes.get id = some flush) (mem : entry ∈ state.queue)
    (left : entry ∉ (finishFlush state saved id flush).queue) :
    entry.serial ∈ flush.accepted ∧ entry ∈ flush.snapshot ∧ entry.serial < flush.startedAt := by
  have sound := inv.flushes id flush running
  have noted : queueEntryKey entry.message ∈ flush.sent := by
    by_contra kept
    apply left
    simp only [finishFlush]
    split
    · exact mem
    · unfold mutateDmQueue
      split
      · exact mem_filter.mpr ⟨mem, decide_eq_true kept⟩
      · exact mem
  obtain ⟨other, listed, same, accepted⟩ := sound.sent _ noted
  obtain rfl := sound.keys entry mem other listed same.symm
  exact ⟨accepted, listed, sound.started entry listed⟩

theorem step_explained {state next : State} {event : Event} (inv : Inv state)
    (stepped : step state event = some next) (mem : entry ∈ state.queue)
    (left : entry ∉ next.queue) : MayLeave state entry event := by
  cases event with
  | queueDmMessage toDid data messageId now saved =>
    obtain rfl := Option.some.inj stepped
    simp only [queueDmMessage, mutateDmQueue] at left
    split at left
    · rw [shift_oldest_eq] at left
      have whole := take_append_drop (state.queue.length + 1 - DM_QUEUE_MAX) state.queue
      rw [← whole] at mem
      rcases mem_append.mp mem with oldest | kept
      · exact oldest
      · exact absurd (mem_append_left _ kept) left
    · exact absurd mem left
  | beginFlush id call contacts | abandonFlush id =>
    simp only [step] at stepped
    split at stepped
    · obtain rfl := Option.some.inj stepped
      exact absurd mem left
    · cases stepped
  | sendNext id ok =>
    simp only [step] at stepped
    split at stepped
    · split at stepped
      · obtain rfl := Option.some.inj stepped
        exact absurd mem left
      · cases stepped
    · cases stepped
  | finishFlush id saved =>
    simp only [step] at stepped
    split at stepped
    · rename_i flush running
      split at stepped
      · obtain rfl := Option.some.inj stepped
        exact ⟨flush, running, finish_removes_sent inv running mem left⟩
      · cases stepped
    · cases stepped
  | removeDmConversation peerIdOrDid contacts saved =>
    obtain rfl := Option.some.inj stepped
    simp only [removeDmConversation, mutateDmQueue] at left
    split at left
    · cases addressed : addressedTo contacts peerIdOrDid entry.message.recipient with
      | true => exact addressed
      | false =>
        exact absurd (mem_filter.mpr ⟨mem, by rw [addressed]; rfl⟩) left
    · exact absurd mem left

def emptyQueue : State where
  queue := []
  flushes := OrderedMap.empty
  nextSerial := 0

def bob : Text := text "did:key:z6MkBob"

def bobOnline : Contacts where
  peers := [text "12D3Bob"]
  peerIdToDid := OrderedMap.empty.set (text "12D3Bob") bob

/-- Two frames queued for one recipient in one millisecond, and a flush that gets
the first accepted and the second refused. -/
def twoFrames (firstId secondId : Option Text) : List Event :=
  [.queueDmMessage bob [1] firstId 5 true, .queueDmMessage bob [2] secondId 5 true,
    .beginFlush 0 (.peer (text "12D3Bob")) bobOnline, .sendNext 0 true, .sendNext 0 false]

theorem empty_queue_opens : Opens emptyQueue where
  idle := rfl
  serials := by simp [emptyQueue]
  keys := by simp [emptyQueue]

theorem two_frames_run (firstId secondId : Option Text) {kept : List Nat} {accepted : List Nat}
    (finished : (run step emptyQueue (twoFrames firstId secondId ++ [.finishFlush 0 true])).map
      (fun state => state.queue.map Entry.serial) = some kept)
    (stood : (run step emptyQueue (twoFrames firstId secondId)).map (fun state =>
      (state.queue, (state.flushes.get 0).map Flush.accepted)) =
      some ([⟨0, ⟨bob, [1], 5, firstId⟩⟩, ⟨1, ⟨bob, [2], 5, secondId⟩⟩], some accepted)) :
    ∃ state next, run step emptyQueue (twoFrames firstId secondId) = some state ∧
      step state (.finishFlush 0 true) = some next ∧
      state.queue = [⟨0, ⟨bob, [1], 5, firstId⟩⟩, ⟨1, ⟨bob, [2], 5, secondId⟩⟩] ∧
      (state.flushes.get 0).map Flush.accepted = some accepted ∧
      next.queue.map Entry.serial = kept := by
  obtain ⟨next, ran, queued⟩ := Option.map_eq_some_iff.mp finished
  rw [run_append] at ran
  obtain ⟨state, reached, rest⟩ := Option.bind_eq_some_iff.mp ran
  obtain ⟨last, stepped, ended⟩ := run_cons rest
  obtain rfl := Option.some.inj ended
  rw [reached] at stood
  obtain ⟨full, took⟩ := Prod.mk.inj (Option.some.inj stood)
  exact ⟨state, last, reached, stepped, full, took, queued⟩

end AwfulChat.DmQueue
