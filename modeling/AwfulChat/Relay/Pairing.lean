import AwfulChat.Library.OrderedMap
import AwfulChat.Library.Runs

/-!
# The pairing mailbox of the relay

`handlePairing`, `pairingBatch` and `pairingDeliver` of `pairing.go`, for one
locator. A pairing is a host, the attempts of its joiners and a queue each way:
the inbox of the host, handed out in bounded batches, and one queue per attempt.
What the other parts of the relay decide (the origin, the rate limits, the shares
of live pairings, the random token, the clock) comes with each request.
-/

namespace AwfulChat.Relay

open Library Library.OrderedMap List Option

set_option autoImplicit false

/-- The kinds of message, which are also the stages of an attempt. -/
inductive PairingKind where
  | start
  | response
  | finish
  | transfer
  deriving DecidableEq

def PairingKind.text : PairingKind → String
  | .start => "start"
  | .response => "response"
  | .finish => "finish"
  | .transfer => "transfer"

structure PairingMessage where
  attempt : String
  kind : PairingKind
  payload : String
  deriving DecidableEq

structure PairingEntry where
  token : String
  expires : Int
  attempts : OrderedMap String (List PairingMessage)
  stages : OrderedMap String PairingKind
  inbox : List PairingMessage
  closed : Bool
  maxUses : Nat
  maxAttempts : Nat
  delivered : Nat

def pairingMaxUses : Nat := 25
def pairingSpareAttempts : Nat := 4
def pairingMinTTL : Int := 60
def pairingMaxTTL : Int := 600
def pairingDefaultTTL : Int := 300
def pairingPollMessages : Nat := 10
def pairingPollBytes : Nat := 12 * 1024

inductive PairingAction where
  | create
  | cancel
  | hostPoll
  | joinPoll
  | start
  | finish
  | reply
  | other
  deriving DecidableEq

/-- A decoded body; a kind that is none of the four is `none`. -/
structure PairingRequest where
  action : PairingAction
  token : String
  attempt : String
  kind : Option PairingKind
  payload : String
  uses : Int
  ttl : Int

/-- What comes with a request: the verdicts of the origin check, of the body's
decoding, of the rate limits and of the live-pairing caps, the token drawn for a
creation, and the time. -/
structure PairingArrival where
  request : PairingRequest
  originAllowed : Bool
  admitted : Bool
  decoded : Bool
  startAdmitted : Bool
  createAdmitted : Bool
  capped : Bool
  drawn : Option String
  now : Int

section Shapes

def isCrockford (c : Char) : Bool :=
  c.isDigit || (decide ('a' ≤ c) && decide (c ≤ 'h')) || c == 'j' || c == 'k' || c == 'm' || c == 'n' ||
    (decide ('p' ≤ c) && decide (c ≤ 't')) || (decide ('v' ≤ c) && decide (c ≤ 'z'))

def pairingAttempt (text : String) : Bool :=
  decide (text.toList.length = 32) && text.toList.all isCrockford

def isAsciiLetter (c : Char) : Bool :=
  (decide ('a' ≤ c) && decide (c ≤ 'z')) || (decide ('A' ≤ c) && decide (c ≤ 'Z'))

def pairingPayload (text : String) : Bool :=
  !text.toList.isEmpty &&
    text.toList.all fun c => isAsciiLetter c || c.isDigit || c == '_' || c == '.' || c == '-'

def pairingStartPayload (text : String) : Bool :=
  decide (text.toList.length = 128) &&
    text.toList.all fun c => isAsciiLetter c || c.isDigit || c == '_' || c == '-'

/-- The switch over the request's own shape; none when it passes. -/
def shapeRefusal (request : PairingRequest) : Option String :=
  match request.action with
  | .create =>
    if request.uses < 0 ∨ pairingMaxUses < request.uses ∨
        (request.ttl ≠ 0 ∧ (request.ttl < pairingMinTTL ∨ pairingMaxTTL < request.ttl)) then
      some "invalid pairing limits"
    else none
  | .cancel | .hostPoll => none
  | .joinPoll => if pairingAttempt request.attempt then none else some "invalid attempt"
  | .start | .finish | .reply =>
    if !pairingAttempt request.attempt || decide (2048 < request.payload.utf8ByteSize) ||
        !pairingPayload request.payload ||
        (decide (request.action = .start) && !pairingStartPayload request.payload) then
      some "invalid message"
    else none
  | .other => some "invalid pairing request"

end Shapes

/-- `len(m.Attempt) + len(m.Kind) + len(m.Payload) + 64`. -/
def messageSize (message : PairingMessage) : Nat :=
  message.attempt.utf8ByteSize + message.kind.text.utf8ByteSize + message.payload.utf8ByteSize + 64

def pairingBatchFrom (index size : Nat) :
    List PairingMessage → List PairingMessage × List PairingMessage
  | [] => ([], [])
  | message :: rest =>
    let grown := size + messageSize message
    if index = pairingPollMessages ∨ (0 < index ∧ pairingPollBytes < grown) then
      ([], message :: rest)
    else
      let later := pairingBatchFrom (index + 1) grown rest
      (message :: later.1, later.2)

/-- What one host-poll hands out, and what stays for the next. -/
def pairingBatch (inbox : List PairingMessage) : List PairingMessage × List PairingMessage :=
  pairingBatchFrom 0 0 inbox

/-- `pairingDeliver`: the entry with the message in its queue, or none. -/
def pairingDeliver (entry : PairingEntry) (host : Bool) (action : PairingAction) (attempt : String)
    (kind : Option PairingKind) (payload : String) : Option (PairingEntry × PairingMessage) :=
  if entry.closed then none
  else
    let stage := entry.stages.get attempt
    if action = .start ∧ host = false ∧ stage = none ∧ kind = some .start ∧
        entry.attempts.size < entry.maxAttempts then
      let message : PairingMessage := ⟨attempt, .start, payload⟩
      some ({ entry with
        attempts := entry.attempts.set attempt []
        stages := entry.stages.set attempt .start
        inbox := entry.inbox ++ [message] }, message)
    else if action = .finish ∧ host = false ∧ stage = some .response ∧ kind = some .finish then
      let message : PairingMessage := ⟨attempt, .finish, payload⟩
      some ({ entry with
        stages := entry.stages.set attempt .finish
        inbox := entry.inbox ++ [message] }, message)
    else if action = .reply ∧ host = true ∧ stage = some .start ∧ kind = some .response then
      let message : PairingMessage := ⟨attempt, .response, payload⟩
      some ({ entry with
        stages := entry.stages.set attempt .response
        attempts := entry.attempts.set attempt ((entry.attempts.get attempt).getD [] ++ [message]) },
        message)
    else if action = .reply ∧ host = true ∧ stage = some .finish ∧ kind = some .transfer then
      let message : PairingMessage := ⟨attempt, .transfer, payload⟩
      let last := decide (entry.maxUses ≤ entry.delivered + 1)
      some ({ entry with
        stages := entry.stages.set attempt .transfer
        attempts := entry.attempts.set attempt ((entry.attempts.get attempt).getD [] ++ [message])
        delivered := entry.delivered + 1
        closed := last
        inbox := if last then [] else entry.inbox }, message)
    else none

inductive PairingOutcome where
  | refused (status : Nat) (message : String)
  | created (token : String)
  | cancelled
  | hostPolled (queued batch : List PairingMessage)
  | joinPolled (attempt : String) (messages : List PairingMessage)
  | accepted (host : Bool) (message : PairingMessage)

/-- How many people the creator asked for; asking for none is asking for one. -/
def PairingRequest.people (request : PairingRequest) : Nat :=
  if request.uses = 0 then 1 else request.uses.toNat

def freshEntry (request : PairingRequest) (token : String) (now : Int) : PairingEntry :=
  let uses := request.people
  { token := token
    expires := now + (if request.ttl = 0 then pairingDefaultTTL else request.ttl)
    attempts := .empty
    stages := .empty
    inbox := []
    closed := false
    maxUses := uses
    maxAttempts := uses + pairingSpareAttempts
    delivered := 0 }

/-- The answer of a locator with no live pairing. -/
def absentRefusal (request : PairingRequest) : PairingOutcome :=
  if request.token ≠ "" ∨ request.action = .cancel ∨ request.action = .hostPoll then
    .refused 403 "denied"
  else if request.action = .joinPoll then .refused 404 "unknown attempt"
  else .refused 409 "pairing rejected"

/-- The part of `handlePairing` that has found the live entry. -/
def handleLive (entry : PairingEntry) (request : PairingRequest) :
    PairingOutcome × Option PairingEntry :=
  let host := decide (request.token ≠ "") && decide (request.token = entry.token)
  if request.token ≠ "" ∧ host = false then (.refused 403 "denied", some entry)
  else
    match request.action with
    | .cancel => if host then (.cancelled, none) else (.refused 403 "denied", some entry)
    | .hostPoll =>
      if host then
        let split := pairingBatch entry.inbox
        (.hostPolled entry.inbox split.1, some { entry with inbox := split.2 })
      else (.refused 403 "denied", some entry)
    | .joinPoll =>
      match entry.attempts.get request.attempt with
      | none => (.refused 404 "unknown attempt", some entry)
      | some messages =>
        if entry.closed = true ∧ messages = [] ∧
            entry.stages.get request.attempt ≠ some .transfer then
          (.refused 409 "pairing rejected", some entry)
        else
          (.joinPolled request.attempt messages,
            some { entry with attempts := entry.attempts.set request.attempt [] })
    | _ =>
      match pairingDeliver entry host request.action request.attempt request.kind
        request.payload with
      | none => (.refused 409 "pairing rejected", some entry)
      | some (next, message) => (.accepted host message, some next)

def handlePairing (stored : Option PairingEntry) (arrival : PairingArrival) :
    PairingOutcome × Option PairingEntry :=
  let request := arrival.request
  if !arrival.originAllowed then (.refused 403 "Origin not allowed", stored)
  else if !arrival.admitted then (.refused 429 "rate limited", stored)
  else if !arrival.decoded then (.refused 400 "invalid pairing request", stored)
  else if request.action ≠ .create ∧ (request.uses ≠ 0 ∨ request.ttl ≠ 0) then
    (.refused 400 "invalid pairing request", stored)
  else
    match shapeRefusal request with
    | some message => (.refused 400 message, stored)
    | none =>
      if request.action = .start ∧ !arrival.startAdmitted then (.refused 429 "rate limited", stored)
      else if request.action = .create ∧ !arrival.createAdmitted then
        (.refused 429 "pairing unavailable", stored)
      else
        let live := stored.filter fun entry => decide (arrival.now < entry.expires)
        if request.action = .create then
          if arrival.capped then (.refused 429 "pairing unavailable", live)
          else
            match live, arrival.drawn with
            | some _, _ => (.refused 409 "locator in use", live)
            | none, none => (.refused 500 "unavailable", live)
            | none, some token =>
              (.created token, some (freshEntry request token arrival.now))
        else
          match live with
          | none => (absentRefusal request, none)
          | some entry => handleLive entry request

/-- The locator, the people its pairing was created for, and what happened there
since. -/
structure PairingWorld where
  entry : Option PairingEntry
  people : Nat
  log : List PairingOutcome

def PairingWorld.empty : PairingWorld := ⟨none, 0, []⟩

def pairingStep (world : PairingWorld) (arrival : PairingArrival) : Option PairingWorld :=
  let handled := handlePairing world.entry arrival
  match handled.1 with
  | .created _ => some ⟨handled.2, arrival.request.people, []⟩
  | outcome => some ⟨handled.2, world.people, world.log ++ [outcome]⟩

section Log

def PairingOutcome.message : PairingOutcome → Option PairingMessage
  | .accepted _ message => some message
  | _ => none

def acceptedMessages (log : List PairingOutcome) : List PairingMessage :=
  log.filterMap PairingOutcome.message

def acceptedKinds (attempt : String) (log : List PairingOutcome) : List PairingKind :=
  ((acceptedMessages log).filter fun message => decide (message.attempt = attempt)).map
    PairingMessage.kind

def PairingMessage.isForHost (message : PairingMessage) : Bool :=
  decide (message.kind = .start) || decide (message.kind = .finish)

def acceptedForHost (log : List PairingOutcome) : List PairingMessage :=
  (acceptedMessages log).filter PairingMessage.isForHost

def acceptedForJoiner (attempt : String) (log : List PairingOutcome) : List PairingMessage :=
  (acceptedMessages log).filter fun message =>
    !message.isForHost && decide (message.attempt = attempt)

def PairingOutcome.toHost : PairingOutcome → List PairingMessage
  | .hostPolled _ batch => batch
  | _ => []

def PairingOutcome.toJoiner (attempt : String) : PairingOutcome → List PairingMessage
  | .joinPolled other messages => if other = attempt then messages else []
  | _ => []

def returnedToHost (log : List PairingOutcome) : List PairingMessage :=
  log.flatMap PairingOutcome.toHost

def returnedToJoiner (attempt : String) (log : List PairingOutcome) : List PairingMessage :=
  log.flatMap (PairingOutcome.toJoiner attempt)

def startsIn (log : List PairingOutcome) : Nat :=
  (acceptedMessages log).countP fun message => decide (message.kind = .start)

def transfersIn (log : List PairingOutcome) : Nat :=
  (acceptedMessages log).countP fun message => decide (message.kind = .transfer)

def batchSize (batch : List PairingMessage) : Nat := (batch.map messageSize).sum

end Log

/-- The stages an attempt has been through. -/
def stagesUpTo : Option PairingKind → List PairingKind
  | none => []
  | some .start => [.start]
  | some .response => [.start, .response]
  | some .finish => [.start, .response, .finish]
  | some .transfer => [.start, .response, .finish, .transfer]

structure BoundedBatch (queued batch : List PairingMessage) : Prop where
  count : batch.length ≤ pairingPollMessages
  some_of_queued : queued ≠ [] → batch ≠ []
  bytes : batch.length ≤ 1 ∨ batchSize batch ≤ pairingPollBytes

/-- What holds of a live pairing created for `people` and of everything that
happened in it. -/
structure PairingSound (people : Nat) (entry : PairingEntry) (log : List PairingOutcome) :
    Prop where
  stages : ∀ attempt, acceptedKinds attempt log = stagesUpTo (entry.stages.get attempt)
  same_keys : ∀ attempt, entry.attempts.get attempt = none ↔ entry.stages.get attempt = none
  starts : startsIn log = entry.attempts.size
  attempts : entry.attempts.size ≤ people + pairingSpareAttempts
  transfers : transfersIn log = entry.delivered
  delivered : entry.delivered ≤ people
  closed : entry.closed = true ↔ entry.delivered = people
  after_last : ∀ before outcome after, log = before ++ outcome :: after →
    outcome.message.isSome = true → transfersIn before < people
  open_inbox : entry.closed = false → acceptedForHost log = returnedToHost log ++ entry.inbox
  closed_inbox : entry.closed = true →
    entry.inbox = [] ∧ ∃ dropped, acceptedForHost log = returnedToHost log ++ dropped
  joiners : ∀ attempt, acceptedForJoiner attempt log =
    returnedToJoiner attempt log ++ (entry.attempts.get attempt).getD []
  batches : ∀ queued batch, .hostPolled queued batch ∈ log → BoundedBatch queued batch

section Batch

theorem batch_from_append (index size : Nat) (messages : List PairingMessage) :
    (pairingBatchFrom index size messages).1 ++ (pairingBatchFrom index size messages).2 =
      messages := by
  induction messages generalizing index size with
  | nil => rfl
  | cons message rest ih =>
    simp only [pairingBatchFrom]
    split_ifs
    · rfl
    · simp only [cons_append, ih]

theorem batch_from_length {index : Nat} (within : index ≤ pairingPollMessages) (size : Nat)
    (messages : List PairingMessage) :
    index + (pairingBatchFrom index size messages).1.length ≤ pairingPollMessages := by
  induction messages generalizing index size with
  | nil => simpa [pairingBatchFrom] using within
  | cons message rest ih =>
    simp only [pairingBatchFrom]
    split_ifs with full
    · simpa using within
    · have further : index + 1 ≤ pairingPollMessages := by
        have different : index ≠ pairingPollMessages := fun same => full (Or.inl same)
        omega
      have later := ih further (size + messageSize message)
      simp only [length_cons]
      omega

theorem batch_from_size (index : Nat) (begun : 0 < index) (size : Nat)
    (messages : List PairingMessage) (some_batch : (pairingBatchFrom index size messages).1 ≠ []) :
    size + batchSize (pairingBatchFrom index size messages).1 ≤ pairingPollBytes := by
  induction messages generalizing index size with
  | nil => exact absurd rfl some_batch
  | cons message rest ih =>
    simp only [pairingBatchFrom] at some_batch ⊢
    split_ifs at some_batch ⊢ with full
    · exact absurd rfl some_batch
    · have fits : size + messageSize message ≤ pairingPollBytes := by
        by_contra past
        exact full (Or.inr ⟨begun, by omega⟩)
      simp only [batchSize, map_cons, sum_cons]
      cases later : (pairingBatchFrom (index + 1) (size + messageSize message) rest).1 with
      | nil => simpa using fits
      | cons next others =>
        have bounded := ih (index + 1) (by omega) (size + messageSize message)
          (by rw [later]; simp)
        rw [later] at bounded
        simp only [batchSize] at bounded
        omega

theorem pairing_batch_append (inbox : List PairingMessage) :
    (pairingBatch inbox).1 ++ (pairingBatch inbox).2 = inbox :=
  batch_from_append 0 0 inbox

theorem pairing_batch_bounded (inbox : List PairingMessage) :
    BoundedBatch inbox (pairingBatch inbox).1 := by
  refine ⟨?_, ?_, ?_⟩
  · simpa [pairingBatch] using batch_from_length (Nat.zero_le _) 0 inbox
  · intro queued
    cases inbox with
    | nil => exact absurd rfl queued
    | cons message rest => simp [pairingBatch, pairingBatchFrom, pairingPollMessages]
  · cases inbox with
    | nil => exact Or.inl (Nat.zero_le _)
    | cons message rest =>
      have first : (pairingBatch (message :: rest)).1 =
          message :: (pairingBatchFrom 1 (messageSize message) rest).1 := by
        simp [pairingBatch, pairingBatchFrom, pairingPollMessages]
      rw [first]
      cases later : (pairingBatchFrom 1 (messageSize message) rest).1 with
      | nil => exact Or.inl (Nat.le_refl _)
      | cons next others =>
        right
        have bounded := batch_from_size 1 (by omega) (messageSize message) rest
          (show (pairingBatchFrom 1 (messageSize message) rest).1 ≠ [] by rw [later]; simp)
        rw [later] at bounded
        simpa [batchSize] using bounded

end Batch

section Appended

variable (log : List PairingOutcome) (outcome : PairingOutcome) (attempt : String)

theorem accepted_messages_append :
    acceptedMessages (log ++ [outcome]) = acceptedMessages log ++ outcome.message.toList := by
  unfold acceptedMessages
  cases found : outcome.message <;> simp [filterMap_append, found]

theorem accepted_kinds_append :
    acceptedKinds attempt (log ++ [outcome]) = acceptedKinds attempt log ++
      ((outcome.message.toList.filter fun message => decide (message.attempt = attempt)).map
        PairingMessage.kind) := by
  simp [acceptedKinds, accepted_messages_append]

theorem accepted_for_host_append :
    acceptedForHost (log ++ [outcome]) =
      acceptedForHost log ++ outcome.message.toList.filter PairingMessage.isForHost := by
  simp [acceptedForHost, accepted_messages_append]

theorem accepted_for_joiner_append :
    acceptedForJoiner attempt (log ++ [outcome]) = acceptedForJoiner attempt log ++
      outcome.message.toList.filter fun message =>
        !message.isForHost && decide (message.attempt = attempt) := by
  simp [acceptedForJoiner, accepted_messages_append]

theorem starts_in_append :
    startsIn (log ++ [outcome]) = startsIn log +
      outcome.message.toList.countP fun message => decide (message.kind = .start) := by
  simp [startsIn, accepted_messages_append]

theorem transfers_in_append :
    transfersIn (log ++ [outcome]) = transfersIn log +
      outcome.message.toList.countP fun message => decide (message.kind = .transfer) := by
  simp [transfersIn, accepted_messages_append]

theorem returned_to_host_append :
    returnedToHost (log ++ [outcome]) = returnedToHost log ++ outcome.toHost := by
  simp [returnedToHost]

theorem returned_to_joiner_append :
    returnedToJoiner attempt (log ++ [outcome]) =
      returnedToJoiner attempt log ++ outcome.toJoiner attempt := by
  simp [returnedToJoiner]

end Appended

/-- What the fields of an entry say about the creation it comes from. -/
structure PairingLimits (people : Nat) (entry : PairingEntry) : Prop where
  uses : entry.maxUses = people
  budget : entry.maxAttempts = people + pairingSpareAttempts
  some_people : 0 < people

section Steps

variable {people : Nat} {entry next : PairingEntry} {log : List PairingOutcome}
  {outcome : PairingOutcome}

section

variable (sound : PairingSound people entry log)
include sound

theorem PairingSound.open_of_accepting
    (accepting : entry.closed = false) : entry.delivered < people := by
  have different : entry.delivered ≠ people := by
    intro full
    rw [sound.closed.mpr full] at accepting
    cases accepting
  have bounded := sound.delivered
  omega

theorem PairingSound.after_last_append
    (accepting : outcome.message.isSome = true → transfersIn log < people) :
    ∀ before found after, log ++ [outcome] = before ++ found :: after →
      found.message.isSome = true → transfersIn before < people := by
  intro before found after split accepted
  rcases eq_nil_or_concat after with empty | ⟨rest, final, appended⟩
  · subst empty
    have parts := append_inj' split rfl
    cases parts.2
    rw [← parts.1]
    exact accepting accepted
  · subst appended
    have shifted : log ++ [outcome] = (before ++ found :: rest) ++ [final] := by
      rw [split]
      simp
    exact sound.after_last before found rest (append_inj' shifted rfl).1 accepted

theorem PairingSound.batches_append
    (bounded : ∀ queued batch, outcome = .hostPolled queued batch → BoundedBatch queued batch) :
    ∀ queued batch, .hostPolled queued batch ∈ log ++ [outcome] → BoundedBatch queued batch := by
  intro queued batch mem
  rcases mem_append.mp mem with old | new
  · exact sound.batches queued batch old
  · exact bounded queued batch (mem_singleton.mp new).symm

theorem PairingSound.answered
    (quiet : outcome.message = none)
    (bounded : ∀ queued batch, outcome = .hostPolled queued batch → BoundedBatch queued batch)
    (stages : next.stages = entry.stages) (size : next.attempts.size = entry.attempts.size)
    (keys : ∀ attempt, next.attempts.get attempt = none ↔ entry.attempts.get attempt = none)
    (delivered : next.delivered = entry.delivered) (closed : next.closed = entry.closed)
    (inbox : outcome.toHost ++ next.inbox = entry.inbox)
    (queues : ∀ attempt, outcome.toJoiner attempt ++ (next.attempts.get attempt).getD [] =
      (entry.attempts.get attempt).getD []) :
    PairingSound people next (log ++ [outcome]) where
  stages := by
    intro attempt
    rw [accepted_kinds_append, quiet, stages, sound.stages]
    simp
  same_keys := by
    intro attempt
    rw [keys, stages]
    exact sound.same_keys attempt
  starts := by
    rw [starts_in_append, quiet, size, sound.starts]
    simp
  attempts := by
    rw [size]
    exact sound.attempts
  transfers := by
    rw [transfers_in_append, quiet, delivered, sound.transfers]
    simp
  delivered := by
    rw [delivered]
    exact sound.delivered
  closed := by
    rw [closed, delivered]
    exact sound.closed
  after_last := by
    apply sound.after_last_append
    intro accepted
    rw [quiet] at accepted
    cases accepted
  open_inbox := by
    intro accepting
    rw [closed] at accepting
    rw [accepted_for_host_append, returned_to_host_append, quiet, sound.open_inbox accepting,
      ← inbox]
    simp
  closed_inbox := by
    intro full
    rw [closed] at full
    obtain ⟨none_queued, dropped, known⟩ := sound.closed_inbox full
    rw [none_queued, append_eq_nil_iff] at inbox
    refine ⟨inbox.2, dropped, ?_⟩
    rw [accepted_for_host_append, returned_to_host_append, quiet, known, inbox.1]
    simp
  joiners := by
    intro attempt
    rw [accepted_for_joiner_append, returned_to_joiner_append, quiet, sound.joiners, ← queues]
    simp
  batches := sound.batches_append bounded

theorem PairingSound.refused (quiet : outcome.message = none) (host : outcome.toHost = [])
    (joiner : ∀ attempt, outcome.toJoiner attempt = [])
    (unpolled : ∀ queued batch, outcome ≠ .hostPolled queued batch) :
    PairingSound people entry (log ++ [outcome]) := by
  apply sound.answered quiet
  · intro queued batch same
    exact absurd same (unpolled queued batch)
  · rfl
  · rfl
  · exact fun attempt => Iff.rfl
  · rfl
  · rfl
  · rw [host, nil_append]
  · intro attempt
    rw [joiner, nil_append]

theorem PairingSound.host_polled :
    PairingSound people { entry with inbox := (pairingBatch entry.inbox).2 }
      (log ++ [.hostPolled entry.inbox (pairingBatch entry.inbox).1]) := by
  apply sound.answered rfl
  · intro queued batch same
    cases same
    exact pairing_batch_bounded entry.inbox
  · rfl
  · rfl
  · exact fun attempt => Iff.rfl
  · rfl
  · rfl
  · exact pairing_batch_append entry.inbox
  · intro attempt
    rfl

theorem PairingSound.join_polled {attempt : String}
    {messages : List PairingMessage} (found : entry.attempts.get attempt = some messages) :
    PairingSound people { entry with attempts := entry.attempts.set attempt [] }
      (log ++ [.joinPolled attempt messages]) := by
  apply sound.answered rfl
  · nofun
  · rfl
  · apply size_set_of_present
    simp [found]
  · intro other
    rw [get_set]
    split_ifs with same
    · simp [same, found]
    · rfl
  · rfl
  · rfl
  · rfl
  · intro other
    rw [get_set]
    by_cases same : other = attempt
    · simp [PairingOutcome.toJoiner, same, found]
    · simp [PairingOutcome.toJoiner, same, Ne.symm same]

end

/-- An accepted message moves its attempt one stage on and joins one queue. -/
structure Takes (people : Nat) (entry next : PairingEntry) (message : PairingMessage) : Prop where
  accepting : entry.closed = false
  stages : next.stages = entry.stages.set message.attempt message.kind
  stage : stagesUpTo (entry.stages.get message.attempt) ++ [message.kind] =
    stagesUpTo (some message.kind)
  keys : ∀ attempt, next.attempts.get attempt = none ↔
    attempt ≠ message.attempt ∧ entry.attempts.get attempt = none
  size : next.attempts.size =
    entry.attempts.size + if message.kind = .start then 1 else 0
  attempts : next.attempts.size ≤ people + pairingSpareAttempts
  delivered : next.delivered = entry.delivered + if message.kind = .transfer then 1 else 0
  closed : next.closed = decide (people ≤ next.delivered)
  inbox : next.inbox = if next.closed then [] else
    entry.inbox ++ [message].filter PairingMessage.isForHost
  queues : ∀ attempt, (next.attempts.get attempt).getD [] =
    (entry.attempts.get attempt).getD [] ++
      [message].filter fun found => !found.isForHost && decide (found.attempt = attempt)

theorem PairingSound.accepted (sound : PairingSound people entry log) {message : PairingMessage}
    (takes : Takes people entry next message) (host : Bool) :
    PairingSound people next (log ++ [.accepted host message]) := by
  have room : entry.delivered < people := sound.open_of_accepting takes.accepting
  have grown : next.delivered ≤ people := by
    rw [takes.delivered]
    split_ifs <;> omega
  have received : acceptedForHost (log ++ [.accepted host message]) =
      returnedToHost (log ++ [.accepted host message]) ++
        (entry.inbox ++ [message].filter PairingMessage.isForHost) := by
    rw [accepted_for_host_append, returned_to_host_append, sound.open_inbox takes.accepting]
    simp [PairingOutcome.message, PairingOutcome.toHost]
  refine ⟨?_, ?_, ?_, takes.attempts, ?_, grown, ?_, ?_, ?_, ?_, ?_, ?_⟩
  · intro attempt
    rw [accepted_kinds_append, takes.stages, get_set, sound.stages]
    by_cases same : attempt = message.attempt
    · subst same
      rw [if_pos rfl, ← takes.stage]
      simp [PairingOutcome.message]
    · rw [if_neg same]
      simp [PairingOutcome.message, Ne.symm same]
  · intro attempt
    rw [takes.keys, takes.stages, get_set]
    split_ifs with same
    · simp [same]
    · simpa [same] using sound.same_keys attempt
  · rw [starts_in_append, takes.size, sound.starts]
    simp [PairingOutcome.message]
  · rw [transfers_in_append, takes.delivered, sound.transfers]
    simp [PairingOutcome.message]
  · rw [takes.closed, decide_eq_true_eq]
    omega
  · apply sound.after_last_append
    intro _
    rw [sound.transfers]
    exact room
  · intro accepting
    rw [takes.inbox, accepting]
    exact received
  · intro full
    refine ⟨?_, _, received⟩
    rw [takes.inbox, full]
    rfl
  · intro attempt
    rw [accepted_for_joiner_append, returned_to_joiner_append, sound.joiners, takes.queues]
    simp [PairingOutcome.message, PairingOutcome.toJoiner]
  · apply sound.batches_append
    intro _ _ same
    cases same

variable {attempt payload : String}

section

variable (sound : PairingSound people entry log)
include sound

theorem PairingSound.takes_start
    (limits : PairingLimits people entry) (accepting : entry.closed = false)
    (absent : entry.stages.get attempt = none) (spare : entry.attempts.size < entry.maxAttempts) :
    Takes people entry { entry with
        attempts := entry.attempts.set attempt []
        stages := entry.stages.set attempt .start
        inbox := entry.inbox ++ [⟨attempt, .start, payload⟩] } ⟨attempt, .start, payload⟩ := by
  have room := sound.open_of_accepting accepting
  have unknown : entry.attempts.get attempt = none := (sound.same_keys attempt).mpr absent
  have grown := size_set_of_absent ([] : List PairingMessage) unknown
  refine ⟨accepting, rfl, ?_, ?_, ?_, ?_, rfl, ?_, ?_, ?_⟩
  · simp [absent, stagesUpTo]
  · intro other
    simp only [get_set]
    split_ifs with same <;> simp [same]
  · simpa using grown
  · have budget := limits.budget
    simp only [grown]
    omega
  · simp [accepting, room]
  · simp [accepting, PairingMessage.isForHost]
  · intro other
    simp only [get_set]
    split_ifs with same
    · simp [same, unknown, PairingMessage.isForHost]
    · simp [PairingMessage.isForHost]

theorem PairingSound.takes_finish
    (accepting : entry.closed = false) (stage : entry.stages.get attempt = some .response) :
    Takes people entry { entry with
        stages := entry.stages.set attempt .finish
        inbox := entry.inbox ++ [⟨attempt, .finish, payload⟩] } ⟨attempt, .finish, payload⟩ := by
  have room := sound.open_of_accepting accepting
  have known : entry.attempts.get attempt ≠ none := by
    rw [ne_eq, sound.same_keys, stage]
    simp
  refine ⟨accepting, rfl, ?_, ?_, rfl, sound.attempts, rfl, ?_, ?_, ?_⟩
  · simp [stage, stagesUpTo]
  · intro other
    constructor
    · intro absent
      have different : other ≠ attempt := by
        intro same
        rw [same] at absent
        exact known absent
      exact ⟨different, absent⟩
    · exact fun both => both.2
  · simp [accepting, room]
  · simp [accepting, PairingMessage.isForHost]
  · intro other
    simp [PairingMessage.isForHost]

theorem PairingSound.takes_reply (payload : String) (accepting : entry.closed = false)
    {stage kind : PairingKind} (at_stage : entry.stages.get attempt = some stage)
    (follows : stagesUpTo (some stage) ++ [kind] = stagesUpTo (some kind))
    (reply : kind = .response ∨ kind = .transfer) {delivered : Nat} {last : Bool}
    (counted : delivered = entry.delivered + if kind = .transfer then 1 else 0)
    (closing : last = decide (people ≤ delivered)) :
    Takes people entry { entry with
        stages := entry.stages.set attempt kind
        attempts := entry.attempts.set attempt
          ((entry.attempts.get attempt).getD [] ++ [⟨attempt, kind, payload⟩])
        delivered := delivered
        closed := last
        inbox := if last then [] else entry.inbox } ⟨attempt, kind, payload⟩ := by
  have known : entry.attempts.get attempt ≠ none := by
    rw [ne_eq, sound.same_keys, at_stage]
    simp
  have joiner : PairingMessage.isForHost ⟨attempt, kind, payload⟩ = false := by
    rcases reply with response | transfer
    · simp [PairingMessage.isForHost, response]
    · simp [PairingMessage.isForHost, transfer]
  have later : kind ≠ .start := by
    rcases reply with response | transfer
    · simp [response]
    · simp [transfer]
  have same_size := size_set_of_present
    ((entry.attempts.get attempt).getD [] ++ [⟨attempt, kind, payload⟩]) known
  refine ⟨accepting, rfl, ?_, ?_, ?_, ?_, counted, closing, ?_, ?_⟩
  · simpa [at_stage] using follows
  · intro other
    simp only [get_set]
    split_ifs with same <;> simp [same]
  · simp [same_size, later]
  · simp only [same_size]
    exact sound.attempts
  · simp [joiner]
  · intro other
    simp only [get_set]
    split_ifs with same
    · simp [same, joiner]
    · simp [joiner, Ne.symm same]

theorem PairingSound.delivers (limits : PairingLimits people entry) {host : Bool}
    {action : PairingAction} {kind : Option PairingKind} {message : PairingMessage}
    (delivered : pairingDeliver entry host action attempt kind payload = some (next, message)) :
    Takes people entry next message ∧ PairingLimits people next := by
  unfold pairingDeliver at delivered
  dsimp only at delivered
  split at delivered
  · cases delivered
  rename_i closed
  have accepting : entry.closed = false := by simpa using closed
  split at delivered
  · rename_i start
    cases delivered
    exact ⟨sound.takes_start limits accepting start.2.2.1 start.2.2.2.2,
      ⟨limits.uses, limits.budget, limits.some_people⟩⟩
  split at delivered
  · rename_i finish
    cases delivered
    exact ⟨sound.takes_finish accepting finish.2.2.1,
      ⟨limits.uses, limits.budget, limits.some_people⟩⟩
  split at delivered
  · rename_i response
    cases delivered
    have room := sound.open_of_accepting accepting
    have taken := sound.takes_reply payload accepting response.2.2.1 rfl (Or.inl rfl)
      (Nat.add_zero entry.delivered).symm
      (show entry.closed = decide (people ≤ entry.delivered) by simp [accepting, room])
    have unchanged : (if entry.closed then [] else entry.inbox) = entry.inbox := by
      simp [accepting]
    rw [unchanged] at taken
    exact ⟨taken, ⟨limits.uses, limits.budget, limits.some_people⟩⟩
  split at delivered
  · rename_i transfer
    cases delivered
    have taken := sound.takes_reply payload accepting transfer.2.2.1 rfl (Or.inr rfl)
      (show entry.delivered + 1 = _ from rfl)
      (show decide (entry.maxUses ≤ entry.delivered + 1) = _ by rw [limits.uses])
    exact ⟨taken, ⟨limits.uses, limits.budget, limits.some_people⟩⟩
  · cases delivered

theorem PairingSound.handles (limits : PairingLimits people entry) (request : PairingRequest)
    (live : (handleLive entry request).2 = some next) :
    PairingSound people next (log ++ [(handleLive entry request).1]) ∧
      PairingLimits people next := by
  have refuses : ∀ status text,
      PairingSound people entry (log ++ [.refused status text]) ∧ PairingLimits people entry := by
    intro status text
    refine ⟨sound.refused rfl rfl (fun _ => rfl) ?_, limits⟩
    nofun
  obtain ⟨action, token, attempt, kind, payload, uses, ttl⟩ := request
  unfold handleLive at live ⊢
  dsimp only at live ⊢
  split at live
  · rename_i denied
    rw [if_pos denied]
    cases live
    exact refuses 403 "denied"
  rename_i allowed
  rw [if_neg allowed]
  cases action with
  | cancel =>
    dsimp only at live ⊢
    split_ifs at live ⊢
    cases live
    exact refuses 403 "denied"
  | hostPoll =>
    dsimp only at live ⊢
    split_ifs at live ⊢
    · cases live
      exact ⟨sound.host_polled, ⟨limits.uses, limits.budget, limits.some_people⟩⟩
    · cases live
      exact refuses 403 "denied"
  | joinPoll =>
    dsimp only at live ⊢
    cases found : entry.attempts.get attempt with
    | none =>
      rw [found] at live
      cases live
      exact refuses 404 "unknown attempt"
    | some messages =>
      rw [found] at live
      dsimp only at live ⊢
      split_ifs at live ⊢
      · cases live
        exact refuses 409 "pairing rejected"
      · cases live
        exact ⟨sound.join_polled found, ⟨limits.uses, limits.budget, limits.some_people⟩⟩
  | _ =>
    dsimp only at live ⊢
    split at live
    · cases live
      exact refuses 409 "pairing rejected"
    · rename_i changed message delivered
      cases live
      obtain ⟨takes, kept⟩ := sound.delivers limits delivered
      exact ⟨sound.accepted takes _, kept⟩

end

theorem handle_live_not_created (entry : PairingEntry) (request : PairingRequest) (token : String) :
    (handleLive entry request).1 ≠ .created token := by
  unfold handleLive
  dsimp only
  repeat' split
  all_goals simp

theorem fresh_entry_sound (request : PairingRequest) (token : String) (now : Int)
    (some_people : 0 < request.people) :
    PairingSound request.people (freshEntry request token now) [] where
  stages := fun _ => rfl
  same_keys := fun _ => ⟨fun _ => rfl, fun _ => rfl⟩
  starts := rfl
  attempts := Nat.zero_le _
  transfers := rfl
  delivered := Nat.zero_le _
  closed := by
    simp only [freshEntry]
    constructor
    · nofun
    · intro full
      omega
  after_last := by
    intro before outcome after split
    simp at split
  open_inbox := fun _ => rfl
  closed_inbox := nofun
  joiners := fun _ => rfl
  batches := nofun

theorem fresh_entry_limits (request : PairingRequest) (token : String) (now : Int)
    (some_people : 0 < request.people) :
    PairingLimits request.people (freshEntry request token now) :=
  ⟨rfl, rfl, some_people⟩

theorem people_of_shape {request : PairingRequest} (create : request.action = .create)
    (shaped : shapeRefusal request = none) : 0 < request.people := by
  unfold shapeRefusal at shaped
  rw [create] at shaped
  dsimp only at shaped
  split_ifs at shaped with outside
  unfold PairingRequest.people
  split_ifs <;> omega

end Steps

def PairingWorld.Sound (world : PairingWorld) : Prop :=
  ∀ entry, world.entry = some entry →
    PairingSound world.people entry world.log ∧ PairingLimits world.people entry

theorem handle_pairing_cases (stored : Option PairingEntry) (arrival : PairingArrival) :
    (∃ status text, (handlePairing stored arrival).1 = .refused status text ∧
      ∀ entry, (handlePairing stored arrival).2 = some entry → stored = some entry) ∨
    (∃ token, 0 < arrival.request.people ∧ handlePairing stored arrival =
      (.created token, some (freshEntry arrival.request token arrival.now))) ∨
    (∃ entry, stored = some entry ∧
      handlePairing stored arrival = handleLive entry arrival.request) := by
  have kept : ∀ entry, (stored.filter fun entry => decide (arrival.now < entry.expires)) =
      some entry → stored = some entry := by
    intro entry live
    exact (filter_eq_some_iff.mp live).1
  have unchanged : ∀ status text {result : PairingOutcome × Option PairingEntry},
      (.refused status text, stored) = result →
      ∃ status text, result.1 = .refused status text ∧
        ∀ entry, result.2 = some entry → stored = some entry := by
    intro status text result same
    subst same
    exact ⟨status, text, rfl, fun _ found => found⟩
  generalize handled : handlePairing stored arrival = result
  unfold handlePairing at handled
  dsimp only at handled
  split at handled
  · exact Or.inl (unchanged _ _ handled)
  split at handled
  · exact Or.inl (unchanged _ _ handled)
  split at handled
  · exact Or.inl (unchanged _ _ handled)
  split at handled
  · exact Or.inl (unchanged _ _ handled)
  split at handled
  · exact Or.inl (unchanged _ _ handled)
  rename_i shaped
  split at handled
  · exact Or.inl (unchanged _ _ handled)
  split at handled
  · exact Or.inl (unchanged _ _ handled)
  split at handled
  · rename_i create
    split at handled
    · subst handled
      exact Or.inl ⟨_, _, rfl, kept⟩
    split at handled
    · subst handled
      exact Or.inl ⟨_, _, rfl, kept⟩
    · subst handled
      exact Or.inl ⟨_, _, rfl, kept⟩
    · subst handled
      exact Or.inr (Or.inl ⟨_, people_of_shape create shaped, rfl⟩)
  split at handled
  · left
    subst handled
    obtain ⟨status, text, refused⟩ : ∃ status text,
        absentRefusal arrival.request = .refused status text := by
      unfold absentRefusal
      split_ifs
      · exact ⟨_, _, rfl⟩
      · exact ⟨_, _, rfl⟩
      · exact ⟨_, _, rfl⟩
    refine ⟨status, text, refused, ?_⟩
    nofun
  · rename_i entry live
    exact Or.inr (Or.inr ⟨entry, kept entry live, handled.symm⟩)

theorem pairing_step_sound {world next : PairingWorld} (sound : world.Sound)
    (arrival : PairingArrival) (stepped : pairingStep world arrival = some next) : next.Sound := by
  unfold pairingStep at stepped
  dsimp only at stepped
  rcases handle_pairing_cases world.entry arrival with
    ⟨status, text, refused, kept⟩ | ⟨token, some_people, created⟩ | ⟨entry, live, answered⟩
  · rw [refused] at stepped
    cases stepped
    intro entry stored
    obtain ⟨known, limits⟩ := sound entry (kept entry stored)
    refine ⟨known.refused rfl rfl (fun _ => rfl) ?_, limits⟩
    nofun
  · rw [created] at stepped
    cases stepped
    intro entry stored
    cases stored
    exact ⟨fresh_entry_sound arrival.request token arrival.now some_people,
      fresh_entry_limits arrival.request token arrival.now some_people⟩
  · rw [answered] at stepped
    split at stepped
    · rename_i token created
      exact absurd created (handle_live_not_created entry arrival.request token)
    · cases stepped
      intro changed stored
      obtain ⟨known, limits⟩ := sound entry live
      exact known.handles limits arrival.request stored

theorem join_poll_hands_out {entry : PairingEntry} {request : PairingRequest}
    {messages : List PairingMessage} (polls : request.action = .joinPoll)
    (queued : entry.attempts.get request.attempt = some messages) (some_queued : messages ≠ [])
    (permitted : request.token = "" ∨ request.token = entry.token) :
    handleLive entry request = (.joinPolled request.attempt messages,
      some { entry with attempts := entry.attempts.set request.attempt [] }) := by
  have through : ¬(request.token ≠ "" ∧
      (decide (request.token ≠ "") && decide (request.token = entry.token)) = false) := by
    rcases permitted with anonymous | hosting
    · simp [anonymous]
    · simp [hosting]
  have open_queue : ¬(entry.closed = true ∧ messages = [] ∧
      entry.stages.get request.attempt ≠ some .transfer) := fun both => some_queued both.2.1
  unfold handleLive
  dsimp only
  rw [if_neg through, polls]
  simp only [queued]
  rw [if_neg open_queue]

section Handshake

def anyoneAsks (request : PairingRequest) : PairingArrival where
  request := request
  originAllowed := true
  admitted := true
  decoded := true
  startAdmitted := true
  createAdmitted := true
  capped := false
  drawn := some "host"
  now := 0

def ferrisAttempt : String := "00000000000000000000000000000000"

def letInOne : List PairingArrival :=
  [anyoneAsks ⟨.create, "", "", none, "", 0, 0⟩,
    anyoneAsks ⟨.start, "", ferrisAttempt, some .start,
      String.ofList (List.replicate 128 'a'), 0, 0⟩,
    anyoneAsks ⟨.hostPoll, "host", "", none, "", 0, 0⟩,
    anyoneAsks ⟨.reply, "host", ferrisAttempt, some .response, "r", 0, 0⟩,
    anyoneAsks ⟨.joinPoll, "", ferrisAttempt, none, "", 0, 0⟩,
    anyoneAsks ⟨.finish, "", ferrisAttempt, some .finish, "f", 0, 0⟩,
    anyoneAsks ⟨.reply, "host", ferrisAttempt, some .transfer, "t", 0, 0⟩]

end Handshake

end AwfulChat.Relay
