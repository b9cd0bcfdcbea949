import AwfulChat.Relay.Pairing

/-!
# Probing a locator

The store of all pairings, swept of expired ones at most once a second, and what a
request learns about a locator that holds neither the token nor an attempt of the
pairing there. A locator with no pairing answers from a switch of its own; that it
answers as a live one would, whatever the live one's state, is a statement about two
runs of the handler.
-/

namespace AwfulChat.Relay

open Library Library.OrderedMap

set_option autoImplicit false

structure PairingStore where
  live : OrderedMap String PairingEntry
  lastSweep : Int

/-- Whether a request gets past the checks made before the store is locked. -/
def locksStore (arrival : PairingArrival) : Bool :=
  let request := arrival.request
  arrival.originAllowed && arrival.admitted && arrival.decoded &&
    !(decide (request.action ≠ .create) && (decide (request.uses ≠ 0) || decide (request.ttl ≠ 0))) &&
    (shapeRefusal request).isNone &&
    !(decide (request.action = .start) && !arrival.startAdmitted) &&
    !(decide (request.action = .create) && !arrival.createAdmitted)

/-- Expired pairings are swept at most once a second; times are in seconds. -/
def PairingStore.sweep (store : PairingStore) (now : Int) : PairingStore :=
  if 1 ≤ now - store.lastSweep then
    { live := store.live.keep fun locator =>
        (store.live.get locator).any fun entry => decide (now < entry.expires)
      lastSweep := now }
  else store

def PairingStore.keepEntry (store : PairingStore) (locator : String) :
    Option PairingEntry → PairingStore
  | some entry => { store with live := store.live.set locator entry }
  | none => { store with live := store.live.delete locator }

/-- `handlePairing` on the whole store. -/
def handlePairingAt (store : PairingStore) (locator : String) (arrival : PairingArrival) :
    PairingOutcome × PairingStore :=
  let swept := if locksStore arrival then store.sweep arrival.now else store
  let handled := handlePairing (swept.live.get locator) arrival
  (handled.1, swept.keepEntry locator handled.2)

/-- The request carries neither the entry's token nor an attempt it knows. -/
structure Stranger (request : PairingRequest) (entry : PairingEntry) : Prop where
  token : request.token ≠ entry.token
  attempt : entry.attempts.get request.attempt = none
  stage : entry.stages.get request.attempt = none

/-- A request that spends nothing: no creation, and no start of the kind start. -/
def IsProbe (request : PairingRequest) : Prop :=
  request.action ≠ .create ∧ ¬(request.action = .start ∧ request.kind = some .start)

section Probes

variable {entry : PairingEntry} {request : PairingRequest} {arrival : PairingArrival}

theorem stranger_not_delivered (stranger : Stranger request entry) (probe : IsProbe request) :
    pairingDeliver entry false request.action request.attempt request.kind request.payload =
      none := by
  unfold pairingDeliver
  dsimp only
  rw [stranger.stage]
  split_ifs with closed starts finishes responds transfers
  · rfl
  · exact absurd ⟨starts.1, starts.2.2.2.1⟩ probe.2
  · cases finishes.2.2.1
  · cases responds.2.2.1
  · cases transfers.2.2.1
  · rfl

theorem stranger_refused (stranger : Stranger request entry) (probe : IsProbe request) :
    handleLive entry request = (absentRefusal request, some entry) := by
  have guest : decide (request.token = entry.token) = false := decide_eq_false stranger.token
  unfold handleLive absentRefusal
  simp only [guest, Bool.and_false, and_true, Bool.false_eq_true, if_false]
  by_cases token : request.token = ""
  · have undelivered := stranger_not_delivered stranger probe
    cases action : request.action with
    | create => exact absurd action probe.1
    | joinPoll => simp [token, stranger.attempt]
    | cancel | hostPoll => simp [token]
    | start | finish | reply | other =>
      rw [action] at undelivered
      simp [token, undelivered]
  · simp [token]

theorem handle_stranger {stored : Option PairingEntry} (probe : IsProbe arrival.request)
    (unexpired : ∀ entry ∈ stored, arrival.now < entry.expires)
    (stranger : ∀ entry ∈ stored, Stranger arrival.request entry) :
    handlePairing stored arrival = ((handlePairing none arrival).1, stored) := by
  have live : (stored.filter fun entry => decide (arrival.now < entry.expires)) = stored := by
    cases stored with
    | none => rfl
    | some entry => exact Option.filter_some_pos (decide_eq_true (unexpired entry rfl))
  unfold handlePairing
  dsimp only
  rw [live]
  split
  · rfl
  split
  · rfl
  split
  · rfl
  split
  · rfl
  split
  · rfl
  split
  · rfl
  split
  · rfl
  rw [if_neg probe.1, if_neg probe.1]
  cases stored with
  | none => rfl
  | some entry => exact stranger_refused (stranger entry rfl) probe

theorem sweep_get {store : PairingStore} {locator : String} {now : Int}
    (unexpired : ∀ entry ∈ store.live.get locator, now < entry.expires) :
    (store.sweep now).live.get locator = store.live.get locator := by
  unfold PairingStore.sweep
  split_ifs with due
  · rw [get_keep]
    cases found : store.live.get locator with
    | none => simp
    | some entry => simp [unexpired entry found]
  · rfl

theorem keep_entry_get (store : PairingStore) (locator : String) (entry : Option PairingEntry) :
    (store.keepEntry locator entry).live.get locator = entry := by
  cases entry with
  | none => exact get_delete_self _ _
  | some entry => exact get_set_self _ _ _

/-- The two stores agree on everything but the entry at the locator, and an entry there
is unexpired and a stranger to the request. -/
structure ProbedStores (left right : PairingStore) (locator : String) (arrival : PairingArrival) :
    Prop where
  lastSweep : left.lastSweep = right.lastSweep
  elsewhere : ∀ other, other ≠ locator → left.live.get other = right.live.get other
  unexpired : ∀ store, store = left ∨ store = right →
    ∀ entry ∈ store.live.get locator, arrival.now < entry.expires
  stranger : ∀ store, store = left ∨ store = right →
    ∀ entry ∈ store.live.get locator, Stranger arrival.request entry

theorem handle_stranger_at {store : PairingStore} {locator : String}
    (probe : IsProbe arrival.request)
    (unexpired : ∀ entry ∈ store.live.get locator, arrival.now < entry.expires)
    (stranger : ∀ entry ∈ store.live.get locator, Stranger arrival.request entry) :
    (handlePairingAt store locator arrival).1 = (handlePairing none arrival).1 ∧
      (handlePairingAt store locator arrival).2.live.get locator = store.live.get locator := by
  have found : (if locksStore arrival then store.sweep arrival.now else store).live.get locator =
      store.live.get locator := by
    split_ifs
    · exact sweep_get unexpired
    · rfl
  have handled := handle_stranger probe unexpired stranger
  unfold handlePairingAt
  dsimp only
  rw [found, handled]
  exact ⟨rfl, keep_entry_get _ _ _⟩

/-- A dead locator looks like a live one: over two stores that differ only in the
unexpired entry at the locator, a probe of a stranger gets one answer, and neither
entry changes. -/
theorem dead_locator_looks_live {left right : PairingStore} {locator : String}
    (probe : IsProbe arrival.request) (stores : ProbedStores left right locator arrival) :
    (handlePairingAt left locator arrival).1 = (handlePairingAt right locator arrival).1 ∧
      (handlePairingAt left locator arrival).2.live.get locator = left.live.get locator ∧
      (handlePairingAt right locator arrival).2.live.get locator = right.live.get locator := by
  obtain ⟨left_answer, left_kept⟩ := handle_stranger_at probe (stores.unexpired left (.inl rfl))
    (stores.stranger left (.inl rfl))
  obtain ⟨right_answer, right_kept⟩ := handle_stranger_at probe (stores.unexpired right (.inr rfl))
    (stores.stranger right (.inr rfl))
  exact ⟨left_answer.trans right_answer.symm, left_kept, right_kept⟩

end Probes

section Witness

def strayPoll : PairingArrival := anyoneAsks ⟨.joinPoll, "", ferrisAttempt, none, "", 0, 0⟩

def liveEntry : PairingEntry := freshEntry ⟨.create, "", "", none, "", 0, 0⟩ "host" 0

theorem stray_poll_learns_nothing :
    (handlePairingAt ⟨OrderedMap.empty.set "k3" liveEntry, 0⟩ "k3" strayPoll).1 =
      (handlePairingAt ⟨.empty, 0⟩ "k3" strayPoll).1 := by
  have only : ∀ store : PairingStore, store = ⟨OrderedMap.empty.set "k3" liveEntry, 0⟩ ∨
      store = ⟨.empty, 0⟩ → ∀ entry ∈ store.live.get "k3", entry = liveEntry := by
    rintro store (rfl | rfl) entry found
    · simpa using found.symm
    · cases found
  have probe : IsProbe strayPoll.request := ⟨by decide, by decide⟩
  have stores : ProbedStores ⟨OrderedMap.empty.set "k3" liveEntry, 0⟩ ⟨.empty, 0⟩ "k3" strayPoll := by
    refine ⟨rfl, ?_, ?_, ?_⟩
    · intro other different
      simp [different]
    · intro store either entry found
      rw [only store either entry found]
      decide
    · intro store either entry found
      rw [only store either entry found]
      exact ⟨by decide, rfl, rfl⟩
  exact (dead_locator_looks_live probe stores).1

end Witness

end AwfulChat.Relay
