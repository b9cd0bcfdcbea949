import AwfulChat.Library.Base64
import AwfulChat.Library.Json
import AwfulChat.Library.OrderedMap
import AwfulChat.Library.Runs
import AwfulChat.Library.Totals
import Mathlib.Data.List.Nodup
import Mathlib.Data.Rat.Floor

/-!
# The inviter's side of a pairing

`InvitationPairingHost` of `invitation-pairing.ts`. The calls of a host interleave at
their awaits: `start` and `cancel` are one step each, `finish` is one step up to its
first await, with the person counted, and one more for each of the two awaits behind
it. OPAQUE, the hashes, ML-KEM and AES-GCM are parameters. The serial of an accepted
start and what a call remembers of its beginning are not in the source.
-/

namespace AwfulChat.RoomSecurity

open Library Library.OrderedMap List Option

set_option autoImplicit false

def PAIRING_TTL : Int := 300000

def PAIRING_MIN_TTL : Int := 60000

def PAIRING_MAX_TTL : Int := 600000

def PAIRING_MAX_USES : Int := 25

def PAIRING_SPARE_ATTEMPTS : Nat := 4

/-- `none` stands for a number that is missing or not finite. -/
structure PairingLimits where
  uses : Option Rat
  ttlMs : Option Rat

/-- `Math.round`. -/
def round (value : Rat) : Int := ⌊value + 1 / 2⌋

structure BoundedLimits where
  uses : Nat
  ttlMs : Int
  deriving DecidableEq

def pairingLimits (limits : PairingLimits) : BoundedLimits :=
  let uses := (limits.uses.map round).getD 1
  let ttlMs := (limits.ttlMs.map round).getD PAIRING_TTL
  { uses := (min PAIRING_MAX_USES (max 1 uses)).toNat
    ttlMs := min PAIRING_MAX_TTL (max PAIRING_MIN_TTL ttlMs) }

theorem pairing_limits_uses (limits : PairingLimits) :
    1 ≤ (pairingLimits limits).uses ∧ (pairingLimits limits).uses ≤ 25 := by
  simp only [pairingLimits, PAIRING_MAX_USES]
  omega

/-- The libraries that the host calls; none is a throw. -/
structure PairingPrimitives where
  Credentials : Type
  Login : Type
  startLogin : Credentials → Text → Text → Option (Login × Text)
  finishLogin : Login → Text → Option Text
  decapsulate : Bytes → Bytes → Bytes
  sha256 : Bytes → Bytes
  hkdf : Bytes → Bytes → Bytes → Bytes
  hmac : Bytes → Bytes → Bytes
  encrypt : Bytes → Bytes → Bytes → Bytes → Bytes

structure KemKeys where
  publicKey : Bytes
  secretKey : Bytes
  deriving DecidableEq

def KEM_CT_BYTES : Nat := 1088

def TAG_BYTES : Nat := 32

/-- The shape check of `message`, for a value that is a string. -/
def pairingMessage (value : Option Text) : Option Text :=
  value.filter fun value => 0 < value.length && value.length ≤ 2048 &&
    value.all fun unit => (Base64.letterValue unit).isSome

def exactB64 (value : Text) (bytes : Nat) : Option Bytes :=
  if value.length = (bytes * 4 + 2) / 3 ∧
      value.all (fun unit => (Base64.letterValue unit).isSome) = true then
    (Base64.decode value).filter fun decoded =>
      decoded.length = bytes && Base64.encode decoded = value
  else none

section Calls

variable (primitives : PairingPrimitives)

def hashed (bytes : Bytes) : Text := Base64.encode (primitives.sha256 bytes)

def jsonBytes (items : List Text) : Bytes :=
  Text.encodeUtf8 (Json.stringify (.array (items.map Json.string)))

def aad (locator attempt : Text) : Bytes := jsonBytes [text "awful/pairing/v2", locator, attempt]

def hybridTransferKey (sessionKey : Text) (kemShared : Bytes) (locator attempt : Text)
    (ek ct : Bytes) : Bytes :=
  primitives.hkdf (Text.encodeUtf8 sessionKey ++ kemShared) (Text.encodeUtf8 locator)
    (jsonBytes [text "awful/pairing/v3/transfer/" ++ attempt, hashed primitives ek,
      hashed primitives ct])

def confirmation (sessionKey locator attempt : Text) (ek ct : Bytes) : Text :=
  Base64.encode (primitives.hmac
    (primitives.hkdf (Text.encodeUtf8 sessionKey) (Text.encodeUtf8 locator)
      (Text.encodeUtf8 (text "awful/pairing/v3/confirm/" ++ attempt)))
    (jsonBytes [text "awful/pairing/v3/confirm", hashed primitives ek, hashed primitives ct]))

/-- Per attempt: the OPAQUE login state and its one-off key pair. -/
structure PendingLogin where
  login : primitives.Login
  kem : KemKeys
  serial : Nat

structure PairingHost where
  locator : Text
  expiresAt : Int
  uses : Nat
  joined : Nat
  credentials : Option primitives.Credentials
  secret : Option Text
  attempts : Nat
  pending : OrderedMap Text (PendingLogin primitives)
  closed : Bool

/-- `InvitationPairingHost.create`, once its registration is done. -/
def createPairingHost (locator secret : Text) (credentials : primitives.Credentials) (now : Int)
    (limits : PairingLimits) : PairingHost primitives where
  locator := locator
  expiresAt := now + (pairingLimits limits).ttlMs
  uses := (pairingLimits limits).uses
  joined := 0
  credentials := some credentials
  secret := some secret
  attempts := 0
  pending := OrderedMap.empty
  closed := false

variable {primitives}

def PairingHost.active (host : PairingHost primitives) (now : Int) : Bool :=
  !host.closed && now < host.expiresAt

def PairingHost.cancel (host : PairingHost primitives) : PairingHost primitives :=
  { host with
    closed := true
    secret := none
    credentials := none
    pending := OrderedMap.empty }

/-- An accepted start: the response it returns, and what it left pending. -/
structure Admitted (primitives : PairingPrimitives) where
  attempt : Text
  state : PendingLogin primitives
  response : Text

/-- `start`; none is a throw, which leaves the host as it was. -/
def PairingHost.start (host : PairingHost primitives) (now : Int) (kem : KemKeys) (serial : Nat)
    (attempt request : Option Text) : Option (PairingHost primitives × Admitted primitives) := do
  if !host.active now || host.uses + PAIRING_SPARE_ATTEMPTS ≤ host.attempts then none
  let attempt ← pairingMessage attempt
  if host.pending.has attempt then none
  let credentials ← host.credentials
  let request ← pairingMessage request
  let result ← primitives.startLogin credentials host.locator request
  let state : PendingLogin primitives := { login := result.1, kem := kem, serial := serial }
  some ({ host with
      attempts := host.attempts + 1
      pending := host.pending.set attempt state },
    { attempt := attempt
      state := state
      response := result.2 ++ 46 :: Base64.encode kem.publicKey })

/-- What `finish` checks of a request for one pending attempt: the session key, the
ML-KEM ciphertext and the tag that matched. -/
structure Confirmed where
  sessionKey : Text
  ct : Bytes
  tag : Text
  deriving DecidableEq

def confirm (locator attempt : Text) (state : PendingLogin primitives) (request : Option Text) :
    Option Confirmed :=
  match request.map (List.splitOn 46) with
  | some [opaque_, ciphertext, tag] => do
      let ct ← exactB64 ciphertext KEM_CT_BYTES
      let _ ← exactB64 tag TAG_BYTES
      let message ← pairingMessage (some opaque_)
      let sessionKey ← primitives.finishLogin state.login message
      if confirmation primitives sessionKey locator attempt state.kem.publicKey ct = tag then
        some { sessionKey := sessionKey, ct := ct, tag := tag }
      else none
  | _ => none

/-- A finish that has counted its person and waits for the import of its key, or for
the encryption under it. -/
structure FinishCall where
  attempt : Text
  serial : Nat
  publicKey : Bytes
  confirmed : Confirmed
  kemShared : Bytes
  secret : Text
  transferKey : Option Bytes
  nonce : Bytes
  beganAt : Int
  cancelledBefore : Bool
  joinedBefore : Nat
  deriving DecidableEq

/-- Counting the person: the last one consumes the code. -/
def PairingHost.join (host : PairingHost primitives) : PairingHost primitives :=
  if host.uses ≤ host.joined + 1 then { host with joined := host.joined + 1 }.cancel
  else { host with joined := host.joined + 1 }

def PairingHost.withoutPending (host : PairingHost primitives) (attempt : Text) :
    PairingHost primitives :=
  { host with pending := host.pending.delete attempt }

end Calls

structure AcceptedStart (primitives : PairingPrimitives) where
  attempt : Text
  login : primitives.Login
  kem : KemKeys

structure Transfer where
  call : FinishCall
  payload : Text
  deriving DecidableEq

/-- One host with the calls that wait on it, the starts it accepted, the serials its
finishes took up and the transfers they resolved with. -/
structure PairingWorld (primitives : PairingPrimitives) where
  host : PairingHost primitives
  calls : OrderedMap Nat FinishCall
  starts : List (AcceptedStart primitives)
  verified : List Nat
  transfers : List Transfer
  cancelled : Bool

inductive PairingEvent
  | start (attempt request : Option Text) (now : Int) (kem : KemKeys)
  | finish (call : Nat) (attempt : Text) (request : Option Text) (now : Int)
  | resume (call : Nat) (fulfilled : Bool) (nonce : Bytes)
  | cancel

section Steps

variable {primitives : PairingPrimitives}

def startStep (world : PairingWorld primitives) (attempt request : Option Text) (now : Int)
    (kem : KemKeys) : PairingWorld primitives :=
  match world.host.start now kem world.starts.length attempt request with
  | none => world
  | some (host, admitted) =>
    { world with
      host := host
      starts := world.starts ++
        [⟨admitted.attempt, admitted.state.login, admitted.state.kem⟩] }

/-- The synchronous part of `finish`, for an attempt that was pending. -/
def finishStep (world : PairingWorld primitives) (call : Nat) (attempt : Text)
    (request : Option Text) (now : Int) (state : PendingLogin primitives) :
    PairingWorld primitives :=
  let host := world.host.withoutPending attempt
  let taken := { world with host := host, verified := world.verified ++ [state.serial] }
  match confirm world.host.locator attempt state request with
  | none => taken
  | some confirmed =>
    { taken with
      host := host.join
      calls := world.calls.set call
        { attempt := attempt
          serial := state.serial
          publicKey := state.kem.publicKey
          confirmed := confirmed
          kemShared := primitives.decapsulate confirmed.ct state.kem.secretKey
          secret := world.host.secret.getD (text "null")
          transferKey := none
          nonce := []
          beganAt := now
          cancelledBefore := world.cancelled
          joinedBefore := world.host.joined } }

def FinishCall.payload (call : FinishCall) (locator : Text) (encrypt : Bytes → Bytes → Bytes →
    Bytes → Bytes) (key : Bytes) : Text :=
  Base64.encode call.nonce ++ 46 :: Base64.encode
    (encrypt key call.nonce (aad locator call.attempt) (Text.encodeUtf8 call.secret))

def resumeStep (world : PairingWorld primitives) (id : Nat) (call : FinishCall) (fulfilled : Bool)
    (nonce : Bytes) : PairingWorld primitives :=
  if fulfilled then
    match call.transferKey with
    | none =>
      { world with
        calls := world.calls.set id
          { call with
            transferKey := some (hybridTransferKey primitives call.confirmed.sessionKey
              call.kemShared world.host.locator call.attempt call.publicKey call.confirmed.ct)
            nonce := nonce } }
    | some key =>
      { world with
        calls := world.calls.delete id
        transfers := world.transfers ++
          [{ call := call, payload := call.payload world.host.locator primitives.encrypt key }] }
  else { world with calls := world.calls.delete id }

def pairingStep (world : PairingWorld primitives) : PairingEvent → Option (PairingWorld primitives)
  | .start attempt request now kem => some (startStep world attempt request now kem)
  | .finish call attempt request now =>
    match world.calls.get call with
    | some _ => none
    | none =>
      if world.host.active now = false then some world
      else match world.host.pending.get attempt with
        | none => some world
        | some state => some (finishStep world call attempt request now state)
  | .resume id fulfilled nonce =>
    match world.calls.get id with
    | none => none
    | some call => some (resumeStep world id call fulfilled nonce)
  | .cancel => some { world with host := world.host.cancel, cancelled := true }

def newPairing (primitives : PairingPrimitives) (locator secret : Text)
    (credentials : primitives.Credentials) (now : Int) (limits : PairingLimits) :
    PairingWorld primitives where
  host := createPairingHost primitives locator secret credentials now limits
  calls := OrderedMap.empty
  starts := []
  verified := []
  transfers := []
  cancelled := false

/-- The call began while the code was live, and its tag is the confirmation over the
key that the start with its serial was answered with. -/
structure FinishCall.Sound (world : PairingWorld primitives) (call : FinishCall) : Prop where
  live : call.cancelledBefore = false ∧ call.beganAt < world.host.expiresAt ∧
    call.joinedBefore < world.host.uses
  matched : ∃ start request, world.starts[call.serial]? = some start ∧
    start.attempt = call.attempt ∧
    primitives.finishLogin start.login request = some call.confirmed.sessionKey ∧
    confirmation primitives call.confirmed.sessionKey world.host.locator call.attempt
      start.kem.publicKey call.confirmed.ct = call.confirmed.tag

structure PairingInv (world : PairingWorld primitives) : Prop where
  attempts : world.starts.length = world.host.attempts
  budget : world.host.attempts ≤ world.host.uses + PAIRING_SPARE_ATTEMPTS
  pending : ∀ attempt state, world.host.pending.get attempt = some state →
    world.starts[state.serial]? = some ⟨attempt, state.login, state.kem⟩ ∧
      state.serial ∉ world.verified
  taken : ∀ serial ∈ world.verified, serial < world.starts.length
  once : world.verified.Nodup
  joined : world.host.joined ≤ world.host.uses
  last : world.host.closed = false → world.host.joined < world.host.uses
  cancelled : world.host.closed = false → world.cancelled = false
  counted : world.calls.size + world.transfers.length ≤ world.host.joined
  calls : ∀ id call, world.calls.get id = some call → call.Sound world
  transfers : ∀ transfer ∈ world.transfers, transfer.call.Sound world

theorem start_spec {host next : PairingHost primitives} {now : Int} {kem : KemKeys} {serial : Nat}
    {attempt request : Option Text} {admitted : Admitted primitives}
    (accepted : host.start now kem serial attempt request = some (next, admitted)) :
    host.attempts < host.uses + PAIRING_SPARE_ATTEMPTS ∧ admitted.state.serial = serial ∧
      next = { host with
        attempts := host.attempts + 1
        pending := host.pending.set admitted.attempt admitted.state } := by
  unfold PairingHost.start at accepted
  split at accepted
  · cases accepted
  · rename_i within
    obtain ⟨name, -, accepted⟩ := bind_eq_some_iff.mp accepted
    split at accepted
    · cases accepted
    · obtain ⟨credentials, -, accepted⟩ := bind_eq_some_iff.mp accepted
      obtain ⟨text, -, accepted⟩ := bind_eq_some_iff.mp accepted
      obtain ⟨result, -, accepted⟩ := bind_eq_some_iff.mp accepted
      obtain ⟨rfl, rfl⟩ := Prod.mk.inj (Option.some.inj accepted)
      refine ⟨?_, rfl, rfl⟩
      simp only [Bool.or_eq_true, decide_eq_true_eq, not_or, not_le] at within
      exact within.2

variable {world : PairingWorld primitives} {state : PendingLogin primitives}

theorem confirm_spec {locator attempt : Text} {request : Option Text} {confirmed : Confirmed}
    (passed : confirm locator attempt state request = some confirmed) :
    (∃ message, primitives.finishLogin state.login message = some confirmed.sessionKey) ∧
      confirmation primitives confirmed.sessionKey locator attempt state.kem.publicKey
        confirmed.ct = confirmed.tag := by
  unfold confirm at passed
  split at passed
  · obtain ⟨ct, -, passed⟩ := bind_eq_some_iff.mp passed
    obtain ⟨tagBytes, -, passed⟩ := bind_eq_some_iff.mp passed
    obtain ⟨message, -, passed⟩ := bind_eq_some_iff.mp passed
    obtain ⟨sessionKey, login, passed⟩ := bind_eq_some_iff.mp passed
    split at passed
    · rename_i matched
      obtain rfl := Option.some.inj passed
      exact ⟨⟨message, login⟩, matched⟩
    · cases passed
  · cases passed

theorem join_fields (host : PairingHost primitives) :
    host.join.uses = host.uses ∧ host.join.expiresAt = host.expiresAt ∧
      host.join.locator = host.locator ∧ host.join.attempts = host.attempts ∧
      host.join.joined = host.joined + 1 := by
  unfold PairingHost.join PairingHost.cancel
  split <;> exact ⟨rfl, rfl, rfl, rfl, rfl⟩

theorem join_pending {host : PairingHost primitives} {attempt : Text}
    (found : host.join.pending.get attempt = some state) :
    host.pending.get attempt = some state := by
  unfold PairingHost.join PairingHost.cancel at found
  split at found
  · simp at found
  · exact found

theorem join_open {host : PairingHost primitives} (still : host.join.closed = false) :
    host.closed = false ∧ host.joined + 1 < host.uses := by
  simp only [PairingHost.join] at still
  split at still
  · cases still
  · rename_i more
    exact ⟨still, by omega⟩

theorem FinishCall.Sound.later {world next : PairingWorld primitives} {call : FinishCall}
    (sound : call.Sound world) (uses : next.host.uses = world.host.uses)
    (expires : next.host.expiresAt = world.host.expiresAt)
    (locator : next.host.locator = world.host.locator)
    (more : ∃ added, next.starts = world.starts ++ added) : call.Sound next := by
  obtain ⟨live, start, request, found, named, login, matched⟩ := sound
  obtain ⟨added, more⟩ := more
  refine ⟨by rw [uses, expires]; exact live, start, request, ?_, named, login, ?_⟩
  · rw [more]
    exact List.getElem?_append_left (List.getElem?_eq_some_iff.mp found).1 ▸ found
  · rw [locator]
    exact matched

theorem new_pairing_inv (locator secret : Text) (credentials : primitives.Credentials) (now : Int)
    (limits : PairingLimits) : PairingInv (newPairing primitives locator secret credentials now limits) where
  attempts := rfl
  budget := Nat.zero_le _
  pending := nofun
  taken := nofun
  once := nodup_nil
  joined := Nat.zero_le _
  last := by
    intro _
    exact (pairing_limits_uses limits).1
  cancelled := by
    intro _
    rfl
  counted := Nat.le_refl _
  calls := nofun
  transfers := nofun

section

variable (inv : PairingInv world)
include inv

theorem start_keeps (attempt request : Option Text) (now : Int) (kem : KemKeys) :
    PairingInv (startStep world attempt request now kem) := by
  unfold startStep
  split
  · exact inv
  · rename_i host admitted accepted
    obtain ⟨within, serial, rfl⟩ := start_spec accepted
    have unused : world.starts.length ∉ world.verified := by
      intro mem
      exact absurd (inv.taken _ mem) (lt_irrefl _)
    exact
      { attempts := by simp [inv.attempts]
        budget := within
        pending := by
          intro other state found
          rw [get_set] at found
          split at found
          · rename_i same
            obtain rfl := Option.some.inj found
            subst same
            rw [serial]
            exact ⟨by simp, unused⟩
          · obtain ⟨listed, fresh⟩ := inv.pending other state found
            refine ⟨?_, fresh⟩
            rw [List.getElem?_append_left (List.getElem?_eq_some_iff.mp listed).1]
            exact listed
        taken := by
          intro other mem
          have below := inv.taken other mem
          simp only [length_append, length_cons, length_nil]
          omega
        once := inv.once
        joined := inv.joined
        last := inv.last
        cancelled := inv.cancelled
        counted := inv.counted
        calls := by
          intro id call found
          exact (inv.calls id call found).later rfl rfl rfl ⟨_, rfl⟩
        transfers := by
          intro transfer mem
          exact (inv.transfers transfer mem).later rfl rfl rfl ⟨_, rfl⟩ }

theorem take_keeps {attempt : Text} (found : world.host.pending.get attempt = some state) :
    PairingInv { world with
      host := world.host.withoutPending attempt
      verified := world.verified ++ [state.serial] } := by
  obtain ⟨listed, fresh⟩ := inv.pending attempt state found
  exact
    { attempts := inv.attempts
      budget := inv.budget
      pending := by
        intro other waiting held
        simp only [PairingHost.withoutPending, get_delete] at held
        split at held
        · cases held
        · rename_i apart
          obtain ⟨kept, unused⟩ := inv.pending other waiting held
          refine ⟨kept, ?_⟩
          intro mem
          rcases mem_append.mp mem with earlier | now
          · exact unused earlier
          · have same : waiting.serial = state.serial := mem_singleton.mp now
            rw [same, listed] at kept
            exact apart (AcceptedStart.mk.inj (Option.some.inj kept)).1.symm
      taken := by
        intro serial mem
        rcases mem_append.mp mem with earlier | now
        · exact inv.taken serial earlier
        · rw [mem_singleton.mp now]
          exact (List.getElem?_eq_some_iff.mp listed).1
      once := by
        rw [nodup_append]
        refine ⟨inv.once, nodup_singleton _, ?_⟩
        intro serial earlier other mem same
        rw [mem_singleton.mp mem] at same
        subst same
        exact fresh earlier
      joined := inv.joined
      last := inv.last
      cancelled := inv.cancelled
      counted := inv.counted
      calls := by
        intro id call waiting
        exact (inv.calls id call waiting).later rfl rfl rfl ⟨[], by simp⟩
      transfers := by
        intro transfer mem
        exact (inv.transfers transfer mem).later rfl rfl rfl ⟨[], by simp⟩ }

theorem finish_keeps {call : Nat} {attempt : Text} {request : Option Text}
    {now : Int} (idle : world.calls.get call = none) (active : world.host.active now = true)
    (found : world.host.pending.get attempt = some state) :
    PairingInv (finishStep world call attempt request now state) := by
  have taken := take_keeps inv found
  obtain ⟨listed, -⟩ := inv.pending attempt state found
  have live : world.host.closed = false ∧ now < world.host.expiresAt := by
    simpa [PairingHost.active] using active
  have room := inv.last live.1
  unfold finishStep
  cases checked : confirm world.host.locator attempt state request with
  | none => exact taken
  | some confirmed =>
    obtain ⟨⟨message, login⟩, matched⟩ := confirm_spec checked
    obtain ⟨uses, expires, locator, attempts, joined⟩ :=
      join_fields (world.host.withoutPending attempt)
    exact
      { attempts := taken.attempts.trans attempts.symm
        budget := by
          simp only [attempts, uses]
          exact taken.budget
        pending := by
          intro other waiting held
          exact taken.pending other waiting (join_pending held)
        taken := taken.taken
        once := taken.once
        joined := by
          simp only [joined, uses]
          exact room
        last := by
          intro still
          obtain ⟨-, more⟩ := join_open still
          simp only [joined, uses]
          exact more
        cancelled := by
          intro still
          exact taken.cancelled (join_open still).1
        counted := by
          have before := inv.counted
          have larger : ∀ value, (world.calls.set call value).size = world.calls.size + 1 := by
            intro value
            exact size_set_of_absent value idle
          have same : (world.host.withoutPending attempt).joined = world.host.joined := rfl
          simp only [joined, larger, same]
          omega
        calls := by
          intro id other held
          rw [get_set] at held
          split at held
          · obtain rfl := Option.some.inj held
            refine ⟨?_, ⟨attempt, state.login, state.kem⟩, message, listed, rfl, login, ?_⟩
            · simp only [uses, expires]
              exact ⟨inv.cancelled live.1, live.2, room⟩
            · simp only [locator]
              exact matched
          · exact (inv.calls id other held).later uses expires locator ⟨[], by simp⟩
        transfers := by
          intro transfer mem
          exact (inv.transfers transfer mem).later uses expires locator ⟨[], by simp⟩ }

theorem resume_keeps {id : Nat} {call : FinishCall} (found : world.calls.get id = some call)
    (fulfilled : Bool) (nonce : Bytes) : PairingInv (resumeStep world id call fulfilled nonce) := by
  have sound := inv.calls id call found
  have fewer := size_delete_of_present found
  have counted := inv.counted
  unfold resumeStep
  split
  · split
    · exact { inv with
        counted := by
          have same : ∀ value, (world.calls.set id value).size = world.calls.size := by
            intro value
            exact size_set_of_present value (by simp [found])
          simp only [same]
          exact counted
        calls := by
          intro other held got
          rw [get_set] at got
          split at got
          · obtain rfl := Option.some.inj got
            exact ⟨sound.live, sound.matched⟩
          · obtain ⟨live, matched⟩ := inv.calls other held got
            exact ⟨live, matched⟩
        transfers := by
          intro transfer mem
          obtain ⟨live, matched⟩ := inv.transfers transfer mem
          exact ⟨live, matched⟩ }
    · exact { inv with
        counted := by
          simp only [length_append, length_cons, length_nil]
          omega
        calls := by
          intro other held got
          rw [get_delete] at got
          split at got
          · cases got
          · obtain ⟨live, matched⟩ := inv.calls other held got
            exact ⟨live, matched⟩
        transfers := by
          intro transfer mem
          rcases mem_append.mp mem with earlier | now
          · obtain ⟨live, matched⟩ := inv.transfers transfer earlier
            exact ⟨live, matched⟩
          · rw [mem_singleton.mp now]
            exact ⟨sound.live, sound.matched⟩ }
  · exact { inv with
      counted := by
        show (world.calls.delete id).size + world.transfers.length ≤ world.host.joined
        omega
      calls := by
        intro other held got
        rw [get_delete] at got
        split at got
        · cases got
        · obtain ⟨live, matched⟩ := inv.calls other held got
          exact ⟨live, matched⟩
      transfers := by
        intro transfer mem
        obtain ⟨live, matched⟩ := inv.transfers transfer mem
        exact ⟨live, matched⟩ }

theorem cancel_keeps :
    PairingInv { world with host := world.host.cancel, cancelled := true } where
  attempts := inv.attempts
  budget := inv.budget
  pending := nofun
  taken := inv.taken
  once := inv.once
  joined := inv.joined
  last := nofun
  cancelled := nofun
  counted := inv.counted
  calls := by
    intro id call found
    exact (inv.calls id call found).later rfl rfl rfl ⟨[], by simp⟩
  transfers := by
    intro transfer mem
    exact (inv.transfers transfer mem).later rfl rfl rfl ⟨[], by simp⟩

end

theorem pairing_step_keeps (world : PairingWorld primitives) (event : PairingEvent)
    (next : PairingWorld primitives) (inv : PairingInv world) (_allowed : True)
    (stepped : pairingStep world event = some next) : PairingInv next := by
  cases event with
  | start attempt request now kem =>
    obtain rfl := Option.some.inj stepped
    exact start_keeps inv attempt request now kem
  | finish call attempt request now =>
    simp only [pairingStep] at stepped
    split at stepped
    · cases stepped
    · rename_i idle
      split at stepped
      · obtain rfl := Option.some.inj stepped
        exact inv
      · rename_i active
        split at stepped
        · obtain rfl := Option.some.inj stepped
          exact inv
        · rename_i state found
          obtain rfl := Option.some.inj stepped
          exact finish_keeps inv idle (by simpa using active) found
  | resume id fulfilled nonce =>
    simp only [pairingStep] at stepped
    split at stepped
    · cases stepped
    · rename_i call found
      obtain rfl := Option.some.inj stepped
      exact resume_keeps inv found fulfilled nonce
  | cancel =>
    obtain rfl := Option.some.inj stepped
    exact cancel_keeps inv

/-- What is fixed when a code is made. -/
structure SameCode (locator : Text) (expiresAt : Int) (uses : Nat)
    (world : PairingWorld primitives) : Prop where
  locator : world.host.locator = locator
  expiresAt : world.host.expiresAt = expiresAt
  uses : world.host.uses = uses

theorem pairing_step_code {locator : Text} {expiresAt : Int} {uses : Nat}
    (world : PairingWorld primitives) (event : PairingEvent) (next : PairingWorld primitives)
    (code : SameCode locator expiresAt uses world) (_allowed : True)
    (stepped : pairingStep world event = some next) : SameCode locator expiresAt uses next := by
  cases event with
  | start attempt request now kem =>
    obtain rfl := Option.some.inj stepped
    unfold startStep
    split
    · exact code
    · rename_i host admitted accepted
      obtain ⟨-, -, rfl⟩ := start_spec accepted
      exact ⟨code.locator, code.expiresAt, code.uses⟩
  | finish call attempt request now =>
    simp only [pairingStep] at stepped
    split at stepped
    · cases stepped
    · split at stepped
      · obtain rfl := Option.some.inj stepped
        exact code
      · split at stepped
        · obtain rfl := Option.some.inj stepped
          exact code
        · obtain rfl := Option.some.inj stepped
          obtain ⟨sameUses, sameExpiry, sameLocator, -⟩ :=
            join_fields (world.host.withoutPending attempt)
          simp only [finishStep]
          split
          · exact ⟨code.locator, code.expiresAt, code.uses⟩
          · exact ⟨sameLocator.trans code.locator, sameExpiry.trans code.expiresAt,
              sameUses.trans code.uses⟩
  | resume id fulfilled nonce =>
    simp only [pairingStep] at stepped
    split at stepped
    · cases stepped
    · obtain rfl := Option.some.inj stepped
      unfold resumeStep
      split
      · split
        · exact ⟨code.locator, code.expiresAt, code.uses⟩
        · exact ⟨code.locator, code.expiresAt, code.uses⟩
      · exact ⟨code.locator, code.expiresAt, code.uses⟩
  | cancel =>
    obtain rfl := Option.some.inj stepped
    exact ⟨code.locator, code.expiresAt, code.uses⟩

end Steps

/-- Whatever the calls on a host and however they interleave, under any clock: it
lets in at most as many people as it was made for, accepts at most the budgeted
starts, verifies each of them once, and every transfer belongs to a finish that began
while the code was neither cancelled, expired nor used up and whose confirmation is
the one over the key issued with its start. -/
theorem pairing_code_budget (primitives : PairingPrimitives) (locator secret : Text)
    (credentials : primitives.Credentials) (now : Int) (limits : PairingLimits)
    (events : List PairingEvent) (world : PairingWorld primitives)
    (ran : run pairingStep (newPairing primitives locator secret credentials now limits) events =
      some world) :
    world.transfers.length ≤ (pairingLimits limits).uses ∧
    world.starts.length ≤ (pairingLimits limits).uses + PAIRING_SPARE_ATTEMPTS ∧
    world.verified.Nodup ∧
    (∀ transfer ∈ world.transfers, transfer.call.Sound world) ∧
    SameCode locator (now + (pairingLimits limits).ttlMs) (pairingLimits limits).uses world := by
  have always : Meets pairingStep (fun _ _ => True)
      (newPairing primitives locator secret credentials now limits) events :=
    meets_of_forall (fun _ _ => trivial) _ _
  have inv : PairingInv world := run_keeps pairing_step_keeps
    (new_pairing_inv locator secret credentials now limits) always ran
  have code : SameCode locator (now + (pairingLimits limits).ttlMs) (pairingLimits limits).uses
      world := run_keeps pairing_step_code ⟨rfl, rfl, rfl⟩ always ran
  have counted := inv.counted
  have joined := inv.joined
  have attempts := inv.attempts
  have budget := inv.budget
  rw [code.uses] at joined budget
  refine ⟨?_, ?_, inv.once, inv.transfers, code⟩
  · omega
  · omega

def samplePrimitives : PairingPrimitives where
  Credentials := Unit
  Login := Text
  startLogin := fun _ _ request => some (request, text "r")
  finishLogin := fun _ _ => some (text "k")
  decapsulate := fun ct _ => ct.take 32
  sha256 := fun bytes => bytes.take 32
  hkdf := fun _ _ _ => []
  hmac := fun _ _ => List.replicate 32 0
  encrypt := fun _ _ _ plain => plain

def sampleFinish : Text :=
  text "f." ++ Base64.encode (List.replicate 1088 0) ++
    46 :: Base64.encode (List.replicate 32 0)

def samplePairing : List PairingEvent :=
  [.start (some (text "a1")) (some (text "q")) 10 ⟨[1], [2]⟩,
    .finish 0 (text "a1") (some sampleFinish) 20, .finish 1 (text "a1") (some sampleFinish) 21,
    .resume 0 true [9], .resume 0 true []]

theorem sample_pairing_budget :
    ∃ world, run pairingStep (newPairing samplePrimitives (text "ab") (text "s") ()
        0 ⟨none, none⟩) samplePairing = some world ∧
      world.transfers.length = 1 ∧ world.verified.Nodup ∧
      ∀ transfer ∈ world.transfers, transfer.call.Sound world := by
  obtain ⟨world, ran, one⟩ := map_eq_some_iff.mp (show
    (run pairingStep (newPairing samplePrimitives (text "ab") (text "s") ()
      0 ⟨none, none⟩) samplePairing).map (fun world => world.transfers.length) = some 1 by
    decide +kernel)
  have budget := pairing_code_budget samplePrimitives (text "ab") (text "s") () 0 ⟨none, none⟩
    samplePairing world ran
  exact ⟨world, ran, one, budget.2.2.1, budget.2.2.2.1⟩

end AwfulChat.RoomSecurity
