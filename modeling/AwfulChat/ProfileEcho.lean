import AwfulChat.Library.OrderedMap
import AwfulChat.Library.Runs

/-!
# Which peers hold the current profile

`ProfileEcho` of `profile-echo.ts`, and the part of `sendProfileTo` that consults it. A call goes
through one peer's scopes, the main profile and then each shared room's; what comes between a
frame's going out, its reaching the peer and the settling of its promise is left open. A frame's
hash stands for its bytes.
-/

namespace AwfulChat.ProfileEcho

open Library Library.OrderedMap Option

set_option autoImplicit false

def profileEchoWindowMs : Int := 5000

abbrev PeerId := String

/-- The empty name for the main profile, else a room's code. -/
abbrev Scope := String

/-- A profile frame, plain or in its reply form, or the frame that drops a room's own copy. -/
inductive Frame (Content : Type)
  | profile (content : Content) (reply : Bool)
  | inherit
  deriving DecidableEq

/-- What the peer holds once the frame lands: the reply flag is not part of it. -/
def Frame.plain {Content : Type} : Frame Content → Frame Content
  | .profile content _ => .profile content false
  | .inherit => .inherit

/-- A room's own frame: the profile with its overrides, or none to inherit the main one. -/
def scopedFrame {Content : Type} (resolved : Option Content) (isReply : Bool) : Frame Content :=
  match resolved with
  | some content => .profile content isReply
  | none => .inherit

structure Echo where
  sent : OrderedMap PeerId (OrderedMap Scope (Nat × Int))
  held : OrderedMap PeerId (OrderedMap Scope Nat)

namespace Echo

/-- Whether the frame should go out; it is recorded when so. -/
def shouldSend (echo : Echo) (peerId : PeerId) (hash : Nat) (now : Int) (scope : Scope) :
    Echo × Bool :=
  let scopes := (echo.sent.get peerId).getD OrderedMap.empty
  let repeated := match scopes.get scope with
    | none => false
    | some last => decide (last.1 = hash ∧ now - last.2 < profileEchoWindowMs)
  if repeated then (echo, false)
  else ({ echo with sent := echo.sent.set peerId (scopes.set scope (hash, now)) }, true)

def delivered (echo : Echo) (peerId : PeerId) (hash : Nat) (scope : Scope) : Echo :=
  let scopes := (echo.held.get peerId).getD OrderedMap.empty
  { echo with held := echo.held.set peerId (scopes.set scope hash) }

def heldBy (echo : Echo) (peerId : PeerId) (scope : Scope) : Option Nat :=
  (echo.held.get peerId).bind fun scopes => scopes.get scope

def holds (echo : Echo) (peerId : PeerId) (hash : Nat) (scope : Scope) : Bool :=
  decide (echo.heldBy peerId scope = some hash)

/-- One scope, or all of the peer's. -/
def forget (echo : Echo) (peerId : PeerId) : Option Scope → Echo
  | none => ⟨echo.sent.delete peerId, echo.held.delete peerId⟩
  | some scope =>
    ⟨match echo.sent.get peerId with
      | none => echo.sent
      | some scopes => echo.sent.set peerId (scopes.delete scope),
    match echo.held.get peerId with
      | none => echo.held
      | some scopes => echo.held.set peerId (scopes.delete scope)⟩

def clear : Echo := ⟨OrderedMap.empty, OrderedMap.empty⟩

theorem held_delivered (echo : Echo) (peerId : PeerId) (hash : Nat) (scope : Scope)
    (other : PeerId) (place : Scope) :
    (echo.delivered peerId hash scope).heldBy other place =
      if other = peerId ∧ place = scope then some hash else echo.heldBy other place := by
  simp only [heldBy, delivered, get_set]
  by_cases same : other = peerId
  · subst same
    rw [if_pos rfl, bind_some, get_set]
    by_cases this : place = scope
    · simp [this]
    · rw [if_neg this, if_neg (fun both => this both.2)]
      cases echo.held.get other <;> rfl
  · rw [if_neg same, if_neg (fun both => same both.1)]

theorem held_forget (echo : Echo) (peerId : PeerId) (scope : Option Scope) (other : PeerId)
    (place : Scope) :
    (echo.forget peerId scope).heldBy other place =
      if other = peerId ∧ (scope = none ∨ scope = some place) then none
      else echo.heldBy other place := by
  cases scope with
  | none =>
    simp only [heldBy, forget, get_delete, true_or, and_true]
    split_ifs <;> rfl
  | some scope =>
    simp only [forget, reduceCtorEq, false_or, Option.some.injEq]
    cases found : echo.held.get peerId with
    | none =>
      by_cases same : other = peerId
      · subst same
        simp [heldBy, found]
      · simp [heldBy, same]
    | some scopes =>
      simp only [heldBy, get_set]
      by_cases same : other = peerId
      · subst same
        rw [if_pos rfl, bind_some, get_delete, found]
        by_cases this : place = scope
        · simp [this]
        · have apart : ¬(other = other ∧ scope = place) := fun both => this both.2.symm
          rw [if_neg this, if_neg apart]
          rfl
      · rw [if_neg same, if_neg (fun both => same both.1)]

theorem held_should_send (echo : Echo) (peerId : PeerId) (hash : Nat) (now : Int) (scope : Scope) :
    (echo.shouldSend peerId hash now scope).1.held = echo.held := by
  unfold shouldSend
  simp only
  split_ifs <;> rfl

end Echo

/-! ## Sends -/

structure Sending (Content : Type) where
  peerId : PeerId
  scope : Scope
  frame : Frame Content
  reached : Bool

/-- A scope that a missing-only send left out, and what the peer had then. -/
structure Skip (Content : Type) where
  frame : Frame Content
  received : Option (Frame Content)

structure SendState (Content : Type) where
  echo : Echo
  inFlight : OrderedMap Nat (Sending Content)
  sends : Nat
  /-- The last frame of each scope that each peer received since it connected. -/
  received : OrderedMap (PeerId × Scope) (Frame Content)
  skips : List (Skip Content)

inductive SendEvent (Content : Type)
  /-- A call comes to this peer and scope with the frame it has built. -/
  | offer (peerId : PeerId) (scope : Scope) (frame : Frame Content) (missingOnly : Bool) (now : Int)
  | reach (send : Nat)
  | settle (send : Nat) (delivered : Bool)
  | disconnect (peerId : PeerId)
  /-- A lock or a logout. -/
  | clear

section Run

variable {Content : Type} (frameHash : Frame Content → Nat)

def SendState.offer (s : SendState Content) (peerId : PeerId) (scope : Scope)
    (frame : Frame Content) (missingOnly : Bool) (now : Int) : SendState Content :=
  if missingOnly && s.echo.holds peerId (frameHash frame.plain) scope then
    { s with skips := ⟨frame, s.received.get (peerId, scope)⟩ :: s.skips }
  else
    let asked := s.echo.shouldSend peerId (frameHash frame) now scope
    if asked.2 then
      { s with
        echo := asked.1
        inFlight := s.inFlight.set s.sends ⟨peerId, scope, frame, false⟩
        sends := s.sends + 1 }
    else { s with echo := asked.1 }

/-- A main frame that failed forgets every scope of the peer, a room's own only its scope. -/
def SendState.settled (s : SendState Content) (send : Nat) (sending : Sending Content)
    (delivered : Bool) : SendState Content :=
  { s with
    inFlight := s.inFlight.delete send
    echo := if delivered then
        s.echo.delivered sending.peerId (frameHash sending.frame.plain) sending.scope
      else s.echo.forget sending.peerId (if sending.scope = "" then none else some sending.scope) }

def sendStep (s : SendState Content) : SendEvent Content → Option (SendState Content)
  | .offer peerId scope frame missingOnly now =>
    some (s.offer frameHash peerId scope frame missingOnly now)
  | .reach send =>
    (s.inFlight.get send).map fun sending =>
      { s with
        inFlight := s.inFlight.set send { sending with reached := true }
        received := s.received.set (sending.peerId, sending.scope) sending.frame }
  | .settle send delivered =>
    (s.inFlight.get send).bind fun sending =>
      if delivered && !sending.reached then none
      else some (s.settled frameHash send sending delivered)
  | .disconnect peerId => some { s with
      echo := s.echo.forget peerId none
      received := s.received.keep fun key => decide (key.1 ≠ peerId) }
  | .clear => some { s with echo := Echo.clear }

def sendStart : SendState Content := ⟨Echo.clear, OrderedMap.empty, 0, OrderedMap.empty, []⟩

/-- The peer's last frame was the content that was left out. -/
def Skip.Right (skip : Skip Content) : Prop :=
  ∃ frame, skip.received = some frame ∧ frame.plain = skip.frame.plain

variable [DecidableEq Content]

/-- A send is reported delivered while its content is the last that reached the peer in its
scope since it connected, and no missing-only send looks at a scope in which a frame of another
content has reached the peer and is not reported yet. -/
def Settled (s : SendState Content) : SendEvent Content → Prop
  | .offer peerId scope frame missingOnly _ => missingOnly = true →
      ∀ sending ∈ s.inFlight.values, sending.reached = true → sending.peerId = peerId →
        sending.scope = scope → s.received.get (peerId, scope) = some sending.frame →
          sending.frame.plain = frame.plain
  | .settle send delivered => delivered = true → ∀ sending ∈ s.inFlight.get send,
      (s.received.get (sending.peerId, sending.scope)).map Frame.plain = some sending.frame.plain
  | _ => True

instance (s : SendState Content) : ∀ event, Decidable (Settled s event)
  | .offer peerId scope frame missingOnly _ | .settle send delivered =>
    inferInstanceAs (Decidable (_ → _))
  | .reach _ | .disconnect _ | .clear => isTrue trivial

/-- What a record of a peer's holding says: its last frame, or a frame of it is under way that
came after. -/
structure Records (s : SendState Content) : Prop where
  held : ∀ peerId scope hash, s.echo.heldBy peerId scope = some hash →
    (∃ frame, s.received.get (peerId, scope) = some frame ∧ frameHash frame.plain = hash) ∨
    ∃ send sending, s.inFlight.get send = some sending ∧ sending.reached = true ∧
      sending.peerId = peerId ∧ sending.scope = scope ∧
      s.received.get (peerId, scope) = some sending.frame
  early : ∀ send sending, s.inFlight.get send = some sending → send < s.sends
  right : ∀ skip ∈ s.skips, skip.Right

variable {frameHash}

theorem Records.offer {s : SendState Content} {peerId : PeerId} {scope : Scope}
    {frame : Frame Content} {missingOnly : Bool} {now : Int}
    (injective : Function.Injective frameHash) (records : Records frameHash s)
    (settled : Settled s (.offer peerId scope frame missingOnly now)) :
    Records frameHash (s.offer frameHash peerId scope frame missingOnly now) := by
  unfold SendState.offer
  by_cases skips : (missingOnly && s.echo.holds peerId (frameHash frame.plain) scope) = true
  · rw [if_pos skips]
    rw [Bool.and_eq_true] at skips
    have holds : s.echo.heldBy peerId scope = some (frameHash frame.plain) :=
      of_decide_eq_true skips.2
    constructor
    case held => exact records.held
    case early => exact records.early
    case right =>
      intro skip mem
      rcases List.mem_cons.mp mem with new | old
      · rw [new]
        rcases records.held peerId scope _ holds with ⟨last, received, same⟩ |
          ⟨send, sending, flying, reached, whose, place, received⟩
        · exact ⟨last, received, injective same⟩
        · refine ⟨sending.frame, received, ?_⟩
          exact settled skips.1 sending (mem_values_iff.mpr ⟨send, flying⟩) reached
            whose place received
      · exact records.right skip old
  · rw [if_neg skips]
    have held : ∀ other place, (s.echo.shouldSend peerId (frameHash frame) now scope).1.heldBy
        other place = s.echo.heldBy other place := by
      intro other place
      unfold Echo.heldBy
      rw [Echo.held_should_send]
    simp only
    split_ifs
    · constructor
      case held =>
        intro other place hash holds
        rw [held] at holds
        rcases records.held other place hash holds with here | ⟨send, sending, flying, rest⟩
        · exact Or.inl here
        · right
          refine ⟨send, sending, ?_, rest⟩
          have apart : send ≠ s.sends := Nat.ne_of_lt (records.early send sending flying)
          rw [get_set_other _ _ _ _ apart]
          exact flying
      case early =>
        intro send sending flying
        show send < s.sends + 1
        rw [get_set] at flying
        split_ifs at flying with new
        · omega
        · have before := records.early send sending flying
          omega
      case right => exact records.right
    · constructor
      case held =>
        intro other place hash holds
        rw [held] at holds
        exact records.held other place hash holds
      case early => exact records.early
      case right => exact records.right

section

variable {s : SendState Content} {send : Nat} {sending : Sending Content}
  (records : Records frameHash s) (flying : s.inFlight.get send = some sending)
include records flying

theorem Records.reach :
    Records frameHash { s with
      inFlight := s.inFlight.set send { sending with reached := true }
      received := s.received.set (sending.peerId, sending.scope) sending.frame } := by
  constructor
  case held =>
    intro peerId scope hash holds
    by_cases here : (peerId, scope) = (sending.peerId, sending.scope)
    · right
      obtain ⟨whose, place⟩ := Prod.mk.inj here
      refine ⟨send, { sending with reached := true }, get_set_self _ _ _, rfl,
        whose.symm, place.symm, ?_⟩
      rw [here]
      exact get_set_self _ _ _
    · rw [get_set_other _ _ _ _ here]
      rcases records.held peerId scope hash holds with last | ⟨other, earlier, found, rest⟩
      · exact Or.inl last
      · right
        refine ⟨other, earlier, ?_, rest⟩
        have apart : other ≠ send := by
          intro same
          rw [same, flying] at found
          cases found
          exact here (by rw [rest.2.1, rest.2.2.1])
        rw [get_set_other _ _ _ _ apart]
        exact found
  case early =>
    intro other earlier found
    rw [get_set] at found
    split_ifs at found with same
    · rw [same]
      exact records.early send sending flying
    · exact records.early other earlier found
  case right => exact records.right

theorem Records.settle
    {delivered : Bool}
    (settled : delivered = true →
      (s.received.get (sending.peerId, sending.scope)).map Frame.plain =
        some sending.frame.plain) :
    Records frameHash (s.settled frameHash send sending delivered) := by
  have others : ∀ peerId scope hash,
      ¬(peerId = sending.peerId ∧ scope = sending.scope) →
      s.echo.heldBy peerId scope = some hash →
      (∃ frame, s.received.get (peerId, scope) = some frame ∧ frameHash frame.plain = hash) ∨
        ∃ other earlier, (s.inFlight.delete send).get other = some earlier ∧
          earlier.reached = true ∧ earlier.peerId = peerId ∧ earlier.scope = scope ∧
          s.received.get (peerId, scope) = some earlier.frame := by
    intro peerId scope hash elsewhere holds
    rcases records.held peerId scope hash holds with last | ⟨other, earlier, found, rest⟩
    · exact Or.inl last
    · right
      refine ⟨other, earlier, ?_, rest⟩
      have apart : other ≠ send := by
        intro same
        rw [same, flying] at found
        cases found
        exact elsewhere ⟨rest.2.1.symm, rest.2.2.1.symm⟩
      rw [get_delete_other _ _ _ apart]
      exact found
  constructor
  case held =>
    intro peerId scope hash holds
    by_cases here : peerId = sending.peerId ∧ scope = sending.scope
    · cases delivered with
      | true =>
        left
        change (s.echo.delivered sending.peerId (frameHash sending.frame.plain)
          sending.scope).heldBy peerId scope = some hash at holds
        rw [Echo.held_delivered, if_pos here] at holds
        cases holds
        obtain ⟨frame, received, same⟩ := map_eq_some_iff.mp (settled rfl)
        refine ⟨frame, ?_, by rw [same]⟩
        rw [here.1, here.2]
        exact received
      | false =>
        exfalso
        change (s.echo.forget sending.peerId _).heldBy peerId scope = some hash at holds
        rw [Echo.held_forget] at holds
        split_ifs at holds with main uncovered uncovered
        · exact uncovered ⟨here.1, Or.inl rfl⟩
        · exact uncovered ⟨here.1, Or.inr (by rw [here.2])⟩
    · apply others peerId scope hash here
      cases delivered with
      | true =>
        change (s.echo.delivered sending.peerId (frameHash sending.frame.plain)
          sending.scope).heldBy peerId scope = some hash at holds
        rwa [Echo.held_delivered, if_neg here] at holds
      | false =>
        change (s.echo.forget sending.peerId _).heldBy peerId scope = some hash at holds
        rw [Echo.held_forget] at holds
        split_ifs at holds
        · exact holds
        · exact holds
  case early =>
    intro other earlier found
    change (s.inFlight.delete send).get other = some earlier at found
    rw [get_delete] at found
    split_ifs at found
    exact records.early other earlier found
  case right => exact records.right

end

theorem Records.step {s next : SendState Content} {event : SendEvent Content}
    (injective : Function.Injective frameHash) (records : Records frameHash s)
    (settled : Settled s event) (stepped : sendStep frameHash s event = some next) :
    Records frameHash next := by
  cases event with
  | offer peerId scope frame missingOnly now =>
    cases stepped
    exact records.offer injective settled
  | reach send =>
    obtain ⟨sending, flying, rfl⟩ := map_eq_some_iff.mp stepped
    exact records.reach flying
  | settle send delivered =>
    obtain ⟨sending, flying, taken⟩ := bind_eq_some_iff.mp stepped
    split_ifs at taken
    cases taken
    exact records.settle flying (fun yes => settled yes sending flying)
  | disconnect peerId =>
    cases stepped
    constructor
    case held =>
      intro other scope hash holds
      rw [Echo.held_forget] at holds
      have apart : other ≠ peerId := by
        intro same
        rw [if_pos ⟨same, Or.inl rfl⟩] at holds
        cases holds
      rw [if_neg (fun both => apart both.1)] at holds
      have kept : (s.received.keep fun key => decide (key.1 ≠ peerId)).get (other, scope) =
          s.received.get (other, scope) := by
        rw [get_keep, if_pos (decide_eq_true apart)]
      rw [kept]
      exact records.held other scope hash holds
    case early => exact records.early
    case right => exact records.right
  | clear =>
    cases stepped
    constructor
    case held =>
      nofun
    case early => exact records.early
    case right => exact records.right

end Run

/-! Contents 0, 1 and so on; the hash of a frame is a number of its own. -/

def sampleHash : Frame Nat → Nat
  | .profile content reply => 2 * (content + 1) + reply.toNat
  | .inherit => 0

theorem sample_hash_injective : Function.Injective sampleHash := by
  intro first second same
  cases first with
  | inherit =>
    cases second with
    | inherit => rfl
    | profile content reply =>
      simp only [sampleHash] at same
      omega
  | profile content reply =>
    cases second with
    | inherit =>
      simp only [sampleHash] at same
      omega
    | profile other form =>
      simp only [sampleHash] at same
      have forms : reply = form := by
        cases reply <;> cases form <;> simp only [Bool.toNat_true, Bool.toNat_false] at same <;>
          first
            | rfl
            | omega
      subst forms
      have contents : content = other := by omega
      rw [contents]

def sampleSends : List (SendEvent Nat) :=
  [.offer "p" "" (.profile 3 true) false 0, .reach 0, .settle 0 true,
    .offer "p" "rd2_a" (scopedFrame none true) true 10, .reach 1, .settle 1 true,
    .offer "p" "" (.profile 3 false) true 20]

def overtakenSends : List (SendEvent Nat) :=
  [.offer "p" "" (.profile 1 false) true 0, .offer "p" "" (.profile 2 false) true 10,
    .reach 1, .reach 0, .settle 0 true, .settle 1 true,
    .offer "p" "" (.profile 2 false) true 20]

end AwfulChat.ProfileEcho
