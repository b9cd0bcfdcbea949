import AwfulChat.Library.JsonRoundTrip
import AwfulChat.Library.Parties
import AwfulChat.Library.Runs
import AwfulChat.RoomSecurity.FileDescriptor

/-!
# The membership handshake

`MembershipSession` of `session.ts` and the proofs of `membership.ts`, for any number
of sessions of honest holders of room keys. A step creates a session, starts it, closes
it or hands it any value at all. Of HMAC it is asked that a proof that passes a check
was made by one of these sessions, and of challenges that no two sessions drew the same
one; both are conditions on the steps of a run. What a session answered, what it was
verified with and the challenge it drew are remembered apart from its fields, which a
closed session has erased.
-/

namespace AwfulChat.RoomSecurity

open Library List Option

set_option autoImplicit false

structure RoomKeys where
  discoveryId : Text
  membershipKey : Bytes
  deriving DecidableEq

inductive Role
  | initiator
  | responder
  deriving DecidableEq

def Role.name : Role → Text
  | .initiator => text "initiator"
  | .responder => text "responder"

structure MembershipTranscript where
  room : Text
  initiator : Text
  responder : Text
  initiatorChallenge : Text
  responderChallenge : Text
  deriving DecidableEq

structure Hmac where
  mac : Bytes → Bytes → Bytes
  length : ∀ key message, (mac key message).length = 32

def validChallenge (challenge : Text) : Bool := canonicalBase64 43 (some (.string challenge))

def validPeers (left right : Text) : Bool :=
  left ≠ [] && right ≠ [] && left ≠ right && left.length ≤ 256 && right.length ≤ 256

def transcriptBytes (transcript : MembershipTranscript) (role : Role) : Option Bytes :=
  if validPeers transcript.initiator transcript.responder &&
      validChallenge transcript.initiatorChallenge &&
      validChallenge transcript.responderChallenge then
    some (Text.encodeUtf8 (Json.stringify (Json.atoms [.string (text "awful/room-membership/v2"),
      .string transcript.room, .string transcript.initiator, .string transcript.responder,
      .string transcript.initiatorChallenge, .string transcript.responderChallenge,
      .string role.name])))
  else none

/-- What is authenticated; none is a throw. -/
def proofMessage (keys : RoomKeys) (transcript : MembershipTranscript) (role : Role) :
    Option Bytes :=
  if transcript.room = keys.discoveryId then transcriptBytes transcript role else none

def createMembershipProof (hmac : Hmac) (keys : RoomKeys) (transcript : MembershipTranscript)
    (role : Role) : Option Text :=
  (proofMessage keys transcript role).map fun message =>
    Base64.encode (hmac.mac keys.membershipKey message)

/-- Both texts have the length of an encoded tag when they are compared. -/
def verifyMembershipProof (hmac : Hmac) (keys : RoomKeys) (transcript : MembershipTranscript)
    (role : Role) (proof : Option Json) : Bool :=
  match proof with
  | some (.string proof) =>
    proof.length = 43 && proof.all (fun unit => (Base64.letterValue unit).isSome) &&
      createMembershipProof hmac keys transcript role = some proof
  | _ => false

inductive SessionState
  | new
  | waiting
  | verified
  | closed
  deriving DecidableEq

structure MembershipSession where
  keys : RoomKeys
  localPeer : Text
  remotePeer : Text
  role : Role
  state : SessionState
  transcript : MembershipTranscript
  deadline : Int
  own : Text
  answered : Option MembershipTranscript
  reached : Option MembershipTranscript
  deriving DecidableEq

def newMembershipSession (keys : RoomKeys) (localPeer remotePeer : Text) (role : Role)
    (challenge : Text) (now : Int) : Option MembershipSession :=
  if validPeers localPeer remotePeer then
    some
      { keys := keys
        localPeer := localPeer
        remotePeer := remotePeer
        role := role
        state := .new
        transcript :=
          { room := keys.discoveryId
            initiator := if role = .initiator then localPeer else remotePeer
            responder := if role = .responder then localPeer else remotePeer
            initiatorChallenge := if role = .initiator then challenge else []
            responderChallenge := if role = .responder then challenge else [] }
        deadline := now + 10000
        own := challenge
        answered := none
        reached := none }
  else none

/-- The text of `binding`. -/
def MembershipTranscript.binding (transcript : MembershipTranscript) : Text :=
  transcript.initiatorChallenge ++ 46 :: transcript.responderChallenge

def MembershipSession.binding (session : MembershipSession) : Option Text :=
  if session.state = .verified then some session.transcript.binding else none

def MembershipSession.close (session : MembershipSession) : MembershipSession :=
  { session with
    state := .closed
    transcript := { session.transcript with initiatorChallenge := [], responderChallenge := [] } }

def frame (kind : Text) (session : MembershipSession) (fields : List (Text × Json)) : Json :=
  .object ([(text "version", .number (.finite false 2 0)), (text "type", .string kind),
    (text "room", .string session.keys.discoveryId)] ++ fields)

/-- What a call returns or throws, with what it authenticated and what it checked. -/
structure Outcome where
  session : MembershipSession
  reply : Option Json
  thrown : Bool
  made : Option Bytes
  checked : Option Bytes

def MembershipSession.fail (session : MembershipSession) : Outcome where
  session := session.close
  reply := none
  thrown := true
  made := none
  checked := none

def MembershipSession.start (session : MembershipSession) (now : Int) : Outcome :=
  if session.state ≠ .new ∨ session.role ≠ .initiator ∨ session.deadline ≤ now then session.fail
  else
    { session := { session with state := .waiting }
      reply := some (frame (text "hello") session
        [(text "challenge", .string session.transcript.initiatorChallenge)])
      thrown := false
      made := none
      checked := none }

inductive FrameKind
  | hello
  | challenge
  | finish
  deriving DecidableEq

def frameKind (input : Option Json) : Option FrameKind :=
  match property input (text "type") with
  | some (.string kind) =>
    if kind = text "hello" then some .hello
    else if kind = text "challenge" then some .challenge
    else if kind = text "finish" then some .finish
    else none
  | _ => none

section Receive

variable (hmac : Hmac)

/-- A responder's answer to a hello. -/
def MembershipSession.answerHello (session : MembershipSession) (challenge : Text) : Outcome :=
  let transcript := { session.transcript with initiatorChallenge := challenge }
  match proofMessage session.keys transcript .responder with
  | none => session.fail
  | some message =>
    { session := { session with
        state := .waiting
        transcript := transcript
        answered := some transcript }
      reply := some (frame (text "challenge") session
        [(text "challenge", .string transcript.responderChallenge),
          (text "proof", .string (Base64.encode (hmac.mac session.keys.membershipKey message)))])
      thrown := false
      made := some message
      checked := none }

/-- An initiator's check of a challenge, and its finish. -/
def MembershipSession.takeChallenge (session : MembershipSession) (challenge : Text)
    (proof : Option Json) : Outcome :=
  let transcript := { session.transcript with responderChallenge := challenge }
  if verifyMembershipProof hmac session.keys transcript .responder proof then
    match proofMessage session.keys transcript .initiator with
    | none => session.fail
    | some message =>
      { session := { session with
          state := .verified
          transcript := transcript
          reached := some transcript }
        reply := some (frame (text "finish") session
          [(text "proof",
            .string (Base64.encode (hmac.mac session.keys.membershipKey message)))])
        thrown := false
        made := some message
        checked := proofMessage session.keys transcript .responder }
  else session.fail

/-- A responder's check of a finish. -/
def MembershipSession.takeFinish (session : MembershipSession) (proof : Option Json) : Outcome :=
  if verifyMembershipProof hmac session.keys session.transcript .initiator proof then
    { session := { session with state := .verified, reached := some session.transcript }
      reply := none
      thrown := false
      made := none
      checked := proofMessage session.keys session.transcript .initiator }
  else session.fail

def MembershipSession.receive (session : MembershipSession) (now : Int) (input : Option Json) :
    Outcome :=
  if session.state = .closed ∨ session.state = .verified ∨ session.deadline ≤ now then session.fail
  else if safeInteger (property input (text "version")) ≠ some 2 ∨
      stringProperty input (text "room") ≠ some session.keys.discoveryId then session.fail
  else
    match session.role, session.state, frameKind input, stringProperty input (text "challenge") with
    | .responder, .new, some .hello, some challenge => session.answerHello hmac challenge
    | .initiator, .waiting, some .challenge, some challenge =>
      session.takeChallenge hmac challenge (property input (text "proof"))
    | .responder, .waiting, some .finish, _ =>
      session.takeFinish hmac (property input (text "proof"))
    | _, _, _, _ => session.fail

end Receive

/-- A proof that was given out: the role that made it, its key and what it is over. -/
structure MembershipProof where
  role : Role
  key : Bytes
  message : Bytes
  deriving DecidableEq

def MembershipProof.tag (hmac : Hmac) (proof : MembershipProof) : Bytes :=
  hmac.mac proof.key proof.message

structure MembershipWorld where
  sessions : List MembershipSession
  proofs : List MembershipProof

def newMembershipWorld : MembershipWorld where
  sessions := []
  proofs := []

inductive MembershipEvent
  | create (keys : RoomKeys) (localPeer remotePeer : Text) (role : Role) (challenge : Text)
      (now : Int)
  | start (id : Nat) (now : Int)
  | receive (id : Nat) (now : Int) (input : Option Json)
  | close (id : Nat)

def applyOutcome (world : MembershipWorld) (id : Nat) (session : MembershipSession)
    (outcome : Outcome) : MembershipWorld where
  sessions := world.sessions.set id outcome.session
  proofs := world.proofs ++
    (outcome.made.map (MembershipProof.mk session.role session.keys.membershipKey)).toList

def membershipStep (hmac : Hmac) (world : MembershipWorld) :
    MembershipEvent → Option MembershipWorld
  | .create keys localPeer remotePeer role challenge now =>
    (newMembershipSession keys localPeer remotePeer role challenge now).map fun session =>
      { world with sessions := world.sessions ++ [session] }
  | .start id now =>
    world.sessions[id]?.map fun session =>
      applyOutcome world id session (session.start now)
  | .receive id now input =>
    world.sessions[id]?.map fun session =>
      applyOutcome world id session (session.receive hmac now input)
  | .close id =>
    world.sessions[id]?.map fun session =>
      { world with sessions := world.sessions.set id session.close }

/-- Challenges are unique and HMAC is ideal: a check that passes is of a proof that
was given out, and no two messages are given one tag. -/
def IdealStep (hmac : Hmac) (world : MembershipWorld) : MembershipEvent → Prop
  | .create _ _ _ _ challenge _ => ∀ session ∈ world.sessions, session.own ≠ challenge
  | .receive id now input => ∀ session ∈ world.sessions[id]?,
      (∀ message ∈ (session.receive hmac now input).checked, ∃ proof ∈ world.proofs,
        proof.key = session.keys.membershipKey ∧ proof.message = message) ∧
      (∀ message ∈ (session.receive hmac now input).made, ∀ proof ∈ world.proofs,
        proof.tag hmac = hmac.mac session.keys.membershipKey message →
          proof.key = session.keys.membershipKey ∧ proof.message = message)
  | _ => True

instance decidableIdealStep (hmac : Hmac) (world : MembershipWorld) :
    ∀ event, Decidable (IdealStep hmac world event)
  | .create _ _ _ _ challenge _ | .receive id now input => inferInstanceAs (Decidable (∀ _, _))
  | .start _ _ | .close _ => isTrue trivial

def Role.other : Role → Role
  | .initiator => .responder
  | .responder => .initiator

theorem Role.name_injective {left right : Role} (same : left.name = right.name) : left = right := by
  cases left <;> cases right
  · rfl
  · exact absurd same (by decide +kernel)
  · exact absurd same (by decide +kernel)
  · rfl

variable {left right : MembershipTranscript} {transcript : MembershipTranscript} {message : Bytes}
  {leftRole rightRole : Role} {keys : RoomKeys}

theorem transcript_bytes_injective (first : transcriptBytes left leftRole = some message)
    (second : transcriptBytes right rightRole = some message) :
    left = right ∧ leftRole = rightRole := by
  unfold transcriptBytes at first second
  split at first
  · split at second
    · have same := (Option.some.inj first).trans (Option.some.inj second).symm
      have items := Json.atoms_bytes_injective same
      simp only [List.cons.injEq, Json.Atom.string.injEq, true_and, and_true] at items
      obtain ⟨room, initiator, responder, initiatorChallenge, responderChallenge, role⟩ := items
      cases left
      cases right
      simp only [MembershipTranscript.mk.injEq]
      exact ⟨⟨room, initiator, responder, initiatorChallenge, responderChallenge⟩,
        Role.name_injective role⟩
    · cases second
  · cases first

theorem proof_message_spec {role : Role} (made : proofMessage keys transcript role = some message) :
    transcript.room = keys.discoveryId ∧ transcriptBytes transcript role = some message := by
  unfold proofMessage at made
  split at made
  · rename_i room
    exact ⟨room, made⟩
  · cases made

theorem proof_message_injective {leftKeys rightKeys : RoomKeys}
    (first : proofMessage leftKeys left leftRole = some message)
    (second : proofMessage rightKeys right rightRole = some message) :
    left = right ∧ leftRole = rightRole ∧ leftKeys.discoveryId = rightKeys.discoveryId := by
  obtain ⟨leftRoom, leftBytes⟩ := proof_message_spec first
  obtain ⟨rightRoom, rightBytes⟩ := proof_message_spec second
  obtain ⟨rfl, rfl⟩ := transcript_bytes_injective leftBytes rightBytes
  exact ⟨rfl, rfl, leftRoom.symm.trans rightRoom⟩

theorem verified_message {hmac : Hmac} {role : Role} {proof : Option Json}
    (passed : verifyMembershipProof hmac keys transcript role proof = true) :
    ∃ message, proofMessage keys transcript role = some message ∧
      proof = some (.string (Base64.encode (hmac.mac keys.membershipKey message))) := by
  unfold verifyMembershipProof at passed
  split at passed
  · simp only [Bool.and_eq_true, decide_eq_true_eq] at passed
    obtain ⟨message, made, rfl⟩ := map_eq_some_iff.mp passed.2
    exact ⟨message, made, rfl⟩
  · cases passed

def MembershipTranscript.challengeOf (transcript : MembershipTranscript) : Role → Text
  | .initiator => transcript.initiatorChallenge
  | .responder => transcript.responderChallenge

/-- The transcript is one of this session: its room, its two peers in their roles and
the challenge it drew. -/
structure Spoken (session : MembershipSession) (transcript : MembershipTranscript) : Prop where
  room : transcript.room = session.keys.discoveryId
  initiator : transcript.initiator =
    if session.role = .initiator then session.localPeer else session.remotePeer
  responder : transcript.responder =
    if session.role = .responder then session.localPeer else session.remotePeer
  own : transcript.challengeOf session.role = session.own

structure SessionSound (session : MembershipSession) : Prop where
  spoken : session.state ≠ .closed → Spoken session session.transcript
  fresh : session.state = .new → session.answered = none
  unreached : session.state = .new ∨ session.state = .waiting → session.reached = none
  waiting : session.state = .waiting ∨ session.state = .verified → session.role = .responder →
    session.answered = some session.transcript
  verified : session.state = .verified → session.reached = some session.transcript
  answered : ∀ transcript, session.answered = some transcript →
    session.role = .responder ∧ Spoken session transcript
  reached : ∀ transcript, session.reached = some transcript →
    Spoken session transcript ∧
      ∃ message, proofMessage session.keys transcript session.role.other = some message

def Made (session : MembershipSession) (message : Bytes) : Prop :=
  (session.role = .responder ∧ ∃ transcript, session.answered = some transcript ∧
    proofMessage session.keys transcript .responder = some message) ∨
  (session.role = .initiator ∧ ∃ transcript, session.reached = some transcript ∧
    proofMessage session.keys transcript .initiator = some message)

/-- A call on a session keeps what identifies it and what it has said. -/
structure Continues (before after : MembershipSession) : Prop where
  keys : after.keys = before.keys
  localPeer : after.localPeer = before.localPeer
  remotePeer : after.remotePeer = before.remotePeer
  role : after.role = before.role
  own : after.own = before.own
  answered : ∀ transcript, before.answered = some transcript → after.answered = some transcript
  reached : ∀ transcript, before.reached = some transcript → after.reached = some transcript

structure Advances (session : MembershipSession) (outcome : Outcome) : Prop where
  sound : SessionSound outcome.session
  continues : Continues session outcome.session
  made : ∀ message, outcome.made = some message → Made outcome.session message
  reached : ∀ transcript, outcome.session.reached = some transcript →
    session.reached = some transcript ∨
      ∃ message, outcome.checked = some message ∧
        proofMessage session.keys transcript session.role.other = some message
  thrown : outcome.thrown = true → outcome.session.state = .closed

theorem Continues.refl (session : MembershipSession) : Continues session session where
  keys := rfl
  localPeer := rfl
  remotePeer := rfl
  role := rfl
  own := rfl
  answered := by
    intro transcript said
    exact said
  reached := by
    intro transcript said
    exact said

theorem Continues.trans {first second third : MembershipSession} (one : Continues first second)
    (two : Continues second third) : Continues first third where
  keys := two.keys.trans one.keys
  localPeer := two.localPeer.trans one.localPeer
  remotePeer := two.remotePeer.trans one.remotePeer
  role := two.role.trans one.role
  own := two.own.trans one.own
  answered := by
    intro transcript said
    exact two.answered transcript (one.answered transcript said)
  reached := by
    intro transcript said
    exact two.reached transcript (one.reached transcript said)

theorem Made.later {before after : MembershipSession} (made : Made before message)
    (continues : Continues before after) : Made after message := by
  rcases made with ⟨role, transcript, said, bytes⟩ | ⟨role, transcript, said, bytes⟩
  · left
    exact ⟨continues.role.trans role, transcript, continues.answered transcript said,
      by rw [continues.keys]; exact bytes⟩
  · right
    exact ⟨continues.role.trans role, transcript, continues.reached transcript said,
      by rw [continues.keys]; exact bytes⟩

variable {session : MembershipSession}

theorem close_sound (sound : SessionSound session) :
    SessionSound session.close where
  spoken := by
    intro still
    exact absurd rfl still
  fresh := nofun
  unreached := by
    rintro (state | state) <;> cases state
  waiting := by
    rintro (state | state) <;> cases state
  verified := nofun
  answered := by
    intro transcript said
    obtain ⟨role, spoken⟩ := sound.answered transcript said
    exact ⟨role, spoken.room, spoken.initiator, spoken.responder, spoken.own⟩
  reached := by
    intro transcript said
    obtain ⟨spoken, valid⟩ := sound.reached transcript said
    exact ⟨⟨spoken.room, spoken.initiator, spoken.responder, spoken.own⟩, valid⟩

theorem close_continues (session : MembershipSession) : Continues session session.close :=
  { Continues.refl session with }

section

variable (sound : SessionSound session)
include sound

theorem fail_advances :
    Advances session session.fail where
  sound := close_sound sound
  continues := close_continues session
  made := nofun
  reached := by
    intro transcript said
    exact Or.inl said
  thrown := by
    intro _
    rfl

theorem start_advances (now : Int) :
    Advances session (session.start now) := by
  unfold MembershipSession.start
  split
  · exact fail_advances sound
  · rename_i ready
    simp only [not_or, ne_eq, Decidable.not_not] at ready
    obtain ⟨isNew, role, _⟩ := ready
    have spoken := sound.spoken (by simp [isNew])
    exact {
      sound := {
        spoken := by
          intro _
          exact ⟨spoken.room, spoken.initiator, spoken.responder, spoken.own⟩
        fresh := nofun
        unreached := by
          intro _
          exact sound.unreached (Or.inl isNew)
        waiting := by
          intro _ responder
          exact absurd (role.symm.trans responder) (by decide)
        verified := nofun
        answered := by
          intro transcript said
          obtain ⟨responder, _⟩ := sound.answered transcript said
          exact absurd (role.symm.trans responder) (by decide)
        reached := by
          intro transcript said
          exact absurd ((sound.unreached (Or.inl isNew)).symm.trans said) (by simp) }
      continues := { Continues.refl session with }
      made := nofun
      reached := by
        intro transcript said
        exact Or.inl said
      thrown := by
        intro thrown
        cases thrown }

theorem answer_hello_advances {hmac : Hmac} (role : session.role = .responder)
    (isNew : session.state = .new) (challenge : Text) :
    Advances session (session.answerHello hmac challenge) := by
  have spoken := sound.spoken (by simp [isNew])
  have own : session.transcript.responderChallenge = session.own := by
    have own := spoken.own
    rw [role] at own
    exact own
  have unreached := sound.unreached (Or.inl isNew)
  unfold MembershipSession.answerHello
  simp only
  split
  · exact fail_advances sound
  · rename_i message made
    have answer : Spoken session { session.transcript with initiatorChallenge := challenge } :=
      ⟨spoken.room, spoken.initiator, spoken.responder, by rw [role]; exact own⟩
    exact {
      sound := {
        spoken := by
          intro _
          exact ⟨answer.room, answer.initiator, answer.responder, answer.own⟩
        fresh := nofun
        unreached := by
          intro _
          exact unreached
        waiting := by
          intro _ _
          rfl
        verified := nofun
        answered := by
          intro transcript said
          cases said
          exact ⟨role, answer.room, answer.initiator, answer.responder, answer.own⟩
        reached := by
          intro transcript said
          exact absurd (unreached.symm.trans said) (by simp) }
      continues := { Continues.refl session with
        answered := by
          intro transcript said
          exact absurd ((sound.fresh isNew).symm.trans said) (by simp) }
      made := by
        intro other same
        cases same
        exact Or.inl ⟨role, _, rfl, made⟩
      reached := by
        intro transcript said
        exact Or.inl said
      thrown := by
        intro thrown
        cases thrown }

theorem take_challenge_advances {hmac : Hmac} (role : session.role = .initiator)
    (waits : session.state = .waiting) (challenge : Text) (proof : Option Json) :
    Advances session (session.takeChallenge hmac challenge proof) := by
  have spoken := sound.spoken (by simp [waits])
  have own : session.transcript.initiatorChallenge = session.own := by
    have own := spoken.own
    rw [role] at own
    exact own
  have unreached := sound.unreached (Or.inr waits)
  unfold MembershipSession.takeChallenge
  simp only
  split
  · rename_i passed
    obtain ⟨accepted, acceptedBytes, _⟩ := verified_message passed
    split
    · exact fail_advances sound
    · rename_i message made
      have answer : Spoken session { session.transcript with responderChallenge := challenge } :=
        ⟨spoken.room, spoken.initiator, spoken.responder, by rw [role]; exact own⟩
      exact {
        sound := {
          spoken := by
            intro _
            exact ⟨answer.room, answer.initiator, answer.responder, answer.own⟩
          fresh := nofun
          unreached := by
            rintro (state | state) <;> cases state
          waiting := by
            intro _ responder
            exact absurd (role.symm.trans responder) (by decide)
          verified := by
            intro _
            rfl
          answered := by
            intro transcript said
            obtain ⟨responder, _⟩ := sound.answered transcript said
            exact absurd (role.symm.trans responder) (by decide)
          reached := by
            intro transcript said
            cases said
            exact ⟨⟨answer.room, answer.initiator, answer.responder, answer.own⟩,
              accepted, by simpa only [role, Role.other] using acceptedBytes⟩ }
        continues := { Continues.refl session with
          reached := by
            intro transcript said
            exact absurd (unreached.symm.trans said) (by simp) }
        made := by
          intro other same
          cases same
          exact Or.inr ⟨role, _, rfl, made⟩
        reached := by
          intro transcript said
          cases said
          exact Or.inr ⟨accepted, acceptedBytes, by simpa only [role, Role.other] using acceptedBytes⟩
        thrown := by
          intro thrown
          cases thrown }
  · exact fail_advances sound

theorem take_finish_advances {hmac : Hmac} (role : session.role = .responder)
    (waits : session.state = .waiting) (proof : Option Json) :
    Advances session (session.takeFinish hmac proof) := by
  have spoken := sound.spoken (by simp [waits])
  have unreached := sound.unreached (Or.inr waits)
  unfold MembershipSession.takeFinish
  split
  · rename_i passed
    obtain ⟨accepted, acceptedBytes, _⟩ := verified_message passed
    exact {
      sound := {
        spoken := by
          intro _
          exact ⟨spoken.room, spoken.initiator, spoken.responder, spoken.own⟩
        fresh := nofun
        unreached := by
          rintro (state | state) <;> cases state
        waiting := by
          intro _ _
          exact sound.waiting (Or.inl waits) role
        verified := by
          intro _
          rfl
        answered := by
          intro transcript said
          obtain ⟨responder, answer⟩ := sound.answered transcript said
          exact ⟨responder, answer.room, answer.initiator, answer.responder, answer.own⟩
        reached := by
          intro transcript said
          cases said
          exact ⟨⟨spoken.room, spoken.initiator, spoken.responder, spoken.own⟩,
            accepted, by simpa only [role, Role.other] using acceptedBytes⟩ }
      continues := { Continues.refl session with
        reached := by
          intro transcript said
          exact absurd (unreached.symm.trans said) (by simp) }
      made := nofun
      reached := by
        intro transcript said
        cases said
        exact Or.inr ⟨accepted, acceptedBytes, by simpa only [role, Role.other] using acceptedBytes⟩
      thrown := by
        intro thrown
        cases thrown }
  · exact fail_advances sound

end

theorem receive_advances (hmac : Hmac) (sound : SessionSound session) (now : Int)
    (input : Option Json) : Advances session (session.receive hmac now input) := by
  unfold MembershipSession.receive
  split
  · exact fail_advances sound
  · split
    · exact fail_advances sound
    · split
      · rename_i role state _ _
        exact answer_hello_advances sound role state _
      · rename_i role state _ _
        exact take_challenge_advances sound role state _ _
      · rename_i role state _
        exact take_finish_advances sound role state _
      · exact fail_advances sound

structure MembershipInv (hmac : Hmac) (world : MembershipWorld) : Prop where
  sound : ∀ session ∈ world.sessions, SessionSound session
  unique : (world.sessions.map MembershipSession.own).Nodup
  made : ∀ proof ∈ world.proofs, ∃ session ∈ world.sessions,
    session.role = proof.role ∧ session.keys.membershipKey = proof.key ∧ Made session proof.message
  accepted : ∀ session ∈ world.sessions, ∀ transcript, session.reached = some transcript →
    ∃ proof ∈ world.proofs, proof.key = session.keys.membershipKey ∧
      proofMessage session.keys transcript session.role.other = some proof.message
  distinct : ∀ left ∈ world.proofs, ∀ right ∈ world.proofs, left.tag hmac = right.tag hmac →
    left.key = right.key ∧ left.message = right.message

theorem new_membership_world_inv (hmac : Hmac) : MembershipInv hmac newMembershipWorld where
  sound := by simp [newMembershipWorld]
  unique := by simp [newMembershipWorld]
  made := by simp [newMembershipWorld]
  accepted := by simp [newMembershipWorld]
  distinct := by simp [newMembershipWorld]

theorem new_session_sound {localPeer remotePeer : Text} {role : Role} {challenge : Text} {now : Int}
    (created : newMembershipSession keys localPeer remotePeer role challenge now = some session) :
    SessionSound session ∧ session.own = challenge ∧ session.reached = none := by
  unfold newMembershipSession at created
  split at created
  · obtain rfl := Option.some.inj created
    refine ⟨?_, rfl, rfl⟩
    exact {
      spoken := by
        intro _
        refine ⟨rfl, rfl, rfl, ?_⟩
        cases role <;> rfl
      fresh := by
        intro _
        rfl
      unreached := by
        intro _
        rfl
      waiting := by
        rintro (state | state) <;> cases state
      verified := nofun
      answered := nofun
      reached := by
        intro transcript said
        cases said }
  · cases created

section Worlds

variable {hmac : Hmac} {world : MembershipWorld} {id : Nat} {session : MembershipSession}

theorem outcome_keeps (inv : MembershipInv hmac world) (found : world.sessions[id]? = some session)
    {outcome : Outcome} (advances : Advances session outcome)
    (genuine : ∀ message ∈ outcome.checked, ∃ proof ∈ world.proofs,
      proof.key = session.keys.membershipKey ∧ proof.message = message)
    (apart : ∀ message ∈ outcome.made, ∀ proof ∈ world.proofs,
      proof.tag hmac = hmac.mac session.keys.membershipKey message →
        proof.key = session.keys.membershipKey ∧ proof.message = message) :
    MembershipInv hmac (applyOutcome world id session outcome) where
  sound := by
    intro other mem
    rcases mem_or_eq_of_mem_set mem with mem | rfl
    · exact inv.sound other mem
    · exact advances.sound
  unique := by
    rw [applyOutcome, map_set_same MembershipSession.own found advances.continues.own]
    exact inv.unique
  made := by
    intro proof mem
    rcases mem_append.mp mem with mem | mem
    · obtain ⟨maker, known, role, key, made⟩ := inv.made proof mem
      obtain ⟨after, kept, continues⟩ := exists_after_set Continues.refl found advances.continues known
      exact ⟨after, kept, continues.role.trans role, by rw [continues.keys, key],
        made.later continues⟩
    · simp only [mem_toList, map_eq_some_iff] at mem
      obtain ⟨message, made, rfl⟩ := mem
      have bound : id < world.sessions.length := (List.getElem?_eq_some_iff.mp found).1
      exact ⟨outcome.session, mem_set bound _, advances.continues.role,
        by rw [advances.continues.keys], advances.made message made⟩
  accepted := by
    have logged : ∀ proof ∈ world.proofs, proof ∈ (applyOutcome world id session outcome).proofs := by
      intro proof mem
      exact mem_append_left _ mem
    intro other mem transcript said
    rcases mem_or_eq_of_mem_set mem with mem | rfl
    · obtain ⟨proof, known, key, message⟩ := inv.accepted other mem transcript said
      exact ⟨proof, logged proof known, key, message⟩
    · rw [advances.continues.keys, advances.continues.role]
      rcases advances.reached transcript said with said | ⟨message, checked, bytes⟩
      · obtain ⟨proof, known, key, message⟩ :=
          inv.accepted session (mem_of_getElem? found) transcript said
        exact ⟨proof, logged proof known, key, message⟩
      · obtain ⟨proof, known, key, rfl⟩ := genuine message checked
        exact ⟨proof, logged proof known, key, bytes⟩
  distinct := by
    intro left first right second same
    rcases mem_append.mp first with first | first
    · rcases mem_append.mp second with second | second
      · exact inv.distinct left first right second same
      · simp only [mem_toList, map_eq_some_iff] at second
        obtain ⟨message, made, rfl⟩ := second
        exact apart message made left first same
    · simp only [mem_toList, map_eq_some_iff] at first
      obtain ⟨message, made, rfl⟩ := first
      rcases mem_append.mp second with second | second
      · obtain ⟨key, body⟩ := apart message made right second same.symm
        exact ⟨key.symm, body.symm⟩
      · simp only [mem_toList, map_eq_some_iff] at second
        obtain ⟨_, again, rfl⟩ := second
        rw [made] at again
        obtain rfl := Option.some.inj again
        exact ⟨rfl, rfl⟩

theorem append_keeps (inv : MembershipInv hmac world) (sound : SessionSound session)
    (fresh : ∀ other ∈ world.sessions, other.own ≠ session.own)
    (unreached : session.reached = none) :
    MembershipInv hmac { world with sessions := world.sessions ++ [session] } where
  sound := by
    intro other mem
    rcases mem_append.mp mem with mem | mem
    · exact inv.sound other mem
    · obtain rfl := mem_singleton.mp mem
      exact sound
  unique := by
    rw [map_append, nodup_append]
    refine ⟨inv.unique, by simp, ?_⟩
    intro left first right second same
    obtain ⟨other, mem, rfl⟩ := mem_map.mp first
    simp only [map_cons, map_nil, mem_singleton] at second
    exact fresh other mem (same.trans second)
  made := by
    intro proof mem
    obtain ⟨maker, known, made⟩ := inv.made proof mem
    exact ⟨maker, mem_append_left _ known, made⟩
  accepted := by
    intro other mem transcript said
    rcases mem_append.mp mem with mem | mem
    · exact inv.accepted other mem transcript said
    · obtain rfl := mem_singleton.mp mem
      exact absurd (unreached.symm.trans said) (by simp)
  distinct := inv.distinct

theorem close_step_eq :
    { world with sessions := world.sessions.set id session.close } =
      applyOutcome world id session session.fail := by
  simp [applyOutcome, MembershipSession.fail]

theorem membership_step_keeps (hmac : Hmac) (world : MembershipWorld) (event : MembershipEvent)
    (next : MembershipWorld) (inv : MembershipInv hmac world) (ideal : IdealStep hmac world event)
    (stepped : membershipStep hmac world event = some next) : MembershipInv hmac next := by
  cases event with
  | create keys localPeer remotePeer role challenge now =>
    obtain ⟨session, created, rfl⟩ := map_eq_some_iff.mp stepped
    obtain ⟨sound, own, unreached⟩ := new_session_sound created
    apply append_keeps inv sound _ unreached
    rw [own]
    exact ideal
  | start id now =>
    obtain ⟨session, found, rfl⟩ := map_eq_some_iff.mp stepped
    have sound := inv.sound session (mem_of_getElem? found)
    apply outcome_keeps inv found (start_advances sound now)
    · intro message checked
      unfold MembershipSession.start at checked
      split at checked <;> cases checked
    · intro message made
      unfold MembershipSession.start at made
      split at made <;> cases made
  | receive id now input =>
    obtain ⟨session, found, rfl⟩ := map_eq_some_iff.mp stepped
    have sound := inv.sound session (mem_of_getElem? found)
    obtain ⟨genuine, apart⟩ := ideal session found
    exact outcome_keeps inv found (receive_advances hmac sound now input) genuine apart
  | close id =>
    obtain ⟨session, found, rfl⟩ := map_eq_some_iff.mp stepped
    have sound := inv.sound session (mem_of_getElem? found)
    rw [close_step_eq]
    apply outcome_keeps inv found (fail_advances sound)
    · nofun
    · nofun

/-- The other end: the same keys, the other role, the two peers swapped. -/
structure Partner (session other : MembershipSession) : Prop where
  keys : other.keys = session.keys
  role : other.role = session.role.other
  localPeer : other.localPeer = session.remotePeer
  remotePeer : other.remotePeer = session.localPeer

variable {mine theirs : MembershipTranscript} {transcript : MembershipTranscript}
  {first second : MembershipSession}

variable {input : Option Json} {other : MembershipSession}

theorem partner_of_spoken (mine : Spoken session transcript) (theirs : Spoken other transcript)
    (role : other.role = session.role.other)
    (key : other.keys.membershipKey = session.keys.membershipKey) : Partner session other where
  keys := by
    have room : other.keys.discoveryId = session.keys.discoveryId :=
      theirs.room.symm.trans mine.room
    cases one : other.keys
    cases two : session.keys
    simp_all
  role := role
  localPeer := by
    have initiator := theirs.initiator.symm.trans mine.initiator
    have responder := theirs.responder.symm.trans mine.responder
    cases which : session.role <;> simp_all [Role.other]
  remotePeer := by
    have initiator := theirs.initiator.symm.trans mine.initiator
    have responder := theirs.responder.symm.trans mine.responder
    cases which : session.role <;> simp_all [Role.other]

theorem reached_partner (inv : MembershipInv hmac world) (mem : session ∈ world.sessions)
    (said : session.reached = some transcript) :
    ∃ other ∈ world.sessions, Partner session other ∧
      (session.role = .initiator → other.answered = some transcript) ∧
      (session.role = .responder → other.reached = some transcript) := by
  obtain ⟨mine, _⟩ := (inv.sound session mem).reached transcript said
  obtain ⟨proof, logged, key, accepted⟩ := inv.accepted session mem transcript said
  obtain ⟨other, known, _, otherKey, made⟩ := inv.made proof logged
  refine ⟨other, known, ?_⟩
  have sound := inv.sound other known
  have sameKey := otherKey.trans key
  rcases made with ⟨role, answer, answered, bytes⟩ | ⟨role, answer, reached, bytes⟩
  · obtain ⟨rfl, roles, _⟩ := proof_message_injective bytes accepted
    obtain ⟨_, theirs⟩ := sound.answered answer answered
    refine ⟨partner_of_spoken mine theirs (role.trans roles) sameKey, ?_, ?_⟩
    · intro _
      exact answered
    · intro responder
      rw [responder] at roles
      cases roles
  · obtain ⟨rfl, roles, _⟩ := proof_message_injective bytes accepted
    obtain ⟨theirs, _⟩ := sound.reached answer reached
    refine ⟨partner_of_spoken mine theirs (role.trans roles) sameKey, ?_, ?_⟩
    · intro initiator
      rw [initiator] at roles
      cases roles
    · intro _
      exact reached

theorem own_determines (inv : MembershipInv hmac world) {left right : Nat}
    (one : world.sessions[left]? = some first) (two : world.sessions[right]? = some second)
    (same : first.own = second.own) : left = right := by
  have bound : left < (world.sessions.map MembershipSession.own).length := by
    rw [length_map]
    exact (List.getElem?_eq_some_iff.mp one).1
  apply (List.getElem?_inj bound inv.unique).mp
  rw [List.getElem?_map, List.getElem?_map, one, two]
  simp only [map_some, same]

theorem challenge_length {challenge : Text} (valid : validChallenge challenge = true) :
    challenge.length = 43 := by
  simp only [validChallenge, canonicalBase64, Bool.and_eq_true, decide_eq_true_eq] at valid
  exact valid.1.1

theorem proof_message_challenges {keys : RoomKeys} {role : Role} {message : Bytes}
    (made : proofMessage keys transcript role = some message) :
    transcript.initiatorChallenge.length = 43 := by
  obtain ⟨_, bytes⟩ := proof_message_spec made
  unfold transcriptBytes at bytes
  split at bytes
  · rename_i valid
    simp only [Bool.and_eq_true] at valid
    exact challenge_length valid.1.2
  · cases bytes

theorem binding_injective {left right : MembershipTranscript}
    (lengths : left.initiatorChallenge.length = right.initiatorChallenge.length)
    (same : left.binding = right.binding) (role : Role) :
    left.challengeOf role = right.challengeOf role := by
  obtain ⟨initiator, rest⟩ := append_inj same lengths
  cases role with
  | initiator => exact initiator
  | responder => exact (List.cons.inj rest).2

theorem binding_own (one : SessionSound first) (two : SessionSound second)
    (reached : first.reached = some mine) (other : second.reached = some theirs)
    (role : first.role = second.role) (same : mine.binding = theirs.binding) :
    first.own = second.own := by
  obtain ⟨spoken, message, made⟩ := one.reached mine reached
  obtain ⟨otherSpoken, otherMessage, otherMade⟩ := two.reached theirs other
  have lengths : mine.initiatorChallenge.length = theirs.initiatorChallenge.length := by
    rw [proof_message_challenges made, proof_message_challenges otherMade]
  rw [← spoken.own, ← otherSpoken.own, ← role]
  exact binding_injective lengths same first.role

theorem binding_determines (inv : MembershipInv hmac world) {left right : Nat}
    (one : world.sessions[left]? = some first) (two : world.sessions[right]? = some second)
    (role : first.role = second.role) (reached : first.reached = some mine)
    (other : second.reached = some theirs) (same : mine.binding = theirs.binding) :
    left = right := by
  apply own_determines inv one two
  exact binding_own (inv.sound first (mem_of_getElem? one))
    (inv.sound second (mem_of_getElem? two)) reached other role same

theorem bound_partner (inv : MembershipInv hmac world) (mem : session ∈ world.sessions)
    (known : other ∈ world.sessions) (reached : session.reached = some mine)
    (otherReached : other.reached = some theirs) (same : mine.binding = theirs.binding)
    (apart : session.localPeer ≠ session.remotePeer)
    (peer : other.localPeer = session.remotePeer) : Partner session other := by
  have unique := inj_on_of_nodup_map inv.unique
  have sound := inv.sound session mem
  have otherSound := inv.sound other known
  by_cases role : session.role = other.role
  · have own := binding_own sound otherSound reached otherReached role same
    obtain rfl := unique mem known own
    exact absurd peer apart
  · obtain ⟨partner, stands, agrees, answered, said⟩ := reached_partner inv mem reached
    have roles : partner.role = other.role := by
      rw [agrees.role]
      cases mineIs : session.role <;> cases theirsIs : other.role <;> simp_all [Role.other]
    have partnerSound := inv.sound partner stands
    have spoken : Spoken partner mine := by
      cases mineIs : session.role with
      | initiator => exact (partnerSound.answered mine (answered mineIs)).2
      | responder => exact (partnerSound.reached mine (said mineIs)).1
    obtain ⟨_, message, made⟩ := sound.reached mine reached
    obtain ⟨otherSpoken, otherMessage, otherMade⟩ := otherSound.reached theirs otherReached
    have lengths : mine.initiatorChallenge.length = theirs.initiatorChallenge.length := by
      rw [proof_message_challenges made, proof_message_challenges otherMade]
    have own : partner.own = other.own := by
      rw [← spoken.own, ← otherSpoken.own, ← roles]
      exact binding_injective lengths same partner.role
    obtain rfl := unique stands known own
    exact agrees

/-- The call checked `proof`, and found it to be one of the other role. -/
def Accepted (hmac : Hmac) (session : MembershipSession) (proof : Option Json)
    (outcome : Outcome) : Prop :=
  ∃ message transcript, outcome.checked = some message ∧
    proofMessage session.keys transcript session.role.other = some message ∧
    proof = some (.string (Base64.encode (hmac.mac session.keys.membershipKey message)))

theorem take_challenge_accepted (role : session.role = .initiator) {challenge : Text}
    {proof : Option Json}
    (verified : (session.takeChallenge hmac challenge proof).session.state = .verified) :
    Accepted hmac session proof (session.takeChallenge hmac challenge proof) := by
  revert verified
  unfold MembershipSession.takeChallenge
  simp only
  split
  · rename_i passed
    obtain ⟨message, bytes, text⟩ := verified_message passed
    split
    · nofun
    · intro _
      exact ⟨message, _, bytes, by rw [role]; exact bytes, text⟩
  · nofun

theorem take_finish_accepted (role : session.role = .responder) {proof : Option Json}
    (verified : (session.takeFinish hmac proof).session.state = .verified) :
    Accepted hmac session proof (session.takeFinish hmac proof) := by
  revert verified
  unfold MembershipSession.takeFinish
  split
  · rename_i passed
    obtain ⟨message, bytes, text⟩ := verified_message passed
    intro _
    exact ⟨message, _, bytes, by rw [role]; exact bytes, text⟩
  · nofun

theorem receive_accepted {now : Int}
    (verified : (session.receive hmac now input).session.state = .verified) :
    Accepted hmac session (property input (text "proof")) (session.receive hmac now input) := by
  revert verified
  unfold MembershipSession.receive
  split
  · nofun
  · split
    · nofun
    · split
      · unfold MembershipSession.answerHello
        simp only
        split <;> intro verified <;> cases verified
      · rename_i role _ _ _
        exact take_challenge_accepted role
      · rename_i role _ _
        exact take_finish_accepted role
      · nofun

theorem Made.by_role {message : Bytes} (made : Made session message) :
    ∃ transcript, proofMessage session.keys transcript session.role = some message := by
  rcases made with ⟨role, transcript, _, bytes⟩ | ⟨role, transcript, _, bytes⟩
  · exact ⟨transcript, by rw [role]; exact bytes⟩
  · exact ⟨transcript, by rw [role]; exact bytes⟩

theorem accepted_role (inv : MembershipInv hmac world) (found : world.sessions[id]? = some session)
    {now : Int} (ideal : IdealStep hmac world (.receive id now input))
    (verified : (session.receive hmac now input).session.state = .verified)
    {proof : MembershipProof} (logged : proof ∈ world.proofs)
    (given : property input (text "proof") = some (.string (Base64.encode (proof.tag hmac)))) :
    proof.role = session.role.other := by
  obtain ⟨message, transcript, checked, bytes, same⟩ := receive_accepted verified
  obtain ⟨genuine, known, key, rfl⟩ := (ideal session found).1 message checked
  rw [given] at same
  have text := Json.string.inj (Option.some.inj same)
  have tag : proof.tag hmac = genuine.tag hmac := by
    have decoded := congrArg Base64.decode text
    rw [Base64.decode_encode, Base64.decode_encode, ← key] at decoded
    exact Option.some.inj decoded
  obtain ⟨_, body⟩ := inv.distinct proof logged genuine known tag
  obtain ⟨maker, _, role, _, made⟩ := inv.made proof logged
  obtain ⟨_, theirs⟩ := made.by_role
  rw [body] at theirs
  rw [← role]
  exact (proof_message_injective theirs bytes).2.1

def MembershipSession.Expects (session : MembershipSession) : FrameKind → Prop
  | .hello => session.role = .responder ∧ session.state = .new
  | .challenge => session.role = .initiator ∧ session.state = .waiting
  | .finish => session.role = .responder ∧ session.state = .waiting

theorem receive_expected {now : Int} (returned : (session.receive hmac now input).thrown = false) :
    ∃ kind, frameKind input = some kind ∧ session.Expects kind := by
  unfold MembershipSession.receive at returned
  split at returned
  · cases returned
  · split at returned
    · cases returned
    · split at returned
      · rename_i role state kind _
        exact ⟨_, kind, role, state⟩
      · rename_i role state kind _
        exact ⟨_, kind, role, state⟩
      · rename_i role state kind
        exact ⟨_, kind, role, state⟩
      · cases returned

def ClosedAt (id : Nat) (world : MembershipWorld) : Prop :=
  ∃ session, world.sessions[id]? = some session ∧ session.state = .closed

theorem start_closed (shut : session.state = .closed) (now : Int) :
    (session.start now).session.state = .closed := by
  unfold MembershipSession.start
  rw [if_pos (Or.inl (by simp [shut]))]
  rfl

theorem receive_closed (shut : session.state = .closed) (now : Int) (input : Option Json) :
    (session.receive hmac now input).session.state = .closed := by
  unfold MembershipSession.receive
  rw [if_pos (Or.inl shut)]
  rfl

theorem closed_after_set (closed : ClosedAt id world) {place : Nat} {later : MembershipSession}
    {proofs : List MembershipProof}
    (stays : ∀ session, world.sessions[place]? = some session → session.state = .closed →
      later.state = .closed) :
    ClosedAt id { sessions := world.sessions.set place later, proofs := proofs } := by
  obtain ⟨session, found, shut⟩ := closed
  by_cases same : place = id
  · subst same
    have bound : place < world.sessions.length := (List.getElem?_eq_some_iff.mp found).1
    exact ⟨later, List.getElem?_set_self bound, stays session found shut⟩
  · exact ⟨session, (List.getElem?_set_ne same).trans found, shut⟩

theorem membership_step_closed (hmac : Hmac) (id : Nat) (world : MembershipWorld)
    (event : MembershipEvent) (next : MembershipWorld) (closed : ClosedAt id world)
    (_allowed : True) (stepped : membershipStep hmac world event = some next) :
    ClosedAt id next := by
  cases event with
  | create keys localPeer remotePeer role challenge now =>
    obtain ⟨created, _, rfl⟩ := map_eq_some_iff.mp stepped
    obtain ⟨session, found, shut⟩ := closed
    have bound : id < world.sessions.length := (List.getElem?_eq_some_iff.mp found).1
    exact ⟨session, (List.getElem?_append_left bound).trans found, shut⟩
  | start place now =>
    obtain ⟨session, found, rfl⟩ := map_eq_some_iff.mp stepped
    apply closed_after_set closed
    intro other again shut
    obtain rfl := Option.some.inj (found.symm.trans again)
    exact start_closed shut now
  | receive place now input =>
    obtain ⟨session, found, rfl⟩ := map_eq_some_iff.mp stepped
    apply closed_after_set closed
    intro other again shut
    obtain rfl := Option.some.inj (found.symm.trans again)
    exact receive_closed shut now input
  | close place =>
    obtain ⟨session, found, rfl⟩ := map_eq_some_iff.mp stepped
    apply closed_after_set closed
    intro other again shut
    rfl

theorem closed_after_throw (found : world.sessions[id]? = some session) {outcome : Outcome}
    (shut : outcome.session.state = .closed) {later : List MembershipEvent}
    {final : MembershipWorld}
    (ran : run (membershipStep hmac) (applyOutcome world id session outcome) later = some final) :
    ClosedAt id final := by
  have bound : id < world.sessions.length := (List.getElem?_eq_some_iff.mp found).1
  have closed : ClosedAt id (applyOutcome world id session outcome) :=
    ⟨outcome.session, List.getElem?_set_self bound, shut⟩
  exact run_keeps (membership_step_closed hmac id) closed (meets_of_forall (fun _ _ => trivial) _ _)
    ran

end Worlds

/-- What the handshake guarantees in a state of the world. A partner that was closed
since has erased its challenges; what it said stays said. -/
structure HandshakeAgreement (hmac : Hmac) (world : MembershipWorld) : Prop where
  reached : ∀ session ∈ world.sessions, session.state = .verified →
    session.reached = some session.transcript
  initiator : ∀ initiator ∈ world.sessions, initiator.role = .initiator →
    ∀ transcript, initiator.reached = some transcript → ∃ responder ∈ world.sessions,
      Partner initiator responder ∧ responder.answered = some transcript ∧
      (responder.state ≠ .closed → responder.transcript = transcript)
  responder : ∀ responder ∈ world.sessions, responder.role = .responder →
    ∀ transcript, responder.reached = some transcript → ∃ initiator ∈ world.sessions,
      Partner responder initiator ∧ initiator.reached = some transcript ∧
      (initiator.state ≠ .closed →
        initiator.transcript = transcript ∧ initiator.binding = some transcript.binding)
  roles : ∀ id now input session, world.sessions[id]? = some session →
    IdealStep hmac world (.receive id now input) →
    (session.receive hmac now input).session.state = .verified →
    ∀ proof ∈ world.proofs,
      property input (text "proof") = some (.string (Base64.encode (proof.tag hmac))) →
      proof.role = session.role.other
  bindings : ∀ (left right : Nat) (first second : MembershipSession),
    world.sessions[left]? = some first → world.sessions[right]? = some second →
    first.role = second.role →
    ∀ mine theirs : MembershipTranscript, first.reached = some mine → second.reached = some theirs →
      mine.binding = theirs.binding → left = right
  unexpected : ∀ session ∈ world.sessions, ∀ now input,
    (∀ kind, frameKind input = some kind → ¬session.Expects kind) →
    (session.receive hmac now input).thrown = true
  thrown : ∀ id now input session, world.sessions[id]? = some session →
    (session.receive hmac now input).thrown = true → ∀ later final,
      run (membershipStep hmac) (applyOutcome world id session (session.receive hmac now input))
        later = some final → ClosedAt id final

/-- Any number of sessions, any frames in any order: the handshake agrees. -/
theorem membership_agreement (hmac : Hmac) (events : List MembershipEvent) (world : MembershipWorld)
    (ideal : Meets (membershipStep hmac) (IdealStep hmac) newMembershipWorld events)
    (ran : run (membershipStep hmac) newMembershipWorld events = some world) :
    HandshakeAgreement hmac world := by
  have inv : MembershipInv hmac world :=
    run_keeps (membership_step_keeps hmac) (new_membership_world_inv hmac) ideal ran
  exact {
    reached := by
      intro session mem verified
      exact (inv.sound session mem).verified verified
    initiator := by
      intro initiator mem role transcript said
      obtain ⟨responder, known, partner, answered, _⟩ := reached_partner inv mem said
      refine ⟨responder, known, partner, answered role, ?_⟩
      intro still
      have sound := inv.sound responder known
      have other : responder.role = .responder := by rw [partner.role, role]; rfl
      have answer := answered role
      cases state : responder.state with
      | new =>
        rw [sound.fresh state] at answer
        cases answer
      | waiting =>
        rw [sound.waiting (Or.inl state) other] at answer
        exact Option.some.inj answer
      | verified =>
        rw [sound.waiting (Or.inr state) other] at answer
        exact Option.some.inj answer
      | closed => exact absurd state still
    responder := by
      intro responder mem role transcript said
      obtain ⟨initiator, known, partner, _, reached⟩ := reached_partner inv mem said
      refine ⟨initiator, known, partner, reached role, ?_⟩
      intro still
      have sound := inv.sound initiator known
      have reach := reached role
      cases state : initiator.state with
      | new =>
        rw [sound.unreached (Or.inl state)] at reach
        cases reach
      | waiting =>
        rw [sound.unreached (Or.inr state)] at reach
        cases reach
      | verified =>
        rw [sound.verified state] at reach
        obtain rfl := Option.some.inj reach
        exact ⟨rfl, by rw [MembershipSession.binding, if_pos state]⟩
      | closed => exact absurd state still
    roles := by
      intro id now input session found ideal verified proof logged given
      exact accepted_role inv found ideal verified logged given
    bindings := by
      intro left right first second one two role mine theirs reached other same
      exact binding_determines inv one two role reached other same
    unexpected := by
      intro session _ now input unexpected
      cases thrown : (session.receive hmac now input).thrown with
      | true => rfl
      | false =>
        obtain ⟨kind, read, expects⟩ := receive_expected thrown
        exact absurd expects (unexpected kind read)
    thrown := by
      intro id now input session found thrown later final later_ran
      have sound := inv.sound session (mem_of_getElem? found)
      exact closed_after_throw found ((receive_advances hmac sound now input).thrown thrown)
        later_ran }

def sampleHmac : Hmac where
  mac := fun _ message => (message.reverse ++ List.replicate 32 0).take 32
  length := by
    intro _ message
    simp

def sampleKeys : RoomKeys where
  discoveryId := text "room"
  membershipKey := [7]

def sampleChallenge (last : UInt16) : Text := List.replicate 41 65 ++ [last, 65]

def sampleTranscript : MembershipTranscript where
  room := text "room"
  initiator := text "alice"
  responder := text "bob"
  initiatorChallenge := sampleChallenge 66
  responderChallenge := sampleChallenge 67

def sampleFrame (kind : Text) (fields : List (Text × Json)) : Option Json :=
  some (.object ([(text "version", .number (.finite false 2 0)), (text "type", .string kind),
    (text "room", .string (text "room"))] ++ fields))

def sampleProof (role : Role) : Json :=
  .string ((createMembershipProof sampleHmac sampleKeys sampleTranscript role).getD [])

def sampleHandshake : List MembershipEvent :=
  [.create sampleKeys (text "alice") (text "bob") .initiator (sampleChallenge 66) 0,
    .create sampleKeys (text "bob") (text "alice") .responder (sampleChallenge 67) 0,
    .start 0 1,
    .receive 1 2 (sampleFrame (text "hello") [(text "challenge", .string (sampleChallenge 66))]),
    .receive 0 3 (sampleFrame (text "challenge")
      [(text "challenge", .string (sampleChallenge 67)), (text "proof", sampleProof .responder)])]

def sampleFinishFrame : MembershipEvent :=
  .receive 1 5 (sampleFrame (text "finish") [(text "proof", sampleProof .initiator)])

theorem sample_membership_agreement :
    ∃ world, run (membershipStep sampleHmac) newMembershipWorld
        (sampleHandshake ++ [sampleFinishFrame]) = some world ∧
      world.sessions.map MembershipSession.state = [.verified, .verified] ∧
      HandshakeAgreement sampleHmac world := by
  obtain ⟨world, ran, states⟩ := map_eq_some_iff.mp (show
    (run (membershipStep sampleHmac) newMembershipWorld
      (sampleHandshake ++ [sampleFinishFrame])).map
        (fun world => world.sessions.map MembershipSession.state) =
      some [.verified, .verified] by decide +kernel)
  exact ⟨world, ran, states, membership_agreement sampleHmac
    (sampleHandshake ++ [sampleFinishFrame]) world (by decide +kernel) ran⟩

/-- A stray frame closes the initiator, and the responder is verified all the same. -/
theorem responder_verified_alone :
    ∃ events world, Meets (membershipStep sampleHmac) (IdealStep sampleHmac) newMembershipWorld
        events ∧
      run (membershipStep sampleHmac) newMembershipWorld events = some world ∧
      (∃ responder ∈ world.sessions, responder.role = .responder ∧ responder.state = .verified) ∧
      ¬∃ initiator ∈ world.sessions, initiator.role = .initiator ∧ initiator.state = .verified := by
  obtain ⟨world, ran, states⟩ := map_eq_some_iff.mp (show
    (run (membershipStep sampleHmac) newMembershipWorld
      (sampleHandshake ++ [.receive 0 4 none, sampleFinishFrame])).map
        (fun world => decide ((∃ responder ∈ world.sessions, responder.role = .responder ∧
            responder.state = .verified) ∧
          ¬∃ initiator ∈ world.sessions, initiator.role = .initiator ∧
            initiator.state = .verified)) =
      some true by decide +kernel)
  obtain ⟨responder, initiator⟩ := of_decide_eq_true states
  exact ⟨_, world, by decide +kernel, ran, responder, initiator⟩

end AwfulChat.RoomSecurity
