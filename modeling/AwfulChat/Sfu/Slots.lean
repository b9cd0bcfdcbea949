import Mathlib.Data.List.Basic
import AwfulChat.Library.Runs

/-!
# Session slots of the SFU

The join handshake of `index.ts`, its liveness probe, what a closing socket does to the session
it carries, and resumes. Sockets and sessions are numbered; `members` lists the sessions in
`rooms`, of which a room holds one for each peer id. What runs between two awaits is one step,
and what an await waits for may come at any later one. The process is up, the joins are
authenticated.
-/

namespace AwfulChat.Sfu

open Library

set_option autoImplicit false

abbrev SocketId := Nat
abbrev SessionId := Nat
abbrev Token := Nat
abbrev RoomCode := String
abbrev PeerId := String

def MAX_PEERS_PER_ROOM : Nat := 32

/-- Why the SFU itself cut a socket. -/
inductive EndedBy
  | heartbeat | backpressure | joinTimeout | replaced | resumed
  deriving DecidableEq

def holdsForResume (code : Nat) (endedBy : Option EndedBy) : Bool :=
  match endedBy with
  | some .heartbeat => true
  | some .backpressure => true
  | some _ => false
  | none => decide (code = 1006)

inductive Ready
  | isOpen | closing | closed
  deriving DecidableEq

/-- What a join waits for: the answer it was given at once, or a probe's. -/
inductive Answer
  | known (alive : Bool)
  | probe (number : Nat)
  deriving DecidableEq

/-- A join that asked whether the incumbent is alive. -/
structure Probing where
  roomCode : RoomCode
  peerId : PeerId
  oldPeer : SessionId
  probedWs : SocketId
  answer : Answer
  deriving DecidableEq

structure Socket where
  ready : Ready
  joinNonce : Bool
  /-- The session the socket's handlers act for. -/
  peer : Option SessionId
  probing : Option Probing
  endedBy : Option EndedBy
  deriving DecidableEq

def Socket.fresh : Socket := ⟨.isOpen, true, none, none, none⟩

/-- The part of a `PeerState` that says whose slot it is and which socket it is on. -/
structure Session where
  peerId : PeerId
  roomCode : RoomCode
  ws : SocketId
  resumeToken : Token
  livenessProbe : Option Nat
  /-- The socket the timer was armed for. -/
  detachTimer : Option SocketId
  deriving DecidableEq

structure Probe where
  ws : SocketId
  alive : Option Bool
  deriving DecidableEq

structure Slots where
  sockets : SocketId → Socket
  sessions : SessionId → Session
  members : List SessionId
  probes : Nat → Probe
  nextSession : SessionId
  nextProbe : Nat
  nextToken : Token
  /-- For the statements only: the tokens handed out, newest first, and those a resume used. -/
  handed : List (SessionId × Token)
  used : List (SessionId × Token)

/-- What a step did to the rooms. -/
inductive Change
  | none
  | entered (session : SessionId) (replaced : Option SessionId)
  | resumed (session : SessionId)
  | left (session : SessionId)
  deriving DecidableEq

namespace Slots

def start : Slots :=
  ⟨fun _ => Socket.fresh, fun _ => ⟨"", "", 0, 0, none, none⟩, [], fun _ => ⟨0, none⟩, 0, 0, 0,
    [], []⟩

def setSocket (slots : Slots) (ws : SocketId) (socket : Socket) : Slots :=
  { slots with sockets := Function.update slots.sockets ws socket }

def setSession (slots : Slots) (id : SessionId) (session : Session) : Slots :=
  { slots with sessions := Function.update slots.sessions id session }

def room (slots : Slots) (roomCode : RoomCode) : List SessionId :=
  slots.members.filter fun id => decide ((slots.sessions id).roomCode = roomCode)

def find (slots : Slots) (roomCode : RoomCode) (peerId : PeerId) : Option SessionId :=
  slots.members.find? fun id =>
    decide ((slots.sessions id).roomCode = roomCode ∧ (slots.sessions id).peerId = peerId)

/-- `ws.close()` and `ws.terminate()`: the close event comes later. -/
def shut (slots : Slots) (ws : SocketId) : Slots :=
  let socket := slots.sockets ws
  slots.setSocket ws
    { socket with ready := if socket.ready = .closed then .closed else .closing }

def cut (slots : Slots) (ws : SocketId) (cause : EndedBy) : Slots :=
  let marked := slots.setSocket ws { slots.sockets ws with endedBy := some cause }
  marked.shut ws

def clearDetachTimer (slots : Slots) (id : SessionId) : Slots :=
  slots.setSession id { slots.sessions id with detachTimer := none }

def leave (slots : Slots) (id : SessionId) : Slots :=
  { slots.clearDetachTimer id with
    members := slots.members.filter fun other => decide (other ≠ id) }

def resumeSession (slots : Slots) (id : SessionId) (ws : SocketId) : Slots :=
  let session := slots.sessions id
  let previous := session.ws
  let moved := slots.setSession id
    { session with ws := ws, livenessProbe := none, detachTimer := none,
                   resumeToken := slots.nextToken }
  let shifted :=
    if previous ≠ ws ∧ (slots.sockets previous).ready ≠ .closed then moved.cut previous .resumed
    else moved
  { shifted with
    nextToken := slots.nextToken + 1
    handed := (id, slots.nextToken) :: slots.handed
    used := (id, session.resumeToken) :: slots.used }

/-- The new session of a join, in the place of the one it replaces. -/
def enter (slots : Slots) (ws : SocketId) (roomCode : RoomCode) (peerId : PeerId)
    (oldPeer : Option SessionId) : Slots :=
  let id := slots.nextSession
  let made := slots.setSession id ⟨peerId, roomCode, ws, slots.nextToken, none, none⟩
  let seated :=
    match oldPeer with
    | none => { made with members := slots.members ++ [id] }
    | some old =>
      let ended := (made.clearDetachTimer old).cut (slots.sessions old).ws .replaced
      { ended with members := slots.members.map fun other => if other = old then id else other }
  let joined := seated.setSocket ws { seated.sockets ws with peer := some id }
  { joined with
    nextSession := slots.nextSession + 1
    nextToken := slots.nextToken + 1
    handed := (id, slots.nextToken) :: slots.handed }

/-- A liveness probe of the session's socket, or the answer known without one. -/
def probeSessionAlive (slots : Slots) (id : SessionId) (buffered : Bool) : Slots × Answer :=
  let session := slots.sessions id
  if (slots.sockets session.ws).ready ≠ .isOpen then (slots, .known false)
  else if buffered then (slots, .known true)
  else match session.livenessProbe with
    | some number => (slots, .probe number)
    | none =>
      let asked := slots.setSession id { session with livenessProbe := some slots.nextProbe }
      ({ asked with
          probes := Function.update slots.probes slots.nextProbe ⟨session.ws, none⟩
          nextProbe := slots.nextProbe + 1 }, .probe slots.nextProbe)

/-- The join frame, up to the probe if it needs one. `full` says that as many rooms have a
router as may, `buffered` that the incumbent's socket has bytes queued. -/
def join (slots : Slots) (ws : SocketId) (roomCode : RoomCode) (peerId : PeerId)
    (resume : Option Token) (full buffered : Bool) : Slots × Change :=
  let socket := slots.sockets ws
  let challenged := slots.setSocket ws { socket with joinNonce := false }
  if !socket.joinNonce then (slots.shut ws, .none)
  else if (slots.room roomCode).isEmpty && full then (challenged.shut ws, .none)
  else match slots.find roomCode peerId with
    | none =>
      if MAX_PEERS_PER_ROOM ≤ (slots.room roomCode).length then (challenged.shut ws, .none)
      else (challenged.enter ws roomCode peerId none, .entered slots.nextSession none)
    | some old =>
      if resume = some (slots.sessions old).resumeToken then
        let taken := challenged.setSocket ws
          { challenged.sockets ws with peer := some old }
        (taken.resumeSession old ws, .resumed old)
      else
        let probed := challenged.probeSessionAlive old buffered
        (probed.1.setSocket ws { probed.1.sockets ws with
          probing := some ⟨roomCode, peerId, old, (slots.sessions old).ws, probed.2⟩ }, .none)

def answered (slots : Slots) : Answer → Option Bool
  | .known alive => some alive
  | .probe number => (slots.probes number).alive

/-- The join once its probe is answered. -/
def finishJoin (slots : Slots) (ws : SocketId) (probing : Probing) (alive : Bool) :
    Slots × Change :=
  let rested := slots.setSocket ws { slots.sockets ws with probing := none }
  if (slots.sockets ws).ready ≠ .isOpen then (rested, .none)
  else if alive then (rested.shut ws, .none)
  else match slots.find probing.roomCode probing.peerId with
    | none =>
      (rested.enter ws probing.roomCode probing.peerId none, .entered slots.nextSession none)
    | some current =>
      if current ≠ probing.oldPeer ∨ (slots.sessions current).ws ≠ probing.probedWs then
        (rested.shut ws, .none)
      else (rested.enter ws probing.roomCode probing.peerId (some current),
        .entered slots.nextSession (some current))

def closed (slots : Slots) (grace : Bool) (ws : SocketId) (code : Nat) : Slots × Change :=
  let socket := slots.sockets ws
  let gone := slots.setSocket ws { socket with ready := .closed, peer := none }
  match socket.peer with
  | none => (gone, .none)
  | some id =>
    if id ∈ slots.members ∧ (slots.sessions id).ws = ws then
      if grace && holdsForResume code socket.endedBy then
        (gone.setSession id { slots.sessions id with detachTimer := some ws }, .none)
      else (gone.leave id, .left id)
    else (gone, .none)

def graceEnd (slots : Slots) (id : SessionId) (armed : SocketId) : Slots × Change :=
  let fired := slots.clearDetachTimer id
  if id ∈ slots.members ∧ (slots.sessions id).ws = armed then (fired.leave id, .left id)
  else (fired, .none)

def settle (slots : Slots) (number : Nat) (alive : Bool) : Slots :=
  { slots with
    probes := Function.update slots.probes number ⟨(slots.probes number).ws, some alive⟩
    sessions := fun id =>
      if (slots.sessions id).livenessProbe = some number then
        { slots.sessions id with livenessProbe := none }
      else slots.sessions id }

end Slots

inductive SlotEvent
  | join (ws : SocketId) (roomCode : RoomCode) (peerId : PeerId) (resume : Option Token)
      (full buffered : Bool)
  | settle (number : Nat) (alive : Bool)
  | finishJoin (ws : SocketId)
  | shut (ws : SocketId)
  | cut (ws : SocketId) (cause : EndedBy)
  | closed (ws : SocketId) (code : Nat)
  | graceEnd (id : SessionId)

/-- `grace` says whether `RESUME_GRACE_MS` is positive. -/
def slotStep (grace : Bool) (slots : Slots) : SlotEvent → Option (Slots × Change)
  | .join ws roomCode peerId resume full buffered =>
    let socket := slots.sockets ws
    if socket.ready = .closed ∨ socket.peer ≠ none ∨ socket.probing ≠ none then none
    else some (slots.join ws roomCode peerId resume full buffered)
  | .settle number alive =>
    if number < slots.nextProbe ∧ (slots.probes number).alive = none then
      some (slots.settle number alive, .none)
    else none
  | .finishJoin ws =>
    (slots.sockets ws).probing.bind fun probing =>
      (slots.answered probing.answer).map fun alive => slots.finishJoin ws probing alive
  | .shut ws => some (slots.shut ws, .none)
  | .cut ws cause =>
    let known := match cause with
      | .heartbeat => true
      | .backpressure => true
      | .joinTimeout => (slots.sockets ws).joinNonce
      | _ => false
    if known then some (slots.cut ws cause, .none) else none
  | .closed ws code =>
    if (slots.sockets ws).ready = .closed then none else some (slots.closed grace ws code)
  | .graceEnd id =>
    (slots.sessions id).detachTimer.map fun armed => slots.graceEnd id armed

end AwfulChat.Sfu
