import AwfulChat.Library.OrderedMap
import AwfulChat.Library.Runs
import AwfulChat.SyncPush
import Mathlib.Logic.Function.Basic

/-!
# The receiving end of a history push

`InboundPushes` of `sync-inbound.ts` as a step function. Every step is one
synchronous stretch of the class: a call of a public method, a timer, or one
stretch of a promise chain between two awaits. A chain is a list of jobs, each
waiting for the one it was chained behind, so the order in which queued
batches, finishes and ends run is exactly the order `then` gives them, and the
schedule picks everything else.

Push records and room records are objects the class shares by reference (a
timer closes over the room record it was set for), so both live in a heap and
the maps of the class hold their indices, plain numbers; jobs are numbered in
the order they were queued. A map key `peer|room` is the pair:
a peer id never holds a bar. `Proc` stands for the closure a frame brings; what
it answers is the schedule's choice. `log` is history: what the class asked of
its dependencies and what it was told, newest first.
-/

namespace AwfulChat.Inbound

open Library SyncPush

set_option autoImplicit false

abbrev Peer := String
abbrev Room := String
abbrev Sender := String
abbrev Key := Peer × Room

def maxSafeInteger : Int := 9007199254740991

def isSafeInteger (value : Int) : Bool :=
  decide (-maxSafeInteger ≤ value) && decide (value ≤ maxSafeInteger)

/-- A field of a decoded frame. `other` is everything the receiver treats
alike: a fraction, NaN, an object, a missing field. -/
inductive WireValue
  | int (value : Int)
  | text (value : String)
  | other
  deriving DecidableEq

structure PushFrame where
  batchIndex : WireValue
  totalBatches : WireValue
  order : WireValue
  deriving DecidableEq

def PushFrame.pushOrder (frame : PushFrame) : Option PushOrder :=
  if frame.order = .text "head" then some .head
  else if frame.order = .text "asc" then some .asc
  else none

/-- Index and total, when the frame is `valid`. -/
def PushFrame.place (frame : PushFrame) : Option (Int × Int) :=
  match frame.batchIndex, frame.totalBatches with
  | .int index, .int total =>
    if isSafeInteger index ∧ isSafeInteger total ∧ 0 ≤ index ∧ 1 ≤ total ∧ index < total then
      some (index, total)
    else none
  | _, _ => none

structure HeldRow where
  senderId : Sender
  lamport : Int
  deriving DecidableEq

structure BatchOutcome where
  held : List HeldRow
  floors : OrderedMap Sender Int

def maxClaimed : Nat := 256
def maxClaimSenders : Nat := 4096
def maxFloorSenders : Nat := 4096

def validRow (row : HeldRow) : Bool :=
  decide (row.senderId ≠ "") && isSafeInteger row.lamport && decide (0 ≤ row.lamport)

def raiseBest (best : OrderedMap Sender Int) (sender : Sender) (lamport : Int) :
    OrderedMap Sender Int :=
  if (best.get sender).getD (-1) < lamport then best.set sender lamport else best

def claimRow (floors : OrderedMap Sender Int) (best : OrderedMap Sender Int)
    (row : Sender × Int) : OrderedMap Sender Int :=
  match floors.get row.1 with
  | some floor => if floor ≤ row.2 then best else raiseBest best row.1 row.2
  | none => raiseBest best row.1 row.2

/-- Highest lamport per sender, below that sender's floor. -/
def claimable (rows : List (Sender × Int)) (floors : OrderedMap Sender Int) :
    OrderedMap Sender Int :=
  rows.foldl (claimRow floors) .empty

def pendingEntries (pending : OrderedMap Sender (List Int)) : List (Sender × Int) :=
  pending.entries.flatMap fun entry => entry.2.map fun lamport => (entry.1, lamport)

structure Push where
  key : Key
  room : Room
  first : Option PushOrder
  phase : Option PushOrder
  next : Int
  total : Int
  broken : Bool
  isPartial : Bool
  pending : OrderedMap Sender (List Int)
  floors : OrderedMap Sender Int
  overflowed : Bool
  chain : Option Nat
  timer : Bool
  ended : Bool
  settled : Bool

instance : Inhabited Push where
  default :=
    { key := ("", ""), room := "", first := none, phase := none, next := 0, total := 0
      broken := false, isPartial := false, pending := .empty, floors := .empty
      overflowed := false, chain := none, timer := false, ended := false, settled := false }

/-- `openPushes` holds pushes by reference; `expecting` maps a peer to the nonce of
the wait its latest digest set. -/
structure RoomState where
  openPushes : List Nat
  owed : Bool
  expecting : OrderedMap Peer Nat

instance : Inhabited RoomState where
  default := { openPushes := [], owed := false, expecting := .empty }

def RoomState.fresh : RoomState := default

/-- An armed `expect` timer: the record it closes over, and the wait it ends. -/
structure Wait where
  record : Nat
  room : Room
  peer : Peer
  nonce : Nat
  deriving DecidableEq

inductive Task (Proc : Type)
  | batch (order : Option PushOrder) (process : Proc)
  | finish
  | endShort

/-- Where a job stands: not started, awaiting `process()`, awaiting a
`commit` with these claims still to make, awaiting `release`, or over. -/
inductive Stage
  | queued
  | processing
  | committing (rest : List (Sender × Int))
  | releasing
  | done
  deriving DecidableEq

structure Job (Proc : Type) where
  push : Nat
  task : Task Proc
  after : Option Nat
  stage : Stage

instance {Proc : Type} : Inhabited (Job Proc) where
  default := { push := 0, task := .finish, after := none, stage := .done }

inductive Call (Proc : Type)
  | hold (room : Room)
  | asked (peer : Peer) (room : Room) (nonce : Nat)
  | answered (peer : Peer) (room : Room) (nonce : Option Nat)
  | lapsed (peer : Peer) (room : Room) (nonce : Nat)
  | opened (push : Nat) (key : Key) (process : Proc)
  | outcome (push : Nat) (process : Proc) (outcome : BatchOutcome)
  | commit (push : Nat) (room : Room) (sender : Sender) (lamport : Int)
  | ended (push : Nat) (room : Room) (completed : Bool)
  | owed (push : Nat) (room : Room) (short : Bool)
  | release (cause : Option Nat) (room : Room)
  | reset

structure State (Proc : Type) where
  pushes : OrderedMap Key Nat
  finishing : OrderedMap Key Nat
  rooms : OrderedMap Room Nat
  claims : OrderedMap Key (OrderedMap Sender Int)
  nonces : Nat
  push : Nat → Push
  pushCount : Nat
  record : Nat → RoomState
  recordCount : Nat
  job : Nat → Job Proc
  jobCount : Nat
  waits : List Wait
  log : List (Call Proc)

def State.init (Proc : Type) : State Proc where
  pushes := .empty
  finishing := .empty
  rooms := .empty
  claims := .empty
  nonces := 0
  push := fun _ => default
  pushCount := 0
  record := fun _ => default
  recordCount := 0
  job := fun _ => default
  jobCount := 0
  waits := []
  log := []

section Operations

variable {Proc : Type}

def note (state : State Proc) (call : Call Proc) : State Proc :=
  { state with log := call :: state.log }

def updatePush (state : State Proc) (push : Nat) (change : Push → Push) : State Proc :=
  { state with push := Function.update state.push push (change (state.push push)) }

def updateRecord (state : State Proc) (record : Nat) (change : RoomState → RoomState) :
    State Proc :=
  { state with record := Function.update state.record record (change (state.record record)) }

def setStage (state : State Proc) (job : Nat) (stage : Stage) : State Proc :=
  { state with job := Function.update state.job job { state.job job with stage := stage } }

/-- `p.chain = p.chain.then(task)`. -/
def enqueue (state : State Proc) (push : Nat) (task : Task Proc) : State Proc :=
  updatePush
    { state with
      job := Function.update state.job state.jobCount
        { push := push, task := task, after := (state.push push).chain, stage := .queued }
      jobCount := state.jobCount + 1 }
    push fun record => { record with chain := some state.jobCount }

/-- `this.pushes.delete(p.key)`, when the map still holds `p` itself. -/
def unregister (state : State Proc) (push : Nat) : State Proc :=
  if state.pushes.get (state.push push).key = some push then
    { state with pushes := state.pushes.delete (state.push push).key }
  else state

def settleDone (state : State Proc) (push : Nat) : State Proc :=
  updatePush
    (if state.finishing.get (state.push push).key = some push then
      { state with finishing := state.finishing.delete (state.push push).key }
    else state)
    push fun record => { record with settled := true }

def room (state : State Proc) (room : Room) : Nat × State Proc :=
  match state.rooms.get room with
  | some record => (record, note state (.hold room))
  | none =>
    (state.recordCount,
      note
        { state with
          rooms := state.rooms.set room state.recordCount
          record := Function.update state.record state.recordCount RoomState.fresh
          recordCount := state.recordCount + 1 }
        (.hold room))

def RoomState.idle (record : RoomState) : Bool :=
  record.openPushes.isEmpty && !record.owed && record.expecting.size == 0

/-- Whether `settle` lets go of the room. -/
def settles (state : State Proc) (room : Room) : Bool :=
  match state.rooms.get room with
  | some record => (state.record record).idle
  | none => false

def settle (state : State Proc) (room : Room) (cause : Option Nat) : State Proc :=
  if settles state room then
    note { state with rooms := state.rooms.delete room } (.release cause room)
  else state

def clearWait (state : State Proc) (nonce : Nat) : State Proc :=
  { state with waits := state.waits.filter fun wait => decide (wait.nonce ≠ nonce) }

def clearBefore (state : State Proc) (record : Nat) (peer : Peer) : State Proc :=
  match (state.record record).expecting.get peer with
  | some before => clearWait state before
  | none => state

def expect (state : State Proc) (peer : Peer) (name : Room) : Nat × State Proc :=
  let (record, held) := room state name
  let cleared := clearBefore held record peer
  let nonce := cleared.nonces + 1
  (nonce,
    note
      (updateRecord
        { cleared with
          nonces := nonce
          waits := { record := record, room := name, peer := peer, nonce := nonce } ::
            cleared.waits }
        record fun current => { current with expecting := current.expecting.set peer nonce })
      (.asked peer name nonce))

/-- Drop one wait of a room record and see whether the room is free. -/
def endWait (state : State Proc) (record : Nat) (peer : Peer) (name : Room) : State Proc :=
  settle
    (updateRecord state record fun current =>
      { current with expecting := current.expecting.delete peer })
    name none

def answered (state : State Proc) (peer : Peer) (name : Room) (nonce : Option Nat) :
    State Proc :=
  let told := note state (.answered peer name nonce)
  match told.rooms.get name with
  | none => told
  | some record =>
    match (told.record record).expecting.get peer with
    | none => told
    | some waiting =>
      if nonce ≠ none ∧ nonce ≠ some waiting then told
      else endWait (clearWait told waiting) record peer name

def arm (state : State Proc) (push : Nat) : State Proc :=
  updatePush state push fun record => { record with timer := true }

def finish (state : State Proc) (push : Nat) : State Proc :=
  if state.pushes.get (state.push push).key = some push then
    let closed := unregister
      (updatePush state push fun record => { record with timer := false }) push
    enqueue
      { closed with finishing := closed.finishing.set (closed.push push).key push }
      push .finish
  else state

/-- The peer started over: the push it left is over too, short. -/
def startOver (state : State Proc) (key : Key) : Option Nat → State Proc
  | some before => enqueue { state with pushes := state.pushes.delete key } before .endShort
  | none => state

def newPush (state : State Proc) (key : Key) (order : Option PushOrder) (total : Int)
    (before : Option Nat) : Push where
  key := key
  room := key.2
  first := order
  phase := order
  next := 0
  total := total
  broken := false
  isPartial := state.claims.has key
  pending := .empty
  floors := .empty
  overflowed := false
  chain := before.bind fun push => (state.push push).chain
  timer := false
  ended := false
  settled := false

/-- The new push in the map. A paced push drops the claims kept for its peer. -/
def register (state : State Proc) (key : Key) (order : Option PushOrder) (total : Int)
    (before : Option Nat) : State Proc :=
  { state with
    push := Function.update state.push state.pushCount (newPush state key order total before)
    pushCount := state.pushCount + 1
    claims := if order ≠ none ∧ state.claims.has key then state.claims.delete key
      else state.claims
    pushes := state.pushes.set key state.pushCount }

def start (state : State Proc) (key : Key) (order : Option PushOrder) (total : Int)
    (before : Option Nat) (process : Proc) : Nat × State Proc :=
  let left := startOver state key before
  let (record, held) := room (register left key order total before) key.2
  (left.pushCount,
    note
      (updateRecord held record fun current =>
        { current with openPushes := current.openPushes ++ [left.pushCount] })
      (.opened left.pushCount key process))

/-- Head batches lead, "asc" follows; an older build marks none. -/
def fits (push : Push) (order : Option PushOrder) : Bool :=
  if push.first = none then decide (order = none)
  else if order = none then false
  else decide (push.phase = some .head) || decide (order = some .asc)

/-- The frame is the next one the push announced. -/
def continues (push : Push) (order : Option PushOrder) (place : Option (Int × Int)) : Bool :=
  match place with
  | some (index, total) =>
    decide (index = push.next) && decide (total = push.total) && fits push order
  | none => false

/-- The frame opens a push: none is open, or it is a batch 0. -/
def opens (state : State Proc) (key : Key) (place : Option (Int × Int)) : Bool :=
  (state.pushes.get key).isNone || place.any fun spot => decide (spot.1 = 0)

/-- The push a frame belongs to, opened here if need be. A push joined
part-way is broken from the start. -/
def pushFor (state : State Proc) (key : Key) (order : Option PushOrder)
    (place : Option (Int × Int)) (process : Proc) : Nat × State Proc :=
  match state.pushes.get key with
  | some current =>
    if opens state key place then
      start state key order ((place.map Prod.snd).getD 0) (some current) process
    else (current, state)
  | none =>
    let (push, opened) := start state key order ((place.map Prod.snd).getD 0) none process
    (push,
      if place.any fun spot => decide (spot.1 = 0) then opened
      else updatePush opened push fun record => { record with broken := true })

def takeFrame (order : Option PushOrder) (place : Option (Int × Int)) (push : Push) : Push :=
  { push with
    broken := push.broken || !continues push order place
    next := match place with
      | some (index, _) => index + 1
      | none => push.next
    phase := order }

def batch (state : State Proc) (peer : Peer) (name : Room) (frame : PushFrame)
    (process : Proc) : State Proc :=
  let order := frame.pushOrder
  let place := frame.place
  let (push, opened) := pushFor state (peer, name) order place process
  let taken := arm (updatePush opened push (takeFrame order place)) push
  let queued := enqueue (answered taken peer name none) push (.batch order process)
  if 0 < (queued.push push).total ∧ (queued.push push).total ≤ (queued.push push).next then
    finish queued push
  else queued

/-- The promise `complete` hands back, as the push whose `done` it awaits. -/
def complete (state : State Proc) (peer : Peer) (name : Room) : Option Nat × State Proc :=
  match state.pushes.get (peer, name) with
  | none => (state.finishing.get (peer, name), answered state peer name none)
  | some push =>
    (some push,
      answered
        (if (state.push push).broken then finish state push else arm state push)
        peer name none)

def withClaims (state : State Proc) (peer : Peer) (name : Room)
    (watermarks : OrderedMap Sender Int) : OrderedMap Sender Int :=
  match state.claims.get (peer, name) with
  | none => watermarks
  | some claims => claims.entries.foldl (fun marks claim => raiseBest marks claim.1 claim.2)
      watermarks

def reset (state : State Proc) : State Proc :=
  note
    { state with
      push := fun push =>
        if push ∈ state.pushes.values then
          { state.push push with timer := false, ended := true, settled := true }
        else state.push push
      waits := state.waits.filter fun wait =>
        !state.rooms.values.any fun record =>
          decide (wait.nonce ∈ (state.record record).expecting.values)
      pushes := .empty
      finishing := .empty
      rooms := .empty
      claims := .empty }
    .reset

/-- The floors a push keeps after one outcome, and whether it named more
senders than the push may keep floors for; the loop stops there. -/
def foldFloors (floors : OrderedMap Sender Int) :
    List (Sender × Int) → OrderedMap Sender Int × Bool
  | [] => (floors, false)
  | (sender, lamport) :: rest =>
    match floors.get sender with
    | none =>
      if maxFloorSenders ≤ floors.size then (floors, true)
      else foldFloors (floors.set sender lamport) rest
    | some floor =>
      foldFloors (if lamport < floor then floors.set sender lamport else floors) rest

def addPending (pending : OrderedMap Sender (List Int)) (row : HeldRow) :
    OrderedMap Sender (List Int) :=
  match pending.get row.senderId with
  | some lamports =>
    if row.lamport ∈ lamports then pending
    else pending.set row.senderId (lamports ++ [row.lamport])
  | none => pending.set row.senderId [row.lamport]

/-- Room for one more claim set: the oldest one goes when all are taken. -/
def evictClaims (claims : OrderedMap Key (OrderedMap Sender Int)) (key : Key) :
    OrderedMap Key (OrderedMap Sender Int) :=
  if claims.has key then claims
  else if maxClaimed ≤ claims.size then
    match claims.keys.head? with
    | some oldest => claims.delete oldest
    | none => claims
  else claims

def mergeClaim (claims : OrderedMap Sender Int) (entry : Sender × Int) : OrderedMap Sender Int :=
  match claims.get entry.1 with
  | none => if maxClaimSenders ≤ claims.size then claims else claims.set entry.1 entry.2
  | some lamport => if lamport < entry.2 then claims.set entry.1 entry.2 else claims

/-- Remember for this peer alone what its short push delivered. -/
def claim (state : State Proc) (push : Nat) : State Proc :=
  let record := state.push push
  let best := claimable (pendingEntries record.pending) record.floors
  if best.entries.isEmpty then state
  else
    let kept := evictClaims state.claims record.key
    { state with
      claims := kept.set record.key
        (best.entries.foldl mergeClaim ((kept.get record.key).getD .empty)) }

/-- The first half of `end`: the push is over, and an older build's short push
leaves its claims. -/
def closePush (state : State Proc) (push : Nat) (completed : Bool) : State Proc :=
  let past := note
    (unregister
      (updatePush state push fun record => { record with ended := true, timer := false }) push)
    (.ended push (state.push push).room completed)
  if (state.push push).first = none ∧ ¬completed then claim past push else past

/-- The second half of `end`: the push leaves its room's record. -/
def leaveRoom (state : State Proc) (push : Nat) (record : Nat) (completed : Bool) :
    State Proc :=
  note
    (updateRecord state record fun current =>
      { current with
        openPushes := current.openPushes.filter fun other => decide (other ≠ push)
        owed := !completed })
    (.owed push (state.push push).room (!completed))

/-- `end`, up to its await: the job goes on to await the release, or is over. -/
def endPush (state : State Proc) (job : Nat) (push : Nat) (completed : Bool) :
    State Proc :=
  if (state.push push).ended then setStage state job .done
  else
    let closed := closePush state push completed
    match closed.rooms.get (state.push push).room with
    | none => setStage (settleDone closed push) job .done
    | some record =>
      let left := leaveRoom closed push record completed
      if settles left (state.push push).room then
        setStage (settle left (state.push push).room (some push)) job .releasing
      else setStage (settleDone left push) job .done

/-- One turn of a commit loop: the next claim, or what follows the loop. -/
def commitNext (state : State Proc) (job : Nat) (push : Nat) :
    List (Sender × Int) → State Proc
  | (sender, lamport) :: rest =>
    setStage (note state (.commit push (state.push push).room sender lamport)) job
      (.committing rest)
  | [] =>
    match (state.job job).task with
    | .finish => endPush state job push true
    | _ => setStage state job .done

def breakPush (state : State Proc) (push : Nat) : State Proc :=
  updatePush state push fun record => { record with broken := true }

/-- `account`, up to its first await. -/
def account (state : State Proc) (job : Nat) (push : Nat) (order : Option PushOrder)
    (outcome : BatchOutcome) : State Proc :=
  let record := state.push push
  if record.overflowed then setStage state job .done
  else
    let floors := (foldFloors record.floors outcome.floors.entries).1
    if (foldFloors record.floors outcome.floors.entries).2 then
      setStage
        (updatePush state push fun current =>
          { current with
            floors := floors, overflowed := true, broken := true, pending := .empty })
        job .done
    else
      let floored := updatePush state push fun current => { current with floors := floors }
      let rows := outcome.held.filter validRow
      if order = some .asc then
        if record.broken ∨ record.isPartial then setStage floored job .done
        else
          commitNext floored job push
            (claimable (rows.map fun row => (row.senderId, row.lamport)) floors).entries
      else
        setStage
          (updatePush floored push fun current =>
            { current with pending := rows.foldl addPending current.pending })
          job .done

/-- A finished push claims at its end when every batch it announced came. -/
def wholePush (push : Push) : Bool :=
  !push.broken && !push.isPartial && decide (0 < push.total) && decide (push.next = push.total)

def startJob (state : State Proc) (job : Nat) : State Proc :=
  let push := (state.job job).push
  match (state.job job).task with
  | .batch _ _ => setStage state job .processing
  | .endShort => endPush state job push false
  | .finish =>
    if wholePush (state.push push) then
      commitNext state job push
        (claimable (pendingEntries (state.push push).pending) (state.push push).floors).entries
    else endPush state job push false

def processed (state : State Proc) (job : Nat) (result : Option BatchOutcome) : State Proc :=
  let push := (state.job job).push
  match (state.job job).task, result with
  | .batch order process, some outcome =>
    account (note state (.outcome push process outcome)) job push order outcome
  | _, _ => setStage (breakPush state push) job .done

def committed (state : State Proc) (job : Nat) (rest : List (Sender × Int)) (ok : Bool) :
    State Proc :=
  let push := (state.job job).push
  if ok then commitNext state job push rest
  else
    match (state.job job).task with
    | .finish => endPush state job push false
    | _ => setStage (breakPush state push) job .done

def ready (state : State Proc) (job : Nat) : Bool :=
  decide (job < state.jobCount) && decide ((state.job job).stage = .queued) &&
    match (state.job job).after with
    | some earlier => decide ((state.job earlier).stage = .done)
    | none => true

inductive Event (Proc : Type)
  | expect (peer : Peer) (room : Room)
  | answered (peer : Peer) (room : Room) (nonce : Option Nat)
  | batch (peer : Peer) (room : Room) (frame : PushFrame) (process : Proc)
  | complete (peer : Peer) (room : Room)
  | reset
  | expectTimer (wait : Wait)
  | stallTimer (push : Nat)
  | startJob (job : Nat)
  | processed (job : Nat) (result : Option BatchOutcome)
  | committed (job : Nat) (ok : Bool)
  | released (job : Nat)

def expectTimer (state : State Proc) (wait : Wait) : State Proc :=
  let fired := clearWait state wait.nonce
  if (fired.record wait.record).expecting.get wait.peer = some wait.nonce then
    endWait (note fired (.lapsed wait.peer wait.room wait.nonce)) wait.record wait.peer wait.room
  else fired

def stallTimer (state : State Proc) (push : Nat) : State Proc :=
  enqueue
    (unregister (updatePush state push fun record => { record with timer := false }) push)
    push .endShort

def step (state : State Proc) : Event Proc → Option (State Proc)
  | .expect peer room => some (expect state peer room).2
  | .answered peer room nonce => some (answered state peer room nonce)
  | .batch peer room frame process => some (batch state peer room frame process)
  | .complete peer room => some (complete state peer room).2
  | .reset => some (reset state)
  | .expectTimer wait => if wait ∈ state.waits then some (expectTimer state wait) else none
  | .stallTimer push =>
    if push < state.pushCount ∧ (state.push push).timer then some (stallTimer state push)
    else none
  | .startJob job => if ready state job then some (startJob state job) else none
  | .processed job result =>
    if (state.job job).stage = .processing then some (processed state job result) else none
  | .committed job ok =>
    match (state.job job).stage with
    | .committing rest => some (committed state job rest ok)
    | _ => none
  | .released job =>
    if (state.job job).stage = .releasing then
      some (setStage (settleDone state (state.job job).push) job .done)
    else none

end Operations

end AwfulChat.Inbound
