import AwfulChat.Library.LockManager
import AwfulChat.Library.Runs

/-!
# One seat per profile

`node-lock.ts` in any number of tabs over one Lock Manager, which is there and refuses nothing.
A tab's events are its three calls, the end of a claim's grace period, a notice or a channel
message reaching it, the end of an `onRelease` that a channel message started, and its death.
What runs in one callback and the promise reactions right behind it is one step.
-/

namespace AwfulChat.NodeLock

open Library
open Library.LockManager

set_option autoImplicit false

abbrev TabId := Nat

/-- The variables of the module in one tab, and what is on its way to it besides notices. -/
structure Tab where
  held : Bool
  acquiring : Bool
  releaseHold : Option (Lock TabId)
  queuedAbort : Option (Request TabId)
  dropQueued : Bool
  channel : Bool
  events : Bool
  /-- Claims whose grace period runs. -/
  claims : Nat
  /-- Release messages the channel has still to deliver. -/
  asks : Nat
  /-- The unfinished `onRelease` calls of the channel, by the seat each is to give up. -/
  teardowns : List (Option (Lock TabId))
  closed : Bool
  /-- Requests the tab aborted before their callback ran. -/
  withdrawn : List (Request TabId)
  /-- For the statements only: the seats `onRelease` was called for, the seat each finished
  teardown was for with the one it released, and whether `releaseNodeLock` was the last call. -/
  torn : List (Lock TabId)
  ends : List (Option (Lock TabId) × Option (Lock TabId))
  released : Bool

def Tab.fresh : Tab :=
  ⟨false, false, none, none, false, false, false, 0, 0, [], false, [], [], [], false⟩

def Tab.holdsNodeLock (tab : Tab) : Bool := tab.held

structure State where
  locks : LockManager TabId
  serial : Nat
  tabs : TabId → Tab

namespace State

def start : State := ⟨LockManager.fresh, 0, fun _ => Tab.fresh⟩

def setTab (state : State) (id : TabId) (tab : Tab) : State :=
  { state with tabs := Function.update state.tabs id tab }

/-- The lock callback. -/
def grant (tab : Tab) (lock : Lock TabId) : Tab :=
  { tab with held := true, acquiring := false, releaseHold := some lock }

def acquireNodeLock (state : State) (id : TabId) : State :=
  let tab := { state.tabs id with events := true, released := false }
  if tab.held || tab.acquiring then state.setTab id tab
  else
    State.setTab { state with
      locks := state.locks.ifAvailable ⟨id, state.serial, false⟩
      serial := state.serial + 1 } id { tab with channel := true, acquiring := true }

def releaseNodeLock (state : State) (id : TabId) : State :=
  let tab := state.tabs id
  State.setTab { state with locks := state.locks.releaseAny tab.releaseHold } id
    { tab with held := false, releaseHold := none, released := true }

/-- The channel hands a message to every other tab that listens. -/
def postRelease (state : State) (id : TabId) : State :=
  { state with
    tabs := fun other =>
      if other ≠ id && (state.tabs other).channel then
        { state.tabs other with asks := (state.tabs other).asks + 1 }
      else state.tabs other }

def claimNodeLock (state : State) (id : TabId) : State :=
  let tab := { state.tabs id with released := false }
  if tab.held then state.setTab id tab
  else
    let posted := if tab.channel then state.postRelease id else state
    posted.setTab id { tab with claims := tab.claims + 1 }

/-- `STEAL_AFTER_MS` after a claim. -/
def stealAfter (state : State) (id : TabId) : State :=
  let tab := { state.tabs id with claims := (state.tabs id).claims - 1 }
  if tab.held then state.setTab id tab
  else
    State.setTab { state with
      locks := state.locks.steal ⟨id, state.serial, true⟩
      serial := state.serial + 1 } id tab

/-- The callback of a steal drops the queued request; aborting one that was granted before
does nothing, and the flag waits for the next `AbortError`. -/
def grantStolen (locks : LockManager TabId) (tab : Tab) (lock : Lock TabId) :
    LockManager TabId × Tab :=
  match tab.queuedAbort with
  | none => (locks, grant tab lock)
  | some queued =>
    if locks.Pending queued then
      (locks.withdraw queued,
        grant { tab with
          dropQueued := false, queuedAbort := none, withdrawn := queued :: tab.withdrawn } lock)
    else (locks, grant { tab with dropQueued := true, queuedAbort := none } lock)

/-- What a tab does with a notice; the serial is for a request it makes. -/
def hear (locks : LockManager TabId) (serial : Nat) (id : TabId) (tab : Tab) :
    Notice TabId → LockManager TabId × Tab
  | .granted lock =>
    if lock.request ∈ tab.withdrawn then (locks.release lock, tab)
    else if lock.request.steal then grantStolen locks tab lock
    else (locks, grant tab lock)
  | .unavailable _ =>
    (locks.enqueue ⟨id, serial, false⟩, { tab with queuedAbort := some ⟨id, serial, false⟩ })
  | .aborted lock =>
    if lock.request ∈ tab.withdrawn then (locks, tab)
    else if !lock.request.steal && tab.dropQueued then (locks, { tab with dropQueued := false })
    else if tab.held then
      (locks, { tab with
        held := false
        releaseHold := none
        torn := if !lock.request.steal || tab.events then lock :: tab.torn else tab.torn })
    else (locks, tab)

def deliver (state : State) (id : TabId) : Option State :=
  match state.locks.read id with
  | none => none
  | some (notice, locks) =>
    let heard := hear locks state.serial id (state.tabs id) notice
    some (State.setTab { state with locks := heard.1, serial := state.serial + 1 } id heard.2)

def onmessage (state : State) (id : TabId) : State :=
  let tab := { state.tabs id with asks := (state.tabs id).asks - 1 }
  if tab.held && tab.events then
    state.setTab id { tab with
      held := false
      teardowns := tab.releaseHold :: tab.teardowns
      torn := tab.releaseHold.toList ++ tab.torn }
  else state.setTab id tab

/-- The `finally` of one `onRelease`. -/
def settled (state : State) (id : TabId) (seat : Option (Lock TabId)) : State :=
  let tab := state.tabs id
  State.setTab { state with locks := state.locks.releaseAny tab.releaseHold } id
    { tab with
      releaseHold := none
      teardowns := tab.teardowns.erase seat
      ends := (seat, tab.releaseHold) :: tab.ends }

def die (state : State) (id : TabId) : State :=
  State.setTab { state with locks := state.locks.leave id } id { Tab.fresh with closed := true }

end State

inductive Event
  | acquireNodeLock (tab : TabId)
  | releaseNodeLock (tab : TabId)
  | claimNodeLock (tab : TabId)
  | stealAfter (tab : TabId)
  | deliver (tab : TabId)
  | onmessage (tab : TabId)
  | settled (tab : TabId) (seat : Option (Lock TabId))
  | die (tab : TabId)

def Event.tab : Event → TabId
  | .acquireNodeLock tab => tab
  | .releaseNodeLock tab => tab
  | .claimNodeLock tab => tab
  | .stealAfter tab => tab
  | .deliver tab => tab
  | .onmessage tab => tab
  | .settled tab _ => tab
  | .die tab => tab

def react (state : State) : Event → Option State
  | .acquireNodeLock id => some (state.acquireNodeLock id)
  | .releaseNodeLock id => some (state.releaseNodeLock id)
  | .claimNodeLock id => some (state.claimNodeLock id)
  | .stealAfter id => if 0 < (state.tabs id).claims then some (state.stealAfter id) else none
  | .deliver id => state.deliver id
  | .onmessage id => if 0 < (state.tabs id).asks then some (state.onmessage id) else none
  | .settled id seat =>
    if seat ∈ (state.tabs id).teardowns then some (state.settled id seat) else none
  | .die id => some (state.die id)

/-- A closed tab does nothing any more. -/
def step (state : State) (event : Event) : Option State :=
  if (state.tabs event.tab).closed then none else react state event

/-- A seat is reported only while it stands or its theft is still untold, a released tab stays
without one, a teardown ends no later grant, and a theft that was told had `onRelease` called. -/
structure OneSeat (state : State) : Prop where
  held : ∀ id, (state.tabs id).holdsNodeLock = true →
    ∃ lock, (state.tabs id).releaseHold = some lock ∧ lock.request.owner = id ∧
      (state.locks.holder = some lock ∨ .aborted lock ∈ state.locks.notices id)
  released : ∀ id, (state.tabs id).released = true →
    (state.tabs id).holdsNodeLock = false ∧ state.locks.seatOf id = none
  ends : ∀ id, ∀ finish ∈ (state.tabs id).ends, finish.2 = none ∨ finish.2 = finish.1
  stolen : ∀ id, (state.tabs id).closed = false → ∀ lock ∈ state.locks.stolen,
    lock.request.owner = id → lock ∈ (state.tabs id).torn ∨
      .aborted lock ∈ state.locks.notices id ∨ lock.request ∈ (state.tabs id).withdrawn

/-- A tab releases the seat with nothing of its own under way, claims it only once it has
acquired before, and reads a grant with no teardown unfinished and, when it stole the seat,
with its last queued request either still open or none. -/
def Orderly (state : State) : Event → Prop
  | .releaseNodeLock id => state.locks.notices id = [] ∧ (state.tabs id).claims = 0 ∧
      ∀ request ∈ state.locks.queue, request.owner ≠ id
  | .claimNodeLock id => (state.tabs id).events = true
  | .deliver id =>
    match state.locks.read id with
    | some (.granted lock, rest) =>
      lock.request ∉ (state.tabs id).withdrawn → (state.tabs id).teardowns = [] ∧
        (lock.request.steal = true →
          ∀ queued ∈ (state.tabs id).queuedAbort, rest.Pending queued)
    | _ => True
  | _ => True

end AwfulChat.NodeLock
