import AwfulChat.Library.Slices
import AwfulChat.Library.Totals
import Mathlib.Data.List.Dedup

/-!
# The rendezvous registry

`registry` of `main.go`: which streams are in which rooms. A membership is recorded in the
room, on the stream, in the total and with the stream's sources, and its budgets with the
peer. Every operation holds the registry's lock for all it does here; the frames it sends
once the lock is released are returned. A stream the registry has let go of is not kept.
-/

namespace AwfulChat.Relay

open Library

set_option autoImplicit false

def maxRoomsPerPeer : Nat := 1024
def maxTotalRegistrations : Nat := 200000
def maxStreamsPerPeer : Nat := 32
def maxEmptyRegisters : Nat := 128
def guaranteedRoomsPerPeer : Nat := 64
def maxPeersPerRoom : Nat := 512
def maxPeersPerFrame : Nat := 128
def maxJoinsPerPeer : Nat := 2 * maxRoomsPerPeer
def maxRoomsPerSource : Nat := 8 * maxRoomsPerPeer
def maxJoinsPerSource : Nat := 8 * maxJoinsPerPeer
def maxEmptyRegistersPerSource : Nat := 16 * maxEmptyRegisters
def ipv6AggregateFactor : Nat := 4

def minute : Int := 60000000000
def joinWindow : Int := minute
def emptyRegisterWindow : Int := minute

abbrev PeerId := String
abbrev Room := String
abbrev StreamId := Nat

inductive Address
  | v4 (value : Nat)
  | v6 (value : Nat)
  deriving DecidableEq

/-- What `clientBuckets` names: an address, a /64 or a /48. -/
inductive SourceKey
  | address (value : Nat)
  | net64 (value : Nat)
  | net48 (value : Nat)
  deriving DecidableEq

def clientBuckets : Address → SourceKey × Option SourceKey
  | .v4 value => (.address value, none)
  | .v6 value => (.net64 (value / 2 ^ 64), some (.net48 (value / 2 ^ 80)))

/-- The source buckets of a connection; an address of a proxy's class has none. -/
def sourceKeysFor (isProxyClassAddr : Address → Bool) : Option Address → List SourceKey
  | none => []
  | some addr =>
    if isProxyClassAddr addr then []
    else (clientBuckets addr).1 :: (clientBuckets addr).2.toList

structure OpBudget where
  limit : Nat
  window : Int
  left : Int
  windowStart : Int
  started : Bool
  deriving DecidableEq

def newOpBudget (limit : Nat) (window : Int) : OpBudget := ⟨limit, window, 0, 0, false⟩

/-- What `has` leaves behind. -/
def OpBudget.refill (budget : OpBudget) (now : Int) : OpBudget :=
  if budget.started = false ∨ budget.window ≤ now - budget.windowStart then
    { budget with started := true, windowStart := now, left := budget.limit }
  else budget

def OpBudget.spend (budget : OpBudget) : OpBudget := { budget with left := budget.left - 1 }

def hasAll (now : Int) : List OpBudget → Bool × List OpBudget
  | [] => (true, [])
  | budget :: rest =>
    let filled := budget.refill now
    if 0 < filled.left then
      let later := hasAll now rest
      (later.1, filled :: later.2)
    else (false, filled :: rest)

def allowAll (now : Int) (budgets : List OpBudget) : Bool × List OpBudget :=
  let found := hasAll now budgets
  if found.1 then (true, found.2.map OpBudget.spend) else found

structure ConnectedClient where
  peerId : PeerId
  sourceKeys : List SourceKey
  rooms : List Room
  deriving DecidableEq

structure SourceState where
  streams : Int
  held : Int
  maxHeld : Int
  joins : OpBudget
  empty : OpBudget
  deriving DecidableEq

structure Registry where
  rooms : OrderedMap Room (List StreamId)
  clients : OrderedMap PeerId (List StreamId)
  /-- The `connectedClient` that each live stream is. -/
  streams : OrderedMap StreamId ConnectedClient
  emptyRegisters : OrderedMap PeerId OpBudget
  joins : OrderedMap PeerId OpBudget
  sources : OrderedMap SourceKey SourceState
  total : Int
  opened : StreamId

def newRegistry : Registry :=
  ⟨OrderedMap.empty, OrderedMap.empty, OrderedMap.empty, OrderedMap.empty, OrderedMap.empty,
    OrderedMap.empty, 0, 0⟩

inductive ServerMsg
  | peers (room : Room) (ids : List PeerId)
  | peerJoined (room : Room) (peer : PeerId)
  | peerLeft (room : Room) (peer : PeerId)
  | registerFailed (room : Room)
  | pong
  deriving DecidableEq

inductive RegisterOutcome
  | registerJoined
  | registerCapped
  | registerOracleSilenced
  deriving DecidableEq

abbrev Sends := List (StreamId × ServerMsg)

namespace Registry

/-- A new source starts with its share and its budgets. -/
def newSource (factor : Nat) : SourceState :=
  ⟨0, 0, maxRoomsPerSource * factor, newOpBudget (maxJoinsPerSource * factor) joinWindow,
    newOpBudget (maxEmptyRegistersPerSource * factor) emptyRegisterWindow⟩

def attachSource (r : Registry) (key : SourceKey) (factor : Nat) : Registry :=
  let state := (r.sources.get key).getD (newSource factor)
  { r with sources := r.sources.set key { state with streams := state.streams + 1 } }

def detachSource (r : Registry) (key : SourceKey) : Registry :=
  match r.sources.get key with
  | none => r
  | some state =>
    if state.streams - 1 ≤ 0 then { r with sources := r.sources.delete key }
    else { r with sources := r.sources.set key { state with streams := state.streams - 1 } }

def streamsOf (r : Registry) (peerId : PeerId) : List StreamId := (r.clients.get peerId).getD []

/-- The first key is attached once, the aggregate `ipv6AggregateFactor` times as large. -/
def attachSources (r : Registry) : List SourceKey → Registry
  | [] => r
  | own :: aggregates =>
    aggregates.foldl (fun r key => r.attachSource key ipv6AggregateFactor) (r.attachSource own 1)

def addStreamFrom (r : Registry) (peerId : PeerId) (sourceKeys : List SourceKey) :
    Registry × Option StreamId :=
  if maxStreamsPerPeer ≤ (r.streamsOf peerId).length then (r, none)
  else
    let c := r.opened
    let added : Registry := { r with
      emptyRegisters := if r.emptyRegisters.has peerId then r.emptyRegisters
        else r.emptyRegisters.set peerId (newOpBudget maxEmptyRegisters emptyRegisterWindow)
      joins := if r.joins.has peerId then r.joins
        else r.joins.set peerId (newOpBudget maxJoinsPerPeer joinWindow)
      clients := r.clients.set peerId (r.streamsOf peerId ++ [c])
      streams := r.streams.set c ⟨peerId, sourceKeys, []⟩
      opened := c + 1 }
    (added.attachSources sourceKeys, some c)

def isLive (r : Registry) (c : StreamId) : Bool :=
  match r.streams.get c with
  | none => false
  | some client => decide (c ∈ r.streamsOf client.peerId)

def peerOf (r : Registry) (c : StreamId) : PeerId :=
  ((r.streams.get c).map ConnectedClient.peerId).getD ""

def roomsOf (r : Registry) (c : StreamId) : List Room :=
  ((r.streams.get c).map ConnectedClient.rooms).getD []

def membersOf (r : Registry) (room : Room) : List StreamId := (r.rooms.get room).getD []

def roomsHeldByPeer (r : Registry) (peerId : PeerId) : Nat :=
  ((r.streamsOf peerId).map fun c => (r.roomsOf c).length).sum

def peerInRoom (r : Registry) (members : List StreamId) (peerId : PeerId) : Bool :=
  members.any fun m => decide (r.peerOf m = peerId)

/-- The distinct peers among these streams. -/
def peersAmong (r : Registry) (members : List StreamId) : List PeerId :=
  (members.map r.peerOf).dedup

def peersExcept (r : Registry) (members : List StreamId) (excludePeer : PeerId) : List PeerId :=
  r.peersAmong (members.filter fun m => decide (r.peerOf m ≠ excludePeer))

def distinctPeersAtLeast (r : Registry) (members : List StreamId) (n : Nat) : Bool :=
  decide (n ≤ (r.peersAmong members).length)

/-- The frames of `sendPeers`: no peers are one frame too. -/
def peerFrames (others : List PeerId) : List (List PeerId) :=
  (List.range (sliceCount others.length maxPeersPerFrame)).map (sliceAt others maxPeersPerFrame)

def sendPeers (c : StreamId) (room : Room) (others : List PeerId) : Sends :=
  (peerFrames others).map fun ids => (c, .peers room ids)

def addHeld (r : Registry) (amount : Int) (keys : List SourceKey) : Registry :=
  { r with sources := keys.foldl (fun sources key =>
      match sources.get key with
      | none => sources
      | some state => sources.set key { state with held := state.held + amount }) r.sources }

/-- The sources of a stream that have a state. -/
def sourceStates (r : Registry) (keys : List SourceKey) : List (SourceKey × SourceState) :=
  keys.filterMap fun key => (r.sources.get key).map fun state => (key, state)

def writeSources (sources : OrderedMap SourceKey SourceState) (states : List (SourceKey × SourceState))
    (budgets : List OpBudget) (write : SourceState → OpBudget → SourceState) :
    OrderedMap SourceKey SourceState :=
  (states.zip budgets).foldl (fun sources entry =>
    sources.set entry.1.1 (write entry.1.2 entry.2)) sources

/-- Charges every new membership, to the peer and to its sources. -/
def chargeJoin (r : Registry) (client : ConnectedClient) (now : Int) : Bool × Registry :=
  let states := r.sourceStates client.sourceKeys
  let own := (r.joins.get client.peerId).getD (newOpBudget maxJoinsPerPeer joinWindow)
  let charged := allowAll now (own :: states.map fun entry => entry.2.joins)
  (charged.1, { r with
    joins := r.joins.set client.peerId (charged.2.headD own)
    sources := writeSources r.sources states charged.2.tail
      fun state budget => { state with joins := budget } })

/-- Charges a membership of an empty room on top. -/
def chargeEmpty (r : Registry) (client : ConnectedClient) (now : Int) : Bool × Registry :=
  let states := r.sourceStates client.sourceKeys
  let own := (r.emptyRegisters.get client.peerId).getD
    (newOpBudget maxEmptyRegisters emptyRegisterWindow)
  let charged := allowAll now (own :: states.map fun entry => entry.2.empty)
  (charged.1, { r with
    emptyRegisters := r.emptyRegisters.set client.peerId (charged.2.headD own)
    sources := writeSources r.sources states charged.2.tail
      fun state budget => { state with empty := budget } })

/-- The refusals that come before any budget is charged. -/
def capped (r : Registry) (client : ConnectedClient) (room : Room) : Bool :=
  let held := r.roomsHeldByPeer client.peerId
  let members := r.membersOf room
  (decide ((maxTotalRegistrations : Int) ≤ r.total) && decide (guaranteedRoomsPerPeer ≤ held)) ||
    decide (maxRoomsPerPeer ≤ held) ||
    (r.sourceStates client.sourceKeys).any (fun entry => decide (entry.2.maxHeld ≤ entry.2.held)) ||
    (!r.peerInRoom members client.peerId && r.distinctPeersAtLeast members maxPeersPerRoom)

def join (r : Registry) (c : StreamId) (client : ConnectedClient) (room : Room) : Registry :=
  { r with
    rooms := r.rooms.set room (r.membersOf room ++ [c])
    streams := r.streams.set c { client with rooms := client.rooms ++ [room] }
    total := r.total + 1 }.addHeld 1 client.sourceKeys

def register (r : Registry) (c : StreamId) (room : Room) (now : Int) :
    Registry × RegisterOutcome × Sends :=
  match r.streams.get c with
  | none => (r, .registerJoined, [])
  | some client =>
    if r.isLive c = false then (r, .registerJoined, [])
    else if room ∈ client.rooms then
      (r, .registerJoined, sendPeers c room (r.peersExcept (r.membersOf room) client.peerId))
    else if r.capped client room then (r, .registerCapped, [])
    else
      let joined := r.chargeJoin client now
      if joined.1 = false then (joined.2, .registerCapped, [])
      else
        let members := r.membersOf room
        let charged := if members = [] then joined.2.chargeEmpty client now else (true, joined.2)
        if charged.1 = false then (charged.2, .registerOracleSilenced, [])
        else
          let others := r.peersExcept members client.peerId
          let announce := !r.peerInRoom members client.peerId
          let targets := members.filter fun m => decide (r.peerOf m ≠ client.peerId)
          (charged.2.join c client room, .registerJoined,
            sendPeers c room others ++
              if announce then targets.map fun m => (m, .peerJoined room client.peerId) else [])

def leave (r : Registry) (c : StreamId) (client : ConnectedClient) (room : Room) : Registry :=
  let left := (r.membersOf room).erase c
  { r with
    rooms := if left = [] then r.rooms.delete room else r.rooms.set room left
    streams := r.streams.set c { client with rooms := client.rooms.erase room }
    total := r.total - 1 }.addHeld (-1) client.sourceKeys

/-- The streams to tell that the peer has left, if it has. -/
def doUnregister (r : Registry) (c : StreamId) (room : Room) : Registry × List StreamId :=
  match r.streams.get c, r.rooms.get room with
  | some client, some members =>
    if c ∉ members then (r, [])
    else
      let left := members.erase c
      (r.leave c client room,
        if left = [] then [] else if r.peerInRoom left client.peerId then [] else left)
  | _, _ => (r, [])

def unregister (r : Registry) (c : StreamId) (room : Room) : Registry × Sends :=
  if r.isLive c = false then (r, [])
  else
    let left := r.doUnregister c room
    (left.1, left.2.map fun m => (m, .peerLeft room (r.peerOf c)))

/-- Takes a stream out of every room it joined. -/
def leaveRooms (r : Registry) (c : StreamId) : List Room → Registry × Sends
  | [] => (r, [])
  | room :: rest =>
    let left := r.doUnregister c room
    let later := left.1.leaveRooms c rest
    (later.1, left.2.map (fun m => (m, .peerLeft room (r.peerOf c))) ++ later.2)

/-- A stream that is in no room is let go; the budgets outlive every stream but the last. -/
def forget (r : Registry) (c : StreamId) (client : ConnectedClient) : Registry :=
  let streams := (r.streamsOf client.peerId).erase c
  let detached := client.sourceKeys.foldl detachSource r
  let gone : Registry := { detached with streams := detached.streams.delete c }
  if streams = [] then
    { gone with
      clients := gone.clients.delete client.peerId
      emptyRegisters := gone.emptyRegisters.delete client.peerId
      joins := gone.joins.delete client.peerId }
  else { gone with clients := gone.clients.set client.peerId streams }

def evict (r : Registry) (c : StreamId) : Registry × Sends :=
  match r.streams.get c with
  | none => (r, [])
  | some client =>
    let out := r.leaveRooms c client.rooms
    (out.1.forget c client, out.2)

def removeClient (r : Registry) (c : StreamId) : Registry × Sends :=
  if r.isLive c then r.evict c else (r, [])

def evictAll (r : Registry) : List StreamId → Registry × Sends
  | [] => (r, [])
  | c :: rest =>
    let out := r.evict c
    let later := out.1.evictAll rest
    (later.1, out.2 ++ later.2)

def disconnectPeer (r : Registry) (peerId : PeerId) : Registry × Sends :=
  r.evictAll (r.streamsOf peerId)

end Registry

/-- One call of the registry. -/
inductive RegistryCall
  | addStreamFrom (peerId : PeerId) (addr : Option Address)
  | register (c : StreamId) (room : Room) (now : Int)
  | unregister (c : StreamId) (room : Room)
  | removeClient (c : StreamId)
  | disconnectPeer (peerId : PeerId)
  deriving DecidableEq

def Registry.step (isProxyClassAddr : Address → Bool) (r : Registry) : RegistryCall → Option Registry
  | .addStreamFrom peerId addr =>
    some (r.addStreamFrom peerId (sourceKeysFor isProxyClassAddr addr)).1
  | .register c room now => some (r.register c room now).1
  | .unregister c room => some (r.unregister c room).1
  | .removeClient c => some (r.removeClient c).1
  | .disconnectPeer peerId => some (r.disconnectPeer peerId).1

end AwfulChat.Relay
