import AwfulChat.Sfu.Media

/-!
# The SFU as one system

Slots, routers, media and the frames sent on each socket. A frame runs to its first await, and the
call it then waits for is answered by a later event; the frames of one socket come one after the
other. What the refusal of a frame at a ceiling of the worker does to the socket is a step of its
own.
-/

namespace AwfulChat.Sfu

open Library

set_option autoImplicit false

/-- The frames that say which producers a room has. -/
inductive Frame
  | joined
  | resumed (producers : List (PeerId × ProducerId × Source))
  | newProducer (peerId : PeerId) (producerId : ProducerId) (source : Source)
  | producerClosed (peerId : PeerId) (producerId : ProducerId) (source : Source)
  | peerLeft (peerId : PeerId)
  deriving DecidableEq

inductive Message
  | createTransport (direction : Direction)
  | connectTransport (direction : Direction)
  | produce (source : Source)
  | consume (producerId : ProducerId)
  | closeConsumer (producerId : ProducerId)
  | closeProducer (producerId : ProducerId)
  deriving DecidableEq

structure State where
  slots : Slots
  routers : Routers
  media : Media
  wire : SocketId → List Frame

namespace State

def start : State := ⟨Slots.start, Routers.start, Media.start, fun _ => []⟩

def peer (state : State) (id : SessionId) : Peer := state.media.peers id

def setPeer (state : State) (id : SessionId) (peer : Peer) : State :=
  { state with media := state.media.setPeer id peer }

def isOpen (state : State) (ws : SocketId) : Bool :=
  decide ((state.slots.sockets ws).ready = .isOpen)

/-- A socket of the room's sessions other than those of the peer, which `send` does not skip. -/
def hears (state : State) (roomCode : RoomCode) (peerId : PeerId) (ws : SocketId) : Bool :=
  state.isOpen ws && (state.slots.room roomCode).any fun other =>
    decide ((state.slots.sessions other).peerId ≠ peerId ∧ (state.slots.sessions other).ws = ws)

/-- `send` to every other session of the room a session belongs to. -/
def tellOthers (state : State) (id : SessionId) (frames : List Frame) : State :=
  let session := state.slots.sessions id
  { state with wire := fun ws =>
      if state.hears session.roomCode session.peerId ws then state.wire ws ++ frames
      else state.wire ws }

def tell (state : State) (ws : SocketId) (frames : List Frame) : State :=
  { state with wire := fun other =>
      if other = ws ∧ state.isOpen ws then state.wire other ++ frames else state.wire other }

def roomProducers (state : State) (roomCode : RoomCode) (exceptPeerId : PeerId) :
    List (PeerId × ProducerId × Source) :=
  ((state.slots.room roomCode).filter fun other =>
      decide ((state.slots.sessions other).peerId ≠ exceptPeerId)).flatMap fun other =>
    (state.peer other).producers.entries.map fun entry =>
      ((state.slots.sessions other).peerId, entry.1, entry.2.source)

def closeTransports (state : State) (hit : TransportId → Bool) : State :=
  let media := state.media
  let ended := (List.range media.nextProducer).filter (media.ends hit)
  { state with
    media := media.closeTransports hit
    wire := fun ws =>
      let heard := ended.filter fun producerId =>
        let session := state.slots.sessions (media.producers producerId).session
        state.hears session.roomCode session.peerId ws
      state.wire ws ++ heard.map fun producerId =>
        let producer := media.producers producerId
        .producerClosed (state.slots.sessions producer.session).peerId producerId
          producer.source }

def endMedia (state : State) (id : SessionId) : State :=
  let held := { state with media := state.media.closeHeld id }
  let closed := held.closeTransports (state.media.isOf id)
  { closed with media := closed.media.clearReapTimers id }

/-- A session of the same peer takes the place of a dead one. -/
def replace (state : State) (old : SessionId) : State :=
  let told := state.tellOthers old ((state.peer old).producers.entries.map fun entry =>
    .producerClosed (state.slots.sessions old).peerId entry.1 entry.2.source)
  told.endMedia old

def greet (state : State) (id : SessionId) : State :=
  let made := state.setPeer id Peer.fresh
  let session := state.slots.sessions id
  made.tell session.ws (.joined ::
    (made.roomProducers session.roomCode session.peerId).map fun (peerId, producerId, source) =>
      .newProducer peerId producerId source)

def resume (state : State) (id : SessionId) : State :=
  let session := state.slots.sessions id
  state.tell session.ws [.resumed (state.roomProducers session.roomCode session.peerId)]

def forgetViewer (peerId : PeerId) (producers : OrderedMap ProducerId ProducerEntry) :
    OrderedMap ProducerId ProducerEntry :=
  producers.mapValues fun entry =>
    { entry with consumers := entry.consumers.filter fun viewer => decide (viewer ≠ peerId) }

def handlePeerLeft (state : State) (id : SessionId) : State :=
  let session := state.slots.sessions id
  let ended := state.endMedia id
  let peers : SessionId → Peer := fun other =>
    let peer := ended.media.peers other
    if other = id then
      { peer with producers := OrderedMap.empty, consumers := OrderedMap.empty }
    else if other ∈ state.slots.room session.roomCode then
      { peer with producers := forgetViewer session.peerId peer.producers }
    else peer
  let cleared := { ended with media := { ended.media with peers := peers } }
  let told := cleared.tellOthers id [.peerLeft session.peerId]
  if (state.slots.room session.roomCode).isEmpty then
    { told with routers := told.routers.emptied session.roomCode }
  else told

/-- What a change of the rooms does to media, routers and the sockets that are told. -/
def changed (state : State) (slots : Slots) : Change → State
  | .none => { state with slots := slots }
  | .entered new none => { state with slots := slots }.greet new
  | .entered new (some old) => ({ state with slots := slots }.replace old).greet new
  | .resumed id => { state with slots := slots }.resume id
  | .left id => { state with slots := slots }.handlePeerLeft id

/-- The transport of a session that reached its end, if it is still the session's. -/
def reapTransport (state : State) (id : SessionId) (direction : Direction)
    (transport : TransportId) : State :=
  let peer := state.peer id
  if peer.transport direction ≠ some transport then state
  else
    let dropped := state.setPeer id { peer with
      transportReapTimers := Function.update peer.transportReapTimers direction none
      transport := Function.update peer.transport direction none
      connectedTransports := Function.update peer.connectedTransports direction false }
    dropped.closeTransports fun other => decide (other = transport)

def handleCreateTransport (config : Config) (state : State) (ws : SocketId) (id : SessionId)
    (direction : Direction) : State :=
  let peer := state.peer id
  if peer.transportsInFlight direction then state
  else
    match state.routers.getOrCreateRouter config (state.slots.sessions id).roomCode with
    | none => state
    | some (routers, router) =>
      let flagged := state.setPeer id { peer with
        transportsInFlight := Function.update peer.transportsInFlight direction true }
      { flagged with
        routers := routers
        media := flagged.media.await ws id (.routerForTransport direction router) }

def handleConnectTransport (state : State) (ws : SocketId) (id : SessionId)
    (direction : Direction) : State :=
  let peer := state.peer id
  if peer.connectedTransports direction then state
  else
    match peer.transport direction with
    | none => state
    | some transport => { state with media := state.media.await ws id (.connecting direction transport) }

def handleProduce (state : State) (ws : SocketId) (id : SessionId) (source : Source) : State :=
  let peer := state.peer id
  match peer.transport .send with
  | none => state
  | some transport =>
    if MAX_PRODUCERS_PER_PEER ≤ peer.producers.size + peer.producersInFlight then state
    else if MAX_CUMULATIVE_PRODUCES_PER_SESSION ≤ peer.cumulativeProduces then state
    else
      let charged := state.setPeer id { peer with
        cumulativeProduces := peer.cumulativeProduces + 1
        producersInFlight := peer.producersInFlight + 1 }
      { charged with media := charged.media.await ws id (.producing transport source) }

/-- The consumer a session has of a producer, if its two maps both know it. -/
def existingConsumer (peer : Peer) (producerId : ProducerId) : Option ConsumerId :=
  (peer.consumersByProducerId.get producerId).filter fun consumerId =>
    peer.consumers.has consumerId

def handleConsume (config : Config) (state : State) (ws : SocketId) (id : SessionId)
    (producerId : ProducerId) : State :=
  let peer := state.peer id
  if peer.transport .recv = none then state
  else if (existingConsumer peer producerId).isSome then state
  else if MAX_CONSUMERS_PER_PEER ≤ peer.consumers.size + peer.consumersInFlight then state
  else
    match state.routers.getOrCreateRouter config (state.slots.sessions id).roomCode with
    | none => state
    | some (routers, router) =>
      let charged := state.setPeer id { peer with
        consumersInFlight := peer.consumersInFlight + 1 }
      { charged with
        routers := routers
        media := charged.media.await ws id (.routerForConsume producerId router) }

/-- The session of the room that holds a producer. -/
def owner (state : State) (roomCode : RoomCode) (producerId : ProducerId) : Option SessionId :=
  (state.slots.room roomCode).find? fun other => (state.peer other).producers.has producerId

def setViewers (state : State) (owner : SessionId) (producerId : ProducerId)
    (viewers : List PeerId → List PeerId) : State :=
  let peer := state.peer owner
  match peer.producers.get producerId with
  | none => state
  | some entry =>
    state.setPeer owner { peer with
      producers := peer.producers.set producerId
        { entry with consumers := viewers entry.consumers } }

def isScreen (state : State) (owner : SessionId) (producerId : ProducerId) : Bool :=
  (state.peer owner).producers.get producerId |>.any fun entry => decide (entry.source = .screen)

def handleCloseConsumer (state : State) (id : SessionId) (producerId : ProducerId) : State :=
  let session := state.slots.sessions id
  let peer := state.peer id
  match peer.consumersByProducerId.get producerId with
  | none => state
  | some consumerId =>
    if peer.consumers.has consumerId then
      let unseen :=
        match state.owner session.roomCode producerId with
        | none => state
        | some owner =>
          if state.isScreen owner producerId then
            state.setViewers owner producerId fun viewers =>
              viewers.filter fun viewer => decide (viewer ≠ session.peerId)
          else state
      let consumer := unseen.media.consumers consumerId
      let closed := { unseen with media := { unseen.media with
        consumers := Function.update unseen.media.consumers consumerId
          { consumer with isOpen := false } } }
      let rest := closed.peer id
      closed.setPeer id { rest with
        consumers := rest.consumers.delete consumerId
        consumersByProducerId := rest.consumersByProducerId.delete producerId }
    else
      state.setPeer id { peer with
        consumersByProducerId := peer.consumersByProducerId.delete producerId }

def handleCloseProducer (state : State) (id : SessionId) (producerId : ProducerId) : State :=
  let peer := state.peer id
  match peer.producers.get producerId with
  | none => state
  | some entry =>
    let producer := state.media.producers producerId
    let closed := { state with media := { state.media with
      producers := Function.update state.media.producers producerId
        { producer with isOpen := false } } }
    let removed := closed.setPeer id { peer with
      producers := peer.producers.delete producerId }
    removed.tellOthers id
      [.producerClosed (state.slots.sessions id).peerId producerId entry.source]

def handleFrame (config : Config) (state : State) (ws : SocketId) (id : SessionId) :
    Message → State
  | .createTransport direction => state.handleCreateTransport config ws id direction
  | .connectTransport direction => state.handleConnectTransport ws id direction
  | .produce source => state.handleProduce ws id source
  | .consume producerId => state.handleConsume config ws id producerId
  | .closeConsumer producerId => state.handleCloseConsumer id producerId
  | .closeProducer producerId => state.handleCloseProducer id producerId

/-- What the `finally` of a creation does. -/
def landTransport (state : State) (id : SessionId) (direction : Direction) : State :=
  let peer := state.peer id
  state.setPeer id { peer with
    transportsInFlight := Function.update peer.transportsInFlight direction false }

def transportMade (config : Config) (state : State) (id : SessionId) (direction : Direction)
    (router : RouterId) : State :=
  let landed := state.landTransport id direction
  let transport := state.media.nextTransport
  let stays := decide (id ∈ state.slots.members)
  let made := { landed with media := { landed.media with
    transports := Function.update landed.media.transports transport
      ⟨id, direction, router, stays && !(state.routers.made router).closed, false⟩
    nextTransport := transport + 1 } }
  if stays then
    let dropped :=
      match (made.peer id).transport direction with
      | none => made
      | some previous =>
        let closed := made.closeTransports fun other => decide (other = previous)
        let peer := closed.peer id
        closed.setPeer id { peer with
          connectedTransports := Function.update peer.connectedTransports direction false
          transportReapTimers := Function.update peer.transportReapTimers direction none }
    let peer := dropped.peer id
    dropped.setPeer id { peer with
      transport := Function.update peer.transport direction (some transport)
      transportReapTimers :=
        if 0 < config.TRANSPORT_CONNECT_TIMEOUT_MS then
          Function.update peer.transportReapTimers direction (some transport)
        else peer.transportReapTimers }
  else made

def transportConnected (state : State) (id : SessionId) (direction : Direction)
    (transport : TransportId) : State :=
  let proven := { state with media := { state.media with
    transports := Function.update state.media.transports transport
      { state.media.transports transport with connected := true } } }
  let peer := proven.peer id
  proven.setPeer id { peer with
    connectedTransports := Function.update peer.connectedTransports direction true
    transportReapTimers := Function.update peer.transportReapTimers direction none }

def landProduce (state : State) (id : SessionId) : State :=
  let peer := state.peer id
  state.setPeer id { peer with producersInFlight := peer.producersInFlight - 1 }

def produced (state : State) (id : SessionId) (transport : TransportId) (source : Source) :
    State :=
  let landed := state.landProduce id
  let producerId := state.media.nextProducer
  let stays := decide (id ∈ state.slots.members)
  let made := { landed with media := { landed.media with
    producers := Function.update landed.media.producers producerId
      ⟨id, transport, source, stays && (state.media.transports transport).isOpen⟩
    nextProducer := producerId + 1 } }
  if stays then
    let peer := made.peer id
    let recorded := made.setPeer id { peer with
      producers := peer.producers.set producerId ⟨source, []⟩ }
    recorded.tellOthers id [.newProducer (state.slots.sessions id).peerId producerId source]
  else made

def landConsume (state : State) (id : SessionId) : State :=
  let peer := state.peer id
  state.setPeer id { peer with consumersInFlight := peer.consumersInFlight - 1 }

def canConsume (state : State) (router : RouterId) (producerId : ProducerId) : Bool :=
  let producer := state.media.producers producerId
  producer.isOpen && decide ((state.media.transports producer.transport).router = router)

def addViewer (peerId : PeerId) (viewers : List PeerId) : List PeerId :=
  if peerId ∈ viewers then viewers else viewers ++ [peerId]

def consumed (state : State) (id : SessionId) (transport : TransportId)
    (producerId : ProducerId) : State :=
  let landed := state.landConsume id
  let consumerId := state.media.nextConsumer
  let stays := decide (id ∈ state.slots.members)
  let made := { landed with media := { landed.media with
    consumers := Function.update landed.media.consumers consumerId
      ⟨id, transport, producerId, stays && (state.media.transports transport).isOpen⟩
    nextConsumer := consumerId + 1 } }
  if stays then
    let peer := made.peer id
    let session := state.slots.sessions id
    let recorded := made.setPeer id { peer with
      consumers := peer.consumers.set consumerId producerId
      consumersByProducerId := peer.consumersByProducerId.set producerId consumerId }
    match recorded.owner session.roomCode producerId with
    | none => recorded
    | some owner => recorded.setViewers owner producerId (addViewer session.peerId)
  else made

/-- A worker call resolves, or the router a handler waits for is there. -/
def resolved (config : Config) (state : State) (call : Call) (capable : Bool) : Option State :=
  let done := { state with media := state.media.done call.ws }
  let id := call.session
  match call.op with
  | .routerForTransport direction router =>
    if (state.routers.made router).creation = .ready then
      some { done with
        media := done.media.await call.ws id (.creatingTransport direction router) }
    else none
  | .creatingTransport direction router => some (done.transportMade config id direction router)
  | .connecting direction transport => some (done.transportConnected id direction transport)
  | .producing transport source => some (done.produced id transport source)
  | .routerForConsume producerId router =>
    if (state.routers.made router).creation = .ready then
      if capable && state.canConsume router producerId then
        match (state.peer id).transport .recv with
        | none => some (done.landConsume id)
        | some transport =>
          some { done with media := done.media.await call.ws id (.consuming transport producerId) }
      else some (done.landConsume id)
    else none
  | .consuming transport producerId => some (done.consumed id transport producerId)

/-- A worker call rejects, or the creation of the router does. -/
def rejected (state : State) (call : Call) : Option State :=
  let done := { state with media := state.media.done call.ws }
  let id := call.session
  match call.op with
  | .routerForTransport direction router =>
    if (state.routers.made router).creation = .failed then
      some (done.landTransport id direction)
    else none
  | .creatingTransport direction _ => some (done.landTransport id direction)
  | .connecting _ _ => some done
  | .producing _ _ => some (done.landProduce id)
  | .routerForConsume _ router =>
    if (state.routers.made router).creation = .failed then some (done.landConsume id) else none
  | .consuming _ _ => some (done.landConsume id)

def producerClosed (state : State) (consumerId : ConsumerId) : State :=
  let consumer := state.media.consumers consumerId
  let closed := { state with media := { state.media with
    consumers := Function.update state.media.consumers consumerId
      { consumer with isOpen := false } } }
  let peer := closed.peer consumer.session
  closed.setPeer consumer.session { peer with
    consumers := peer.consumers.delete consumerId
    consumersByProducerId := peer.consumersByProducerId.delete consumer.producerId }

/-- The router of a room that emptied is closed, with what is on it. -/
def closeRouter (state : State) (roomCode : RoomCode) (router : RouterId) : State :=
  let closed := state.closeTransports fun transport =>
    decide ((state.media.transports transport).router = router)
  { closed with routers := closed.routers.close roomCode router }

end State

inductive Event
  | slots (event : SlotEvent)
  | frame (ws : SocketId) (message : Message)
  | resolved (ws : SocketId) (capable : Bool)
  | rejected (ws : SocketId)
  | transportTimeout (id : SessionId) (direction : Direction)
  | transportDown (transport : TransportId)
  | producerClose (consumer : ConsumerId)
  | routerCreated (router : RouterId)
  | routerRejected (router : RouterId)
  | routerClose (roomCode : RoomCode) (router : RouterId)

/-- A join sees whether the routers are at their ceiling. -/
def SlotEvent.seesCeiling (config : Config) (routers : Routers) : SlotEvent → Bool
  | .join _ _ _ _ full _ => full = decide (config.MAX_ROOMS ≤ routers.routers.size)
  | _ => true

def callOf (media : Media) (ws : SocketId) : Option Call :=
  media.calls.find? fun call => decide (call.ws = ws)

def step (config : Config) (state : State) : Event → Option State
  | .slots event =>
    if event.seesCeiling config state.routers then
      (slotStep (decide (0 < config.RESUME_GRACE_MS)) state.slots event).map
        fun (slots, change) => state.changed slots change
    else none
  | .frame ws message =>
    if (callOf state.media ws).isSome then none
    else (state.slots.sockets ws).peer.map fun id => state.handleFrame config ws id message
  | .resolved ws capable =>
    (callOf state.media ws).bind fun call => state.resolved config call capable
  | .rejected ws => (callOf state.media ws).bind fun call => state.rejected call
  | .transportTimeout id direction =>
    ((state.peer id).transportReapTimers direction).map fun transport =>
      let peer := state.peer id
      let fired := state.setPeer id { peer with
        transportReapTimers := Function.update peer.transportReapTimers direction none }
      fired.reapTransport id direction transport
  | .transportDown transport =>
    if transport < state.media.nextTransport then
      let ⟨id, direction, _, _, _⟩ := state.media.transports transport
      some (state.reapTransport id direction transport)
    else none
  | .producerClose consumerId =>
    let consumer := state.media.consumers consumerId
    if consumer.isOpen && !(state.media.producers consumer.producerId).isOpen then
      some (state.producerClosed consumerId)
    else none
  | .routerCreated router =>
    if router < state.routers.next ∧ (state.routers.made router).creation = .pending then
      some { state with routers := state.routers.created router }
    else none
  | .routerRejected router =>
    if router < state.routers.next ∧ (state.routers.made router).creation = .pending then
      some { state with routers := state.routers.rejected router }
    else none
  | .routerClose roomCode router =>
    if (roomCode, router) ∈ state.routers.closing ∧
        (state.routers.made router).creation = .ready then
      some (state.closeRouter roomCode router)
    else none

end AwfulChat.Sfu
