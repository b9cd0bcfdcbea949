import AwfulChat.Sfu.Routers

/-!
# Transports, producers and consumers

What a session of `index.ts` keeps of its media, and what mediasoup makes of it: a transport that
closes closes its producers and consumers and tells their listeners, a closed producer leaves its
consumers to a later `producerclose`. What is made on a transport that closed meanwhile is closed
from the start, and tells nobody.
-/

namespace AwfulChat.Sfu

open Library

set_option autoImplicit false

abbrev TransportId := Nat
abbrev ProducerId := Nat
abbrev ConsumerId := Nat

def MAX_PRODUCERS_PER_PEER : Nat := 8
def MAX_CUMULATIVE_PRODUCES_PER_SESSION : Nat := 256
def MAX_CONSUMERS_PER_PEER : Nat := 256

inductive Direction
  | send | recv
  deriving DecidableEq

inductive Source
  | camera | screen
  deriving DecidableEq

structure ProducerEntry where
  source : Source
  consumers : List PeerId
  deriving DecidableEq

/-- The part of a `PeerState` that speaks of media. -/
structure Peer where
  transport : Direction → Option TransportId
  producers : OrderedMap ProducerId ProducerEntry
  consumers : OrderedMap ConsumerId ProducerId
  consumersByProducerId : OrderedMap ProducerId ConsumerId
  notifiedClosedProducers : List ProducerId
  transportsInFlight : Direction → Bool
  connectedTransports : Direction → Bool
  /-- The transport each timer was armed for. -/
  transportReapTimers : Direction → Option TransportId
  producersInFlight : Nat
  consumersInFlight : Nat
  cumulativeProduces : Nat

def Peer.fresh : Peer :=
  ⟨fun _ => none, OrderedMap.empty, OrderedMap.empty, OrderedMap.empty, [], fun _ => false,
    fun _ => false, fun _ => none, 0, 0, 0⟩

structure Transport where
  session : SessionId
  direction : Direction
  router : RouterId
  isOpen : Bool
  /-- For the statements only: a `connect` of it resolved. -/
  connected : Bool
  deriving DecidableEq

structure Producer where
  session : SessionId
  transport : TransportId
  source : Source
  isOpen : Bool
  deriving DecidableEq

structure Consumer where
  session : SessionId
  transport : TransportId
  producerId : ProducerId
  isOpen : Bool
  deriving DecidableEq

/-- What a handler awaits. -/
inductive Op
  | routerForTransport (direction : Direction) (router : RouterId)
  | creatingTransport (direction : Direction) (router : RouterId)
  | connecting (direction : Direction) (transport : TransportId)
  | producing (transport : TransportId) (source : Source)
  | routerForConsume (producerId : ProducerId) (router : RouterId)
  | consuming (transport : TransportId) (producerId : ProducerId)
  deriving DecidableEq

/-- A handler that awaits, for the session its socket acted for when the frame came. -/
structure Call where
  ws : SocketId
  session : SessionId
  op : Op
  deriving DecidableEq

structure Media where
  peers : SessionId → Peer
  transports : TransportId → Transport
  producers : ProducerId → Producer
  consumers : ConsumerId → Consumer
  calls : List Call
  nextTransport : TransportId
  nextProducer : ProducerId
  nextConsumer : ConsumerId

namespace Media

def start : Media :=
  ⟨fun _ => Peer.fresh, fun _ => ⟨0, .send, 0, false, false⟩, fun _ => ⟨0, 0, .camera, false⟩,
    fun _ => ⟨0, 0, 0, false⟩, [], 0, 0, 0⟩

def setPeer (media : Media) (id : SessionId) (peer : Peer) : Media :=
  { media with peers := Function.update media.peers id peer }

def await (media : Media) (ws : SocketId) (session : SessionId) (op : Op) : Media :=
  { media with calls := media.calls ++ [⟨ws, session, op⟩] }

def done (media : Media) (ws : SocketId) : Media :=
  { media with calls := media.calls.filter fun call => decide (call.ws ≠ ws) }

/-- A producer that ends with its transport and is told to the room. -/
def ends (media : Media) (hit : TransportId → Bool) (producerId : ProducerId) : Bool :=
  let producer := media.producers producerId
  producer.isOpen && hit producer.transport &&
    !(media.peers producer.session).notifiedClosedProducers.contains producerId

/-- A consumer that ends with its transport. -/
def drops (media : Media) (hit : TransportId → Bool) (consumerId : ConsumerId) : Bool :=
  let consumer := media.consumers consumerId
  consumer.isOpen && hit consumer.transport

/-- `transport.close()`, with what its `transportclose` events do to the sessions. -/
def closeTransports (media : Media) (hit : TransportId → Bool) : Media :=
  { media with
    transports := fun id =>
      let transport := media.transports id
      { transport with isOpen := transport.isOpen && !hit id }
    producers := fun id =>
      let producer := media.producers id
      { producer with isOpen := producer.isOpen && !hit producer.transport }
    consumers := fun id =>
      let consumer := media.consumers id
      { consumer with isOpen := consumer.isOpen && !hit consumer.transport }
    peers := fun session =>
      let peer := media.peers session
      let ended := (List.range media.nextProducer).filter fun producerId =>
        media.ends hit producerId && decide ((media.producers producerId).session = session)
      let dropped := (List.range media.nextConsumer).filter fun consumerId =>
        media.drops hit consumerId && decide ((media.consumers consumerId).session = session)
      { peer with
        producers := peer.producers.keep fun producerId => !ended.contains producerId
        notifiedClosedProducers := peer.notifiedClosedProducers ++ ended
        consumers := peer.consumers.keep fun consumerId => !dropped.contains consumerId
        consumersByProducerId := peer.consumersByProducerId.keep fun producerId =>
          !dropped.any fun consumerId =>
            decide ((media.consumers consumerId).producerId = producerId) } }

/-- `producer.close()` of the producers a session holds, `consumer.close()` of its consumers. -/
def closeHeld (media : Media) (id : SessionId) : Media :=
  let peer := media.peers id
  { media with
    producers := fun producerId =>
      let producer := media.producers producerId
      { producer with isOpen := producer.isOpen && !peer.producers.has producerId }
    consumers := fun consumerId =>
      let consumer := media.consumers consumerId
      { consumer with isOpen := consumer.isOpen && !peer.consumers.has consumerId } }

/-- The transports of a session, for `?.close()` on both. -/
def isOf (media : Media) (id : SessionId) (transport : TransportId) : Bool :=
  decide ((media.peers id).transport .send = some transport) ||
    decide ((media.peers id).transport .recv = some transport)

def clearReapTimers (media : Media) (id : SessionId) : Media :=
  media.setPeer id { media.peers id with transportReapTimers := fun _ => none }

end Media

end AwfulChat.Sfu
