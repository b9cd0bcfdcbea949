import AwfulChat.Sfu.Service

/-!
# What a step of the SFU does

The outcomes of every event, one for each way through the handlers.
-/

namespace AwfulChat.Sfu

open Library Option Bool

set_option autoImplicit false

def Op.creates : Op → Option Direction
  | .routerForTransport direction _ => some direction
  | .creatingTransport direction _ => some direction
  | _ => none

def Op.produces : Op → Bool
  | .producing _ _ => true
  | _ => false

def Op.consumes : Op → Bool
  | .routerForConsume _ _ => true
  | .consuming _ _ => true
  | _ => false

def Op.on : Op → Option TransportId
  | .connecting _ transport => some transport
  | .producing transport _ => some transport
  | .consuming transport _ => some transport
  | _ => none

def Op.awaits : Op → Option RouterId
  | .routerForTransport _ router => some router
  | .routerForConsume _ router => some router
  | _ => none

namespace State

/-- A frame that leaves a call in flight. -/
def asks (state : State) (routers : Routers) (ws : SocketId) (id : SessionId) (peer : Peer)
    (op : Op) : State :=
  { state with
    routers := routers
    media := (state.media.setPeer id peer).await ws id op }

/-- A call is answered and its handler waits for the next. -/
def goesOn (state : State) (call : Call) (op : Op) : State :=
  { state with media := (state.media.done call.ws).await call.ws call.session op }

def ended (state : State) (call : Call) : State :=
  { state with media := state.media.done call.ws }

/-- A consumer that its session does not watch any more. -/
def unwatch (state : State) (id : SessionId) (producerId : ProducerId) : State :=
  let session := state.slots.sessions id
  match state.owner session.roomCode producerId with
  | none => state
  | some owner =>
    if state.isScreen owner producerId then
      state.setViewers owner producerId fun viewers =>
        viewers.filter fun viewer => decide (viewer ≠ session.peerId)
    else state

def shutConsumer (state : State) (consumerId : ConsumerId) : State :=
  let consumer := state.media.consumers consumerId
  { state with media := { state.media with
    consumers := Function.update state.media.consumers consumerId
      { consumer with isOpen := false } } }

def shutProducer (state : State) (producerId : ProducerId) : State :=
  let producer := state.media.producers producerId
  { state with media := { state.media with
    producers := Function.update state.media.producers producerId
      { producer with isOpen := false } } }

def dropConsumer (state : State) (id : SessionId) (consumerId : ConsumerId)
    (producerId : ProducerId) : State :=
  let peer := state.peer id
  state.setPeer id { peer with
    consumers := peer.consumers.delete consumerId
    consumersByProducerId := peer.consumersByProducerId.delete producerId }

/-- A transport is there, closed at once where its session is in no room. -/
def withMade (state : State) (id : SessionId) (direction : Direction) (router : RouterId) :
    State :=
  let landed := state.landTransport id direction
  { landed with media := { landed.media with
    transports := Function.update landed.media.transports state.media.nextTransport
      ⟨id, direction, router, decide (id ∈ state.slots.members) &&
        !(state.routers.made router).closed, false⟩
    nextTransport := state.media.nextTransport + 1 } }

def dropPrevious (state : State) (id : SessionId) (direction : Direction) : State :=
  match (state.peer id).transport direction with
  | none => state
  | some previous =>
    let closed := state.closeTransports fun other => decide (other = previous)
    let peer := closed.peer id
    closed.setPeer id { peer with
      connectedTransports := Function.update peer.connectedTransports direction false
      transportReapTimers := Function.update peer.transportReapTimers direction none }

def putTransport (config : Config) (state : State) (id : SessionId) (direction : Direction)
    (transport : TransportId) : State :=
  let peer := state.peer id
  state.setPeer id { peer with
    transport := Function.update peer.transport direction (some transport)
    transportReapTimers :=
      if 0 < config.TRANSPORT_CONNECT_TIMEOUT_MS then
        Function.update peer.transportReapTimers direction (some transport)
      else peer.transportReapTimers }

theorem transport_made_eq (config : Config) (state : State) (id : SessionId) (direction : Direction)
    (router : RouterId) :
    state.transportMade config id direction router =
      if id ∈ state.slots.members then
        ((state.withMade id direction router).dropPrevious id direction).putTransport config id
          direction state.media.nextTransport
      else state.withMade id direction router := by
  unfold transportMade
  simp only [decide_eq_true_eq]
  rfl

def withProducer (state : State) (id : SessionId) (transport : TransportId) (source : Source) :
    State :=
  let landed := state.landProduce id
  { landed with media := { landed.media with
    producers := Function.update landed.media.producers state.media.nextProducer
      ⟨id, transport, source, decide (id ∈ state.slots.members) &&
        (state.media.transports transport).isOpen⟩
    nextProducer := state.media.nextProducer + 1 } }

def recordProducer (state : State) (id : SessionId) (producerId : ProducerId) (source : Source) :
    State :=
  let peer := state.peer id
  state.setPeer id { peer with producers := peer.producers.set producerId ⟨source, []⟩ }

theorem produced_eq (state : State) (id : SessionId) (transport : TransportId) (source : Source) :
    state.produced id transport source =
      if id ∈ state.slots.members then
        ((state.withProducer id transport source).recordProducer id state.media.nextProducer
          source).tellOthers id
            [.newProducer (state.slots.sessions id).peerId state.media.nextProducer source]
      else state.withProducer id transport source := by
  unfold produced
  simp only [decide_eq_true_eq]
  rfl

def withConsumer (state : State) (id : SessionId) (transport : TransportId)
    (producerId : ProducerId) : State :=
  let landed := state.landConsume id
  { landed with media := { landed.media with
    consumers := Function.update landed.media.consumers state.media.nextConsumer
      ⟨id, transport, producerId, decide (id ∈ state.slots.members) &&
        (state.media.transports transport).isOpen⟩
    nextConsumer := state.media.nextConsumer + 1 } }

def recordConsumer (state : State) (id : SessionId) (consumerId : ConsumerId)
    (producerId : ProducerId) : State :=
  let peer := state.peer id
  state.setPeer id { peer with
    consumers := peer.consumers.set consumerId producerId
    consumersByProducerId := peer.consumersByProducerId.set producerId consumerId }

/-- A viewer is noted with the session that holds the producer. -/
def watch (state : State) (id : SessionId) (producerId : ProducerId) : State :=
  let session := state.slots.sessions id
  match state.owner session.roomCode producerId with
  | none => state
  | some owner => state.setViewers owner producerId (addViewer session.peerId)

theorem consumed_eq (state : State) (id : SessionId) (transport : TransportId)
    (producerId : ProducerId) :
    state.consumed id transport producerId =
      if id ∈ state.slots.members then
        ((state.withConsumer id transport producerId).recordConsumer id state.media.nextConsumer
          producerId).watch id producerId
      else state.withConsumer id transport producerId := by
  unfold consumed
  simp only [decide_eq_true_eq]
  rfl

end State

inductive StepCase (config : Config) (state : State) : Event → State → Prop
  | slots {event : SlotEvent} {slots : Slots} {change : Change}
      (sees : event.seesCeiling config state.routers = true)
      (taken : slotStep (decide (0 < config.RESUME_GRACE_MS)) state.slots event =
        some (slots, change)) :
      StepCase config state (.slots event) (state.changed slots change)
  | ignored {ws : SocketId} {message : Message} : StepCase config state (.frame ws message) state
  | createTransport {ws : SocketId} {id : SessionId} {direction : Direction} {routers : Routers}
      {router : RouterId} (idle : callOf state.media ws = none)
      (acts : (state.slots.sockets ws).peer = some id)
      (free : (state.peer id).transportsInFlight direction = false)
      (given : state.routers.getOrCreateRouter config (state.slots.sessions id).roomCode =
        some (routers, router)) :
      StepCase config state (.frame ws (.createTransport direction))
        (state.asks routers ws id { state.peer id with
          transportsInFlight :=
            Function.update (state.peer id).transportsInFlight direction true }
          (.routerForTransport direction router))
  | connectTransport {ws : SocketId} {id : SessionId} {direction : Direction}
      {transport : TransportId} (idle : callOf state.media ws = none)
      (acts : (state.slots.sockets ws).peer = some id)
      (current : (state.peer id).transport direction = some transport) :
      StepCase config state (.frame ws (.connectTransport direction))
        (state.asks state.routers ws id (state.peer id) (.connecting direction transport))
  | produce {ws : SocketId} {id : SessionId} {source : Source} {transport : TransportId}
      (idle : callOf state.media ws = none) (acts : (state.slots.sockets ws).peer = some id)
      (current : (state.peer id).transport .send = some transport)
      (room : (state.peer id).producers.size + (state.peer id).producersInFlight <
        MAX_PRODUCERS_PER_PEER)
      (budget : (state.peer id).cumulativeProduces < MAX_CUMULATIVE_PRODUCES_PER_SESSION) :
      StepCase config state (.frame ws (.produce source))
        (state.asks state.routers ws id { state.peer id with
          cumulativeProduces := (state.peer id).cumulativeProduces + 1
          producersInFlight := (state.peer id).producersInFlight + 1 }
          (.producing transport source))
  | consume {ws : SocketId} {id : SessionId} {producerId : ProducerId} {routers : Routers}
      {router : RouterId} (idle : callOf state.media ws = none)
      (acts : (state.slots.sockets ws).peer = some id)
      (current : (state.peer id).transport .recv ≠ none)
      (new : State.existingConsumer (state.peer id) producerId = none)
      (room : (state.peer id).consumers.size + (state.peer id).consumersInFlight <
        MAX_CONSUMERS_PER_PEER)
      (given : state.routers.getOrCreateRouter config (state.slots.sessions id).roomCode =
        some (routers, router)) :
      StepCase config state (.frame ws (.consume producerId))
        (state.asks routers ws id { state.peer id with
          consumersInFlight := (state.peer id).consumersInFlight + 1 }
          (.routerForConsume producerId router))
  | forgotConsumer {ws : SocketId} {id : SessionId} {producerId : ProducerId}
      {consumerId : ConsumerId} (acts : (state.slots.sockets ws).peer = some id)
      (indexed : (state.peer id).consumersByProducerId.get producerId = some consumerId)
      (absent : (state.peer id).consumers.has consumerId = false) :
      StepCase config state (.frame ws (.closeConsumer producerId))
        (state.setPeer id { state.peer id with
          consumersByProducerId := (state.peer id).consumersByProducerId.delete producerId })
  | closeConsumer {ws : SocketId} {id : SessionId} {producerId : ProducerId}
      {consumerId : ConsumerId} (acts : (state.slots.sockets ws).peer = some id)
      (indexed : (state.peer id).consumersByProducerId.get producerId = some consumerId)
      (present : (state.peer id).consumers.has consumerId = true) :
      StepCase config state (.frame ws (.closeConsumer producerId))
        (((state.unwatch id producerId).shutConsumer consumerId).dropConsumer id consumerId
          producerId)
  | closeProducer {ws : SocketId} {id : SessionId} {producerId : ProducerId}
      {entry : ProducerEntry} (acts : (state.slots.sockets ws).peer = some id)
      (held : (state.peer id).producers.get producerId = some entry) :
      StepCase config state (.frame ws (.closeProducer producerId))
        (((state.shutProducer producerId).setPeer id { state.peer id with
          producers := (state.peer id).producers.delete producerId }).tellOthers id
            [.producerClosed (state.slots.sessions id).peerId producerId entry.source])
  | routerForTransport {ws : SocketId} {capable : Bool} {call : Call} {direction : Direction}
      {router : RouterId} (waits : callOf state.media ws = some call)
      (op : call.op = .routerForTransport direction router)
      (ready : (state.routers.made router).creation = .ready) :
      StepCase config state (.resolved ws capable)
        (state.goesOn call (.creatingTransport direction router))
  | transportMade {ws : SocketId} {capable : Bool} {call : Call} {direction : Direction}
      {router : RouterId} (waits : callOf state.media ws = some call)
      (op : call.op = .creatingTransport direction router) :
      StepCase config state (.resolved ws capable)
        ((state.ended call).transportMade config call.session direction router)
  | transportConnected {ws : SocketId} {capable : Bool} {call : Call} {direction : Direction}
      {transport : TransportId} (waits : callOf state.media ws = some call)
      (op : call.op = .connecting direction transport) :
      StepCase config state (.resolved ws capable)
        ((state.ended call).transportConnected call.session direction transport)
  | produced {ws : SocketId} {capable : Bool} {call : Call} {transport : TransportId}
      {source : Source} (waits : callOf state.media ws = some call)
      (op : call.op = .producing transport source) :
      StepCase config state (.resolved ws capable)
        ((state.ended call).produced call.session transport source)
  | routerForConsume {ws : SocketId} {capable : Bool} {call : Call} {producerId : ProducerId}
      {router : RouterId} {transport : TransportId} (waits : callOf state.media ws = some call)
      (op : call.op = .routerForConsume producerId router)
      (ready : (state.routers.made router).creation = .ready)
      (can : state.canConsume router producerId = true)
      (current : (state.peer call.session).transport .recv = some transport) :
      StepCase config state (.resolved ws capable)
        (state.goesOn call (.consuming transport producerId))
  | notConsumed {ws : SocketId} {capable : Bool} {call : Call} {producerId : ProducerId}
      {router : RouterId} (waits : callOf state.media ws = some call)
      (op : call.op = .routerForConsume producerId router)
      (ready : (state.routers.made router).creation = .ready) :
      StepCase config state (.resolved ws capable) ((state.ended call).landConsume call.session)
  | consumed {ws : SocketId} {capable : Bool} {call : Call} {transport : TransportId}
      {producerId : ProducerId} (waits : callOf state.media ws = some call)
      (op : call.op = .consuming transport producerId) :
      StepCase config state (.resolved ws capable)
        ((state.ended call).consumed call.session transport producerId)
  | transportFailed {ws : SocketId} {call : Call} {direction : Direction}
      (waits : callOf state.media ws = some call) (op : call.op.creates = some direction) :
      StepCase config state (.rejected ws) ((state.ended call).landTransport call.session direction)
  | connectFailed {ws : SocketId} {call : Call} {direction : Direction} {transport : TransportId}
      (waits : callOf state.media ws = some call)
      (op : call.op = .connecting direction transport) :
      StepCase config state (.rejected ws) (state.ended call)
  | produceFailed {ws : SocketId} {call : Call} (waits : callOf state.media ws = some call)
      (op : call.op.produces = true) :
      StepCase config state (.rejected ws) ((state.ended call).landProduce call.session)
  | consumeFailed {ws : SocketId} {call : Call} (waits : callOf state.media ws = some call)
      (op : call.op.consumes = true) :
      StepCase config state (.rejected ws) ((state.ended call).landConsume call.session)
  | transportTimeout {id : SessionId} {direction : Direction} {transport : TransportId}
      (armed : (state.peer id).transportReapTimers direction = some transport) :
      StepCase config state (.transportTimeout id direction)
        ((state.setPeer id { state.peer id with
          transportReapTimers :=
            Function.update (state.peer id).transportReapTimers direction none }).reapTransport
          id direction transport)
  | transportDown {transport : TransportId} (known : transport < state.media.nextTransport) :
      StepCase config state (.transportDown transport)
        (state.reapTransport (state.media.transports transport).session
          (state.media.transports transport).direction transport)
  | producerClose {consumerId : ConsumerId}
      (isOpen : (state.media.consumers consumerId).isOpen = true)
      (ended : (state.media.producers (state.media.consumers consumerId).producerId).isOpen =
        false) :
      StepCase config state (.producerClose consumerId)
        ((state.shutConsumer consumerId).dropConsumer (state.media.consumers consumerId).session
          consumerId (state.media.consumers consumerId).producerId)
  | routerCreated {router : RouterId} (known : router < state.routers.next)
      (pending : (state.routers.made router).creation = .pending) :
      StepCase config state (.routerCreated router)
        { state with routers := state.routers.created router }
  | routerRejected {router : RouterId} (known : router < state.routers.next)
      (pending : (state.routers.made router).creation = .pending) :
      StepCase config state (.routerRejected router)
        { state with routers := state.routers.rejected router }
  | routerClose {roomCode : RoomCode} {router : RouterId}
      (scheduled : (roomCode, router) ∈ state.routers.closing)
      (ready : (state.routers.made router).creation = .ready) :
      StepCase config state (.routerClose roomCode router) (state.closeRouter roomCode router)

variable {config : Config} {ws : SocketId} {id : SessionId} {state : State}

section

variable (idle : callOf state.media ws = none) (acts : (state.slots.sockets ws).peer = some id)
include idle acts

theorem create_transport_case {direction : Direction} :
    StepCase config state (.frame ws (.createTransport direction))
      (state.handleCreateTransport config ws id direction) := by
  unfold State.handleCreateTransport
  dsimp only
  split_ifs with busy
  · exact .ignored
  · split
    · exact .ignored
    · rename_i routers router given
      exact .createTransport idle acts (eq_false_of_ne_true busy) given

theorem connect_transport_case {direction : Direction} :
    StepCase config state (.frame ws (.connectTransport direction))
      (state.handleConnectTransport ws id direction) := by
  unfold State.handleConnectTransport
  dsimp only
  split_ifs
  · exact .ignored
  · split
    · exact .ignored
    · rename_i transport current
      have case : StepCase config state (.frame ws (.connectTransport direction)) _ :=
        .connectTransport idle acts current
      have same : state.media.setPeer id (state.peer id) = state.media := by
        simp only [Media.setPeer, State.peer, Function.update_eq_self]
      unfold State.asks at case
      rw [same] at case
      exact case

theorem produce_case {source : Source} :
    StepCase config state (.frame ws (.produce source)) (state.handleProduce ws id source) := by
  unfold State.handleProduce
  dsimp only
  split
  · exact .ignored
  · rename_i transport current
    split_ifs with full spent
    · exact .ignored
    · exact .ignored
    · exact .produce idle acts current (Nat.lt_of_not_le full) (Nat.lt_of_not_le spent)

theorem consume_case {producerId : ProducerId} :
    StepCase config state (.frame ws (.consume producerId))
      (state.handleConsume config ws id producerId) := by
  unfold State.handleConsume
  dsimp only
  split_ifs with absent present full
  · exact .ignored
  · exact .ignored
  · exact .ignored
  · split
    · exact .ignored
    · rename_i routers router given
      exact .consume idle acts absent (not_isSome_iff_eq_none.mp present)
        (Nat.lt_of_not_le full) given

end

section

variable {producerId : ProducerId} (acts : (state.slots.sockets ws).peer = some id)
include acts

theorem close_consumer_case :
    StepCase config state (.frame ws (.closeConsumer producerId))
      (state.handleCloseConsumer id producerId) := by
  unfold State.handleCloseConsumer
  dsimp only
  split
  · exact .ignored
  · rename_i consumerId indexed
    split_ifs with present
    · exact .closeConsumer acts indexed present
    · exact .forgotConsumer acts indexed (eq_false_of_ne_true present)

theorem close_producer_case :
    StepCase config state (.frame ws (.closeProducer producerId))
      (state.handleCloseProducer id producerId) := by
  unfold State.handleCloseProducer
  dsimp only
  split
  · exact .ignored
  · rename_i entry held
    exact .closeProducer acts held

end

theorem resolved_case {state next : State} {capable : Bool} {call : Call}
    (waits : callOf state.media ws = some call)
    (taken : state.resolved config call capable = some next) :
    StepCase config state (.resolved ws capable) next := by
  unfold State.resolved at taken
  dsimp only at taken
  split at taken
  · rename_i direction router op
    split_ifs at taken with ready
    cases taken
    exact .routerForTransport waits op ready
  · rename_i op
    cases taken
    exact .transportMade waits op
  · rename_i op
    cases taken
    exact .transportConnected waits op
  · rename_i op
    cases taken
    exact .produced waits op
  · rename_i op
    split_ifs at taken with ready both
    · rw [and_eq_true] at both
      split at taken
      · cases taken
        exact .notConsumed waits op ready
      · rename_i current
        cases taken
        exact .routerForConsume waits op ready both.2 current
    · cases taken
      exact .notConsumed waits op ready
  · rename_i op
    cases taken
    exact .consumed waits op

theorem rejected_case {state next : State} {call : Call} (waits : callOf state.media ws = some call)
    (taken : state.rejected call = some next) :
    StepCase config state (.rejected ws) next := by
  unfold State.rejected at taken
  dsimp only at taken
  split at taken
  · rename_i op
    split_ifs at taken
    cases taken
    exact .transportFailed waits (by rw [op]; rfl)
  · rename_i op
    cases taken
    exact .transportFailed waits (by rw [op]; rfl)
  · rename_i op
    cases taken
    exact .connectFailed waits op
  · rename_i op
    cases taken
    exact .produceFailed waits (by rw [op]; rfl)
  · rename_i op
    split_ifs at taken
    cases taken
    exact .consumeFailed waits (by rw [op]; rfl)
  · rename_i op
    cases taken
    exact .consumeFailed waits (by rw [op]; rfl)

theorem step_cases {state next : State} {event : Event}
    (taken : step config state event = some next) : StepCase config state event next := by
  cases event with
  | slots event =>
    dsimp only [step] at taken
    split_ifs at taken with sees
    obtain ⟨⟨slots, change⟩, moved, rfl⟩ := map_eq_some_iff.mp taken
    exact .slots sees moved
  | frame ws message =>
    dsimp only [step] at taken
    split_ifs at taken with busy
    obtain ⟨id, acts, rfl⟩ := map_eq_some_iff.mp taken
    have idle : callOf state.media ws = none := not_isSome_iff_eq_none.mp busy
    cases message with
    | createTransport direction => exact create_transport_case idle acts
    | connectTransport direction => exact connect_transport_case idle acts
    | produce source => exact produce_case idle acts
    | consume producerId => exact consume_case idle acts
    | closeConsumer producerId => exact close_consumer_case acts
    | closeProducer producerId => exact close_producer_case acts
  | resolved ws capable =>
    obtain ⟨call, waits, resolved⟩ := bind_eq_some_iff.mp taken
    exact resolved_case waits resolved
  | rejected ws =>
    obtain ⟨call, waits, rejected⟩ := bind_eq_some_iff.mp taken
    exact rejected_case waits rejected
  | transportTimeout id direction =>
    obtain ⟨transport, armed, rfl⟩ := map_eq_some_iff.mp taken
    exact .transportTimeout armed
  | transportDown transport =>
    dsimp only [step] at taken
    split_ifs at taken with known
    cases taken
    exact .transportDown known
  | producerClose consumerId =>
    dsimp only [step] at taken
    split_ifs at taken with both
    rw [and_eq_true, not_eq_true'] at both
    cases taken
    exact .producerClose both.1 both.2
  | routerCreated router =>
    dsimp only [step] at taken
    split_ifs at taken with both
    cases taken
    exact .routerCreated both.1 both.2
  | routerRejected router =>
    dsimp only [step] at taken
    split_ifs at taken with both
    cases taken
    exact .routerRejected both.1 both.2
  | routerClose roomCode router =>
    dsimp only [step] at taken
    split_ifs at taken with both
    cases taken
    exact .routerClose both.1 both.2

end AwfulChat.Sfu
