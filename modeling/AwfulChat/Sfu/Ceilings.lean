import AwfulChat.Sfu.ServiceBooks

/-!
# The ceilings of the SFU

A room takes sessions by two ways: a join that finds room counts the sessions, a join that waited
for a probe and finds its slot vacant does not count them again. The other ceilings are charged
where they are checked, and given back where the call they were charged for is through.
-/

namespace AwfulChat.Sfu

open Library Library.OrderedMap List Option Bool Function

set_option autoImplicit false

/-- The calls of a session that are in flight, of one kind. -/
def inFlight (media : Media) (id : SessionId) (kind : Op → Bool) : Nat :=
  media.calls.countP fun call => decide (call.session = id) && kind call.op

def Op.creating (direction : Direction) (op : Op) : Bool := decide (op.creates = some direction)

/-- The counters of a session against its calls. -/
structure Counted (media : Media) (id : SessionId) : Prop where
  producers : (media.peers id).producersInFlight = inFlight media id Op.produces
  consumers : (media.peers id).consumersInFlight = inFlight media id Op.consumes
  transports : ∀ direction, inFlight media id (Op.creating direction) =
    if (media.peers id).transportsInFlight direction then 1 else 0

/-- The ceilings of a session. -/
structure Within (peer : Peer) : Prop where
  producers : peer.producers.size + peer.producersInFlight ≤ MAX_PRODUCERS_PER_PEER
  consumers : peer.consumers.size + peer.consumersInFlight ≤ MAX_CONSUMERS_PER_PEER
  cumulative : peer.cumulativeProduces ≤ MAX_CUMULATIVE_PRODUCES_PER_SESSION

theorem Within.fresh : Within Peer.fresh :=
  ⟨Nat.zero_le _, Nat.zero_le _, Nat.zero_le _⟩

/-- A record with no more in its maps and the same counters. -/
structure Lighter (peer later : Peer) : Prop where
  producers : later.producers.size ≤ peer.producers.size
  consumers : later.consumers.size ≤ peer.consumers.size
  producersInFlight : later.producersInFlight = peer.producersInFlight
  consumersInFlight : later.consumersInFlight = peer.consumersInFlight
  transportsInFlight : later.transportsInFlight = peer.transportsInFlight
  cumulative : later.cumulativeProduces = peer.cumulativeProduces

theorem Lighter.refl (peer : Peer) : Lighter peer peer :=
  ⟨Nat.le_refl _, Nat.le_refl _, rfl, rfl, rfl, rfl⟩

theorem Lighter.trans {first second third : Peer} (one : Lighter first second)
    (two : Lighter second third) : Lighter first third :=
  ⟨Nat.le_trans two.producers one.producers, Nat.le_trans two.consumers one.consumers,
    two.producersInFlight.trans one.producersInFlight,
    two.consumersInFlight.trans one.consumersInFlight,
    two.transportsInFlight.trans one.transportsInFlight, two.cumulative.trans one.cumulative⟩

theorem Within.lighter {peer later : Peer} (within : Within peer) (lighter : Lighter peer later) :
    Within later := by
  refine ⟨?_, ?_, ?_⟩
  · rw [lighter.producersInFlight]
    exact Nat.le_trans (Nat.add_le_add_right lighter.producers _) within.producers
  · rw [lighter.consumersInFlight]
    exact Nat.le_trans (Nat.add_le_add_right lighter.consumers _) within.consumers
  · rw [lighter.cumulative]
    exact within.cumulative

/-- Media in which nothing is charged and nothing given back. -/
structure Uncharged (media later : Media) : Prop where
  calls : later.calls = media.calls
  peers : ∀ id, Lighter (media.peers id) (later.peers id)

theorem Uncharged.refl (media : Media) : Uncharged media media :=
  ⟨rfl, fun _ => Lighter.refl _⟩

theorem Uncharged.trans {first second third : Media} (one : Uncharged first second)
    (two : Uncharged second third) : Uncharged first third :=
  ⟨two.calls.trans one.calls, fun id => (one.peers id).trans (two.peers id)⟩

variable {id : SessionId} {state : State} {ws : SocketId} {call : Call} {media : Media}
  {config : Config} {peer : Peer} {known : SessionId}

theorem uncharged_setPeer
    (lighter : Lighter (media.peers id) peer) : Uncharged media (media.setPeer id peer) := by
  refine ⟨rfl, ?_⟩
  intro other
  simp only [Media.setPeer, update_apply]
  split_ifs with hit
  · rw [hit]
    exact lighter
  · exact Lighter.refl _

theorem Counted.uncharged {media later : Media} (counted : Counted media id)
    (uncharged : Uncharged media later) : Counted later id := by
  have same : ∀ kind, inFlight later id kind = inFlight media id kind := by
    intro kind
    unfold inFlight
    rw [uncharged.calls]
  refine ⟨?_, ?_, ?_⟩
  · rw [(uncharged.peers id).producersInFlight, same]
    exact counted.producers
  · rw [(uncharged.peers id).consumersInFlight, same]
    exact counted.consumers
  · intro direction
    rw [(uncharged.peers id).transportsInFlight, same]
    exact counted.transports direction

theorem uncharged_close (media : Media) (hit : TransportId → Bool) :
    Uncharged media (media.closeTransports hit) :=
  ⟨rfl, fun _ => ⟨size_keep_le _ _, size_keep_le _ _, rfl, rfl, rfl, rfl⟩⟩

theorem uncharged_end_media (state : State) (id : SessionId) :
    Uncharged state.media (state.endMedia id).media := by
  have held : Uncharged state.media (state.media.closeHeld id) := ⟨rfl, fun _ => Lighter.refl _⟩
  have closed := held.trans (uncharged_close (state.media.closeHeld id) (state.media.isOf id))
  exact closed.trans (uncharged_setPeer ⟨Nat.le_refl _, Nat.le_refl _, rfl, rfl, rfl, rfl⟩)

theorem uncharged_left (state : State) (id : SessionId) :
    Uncharged state.media (state.leftMedia id) := by
  refine (uncharged_end_media state id).trans ⟨rfl, ?_⟩
  intro other
  simp only [State.leftMedia]
  split_ifs
  · exact ⟨Nat.zero_le _, Nat.zero_le _, rfl, rfl, rfl, rfl⟩
  · exact ⟨Nat.le_of_eq (size_mapValues _ _), Nat.le_refl _, rfl, rfl, rfl, rfl⟩
  · exact Lighter.refl _

theorem uncharged_setViewers (state : State) (owner : SessionId) (producer : ProducerId)
    (viewers : List PeerId → List PeerId) :
    Uncharged state.media (state.setViewers owner producer viewers).media := by
  unfold State.setViewers
  dsimp only
  split
  · exact Uncharged.refl _
  · rename_i entry held
    refine uncharged_setPeer ⟨Nat.le_of_eq ?_, Nat.le_refl _, rfl, rfl, rfl, rfl⟩
    refine size_set_of_present _ ?_
    rw [held]
    nofun

theorem uncharged_unwatch (state : State) (id : SessionId) (producer : ProducerId) :
    Uncharged state.media (state.unwatch id producer).media := by
  unfold State.unwatch
  dsimp only
  split
  · exact Uncharged.refl _
  · split_ifs
    · exact uncharged_setViewers _ _ _ _
    · exact Uncharged.refl _

theorem uncharged_dropConsumer (state : State) (id : SessionId) (consumer : ConsumerId)
    (producer : ProducerId) :
    Uncharged state.media (state.dropConsumer id consumer producer).media := by
  refine uncharged_setPeer ⟨Nat.le_refl _, ?_, rfl, rfl, rfl, rfl⟩
  exact size_delete_le _ _

theorem uncharged_shut (state : State) (consumer : ConsumerId) :
    Uncharged state.media (state.shutConsumer consumer).media :=
  ⟨rfl, fun _ => Lighter.refl _⟩

theorem uncharged_reap (state : State) (id : SessionId) (direction : Direction)
    (transport : TransportId) :
    Uncharged state.media (state.reapTransport id direction transport).media := by
  unfold State.reapTransport
  dsimp only
  split_ifs
  · exact Uncharged.refl _
  · have dropped : Uncharged state.media (state.media.setPeer id { state.peer id with
        transportReapTimers := Function.update (state.peer id).transportReapTimers direction none
        transport := Function.update (state.peer id).transport direction none
        connectedTransports :=
          Function.update (state.peer id).connectedTransports direction false }) :=
      uncharged_setPeer ⟨Nat.le_refl _, Nat.le_refl _, rfl, rfl, rfl, rfl⟩
    exact dropped.trans (uncharged_close _ _)

theorem uncharged_dropPrevious (state : State) (id : SessionId) (direction : Direction) :
    Uncharged state.media (state.dropPrevious id direction).media := by
  unfold State.dropPrevious
  split
  · exact Uncharged.refl _
  · exact (uncharged_close state.media _).trans
      (uncharged_setPeer ⟨Nat.le_refl _, Nat.le_refl _, rfl, rfl, rfl, rfl⟩)

theorem count_done {calls : List Call} (once : (calls.map Call.ws).Nodup) (mem : call ∈ calls)
    (counts : Call → Bool) :
    calls.countP counts =
      (calls.filter fun other => decide (other.ws ≠ call.ws)).countP counts +
        if counts call then 1 else 0 := by
  induction calls with
  | nil => cases mem
  | cons first rest ih =>
    obtain ⟨unlike, later⟩ := nodup_cons.mp once
    rcases mem_cons.mp mem with same | deeper
    · have kept : (rest.filter fun other => decide (other.ws ≠ first.ws)) = rest := by
        refine filter_eq_self.mpr ?_
        intro other held
        refine decide_eq_true ?_
        intro equal
        exact unlike (mem_map.mpr ⟨other, held, equal⟩)
      have dropped : (first :: rest).filter (fun other => decide (other.ws ≠ first.ws)) = rest := by
        rw [filter_cons_of_neg, kept]
        simp
      rw [same, dropped, countP_cons]
    · have apart : first.ws ≠ call.ws := by
        intro equal
        exact unlike (mem_map.mpr ⟨call, deeper, equal.symm⟩)
      rw [countP_cons, filter_cons, if_pos (decide_eq_true apart), countP_cons,
        ih later deeper]
      exact Nat.add_right_comm _ _ _

theorem inFlight_done (books : CallBooks known media) (waits : callOf media ws = some call)
    (id : SessionId) (kind : Op → Bool) :
    inFlight media id kind = inFlight (media.done call.ws) id kind +
      if decide (call.session = id) && kind call.op then 1 else 0 :=
  count_done books.once (call_of_mem waits).1 _

theorem inFlight_await (media : Media) (ws : SocketId) (session id : SessionId) (op : Op)
    (kind : Op → Bool) :
    inFlight (media.await ws session op) id kind = inFlight media id kind +
      if decide (session = id) && kind op then 1 else 0 := by
  unfold inFlight Media.await
  rw [countP_append, countP_singleton]

theorem inFlight_setPeer (media : Media) (other id : SessionId) (peer : Peer) (kind : Op → Bool) :
    inFlight (media.setPeer other peer) id kind = inFlight media id kind := rfl

/-- The ceilings of every session, its counters and its transports. -/
structure Metered (media : Media) (id : SessionId) : Prop where
  counted : Counted media id
  within : Within (media.peers id)

theorem Metered.uncharged {media later : Media} (metered : Metered media id)
    (uncharged : Uncharged media later) : Metered later id :=
  ⟨metered.counted.uncharged uncharged, metered.within.lighter (uncharged.peers id)⟩

theorem Metered.fresh (books : CallBooks known media) {new : SessionId}
    (unknown : known ≤ new) : Metered (media.setPeer new Peer.fresh) new := by
  have record : (media.setPeer new Peer.fresh).peers new = Peer.fresh := update_self _ _ _
  have none : ∀ kind, inFlight (media.setPeer new Peer.fresh) new kind = 0 := by
    intro kind
    refine countP_eq_zero.mpr ?_
    intro call mem counts
    rw [and_eq_true] at counts
    have same := of_decide_eq_true counts.1
    exact Nat.lt_irrefl _ (Nat.lt_of_lt_of_le (same ▸ books.session call mem) unknown)
  refine ⟨⟨?_, ?_, ?_⟩, ?_⟩
  · rw [record, none]
    rfl
  · rw [record, none]
    rfl
  · intro direction
    rw [record, none]
    rfl
  · rw [record]
    exact Within.fresh

theorem Metered.other {id new : SessionId} (metered : Metered media id)
    (apart : id ≠ new) : Metered (media.setPeer new peer) id := by
  have record : (media.setPeer new peer).peers id = media.peers id :=
    update_of_ne apart _ _
  refine ⟨⟨?_, ?_, ?_⟩, ?_⟩
  · rw [record]
    exact metered.counted.producers
  · rw [record]
    exact metered.counted.consumers
  · rw [record]
    exact metered.counted.transports
  · rw [record]
    exact metered.within

section

variable (ws : SocketId) (session : SessionId) {op : Op}
  (producers : peer.producersInFlight =
    (media.peers session).producersInFlight + if op.produces then 1 else 0)
  (consumers : peer.consumersInFlight =
    (media.peers session).consumersInFlight + if op.consumes then 1 else 0)
  (free : ∀ direction, op.creates = some direction →
    (media.peers session).transportsInFlight direction = false)
  (transports : ∀ direction, peer.transportsInFlight direction =
    ((media.peers session).transportsInFlight direction ||
      decide (op.creates = some direction)))
include producers consumers free transports

theorem Counted.asks (counted : Counted media id) :
    Counted ((media.setPeer session peer).await ws session op) id := by
  by_cases own : session = id
  · have record : ((media.setPeer session peer).await ws session op).peers id = peer := by
      rw [← own]
      exact update_self _ _ _
    rw [own] at producers consumers free transports
    refine ⟨?_, ?_, ?_⟩
    · rw [record, inFlight_await, inFlight_setPeer, producers, counted.producers,
        decide_eq_true own, Bool.true_and]
    · rw [record, inFlight_await, inFlight_setPeer, consumers, counted.consumers,
        decide_eq_true own, Bool.true_and]
    · intro direction
      rw [record, inFlight_await, inFlight_setPeer, counted.transports, transports,
        decide_eq_true own, Bool.true_and]
      by_cases hit : op.creates = some direction
      · rw [free direction hit, Op.creating, decide_eq_true hit]
        rfl
      · rw [Op.creating, decide_eq_false hit, Bool.or_false]
        rfl
  · have record : ((media.setPeer session peer).await ws session op).peers id =
        media.peers id := update_of_ne (fun same => own same.symm) _ _
    refine ⟨?_, ?_, ?_⟩
    · rw [record, inFlight_await, inFlight_setPeer, decide_eq_false own, Bool.false_and]
      exact counted.producers
    · rw [record, inFlight_await, inFlight_setPeer, decide_eq_false own, Bool.false_and]
      exact counted.consumers
    · intro direction
      rw [record, inFlight_await, inFlight_setPeer, decide_eq_false own, Bool.false_and]
      exact counted.transports direction

theorem Metered.asks (metered : Metered media id) (within : session = id → Within peer) :
    Metered ((media.setPeer session peer).await ws session op) id := by
  refine ⟨metered.counted.asks ws session producers consumers free transports, ?_⟩
  simp only [Media.await, Media.setPeer, update_apply]
  split_ifs with same
  · exact within same.symm
  · exact metered.within

end

section

variable (books : CallBooks known media) (waits : callOf media ws = some call)
  (producers : peer.producersInFlight =
    (media.peers call.session).producersInFlight - if call.op.produces then 1 else 0)
  (consumers : peer.consumersInFlight =
    (media.peers call.session).consumersInFlight - if call.op.consumes then 1 else 0)
  (transports : ∀ direction, peer.transportsInFlight direction =
    ((media.peers call.session).transportsInFlight direction &&
      !decide (call.op.creates = some direction)))
include books waits producers consumers transports

theorem Counted.lands (counted : Counted media id) :
    Counted ((media.done call.ws).setPeer call.session peer) id := by
  have through := inFlight_done books waits id
  by_cases own : call.session = id
  · have record : ((media.done call.ws).setPeer call.session peer).peers id = peer := by
      rw [← own]
      exact update_self _ _ _
    rw [own] at producers consumers transports
    simp only [decide_eq_true own, Bool.true_and] at through
    refine ⟨?_, ?_, ?_⟩
    · rw [record, inFlight_setPeer, producers, counted.producers, through]
      exact Nat.add_sub_cancel _ _
    · rw [record, inFlight_setPeer, consumers, counted.consumers, through]
      exact Nat.add_sub_cancel _ _
    · intro direction
      have before := counted.transports direction
      rw [through] at before
      rw [record, inFlight_setPeer, transports]
      unfold Op.creating at before ⊢
      by_cases hit : call.op.creates = some direction
      · rw [decide_eq_true hit, if_pos rfl] at before
        rw [decide_eq_true hit, Bool.not_true, Bool.and_false]
        split_ifs at before
        exact Nat.add_right_cancel before
      · rw [decide_eq_false hit] at before
        rw [decide_eq_false hit, Bool.not_false, Bool.and_true]
        exact before
  · have record : ((media.done call.ws).setPeer call.session peer).peers id =
        media.peers id := update_of_ne (fun same => own same.symm) _ _
    simp only [decide_eq_false own, Bool.false_and] at through
    refine ⟨?_, ?_, ?_⟩
    · rw [record, inFlight_setPeer, counted.producers, through]
      rfl
    · rw [record, inFlight_setPeer, counted.consumers, through]
      rfl
    · intro direction
      rw [record, inFlight_setPeer, ← counted.transports direction, through]
      rfl

theorem Metered.lands (metered : Metered media id) (within : call.session = id → Within peer) :
    Metered ((media.done call.ws).setPeer call.session peer) id := by
  refine ⟨metered.counted.lands books waits producers consumers transports, ?_⟩
  simp only [Media.done, Media.setPeer, update_apply]
  split_ifs with same
  · exact within same.symm
  · exact metered.within

end

theorem Metered.changed {slots : Slots} {change : Change} (books : Books state)
    (move : SlotMove state.slots slots change)
    (metered : Metered state.media id) : Metered (state.changed slots change).media id := by
  cases change with
  | none | resumed other => exact metered
  | entered new replaced =>
    obtain ⟨equal, _⟩ := move.entered new replaced rfl
    have unknown : state.slots.nextSession ≤ new := Nat.le_of_eq equal.symm
    cases replaced with
    | none =>
      by_cases same : id = new
      · rw [same]
        exact Metered.fresh books.tidy.inFlight unknown
      · exact metered.other same
    | some old =>
      have ended := uncharged_end_media { state with slots := slots } old
      have calls : CallBooks state.slots.nextSession
          ({ state with slots := slots }.replace old).media :=
        books.tidy.inFlight.keeps ⟨rfl, Nat.le_refl _, fun _ _ => rfl⟩
      by_cases same : id = new
      · rw [same]
        exact Metered.fresh calls unknown
      · exact (metered.uncharged ended).other same
  | left other =>
    have media : (state.changed slots (.left other)).media =
        State.leftMedia { state with slots := slots } other := handle_peer_left_media _ other
    rw [media]
    exact metered.uncharged (uncharged_left { state with slots := slots } other)

section

variable (metered : Metered state.media id) (books : Books state)
  (waits : callOf state.media ws = some call)
include metered books waits

theorem Metered.ended (produces : call.op.produces = false) (consumes : call.op.consumes = false)
    (creates : call.op.creates = none) :
    Metered (state.ended call).media id := by
  have landed : Metered ((state.media.done call.ws).setPeer call.session
      (state.media.peers call.session)) id := by
    refine metered.lands books.tidy.inFlight waits ?_ ?_ ?_ ?_
    · rw [produces]
      rfl
    · rw [consumes]
      rfl
    · intro direction
      rw [creates]
      exact (Bool.and_true _).symm
    · intro same
      rw [same]
      exact metered.within
  have same : _ = (state.ended call).media := set_peer_self (state.media.done call.ws) call.session
  rw [← same]
  exact landed

theorem Metered.landTransport {direction : Direction} (creates : call.op.creates = some direction) :
    Metered ((state.ended call).landTransport call.session direction).media id := by
  have others : call.op.produces = false ∧ call.op.consumes = false := by
    cases op : call.op <;> rw [op] at creates <;> first | exact ⟨rfl, rfl⟩ | cases creates
  refine metered.lands books.tidy.inFlight waits ?_ ?_ ?_ ?_
  · rw [others.1]
    rfl
  · rw [others.2]
    rfl
  · intro way
    dsimp only
    rw [creates, update_apply]
    by_cases hit : way = direction
    · rw [if_pos hit, hit, decide_eq_true rfl, Bool.not_true, Bool.and_false]
    · have unlike : some direction ≠ some way := fun same => hit (Option.some.inj same).symm
      rw [if_neg hit, decide_eq_false unlike, Bool.not_false, Bool.and_true]
      rfl
  · intro same
    rw [← same] at metered
    exact ⟨metered.within.producers, metered.within.consumers, metered.within.cumulative⟩

theorem Metered.landProduce (produces : call.op.produces = true)
    {producers : OrderedMap ProducerId ProducerEntry}
    (grown : producers.size ≤ (state.peer call.session).producers.size + 1) :
    Metered ((state.media.done call.ws).setPeer call.session { state.peer call.session with
      producersInFlight := (state.peer call.session).producersInFlight - 1
      producers := producers }) id := by
  have others : call.op.consumes = false ∧ call.op.creates = none := by
    cases op : call.op <;> rw [op] at produces <;> first | exact ⟨rfl, rfl⟩ | cases produces
  refine metered.lands books.tidy.inFlight waits ?_ ?_ ?_ ?_
  · rw [produces]
    rfl
  · rw [others.1]
    rfl
  · intro direction
    rw [others.2]
    exact (Bool.and_true _).symm
  · intro same
    rw [← same] at metered
    have charged : 0 < (state.media.peers call.session).producersInFlight := by
      rw [metered.counted.producers, inFlight_done books.tidy.inFlight waits, decide_eq_true rfl,
        produces]
      exact Nat.succ_pos _
    have room := metered.within.producers
    refine ⟨?_, metered.within.consumers, metered.within.cumulative⟩
    dsimp only [State.peer] at grown ⊢
    omega

theorem Metered.landConsume (consumes : call.op.consumes = true)
    {consumers : OrderedMap ConsumerId ProducerId} (index : OrderedMap ProducerId ConsumerId)
    (grown : consumers.size ≤ (state.peer call.session).consumers.size + 1) :
    Metered ((state.media.done call.ws).setPeer call.session { state.peer call.session with
      consumersInFlight := (state.peer call.session).consumersInFlight - 1
      consumers := consumers
      consumersByProducerId := index }) id := by
  have others : call.op.produces = false ∧ call.op.creates = none := by
    cases op : call.op <;> rw [op] at consumes <;> first | exact ⟨rfl, rfl⟩ | cases consumes
  refine metered.lands books.tidy.inFlight waits ?_ ?_ ?_ ?_
  · rw [others.1]
    rfl
  · rw [consumes]
    rfl
  · intro direction
    rw [others.2]
    exact (Bool.and_true _).symm
  · intro same
    rw [← same] at metered
    have charged : 0 < (state.media.peers call.session).consumersInFlight := by
      rw [metered.counted.consumers, inFlight_done books.tidy.inFlight waits, decide_eq_true rfl,
        consumes]
      exact Nat.succ_pos _
    have room := metered.within.consumers
    refine ⟨metered.within.producers, ?_, metered.within.cumulative⟩
    dsimp only [State.peer] at grown ⊢
    omega

end

theorem Metered.congr {media later : Media} (metered : Metered media id)
    (calls : later.calls = media.calls) (peers : later.peers = media.peers) : Metered later id :=
  metered.uncharged ⟨calls, fun other => by rw [peers]; exact Lighter.refl _⟩

section

variable (metered : Metered state.media id) (books : Books state)
  (waits : callOf state.media ws = some call)
include metered books waits

theorem Metered.produced {transport : TransportId} {source : Source}
    (op : call.op = .producing transport source) :
    Metered ((state.ended call).produced call.session transport source).media id := by
  have produces : call.op.produces = true := by
    rw [op]
    rfl
  rw [State.produced_eq]
  split_ifs
  · have landed := metered.landProduce books waits produces
      (size_set_le (state.peer call.session).producers state.media.nextProducer
        ⟨source, []⟩)
    refine landed.congr rfl ?_
    simp only [State.tellOthers, State.recordProducer, State.setPeer, State.withProducer,
      State.landProduce, State.ended, State.peer, Media.setPeer, Media.done,
      update_idem, update_self]
  · exact (metered.landProduce books waits produces (Nat.le_succ _)).congr rfl rfl

theorem Metered.consumed {transport : TransportId} {producer : ProducerId}
    (op : call.op = .consuming transport producer) :
    Metered ((state.ended call).consumed call.session transport producer).media id := by
  have consumes : call.op.consumes = true := by
    rw [op]
    rfl
  rw [State.consumed_eq]
  split_ifs
  · have landed := metered.landConsume books waits consumes
      ((state.peer call.session).consumersByProducerId.set producer state.media.nextConsumer)
      (size_set_le (state.peer call.session).consumers state.media.nextConsumer
        producer)
    have recorded : Metered (((state.ended call).withConsumer call.session transport
        producer).recordConsumer call.session (state.ended call).media.nextConsumer
          producer).media id := by
      refine landed.congr rfl ?_
      simp only [State.recordConsumer, State.setPeer, State.withConsumer,
        State.landConsume, State.ended, State.peer, Media.setPeer, Media.done,
        update_idem, update_self]
    unfold State.watch
    dsimp only
    split
    · exact recorded
    · exact recorded.uncharged (uncharged_setViewers _ _ _ _)
  · exact (metered.landConsume books waits consumes _ (Nat.le_succ _)).congr rfl rfl

theorem Metered.goesOn {op : Op} (produces : op.produces = call.op.produces)
    (consumes : op.consumes = call.op.consumes) (creates : op.creates = call.op.creates) :
    Metered (state.goesOn call op).media id := by
  have same : ∀ kind : Op → Bool, kind op = kind call.op →
      inFlight (state.goesOn call op).media id kind = inFlight state.media id kind := by
    intro kind equal
    rw [inFlight_done books.tidy.inFlight waits id kind, ← equal]
    exact inFlight_await (state.media.done call.ws) call.ws call.session id op kind
  refine ⟨⟨?_, ?_, ?_⟩, metered.within⟩
  · rw [same _ produces]
    exact metered.counted.producers
  · rw [same _ consumes]
    exact metered.counted.consumers
  · intro direction
    have kind : op.creating direction = call.op.creating direction := by
      unfold Op.creating
      rw [creates]
    rw [same _ kind]
    exact metered.counted.transports direction

end

theorem Metered.step {state next : State} {event : Event}
    (taken : step config state event = some next) (books : Books state)
    (metered : Metered state.media id) : Metered next.media id := by
  have within : ∀ {session}, session = id → Within (state.peer session) :=
    fun same => same ▸ metered.within
  cases step_cases taken with
  | slots sees moved => exact metered.changed books (slot_move books.slots moved)
  | ignored | routerCreated known pending | routerRejected known pending => exact metered
  | createTransport idle acts free given =>
    rename_i ws session direction routers router
    refine metered.asks ws session rfl rfl ?_ ?_ ?_
    · intro way same
      cases same
      exact free
    · intro way
      by_cases hit : way = direction
      · simp [Op.creates, hit]
      · have unlike : ¬direction = way := fun same => hit same.symm
        simp [Op.creates, hit, unlike, State.peer]
    · intro same
      have before := within same
      exact ⟨before.producers, before.consumers, before.cumulative⟩
  | connectTransport idle acts current =>
    rename_i ws session direction transport
    exact metered.asks ws session rfl rfl (by intros; contradiction) (fun _ => (Bool.or_false _).symm) within
  | produce idle acts current room budget =>
    rename_i ws session source transport
    refine metered.asks ws session rfl rfl (by intros; contradiction) (fun _ => (Bool.or_false _).symm) ?_
    intro same
    exact ⟨room, (within same).consumers, budget⟩
  | consume idle acts current new room given =>
    rename_i ws session producer routers router
    refine metered.asks ws session rfl rfl (by intros; contradiction) (fun _ => (Bool.or_false _).symm) ?_
    intro same
    exact ⟨(within same).producers, room, (within same).cumulative⟩
  | forgotConsumer acts indexed absent =>
    exact metered.uncharged
      (uncharged_setPeer ⟨Nat.le_refl _, Nat.le_refl _, rfl, rfl, rfl, rfl⟩)
  | closeConsumer acts indexed present =>
    exact metered.uncharged (((uncharged_unwatch _ _ _).trans (uncharged_shut _ _)).trans
      (uncharged_dropConsumer _ _ _ _))
  | closeProducer acts held =>
    refine metered.uncharged ⟨rfl, ?_⟩
    intro other
    simp only [State.tellOthers, State.setPeer, Media.setPeer, update_apply]
    split_ifs with hit
    · rw [hit]
      exact ⟨size_delete_le _ _, Nat.le_refl _, rfl, rfl, rfl, rfl⟩
    · exact Lighter.refl _
  | routerForTransport waits op ready =>
    exact metered.goesOn books waits (by rw [op]; rfl) (by rw [op]; rfl) (by rw [op]; rfl)
  | transportMade waits op =>
    rename_i call direction router
    have landed := metered.landTransport books waits (by rw [op]; rfl)
    have made : Metered ((state.ended call).withMade call.session direction router).media id :=
      landed.congr rfl rfl
    rw [State.transport_made_eq]
    split_ifs
    · refine (made.uncharged (uncharged_dropPrevious _ _ _)).uncharged (uncharged_setPeer ?_)
      exact ⟨Nat.le_refl _, Nat.le_refl _, rfl, rfl, rfl, rfl⟩
    · exact made
  | transportConnected waits op =>
    rename_i call direction transport
    have ended := metered.ended books waits (by rw [op]; rfl) (by rw [op]; rfl) (by rw [op]; rfl)
    refine ended.uncharged ⟨rfl, ?_⟩
    intro other
    simp only [State.transportConnected, State.setPeer, Media.setPeer, update_apply]
    split_ifs with hit
    · rw [hit]
      exact ⟨Nat.le_refl _, Nat.le_refl _, rfl, rfl, rfl, rfl⟩
    · exact Lighter.refl _
  | produced waits op => exact metered.produced books waits op
  | routerForConsume waits op ready can current =>
    exact metered.goesOn books waits (by rw [op]; rfl) (by rw [op]; rfl) (by rw [op]; rfl)
  | notConsumed waits op ready =>
    exact (metered.landConsume books waits (by rw [op]; rfl) _ (Nat.le_succ _)).congr rfl rfl
  | consumed waits op => exact metered.consumed books waits op
  | transportFailed waits op => exact metered.landTransport books waits op
  | connectFailed waits op =>
    exact metered.ended books waits (by rw [op]; rfl) (by rw [op]; rfl) (by rw [op]; rfl)
  | produceFailed waits op =>
    exact (metered.landProduce books waits op (Nat.le_succ _)).congr rfl rfl
  | consumeFailed waits op =>
    exact (metered.landConsume books waits op _ (Nat.le_succ _)).congr rfl rfl
  | transportTimeout armed =>
    refine Metered.uncharged ?_ (uncharged_reap _ _ _ _)
    exact metered.uncharged
      (uncharged_setPeer ⟨Nat.le_refl _, Nat.le_refl _, rfl, rfl, rfl, rfl⟩)
  | transportDown known => exact metered.uncharged (uncharged_reap _ _ _ _)
  | producerClose isOpen ended =>
    exact metered.uncharged ((uncharged_shut _ _).trans (uncharged_dropConsumer _ _ _ _))
  | routerClose scheduled ready => exact metered.uncharged (uncharged_close _ _)

/-- A join whose probe came back finds room, where its slot is vacant by now. -/
def findsRoom (state : State) : Event → Bool
  | .slots (.finishJoin ws) =>
    match (state.slots.sockets ws).probing with
    | none => true
    | some probing =>
      decide ((state.slots.sockets ws).ready ≠ .isOpen) ||
        decide (state.slots.answered probing.answer ≠ some false) ||
        (state.slots.find probing.roomCode probing.peerId).isSome ||
        decide ((state.slots.room probing.roomCode).length < MAX_PEERS_PER_ROOM)
  | _ => true

theorem room_eq (slots : Slots) (roomCode : RoomCode) :
    slots.room roomCode =
      slots.members.filter fun id => decide ((slots.key id).1 = roomCode) := rfl

theorem room_length {slots next : Slots} {change : Change} (books : SlotBooks slots)
    (move : SlotMove slots next change) (roomCode : RoomCode)
    (apart : ∀ new, change = .entered new none → (next.key new).1 ≠ roomCode) :
    (next.room roomCode).length ≤ (slots.room roomCode).length := by
  have kept : ∀ members : List SessionId, (∀ id ∈ members, id ∈ slots.members) →
      (members.filter fun id => decide ((next.key id).1 = roomCode)) =
        members.filter fun id => decide ((slots.key id).1 = roomCode) := by
    intro members known
    refine List.filter_congr ?_
    intro id mem
    rw [move.key id (books.members id (known id mem))]
  rw [room_eq, room_eq, move.members]
  cases change with
  | none | resumed id => exact Nat.le_of_eq (congrArg List.length (kept _ fun _ mem => mem))
  | left id =>
    have fewer : ∀ other ∈ slots.members.filter fun other => decide (other ≠ id),
        other ∈ slots.members := fun other mem => (mem_filter.mp mem).1
    simp only [membersAfter]
    rw [kept _ fewer]
    exact (filter_sublist.filter _).length_le
  | entered new replaced =>
    cases replaced with
    | none =>
      have miss : decide ((next.key new).1 = roomCode) = false :=
        decide_eq_false (apart new rfl)
      simp only [membersAfter]
      have missed : [new].filter (fun id => decide ((next.key id).1 = roomCode)) = [] := by
        rw [filter_singleton, miss]
        rfl
      rw [filter_append, kept _ fun _ mem => mem, missed]
      exact Nat.le_of_eq (congrArg length (append_nil _))
    | some old =>
      obtain ⟨held, place⟩ := move.replaced new old rfl
      simp only [membersAfter]
      rw [List.filter_map, List.length_map]
      refine Nat.le_of_eq (congrArg List.length ?_)
      refine List.filter_congr ?_
      intro id mem
      dsimp only [Function.comp]
      split_ifs with hit
      · rw [hit, place]
      · rw [move.key id (books.members id mem)]

theorem room_entered {slots next : Slots} {new : SessionId} (books : SlotBooks slots)
    (move : SlotMove slots next (.entered new none)) (roomCode : RoomCode) :
    (next.room roomCode).length ≤ (slots.room roomCode).length + 1 := by
  have kept : (slots.members.filter fun id => decide ((next.key id).1 = roomCode)) =
      slots.members.filter fun id => decide ((slots.key id).1 = roomCode) := by
    refine List.filter_congr ?_
    intro id mem
    rw [move.key id (books.members id mem)]
  rw [room_eq, room_eq, move.members]
  simp only [membersAfter]
  rw [filter_append, length_append, kept]
  exact Nat.add_le_add_left (length_filter_le _ _) _

section

variable {grace : Bool} {next : Slots} {event : SlotEvent}
  (finds : findsRoom state (.slots event) = true)
include finds

theorem entered_room {new : SessionId}
    (taken : slotStep grace state.slots event = some (next, .entered new none)) :
    (state.slots.room (next.key new).1).length < MAX_PEERS_PER_ROOM := by
  cases event with
  | join ws roomCode peerId resume full buffered =>
    dsimp only [slotStep] at taken
    split_ifs at taken
    have joined := Option.some.inj taken
    generalize made : (Change.entered new none) = change at joined
    have cases := join_cases state.slots ws roomCode peerId resume full buffered
    rw [joined] at cases
    cases cases with
    | spent => cases made
    | refused => cases made
    | entered vacant space =>
      cases made
      have key : ((state.slots.challenge ws).enter ws roomCode peerId none).key
          state.slots.nextSession = (roomCode, peerId) := by
        have vacated : ∀ old, none = some old → old < state.slots.nextSession := nofun
        exact enter_key (state.slots.challenge ws) ws roomCode peerId vacated
      rw [key]
      exact space
    | resumed found token => cases made
    | asked found => cases made
  | finishJoin ws =>
    obtain ⟨probing, asked, later⟩ := bind_eq_some_iff.mp taken
    obtain ⟨alive, answered, finished⟩ := map_eq_some_iff.mp later
    generalize made : (Change.entered new none) = change at finished
    have cases := finish_cases state.slots ws probing alive
    rw [finished] at cases
    cases cases with
    | gone => cases made
    | refused => cases made
    | entered open_ dead vacant =>
      cases made
      have key : ((state.slots.rest ws none).enter ws probing.roomCode probing.peerId
          none).key state.slots.nextSession = (probing.roomCode, probing.peerId) := by
        have vacated : ∀ old, none = some old → old < state.slots.nextSession := nofun
        exact enter_key (state.slots.rest ws none) ws probing.roomCode probing.peerId vacated
      rw [key]
      simp only [findsRoom, asked, open_, answered, dead, vacant] at finds
      simpa using finds
    | replaced open_ dead found same => cases made
  | settle number alive | cut ws cause =>
    dsimp only [slotStep] at taken
    split_ifs at taken
    cases taken
  | shut ws => cases taken
  | closed ws code =>
    dsimp only [slotStep] at taken
    split_ifs at taken
    have cases := closed_cases grace state.slots ws code
    rw [Option.some.inj taken] at cases
    cases cases
  | graceEnd id =>
    obtain ⟨armed, timer, fired⟩ := map_eq_some_iff.mp taken
    unfold Slots.graceEnd at fired
    dsimp only at fired
    split_ifs at fired
    · cases fired
    · cases fired

theorem rooms_hold (inv : SlotsInv state.slots) {change : Change}
    (taken : slotStep grace state.slots event = some (next, change))
    (rooms : ∀ roomCode, (state.slots.room roomCode).length ≤ MAX_PEERS_PER_ROOM)
    (roomCode : RoomCode) : (next.room roomCode).length ≤ MAX_PEERS_PER_ROOM := by
  have move := slot_move inv taken
  by_cases entered : ∃ new, change = .entered new none ∧ (next.key new).1 = roomCode
  · obtain ⟨new, same, place⟩ := entered
    rw [same] at taken move
    have room := entered_room finds taken
    rw [place] at room
    exact Nat.le_trans (room_entered inv.toSlotBooks move roomCode) room
  · refine Nat.le_trans (room_length inv.toSlotBooks move roomCode ?_) (rooms roomCode)
    intro new same place
    exact entered ⟨new, same, place⟩

end

theorem get_or_create_size {routers later : Routers} {roomCode : RoomCode} {router : RouterId}
    (given : routers.getOrCreateRouter config roomCode = some (later, router))
    (below : routers.routers.size ≤ config.MAX_ROOMS) :
    later.routers.size ≤ config.MAX_ROOMS := by
  unfold Routers.getOrCreateRouter at given
  split at given
  · cases given
    exact below
  · dsimp only at given
    split_ifs at given with full
    cases given
    exact Nat.le_trans (size_set_le _ _ _) (Nat.lt_of_not_le full)

theorem handle_peer_left_routers (state : State) (id : SessionId) :
    (state.handlePeerLeft id).routers =
      if (state.slots.room (state.slots.sessions id).roomCode).isEmpty then
        state.routers.emptied (state.slots.sessions id).roomCode
      else state.routers := by
  unfold State.handlePeerLeft
  dsimp only
  split_ifs
  · rfl
  · rfl

theorem emptied_routers (routers : Routers) (roomCode : RoomCode) :
    (routers.emptied roomCode).routers = routers.routers := by
  unfold Routers.emptied
  split
  · rfl
  · rfl

theorem changed_routers (state : State) (slots : Slots) (change : Change) :
    (state.changed slots change).routers.routers = state.routers.routers := by
  cases change with
  | none | resumed id => rfl
  | entered new old =>
    cases old with
    | none => rfl
    | some old => rfl
  | left id =>
    have routers : (state.changed slots (.left id)).routers = _ :=
      handle_peer_left_routers { state with slots := slots } id
    rw [routers]
    split_ifs
    · exact emptied_routers _ _
    · rfl

theorem routers_hold {state next : State} {event : Event}
    (taken : step config state event = some next)
    (below : state.routers.routers.size ≤ config.MAX_ROOMS) :
    next.routers.routers.size ≤ config.MAX_ROOMS := by
  cases step_cases taken with
  | slots sees moved =>
    rw [changed_routers]
    exact below
  | createTransport idle acts free given => exact get_or_create_size given below
  | consume idle acts current new room given => exact get_or_create_size given below
  | closeConsumer acts indexed present =>
    rename_i ws id producer consumer
    have aside := (unwatch_aside state id producer).routers
    exact aside ▸ below
  | transportMade waits op =>
    rw [(transport_made_aside config (state.ended _) _ _ _).routers]
    exact below
  | produced waits op =>
    rw [(produced_aside (state.ended _) _ _ _).routers]
    exact below
  | consumed waits op =>
    rw [(consumed_aside (state.ended _) _ _ _).routers]
    exact below
  | transportTimeout armed =>
    rw [(reap_transport_aside _ _ _ _).routers]
    exact below
  | transportDown known =>
    rw [(reap_transport_aside state _ _ _).routers]
    exact below
  | routerRejected known pending =>
    refine Nat.le_trans ?_ below
    simp only [Routers.rejected]
    split_ifs
    · exact size_delete_le _ _
    · exact Nat.le_refl _
  | routerClose scheduled ready => exact Nat.le_trans (size_delete_le _ _) below
  | _ => exact below

/-- What the ceilings say of a state. -/
structure UnderCeilings (config : Config) (state : State) : Prop where
  rooms : ∀ roomCode, (state.slots.room roomCode).length ≤ MAX_PEERS_PER_ROOM
  routers : state.routers.routers.size ≤ config.MAX_ROOMS
  producers : ∀ id, (state.peer id).producers.size + inFlight state.media id Op.produces ≤
    MAX_PRODUCERS_PER_PEER
  consumers : ∀ id, (state.peer id).consumers.size + inFlight state.media id Op.consumes ≤
    MAX_CONSUMERS_PER_PEER
  cumulative : ∀ id,
    (state.peer id).cumulativeProduces ≤ MAX_CUMULATIVE_PRODUCES_PER_SESSION
  transports : ∀ one two, (state.media.transports one).isOpen = true →
    (state.media.transports two).isOpen = true →
      (state.media.transports one).session = (state.media.transports two).session →
        (state.media.transports one).direction = (state.media.transports two).direction →
          one = two
  creating : ∀ id direction, inFlight state.media id (Op.creating direction) ≤ 1
  idle : ∀ id, (∀ call ∈ state.media.calls, call.session ≠ id) →
    (state.peer id).producersInFlight = 0 ∧ (state.peer id).consumersInFlight = 0 ∧
      ∀ direction, (state.peer id).transportsInFlight direction = false

structure CeilingsInv (config : Config) (state : State) : Prop where
  books : Books state
  metered : ∀ id, Metered state.media id
  routers : state.routers.routers.size ≤ config.MAX_ROOMS
  rooms : ∀ roomCode, (state.slots.room roomCode).length ≤ MAX_PEERS_PER_ROOM

theorem CeilingsInv.start (config : Config) : CeilingsInv config State.start :=
  ⟨Books.start, fun _ => ⟨⟨rfl, rfl, fun _ => rfl⟩, Within.fresh⟩, Nat.zero_le _,
    fun _ => Nat.zero_le _⟩

theorem CeilingsInv.step {state next : State} {event : Event} (inv : CeilingsInv config state)
    (finds : findsRoom state event = true)
    (taken : step config state event = some next) : CeilingsInv config next := by
  refine ⟨inv.books.step taken, fun id => (inv.metered id).step taken inv.books,
    routers_hold taken inv.routers, ?_⟩
  rcases step_slots taken with same | ⟨slotEvent, change, equal, moved, _⟩
  · rw [same]
    exact inv.rooms
  · rw [equal] at finds
    exact rooms_hold finds inv.books.slots moved inv.rooms

theorem CeilingsInv.under (inv : CeilingsInv config state) :
    UnderCeilings config state := by
  have counted := fun id => (inv.metered id).counted
  refine ⟨inv.rooms, inv.routers, ?_, ?_, fun id => (inv.metered id).within.cumulative, ?_, ?_, ?_⟩
  · intro id
    rw [← (counted id).producers]
    exact (inv.metered id).within.producers
  · intro id
    rw [← (counted id).consumers]
    exact (inv.metered id).within.consumers
  · intro one two oneOpen twoOpen session direction
    have first := (inv.books.tidy.objects.current one oneOpen fun absurd => absurd).2
    have second := (inv.books.tidy.objects.current two twoOpen fun absurd => absurd).2
    rw [session, direction] at first
    exact Option.some.inj (first.symm.trans second)
  · intro id direction
    rw [(counted id).transports]
    split_ifs
    · exact Nat.le_refl _
    · exact Nat.zero_le _
  · intro id none
    have zero : ∀ kind, inFlight state.media id kind = 0 := by
      intro kind
      refine countP_eq_zero.mpr ?_
      intro call mem counts
      rw [and_eq_true] at counts
      exact none call mem (of_decide_eq_true counts.1)
    refine ⟨(counted id).producers.trans (zero _), (counted id).consumers.trans (zero _), ?_⟩
    intro direction
    have count := (counted id).transports direction
    rw [zero] at count
    by_contra flagged
    have flag : (state.media.peers id).transportsInFlight direction = true :=
      eq_true_of_ne_false flagged
    rw [if_pos flag] at count
    cases count

def sampleConfig : Config := ⟨250, 15000, 20000⟩

def joinAs (ws : SocketId) (peerId : PeerId) : Event :=
  .slots (.join ws "room" peerId none false false)

def sampleCall : List Event :=
  [joinAs 0 "ann", joinAs 1 "bob", .frame 0 (.createTransport .send), .routerCreated 0,
    .resolved 0 true, .resolved 0 true, .frame 0 (.connectTransport .send), .resolved 0 true,
    .frame 1 (.createTransport .recv), .resolved 1 true, .resolved 1 true,
    .frame 0 (.produce .screen), .resolved 0 true, .frame 1 (.consume 0), .resolved 1 true,
    .resolved 1 true, joinAs 2 "ann", .slots (.settle 0 false), .slots (.finishJoin 2),
    .producerClose 0]

def guests : List PeerId :=
  ["p0", "p1", "p2", "p3", "p4", "p5", "p6", "p7", "p8", "p9", "p10", "p11", "p12", "p13", "p14",
    "p15", "p16", "p17", "p18", "p19", "p20", "p21", "p22", "p23", "p24", "p25", "p26", "p27",
    "p28", "p29", "p30", "p31"]

def crowdedCall : List Event :=
  (guests.zipIdx.map fun (peerId, ws) => joinAs ws peerId) ++
    [joinAs 32 "p0", .slots (.closed 0 1000), joinAs 33 "p32", .slots (.settle 0 false),
      .slots (.finishJoin 32)]

end AwfulChat.Sfu
