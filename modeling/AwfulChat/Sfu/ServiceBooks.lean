import AwfulChat.Sfu.MediaBooks
import AwfulChat.Sfu.ServiceSteps
import AwfulChat.Sfu.SlotMoves

/-!
# The books of the SFU

In every state a run reaches, the slots are kept, what is open is recorded in a session of the
rooms, and a call in flight is of one socket, on a transport of its session.
-/

namespace AwfulChat.Sfu

open Library Library.OrderedMap List

set_option autoImplicit false

structure CallBooks (known : SessionId) (media : Media) : Prop where
  session : ∀ call ∈ media.calls, call.session < known
  on : ∀ call ∈ media.calls, ∀ transport, call.op.on = some transport →
    transport < media.nextTransport ∧ (media.transports transport).session = call.session
  once : (media.calls.map Call.ws).Nodup

/-- The media and the calls of a state, with the members of the rooms it is measured by. -/
structure Tidy (members : List SessionId) (known : SessionId) (media : Media) : Prop where
  objects : MediaBooks members (fun _ => False) media
  inFlight : CallBooks known media

structure Books (state : State) : Prop where
  slots : SlotsInv state.slots
  keyed : Keyed state.slots
  tidy : Tidy state.slots.members state.slots.nextSession state.media

theorem Books.start : Books State.start :=
  ⟨SlotsInv.start, nofun, MediaBooks.start, nofun, nofun, nodup_nil⟩

structure KeepsCalls (media later : Media) : Prop where
  calls : later.calls = media.calls
  next : media.nextTransport ≤ later.nextTransport
  session : ∀ transport, transport < media.nextTransport →
    (later.transports transport).session = (media.transports transport).session

variable {known : SessionId} {members : List SessionId} {state : State} {media : Media}
  {id : SessionId} {ws : SocketId}

theorem CallBooks.keeps {media later : Media} (books : CallBooks known media)
    (keeps : KeepsCalls media later) : CallBooks known later := by
  refine ⟨?_, ?_, ?_⟩
  · rw [keeps.calls]
    exact books.session
  · rw [keeps.calls]
    intro call mem transport on
    obtain ⟨before, own⟩ := books.on call mem transport on
    exact ⟨Nat.lt_of_lt_of_le before keeps.next, (keeps.session transport before).trans own⟩
  · rw [keeps.calls]
    exact books.once

theorem CallBooks.later {known later : SessionId} (books : CallBooks known media)
    (grows : known ≤ later) : CallBooks later media :=
  ⟨fun call mem => Nat.lt_of_lt_of_le (books.session call mem) grows, books.on, books.once⟩

theorem call_of_mem {call : Call}
    (waits : callOf media ws = some call) : call ∈ media.calls ∧ call.ws = ws := by
  have hit := List.find?_some waits
  exact ⟨mem_of_find?_eq_some waits, of_decide_eq_true hit⟩

theorem CallBooks.done (books : CallBooks known media)
    (ws : SocketId) : CallBooks known (media.done ws) := by
  refine ⟨?_, ?_, ?_⟩
  · intro call mem
    exact books.session call (mem_filter.mp mem).1
  · intro call mem
    exact books.on call (mem_filter.mp mem).1
  · exact books.once.sublist (filter_sublist.map Call.ws)

theorem CallBooks.await (books : CallBooks known media)
    {op : Op} (idle : ∀ call ∈ media.calls, call.ws ≠ ws)
    (session : id < known) (on : ∀ transport, op.on = some transport →
      transport < media.nextTransport ∧ (media.transports transport).session = id) :
    CallBooks known (media.await ws id op) := by
  refine ⟨?_, ?_, ?_⟩
  · intro call mem
    rcases mem_append.mp mem with old | new
    · exact books.session call old
    · rw [mem_singleton.mp new]
      exact session
  · intro call mem
    rcases mem_append.mp mem with old | new
    · exact books.on call old
    · rw [mem_singleton.mp new]
      exact on
  · simp only [Media.await, map_append, map_cons, map_nil]
    refine nodup_append.mpr
      ⟨books.once, nodup_cons.mpr ⟨not_mem_nil, nodup_nil⟩, ?_⟩
    intro one before two after same
    obtain ⟨call, mem, equal⟩ := mem_map.mp before
    exact idle call mem (equal.trans (same.trans (mem_singleton.mp after)))

theorem idle_calls (idle : callOf media ws = none) :
    ∀ call ∈ media.calls, call.ws ≠ ws := by
  intro call mem same
  exact List.find?_eq_none.mp idle call mem (decide_eq_true same)

theorem done_calls :
    ∀ call ∈ (media.done ws).calls, call.ws ≠ ws :=
  fun _ mem => of_decide_eq_true (mem_filter.mp mem).2

section

variable (tidy : Tidy members known media)
include tidy

theorem Tidy.done (ws : SocketId) : Tidy members known (media.done ws) :=
  ⟨tidy.objects.withCalls _, tidy.inFlight.done ws⟩

theorem Tidy.setPeer {peer : Peer}
    (narrows : Narrows media id peer) : Tidy members known (media.setPeer id peer) :=
  ⟨tidy.objects.setPeer narrows, tidy.inFlight.keeps ⟨rfl, Nat.le_refl _, fun _ _ => rfl⟩⟩

theorem Tidy.await
    {op : Op}
    (idle : ∀ call ∈ media.calls, call.ws ≠ ws) (session : id < known)
    (on : ∀ transport, op.on = some transport →
      transport < media.nextTransport ∧ (media.transports transport).session = id) :
    Tidy members known (media.await ws id op) :=
  ⟨tidy.objects.withCalls _, tidy.inFlight.await idle session on⟩

theorem Tidy.closeTransports (hit : TransportId → Bool) :
    Tidy members known (media.closeTransports hit) :=
  ⟨tidy.objects.closeTransports fun _ absurd => Or.inr absurd,
    tidy.inFlight.keeps ⟨rfl, Nat.le_refl _, fun _ _ => rfl⟩⟩

end

section

variable (tidy : Tidy members known state.media)
include tidy

theorem Tidy.shutConsumer (consumer : ConsumerId) :
    Tidy members known (state.shutConsumer consumer).media :=
  ⟨tidy.objects.shutConsumer consumer, tidy.inFlight.keeps ⟨rfl, Nat.le_refl _, fun _ _ => rfl⟩⟩

theorem Tidy.shutProducer (producer : ProducerId) :
    Tidy members known (state.shutProducer producer).media :=
  ⟨tidy.objects.shutProducer producer, tidy.inFlight.keeps ⟨rfl, Nat.le_refl _, fun _ _ => rfl⟩⟩

theorem Tidy.setViewers (owner : SessionId)
    (producer : ProducerId) (viewers : List PeerId → List PeerId) :
    Tidy members known (state.setViewers owner producer viewers).media := by
  unfold State.setViewers
  dsimp only
  split
  · exact tidy
  · rename_i entry held
    refine tidy.setPeer ⟨rfl, rfl, ?_, ?_, fun _ _ found => found, fun _ _ _ _ found => found⟩
    · intro other shown found
      rw [get_set] at found
      split_ifs at found with hit
      · cases found
        exact ⟨entry, hit ▸ held, rfl⟩
      · exact ⟨shown, found, rfl⟩
    · intro other _ _ recorded absent
      rw [get_set] at absent
      split_ifs at absent with hit
      exact recorded absent

theorem Tidy.unwatch (id : SessionId) (producer : ProducerId) :
    Tidy members known (state.unwatch id producer).media := by
  unfold State.unwatch
  dsimp only
  split
  · exact tidy
  · split_ifs
    · exact tidy.setViewers _ _ _
    · exact tidy

theorem Tidy.dropConsumer (id : SessionId) {consumer : ConsumerId}
    (closed : (state.media.consumers consumer).isOpen = false) (producer : ProducerId) :
    Tidy members known (state.dropConsumer id consumer producer).media := by
  refine tidy.setPeer ⟨rfl, rfl, fun _ entry found => ⟨entry, found, rfl⟩,
    fun _ _ _ held => held, ?_, ?_⟩
  · intro other shown found
    rw [get_delete] at found
    split_ifs at found
    exact found
  · intro other shown isOpen _ found
    rw [get_delete, if_neg]
    · exact found
    · intro same
      rw [same, closed] at isOpen
      cases isOpen

end

theorem shut_consumer_closed (state : State) (consumer : ConsumerId) :
    ((state.shutConsumer consumer).media.consumers consumer).isOpen = false := by
  simp only [State.shutConsumer, Function.update_self]

section

variable (tidy : Tidy members known state.media)
include tidy

theorem Tidy.reapTransport (id : SessionId) (direction : Direction) (transport : TransportId) :
    Tidy members known (state.reapTransport id direction transport).media := by
  unfold State.reapTransport
  dsimp only
  split_ifs with stale
  · exact tidy
  · have current : (state.peer id).transport direction = some transport := of_not_not stale
    have dropped := tidy.objects.place (fun other => other = transport) id direction none
      { state.peer id with
        transportReapTimers := Function.update (state.peer id).transportReapTimers direction none
        transport := Function.update (state.peer id).transport direction none
        connectedTransports :=
          Function.update (state.peer id).connectedTransports direction false }
      rfl rfl rfl rfl nofun (by
        intro other isOpen session way apart
        have held := (tidy.objects.current other isOpen fun absurd => absurd).2
        rw [session, way] at held
        exact absurd (Option.some.inj (held.symm.trans current)) apart)
      (fun _ absurd => absurd.elim)
    refine ⟨dropped.closeTransports ?_, tidy.inFlight.keeps ⟨rfl, Nat.le_refl _, fun _ _ => rfl⟩⟩
    intro other same
    exact Or.inl (decide_eq_true same)

theorem Tidy.endMedia (id : SessionId) :
    Tidy members known (state.endMedia id).media := by
  have held : Tidy members known (state.media.closeHeld id) :=
    ⟨tidy.objects.closeHeld id, tidy.inFlight.keeps ⟨rfl, Nat.le_refl _, fun _ _ => rfl⟩⟩
  exact (held.closeTransports _).setPeer (narrows_same rfl rfl rfl rfl)

theorem end_media_closes (id : SessionId) (transport : TransportId)
    (isOpen : ((state.endMedia id).media.transports transport).isOpen = true) :
    ((state.endMedia id).media.transports transport).session ≠ id := by
  intro own
  obtain ⟨before, missed⟩ := open_after isOpen
  have current := (tidy.objects.current transport before fun absurd => absurd).2
  have session : (state.media.transports transport).session = id := own
  rw [session] at current
  unfold Media.isOf at missed
  rw [Bool.or_eq_false_iff] at missed
  cases way : (state.media.transports transport).direction with
  | send =>
    rw [way] at current
    exact of_decide_eq_false missed.1 current
  | recv =>
    rw [way] at current
    exact of_decide_eq_false missed.2 current

end

theorem Tidy.fresh (tidy : Tidy members known media) (absent : id ∉ members) :
    Tidy members known (media.setPeer id Peer.fresh) := by
  have others : ∀ {other}, other ∈ members →
      (Function.update media.peers id Peer.fresh) other = media.peers other := by
    intro other mem
    refine Function.update_of_ne ?_ _ _
    intro same
    rw [same] at mem
    exact absent mem
  have narrower : ∀ other, (Function.update media.peers id Peer.fresh) other = Peer.fresh ∨
      (Function.update media.peers id Peer.fresh) other = media.peers other := by
    intro other
    by_cases same : other = id
    · rw [same]
      exact Or.inl (Function.update_self _ _ _)
    · exact Or.inr (Function.update_of_ne same _ _)
  refine ⟨?_, tidy.inFlight.keeps ⟨rfl, Nat.le_refl _, fun _ _ => rfl⟩⟩
  refine ⟨?_, ?_, tidy.objects.unmade, ?_, ?_, ?_, ?_, ?_⟩
  · intro transport isOpen apart
    obtain ⟨mem, current⟩ := tidy.objects.current transport isOpen apart
    simp only [Media.setPeer]
    rw [others mem]
    exact ⟨mem, current⟩
  · intro other direction transport found
    simp only [Media.setPeer] at found
    rcases narrower other with new | old
    · rw [new] at found
      cases found
    · rw [old] at found
      exact tidy.objects.transport other direction transport found
  · intro producer isOpen
    obtain ⟨before, mem, on, own, rest⟩ := tidy.objects.producing producer isOpen
    simp only [Media.setPeer]
    rw [others mem]
    exact ⟨before, mem, on, own, rest⟩
  · intro other producer entry found
    simp only [Media.setPeer] at found
    rcases narrower other with new | old
    · rw [new] at found
      cases found
    · rw [old] at found
      exact tidy.objects.produced other producer entry found
  · intro other producer told
    simp only [Media.setPeer] at told
    rcases narrower other with new | old
    · rw [new] at told
      cases told
    · rw [old] at told
      exact tidy.objects.notified other producer told
  · intro consumer isOpen
    obtain ⟨before, mem, on, own, rest⟩ := tidy.objects.consuming consumer isOpen
    simp only [Media.setPeer]
    rw [others mem]
    exact ⟨before, mem, on, own, rest⟩
  · intro other consumer producer found
    simp only [Media.setPeer] at found
    rcases narrower other with new | old
    · rw [new] at found
      cases found
    · rw [old] at found
      exact tidy.objects.consumed other consumer producer found

theorem Tidy.grow {members more : List SessionId} {known later : SessionId}
    (tidy : Tidy members known media) (grown : ∀ id ∈ members, id ∈ more)
    (grows : known ≤ later) : Tidy more later media :=
  ⟨tidy.objects.grow grown, tidy.inFlight.later grows⟩

theorem Tidy.shrink {members fewer : List SessionId}
    (tidy : Tidy members known media)
    (kept : ∀ other ∈ members, other ≠ id → other ∈ fewer)
    (transports : ∀ transport, (media.transports transport).isOpen = true →
      (media.transports transport).session ≠ id) : Tidy fewer known media :=
  ⟨tidy.objects.shrink kept transports, tidy.inFlight⟩

theorem get_forget_viewer (peerId : PeerId) (producers : OrderedMap ProducerId ProducerEntry)
    (producer : ProducerId) :
    (State.forgetViewer peerId producers).get producer =
      (producers.get producer).map fun entry =>
        { entry with
          consumers := entry.consumers.filter fun viewer => decide (viewer ≠ peerId) } :=
  get_mapValues _ _ _

/-- The media of a state after a session left it. -/
def State.leftMedia (state : State) (id : SessionId) : Media :=
  let session := state.slots.sessions id
  let ended := (state.endMedia id).media
  { ended with
    peers := fun other =>
      let peer := ended.peers other
      if other = id then
        { peer with producers := OrderedMap.empty, consumers := OrderedMap.empty }
      else if other ∈ state.slots.room session.roomCode then
        { peer with producers := State.forgetViewer session.peerId peer.producers }
      else peer }

theorem handle_peer_left_media (state : State) (id : SessionId) :
    (state.handlePeerLeft id).media = state.leftMedia id := by
  unfold State.handlePeerLeft
  dsimp only
  split_ifs
  · rfl
  · rfl

theorem handle_peer_left_slots (state : State) (id : SessionId) :
    (state.handlePeerLeft id).slots = state.slots := by
  unfold State.handlePeerLeft
  dsimp only
  split_ifs
  · rfl
  · rfl

theorem Tidy.left {members fewer : List SessionId} (tidy : Tidy members known state.media)
    (kept : ∀ other ∈ members, other ≠ id → other ∈ fewer) :
    Tidy fewer known (state.leftMedia id) := by
  have ended := (tidy.endMedia id).shrink kept (end_media_closes tidy id)
  have gone : ∀ {transport}, ((state.endMedia id).media.transports transport).isOpen = true →
      ((state.endMedia id).media.transports transport).session ≠ id :=
    fun isOpen => end_media_closes tidy id _ isOpen
  refine ⟨ended.objects.withPeers ?_, ended.inFlight.keeps ⟨rfl, Nat.le_refl _, fun _ _ => rfl⟩⟩
  intro other
  dsimp only
  split_ifs with own room
  · refine ⟨rfl, rfl, nofun, ?_, nofun, ?_⟩
    · intro producer isOpen session
      obtain ⟨_, _, on, same, _⟩ := ended.objects.producing producer isOpen
      exact absurd (same.trans (session.trans own)) (gone on)
    · intro consumer producer isOpen session
      obtain ⟨_, _, on, same, _⟩ := ended.objects.consuming consumer isOpen
      exact absurd (same.trans (session.trans own)) (gone on)
  · refine ⟨rfl, rfl, ?_, ?_, fun _ _ found => found, fun _ _ _ _ found => found⟩
    · intro producer entry found
      rw [get_forget_viewer] at found
      obtain ⟨before, held, same⟩ := Option.map_eq_some_iff.mp found
      refine ⟨before, held, ?_⟩
      rw [← same]
    · intro producer _ _ held absent
      rw [get_forget_viewer] at absent
      exact held (Option.map_eq_none_iff.mp absent)
  · exact narrows_same rfl rfl rfl rfl

theorem fresh_of_known (books : ∀ id ∈ members, id < known) : known ∉ members :=
  fun mem => Nat.lt_irrefl _ (books known mem)

theorem Tidy.changed {slots : Slots} {change : Change} (books : Books state)
    (move : SlotMove state.slots slots change) :
    Tidy slots.members slots.nextSession (state.changed slots change).media := by
  have tidy := books.tidy
  have members := move.members
  have absent : state.slots.nextSession ∉ state.slots.members :=
    fresh_of_known books.slots.members
  cases change with
  | none => exact tidy.grow (fun id mem => members ▸ mem) move.grows
  | resumed id => exact tidy.grow (fun id mem => members ▸ mem) move.grows
  | entered new replaced =>
    obtain ⟨equal, _⟩ := move.entered new replaced rfl
    cases replaced with
    | none =>
      have grown : Tidy slots.members slots.nextSession
          (state.media.setPeer new Peer.fresh) := by
        refine (tidy.fresh (equal ▸ absent)).grow ?_ move.grows
        intro id mem
        rw [members]
        exact mem_append_left _ mem
      exact grown
    | some old =>
      have kept : ∀ id ∈ state.slots.members, id ≠ old → id ∈ slots.members := by
        intro id mem apart
        rw [members]
        exact mem_map.mpr ⟨id, mem, if_neg apart⟩
      have told : Tidy state.slots.members state.slots.nextSession
          ({ state with slots := slots }.replace old).media := tidy.endMedia old
      have fewer : Tidy (state.slots.members.filter fun id => decide (id ≠ old))
          state.slots.nextSession ({ state with slots := slots }.replace old).media := by
        refine told.shrink ?_ (end_media_closes tidy old)
        intro id mem apart
        exact mem_filter.mpr ⟨mem, decide_eq_true apart⟩
      have outside : new ∉ state.slots.members.filter fun id => decide (id ≠ old) :=
        fun mem => absent (equal ▸ (mem_filter.mp mem).1)
      have grown : Tidy slots.members slots.nextSession
          (({ state with slots := slots }.replace old).media.setPeer new Peer.fresh) := by
        refine (fewer.fresh outside).grow ?_ move.grows
        intro id mem
        obtain ⟨held, apart⟩ := mem_filter.mp mem
        exact kept id held (of_decide_eq_true apart)
      exact grown
  | left id =>
    have left : Tidy slots.members state.slots.nextSession
        (State.leftMedia { state with slots := slots } id) := by
      refine Tidy.left tidy ?_
      intro other mem apart
      rw [members]
      exact mem_filter.mpr ⟨mem, decide_eq_true apart⟩
    have media : (state.changed slots (.left id)).media =
        State.leftMedia { state with slots := slots } id := handle_peer_left_media _ id
    rw [media]
    exact left.grow (fun _ mem => mem) move.grows

section

variable (tidy : Tidy members known state.media)
include tidy

theorem Tidy.landTransport (id : SessionId) (direction : Direction) :
    Tidy members known (state.landTransport id direction).media :=
  tidy.setPeer (narrows_same rfl rfl rfl rfl)

theorem Tidy.landProduce (id : SessionId) :
    Tidy members known (state.landProduce id).media :=
  tidy.setPeer (narrows_same rfl rfl rfl rfl)

theorem Tidy.landConsume (id : SessionId) :
    Tidy members known (state.landConsume id).media :=
  tidy.setPeer (narrows_same rfl rfl rfl rfl)

end

theorem set_peer_self (media : Media) (id : SessionId) :
    media.setPeer id (media.peers id) = media := by
  simp only [Media.setPeer, Function.update_eq_self]

section

variable (tidy : Tidy state.slots.members known state.media)
include tidy

theorem Tidy.produced {transport : TransportId}
    (own : (state.media.transports transport).session = id) (source : Source) :
    Tidy state.slots.members known (state.produced id transport source).media := by
  have landed := tidy.landProduce id
  have kept : CallBooks known (state.landProduce id).media := landed.inFlight
  unfold State.produced
  dsimp only
  split_ifs with stays
  · refine ⟨landed.objects.addProducer ?_ rfl rfl rfl (Or.inl ⟨⟨source, []⟩, rfl, rfl⟩),
      kept.keeps ⟨rfl, Nat.le_refl _, fun _ _ => rfl⟩⟩
    intro isOpen
    rw [Bool.and_eq_true] at isOpen
    exact ⟨of_decide_eq_true stays, isOpen.2, own⟩
  · have closed : (decide (id ∈ state.slots.members) &&
        (state.media.transports transport).isOpen) = false := by
      rw [eq_false_of_ne_true stays, Bool.false_and]
    rw [closed]
    have added : MediaBooks state.slots.members (fun _ => False) (Media.setPeer
        { (state.landProduce id).media with
          producers := Function.update (state.landProduce id).media.producers
            state.media.nextProducer ⟨id, transport, source, false⟩
          nextProducer := state.media.nextProducer + 1 } id
        ((state.landProduce id).media.peers id)) :=
      landed.objects.addProducer nofun rfl rfl rfl (Or.inr ⟨rfl, rfl⟩)
    have same := set_peer_self { (state.landProduce id).media with
      producers := Function.update (state.landProduce id).media.producers
        state.media.nextProducer ⟨id, transport, source, false⟩
      nextProducer := state.media.nextProducer + 1 } id
    rw [same] at added
    exact ⟨added, kept.keeps ⟨rfl, Nat.le_refl _, fun _ _ => rfl⟩⟩

theorem Tidy.consumed {transport : TransportId}
    (own : (state.media.transports transport).session = id) (producer : ProducerId) :
    Tidy state.slots.members known (state.consumed id transport producer).media := by
  have landed := tidy.landConsume id
  have kept : CallBooks known (state.landConsume id).media := landed.inFlight
  unfold State.consumed
  dsimp only
  split_ifs with stays
  · have recorded : ∀ peer : Peer,
        peer.transport = ((state.landConsume id).media.peers id).transport →
        peer.producers = ((state.landConsume id).media.peers id).producers →
        peer.notifiedClosedProducers =
          ((state.landConsume id).media.peers id).notifiedClosedProducers →
        peer.consumers = ((state.landConsume id).media.peers id).consumers.set
          state.media.nextConsumer producer →
        Tidy state.slots.members known (Media.setPeer
          { (state.landConsume id).media with
            consumers := Function.update (state.landConsume id).media.consumers
              state.media.nextConsumer ⟨id, transport, producer,
                decide (id ∈ state.slots.members) && (state.media.transports transport).isOpen⟩
            nextConsumer := state.media.nextConsumer + 1 } id peer) := by
      intro peer transports producers notified consumers
      refine ⟨landed.objects.addConsumer ?_ transports producers notified (Or.inl consumers),
        kept.keeps ⟨rfl, Nat.le_refl _, fun _ _ => rfl⟩⟩
      intro isOpen
      rw [Bool.and_eq_true] at isOpen
      exact ⟨of_decide_eq_true stays, isOpen.2, own⟩
    split
    · refine recorded _ ?_ ?_ ?_ ?_
      · rfl
      · rfl
      · rfl
      · rfl
    · refine Tidy.setViewers ?_ _ _ _
      refine recorded _ ?_ ?_ ?_ ?_
      · rfl
      · rfl
      · rfl
      · rfl
  · have closed : (decide (id ∈ state.slots.members) &&
        (state.media.transports transport).isOpen) = false := by
      rw [eq_false_of_ne_true stays, Bool.false_and]
    rw [closed]
    have added : MediaBooks state.slots.members (fun _ => False) (Media.setPeer
        { (state.landConsume id).media with
          consumers := Function.update (state.landConsume id).media.consumers
            state.media.nextConsumer ⟨id, transport, producer, false⟩
          nextConsumer := state.media.nextConsumer + 1 } id
        ((state.landConsume id).media.peers id)) :=
      landed.objects.addConsumer nofun rfl rfl rfl (Or.inr ⟨rfl, rfl⟩)
    have same := set_peer_self { (state.landConsume id).media with
      consumers := Function.update (state.landConsume id).media.consumers
        state.media.nextConsumer ⟨id, transport, producer, false⟩
      nextConsumer := state.media.nextConsumer + 1 } id
    rw [same] at added
    exact ⟨added, kept.keeps ⟨rfl, Nat.le_refl _, fun _ _ => rfl⟩⟩

theorem MediaBooks.withMade (id : SessionId) (direction : Direction) (router : RouterId) :
    MediaBooks state.slots.members (fun other => other = state.media.nextTransport)
      (state.withMade id direction router).media :=
  (tidy.landTransport id direction).objects.addTransport _

end

theorem CallBooks.withMade (books : CallBooks known state.media) (id : SessionId)
    (direction : Direction) (router : RouterId) :
    CallBooks known (state.withMade id direction router).media := by
  refine books.keeps ⟨rfl, Nat.le_succ _, ?_⟩
  intro other before
  exact congrArg Transport.session (Function.update_of_ne (Nat.ne_of_lt before) _ _)

theorem MediaBooks.dropPrevious {except : TransportId → Prop}
    (books : MediaBooks members except state.media) (id : SessionId) (direction : Direction) :
    MediaBooks members except (state.dropPrevious id direction).media ∧
      ∀ other, ¬except other →
        ((state.dropPrevious id direction).media.transports other).isOpen = true →
          ((state.dropPrevious id direction).media.transports other).session = id →
            ((state.dropPrevious id direction).media.transports other).direction ≠ direction := by
  unfold State.dropPrevious
  split
  · rename_i absent
    refine ⟨books, ?_⟩
    intro other apart isOpen session way
    have current := (books.current other isOpen apart).2
    rw [session, way] at current
    exact nomatch absent.symm.trans current
  · rename_i previous current
    refine ⟨(books.closeTransports fun _ held => Or.inr held).setPeer
      (narrows_same rfl rfl rfl rfl), ?_⟩
    intro other apart isOpen session way
    obtain ⟨before, missed⟩ := open_after isOpen
    have held := (books.current other before apart).2
    have ownSession : (state.media.transports other).session = id := session
    have ownWay : (state.media.transports other).direction = direction := way
    rw [ownSession, ownWay] at held
    have same : other = previous := Option.some.inj (held.symm.trans current)
    exact of_decide_eq_false missed same

theorem CallBooks.dropPrevious (books : CallBooks known state.media) (id : SessionId)
    (direction : Direction) :
    CallBooks known (state.dropPrevious id direction).media := by
  unfold State.dropPrevious
  split
  · exact books
  · exact books.keeps ⟨rfl, Nat.le_refl _, fun _ _ => rfl⟩

theorem drop_previous_next (state : State) (id : SessionId) (direction : Direction) :
    (state.dropPrevious id direction).media.nextTransport = state.media.nextTransport := by
  unfold State.dropPrevious
  split
  · rfl
  · rfl

theorem drop_previous_kept (state : State) (id : SessionId) (direction : Direction)
    (transport : TransportId) :
    ((state.dropPrevious id direction).media.transports transport).session =
        (state.media.transports transport).session ∧
      ((state.dropPrevious id direction).media.transports transport).direction =
        (state.media.transports transport).direction := by
  unfold State.dropPrevious
  split
  · exact ⟨rfl, rfl⟩
  · exact ⟨rfl, rfl⟩

theorem Tidy.transportMade (tidy : Tidy state.slots.members known state.media) (config : Config)
    (id : SessionId) (direction : Direction) (router : RouterId) :
    Tidy state.slots.members known (state.transportMade config id direction router).media := by
  have made := MediaBooks.withMade tidy id direction router
  have calls := tidy.inFlight.withMade id direction router
  have newest : (state.withMade id direction router).media.transports state.media.nextTransport =
      ⟨id, direction, router, decide (id ∈ state.slots.members) &&
        !(state.routers.made router).closed, false⟩ := Function.update_self _ _ _
  rw [State.transport_made_eq]
  split_ifs with stays
  · obtain ⟨dropped, others⟩ := made.dropPrevious id direction
    have called := calls.dropPrevious id direction
    have next := drop_previous_next (state.withMade id direction router) id direction
    have named := drop_previous_kept (state.withMade id direction router) id direction
      state.media.nextTransport
    rw [newest] at named
    refine ⟨?_, called.keeps ⟨rfl, Nat.le_refl _, fun _ _ => rfl⟩⟩
    refine dropped.place (fun _ => False) id direction (some state.media.nextTransport) _ rfl rfl
      rfl rfl ?_ ?_ ?_
    · intro new same
      cases same
      exact ⟨next ▸ Nat.lt_succ_self _, named⟩
    · intro old isOpen session way _
      by_contra apart
      exact others old (fun same => apart (congrArg some same.symm)) isOpen session way
    · intro old same
      exact Or.inr ⟨congrArg some same.symm, stays⟩
  · refine ⟨made.closedExcept ?_, calls⟩
    intro transport same
    rw [same, newest, decide_eq_false stays, Bool.false_and]

theorem Tidy.ended (books : Books state) (call : Call) :
    Tidy (state.ended call).slots.members state.slots.nextSession (state.ended call).media :=
  books.tidy.done call.ws

theorem Tidy.asks (books : Books state) {routers : Routers}
    {peer : Peer} {op : Op} (idle : callOf state.media ws = none)
    (acts : (state.slots.sockets ws).peer = some id)
    (narrows : Narrows state.media id peer)
    (on : ∀ transport, op.on = some transport →
      transport < state.media.nextTransport ∧
        (state.media.transports transport).session = id) :
    Tidy state.slots.members state.slots.nextSession (state.asks routers ws id peer op).media :=
  (books.tidy.setPeer narrows).await (idle_calls idle) (books.slots.joined ws id acts).1 on

theorem Tidy.goesOn (books : Books state) {call : Call}
    (waits : callOf state.media ws = some call) {op : Op}
    (on : ∀ transport, op.on = some transport →
      transport < state.media.nextTransport ∧
        (state.media.transports transport).session = call.session) :
    Tidy state.slots.members state.slots.nextSession (state.goesOn call op).media :=
  (books.tidy.done call.ws).await done_calls
    (books.tidy.inFlight.session call (call_of_mem waits).1) on

theorem Tidy.transportConnected (tidy : Tidy members known state.media) (id : SessionId)
    (direction : Direction) (transport : TransportId) :
    Tidy members known (state.transportConnected id direction transport).media := by
  have same : ∀ other,
      ∃ connected, (Function.update state.media.transports transport
        { state.media.transports transport with connected := true }) other =
          { state.media.transports other with connected := connected } := by
    intro other
    rw [Function.update_apply]
    split_ifs with hit
    · rw [hit]
      exact ⟨true, rfl⟩
    · exact ⟨_, rfl⟩
  have proven : Tidy members known { state.media with
      transports := Function.update state.media.transports transport
        { state.media.transports transport with connected := true } } := by
    refine ⟨⟨?_, ?_, ?_, ?_, tidy.objects.produced, tidy.objects.notified, ?_,
      tidy.objects.consumed⟩, tidy.inFlight.keeps ⟨rfl, Nat.le_refl _, ?_⟩⟩
    · intro other
      obtain ⟨connected, equal⟩ := same other
      dsimp only
      rw [equal]
      exact tidy.objects.current other
    · intro session way other found
      obtain ⟨connected, equal⟩ := same other
      dsimp only
      rw [equal]
      exact tidy.objects.transport session way other found
    · intro other unmade
      obtain ⟨connected, equal⟩ := same other
      dsimp only
      rw [equal]
      exact tidy.objects.unmade other unmade
    · intro producer isOpen
      obtain ⟨connected, equal⟩ := same (state.media.producers producer).transport
      dsimp only
      rw [equal]
      exact tidy.objects.producing producer isOpen
    · intro consumer isOpen
      obtain ⟨connected, equal⟩ := same (state.media.consumers consumer).transport
      dsimp only
      rw [equal]
      exact tidy.objects.consuming consumer isOpen
    · intro other _
      obtain ⟨connected, equal⟩ := same other
      dsimp only
      rw [equal]
  exact proven.setPeer (narrows_same rfl rfl rfl rfl)

/-- Steps that leave the slots, the routers and the calls alone. -/
structure Aside (state next : State) : Prop where
  slots : next.slots = state.slots
  routers : next.routers = state.routers
  calls : next.media.calls = state.media.calls

theorem transport_made_aside (config : Config) (state : State) (id : SessionId)
    (direction : Direction) (router : RouterId) :
    Aside state (state.transportMade config id direction router) := by
  rw [State.transport_made_eq]
  split_ifs
  · unfold State.putTransport State.dropPrevious
    split
    · exact ⟨rfl, rfl, rfl⟩
    · exact ⟨rfl, rfl, rfl⟩
  · exact ⟨rfl, rfl, rfl⟩

theorem produced_aside (state : State) (id : SessionId) (transport : TransportId)
    (source : Source) : Aside state (state.produced id transport source) := by
  rw [State.produced_eq]
  split_ifs
  · exact ⟨rfl, rfl, rfl⟩
  · exact ⟨rfl, rfl, rfl⟩

theorem set_viewers_aside (state : State) (owner : SessionId) (producer : ProducerId)
    (viewers : List PeerId → List PeerId) :
    Aside state (state.setViewers owner producer viewers) := by
  unfold State.setViewers
  dsimp only
  split
  · exact ⟨rfl, rfl, rfl⟩
  · exact ⟨rfl, rfl, rfl⟩

theorem consumed_aside (state : State) (id : SessionId) (transport : TransportId)
    (producer : ProducerId) : Aside state (state.consumed id transport producer) := by
  rw [State.consumed_eq]
  split_ifs
  · unfold State.watch
    dsimp only
    split
    · exact ⟨rfl, rfl, rfl⟩
    · have noted := set_viewers_aside (((state.withConsumer id transport producer).recordConsumer id
        state.media.nextConsumer producer))
      exact ⟨(noted _ _ _).slots, (noted _ _ _).routers, (noted _ _ _).calls⟩
  · exact ⟨rfl, rfl, rfl⟩

theorem unwatch_aside (state : State) (id : SessionId) (producer : ProducerId) :
    Aside state (state.unwatch id producer) := by
  unfold State.unwatch
  dsimp only
  split
  · exact ⟨rfl, rfl, rfl⟩
  · split_ifs
    · exact set_viewers_aside _ _ _ _
    · exact ⟨rfl, rfl, rfl⟩

theorem reap_transport_aside (state : State) (id : SessionId) (direction : Direction)
    (transport : TransportId) : Aside state (state.reapTransport id direction transport) := by
  unfold State.reapTransport
  dsimp only
  split_ifs
  · exact ⟨rfl, rfl, rfl⟩
  · exact ⟨rfl, rfl, rfl⟩

theorem changed_slots (state : State) (slots : Slots) (change : Change) :
    (state.changed slots change).slots = slots := by
  cases change with
  | none | resumed id => rfl
  | entered new old =>
    cases old with
    | none => rfl
    | some old => rfl
  | left id => exact handle_peer_left_slots _ id

theorem changed_calls (state : State) (slots : Slots) (change : Change) :
    (state.changed slots change).media.calls = state.media.calls := by
  cases change with
  | none | resumed id => rfl
  | entered new old =>
    cases old with
    | none => rfl
    | some old => rfl
  | left id =>
    have media : (state.changed slots (.left id)).media = _ := handle_peer_left_media _ id
    rw [media]
    rfl

theorem step_slots {config : Config} {state next : State} {event : Event}
    (taken : step config state event = some next) :
    next.slots = state.slots ∨ ∃ slotEvent change, event = .slots slotEvent ∧
      slotStep (decide (0 < config.RESUME_GRACE_MS)) state.slots slotEvent =
        some (next.slots, change) ∧ next = state.changed next.slots change := by
  cases step_cases taken with
  | slots sees moved =>
    rename_i event slots change
    refine Or.inr ⟨event, change, rfl, ?_, ?_⟩
    · rw [changed_slots]
      exact moved
    · rw [changed_slots]
  | closeConsumer acts indexed present => exact Or.inl (unwatch_aside state _ _).slots
  | transportMade waits op =>
    exact Or.inl (transport_made_aside config (state.ended _) _ _ _).slots
  | produced waits op => exact Or.inl (produced_aside (state.ended _) _ _ _).slots
  | consumed waits op => exact Or.inl (consumed_aside (state.ended _) _ _ _).slots
  | transportTimeout armed => exact Or.inl (reap_transport_aside _ _ _ _).slots
  | transportDown known => exact Or.inl (reap_transport_aside state _ _ _).slots
  | _ => exact Or.inl rfl

theorem Books.sameSlots {state next : State} (books : Books state)
    (slots : next.slots = state.slots)
    (tidy : Tidy state.slots.members state.slots.nextSession next.media) : Books next := by
  refine ⟨?_, ?_, ?_⟩
  · rw [slots]
    exact books.slots
  · rw [slots]
    exact books.keyed
  · rw [slots]
    exact tidy

theorem Books.step {config : Config} {state next : State} {event : Event} (books : Books state)
    (taken : step config state event = some next) : Books next := by
  have on : ∀ {ws call}, callOf state.media ws = some call → ∀ {transport},
      call.op.on = some transport →
        (state.media.transports transport).session = call.session :=
    fun waits _ made => (books.tidy.inFlight.on _ (call_of_mem waits).1 _ made).2
  have keepsPeer : ∀ {id}, Narrows state.media id (state.peer id) :=
    narrows_same rfl rfl rfl rfl
  cases step_cases taken with
  | slots sees moved =>
    have move := slot_move books.slots moved
    refine ⟨?_, ?_, ?_⟩
    · rw [changed_slots]
      exact books.slots.step moved
    · rw [changed_slots]
      exact books.keyed.step books.slots.toSlotBooks move
    · rw [changed_slots]
      exact Tidy.changed books move
  | ignored => exact books
  | createTransport idle acts free given =>
    exact books.sameSlots rfl (Tidy.asks books idle acts (narrows_same rfl rfl rfl rfl) (by intros; contradiction))
  | connectTransport idle acts current =>
    refine books.sameSlots rfl (Tidy.asks books idle acts keepsPeer ?_)
    intro transport same
    cases same
    obtain ⟨known, session, _⟩ := books.tidy.objects.transport _ _ _ current
    exact ⟨known, session⟩
  | produce idle acts current room budget =>
    refine books.sameSlots rfl (Tidy.asks books idle acts (narrows_same rfl rfl rfl rfl) ?_)
    intro transport same
    cases same
    obtain ⟨known, session, _⟩ := books.tidy.objects.transport _ _ _ current
    exact ⟨known, session⟩
  | consume idle acts current new room given =>
    exact books.sameSlots rfl (Tidy.asks books idle acts (narrows_same rfl rfl rfl rfl) (by intros; contradiction))
  | forgotConsumer acts indexed absent =>
    exact books.sameSlots rfl (books.tidy.setPeer (narrows_same rfl rfl rfl rfl))
  | closeConsumer acts indexed present =>
    refine books.sameSlots (unwatch_aside state _ _).slots ?_
    exact ((books.tidy.unwatch _ _).shutConsumer _).dropConsumer _
      (shut_consumer_closed _ _) _
  | closeProducer acts held =>
    rename_i id producer entry
    refine books.sameSlots rfl ((books.tidy.shutProducer producer).setPeer ?_)
    refine ⟨rfl, rfl, ?_, ?_, fun _ _ found => found, fun _ _ _ _ found => found⟩
    · intro other shown found
      rw [get_delete] at found
      split_ifs at found
      exact ⟨shown, found, rfl⟩
    · intro other isOpen _ recorded absent
      rw [get_delete] at absent
      split_ifs at absent with hit
      · rw [hit] at isOpen
        simp only [State.shutProducer, Function.update_self] at isOpen
        cases isOpen
      · exact recorded absent
  | routerForTransport waits op ready =>
    exact books.sameSlots rfl (Tidy.goesOn books waits (by intros; contradiction))
  | transportMade waits op =>
    rename_i call direction router
    refine books.sameSlots (transport_made_aside config (state.ended call) _ _ _).slots ?_
    exact Tidy.transportMade (Tidy.ended books call) config _ _ _
  | transportConnected waits op =>
    exact books.sameSlots rfl ((Tidy.ended books _).transportConnected _ _ _)
  | produced waits op =>
    rename_i call transport source
    refine books.sameSlots (produced_aside (state.ended call) _ _ _).slots ?_
    exact Tidy.produced (Tidy.ended books call) (on waits (by rw [op]; rfl)) source
  | routerForConsume waits op ready can current =>
    refine books.sameSlots rfl (Tidy.goesOn books waits ?_)
    intro transport same
    cases same
    obtain ⟨known, session, _⟩ := books.tidy.objects.transport _ _ _ current
    exact ⟨known, session⟩
  | notConsumed waits op ready | consumeFailed waits op =>
    exact books.sameSlots rfl ((Tidy.ended books _).landConsume _)
  | consumed waits op =>
    rename_i call transport producer
    refine books.sameSlots (consumed_aside (state.ended call) _ _ _).slots ?_
    exact Tidy.consumed (Tidy.ended books call) (on waits (by rw [op]; rfl)) producer
  | transportFailed waits op =>
    exact books.sameSlots rfl ((Tidy.ended books _).landTransport _ _)
  | connectFailed waits op => exact books.sameSlots rfl (Tidy.ended books _)
  | produceFailed waits op =>
    exact books.sameSlots rfl ((Tidy.ended books _).landProduce _)
  | transportTimeout armed =>
    refine books.sameSlots (reap_transport_aside _ _ _ _).slots ?_
    refine Tidy.reapTransport ?_ _ _ _
    exact books.tidy.setPeer (narrows_same rfl rfl rfl rfl)
  | transportDown known =>
    exact books.sameSlots (reap_transport_aside state _ _ _).slots
      (books.tidy.reapTransport _ _ _)
  | producerClose isOpen closed =>
    exact books.sameSlots rfl
      ((books.tidy.shutConsumer _).dropConsumer _ (shut_consumer_closed _ _) _)
  | routerCreated known pending | routerRejected known pending =>
    exact books.sameSlots rfl books.tidy
  | routerClose scheduled ready =>
    exact books.sameSlots rfl (books.tidy.closeTransports _)

end AwfulChat.Sfu
