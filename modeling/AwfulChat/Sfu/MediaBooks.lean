import AwfulChat.Sfu.Service

/-!
# What is open is recorded

An open transport is the current one of a session in the rooms, an open producer or consumer is in
the maps of such a session and on an open transport. A transport may be excepted while it is being
put in place or out of it.
-/

namespace AwfulChat.Sfu

open Library Library.OrderedMap List

set_option autoImplicit false

structure MediaBooks (members : List SessionId) (except : TransportId → Prop) (media : Media) :
    Prop where
  current : ∀ transport, (media.transports transport).isOpen = true → ¬except transport →
    (media.transports transport).session ∈ members ∧
      (media.peers (media.transports transport).session).transport
        (media.transports transport).direction = some transport
  transport : ∀ id direction transport, (media.peers id).transport direction = some transport →
    transport < media.nextTransport ∧ (media.transports transport).session = id ∧
      (media.transports transport).direction = direction
  unmade : ∀ transport, media.nextTransport ≤ transport →
    (media.transports transport).isOpen = false
  producing : ∀ producer, (media.producers producer).isOpen = true →
    producer < media.nextProducer ∧ (media.producers producer).session ∈ members ∧
      (media.transports (media.producers producer).transport).isOpen = true ∧
      (media.transports (media.producers producer).transport).session =
        (media.producers producer).session ∧
      (media.peers (media.producers producer).session).producers.get producer ≠ none ∧
      producer ∉ (media.peers (media.producers producer).session).notifiedClosedProducers
  produced : ∀ id producer entry, (media.peers id).producers.get producer = some entry →
    producer < media.nextProducer ∧ (media.producers producer).session = id ∧
      (media.producers producer).source = entry.source
  notified : ∀ id, ∀ producer ∈ (media.peers id).notifiedClosedProducers,
    producer < media.nextProducer
  consuming : ∀ consumer, (media.consumers consumer).isOpen = true →
    consumer < media.nextConsumer ∧ (media.consumers consumer).session ∈ members ∧
      (media.transports (media.consumers consumer).transport).isOpen = true ∧
      (media.transports (media.consumers consumer).transport).session =
        (media.consumers consumer).session ∧
      (media.peers (media.consumers consumer).session).consumers.get consumer =
        some (media.consumers consumer).producerId
  consumed : ∀ id consumer producer, (media.peers id).consumers.get consumer = some producer →
    consumer < media.nextConsumer ∧ (media.consumers consumer).session = id ∧
      (media.consumers consumer).producerId = producer

theorem MediaBooks.start : MediaBooks [] (fun _ => False) Media.start :=
  ⟨nofun, nofun, fun _ _ => rfl, nofun, nofun, nofun, nofun, nofun⟩

variable {except : TransportId → Prop} {members : List SessionId} {media : Media}

theorem MediaBooks.closedExcept (books : MediaBooks members except media)
    (closed : ∀ transport, except transport → (media.transports transport).isOpen = false) :
    MediaBooks members (fun _ => False) media :=
  { books with
    current := by
      intro transport isOpen _
      refine books.current transport isOpen ?_
      intro excepted
      rw [closed transport excepted] at isOpen
      cases isOpen }

theorem MediaBooks.grow {members more : List SessionId} (books : MediaBooks members except media)
    (grown : ∀ id ∈ members, id ∈ more) : MediaBooks more except media := by
  refine ⟨?_, books.transport, books.unmade, ?_, books.produced, books.notified, ?_,
    books.consumed⟩
  · intro transport isOpen apart
    obtain ⟨mem, current⟩ := books.current transport isOpen apart
    exact ⟨grown _ mem, current⟩
  · intro producer isOpen
    obtain ⟨known, mem, rest⟩ := books.producing producer isOpen
    exact ⟨known, grown _ mem, rest⟩
  · intro consumer isOpen
    obtain ⟨known, mem, rest⟩ := books.consuming consumer isOpen
    exact ⟨known, grown _ mem, rest⟩

theorem MediaBooks.shrink {members fewer : List SessionId} {id : SessionId}
    (books : MediaBooks members (fun _ => False) media)
    (kept : ∀ other ∈ members, other ≠ id → other ∈ fewer)
    (transports : ∀ transport, (media.transports transport).isOpen = true →
      (media.transports transport).session ≠ id) :
    MediaBooks fewer (fun _ => False) media := by
  refine ⟨?_, books.transport, books.unmade, ?_, books.produced, books.notified, ?_,
    books.consumed⟩
  · intro transport isOpen apart
    obtain ⟨mem, current⟩ := books.current transport isOpen apart
    exact ⟨kept _ mem (transports transport isOpen), current⟩
  · intro producer isOpen
    obtain ⟨known, mem, on, same, rest⟩ := books.producing producer isOpen
    exact ⟨known, kept _ mem (same ▸ transports _ on), on, same, rest⟩
  · intro consumer isOpen
    obtain ⟨known, mem, on, same, recorded⟩ := books.consuming consumer isOpen
    exact ⟨known, kept _ mem (same ▸ transports _ on), on, same, recorded⟩

/-- Another record of a session with the same transports, whose maps hold no more than before and
still all that is open. -/
structure Narrows (media : Media) (id : SessionId) (peer : Peer) : Prop where
  transport : peer.transport = (media.peers id).transport
  notified : peer.notifiedClosedProducers = (media.peers id).notifiedClosedProducers
  produced : ∀ producer entry, peer.producers.get producer = some entry →
    ∃ before, (media.peers id).producers.get producer = some before ∧
      before.source = entry.source
  producing : ∀ producer, (media.producers producer).isOpen = true →
    (media.producers producer).session = id →
      (media.peers id).producers.get producer ≠ none → peer.producers.get producer ≠ none
  consumed : ∀ consumer producer, peer.consumers.get consumer = some producer →
    (media.peers id).consumers.get consumer = some producer
  consuming : ∀ consumer producer, (media.consumers consumer).isOpen = true →
    (media.consumers consumer).session = id →
      (media.peers id).consumers.get consumer = some producer →
        peer.consumers.get consumer = some producer

variable {peer : Peer}

theorem narrows_same {id : SessionId} (transport : peer.transport = (media.peers id).transport)
    (producers : peer.producers = (media.peers id).producers)
    (consumers : peer.consumers = (media.peers id).consumers)
    (notified : peer.notifiedClosedProducers = (media.peers id).notifiedClosedProducers) :
    Narrows media id peer := by
  refine ⟨transport, notified, ?_, ?_, ?_, ?_⟩
  · intro producer entry found
    rw [producers] at found
    exact ⟨entry, found, rfl⟩
  · intro producer _ _ held
    rw [producers]
    exact held
  · intro consumer producer found
    rw [consumers] at found
    exact found
  · intro consumer producer _ _ held
    rw [consumers]
    exact held

theorem MediaBooks.withPeers (books : MediaBooks members except media) {peers : SessionId → Peer}
    (narrows : ∀ id, Narrows media id (peers id)) :
    MediaBooks members except { media with peers := peers } := by
  refine ⟨?_, ?_, books.unmade, ?_, ?_, ?_, ?_, ?_⟩
  · intro transport isOpen apart
    dsimp only
    rw [(narrows _).transport]
    exact books.current transport isOpen apart
  · intro id direction transport
    dsimp only
    rw [(narrows _).transport]
    exact books.transport id direction transport
  · intro producer isOpen
    obtain ⟨known, mem, on, own, recorded, untold⟩ := books.producing producer isOpen
    refine ⟨known, mem, on, own, (narrows _).producing producer isOpen rfl recorded, ?_⟩
    dsimp only
    rw [(narrows _).notified]
    exact untold
  · intro id producer entry found
    obtain ⟨before, held, source⟩ := (narrows id).produced producer entry found
    obtain ⟨known, own, recorded⟩ := books.produced id producer before held
    exact ⟨known, own, recorded.trans source⟩
  · intro id
    dsimp only
    rw [(narrows _).notified]
    exact books.notified id
  · intro consumer isOpen
    obtain ⟨known, mem, on, own, recorded⟩ := books.consuming consumer isOpen
    exact ⟨known, mem, on, own, (narrows _).consuming consumer _ isOpen rfl recorded⟩
  · intro id consumer producer found
    exact books.consumed id consumer producer ((narrows id).consumed consumer producer found)

theorem MediaBooks.setPeer (books : MediaBooks members except media) {id : SessionId}
    (narrows : Narrows media id peer) : MediaBooks members except (media.setPeer id peer) := by
  refine books.withPeers ?_
  intro other
  rw [Function.update_apply]
  split_ifs with hit
  · rw [hit]
    exact narrows
  · exact narrows_same rfl rfl rfl rfl

theorem open_after {isOpen hit : Bool} (stays : (isOpen && !hit) = true) :
    isOpen = true ∧ hit = false := by
  rw [Bool.and_eq_true, Bool.not_eq_true'] at stays
  exact stays

theorem MediaBooks.withObjects
    (books : MediaBooks members except media)
    {producers : ProducerId → Producer} {consumers : ConsumerId → Consumer}
    (produced : ∀ producer, ∃ isOpen, producers producer =
      { media.producers producer with isOpen := isOpen } ∧
        (isOpen = true → (media.producers producer).isOpen = true))
    (consumed : ∀ consumer, ∃ isOpen, consumers consumer =
      { media.consumers consumer with isOpen := isOpen } ∧
        (isOpen = true → (media.consumers consumer).isOpen = true)) :
    MediaBooks members except { media with producers := producers, consumers := consumers } := by
  refine ⟨books.current, books.transport, books.unmade, ?_, ?_, books.notified, ?_, ?_⟩
  · intro producer now
    obtain ⟨isOpen, same, before⟩ := produced producer
    dsimp only at now ⊢
    rw [same] at now ⊢
    exact books.producing producer (before now)
  · intro id producer entry found
    obtain ⟨isOpen, same, before⟩ := produced producer
    dsimp only
    rw [same]
    exact books.produced id producer entry found
  · intro consumer now
    obtain ⟨isOpen, same, before⟩ := consumed consumer
    dsimp only at now ⊢
    rw [same] at now ⊢
    exact books.consuming consumer (before now)
  · intro id consumer producer found
    obtain ⟨isOpen, same, before⟩ := consumed consumer
    dsimp only
    rw [same]
    exact books.consumed id consumer producer found

theorem MediaBooks.closeHeld (books : MediaBooks members except media) (id : SessionId) :
    MediaBooks members except (media.closeHeld id) :=
  books.withObjects
    (fun _ => ⟨_, rfl, fun stays => (open_after stays).1⟩)
    (fun _ => ⟨_, rfl, fun stays => (open_after stays).1⟩)

theorem MediaBooks.shutProducer (books : MediaBooks members except media) (producer : ProducerId) :
    MediaBooks members except { media with
      producers := Function.update media.producers producer
        { media.producers producer with isOpen := false } } := by
  refine books.withObjects ?_ fun consumer => ⟨_, rfl, fun stays => stays⟩
  intro other
  rw [Function.update_apply]
  split_ifs with hit
  · rw [hit]
    exact ⟨false, rfl, nofun⟩
  · exact ⟨_, rfl, fun stays => stays⟩

theorem MediaBooks.shutConsumer (books : MediaBooks members except media) (consumer : ConsumerId) :
    MediaBooks members except { media with
      consumers := Function.update media.consumers consumer
        { media.consumers consumer with isOpen := false } } := by
  refine books.withObjects (fun producer => ⟨_, rfl, fun stays => stays⟩) ?_
  intro other
  rw [Function.update_apply]
  split_ifs with hit
  · rw [hit]
    exact ⟨false, rfl, nofun⟩
  · exact ⟨_, rfl, fun stays => stays⟩

theorem MediaBooks.withCalls (books : MediaBooks members except media) (calls : List Call) :
    MediaBooks members except { media with calls := calls } :=
  ⟨books.current, books.transport, books.unmade, books.producing, books.produced,
    books.notified, books.consuming, books.consumed⟩

theorem MediaBooks.closeTransports {except later : TransportId → Prop}
    (books : MediaBooks members except media) {hit : TransportId → Bool}
    (closes : ∀ transport, except transport → hit transport = true ∨ later transport) :
    MediaBooks members later (media.closeTransports hit) := by
  refine ⟨?_, books.transport, ?_, ?_, ?_, ?_, ?_, ?_⟩
  · intro transport isOpen apart
    obtain ⟨before, missed⟩ := open_after isOpen
    refine books.current transport before ?_
    intro excepted
    rcases closes transport excepted with closed | still
    · rw [closed] at missed
      cases missed
    · exact apart still
  · intro transport unmade
    simp only [Media.closeTransports, books.unmade transport unmade, Bool.false_and]
  · intro producer isOpen
    obtain ⟨before, missed⟩ := open_after isOpen
    obtain ⟨known, mem, on, own, recorded, untold⟩ := books.producing producer before
    have stays : media.ends hit producer = false := by
      simp only [Media.ends, missed, Bool.and_false, Bool.false_and]
    have unended : producer ∉ (List.range media.nextProducer).filter fun other =>
        media.ends hit other && decide ((media.producers other).session =
          (media.producers producer).session) := by
      intro listed
      have ended := (mem_filter.mp listed).2
      rw [stays] at ended
      cases ended
    refine ⟨known, mem, ?_, own, ?_, ?_⟩
    · simp only [Media.closeTransports, on, missed, Bool.not_false, Bool.and_self]
    · simp only [Media.closeTransports]
      rw [get_keep, if_pos]
      · exact recorded
      · rw [Bool.not_eq_true', contains_eq_mem]
        exact decide_eq_false unended
    · simp only [Media.closeTransports]
      intro told
      rcases mem_append.mp told with old | new
      · exact untold old
      · exact unended new
  · intro id producer entry found
    simp only [Media.closeTransports] at found ⊢
    rw [get_keep] at found
    split_ifs at found
    exact books.produced id producer entry found
  · intro id producer told
    simp only [Media.closeTransports] at told ⊢
    rcases mem_append.mp told with old | new
    · exact books.notified id producer old
    · exact mem_range.mp (mem_filter.mp new).1
  · intro consumer isOpen
    obtain ⟨before, missed⟩ := open_after isOpen
    obtain ⟨known, mem, on, own, recorded⟩ := books.consuming consumer before
    refine ⟨known, mem, ?_, own, ?_⟩
    · simp only [Media.closeTransports, on, missed, Bool.not_false, Bool.and_self]
    · simp only [Media.closeTransports]
      rw [get_keep, if_pos]
      · exact recorded
      · rw [Bool.not_eq_true', contains_eq_mem]
        apply decide_eq_false
        intro listed
        have dropped := (mem_filter.mp listed).2
        simp only [Media.drops, missed, Bool.and_false, Bool.false_and] at dropped
        cases dropped
  · intro id consumer producer found
    simp only [Media.closeTransports] at found ⊢
    rw [get_keep] at found
    split_ifs at found
    exact books.consumed id consumer producer found

theorem update_field {Field : Type} (field : Peer → Field) {peers : SessionId → Peer}
    {id : SessionId} (same : field peer = field (peers id)) (other : SessionId) :
    field (Function.update peers id peer other) = field (peers other) := by
  rw [Function.update_apply]
  split_ifs with hit
  · rw [hit, same]
  · rfl

theorem MediaBooks.place
    (books : MediaBooks members except media) (later : TransportId → Prop)
    (id : SessionId) (direction : Direction) (value : Option TransportId) (peer : Peer)
    (transport : peer.transport = Function.update (media.peers id).transport direction value)
    (producers : peer.producers = (media.peers id).producers)
    (consumers : peer.consumers = (media.peers id).consumers)
    (notified : peer.notifiedClosedProducers = (media.peers id).notifiedClosedProducers)
    (placed : ∀ new, value = some new → new < media.nextTransport ∧
      (media.transports new).session = id ∧ (media.transports new).direction = direction)
    (covers : ∀ old, (media.transports old).isOpen = true → (media.transports old).session = id →
      (media.transports old).direction = direction → ¬later old → value = some old)
    (keeps : ∀ old, except old → later old ∨ value = some old ∧ id ∈ members) :
    MediaBooks members later (media.setPeer id peer) := by
  have others : ∀ other, other ≠ id → (media.setPeer id peer).peers other = media.peers other :=
    fun other apart => Function.update_of_ne apart _ _
  have own : (media.setPeer id peer).peers id = peer := Function.update_self _ _ _
  have produced := update_field Peer.producers producers
  have consumed := update_field Peer.consumers consumers
  have told := update_field Peer.notifiedClosedProducers notified
  refine ⟨?_, ?_, books.unmade, ?_, ?_, ?_, ?_, ?_⟩
  · intro old isOpen apart
    by_cases hit : (media.transports old).session = id ∧
        (media.transports old).direction = direction
    · have chosen := covers old isOpen hit.1 hit.2 apart
      refine ⟨?_, ?_⟩
      · by_cases excepted : except old
        · exact hit.1 ▸ ((keeps old excepted).resolve_left apart).2
        · exact (books.current old isOpen excepted).1
      · simp only [Media.setPeer, hit.1, Function.update_self, transport, hit.2]
        exact chosen
    · have unexcepted : ¬except old := by
        intro excepted
        obtain ⟨chosen, _⟩ := (keeps old excepted).resolve_left apart
        exact hit (placed old chosen).2
      obtain ⟨mem, current⟩ := books.current old isOpen unexcepted
      refine ⟨mem, ?_⟩
      by_cases same : (media.transports old).session = id
      · have unlike : (media.transports old).direction ≠ direction := fun equal => hit ⟨same, equal⟩
        simp only [Media.setPeer, same, Function.update_self, transport]
        rw [Function.update_of_ne unlike, ← same]
        exact current
      · simp only [Media.setPeer]
        rw [Function.update_of_ne same]
        exact current
  · intro other way new found
    by_cases same : other = id
    · rw [same, own, transport, Function.update_apply] at found
      split_ifs at found with hit
      · rw [same, hit]
        exact placed new found
      · rw [same]
        exact books.transport id way new found
    · rw [others other same] at found
      exact books.transport other way new found
  · simpa only [Media.setPeer, produced, told] using books.producing
  · simpa only [Media.setPeer, produced] using books.produced
  · simpa only [Media.setPeer, told] using books.notified
  · simpa only [Media.setPeer, consumed] using books.consuming
  · simpa only [Media.setPeer, consumed] using books.consumed

theorem MediaBooks.addTransport (books : MediaBooks members (fun _ => False) media)
    (made : Transport) :
    MediaBooks members (fun transport => transport = media.nextTransport) { media with
      transports := Function.update media.transports media.nextTransport made
      nextTransport := media.nextTransport + 1 } := by
  have old : ∀ transport, transport ≠ media.nextTransport →
      (Function.update media.transports media.nextTransport made) transport =
        media.transports transport := fun transport apart => Function.update_of_ne apart _ _
  have standing : ∀ {transport}, (media.transports transport).isOpen = true →
      transport ≠ media.nextTransport := by
    intro transport isOpen same
    rw [books.unmade transport (Nat.le_of_eq same.symm)] at isOpen
    cases isOpen
  refine ⟨?_, ?_, ?_, ?_, books.produced, books.notified, ?_, books.consumed⟩
  · intro transport isOpen apart
    dsimp only at isOpen ⊢
    rw [old transport apart] at isOpen ⊢
    exact books.current transport isOpen fun absurd => absurd
  · intro id direction transport found
    obtain ⟨known, own, way⟩ := books.transport id direction transport found
    dsimp only
    rw [old transport (Nat.ne_of_lt known)]
    exact ⟨Nat.lt_succ_of_lt known, own, way⟩
  · intro transport unmade
    dsimp only
    rw [old transport (Nat.ne_of_gt unmade)]
    exact books.unmade transport (Nat.le_of_succ_le unmade)
  · intro producer isOpen
    obtain ⟨known, mem, on, own, rest⟩ := books.producing producer isOpen
    dsimp only
    rw [old _ (standing on)]
    exact ⟨known, mem, on, own, rest⟩
  · intro consumer isOpen
    obtain ⟨known, mem, on, own, rest⟩ := books.consuming consumer isOpen
    dsimp only
    rw [old _ (standing on)]
    exact ⟨known, mem, on, own, rest⟩

theorem MediaBooks.addProducer
    (books : MediaBooks members except media) {made : Producer}
    (on : made.isOpen = true → made.session ∈ members ∧
      (media.transports made.transport).isOpen = true ∧
      (media.transports made.transport).session = made.session)
    (transport : peer.transport = (media.peers made.session).transport)
    (consumers : peer.consumers = (media.peers made.session).consumers)
    (notified : peer.notifiedClosedProducers =
      (media.peers made.session).notifiedClosedProducers)
    (producers : (∃ entry : ProducerEntry, entry.source = made.source ∧ peer.producers =
        (media.peers made.session).producers.set media.nextProducer entry) ∨
      made.isOpen = false ∧ peer.producers = (media.peers made.session).producers) :
    MediaBooks members except (Media.setPeer { media with
      producers := Function.update media.producers media.nextProducer made
      nextProducer := media.nextProducer + 1 } made.session peer) := by
  have old : ∀ producer, producer ≠ media.nextProducer →
      (Function.update media.producers media.nextProducer made) producer =
        media.producers producer := fun producer apart => Function.update_of_ne apart _ _
  have new : (Function.update media.producers media.nextProducer made) media.nextProducer =
      made := Function.update_self _ _ _
  have others : ∀ id, id ≠ made.session →
      (Function.update media.peers made.session peer) id = media.peers id :=
    fun id apart => Function.update_of_ne apart _ _
  have own : (Function.update media.peers made.session peer) made.session = peer :=
    Function.update_self _ _ _
  have transports := update_field Peer.transport transport
  have consumed := update_field Peer.consumers consumers
  have told := update_field Peer.notifiedClosedProducers notified
  have held : ∀ id producer, producer ≠ media.nextProducer →
      ((Function.update media.peers made.session peer) id).producers.get producer =
        (media.peers id).producers.get producer := by
    intro id producer apart
    by_cases same : id = made.session
    · rw [same, own]
      rcases producers with ⟨entry, _, grown⟩ | ⟨_, kept⟩
      · rw [grown, get_set_other _ _ _ _ apart]
      · rw [kept]
    · rw [others id same]
  have untold : ∀ id, media.nextProducer ∉ (media.peers id).notifiedClosedProducers :=
    fun id told => Nat.lt_irrefl _ (books.notified id _ told)
  have unheld : ∀ id, (media.peers id).producers.get media.nextProducer = none := by
    intro id
    refine Option.eq_none_iff_forall_ne_some.mpr ?_
    intro entry found
    exact Nat.lt_irrefl _ (books.produced id _ entry found).1
  refine ⟨?_, ?_, books.unmade, ?_, ?_, ?_, ?_, ?_⟩
  · simpa only [Media.setPeer, transports] using books.current
  · simpa only [Media.setPeer, transports] using books.transport
  · intro producer isOpen
    simp only [Media.setPeer] at isOpen ⊢
    by_cases hit : producer = media.nextProducer
    · rw [hit, new] at isOpen
      obtain ⟨mem, stands, ownSession⟩ := on isOpen
      rw [hit, new, own, notified]
      refine ⟨Nat.lt_succ_self _, mem, stands, ownSession, ?_, untold _⟩
      rcases producers with ⟨entry, _, grown⟩ | ⟨closed, _⟩
      · rw [grown, get_set_self]
        rintro ⟨⟩
      · rw [closed] at isOpen
        cases isOpen
    · rw [old producer hit] at isOpen ⊢
      rw [held _ producer hit, told]
      obtain ⟨known, rest⟩ := books.producing producer isOpen
      exact ⟨Nat.lt_succ_of_lt known, rest⟩
  · intro id producer entry found
    simp only [Media.setPeer] at found ⊢
    by_cases hit : producer = media.nextProducer
    · rw [hit] at found
      rw [hit, new]
      by_cases same : id = made.session
      · rw [same, own] at found
        rcases producers with ⟨first, source, grown⟩ | ⟨_, kept⟩
        · rw [grown, get_set_self] at found
          cases found
          exact ⟨Nat.lt_succ_self _, same.symm, source.symm⟩
        · rw [kept, unheld] at found
          cases found
      · rw [others id same, unheld] at found
        cases found
    · rw [held id producer hit] at found
      rw [old producer hit]
      obtain ⟨known, rest⟩ := books.produced id producer entry found
      exact ⟨Nat.lt_succ_of_lt known, rest⟩
  · intro id producer
    simp only [Media.setPeer, told]
    exact fun notified => Nat.lt_succ_of_lt (books.notified id producer notified)
  · simpa only [Media.setPeer, consumed] using books.consuming
  · simpa only [Media.setPeer, consumed] using books.consumed

theorem MediaBooks.addConsumer
    (books : MediaBooks members except media) {made : Consumer}
    (on : made.isOpen = true → made.session ∈ members ∧
      (media.transports made.transport).isOpen = true ∧
      (media.transports made.transport).session = made.session)
    (transport : peer.transport = (media.peers made.session).transport)
    (producers : peer.producers = (media.peers made.session).producers)
    (notified : peer.notifiedClosedProducers =
      (media.peers made.session).notifiedClosedProducers)
    (consumers : peer.consumers =
        (media.peers made.session).consumers.set media.nextConsumer made.producerId ∨
      made.isOpen = false ∧ peer.consumers = (media.peers made.session).consumers) :
    MediaBooks members except (Media.setPeer { media with
      consumers := Function.update media.consumers media.nextConsumer made
      nextConsumer := media.nextConsumer + 1 } made.session peer) := by
  have old : ∀ consumer, consumer ≠ media.nextConsumer →
      (Function.update media.consumers media.nextConsumer made) consumer =
        media.consumers consumer := fun consumer apart => Function.update_of_ne apart _ _
  have new : (Function.update media.consumers media.nextConsumer made) media.nextConsumer =
      made := Function.update_self _ _ _
  have others : ∀ id, id ≠ made.session →
      (Function.update media.peers made.session peer) id = media.peers id :=
    fun id apart => Function.update_of_ne apart _ _
  have own : (Function.update media.peers made.session peer) made.session = peer :=
    Function.update_self _ _ _
  have transports := update_field Peer.transport transport
  have produced := update_field Peer.producers producers
  have told := update_field Peer.notifiedClosedProducers notified
  have held : ∀ id consumer, consumer ≠ media.nextConsumer →
      ((Function.update media.peers made.session peer) id).consumers.get consumer =
        (media.peers id).consumers.get consumer := by
    intro id consumer apart
    by_cases same : id = made.session
    · rw [same, own]
      rcases consumers with grown | ⟨_, kept⟩
      · rw [grown, get_set_other _ _ _ _ apart]
      · rw [kept]
    · rw [others id same]
  have unheld : ∀ id, (media.peers id).consumers.get media.nextConsumer = none := by
    intro id
    refine Option.eq_none_iff_forall_ne_some.mpr ?_
    intro producer found
    exact Nat.lt_irrefl _ (books.consumed id _ producer found).1
  refine ⟨?_, ?_, books.unmade, ?_, ?_, ?_, ?_, ?_⟩
  · simpa only [Media.setPeer, transports] using books.current
  · simpa only [Media.setPeer, transports] using books.transport
  · simpa only [Media.setPeer, produced, told] using books.producing
  · simpa only [Media.setPeer, produced] using books.produced
  · simpa only [Media.setPeer, told] using books.notified
  · intro consumer isOpen
    simp only [Media.setPeer] at isOpen ⊢
    by_cases hit : consumer = media.nextConsumer
    · rw [hit, new] at isOpen
      obtain ⟨mem, stands, ownSession⟩ := on isOpen
      rw [hit, new, own]
      refine ⟨Nat.lt_succ_self _, mem, stands, ownSession, ?_⟩
      rcases consumers with grown | ⟨closed, _⟩
      · rw [grown, get_set_self]
      · rw [closed] at isOpen
        cases isOpen
    · rw [old consumer hit] at isOpen ⊢
      rw [held _ consumer hit]
      obtain ⟨known, rest⟩ := books.consuming consumer isOpen
      exact ⟨Nat.lt_succ_of_lt known, rest⟩
  · intro id consumer producer found
    simp only [Media.setPeer] at found ⊢
    by_cases hit : consumer = media.nextConsumer
    · rw [hit] at found
      rw [hit, new]
      by_cases same : id = made.session
      · rw [same, own] at found
        rcases consumers with grown | ⟨_, kept⟩
        · rw [grown, get_set_self] at found
          cases found
          exact ⟨Nat.lt_succ_self _, same.symm, rfl⟩
        · rw [kept, unheld] at found
          cases found
      · rw [others id same, unheld] at found
        cases found
    · rw [held id consumer hit] at found
      rw [old consumer hit]
      obtain ⟨known, rest⟩ := books.consumed id consumer producer found
      exact ⟨Nat.lt_succ_of_lt known, rest⟩

end AwfulChat.Sfu
