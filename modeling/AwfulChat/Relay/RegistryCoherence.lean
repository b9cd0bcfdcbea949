import AwfulChat.Library.Runs
import AwfulChat.Relay.Registry
import Mathlib.Data.Finset.Card

/-!
# The five places of a membership agree

A membership is in the room, on the stream, in the total and with the stream's sources. The
calls of the registry are made of five moves: a membership comes or goes, a stream comes or
goes, a budget is charged. Each keeps the places together and the bounds.
-/

namespace AwfulChat.Relay

open Library Library.OrderedMap List Option

set_option autoImplicit false

namespace Registry

def fromSource (key : SourceKey) (_ : StreamId) (client : ConnectedClient) : Int :=
  if key ∈ client.sourceKeys then 1 else 0

def heldFrom (key : SourceKey) (_ : StreamId) (client : ConnectedClient) : Int :=
  if key ∈ client.sourceKeys then client.rooms.length else 0

def roomCount (_ : StreamId) (client : ConnectedClient) : Int := client.rooms.length

def streamsFrom (r : Registry) (key : SourceKey) : Int :=
  ((r.sources.get key).map SourceState.streams).getD 0

def heldBySource (r : Registry) (key : SourceKey) : Int :=
  ((r.sources.get key).map SourceState.held).getD 0

/-- What every call finds and leaves. -/
structure Coherent (r : Registry) : Prop where
  /-- A live stream is one of its peer's. -/
  listed : ∀ c client, r.streams.get c = some client → c ∈ r.streamsOf client.peerId
  live : ∀ peerId, ∀ c ∈ r.streamsOf peerId, ∃ client, r.streams.get c = some client ∧
    client.peerId = peerId
  noEmptyPeer : ∀ peerId, r.clients.get peerId ≠ some []
  once : ∀ peerId, (r.streamsOf peerId).Nodup
  noEmptyRoom : ∀ room, r.rooms.get room ≠ some []
  membersOnce : ∀ room, (r.membersOf room).Nodup
  /-- A stream is in a room exactly when the room is in its own set. -/
  members : ∀ room c, c ∈ r.membersOf room ↔ room ∈ r.roomsOf c
  roomsOnce : ∀ c, (r.roomsOf c).Nodup
  keysOnce : ∀ c client, r.streams.get c = some client → client.sourceKeys.Nodup
  total : r.total = r.streams.total roomCount
  sourceStreams : ∀ key, r.streamsFrom key = r.streams.total (fromSource key)
  sourceHeld : ∀ key, r.heldBySource key = r.streams.total (heldFrom key)
  noEmptySource : ∀ key state, r.sources.get key = some state → 0 < state.streams
  budgets : ∀ peerId, r.emptyRegisters.has peerId = r.clients.has peerId ∧
    r.joins.has peerId = r.clients.has peerId
  new : ∀ c client, r.streams.get c = some client → c < r.opened

structure Bounded (r : Registry) : Prop where
  streams : ∀ peerId, (r.streamsOf peerId).length ≤ maxStreamsPerPeer
  rooms : ∀ peerId, r.roomsHeldByPeer peerId ≤ maxRoomsPerPeer
  source : ∀ key state, r.sources.get key = some state → state.held ≤ state.maxHeld
  peers : ∀ room, (r.peersAmong (r.membersOf room)).length ≤ maxPeersPerRoom
  total : r.total ≤ maxTotalRegistrations + guaranteedRoomsPerPeer * r.clients.size

/-- What a peer holds past its guaranteed rooms. -/
def excess (r : Registry) (peerId : PeerId) (_ : List StreamId) : Int :=
  (r.roomsHeldByPeer peerId - guaranteedRoomsPerPeer : Nat)

def heldOf (r : Registry) (peerId : PeerId) (_ : List StreamId) : Int := r.roomsHeldByPeer peerId

structure Inv (r : Registry) : Prop extends Coherent r where
  streamBound : ∀ peerId, (r.streamsOf peerId).length ≤ maxStreamsPerPeer
  roomBound : ∀ peerId, r.roomsHeldByPeer peerId ≤ maxRoomsPerPeer
  sourceBound : ∀ key state, r.sources.get key = some state → state.held ≤ state.maxHeld
  peerBound : ∀ room, (r.peersAmong (r.membersOf room)).length ≤ maxPeersPerRoom
  /-- The total by peers, and the soft ceiling. -/
  byPeer : r.total = r.clients.total r.heldOf
  ceiling : r.clients.total r.excess ≤ maxTotalRegistrations

section

variable {client : ConnectedClient} {r : Registry} {c : StreamId} {keys : List SourceKey}
  {isProxyClassAddr : Address → Bool} {room : Room} {peerId : PeerId} {key : SourceKey}

theorem Inv.bounded (inv : Inv r) : Bounded r where
  streams := inv.streamBound
  rooms := inv.roomBound
  source := inv.sourceBound
  peers := inv.peerBound
  total := by
    have within : r.clients.total r.heldOf ≤
        r.clients.total fun peerId ids => r.excess peerId ids + guaranteedRoomsPerPeer := by
      apply total_mono
      intro peerId ids
      unfold heldOf excess
      omega
    rw [total_add_const] at within
    have ceiling := inv.ceiling
    rw [inv.byPeer]
    omega

section Start

theorem new_registry_streams_of (peerId : PeerId) : newRegistry.streamsOf peerId = [] := rfl

theorem new_registry_members_of (room : Room) : newRegistry.membersOf room = [] := rfl

theorem new_registry_rooms_of (c : StreamId) : newRegistry.roomsOf c = [] := rfl

theorem new_registry_stream (c : StreamId) : newRegistry.streams.get c = none := rfl

theorem new_registry_source (key : SourceKey) : newRegistry.sources.get key = none := rfl

theorem new_registry_held (peerId : PeerId) : newRegistry.roomsHeldByPeer peerId = 0 := by
  rw [roomsHeldByPeer, new_registry_streams_of, map_nil, sum_nil]

theorem new_registry_coherent : Coherent newRegistry where
  listed := by
    intro c client found
    rw [new_registry_stream] at found
    cases found
  live := by
    intro peerId c mem
    rw [new_registry_streams_of] at mem
    cases mem
  noEmptyPeer := by
    intro peerId
    show (none : Option (List StreamId)) ≠ some []
    exact nofun
  once := fun peerId => new_registry_streams_of peerId ▸ nodup_nil
  noEmptyRoom := by
    intro room
    show (none : Option (List StreamId)) ≠ some []
    exact nofun
  membersOnce := fun room => new_registry_members_of room ▸ nodup_nil
  members := by
    intro room c
    rw [new_registry_members_of, new_registry_rooms_of]
    simp
  roomsOnce := fun c => new_registry_rooms_of c ▸ nodup_nil
  keysOnce := by
    intro c client found
    rw [new_registry_stream] at found
    cases found
  total := rfl
  sourceStreams := fun _ => rfl
  sourceHeld := fun _ => rfl
  noEmptySource := by
    intro key state found
    rw [new_registry_source] at found
    cases found
  budgets := fun _ => ⟨rfl, rfl⟩
  new := by
    intro c client found
    rw [new_registry_stream] at found
    cases found

theorem new_registry_inv : Inv newRegistry where
  toCoherent := new_registry_coherent
  streamBound := fun peerId => by
    rw [new_registry_streams_of]
    exact Nat.zero_le _
  roomBound := fun peerId => by
    rw [new_registry_held]
    exact Nat.zero_le _
  sourceBound := by
    intro key state found
    rw [new_registry_source] at found
    cases found
  peerBound := fun room => by
    rw [new_registry_members_of]
    exact Nat.zero_le _
  byPeer := rfl
  ceiling := by
    have nothing : newRegistry.clients.total newRegistry.excess = 0 := rfl
    rw [nothing]
    exact Int.natCast_nonneg _

end Start

theorem sum_map_change {Item : Type} {list : List Item} {item : Item} {before after : Item → Nat}
    (once : list.Nodup) (mem : item ∈ list)
    (same : ∀ other, other ≠ item → after other = before other) :
    ((list.map after).sum : Int) = (list.map before).sum - before item + after item := by
  induction list with
  | nil => cases mem
  | cons head rest ih =>
    obtain ⟨fresh, others⟩ := nodup_cons.mp once
    simp only [map_cons, sum_cons, Nat.cast_add]
    by_cases here : head = item
    · subst here
      have tail : rest.map after = rest.map before := by
        apply map_congr_left
        intro other listed
        exact same other fun clash => fresh (clash ▸ listed)
      rw [tail]
      omega
    · have later := ih others ((mem_cons.mp mem).resolve_left (Ne.symm here))
      rw [same head here, later]
      omega

theorem streams_peer (inv : Coherent r) (found : r.streams.get c = some client) :
    c ∈ r.streamsOf peerId ↔ peerId = client.peerId := by
  constructor
  · intro mem
    obtain ⟨other, there, same⟩ := inv.live peerId c mem
    rw [found] at there
    cases there
    exact same.symm
  · rintro rfl
    exact inv.listed c client found

section Resize

variable {r next : Registry} {c : StreamId} {client : ConnectedClient} {rooms : List Room}

/-- The set of rooms of one stream is another. -/
structure Resized (r next : Registry) (c : StreamId) (client : ConnectedClient) (rooms : List Room) :
    Prop where
  coherent : Coherent r
  found : r.streams.get c = some client
  clients : next.clients = r.clients
  streams : next.streams = r.streams.set c { client with rooms := rooms }

def Resized.grown (_ : Resized r next c client rooms) : Int := rooms.length - client.rooms.length

section

variable (resized : Resized r next c client rooms)
include resized

theorem Resized.streams_of (peerId : PeerId) :
    next.streamsOf peerId = r.streamsOf peerId := by
  rw [streamsOf, resized.clients]
  rfl

theorem Resized.get (other : StreamId) :
    next.streams.get other =
      if other = c then some { client with rooms := rooms } else r.streams.get other := by
  rw [resized.streams, get_set]

theorem Resized.rooms_of (other : StreamId) :
    next.roomsOf other = if other = c then rooms else r.roomsOf other := by
  rw [roomsOf, resized.get]
  split <;> rfl

theorem Resized.peer_of : next.peerOf = r.peerOf := by
  funext other
  rw [peerOf, resized.get]
  split
  · rename_i same
    rw [same, peerOf, resized.found]
    rfl
  · rfl

theorem Resized.held (peerId : PeerId) :
    (next.roomsHeldByPeer peerId : Int) =
      r.roomsHeldByPeer peerId + if peerId = client.peerId then resized.grown else 0 := by
  rw [roomsHeldByPeer, resized.streams_of]
  have elsewhere : ∀ other, other ≠ c →
      (next.roomsOf other).length = (r.roomsOf other).length := by
    intro other apart
    rw [resized.rooms_of, if_neg apart]
  have here : (next.roomsOf c).length = rooms.length := by
    rw [resized.rooms_of, if_pos rfl]
  have before : (r.roomsOf c).length = client.rooms.length := by
    rw [roomsOf, resized.found]
    rfl
  have member : c ∈ r.streamsOf peerId ↔ peerId = client.peerId :=
    streams_peer resized.coherent resized.found
  split
  · rename_i same
    have changed := sum_map_change (resized.coherent.once peerId) (member.mpr same) elsewhere
    rw [here, before] at changed
    rw [changed, Resized.grown, roomsHeldByPeer]
    omega
  · rename_i apart
    rw [Int.add_zero, roomsHeldByPeer]
    congr 2
    apply map_congr_left
    intro other listed
    exact elsewhere other fun clash => apart (member.mp (clash ▸ listed))

theorem Resized.room_count :
    next.streams.total roomCount = r.streams.total roomCount + resized.grown := by
  rw [resized.streams, total_set_of_present roomCount _ resized.found]
  unfold roomCount Resized.grown
  simp only
  omega

theorem Resized.held_from (key : SourceKey) :
    next.streams.total (heldFrom key) = r.streams.total (heldFrom key) +
      if key ∈ client.sourceKeys then resized.grown else 0 := by
  rw [resized.streams, total_set_of_present (heldFrom key) _ resized.found]
  unfold heldFrom Resized.grown
  simp only
  split <;> omega

theorem Resized.from_source (key : SourceKey) :
    next.streams.total (fromSource key) = r.streams.total (fromSource key) := by
  rw [resized.streams, total_set_of_present (fromSource key) _ resized.found]
  unfold fromSource
  simp only
  omega

theorem Resized.by_peer :
    next.clients.total next.heldOf = r.clients.total r.heldOf + resized.grown := by
  have listed : client.peerId ∈ r.clients.keys := by
    rw [mem_keys_iff]
    intro absent
    have mem := resized.coherent.listed c client resized.found
    rw [streamsOf, absent] at mem
    cases mem
  obtain ⟨ids, present⟩ := ne_none_iff_exists'.mp (mem_keys_iff.mp listed)
  have one := @total_reweigh PeerId (List StreamId) _ r.clients client.peerId ids
    r.heldOf next.heldOf present (by
      intro peerId value _ apart
      rw [heldOf, resized.held, if_neg apart, Int.add_zero]
      rfl)
  rw [resized.clients, one]
  have here : next.heldOf client.peerId ids = r.heldOf client.peerId ids + resized.grown := by
    rw [heldOf, resized.held, if_pos rfl]
    rfl
  rw [here]
  omega

end

end Resize

section

variable (once : keys.Nodup) (base : Registry) (amount : Int) (other : SourceKey)
include once base amount other

theorem add_held_get :
    (base.addHeld amount keys).sources.get other = (base.sources.get other).map fun state =>
      if other ∈ keys then { state with held := state.held + amount } else state := by
  unfold addHeld
  simp only
  generalize base.sources = sources
  induction keys generalizing sources with
  | nil =>
    simp
  | cons first rest ih =>
    obtain ⟨fresh, others⟩ := nodup_cons.mp once
    rw [foldl_cons, ih others]
    cases found : sources.get first with
    | none =>
      simp only
      by_cases same : other = first
      · rw [same, found]
        rfl
      · simp only [mem_cons, same, false_or]
    | some state =>
      simp only
      rw [get_set]
      by_cases same : other = first
      · rw [if_pos same, same, found]
        simp [fresh]
      · rw [if_neg same]
        simp only [mem_cons, same, false_or]

theorem add_held_streams : (base.addHeld amount keys).streamsFrom other = base.streamsFrom other := by
  rw [streamsFrom, add_held_get once, streamsFrom]
  cases base.sources.get other with
  | none => rfl
  | some state =>
    simp only [map_some, getD_some]
    split <;> rfl

end

section

variable (inv : Coherent r) (found : r.streams.get c = some client)
include inv found

theorem Coherent.source_state {key : SourceKey}
    (mem : key ∈ client.sourceKeys) : ∃ state, r.sources.get key = some state := by
  have counted : 0 < r.streamsFrom key := by
    rw [inv.sourceStreams]
    have one := @le_total StreamId ConnectedClient _ r.streams c client
      (fromSource key) (fun _ _ => by unfold fromSource; split <;> decide) found
    rw [fromSource, if_pos mem] at one
    omega
  cases there : r.sources.get key with
  | none =>
    rw [streamsFrom, there] at counted
    exact absurd counted (by decide)
  | some state => exact ⟨state, rfl⟩

theorem Coherent.add_held (amount : Int)
    (key : SourceKey) : (r.addHeld amount client.sourceKeys).heldBySource key =
      r.heldBySource key + if key ∈ client.sourceKeys then amount else 0 := by
  rw [heldBySource, add_held_get (inv.keysOnce c client found), heldBySource]
  by_cases mem : key ∈ client.sourceKeys
  · obtain ⟨state, there⟩ := inv.source_state found mem
    simp [there, mem]
  · simp [mem]

end

theorem add_held_state (once : keys.Nodup) {amount : Int} {state : SourceState}
    (there : (r.addHeld amount keys).sources.get key = some state) :
    ∃ before, r.sources.get key = some before ∧ state.streams = before.streams ∧
      state.maxHeld = before.maxHeld ∧
      state.held = before.held + if key ∈ keys then amount else 0 := by
  rw [add_held_get once] at there
  obtain ⟨before, present, rfl⟩ := map_eq_some_iff.mp there
  refine ⟨before, present, ?_⟩
  split <;> simp

theorem Coherent.resized {r next : Registry}
    {rooms : List Room} (resized : Resized r next c client rooms)
    (same : (next.opened, next.emptyRegisters, next.joins) =
      (r.opened, r.emptyRegisters, r.joins))
    (filled : ∀ room, next.rooms.get room ≠ some [])
    (membersOnce : ∀ room, (next.membersOf room).Nodup)
    (members : ∀ room m, m ∈ next.membersOf room ↔ room ∈ next.roomsOf m) (once : rooms.Nodup)
    (total : next.total = r.total + resized.grown)
    (sources : next.sources = (r.addHeld resized.grown client.sourceKeys).sources) :
    Coherent next := by
  have inv := resized.coherent
  have keys := inv.keysOnce c client resized.found
  have clients := resized.clients
  obtain ⟨opened, empty, joins⟩ : next.opened = r.opened ∧
      next.emptyRegisters = r.emptyRegisters ∧ next.joins = r.joins := by simpa using same
  refine ⟨?_, ?_, clients ▸ inv.noEmptyPeer, ?_, filled, membersOnce, members, ?_, ?_, ?_, ?_, ?_,
    ?_, ?_, ?_⟩
  · intro other other_ there
    rw [resized.get] at there
    rw [resized.streams_of]
    split at there
    · rename_i same
      cases there
      exact same ▸ inv.listed c client resized.found
    · exact inv.listed other other_ there
  · intro peerId other mem
    rw [resized.streams_of] at mem
    obtain ⟨before, there, same⟩ := inv.live peerId other mem
    rw [resized.get]
    split
    · rename_i here
      rw [here, resized.found] at there
      cases there
      exact ⟨_, rfl, same⟩
    · exact ⟨before, there, same⟩
  · intro peerId
    rw [resized.streams_of]
    exact inv.once peerId
  · intro m
    rw [resized.rooms_of]
    split
    · exact once
    · exact inv.roomsOnce m
  · intro other other_ there
    rw [resized.get] at there
    split at there
    · cases there
      exact keys
    · exact inv.keysOnce other other_ there
  · rw [resized.room_count, ← inv.total, total]
  · intro key
    rw [resized.from_source, ← inv.sourceStreams, streamsFrom, sources]
    exact add_held_streams keys _ _ key
  · intro key
    rw [resized.held_from, ← inv.sourceHeld, heldBySource, sources]
    exact inv.add_held resized.found _ key
  · intro key state there
    rw [sources] at there
    obtain ⟨before, present, streams, _⟩ := add_held_state keys there
    rw [streams]
    exact inv.noEmptySource key before present
  · rw [empty, joins, clients]
    exact inv.budgets
  · intro other other_ there
    rw [resized.get] at there
    rw [opened]
    split at there
    · rename_i same
      exact same ▸ inv.new c client resized.found
    · exact inv.new other other_ there

def booksOf (state : SourceState) : Int × Int × Int :=
  (state.streams, state.held, state.maxHeld)

structure Charged (r next : Registry) : Prop where
  rooms : next.rooms = r.rooms
  clients : next.clients = r.clients
  streams : next.streams = r.streams
  total : next.total = r.total
  opened : next.opened = r.opened
  emptyRegisters : ∀ peerId, next.emptyRegisters.has peerId = r.emptyRegisters.has peerId
  joins : ∀ peerId, next.joins.has peerId = r.joins.has peerId
  sources : ∀ key, (next.sources.get key).map booksOf =
    (r.sources.get key).map booksOf

theorem Charged.trans {r middle next : Registry} (one : Charged r middle)
    (two : Charged middle next) : Charged r next where
  rooms := two.rooms.trans one.rooms
  clients := two.clients.trans one.clients
  streams := two.streams.trans one.streams
  total := two.total.trans one.total
  opened := two.opened.trans one.opened
  emptyRegisters := fun peerId => (two.emptyRegisters peerId).trans (one.emptyRegisters peerId)
  joins := fun peerId => (two.joins peerId).trans (one.joins peerId)
  sources := fun key => (two.sources key).trans (one.sources key)

theorem Charged.refl (r : Registry) : Charged r r :=
  ⟨rfl, rfl, rfl, rfl, rfl, fun _ => rfl, fun _ => rfl, fun _ => rfl⟩

theorem Charged.source {r next : Registry} (charged : Charged r next) {state : SourceState}
    (found : next.sources.get key = some state) :
    ∃ before, r.sources.get key = some before ∧ before.streams = state.streams ∧
      before.held = state.held ∧ before.maxHeld = state.maxHeld := by
  have same := charged.sources key
  rw [found] at same
  obtain ⟨before, there, books⟩ := map_eq_some_iff.mp same.symm
  obtain ⟨streams, rest⟩ := Prod.mk.inj books
  obtain ⟨held, maxHeld⟩ := Prod.mk.inj rest
  exact ⟨before, there, streams, held, maxHeld⟩

theorem Charged.source_books {r next : Registry} (charged : Charged r next) (key : SourceKey) :
    next.streamsFrom key = r.streamsFrom key ∧ next.heldBySource key = r.heldBySource key := by
  have same := charged.sources key
  unfold streamsFrom heldBySource
  cases after : next.sources.get key with
  | none =>
    rw [after] at same
    rw [map_eq_none_iff.mp same.symm]
    exact ⟨rfl, rfl⟩
  | some state =>
    obtain ⟨before, there, streams, held, _⟩ := charged.source after
    rw [there]
    exact ⟨streams.symm, held.symm⟩

theorem Inv.charged {r next : Registry} (inv : Inv r) (charged : Charged r next) : Inv next := by
  have streamsOf_ : next.streamsOf = r.streamsOf := by
    funext peerId
    rw [streamsOf, charged.clients]
    rfl
  have roomsOf_ : next.roomsOf = r.roomsOf := by
    funext c
    rw [roomsOf, charged.streams]
    rfl
  have membersOf_ : next.membersOf = r.membersOf := by
    funext room
    rw [membersOf, charged.rooms]
    rfl
  have peerOf_ : next.peerOf = r.peerOf := by
    funext c
    rw [peerOf, charged.streams]
    rfl
  have held : next.roomsHeldByPeer = r.roomsHeldByPeer := by
    funext peerId
    rw [roomsHeldByPeer, roomsHeldByPeer, streamsOf_, roomsOf_]
  have byPeer : next.heldOf = r.heldOf := by
    funext peerId ids
    rw [heldOf, heldOf, held]
  have past : next.excess = r.excess := by
    funext peerId ids
    rw [excess, excess, held]
  refine ⟨⟨?_, ?_, ?_, ?_, ?_, ?_, ?_, ?_, ?_, ?_, ?_, ?_, ?_, ?_, ?_⟩, ?_, ?_, ?_, ?_, ?_, ?_⟩
  · rw [charged.streams, streamsOf_]
    exact inv.listed
  · rw [charged.streams, streamsOf_]
    exact inv.live
  · rw [charged.clients]
    exact inv.noEmptyPeer
  · rw [streamsOf_]
    exact inv.once
  · rw [charged.rooms]
    exact inv.noEmptyRoom
  · rw [membersOf_]
    exact inv.membersOnce
  · rw [membersOf_, roomsOf_]
    exact inv.members
  · rw [roomsOf_]
    exact inv.roomsOnce
  · rw [charged.streams]
    exact inv.keysOnce
  · rw [charged.total, charged.streams]
    exact inv.total
  · intro key
    rw [(charged.source_books key).1, charged.streams]
    exact inv.sourceStreams key
  · intro key
    rw [(charged.source_books key).2, charged.streams]
    exact inv.sourceHeld key
  · intro key state found
    obtain ⟨before, there, streams, _, _⟩ := charged.source found
    exact streams ▸ inv.noEmptySource key before there
  · intro peerId
    rw [charged.emptyRegisters, charged.joins, charged.clients]
    exact inv.budgets peerId
  · rw [charged.streams, charged.opened]
    exact inv.new
  · rw [streamsOf_]
    exact inv.streamBound
  · rw [held]
    exact inv.roomBound
  · intro key state found
    obtain ⟨before, there, _, same, most⟩ := charged.source found
    exact same ▸ most ▸ inv.sourceBound key before there
  · rw [membersOf_]
    unfold peersAmong
    rw [peerOf_]
    exact inv.peerBound
  · rw [charged.total, charged.clients, byPeer]
    exact inv.byPeer
  · rw [charged.clients, past]
    exact inv.ceiling

theorem write_sources_view {View : Type} (view : SourceState → View)
    {sources original : OrderedMap SourceKey SourceState} {states : List (SourceKey × SourceState)}
    (budgets : List OpBudget) {write : SourceState → OpBudget → SourceState}
    (keeps : ∀ pair ∈ states.zip budgets, pair.1.1 = key →
      view (write pair.1.2 pair.2) = view pair.1.2)
    (same : (sources.get key).map view = (original.get key).map view)
    (read : ∀ entry ∈ states, original.get entry.1 = some entry.2) :
    ((writeSources sources states budgets write).get key).map view =
      (original.get key).map view := by
  induction states generalizing sources budgets with
  | nil => exact same
  | cons entry rest ih =>
    cases budgets with
    | nil => exact same
    | cons budget others =>
      have step : writeSources sources (entry :: rest) (budget :: others) write =
          writeSources (sources.set entry.1 (write entry.2 budget)) rest others write := rfl
      rw [step]
      apply ih
      · exact fun pair mem => keeps pair (mem_cons_of_mem _ mem)
      · rw [get_set]
        split
        · rename_i here
          rw [here, read entry mem_cons_self, map_some,
            keeps (entry, budget) mem_cons_self here.symm]
          rfl
        · exact same
      · exact fun entry mem => read entry (mem_cons_of_mem _ mem)

theorem source_states_read {entry : SourceKey × SourceState}
    (mem : entry ∈ r.sourceStates keys) :
    r.sources.get entry.1 = some entry.2 := by
  obtain ⟨key, _, found⟩ := List.mem_filterMap.mp mem
  obtain ⟨state, there, rfl⟩ := map_eq_some_iff.mp found
  exact there

theorem has_set_of_has {map : OrderedMap PeerId OpBudget} (budget : OpBudget)
    (present : map.has peerId = true) (other : PeerId) :
    (map.set peerId budget).has other = map.has other := by
  unfold OrderedMap.has at present ⊢
  rw [get_set]
  split
  · rename_i same
    rw [same, present]
    rfl
  · rfl

theorem Coherent.has_budgets (inv : Coherent r) (found : r.streams.get c = some client) :
    r.emptyRegisters.has client.peerId = true ∧ r.joins.has client.peerId = true := by
  have mem := inv.listed c client found
  have present : r.clients.has client.peerId = true := by
    unfold OrderedMap.has
    unfold streamsOf at mem
    cases there : r.clients.get client.peerId with
    | none =>
      rw [there] at mem
      cases mem
    | some ids => rfl
  obtain ⟨empty, joins⟩ := inv.budgets client.peerId
  exact ⟨empty.trans present, joins.trans present⟩

theorem charge_join (now : Int)
    (present : r.joins.has client.peerId = true) : Charged r (r.chargeJoin client now).2 where
  rooms := rfl
  clients := rfl
  streams := rfl
  total := rfl
  opened := rfl
  emptyRegisters := fun _ => rfl
  joins := has_set_of_has _ present
  sources := fun _ => write_sources_view booksOf _ (fun _ _ _ => rfl) rfl
    fun _ mem => source_states_read mem

theorem charge_empty (now : Int) (present : r.emptyRegisters.has client.peerId = true) :
    Charged r (r.chargeEmpty client now).2 where
  rooms := rfl
  clients := rfl
  streams := rfl
  total := rfl
  opened := rfl
  emptyRegisters := has_set_of_has _ present
  joins := fun _ => rfl
  sources := fun _ => write_sources_view booksOf _ (fun _ _ _ => rfl) rfl
    fun _ mem => source_states_read mem

theorem join_resized (inv : Coherent r) (found : r.streams.get c = some client) (room : Room) :
    Resized r (r.join c client room) c client (client.rooms ++ [room]) :=
  ⟨inv, found, rfl, rfl⟩

theorem join_members (r : Registry) (c : StreamId) (client : ConnectedClient) (room other : Room) :
    (r.join c client room).membersOf other =
      if other = room then r.membersOf room ++ [c] else r.membersOf other := by
  show ((r.rooms.set room (r.membersOf room ++ [c])).get other).getD [] = _
  rw [get_set]
  split <;> rfl

theorem peers_among_append (r : Registry) (members : List StreamId) (c : StreamId) :
    (r.peersAmong (members ++ [c])).length ≤ (r.peersAmong members).length +
      if r.peerInRoom members (r.peerOf c) then 0 else 1 := by
  unfold peersAmong
  rw [← List.card_toFinset, ← List.card_toFinset, map_append, toFinset_append]
  split
  · rename_i there
    obtain ⟨m, mem, same⟩ := any_eq_true.mp there
    have inside : [c].map r.peerOf ⊆ members.map r.peerOf := by
      intro peer listed
      rw [map_cons, map_nil, mem_singleton] at listed
      rw [listed, ← of_decide_eq_true same]
      exact mem_map_of_mem mem
    have absorbed : (members.map r.peerOf).toFinset ∪ ([c].map r.peerOf).toFinset =
        (members.map r.peerOf).toFinset := by
      apply Finset.union_eq_left.mpr
      intro peer listed
      exact mem_toFinset.mpr (inside (mem_toFinset.mp listed))
    rw [absorbed, Nat.add_zero]
  · exact (Finset.card_union_le _ _).trans (Nat.add_le_add_left (toFinset_card_le _) _)

theorem peers_among_mono (r : Registry) {fewer more : List StreamId} (within : fewer ⊆ more) :
    (r.peersAmong fewer).length ≤ (r.peersAmong more).length := by
  unfold peersAmong
  rw [← List.card_toFinset, ← List.card_toFinset]
  apply Finset.card_le_card
  intro peer listed
  obtain ⟨m, mem, same⟩ := mem_map.mp (mem_toFinset.mp listed)
  exact mem_toFinset.mpr (mem_map.mpr ⟨m, within mem, same⟩)

theorem Inv.join (inv : Inv r) (found : r.streams.get c = some client) (fresh : room ∉ client.rooms)
    (room_ : r.capped client room = false) : Inv (r.join c client room) := by
  have resized := join_resized inv.toCoherent found room
  have grown : resized.grown = 1 := by
    unfold Resized.grown
    rw [length_append, length_singleton]
    omega
  have own : r.roomsOf c = client.rooms := by
    rw [roomsOf, found]
    rfl
  have peer : r.peerOf c = client.peerId := by
    rw [peerOf, found]
    rfl
  have outside : c ∉ r.membersOf room := by
    rw [inv.members, own]
    exact fresh
  have keys := inv.keysOnce c client found
  simp only [capped, Bool.or_eq_false_iff, Bool.and_eq_false_iff, decide_eq_false_iff_not,
    List.any_eq_false, decide_eq_true_eq, Bool.not_eq_false', Nat.not_le, Int.not_le] at room_
  obtain ⟨⟨⟨soft, few⟩, shares⟩, space⟩ := room_
  have held := fun peerId => grown ▸ resized.held peerId
  have coherent : Coherent (r.join c client room) := by
    refine .resized resized rfl ?_ ?_ ?_ ?_ (by rw [grown]; rfl) (by rw [grown]; rfl)
    · intro other
      show (r.rooms.set room (r.membersOf room ++ [c])).get other ≠ some []
      rw [get_set]
      split
      · simp
      · exact inv.noEmptyRoom other
    · intro other
      rw [join_members]
      split
      · exact concat_eq_append ▸ (inv.membersOnce room).concat outside
      · exact inv.membersOnce other
    · intro other m
      rw [join_members, resized.rooms_of]
      by_cases here : m = c
      · rw [if_pos here]
        have before := inv.members other c
        rw [own] at before
        by_cases same : other = room
        · simp [same, here]
        · simp [same, here, before]
      · rw [if_neg here, ← inv.members]
        by_cases same : other = room <;> simp [same, here]
    · exact concat_eq_append ▸ (own ▸ inv.roomsOnce c : client.rooms.Nodup).concat fresh
  refine ⟨coherent, inv.streamBound, ?_, ?_, ?_, ?_, ?_⟩
  · intro peerId
    have now := held peerId
    have bound := inv.roomBound peerId
    split at now
    · rename_i same
      rw [same] at now bound ⊢
      omega
    · omega
  · intro key state there
    obtain ⟨before, present, _, most, now⟩ := add_held_state keys there
    have bound := inv.sourceBound key before present
    rw [most, now]
    split
    · rename_i mem
      have below := shares (key, before) (List.mem_filterMap.mpr ⟨key, mem, by rw [present]; rfl⟩)
      simp only at below
      omega
    · omega
  · intro other
    rw [join_members]
    unfold peersAmong
    rw [resized.peer_of]
    split
    · have more := peers_among_append r (r.membersOf room) c
      rw [peer] at more
      have most := inv.peerBound room
      unfold peersAmong at more most
      rcases space with there | full
      · rw [there] at more
        exact more.trans most
      · simp only [distinctPeersAtLeast, decide_eq_false_iff_not, Nat.not_le] at full
        unfold peersAmong at full
        split at more <;> omega
    · exact inv.peerBound other
  · rw [resized.by_peer, ← inv.byPeer, grown]
    rfl
  · have total : (r.join c client room).clients.total (r.join c client room).heldOf =
        r.total + 1 := by
      rw [resized.by_peer, ← inv.byPeer, grown]
    rcases soft with low | guaranteed
    · have below : ∀ peerId ids, (r.join c client room).excess peerId ids ≤
          (r.join c client room).heldOf peerId ids := by
        intro peerId ids
        unfold excess heldOf
        omega
      have within := total_mono below (r.join c client room).clients
      omega
    · have same : (r.join c client room).clients.total (r.join c client room).excess =
          r.clients.total r.excess := by
        apply total_congr
        intro peerId ids _
        unfold excess
        have now := held peerId
        split at now
        · rename_i here
          rw [here] at now ⊢
          omega
        · omega
      rw [same]
      exact inv.ceiling

theorem leave_resized (inv : Coherent r) (found : r.streams.get c = some client) (room : Room) :
    Resized r (r.leave c client room) c client (client.rooms.erase room) :=
  ⟨inv, found, rfl, rfl⟩

theorem leave_members (r : Registry) (c : StreamId) (client : ConnectedClient) (room other : Room) :
    (r.leave c client room).membersOf other =
      if other = room then (r.membersOf room).erase c else r.membersOf other := by
  show (OrderedMap.get (if (r.membersOf room).erase c = [] then r.rooms.delete room
    else r.rooms.set room ((r.membersOf room).erase c)) other).getD [] = _
  split
  · rename_i empty
    rw [get_delete]
    split
    · rw [empty]
      rfl
    · rfl
  · rw [get_set]
    split <;> rfl

theorem Inv.leave (inv : Inv r) (found : r.streams.get c = some client)
    (there : room ∈ client.rooms) :
    Inv (r.leave c client room) := by
  have resized := leave_resized inv.toCoherent found room
  have grown : resized.grown = -1 := by
    unfold Resized.grown
    have length := length_erase_of_mem there
    have some_ := length_pos_of_mem there
    omega
  have own : r.roomsOf c = client.rooms := by
    rw [roomsOf, found]
    rfl
  have once : client.rooms.Nodup := own ▸ inv.roomsOnce c
  have keys := inv.keysOnce c client found
  have held := fun peerId => grown ▸ resized.held peerId
  have fewer : ∀ peerId, (r.leave c client room).roomsHeldByPeer peerId ≤
      r.roomsHeldByPeer peerId := by
    intro peerId
    have now := held peerId
    split at now <;> omega
  have coherent : Coherent (r.leave c client room) := by
    refine .resized resized rfl ?_ ?_ ?_ (once.erase room) (by rw [grown]; rfl) (by rw [grown]; rfl)
    · intro other
      show OrderedMap.get (if (r.membersOf room).erase c = [] then r.rooms.delete room
        else r.rooms.set room ((r.membersOf room).erase c)) other ≠ some []
      split
      · rw [get_delete]
        split
        · exact (by rintro ⟨⟩)
        · exact inv.noEmptyRoom other
      · rename_i some_
        rw [get_set]
        split
        · exact fun empty => some_ (Option.some.inj empty)
        · exact inv.noEmptyRoom other
    · intro other
      rw [leave_members]
      split
      · exact (inv.membersOnce room).erase c
      · exact inv.membersOnce other
    · intro other m
      rw [leave_members, resized.rooms_of]
      by_cases here : m = c
      · rw [if_pos here]
        have before := inv.members other c
        rw [own] at before
        by_cases same : other = room
        · rw [if_pos same, here, same, (inv.membersOnce room).mem_erase_iff, once.mem_erase_iff]
          simp
        · rw [if_neg same, here, before, once.mem_erase_iff]
          simp [same]
      · rw [if_neg here, ← inv.members]
        by_cases same : other = room
        · rw [if_pos same, same, (inv.membersOnce room).mem_erase_iff]
          simp [here]
        · rw [if_neg same]
  refine ⟨coherent, inv.streamBound, ?_, ?_, ?_, ?_, ?_⟩
  · exact fun peerId => (fewer peerId).trans (inv.roomBound peerId)
  · intro key state present
    obtain ⟨before, was, _, most, now⟩ := add_held_state keys present
    have bound := inv.sourceBound key before was
    rw [most, now]
    split <;> omega
  · intro other
    rw [leave_members]
    unfold peersAmong
    rw [resized.peer_of]
    split
    · exact (peers_among_mono r erase_subset).trans (inv.peerBound room)
    · exact inv.peerBound other
  · rw [resized.by_peer, ← inv.byPeer, grown]
    rfl
  · have below : ∀ peerId ids, (r.leave c client room).excess peerId ids ≤ r.excess peerId ids := by
      intro peerId ids
      unfold excess
      have now := fewer peerId
      omega
    exact (total_mono below r.clients).trans inv.ceiling

theorem do_unregister_cases (inv : Coherent r) (c : StreamId) (room : Room) :
    r.doUnregister c room = (r, []) ∨ ∃ client, r.streams.get c = some client ∧
      room ∈ client.rooms ∧ (r.doUnregister c room).1 = r.leave c client room := by
  unfold doUnregister
  split
  · rename_i client members found listed
    split
    · exact Or.inl rfl
    · rename_i inside
      refine Or.inr ⟨client, found, ?_, rfl⟩
      have mem : c ∈ r.membersOf room := by
        rw [membersOf, listed]
        exact not_not.mp inside
      rw [inv.members, roomsOf, found] at mem
      exact mem
  · exact Or.inl rfl

theorem Inv.do_unregister (inv : Inv r) (c : StreamId) (room : Room) :
    Inv (r.doUnregister c room).1 := by
  rcases do_unregister_cases inv.toCoherent c room with same | ⟨client, found, there, same⟩
  · rw [same]
    exact inv
  · rw [same]
    exact inv.leave found there

theorem do_unregister_member (inv : Coherent r) (found : r.streams.get c = some client)
    (there : room ∈ client.rooms) : (r.doUnregister c room).1 = r.leave c client room := by
  have mem : c ∈ r.membersOf room := by
    rw [inv.members, roomsOf, found]
    exact there
  unfold doUnregister
  cases listed : r.rooms.get room with
  | none =>
    rw [membersOf, listed] at mem
    cases mem
  | some members =>
    rw [membersOf, listed] at mem
    have inside : c ∈ members := mem
    rw [found]
    simp [inside]

theorem Inv.leave_rooms (inv : Inv r) {sourceKeys : List SourceKey} {rooms : List Room}
    (found : r.streams.get c = some ⟨peerId, sourceKeys, rooms⟩) :
    Inv (r.leaveRooms c rooms).1 ∧
      (r.leaveRooms c rooms).1.streams.get c = some ⟨peerId, sourceKeys, []⟩ ∧
      (r.leaveRooms c rooms).1.clients = r.clients := by
  induction rooms generalizing r with
  | nil => exact ⟨inv, found, rfl⟩
  | cons room rest ih =>
    have there : room ∈ (ConnectedClient.mk peerId sourceKeys (room :: rest)).rooms :=
      mem_cons_self
    have gone := (leave_resized inv.toCoherent found room).get c
    rw [if_pos rfl, erase_cons_head] at gone
    rw [leaveRooms]
    simp only
    rw [do_unregister_member inv.toCoherent found there]
    exact ih (inv.leave found there) gone

theorem detach_source_get (r : Registry) (key other : SourceKey) :
    (r.detachSource key).sources.get other =
      if other = key then (r.sources.get key).bind fun state =>
        if state.streams - 1 ≤ 0 then none else some { state with streams := state.streams - 1 }
      else r.sources.get other := by
  unfold detachSource
  cases found : r.sources.get key with
  | none =>
    simp only [bind_none]
    split
    · rename_i same
      rw [same, found]
    · rfl
  | some state =>
    simp only [bind_some]
    by_cases last : state.streams - 1 ≤ 0
    · rw [if_pos last, if_pos last, get_delete]
    · rw [if_neg last, if_neg last, get_set]

theorem detach_fields (r : Registry) (keys : List SourceKey) :
    ∃ sources, keys.foldl detachSource r = { r with sources := sources } := by
  induction keys generalizing r with
  | nil => exact ⟨r.sources, rfl⟩
  | cons key rest ih =>
    have one : ∃ sources, r.detachSource key = { r with sources := sources } := by
      unfold detachSource
      split
      · exact ⟨r.sources, rfl⟩
      · split
        · exact ⟨_, rfl⟩
        · exact ⟨_, rfl⟩
    obtain ⟨sources, shape⟩ := one
    rw [foldl_cons, shape]
    exact ih { r with sources := sources }

theorem detach_get (once : keys.Nodup) (r : Registry) (key : SourceKey) :
    (keys.foldl detachSource r).sources.get key =
      if key ∈ keys then (r.sources.get key).bind fun state =>
        if state.streams - 1 ≤ 0 then none else some { state with streams := state.streams - 1 }
      else r.sources.get key := by
  induction keys generalizing r with
  | nil => simp
  | cons first rest ih =>
    obtain ⟨fresh, others⟩ := nodup_cons.mp once
    rw [foldl_cons, ih others, detach_source_get]
    by_cases same : key = first
    · rw [same, if_neg fresh, if_pos rfl, if_pos mem_cons_self]
    · simp only [mem_cons, same, false_or, if_false]

end

section

variable (r : Registry) (c : StreamId) (client : ConnectedClient)
include r c client

theorem forget_clients (peerId : PeerId) :
    (r.forget c client).clients.get peerId =
      if peerId = client.peerId then
        if (r.streamsOf client.peerId).erase c = [] then none
        else some ((r.streamsOf client.peerId).erase c)
      else r.clients.get peerId := by
  obtain ⟨sources, shape⟩ := detach_fields r client.sourceKeys
  unfold forget
  rw [shape]
  simp only
  by_cases last : (r.streamsOf client.peerId).erase c = []
  · rw [if_pos last, get_delete, if_pos last]
  · rw [if_neg last, get_set, if_neg last]

theorem forget_shape :
    (r.forget c client).rooms = r.rooms ∧ (r.forget c client).streams = r.streams.delete c ∧
      (r.forget c client).total = r.total ∧ (r.forget c client).opened = r.opened ∧
      (r.forget c client).sources = (client.sourceKeys.foldl detachSource r).sources := by
  obtain ⟨sources, shape⟩ := detach_fields r client.sourceKeys
  unfold forget
  rw [shape]
  simp only
  split <;> exact ⟨rfl, rfl, rfl, rfl, rfl⟩

theorem forget_streams_of (peerId : PeerId) : (r.forget c client).streamsOf peerId =
      if peerId = client.peerId then (r.streamsOf peerId).erase c else r.streamsOf peerId := by
  rw [streamsOf, forget_clients]
  split
  · rename_i same
    rw [same]
    split
    · rename_i last
      rw [last]
      rfl
    · rfl
  · rfl

end

variable {r : Registry} {c : StreamId} {client : ConnectedClient} {keys : List SourceKey}
  {isProxyClassAddr : Address → Bool}

theorem forget_budgets (inv : Coherent r) (found : r.streams.get c = some client)
    (peerId : PeerId) :
    (r.forget c client).emptyRegisters.has peerId = (r.forget c client).clients.has peerId ∧
      (r.forget c client).joins.has peerId = (r.forget c client).clients.has peerId := by
  obtain ⟨empty, joins⟩ := inv.budgets peerId
  obtain ⟨ownEmpty, ownJoins⟩ := inv.has_budgets found
  obtain ⟨sources, shape⟩ := detach_fields r client.sourceKeys
  have clients := forget_clients r c client peerId
  unfold OrderedMap.has at *
  rw [clients]
  unfold forget
  rw [shape]
  simp only
  by_cases last : (r.streamsOf client.peerId).erase c = []
  · rw [if_pos last, if_pos last]
    simp only [get_delete]
    split
    · exact ⟨rfl, rfl⟩
    · exact ⟨empty, joins⟩
  · rw [if_neg last, if_neg last]
    simp only
    split
    · rename_i same
      rw [same]
      exact ⟨ownEmpty, ownJoins⟩
    · exact ⟨empty, joins⟩

section Forget

theorem forget_rooms_of (found : r.streams.get c = some client) (idle : client.rooms = []) :
    (r.forget c client).roomsOf = r.roomsOf := by
  funext other
  rw [roomsOf, (forget_shape r c client).2.1, get_delete]
  split
  · rename_i same
    rw [same, roomsOf, found]
    exact idle.symm
  · rfl

section

variable (inv : Coherent r) (found : r.streams.get c = some client) (idle : client.rooms = [])
include inv found idle

theorem forget_held :
    (r.forget c client).roomsHeldByPeer = r.roomsHeldByPeer := by
  funext peerId
  rw [roomsHeldByPeer, forget_rooms_of found idle, forget_streams_of]
  split
  · rename_i same
    have mem : c ∈ r.streamsOf peerId := (streams_peer inv found).mpr same
    have parts := ((perm_cons_erase mem).map fun other => (r.roomsOf other).length).sum_eq
    have weightless : (r.roomsOf c).length = 0 := by
      rw [roomsOf, found, map_some, getD_some, idle]
      rfl
    rw [map_cons, sum_cons, weightless, Nat.zero_add] at parts
    rw [roomsHeldByPeer, parts]
  · rfl

theorem forget_by_peer (weight : Nat → Int) (nothing : weight 0 = 0) :
    (r.forget c client).clients.total (fun peerId _ => weight (r.roomsHeldByPeer peerId)) =
      r.clients.total fun peerId _ => weight (r.roomsHeldByPeer peerId) := by
  have mem := inv.listed c client found
  obtain ⟨sources, shape⟩ := detach_fields r client.sourceKeys
  cases present : r.clients.get client.peerId with
  | none =>
    rw [streamsOf, present] at mem
    cases mem
  | some ids =>
    have own : r.streamsOf client.peerId = ids := by
      rw [streamsOf, present]
      rfl
    unfold forget
    rw [shape]
    simp only
    split
    · rename_i last
      have held : r.roomsHeldByPeer client.peerId = 0 := by
        have same := congrFun (forget_held inv found idle) client.peerId
        rw [← same, roomsHeldByPeer, forget_streams_of, if_pos rfl, last]
        rfl
      simp only
      rw [total_delete_of_present _ present, held, nothing]
      omega
    · simp only
      rw [total_set_of_present _ _ present]
      omega

end

theorem Inv.forget (inv : Inv r) (found : r.streams.get c = some client)
    (idle : client.rooms = []) : Inv (r.forget c client) := by
  obtain ⟨rooms, streams, total, opened, sources⟩ := forget_shape r c client
  have roomsOf_ := forget_rooms_of found idle
  have held := forget_held inv.toCoherent found idle
  have keys := inv.keysOnce c client found
  have membersOf_ : (r.forget c client).membersOf = r.membersOf := by
    funext room
    rw [membersOf, rooms]
    rfl
  have counted : ∀ key, (r.forget c client).streams.total (fromSource key) =
      r.streams.total (fromSource key) - if key ∈ client.sourceKeys then 1 else 0 := by
    intro key
    rw [streams, total_delete_of_present (fromSource key) found]
    rfl
  have weighed : ∀ key, (r.forget c client).streams.total (heldFrom key) =
      r.streams.total (heldFrom key) := by
    intro key
    rw [streams, total_delete_of_present (heldFrom key) found, heldFrom, idle]
    simp
  have known : ∀ key, (r.forget c client).sources.get key =
      if key ∈ client.sourceKeys then (r.sources.get key).bind fun state =>
        if state.streams - 1 ≤ 0 then none else some { state with streams := state.streams - 1 }
      else r.sources.get key := by
    intro key
    rw [sources]
    exact detach_get keys r key
  have books : ∀ key, (r.forget c client).streamsFrom key =
        r.streamsFrom key - (if key ∈ client.sourceKeys then 1 else 0) ∧
      (r.forget c client).heldBySource key = r.heldBySource key := by
    intro key
    unfold streamsFrom heldBySource
    rw [known]
    by_cases mem : key ∈ client.sourceKeys
    · obtain ⟨state, there⟩ := inv.source_state found mem
      have positive := inv.noEmptySource key state there
      rw [if_pos mem, if_pos mem, there]
      simp only [bind_some, map_some, getD_some]
      split
      · rename_i last
        -- the source's last stream: what it held is what this one held
        have alone : state.streams = 1 := by omega
        have none_ : (r.forget c client).streams.total (fromSource key) = 0 := by
          have count := inv.sourceStreams key
          rw [streamsFrom, there] at count
          have now := counted key
          rw [if_pos mem, ← count] at now
          simp only [map_some, getD_some] at now
          omega
        have nothing := @total_zero_of_zero StreamId ConnectedClient _
          (r.forget c client).streams (fromSource key) (heldFrom key)
          (fun _ _ => by unfold fromSource; split <;> decide) none_
          (fun _ other weightless => by
            unfold fromSource at weightless
            unfold heldFrom
            split at weightless
            · cases weightless
            · rename_i outside
              rw [if_neg outside])
        have share := inv.sourceHeld key
        rw [heldBySource, there, ← weighed, nothing] at share
        exact ⟨by rw [alone]; rfl, share.symm⟩
      · exact ⟨rfl, rfl⟩
    · rw [if_neg mem, if_neg mem, Int.sub_zero]
      exact ⟨rfl, rfl⟩
  refine ⟨⟨?_, ?_, ?_, ?_, ?_, ?_, ?_, ?_, ?_, ?_, ?_, ?_, ?_, ?_, ?_⟩, ?_, ?_, ?_, ?_, ?_, ?_⟩
  · intro other other_ there
    rw [streams, get_delete] at there
    rw [forget_streams_of]
    split at there
    · cases there
    · rename_i apart
      have mem := inv.listed other other_ there
      split
      · exact ((inv.once _).mem_erase_iff).mpr ⟨apart, mem⟩
      · exact mem
  · intro peerId other mem
    rw [forget_streams_of] at mem
    rw [streams, get_delete]
    split at mem
    · obtain ⟨apart, before⟩ := ((inv.once peerId).mem_erase_iff).mp mem
      rw [if_neg apart]
      exact inv.live peerId other before
    · rename_i different
      have apart : other ≠ c := by
        rintro rfl
        exact different ((streams_peer inv.toCoherent found).mp mem)
      rw [if_neg apart]
      exact inv.live peerId other mem
  · intro peerId
    rw [forget_clients]
    split
    · split
      · exact (by rintro ⟨⟩)
      · rename_i some_
        exact fun empty => some_ (Option.some.inj empty)
    · exact inv.noEmptyPeer peerId
  · intro peerId
    rw [forget_streams_of]
    split
    · exact (inv.once peerId).erase c
    · exact inv.once peerId
  · rw [rooms]
    exact inv.noEmptyRoom
  · rw [membersOf_]
    exact inv.membersOnce
  · rw [membersOf_, roomsOf_]
    exact inv.members
  · rw [roomsOf_]
    exact inv.roomsOnce
  · intro other other_ there
    rw [streams, get_delete] at there
    split at there
    · cases there
    · exact inv.keysOnce other other_ there
  · rw [total, streams, total_delete_of_present roomCount found, roomCount, idle,
      inv.total]
    simp
  · intro key
    rw [(books key).1, counted, inv.sourceStreams]
  · intro key
    rw [(books key).2, weighed, inv.sourceHeld]
  · intro key state there
    rw [known] at there
    split at there
    · obtain ⟨before, _, rest⟩ := bind_eq_some_iff.mp there
      split at rest
      · cases rest
      · cases rest
        simp only
        omega
    · exact inv.noEmptySource key state there
  · exact forget_budgets inv.toCoherent found
  · intro other other_ there
    rw [streams, get_delete] at there
    rw [opened]
    split at there
    · cases there
    · exact inv.new other other_ there
  · intro peerId
    rw [forget_streams_of]
    split
    · exact (length_erase_le).trans (inv.streamBound peerId)
    · exact inv.streamBound peerId
  · rw [held]
    exact inv.roomBound
  · intro key state there
    rw [known] at there
    split at there
    · obtain ⟨before, present, rest⟩ := bind_eq_some_iff.mp there
      split at rest
      · cases rest
      · cases rest
        exact inv.sourceBound key before present
    · exact inv.sourceBound key state there
  · intro room
    have same : (r.membersOf room).map (r.forget c client).peerOf =
        (r.membersOf room).map r.peerOf := by
      apply map_congr_left
      intro other mem
      have apart : other ≠ c := by
        rintro rfl
        rw [inv.members, roomsOf, found, map_some, getD_some, idle] at mem
        cases mem
      rw [peerOf, streams, get_delete, if_neg apart]
      rfl
    rw [membersOf_, peersAmong, same]
    exact inv.peerBound room
  · have same : (r.forget c client).heldOf = r.heldOf := by
      funext peerId ids
      rw [heldOf, heldOf, held]
    have moved := forget_by_peer inv.toCoherent found idle (fun held => (held : Int)) rfl
    rw [total, same, inv.byPeer]
    exact moved.symm
  · have same : (r.forget c client).excess = r.excess := by
      funext peerId ids
      rw [excess, excess, held]
    have moved := forget_by_peer inv.toCoherent found idle
      (fun held => ((held - guaranteedRoomsPerPeer : Nat) : Int)) rfl
    rw [same]
    exact (le_of_eq moved).trans inv.ceiling

end Forget

section

variable (inv : Inv r)
include inv

theorem Inv.evict (c : StreamId) : Inv (r.evict c).1 := by
  unfold Registry.evict
  cases found : r.streams.get c with
  | none => exact inv
  | some client =>
    obtain ⟨after, gone, _⟩ := inv.leave_rooms found
    exact @Inv.forget _ c ⟨client.peerId, client.sourceKeys, []⟩ after gone rfl

theorem Inv.evict_all (streams : List StreamId) :
    Inv (r.evictAll streams).1 := by
  induction streams generalizing r with
  | nil => exact inv
  | cons c rest ih => exact ih (inv.evict c)

theorem Inv.remove_client (c : StreamId) :
    Inv (r.removeClient c).1 := by
  unfold removeClient
  split
  · exact inv.evict c
  · exact inv

theorem Inv.unregister (c : StreamId) (room : Room) :
    Inv (r.unregister c room).1 := by
  unfold Registry.unregister
  split
  · exact inv
  · exact inv.do_unregister c room

end

theorem source_states_books {r next : Registry} (charged : Charged r next) (keys : List SourceKey) :
    ((next.sourceStates keys).any fun entry => decide (entry.2.maxHeld ≤ entry.2.held)) =
      (r.sourceStates keys).any fun entry => decide (entry.2.maxHeld ≤ entry.2.held) := by
  induction keys with
  | nil => rfl
  | cons key rest ih =>
    have same := charged.sources key
    unfold sourceStates at ih ⊢
    rw [filterMap_cons, filterMap_cons]
    cases after : next.sources.get key with
    | none =>
      rw [after] at same
      rw [map_eq_none_iff.mp same.symm]
      exact ih
    | some state =>
      obtain ⟨before, there, _, held, most⟩ := charged.source after
      rw [there]
      simp only [map_some, any_cons, held, most, ih]

theorem Charged.capped {r next : Registry} (charged : Charged r next) (client : ConnectedClient)
    (room : Room) : next.capped client room = r.capped client room := by
  have members : next.membersOf room = r.membersOf room := by
    rw [membersOf, charged.rooms]
    rfl
  have peers : next.peerOf = r.peerOf := by
    funext c
    rw [peerOf, charged.streams]
    rfl
  have held : next.roomsHeldByPeer client.peerId = r.roomsHeldByPeer client.peerId := by
    unfold roomsHeldByPeer streamsOf roomsOf
    rw [charged.clients, charged.streams]
  unfold Registry.capped peerInRoom distinctPeersAtLeast peersAmong
  rw [members, peers, held, charged.total, source_states_books charged]

theorem Inv.register (inv : Inv r) (c : StreamId) (room : Room) (now : Int) :
    Inv (r.register c room now).1 := by
  unfold Registry.register
  cases found : r.streams.get c with
  | none => exact inv
  | some client =>
    have budgets := inv.toCoherent.has_budgets found
    have joined := charge_join now budgets.2
    have emptied : Charged r ((r.chargeJoin client now).2.chargeEmpty client now).2 :=
      joined.trans (charge_empty now ((joined.emptyRegisters _).trans budgets.1))
    simp only
    split
    · exact inv
    · split
      · exact inv
      · rename_i fresh
        split
        · exact inv
        · rename_i accepted
          have room_ : r.capped client room = false := Bool.eq_false_iff.mpr accepted
          have recorded : ∀ {next : Registry}, Charged r next →
              Inv (next.join c client room) := by
            intro next charged
            refine (inv.charged charged).join (charged.streams ▸ found) fresh ?_
            rw [charged.capped]
            exact room_
          split
          · exact inv.charged joined
          · by_cases empty : r.membersOf room = []
            · rw [if_pos empty]
              split
              · exact inv.charged emptied
              · exact recorded emptied
            · rw [if_neg empty]
              exact recorded joined

section Attach

theorem attach_source_get (r : Registry) (key : SourceKey) (factor : Nat) (other : SourceKey) :
    (r.attachSource key factor).sources.get other =
      if other = key then
        some { (r.sources.get key).getD (newSource factor) with
          streams := ((r.sources.get key).getD (newSource factor)).streams + 1 }
      else r.sources.get other := by
  unfold attachSource
  simp only
  rw [get_set]

/-- A source that counts one stream more; a new one counts from nothing. -/
structure Attached (r next : Registry) (keys : List SourceKey) : Prop where
  rooms : next.rooms = r.rooms
  clients : next.clients = r.clients
  streams : next.streams = r.streams
  total : next.total = r.total
  opened : next.opened = r.opened
  emptyRegisters : next.emptyRegisters = r.emptyRegisters
  joins : next.joins = r.joins
  others : ∀ key, key ∉ keys → next.sources.get key = r.sources.get key
  sources : ∀ key ∈ keys, ∃ factor, next.sources.get key =
    some { (r.sources.get key).getD (newSource factor) with
      streams := ((r.sources.get key).getD (newSource factor)).streams + 1 }

theorem attach_source (r : Registry) (key : SourceKey) (factor : Nat) :
    Attached r (r.attachSource key factor) [key] where
  rooms := rfl
  clients := rfl
  streams := rfl
  total := rfl
  opened := rfl
  emptyRegisters := rfl
  joins := rfl
  others := by
    intro other outside
    rw [attach_source_get, if_neg]
    rintro rfl
    exact outside (mem_singleton_self _)
  sources := by
    intro other inside
    rw [mem_singleton.mp inside]
    exact ⟨factor, by rw [attach_source_get, if_pos rfl]⟩

theorem Attached.append {r middle next : Registry} {first rest : List SourceKey}
    (one : Attached r middle first) (two : Attached middle next rest)
    (apart : ∀ key ∈ first, key ∉ rest) : Attached r next (first ++ rest) where
  rooms := two.rooms.trans one.rooms
  clients := two.clients.trans one.clients
  streams := two.streams.trans one.streams
  total := two.total.trans one.total
  opened := two.opened.trans one.opened
  emptyRegisters := two.emptyRegisters.trans one.emptyRegisters
  joins := two.joins.trans one.joins
  others := by
    intro key outside
    rw [mem_append, not_or] at outside
    rw [two.others key outside.2, one.others key outside.1]
  sources := by
    intro key inside
    rcases mem_append.mp inside with early | late
    · rw [two.others key (apart key early)]
      exact one.sources key early
    · have fresh : key ∉ first := fun early => apart key early late
      rw [← one.others key fresh]
      exact two.sources key late

theorem attach_aggregates {keys : List SourceKey} (once : keys.Nodup) (r : Registry) :
    Attached r (keys.foldl (fun r key => r.attachSource key ipv6AggregateFactor) r) keys := by
  induction keys generalizing r with
  | nil => exact ⟨rfl, rfl, rfl, rfl, rfl, rfl, rfl, fun _ _ => rfl, nofun⟩
  | cons key rest ih =>
    obtain ⟨fresh, others⟩ := nodup_cons.mp once
    exact (attach_source r key ipv6AggregateFactor).append (ih others _)
      fun other inside => mem_singleton.mp inside ▸ fresh

theorem attach_sources {keys : List SourceKey} (once : keys.Nodup) (r : Registry) :
    Attached r (r.attachSources keys) keys := by
  cases keys with
  | nil => exact attach_aggregates once r
  | cons own aggregates =>
    obtain ⟨fresh, others⟩ := nodup_cons.mp once
    exact (attach_source r own 1).append (attach_aggregates others _)
      fun other inside => mem_singleton.mp inside ▸ fresh

theorem source_keys_once (isProxyClassAddr : Address → Bool) (addr : Option Address) :
    (sourceKeysFor isProxyClassAddr addr).Nodup := by
  cases addr with
  | none => exact nodup_nil
  | some addr =>
    rw [sourceKeysFor]
    split
    · exact nodup_nil
    · cases addr <;> simp [clientBuckets]

section

variable {r next : Registry} {keys : List SourceKey} (attached : Attached r next keys)
include attached

theorem Attached.streams_from (key : SourceKey) :
    next.streamsFrom key = r.streamsFrom key + if key ∈ keys then 1 else 0 := by
  unfold streamsFrom
  by_cases inside : key ∈ keys
  · obtain ⟨factor, now⟩ := attached.sources key inside
    rw [now, if_pos inside]
    cases r.sources.get key <;> rfl
  · rw [attached.others key inside, if_neg inside, Int.add_zero]

theorem Attached.held_by (key : SourceKey) :
    next.heldBySource key = r.heldBySource key := by
  unfold heldBySource
  by_cases inside : key ∈ keys
  · obtain ⟨factor, now⟩ := attached.sources key inside
    rw [now]
    cases r.sources.get key <;> rfl
  · rw [attached.others key inside]

theorem Attached.state {key : SourceKey} {state : SourceState}
    (now : next.sources.get key = some state) :
    (∃ before, r.sources.get key = some before ∧ before.streams ≤ state.streams ∧
      before.held = state.held ∧ before.maxHeld = state.maxHeld) ∨
      (state.streams = 1 ∧ state.held = 0 ∧ 0 ≤ state.maxHeld) := by
  by_cases inside : key ∈ keys
  · obtain ⟨factor, spelled⟩ := attached.sources key inside
    rw [spelled] at now
    cases was : r.sources.get key with
    | some before =>
      rw [was] at now
      cases now
      exact Or.inl ⟨before, rfl, Int.le_add_one (le_refl _), rfl, rfl⟩
    | none =>
      rw [was] at now
      cases now
      exact Or.inr ⟨rfl, rfl, Int.natCast_nonneg _⟩
  · rw [attached.others key inside] at now
    exact Or.inl ⟨state, now, le_refl _, rfl, rfl⟩

end

end Attach

section Opening

variable {peerId : PeerId}

/-- The registry with one more stream, its sources not attached yet. -/
structure Opened (r next : Registry) (peerId : PeerId) (keys : List SourceKey) : Prop where
  rooms : next.rooms = r.rooms
  clients : next.clients = r.clients.set peerId (r.streamsOf peerId ++ [r.opened])
  streams : next.streams = r.streams.set r.opened ⟨peerId, keys, []⟩
  total : next.total = r.total
  opened : next.opened = r.opened + 1
  budgets : ∀ other, next.emptyRegisters.has other = (decide (other = peerId) ||
      r.emptyRegisters.has other) ∧
    next.joins.has other = (decide (other = peerId) || r.joins.has other)
  known : ∀ key, next.streamsFrom key = r.streamsFrom key + (if key ∈ keys then 1 else 0) ∧
    next.heldBySource key = r.heldBySource key
  states : ∀ key state, next.sources.get key = some state →
    (∃ before, r.sources.get key = some before ∧ before.streams ≤ state.streams ∧
      before.held = state.held ∧ before.maxHeld = state.maxHeld) ∨
      (state.streams = 1 ∧ state.held = 0 ∧ 0 ≤ state.maxHeld)

theorem has_ensured (map : OrderedMap PeerId OpBudget) (budget : OpBudget) (other : PeerId) :
    (if map.has peerId then map else map.set peerId budget).has other =
      (decide (other = peerId) || map.has other) := by
  split
  · rename_i present
    by_cases same : other = peerId
    · rw [same, present]
      simp
    · simp [same]
  · unfold OrderedMap.has
    rw [get_set]
    by_cases same : other = peerId <;> simp [same]

theorem add_stream_opens (once : keys.Nodup)
    (few : (r.streamsOf peerId).length < maxStreamsPerPeer) :
    Opened r (r.addStreamFrom peerId keys).1 peerId keys := by
  unfold addStreamFrom
  rw [if_neg (Nat.not_le.mpr few)]
  simp only
  generalize spelled : ({ r with
    emptyRegisters := if r.emptyRegisters.has peerId then r.emptyRegisters
      else r.emptyRegisters.set peerId (newOpBudget maxEmptyRegisters emptyRegisterWindow)
    joins := if r.joins.has peerId then r.joins
      else r.joins.set peerId (newOpBudget maxJoinsPerPeer joinWindow)
    clients := r.clients.set peerId (r.streamsOf peerId ++ [r.opened])
    streams := r.streams.set r.opened ⟨peerId, keys, []⟩
    opened := r.opened + 1 } : Registry) = added
  have attached := attach_sources once added
  subst spelled
  refine ⟨attached.rooms, attached.clients, attached.streams, attached.total, attached.opened,
    ?_, ?_, ?_⟩
  · intro other
    rw [attached.emptyRegisters, attached.joins]
    exact ⟨has_ensured _ _ other, has_ensured _ _ other⟩
  · exact fun key => ⟨attached.streams_from key, attached.held_by key⟩
  · exact fun key state now => attached.state now

theorem add_stream_opened (once : keys.Nodup) :
    r.addStreamFrom peerId keys = (r, none) ∨
      (r.streamsOf peerId).length < maxStreamsPerPeer ∧
        Opened r (r.addStreamFrom peerId keys).1 peerId keys := by
  by_cases most : maxStreamsPerPeer ≤ (r.streamsOf peerId).length
  · exact Or.inl (if_pos most)
  · exact Or.inr ⟨Nat.not_le.mp most, add_stream_opens once (Nat.not_le.mp most)⟩

section Open

variable {next : Registry}

theorem Opened.fresh (inv : Coherent r) : r.streams.get r.opened = none := by
  cases found : r.streams.get r.opened with
  | none => rfl
  | some client => exact absurd (inv.new _ _ found) (Nat.lt_irrefl _)

theorem Opened.unlisted (inv : Coherent r) (other : PeerId) : r.opened ∉ r.streamsOf other := by
  intro mem
  obtain ⟨client, found, _⟩ := inv.live other _ mem
  rw [Opened.fresh inv] at found
  cases found

theorem Opened.get (opened : Opened r next peerId keys) (c : StreamId) :
    next.streams.get c = if c = r.opened then some ⟨peerId, keys, []⟩ else r.streams.get c := by
  rw [opened.streams, get_set]

theorem Opened.streams_of (opened : Opened r next peerId keys) (other : PeerId) :
    next.streamsOf other = r.streamsOf other ++ if other = peerId then [r.opened] else [] := by
  rw [streamsOf, opened.clients, get_set]
  split
  · rename_i same
    rw [same]
    rfl
  · rw [append_nil]
    rfl

theorem Opened.rooms_of (inv : Coherent r) (opened : Opened r next peerId keys) :
    next.roomsOf = r.roomsOf := by
  funext c
  rw [roomsOf, opened.get]
  split
  · rename_i same
    rw [same, roomsOf, Opened.fresh inv]
    rfl
  · rfl

theorem Opened.members_of (opened : Opened r next peerId keys) : next.membersOf = r.membersOf := by
  funext room
  rw [membersOf, opened.rooms]
  rfl

theorem Opened.held (inv : Coherent r) (opened : Opened r next peerId keys) :
    next.roomsHeldByPeer = r.roomsHeldByPeer := by
  funext other
  rw [roomsHeldByPeer, opened.rooms_of inv, opened.streams_of, roomsHeldByPeer]
  split
  · have weightless : (r.roomsOf r.opened).length = 0 := by
      rw [roomsOf, Opened.fresh inv]
      rfl
    rw [map_append, sum_append, map_singleton, sum_singleton, weightless,
      Nat.add_zero]
  · rw [append_nil]

theorem Opened.by_peer (inv : Coherent r) (opened : Opened r next peerId keys) (weight : Nat → Int)
    (nothing : weight 0 = 0) :
    next.clients.total (fun other _ => weight (r.roomsHeldByPeer other)) =
      r.clients.total fun other _ => weight (r.roomsHeldByPeer other) := by
  rw [opened.clients]
  cases present : r.clients.get peerId with
  | none =>
    have idle : r.roomsHeldByPeer peerId = 0 := by
      rw [roomsHeldByPeer, streamsOf, present]
      rfl
    rw [total_set_of_absent _ _ present, idle, nothing, Int.add_zero]
  | some ids =>
    rw [total_set_of_present _ _ present]
    omega

theorem Inv.open_stream (inv : Inv r) (once : keys.Nodup)
    (few : (r.streamsOf peerId).length < maxStreamsPerPeer)
    (opened : Opened r next peerId keys) : Inv next := by
  have coherent := inv.toCoherent
  have fresh := Opened.fresh coherent
  have members := opened.members_of
  have rooms := opened.rooms_of coherent
  have held := opened.held coherent
  refine ⟨⟨?_, ?_, ?_, ?_, ?_, ?_, ?_, ?_, ?_, ?_, ?_, ?_, ?_, ?_, ?_⟩, ?_, ?_, ?_, ?_, ?_, ?_⟩
  · intro c client there
    rw [opened.get] at there
    rw [opened.streams_of]
    split at there
    · rename_i same
      cases there
      rw [if_pos rfl, same]
      exact mem_append_right _ (mem_singleton_self _)
    · exact mem_append_left _ (inv.listed c client there)
  · intro other c mem
    rw [opened.streams_of] at mem
    rw [opened.get]
    rcases mem_append.mp mem with before | now
    · have apart : c ≠ r.opened := fun same => Opened.unlisted coherent other (same ▸ before)
      rw [if_neg apart]
      exact inv.live other c before
    · split at now
      · rename_i same
        rw [mem_singleton.mp now, if_pos rfl, same]
        exact ⟨_, rfl, rfl⟩
      · cases now
  · intro other
    rw [opened.clients, get_set]
    split
    · simp
    · exact inv.noEmptyPeer other
  · intro other
    rw [opened.streams_of, nodup_append]
    refine ⟨inv.once other, by split <;> simp, ?_⟩
    rintro c before new now rfl
    split at now
    · rw [mem_singleton.mp now] at before
      exact Opened.unlisted coherent other before
    · cases now
  · rw [opened.rooms]
    exact inv.noEmptyRoom
  · rw [members]
    exact inv.membersOnce
  · rw [members, rooms]
    exact inv.members
  · rw [rooms]
    exact inv.roomsOnce
  · intro c client there
    rw [opened.get] at there
    split at there
    · cases there
      exact once
    · exact inv.keysOnce c client there
  · rw [opened.total, opened.streams, total_set_of_absent _ _ fresh, inv.total]
    exact (Int.add_zero _).symm
  · intro key
    rw [(opened.known key).1, opened.streams, total_set_of_absent _ _ fresh,
      inv.sourceStreams]
    rfl
  · intro key
    have weightless : heldFrom key r.opened ⟨peerId, keys, []⟩ = 0 := by
      unfold heldFrom
      split <;> rfl
    rw [(opened.known key).2, opened.streams, total_set_of_absent _ _ fresh,
      inv.sourceHeld, weightless, Int.add_zero]
  · intro key state now
    rcases opened.states key state now with ⟨before, was, more, _⟩ | ⟨one, _⟩
    · have positive := inv.noEmptySource key before was
      omega
    · omega
  · intro other
    obtain ⟨empty, joins⟩ := opened.budgets other
    obtain ⟨emptyBefore, joinsBefore⟩ := inv.budgets other
    have clients : next.clients.has other = (decide (other = peerId) || r.clients.has other) := by
      unfold OrderedMap.has
      rw [opened.clients, get_set]
      by_cases same : other = peerId <;> simp [same]
    rw [empty, joins, clients, emptyBefore, joinsBefore]
    exact ⟨rfl, rfl⟩
  · intro c client there
    rw [opened.get] at there
    rw [opened.opened]
    split at there
    · rename_i same
      rw [same]
      exact Nat.lt_succ_self _
    · exact (inv.new c client there).trans (Nat.lt_succ_self _)
  · intro other
    rw [opened.streams_of, length_append]
    split
    · rename_i same
      rw [same]
      exact few
    · exact inv.streamBound other
  · rw [held]
    exact inv.roomBound
  · intro key state now
    rcases opened.states key state now with ⟨before, was, _, same, most⟩ | ⟨_, none_, most⟩
    · exact same ▸ most ▸ inv.sourceBound key before was
    · rw [none_]
      exact most
  · intro room
    have same : (r.membersOf room).map next.peerOf = (r.membersOf room).map r.peerOf := by
      apply map_congr_left
      intro c mem
      have apart : c ≠ r.opened := by
        rintro rfl
        rw [inv.members, roomsOf, fresh] at mem
        cases mem
      rw [peerOf, opened.get, if_neg apart]
      rfl
    rw [members, peersAmong, same]
    exact inv.peerBound room
  · have same : next.heldOf = r.heldOf := by
      funext other ids
      rw [heldOf, heldOf, held]
    rw [opened.total, same, inv.byPeer]
    exact (opened.by_peer coherent (fun held => (held : Int)) rfl).symm
  · have same : next.excess = r.excess := by
      funext other ids
      rw [excess, excess, held]
    rw [same]
    exact (le_of_eq (opened.by_peer coherent
      (fun held => ((held - guaranteedRoomsPerPeer : Nat) : Int)) rfl)).trans inv.ceiling

end Open

end Opening

theorem Inv.add_stream (inv : Inv r) (peerId : PeerId)
    (once : keys.Nodup) : Inv (r.addStreamFrom peerId keys).1 := by
  rcases @add_stream_opened r keys peerId once with same | ⟨few, opened⟩
  · rw [same]
    exact inv
  · exact inv.open_stream once few opened

theorem Inv.step {r next : Registry} (inv : Inv r) {call : RegistryCall}
    (stepped : Registry.step isProxyClassAddr r call = some next) :
    Inv next := by
  cases call <;> cases stepped
  case addStreamFrom peerId addr =>
    exact inv.add_stream peerId (source_keys_once isProxyClassAddr addr)
  case register c room now => exact inv.register c room now
  case unregister c room => exact inv.unregister c room
  case removeClient c => exact inv.remove_client c
  case disconnectPeer peerId => exact inv.evict_all _

theorem Inv.run (calls : List RegistryCall) (inv : Inv r) :
    ∃ next, Library.run (Registry.step isProxyClassAddr) r calls = some next ∧ Inv next := by
  induction calls generalizing r with
  | nil => exact ⟨r, rfl, inv⟩
  | cons call rest ih =>
    have taken : ∃ middle, Registry.step isProxyClassAddr r call = some middle := by
      cases call <;> exact ⟨_, rfl⟩
    obtain ⟨middle, stepped⟩ := taken
    obtain ⟨next, ran, after⟩ := ih (inv.step stepped)
    exact ⟨next, by rw [Library.run, stepped]; exact ran, after⟩

theorem Coherent.member_live {room : Room} (inv : Coherent r) (mem : c ∈ r.membersOf room) :
    r.isLive c = true := by
  rw [inv.members, roomsOf] at mem
  unfold isLive
  cases found : r.streams.get c with
  | none =>
    rw [found] at mem
    cases mem
  | some client => exact decide_eq_true (inv.listed c client found)

/-- Whatever the calls, the five places of a membership agree and the bounds hold. -/
theorem registry_runs_coherent (isProxyClassAddr : Address → Bool) (calls : List RegistryCall) :
    ∃ r, Library.run (Registry.step isProxyClassAddr) newRegistry calls = some r ∧
      Coherent r ∧ Bounded r ∧ ∀ room, ∀ c ∈ r.membersOf room, r.isLive c = true := by
  obtain ⟨r, ran, inv⟩ := Inv.run calls new_registry_inv
  exact ⟨r, ran, inv.toCoherent, inv.bounded, fun _ _ mem => inv.toCoherent.member_live mem⟩

example : ((Library.run (Registry.step fun _ => false) newRegistry
    [.addStreamFrom "ada" (some (.v4 7)), .addStreamFrom "ada" (some (.v4 7)), .register 0 "den" 0,
      .register 1 "den" 0, .removeClient 0]).map fun r =>
      (r.rooms.entries, r.total, r.heldBySource (.address 7))) =
    some ([("den", [1])], 1, 1) := by
  decide +kernel

end Registry

end AwfulChat.Relay
