import AwfulChat.Library.InFlight
import AwfulChat.Relay.RegistryCoherence

/-!
# What a member knows of its room

A call of the registry decides its frames under the lock and queues them once the lock is
released, so the frames of two calls may reach a member in the other order. A client starts
the set of a room empty at its REGISTER and follows the frames its outbox received.
-/

namespace AwfulChat.Relay

open Library Library.OrderedMap List

set_option autoImplicit false

namespace ServerMsg

def room : ServerMsg → Option Room
  | .peers room _ => some room
  | .peerJoined room _ => some room
  | .peerLeft room _ => some room
  | .registerFailed room => some room
  | .pong => none

def adds : ServerMsg → List PeerId
  | .peers _ ids => ids
  | .peerJoined _ peer => [peer]
  | _ => []

def removes : ServerMsg → List PeerId
  | .peerLeft _ peer => [peer]
  | _ => []

/-- What the client's set of the room is after the frame. -/
def apply (set : List PeerId) (msg : ServerMsg) : List PeerId :=
  set.filter (fun peer => decide (peer ∉ msg.removes)) ++ msg.adds

def word (peer : PeerId) (msg : ServerMsg) : Option Bool :=
  if peer ∈ msg.adds then some true
  else if peer ∈ msg.removes then some false
  else none

/-- One adds a peer that the other removes. -/
def contradicts (msg other : ServerMsg) : Bool :=
  msg.adds.any (fun peer => decide (peer ∈ other.removes)) ||
    msg.removes.any fun peer => decide (peer ∈ other.adds)

end ServerMsg

def viewAfter (set : List PeerId) (frames : List ServerMsg) : List PeerId :=
  frames.foldl ServerMsg.apply set

/-- The frames to this stream about this room. -/
def about (c : StreamId) (room : Room) (sends : Sends) : List ServerMsg :=
  sends.filterMap fun frame =>
    if frame.1 = c ∧ frame.2.room = some room then some frame.2 else none

/-- A frame that a call has decided on and not sent yet. -/
structure Unsent where
  /-- The stream whose read loop is at it. -/
  caller : Option StreamId
  frame : StreamId × ServerMsg
  deriving DecidableEq

structure RoomViews where
  registry : Registry
  /-- In the order in which the calls held the lock. -/
  unsent : List Unsent
  sets : OrderedMap (StreamId × Room) (List PeerId)

namespace RoomViews

def start : RoomViews := ⟨newRegistry, [], OrderedMap.empty⟩

def viewOf (s : RoomViews) (c : StreamId) (room : Room) : List PeerId :=
  (s.sets.get (c, room)).getD []

def frames (s : RoomViews) : Sends := s.unsent.map Unsent.frame

def busy (s : RoomViews) : Option StreamId → Bool
  | none => false
  | some c => s.unsent.any fun unsent => decide (unsent.caller = some c)

end RoomViews

/-- The stream whose read loop makes the call. -/
def RegistryCall.caller : RegistryCall → Option StreamId
  | .register c _ _ => some c
  | .unregister c _ => some c
  | .removeClient c => some c
  | .addStreamFrom _ _ => none
  | .disconnectPeer _ => none

/-- What a call does while it holds the lock, and the frames it sends after. -/
def lockPart (isProxyClassAddr : Address → Bool) (r : Registry) : RegistryCall → Registry × Sends
  | .addStreamFrom peerId addr =>
    ((r.addStreamFrom peerId (sourceKeysFor isProxyClassAddr addr)).1, [])
  | .register c room now => ((r.register c room now).1, (r.register c room now).2.2)
  | .unregister c room => r.unregister c room
  | .removeClient c => r.removeClient c
  | .disconnectPeer peerId => r.disconnectPeer peerId

inductive ViewEvent
  | call (call : RegistryCall)
  | send (index : Nat)
  deriving DecidableEq

namespace RoomViews

def afterCall (s : RoomViews) : RegistryCall → OrderedMap (StreamId × Room) (List PeerId)
  | .register c room _ => s.sets.set (c, room) []
  | _ => s.sets

def afterSend (s : RoomViews) (frame : StreamId × ServerMsg) :
    OrderedMap (StreamId × Room) (List PeerId) :=
  match frame.2.room with
  | none => s.sets
  | some room => s.sets.set (frame.1, room) (frame.2.apply (s.viewOf frame.1 room))

end RoomViews

/-- The calls and the sends in any order; one call's frames go out in any order too, as the
members of a room have none. -/
def viewStep (isProxyClassAddr : Address → Bool) (s : RoomViews) : ViewEvent → Option RoomViews
  | .call call =>
    if s.busy call.caller then none
    else
      let after := lockPart isProxyClassAddr s.registry call
      some ⟨after.1, s.unsent ++ after.2.map (Unsent.mk call.caller), s.afterCall call⟩
  | .send index =>
    match s.unsent[index]? with
    | none => none
    | some unsent => some ⟨s.registry, s.unsent.eraseIdx index, s.afterSend unsent.frame⟩

namespace Registry

def others (r : Registry) (c : StreamId) (room : Room) : List PeerId :=
  r.peersExcept (r.membersOf room) (r.peerOf c)

end Registry

/-- A frame overtakes no earlier one to the same stream about the same room that says the
opposite of a peer; and a REGISTER comes when the frames to its stream about the room that
are still to be sent, on an empty set, leave only peers that are in the room. -/
def InOrder (s : RoomViews) : ViewEvent → Prop
  | .call (.register c room _) =>
    ∀ peer ∈ viewAfter [] (about c room s.frames), peer ∈ s.registry.others c room
  | .call _ => True
  | .send index => ∀ unsent ∈ s.unsent[index]?, ∀ earlier ∈ s.unsent.take index,
      earlier.frame.1 = unsent.frame.1 → earlier.frame.2.room = unsent.frame.2.room →
        earlier.frame.2.contradicts unsent.frame.2 = false

instance (s : RoomViews) : ∀ event, Decidable (InOrder s event)
  | .call (.register c room _) => inferInstanceAs (Decidable (∀ _, _))
  | .call (.addStreamFrom _ _) | .call (.unregister _ _) | .call (.removeClient _)
  | .call (.disconnectPeer _) => inferInstanceAs (Decidable True)
  | .send index =>
    match found : s.unsent[index]? with
    | none => isTrue (by simp [InOrder, found])
    | some unsent =>
      decidable_of_iff (∀ earlier ∈ s.unsent.take index,
        earlier.frame.1 = unsent.frame.1 → earlier.frame.2.room = unsent.frame.2.room →
          earlier.frame.2.contradicts unsent.frame.2 = false) (by simp [InOrder, found])

theorem mem_apply (peer : PeerId) (set : List PeerId) (msg : ServerMsg) :
    decide (peer ∈ msg.apply set) = afterWrite (ServerMsg.word peer) (decide (peer ∈ set)) msg := by
  unfold ServerMsg.apply afterWrite ServerMsg.word
  by_cases added : peer ∈ msg.adds
  · simp [added]
  · by_cases removed : peer ∈ msg.removes <;> simp [added, removed]

theorem mem_view_after (peer : PeerId) (set : List PeerId) (frames : List ServerMsg) :
    decide (peer ∈ viewAfter set frames) =
      afterWrites (ServerMsg.word peer) (decide (peer ∈ set)) frames := by
  induction frames generalizing set with
  | nil => rfl
  | cons msg rest ih =>
    have step := ih (msg.apply set)
    rw [mem_apply] at step
    exact step

theorem view_after_append (set : List PeerId) (first second : List ServerMsg) :
    viewAfter set (first ++ second) = viewAfter (viewAfter set first) second :=
  foldl_append

theorem view_after_congr {set other : List PeerId} (same : ∀ peer, peer ∈ set ↔ peer ∈ other)
    (frames : List ServerMsg) (peer : PeerId) :
    peer ∈ viewAfter set frames ↔ peer ∈ viewAfter other frames := by
  rw [← decide_eq_decide, mem_view_after, mem_view_after, decide_eq_decide.mpr (same peer)]

theorem about_append (c : StreamId) (room : Room) (first second : Sends) :
    about c room (first ++ second) = about c room first ++ about c room second :=
  filterMap_append

theorem about_none {c : StreamId} {room : Room} {sends : Sends}
    (elsewhere : ∀ frame ∈ sends, ¬(frame.1 = c ∧ frame.2.room = some room)) :
    about c room sends = [] := by
  apply filterMap_eq_nil_iff.mpr
  intro frame mem
  rw [if_neg (elsewhere frame mem)]

theorem mem_about {c : StreamId} {room : Room} {sends : Sends} {msg : ServerMsg} :
    msg ∈ about c room sends ↔ (c, msg) ∈ sends ∧ msg.room = some room := by
  unfold about
  rw [mem_filterMap]
  constructor
  · rintro ⟨⟨target, sent⟩, mem, taken⟩
    split at taken
    · rename_i here
      cases taken
      exact ⟨here.1 ▸ mem, here.2⟩
    · cases taken
  · rintro ⟨mem, here⟩
    exact ⟨(c, msg), mem, if_pos ⟨rfl, here⟩⟩

theorem mem_broadcast {c : StreamId} {room : Room} {msg : ServerMsg} (here : msg.room = some room)
    (targets : List StreamId) (set : List PeerId) (peer : PeerId) :
    peer ∈ viewAfter set (about c room (targets.map fun m => (m, msg))) ↔
      if c ∈ targets then peer ∈ msg.apply set else peer ∈ set := by
  induction targets generalizing set with
  | nil => exact Iff.rfl
  | cons target rest ih =>
    have twice : peer ∈ msg.apply (msg.apply set) ↔ peer ∈ msg.apply set := by
      rw [← decide_eq_decide, mem_apply, mem_apply]
      unfold afterWrite
      cases ServerMsg.word peer msg <;> rfl
    by_cases same : target = c
    · have front : about c room ((target :: rest).map fun m => (m, msg)) =
          msg :: about c room (rest.map fun m => (m, msg)) :=
        filterMap_cons_some (if_pos ⟨same, here⟩)
      rw [front]
      show peer ∈ viewAfter (msg.apply set) _ ↔ _
      rw [ih, if_pos (mem_cons.mpr (Or.inl same.symm))]
      split
      · exact twice
      · exact Iff.rfl
    · have front : about c room ((target :: rest).map fun m => (m, msg)) =
          about c room (rest.map fun m => (m, msg)) :=
        filterMap_cons_none (if_neg fun both => same both.1)
      rw [front, ih]
      simp only [mem_cons, Ne.symm same, false_or]

namespace Registry

variable {client : ConnectedClient} {r : Registry} {c : StreamId} {room : Room}

theorem mem_others {peer : PeerId} :
    peer ∈ r.others c room ↔ peer ≠ r.peerOf c ∧ ∃ m ∈ r.membersOf room, r.peerOf m = peer := by
  unfold others peersExcept peersAmong
  rw [mem_dedup, mem_map]
  constructor
  · rintro ⟨m, mem, rfl⟩
    obtain ⟨there, apart⟩ := mem_filter.mp mem
    exact ⟨of_decide_eq_true apart, m, there, rfl⟩
  · rintro ⟨apart, m, mem, rfl⟩
    exact ⟨m, mem_filter.mpr ⟨mem, decide_eq_true apart⟩, rfl⟩

/-- Whoever is still in a room is told what changed. -/
structure Told (r next : Registry) (sends : Sends) : Prop where
  stays : ∀ room c, c ∈ next.membersOf room → c ∈ r.membersOf room
  views : ∀ room c, c ∈ next.membersOf room → ∀ peer,
    peer ∈ next.others c room ↔ peer ∈ viewAfter (r.others c room) (about c room sends)

theorem Told.refl (r : Registry) : Told r r [] :=
  ⟨fun _ _ mem => mem, fun _ _ _ _ => Iff.rfl⟩

theorem Told.trans {r middle next : Registry} {first second : Sends} (one : Told r middle first)
    (two : Told middle next second) : Told r next (first ++ second) where
  stays := fun room c mem => one.stays room c (two.stays room c mem)
  views := by
    intro room c mem peer
    rw [two.views room c mem, about_append, view_after_append]
    exact view_after_congr (one.views room c (two.stays room c mem)) _ peer

theorem Told.quiet {r next : Registry} (rooms : next.rooms = r.rooms)
    (peers : ∀ room, ∀ c ∈ r.membersOf room, next.peerOf c = r.peerOf c) : Told r next [] := by
  have members : next.membersOf = r.membersOf := by
    funext room
    rw [membersOf, rooms]
    rfl
  refine ⟨fun room c mem => members ▸ mem, ?_⟩
  intro room c mem peer
  rw [members] at mem
  show _ ↔ peer ∈ r.others c room
  rw [mem_others, mem_others, members, peers room c mem]
  have same : ∀ m, m ∈ r.membersOf room ∧ next.peerOf m = peer ↔
      m ∈ r.membersOf room ∧ r.peerOf m = peer := by
    intro m
    constructor
    · rintro ⟨there, rfl⟩
      exact ⟨there, (peers room m there).symm⟩
    · rintro ⟨there, rfl⟩
      exact ⟨there, peers room m there⟩
  simp only [same]

theorem peer_of_client (found : r.streams.get c = some client) : r.peerOf c = client.peerId := by
  rw [peerOf, found]
  rfl

theorem Told.leave (inv : Coherent r) (found : r.streams.get c = some client)
    (inside : c ∈ r.membersOf room) :
    Told r (r.leave c client room)
      ((if r.peerInRoom ((r.membersOf room).erase c) client.peerId then []
        else (r.membersOf room).erase c).map fun m => (m, .peerLeft room (r.peerOf c))) := by
  have resized := leave_resized inv found room
  have own := peer_of_client found
  have once := inv.membersOnce room
  refine ⟨?_, ?_⟩
  · intro other m mem
    rw [leave_members] at mem
    split at mem
    · rename_i same
      exact same ▸ mem_of_mem_erase mem
    · exact mem
  · intro other m mem peer
    rw [leave_members] at mem
    by_cases same : other = room
    · subst same
      rw [if_pos rfl] at mem
      rw [mem_broadcast rfl, mem_others, resized.peer_of, leave_members, if_pos rfl]
      have there : r.peerInRoom ((r.membersOf other).erase c) client.peerId = true ↔
          ∃ m ∈ (r.membersOf other).erase c, r.peerOf m = client.peerId := by
        unfold peerInRoom
        simp only [any_eq_true, decide_eq_true_eq]
      have parts : (∃ m ∈ r.membersOf other, r.peerOf m = peer) ↔
          client.peerId = peer ∨ ∃ m ∈ (r.membersOf other).erase c, r.peerOf m = peer := by
        constructor
        · rintro ⟨one, before, rfl⟩
          by_cases here : one = c
          · exact Or.inl (by rw [here, own])
          · exact Or.inr ⟨one, (once.mem_erase_iff).mpr ⟨here, before⟩, rfl⟩
        · rintro (rfl | ⟨one, before, named⟩)
          · exact ⟨c, inside, own⟩
          · exact ⟨one, mem_of_mem_erase before, named⟩
      by_cases still : r.peerInRoom ((r.membersOf other).erase c) client.peerId = true
      · rw [if_pos still, if_neg not_mem_nil, mem_others, parts]
        have absorbed : (client.peerId = peer ∨
            ∃ m ∈ (r.membersOf other).erase c, r.peerOf m = peer) ↔
            ∃ m ∈ (r.membersOf other).erase c, r.peerOf m = peer :=
          ⟨fun either => either.elim (fun named => named ▸ there.mp still) id, Or.inr⟩
        rw [absorbed]
      · rw [if_neg still, if_pos mem, ServerMsg.apply]
        simp only [ServerMsg.removes, ServerMsg.adds, append_nil, mem_filter,
          mem_singleton, decide_not, Bool.not_eq_true', decide_eq_false_iff_not, mem_others,
          parts, own]
        have gone : (∃ m ∈ (r.membersOf other).erase c, r.peerOf m = peer) →
            peer ≠ client.peerId := by
          rintro present rfl
          exact still (there.mpr present)
        constructor
        · exact fun known => ⟨⟨known.1, Or.inr known.2⟩, gone known.2⟩
        · exact fun known => ⟨known.1.1, known.1.2.resolve_left fun named => known.2 named.symm⟩
    · rw [if_neg same] at mem
      rw [about_none (by
        intro frame sent
        obtain ⟨target, _, rfl⟩ := mem_map.mp sent
        exact fun both => same (Option.some.inj both.2).symm)]
      show _ ↔ peer ∈ r.others m other
      rw [mem_others, mem_others, resized.peer_of, leave_members, if_neg same]

theorem Told.do_unregister (inv : Coherent r) (c : StreamId) (room : Room) :
    Told r (r.doUnregister c room).1
      ((r.doUnregister c room).2.map fun m => (m, .peerLeft room (r.peerOf c))) := by
  unfold doUnregister
  split
  · rename_i client members found listed
    split
    · exact Told.refl r
    · rename_i inside
      have spelled : r.membersOf room = members := by
        rw [membersOf, listed]
        rfl
      have told := Told.leave inv found (spelled ▸ not_not.mp inside : c ∈ r.membersOf room)
      rw [spelled] at told
      simp only
      split
      · rename_i last
        have nobody : (if r.peerInRoom (members.erase c) client.peerId then []
            else members.erase c) = [] := by
          rw [last]
          split <;> rfl
        rw [nobody] at told
        exact told
      · exact told
  · exact Told.refl r

theorem Told.leave_rooms (inv : Inv r) (c : StreamId) (rooms : List Room) :
    Told r (r.leaveRooms c rooms).1 (r.leaveRooms c rooms).2 := by
  induction rooms generalizing r with
  | nil => exact Told.refl r
  | cons room rest ih =>
    exact (Told.do_unregister inv.toCoherent c room).trans
      (ih (inv.do_unregister c room))

theorem Told.forget (inv : Coherent r) (found : r.streams.get c = some client)
    (idle : client.rooms = []) :
    Told r (r.forget c client) [] := by
  obtain ⟨rooms, streams, _⟩ := forget_shape r c client
  apply Told.quiet rooms
  intro room m mem
  have apart : m ≠ c := by
    rintro rfl
    rw [inv.members, roomsOf, found, Option.map_some, Option.getD_some, idle] at mem
    cases mem
  rw [peerOf, streams, get_delete, if_neg apart]
  rfl

section

variable {r : Registry} (inv : Inv r)
include inv

theorem Told.evict (c : StreamId) :
    Told r (r.evict c).1 (r.evict c).2 := by
  unfold Registry.evict
  cases found : r.streams.get c with
  | none => exact Told.refl r
  | some client =>
    obtain ⟨after, gone, _⟩ := inv.leave_rooms found
    have out := (Told.leave_rooms inv c client.rooms).trans
      (@Told.forget ⟨client.peerId, client.sourceKeys, []⟩ _ c after.toCoherent gone rfl)
    rw [append_nil] at out
    exact out

theorem Told.evict_all (streams : List StreamId) :
    Told r (r.evictAll streams).1 (r.evictAll streams).2 := by
  induction streams generalizing r with
  | nil => exact Told.refl r
  | cons c rest ih => exact (Told.evict inv c).trans (ih (inv.evict c))

theorem Told.remove_client (c : StreamId) :
    Told r (r.removeClient c).1 (r.removeClient c).2 := by
  unfold removeClient
  split
  · exact Told.evict inv c
  · exact Told.refl r

theorem Told.unregister (c : StreamId) (room : Room) :
    Told r (r.unregister c room).1 (r.unregister c room).2 := by
  unfold Registry.unregister
  split
  · exact Told.refl r
  · exact Told.do_unregister inv.toCoherent c room

end

theorem Told.add_stream (inv : Coherent r) (peerId : PeerId) {keys : List SourceKey}
    (once : keys.Nodup) : Told r (r.addStreamFrom peerId keys).1 [] := by
  rcases @add_stream_opened r keys peerId once with same | ⟨_, opened⟩
  · rw [same]
    exact Told.refl r
  · apply Told.quiet opened.rooms
    intro room c mem
    have apart : c ≠ r.opened := by
      rintro rfl
      rw [inv.members, roomsOf, Opened.fresh inv] at mem
      cases mem
    rw [peerOf, opened.get, if_neg apart]
    rfl

theorem Told.charged {r next : Registry} (charged : Charged r next) : Told r next [] := by
  apply Told.quiet charged.rooms
  intro room c _
  rw [peerOf, charged.streams]
  rfl

theorem mem_peer_frames {others : List PeerId} {peer : PeerId} :
    (∃ ids ∈ peerFrames others, peer ∈ ids) ↔ peer ∈ others := by
  have whole := @slices_whole PeerId others maxPeersPerFrame (by decide)
  have inside : peer ∈ others ↔ ∃ index ∈ List.range (sliceCount others.length maxPeersPerFrame),
      peer ∈ sliceAt others maxPeersPerFrame index := by
    conv_lhs => rw [← whole]
    exact mem_flatMap
  rw [inside]
  unfold peerFrames
  simp only [mem_map, exists_exists_and_eq_and]

theorem mem_send_peers (others set : List PeerId) (peer : PeerId) :
    peer ∈ viewAfter set (about c room (sendPeers c room others)) ↔ peer ∈ set ∨ peer ∈ others := by
  have one : ∀ (chunks : List (List PeerId)) (set : List PeerId),
      peer ∈ viewAfter set (about c room (chunks.map fun ids => (c, ServerMsg.peers room ids))) ↔
        peer ∈ set ∨ ∃ ids ∈ chunks, peer ∈ ids := by
    intro chunks
    induction chunks with
    | nil => simp [about, viewAfter]
    | cons ids rest ih =>
      intro set
      have front : about c room ((ids :: rest).map fun ids => (c, ServerMsg.peers room ids)) =
          .peers room ids :: about c room (rest.map fun ids => (c, ServerMsg.peers room ids)) :=
        filterMap_cons_some (if_pos ⟨rfl, rfl⟩)
      rw [front]
      show peer ∈ viewAfter (ServerMsg.apply set (.peers room ids)) _ ↔ _
      rw [ih]
      simp only [ServerMsg.apply, ServerMsg.removes, ServerMsg.adds, not_mem_nil,
        not_false_eq_true, decide_true, filter_true, mem_append, mem_cons,
        exists_eq_or_imp, or_assoc]
  rw [sendPeers, one, mem_peer_frames]

theorem about_send_peers {c other : StreamId} {room where_ : Room} (others : List PeerId)
    (elsewhere : ¬(other = c ∧ where_ = room)) :
    about other where_ (sendPeers c room others) = [] := by
  apply about_none
  intro frame sent
  obtain ⟨ids, _, rfl⟩ := mem_map.mp sent
  exact fun both => elsewhere ⟨both.1.symm, (Option.some.inj both.2).symm⟩

/-- The set a stream's REGISTER starts takes in the list; every other set is told what
changed. -/
structure Listed (r next : Registry) (sends : Sends) (c : StreamId) (room : Room) : Prop where
  own : c ∈ next.membersOf room → (∀ peer, peer ∈ next.others c room ↔ peer ∈ r.others c room) ∧
    ∀ set peer, peer ∈ viewAfter set (about c room sends) ↔ peer ∈ set ∨ peer ∈ r.others c room
  stays : ∀ other m, m ∈ next.membersOf other → ¬(m = c ∧ other = room) → m ∈ r.membersOf other
  views : ∀ other m, m ∈ next.membersOf other → ¬(m = c ∧ other = room) → ∀ peer,
    peer ∈ next.others m other ↔ peer ∈ viewAfter (r.others m other) (about m other sends)

theorem Listed.refused {r next : Registry} (told : Told r next [])
    (outside : c ∉ r.membersOf room) : Listed r next [] c room where
  own := fun mem => absurd (told.stays room c mem) outside
  stays := fun other m mem _ => told.stays other m mem
  views := fun other m mem _ => told.views other m mem

theorem Listed.resync (found : r.streams.get c = some client) (room : Room) :
    Listed r r (sendPeers c room (r.peersExcept (r.membersOf room) client.peerId)) c room where
  own := by
    intro _
    rw [← peer_of_client found]
    exact ⟨fun _ => Iff.rfl, fun set peer => mem_send_peers _ set peer⟩
  stays := fun _ _ mem _ => mem
  views := by
    intro other m _ elsewhere peer
    rw [about_send_peers _ elsewhere]
    exact Iff.rfl

theorem Listed.join (inv : Coherent r) (found : r.streams.get c = some client)
    (outside : c ∉ r.membersOf room) :
    Listed r (r.join c client room)
      (sendPeers c room (r.peersExcept (r.membersOf room) client.peerId) ++
        if !r.peerInRoom (r.membersOf room) client.peerId then
          ((r.membersOf room).filter fun m => decide (r.peerOf m ≠ client.peerId)).map
            fun m => (m, .peerJoined room client.peerId)
        else []) c room := by
  have resized := join_resized inv found room
  have own := peer_of_client found
  have there : r.peerInRoom (r.membersOf room) client.peerId = true ↔
      ∃ m ∈ r.membersOf room, r.peerOf m = client.peerId := by
    unfold peerInRoom
    simp only [any_eq_true, decide_eq_true_eq]
  have present : ∀ peer, (∃ m ∈ r.membersOf room ++ [c], r.peerOf m = peer) ↔
      (∃ m ∈ r.membersOf room, r.peerOf m = peer) ∨ client.peerId = peer := by
    intro peer
    simp only [mem_append, mem_singleton, or_and_right, exists_or, exists_eq_left, own]
  refine ⟨?_, ?_, ?_⟩
  · intro _
    refine ⟨?_, ?_⟩
    · intro peer
      rw [mem_others, mem_others, resized.peer_of, join_members, if_pos rfl, present, own]
      constructor
      · exact fun known => ⟨known.1, known.2.resolve_right fun named => known.1 named.symm⟩
      · exact fun known => ⟨known.1, Or.inl known.2⟩
    · intro set peer
      rw [about_append, view_after_append]
      have announced : ∀ set, viewAfter set (about c room
          (if !r.peerInRoom (r.membersOf room) client.peerId then
            ((r.membersOf room).filter fun m => decide (r.peerOf m ≠ client.peerId)).map
              fun m => (m, ServerMsg.peerJoined room client.peerId)
          else [])) = set := by
        intro set
        rw [about_none]
        · rfl
        · intro frame sent both
          split at sent
          · obtain ⟨m, mem, rfl⟩ := mem_map.mp sent
            have inside := (mem_filter.mp mem).1
            rw [show m = c from both.1] at inside
            exact outside inside
          · cases sent
      rw [announced, ← own]
      exact mem_send_peers _ set peer
  · intro other m mem elsewhere
    rw [join_members] at mem
    split at mem
    · rename_i same
      rcases mem_append.mp mem with before | last
      · exact same ▸ before
      · exact absurd ⟨mem_singleton.mp last, same⟩ elsewhere
    · exact mem
  · intro other m mem elsewhere peer
    rw [about_append, about_send_peers _ elsewhere, nil_append]
    rw [join_members] at mem
    by_cases same : other = room
    · subst same
      rw [if_pos rfl] at mem
      have inside : m ∈ r.membersOf other :=
        (mem_append.mp mem).resolve_right
          fun last => elsewhere ⟨mem_singleton.mp last, rfl⟩
      rw [mem_others, resized.peer_of, join_members, if_pos rfl, present]
      by_cases here : r.peerInRoom (r.membersOf other) client.peerId = true
      · rw [here]
        show _ ↔ peer ∈ r.others m other
        rw [mem_others]
        have absorbed : client.peerId = peer → ∃ m ∈ r.membersOf other, r.peerOf m = peer :=
          fun named => named ▸ there.mp here
        constructor
        · exact fun known => ⟨known.1, known.2.elim id absorbed⟩
        · exact fun known => ⟨known.1, Or.inl known.2⟩
      · rw [Bool.not_eq_true] at here
        rw [here, Bool.not_false, if_pos rfl, mem_broadcast rfl]
        have target : m ∈ (r.membersOf other).filter
            (fun m => decide (r.peerOf m ≠ client.peerId)) ↔ r.peerOf m ≠ client.peerId := by
          rw [mem_filter, decide_eq_true_eq]
          exact and_iff_right inside
        simp only [target]
        split
        · rename_i apart
          simp only [ServerMsg.apply, ServerMsg.removes, ServerMsg.adds, not_mem_nil,
            not_false_eq_true, decide_true, filter_true, mem_append,
            mem_singleton, mem_others]
          constructor
          · rintro ⟨other_, known | named⟩
            · exact Or.inl ⟨other_, known⟩
            · exact Or.inr named.symm
          · rintro (known | named)
            · exact ⟨known.1, Or.inl known.2⟩
            · exact ⟨named ▸ Ne.symm apart, Or.inr named.symm⟩
        · rename_i own_
          rw [mem_others]
          have mine : client.peerId = r.peerOf m := (not_not.mp own_).symm
          constructor
          · exact fun known => ⟨known.1, known.2.resolve_right
              fun named => known.1 (named.symm.trans mine)⟩
          · exact fun known => ⟨known.1, Or.inl known.2⟩
    · rw [if_neg same] at mem
      rw [about_none (by
        intro frame sent both
        split at sent
        · obtain ⟨target, _, rfl⟩ := mem_map.mp sent
          exact same (Option.some.inj both.2).symm
        · cases sent)]
      show _ ↔ peer ∈ r.others m other
      rw [mem_others, mem_others, resized.peer_of, join_members, if_neg same]

theorem Listed.charged_join {r next : Registry} (charged : Charged r next) (inv : Inv r)
    (found : r.streams.get c = some client) (outside : c ∉ r.membersOf room) :
    Listed r (next.join c client room)
      (sendPeers c room (r.peersExcept (r.membersOf room) client.peerId) ++
        if !r.peerInRoom (r.membersOf room) client.peerId then
          ((r.membersOf room).filter fun m => decide (r.peerOf m ≠ client.peerId)).map
            fun m => (m, .peerJoined room client.peerId)
        else []) c room := by
  have members : next.membersOf = r.membersOf := by
    funext other
    rw [membersOf, charged.rooms]
    rfl
  have peers : next.peerOf = r.peerOf := by
    funext other
    rw [peerOf, charged.streams]
    rfl
  have listed := @Listed.join client next c room (inv.charged charged).toCoherent
    (charged.streams ▸ found) (members ▸ outside)
  have same : next.others = r.others := by
    funext m other
    unfold others peersExcept peersAmong
    rw [members, peers]
  unfold peersExcept peersAmong peerInRoom at listed ⊢
  rw [members, peers] at listed
  exact ⟨same ▸ listed.own, members ▸ listed.stays, same ▸ listed.views⟩

theorem Listed.register (inv : Inv r) (c : StreamId) (room : Room) (now : Int) :
    Listed r (r.register c room now).1 (r.register c room now).2.2 c room := by
  have coherent := inv.toCoherent
  unfold Registry.register
  cases found : r.streams.get c with
  | none =>
    apply Listed.refused (Told.refl r)
    rw [inv.members, roomsOf, found]
    exact not_mem_nil
  | some client =>
    have budgets := coherent.has_budgets found
    have live : r.isLive c = true := by
      unfold isLive
      rw [found]
      exact decide_eq_true (inv.listed c client found)
    have joined := charge_join now budgets.2
    have emptied : Charged r ((r.chargeJoin client now).2.chargeEmpty client now).2 :=
      joined.trans (charge_empty now ((joined.emptyRegisters _).trans budgets.1))
    simp only [live, Bool.true_eq_false, if_false]
    split
    · exact Listed.resync found room
    · rename_i fresh
      have outside : c ∉ r.membersOf room := by
        rw [inv.members, roomsOf, found]
        exact fresh
      have recorded : ∀ {next : Registry}, Charged r next → _ :=
        fun {next} charged => Listed.charged_join charged inv found outside
      split
      · exact Listed.refused (Told.refl r) outside
      · split
        · exact Listed.refused (Told.charged joined) outside
        · by_cases empty : r.membersOf room = []
          · rw [if_pos empty]
            split
            · exact Listed.refused (Told.charged emptied) outside
            · exact recorded emptied
          · rw [if_neg empty]
            exact recorded joined

end Registry

namespace RoomViews

/-- Once what is unsent has arrived, in order, the members know their rooms. -/
structure Inv (s : RoomViews) : Prop where
  registry : Registry.Inv s.registry
  views : ∀ room c, c ∈ s.registry.membersOf room → ∀ peer,
    peer ∈ viewAfter (s.viewOf c room) (about c room s.frames) ↔ peer ∈ s.registry.others c room

theorem start_inv : Inv start :=
  ⟨Registry.new_registry_inv, fun _ _ mem => absurd mem not_mem_nil⟩

theorem lock_part_step (isProxyClassAddr : Address → Bool) (r : Registry) (call : RegistryCall) :
    Registry.step isProxyClassAddr r call = some (lockPart isProxyClassAddr r call).1 := by
  cases call <;> rfl

theorem lock_part_told (isProxyClassAddr : Address → Bool) {r : Registry} (inv : Registry.Inv r)
    {call : RegistryCall} (other : ∀ c room now, call ≠ .register c room now) :
    Registry.Told r (lockPart isProxyClassAddr r call).1 (lockPart isProxyClassAddr r call).2 := by
  cases call with
  | addStreamFrom peerId addr =>
    exact Registry.Told.add_stream inv.toCoherent peerId
      (Registry.source_keys_once isProxyClassAddr addr)
  | register c room now => exact absurd rfl (other c room now)
  | unregister c room => exact Registry.Told.unregister inv c room
  | removeClient c => exact Registry.Told.remove_client inv c
  | disconnectPeer peerId => exact Registry.Told.evict_all inv _

theorem Inv.call {isProxyClassAddr : Address → Bool} {s : RoomViews} (inv : Inv s)
    {call : RegistryCall} (inOrder : InOrder s (.call call)) :
    Inv ⟨(lockPart isProxyClassAddr s.registry call).1,
      s.unsent ++ (lockPart isProxyClassAddr s.registry call).2.map (Unsent.mk call.caller),
      s.afterCall call⟩ := by
  refine ⟨inv.registry.step (lock_part_step isProxyClassAddr s.registry call), ?_⟩
  intro room c mem peer
  have frames : frames ⟨(lockPart isProxyClassAddr s.registry call).1,
      s.unsent ++ (lockPart isProxyClassAddr s.registry call).2.map (Unsent.mk call.caller),
      s.afterCall call⟩ = s.frames ++ (lockPart isProxyClassAddr s.registry call).2 := by
    unfold RoomViews.frames
    rw [map_append, map_map]
    congr 1
    exact map_id _
  rw [frames, about_append, view_after_append]
  by_cases joining : ∃ joiner target now, call = .register joiner target now
  · obtain ⟨joiner, target, now, rfl⟩ := joining
    have listed := Registry.Listed.register inv.registry joiner target now
    by_cases here : c = joiner ∧ room = target
    · obtain ⟨rfl, rfl⟩ := here
      obtain ⟨same, list⟩ := listed.own mem
      have known : peer ∈ viewAfter [] (about c room s.frames) → peer ∈ s.registry.others c room :=
        inOrder peer
      show peer ∈ viewAfter (viewAfter (((s.sets.set (c, room) []).get (c, room)).getD []) _) _ ↔ _
      rw [get_set, if_pos rfl]
      have whole := list (viewAfter [] (about c room s.frames)) peer
      exact whole.trans ((or_iff_right_of_imp known).trans (same peer).symm)
    · have before := listed.stays room c mem here
      show peer ∈ viewAfter (viewAfter (((s.sets.set (joiner, target) []).get (c, room)).getD []) _)
        _ ↔ _
      rw [get_set, if_neg fun same => here (Prod.mk.inj same)]
      exact (view_after_congr (inv.views room c before) _ peer).trans
        (listed.views room c mem here peer).symm
  · have other : ∀ joiner target now, call ≠ .register joiner target now :=
      fun joiner target now same => joining ⟨joiner, target, now, same⟩
    have told := lock_part_told isProxyClassAddr inv.registry other
    have sets : s.afterCall call = s.sets := by
      cases call <;> first | rfl | exact absurd rfl (other _ _ _)
    rw [sets]
    exact (view_after_congr (inv.views room c (told.stays room c mem)) _ peer).trans
      (told.views room c mem peer).symm

theorem word_agrees {msg other : ServerMsg} (clear : other.contradicts msg = false) {peer : PeerId}
    {value said : Bool} (word : msg.word peer = some value) (spoken : other.word peer = some said) :
    said = value := by
  unfold ServerMsg.contradicts at clear
  simp only [Bool.or_eq_false_iff, any_eq_false, decide_eq_true_eq] at clear
  unfold ServerMsg.word at word spoken
  split at word
  · rename_i added
    cases word
    split at spoken
    · exact (Option.some.inj spoken).symm
    · split at spoken
      · rename_i removed
        exact absurd added (clear.2 peer removed)
      · cases spoken
  · split at word
    · rename_i removed
      cases word
      split at spoken
      · rename_i added
        exact absurd removed (clear.1 peer added)
      · split at spoken
        · exact (Option.some.inj spoken).symm
        · cases spoken
    · cases word

theorem Inv.send {s : RoomViews} (inv : Inv s) {index : Nat} {unsent : Unsent}
    (found : s.unsent[index]? = some unsent) (inOrder : InOrder s (.send index)) :
    Inv ⟨s.registry, s.unsent.eraseIdx index, s.afterSend unsent.frame⟩ := by
  refine ⟨inv.registry, ?_⟩
  intro room c mem peer
  have before : s.unsent = s.unsent.take index ++ unsent :: s.unsent.drop (index + 1) := by
    obtain ⟨inside, there⟩ := List.getElem?_eq_some_iff.mp found
    rw [← there, getElem_cons_drop, take_append_drop]
  have after : s.unsent.eraseIdx index = s.unsent.take index ++ s.unsent.drop (index + 1) :=
    eraseIdx_eq_take_drop_succ _ _
  have was : about c room s.frames = about c room ((s.unsent.take index).map Unsent.frame) ++
      (about c room [unsent.frame] ++
        about c room ((s.unsent.drop (index + 1)).map Unsent.frame)) := by
    unfold frames
    rw [← about_append, ← about_append, singleton_append, ← map_cons, ← map_append,
      ← before]
  have now : about c room
      (frames ⟨s.registry, s.unsent.eraseIdx index, s.afterSend unsent.frame⟩) =
        about c room ((s.unsent.take index).map Unsent.frame) ++
          about c room ((s.unsent.drop (index + 1)).map Unsent.frame) := by
    unfold frames
    rw [← about_append, ← map_append, ← after]
  rw [now, ← inv.views room c mem peer, was]
  by_cases here : unsent.frame.1 = c ∧ unsent.frame.2.room = some room
  · have one : about c room [unsent.frame] = [unsent.frame.2] :=
      filterMap_cons_some (if_pos here)
    have delivered : viewOf ⟨s.registry, s.unsent.eraseIdx index, s.afterSend unsent.frame⟩ c room =
        unsent.frame.2.apply (s.viewOf c room) := by
      unfold viewOf afterSend
      rw [here.2]
      simp only
      rw [here.1, get_set, if_pos rfl]
      rfl
    rw [delivered, one, singleton_append, ← decide_eq_decide, mem_view_after, mem_view_after,
      mem_apply]
    apply after_writes_overtake
    intro value word earlier listed said spoken
    obtain ⟨sent, there⟩ := mem_about.mp listed
    obtain ⟨entry, taken, same⟩ := mem_map.mp sent
    have clear := inOrder unsent found entry taken (by rw [same, here.1])
      (by rw [same, here.2, there])
    rw [same] at clear
    exact word_agrees clear word spoken
  · have none_ : about c room [unsent.frame] = [] :=
      filterMap_cons_none (if_neg here)
    have kept : viewOf ⟨s.registry, s.unsent.eraseIdx index, s.afterSend unsent.frame⟩ c room =
        s.viewOf c room := by
      unfold viewOf afterSend
      cases there : unsent.frame.2.room with
      | none => rfl
      | some target =>
        simp only
        rw [get_set, if_neg]
        rintro same
        obtain ⟨target_, room_⟩ := Prod.mk.inj same
        exact here ⟨target_.symm, by rw [there, room_]⟩
    rw [kept, none_, nil_append]

theorem Inv.step {isProxyClassAddr : Address → Bool} {s next : RoomViews} {event : ViewEvent}
    (inv : Inv s) (inOrder : InOrder s event)
    (stepped : viewStep isProxyClassAddr s event = some next) : Inv next := by
  cases event with
  | call call =>
    unfold viewStep at stepped
    simp only at stepped
    split at stepped
    · cases stepped
    · cases stepped
      exact inv.call inOrder
  | send index =>
    unfold viewStep at stepped
    simp only at stepped
    split at stepped
    · cases stepped
    · rename_i unsent found
      cases stepped
      exact inv.send found inOrder

/-- In a run in which frames keep to the order, once every call has sent what it had to, a
member's set is the other peers with a live stream in the room. -/
theorem ordered_views_settle {isProxyClassAddr : Address → Bool} {events : List ViewEvent}
    {s : RoomViews} (ran : run (viewStep isProxyClassAddr) start events = some s)
    (inOrder : Meets (viewStep isProxyClassAddr) InOrder start events) (finished : s.unsent = [])
    {room : Room} {c : StreamId} (registered : room ∈ s.registry.roomsOf c) (peer : PeerId) :
    peer ∈ s.viewOf c room ↔ peer ≠ s.registry.peerOf c ∧ ∃ m, s.registry.isLive m = true ∧
      room ∈ s.registry.roomsOf m ∧ s.registry.peerOf m = peer := by
  have inv := run_keeps (fun _ _ _ inv inOrder stepped => inv.step inOrder stepped) start_inv
    inOrder ran
  have coherent := inv.registry.toCoherent
  have known := inv.views room c ((coherent.members room c).mpr registered) peer
  have nothing : about c room s.frames = [] := by
    unfold frames
    rw [finished]
    rfl
  rw [nothing] at known
  refine known.trans (Registry.mem_others.trans (and_congr_right fun _ => ?_))
  constructor
  · rintro ⟨m, mem, named⟩
    exact ⟨m, coherent.member_live mem, (coherent.members room m).mp mem, named⟩
  · rintro ⟨m, _, there, named⟩
    exact ⟨m, (coherent.members room m).mpr there, named⟩

def overtakenLeave : List ViewEvent :=
  [.call (.addStreamFrom "ada" none), .call (.addStreamFrom "ada" none),
    .call (.addStreamFrom "bob" none), .call (.register 0 "den" 0), .send 0,
    .call (.register 2 "den" 0), .send 0, .send 0, .call (.unregister 0 "den"),
    .call (.register 1 "den" 0), .send 1, .send 1, .send 0]

def orderedLeave : List ViewEvent :=
  [.call (.addStreamFrom "ada" none), .call (.addStreamFrom "ada" none),
    .call (.addStreamFrom "bob" none), .call (.register 0 "den" 0), .send 0,
    .call (.register 2 "den" 0), .send 0, .send 0, .call (.unregister 0 "den"),
    .call (.register 1 "den" 0), .send 0, .send 0, .send 0]

theorem present_peer_dropped : ∃ s, run (viewStep fun _ => false) start overtakenLeave = some s ∧
    s.unsent = [] ∧ s.registry.isLive 2 = true ∧ "den" ∈ s.registry.roomsOf 2 ∧
      s.registry.isLive 1 = true ∧ "den" ∈ s.registry.roomsOf 1 ∧ s.registry.peerOf 1 = "ada" ∧
      s.registry.peerOf 2 = "bob" ∧ "ada" ∉ s.viewOf 2 "den" := by
  have left : (run (viewStep fun _ => false) start overtakenLeave).map (fun s =>
      decide (s.unsent = [] ∧ s.registry.isLive 2 = true ∧ "den" ∈ s.registry.roomsOf 2 ∧
        s.registry.isLive 1 = true ∧ "den" ∈ s.registry.roomsOf 1 ∧ s.registry.peerOf 1 = "ada" ∧
        s.registry.peerOf 2 = "bob" ∧ "ada" ∉ s.viewOf 2 "den")) = some true := by
    decide +kernel
  obtain ⟨s, ran, holds⟩ := Option.map_eq_some_iff.mp left
  exact ⟨s, ran, of_decide_eq_true holds⟩

theorem sample_views_settle : ∃ s, run (viewStep fun _ => false) start orderedLeave = some s ∧
    ("ada" ∈ s.viewOf 2 "den" ↔ "ada" ≠ s.registry.peerOf 2 ∧ ∃ m, s.registry.isLive m = true ∧
      "den" ∈ s.registry.roomsOf m ∧ s.registry.peerOf m = "ada") := by
  have left : (run (viewStep fun _ => false) start orderedLeave).map (fun s =>
      decide (s.unsent = [] ∧ "den" ∈ s.registry.roomsOf 2)) = some true := by
    decide +kernel
  obtain ⟨s, ran, holds⟩ := Option.map_eq_some_iff.mp left
  obtain ⟨finished, registered⟩ := of_decide_eq_true holds
  exact ⟨s, ran, ordered_views_settle ran (by decide +kernel) finished registered "ada"⟩

end RoomViews

end AwfulChat.Relay
