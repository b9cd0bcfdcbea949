import AwfulChat.Relay.RoomViews

/-!
# What a guesser hears of a room

A REGISTER of a room that nobody is in is dropped without an answer once the budget for empty
rooms is spent, and one of a room that somebody is in is answered with the list. Two registries
that differ only in who is in the room are probed with the same calls, and the frames the
guesser gets are compared.
-/

namespace AwfulChat.Relay

open Library Library.OrderedMap List Option

set_option autoImplicit false

def OpBudget.spentAt (budget : OpBudget) (now : Int) : Bool :=
  budget.started && decide (now - budget.windowStart < budget.window) && decide (budget.left ≤ 0)

/-- Which budget for empty rooms is meant: the peer's own or that of one of its sources. -/
inductive BudgetOf
  | own
  | source (key : SourceKey)
  deriving DecidableEq

/-- What a guesser does: its streams ask for the room, and come and go. -/
inductive Probe
  | register (c : StreamId) (now : Int)
  | close (c : StreamId)
  | another (addr : Option Address)
  deriving DecidableEq

namespace Registry

def emptyBudget (r : Registry) (peerId : PeerId) : BudgetOf → Option OpBudget
  | .own => r.emptyRegisters.get peerId
  | .source key => (r.sources.get key).map SourceState.empty

/-- The stream's REGISTERs are charged to that budget. -/
def covers (r : Registry) (c : StreamId) : BudgetOf → Bool
  | .own => true
  | .source key =>
    ((r.streams.get c).map fun client => decide (key ∈ client.sourceKeys)).getD false

/-- A REGISTER with the answer of the read loop. -/
def answer (r : Registry) (c : StreamId) (room : Room) (now : Int) : Registry × Sends :=
  let out := r.register c room now
  (out.1, if out.2.1 = .registerCapped then [(c, .registerFailed room)] else out.2.2)

def toPeer (r : Registry) (peerId : PeerId) (sends : Sends) : Sends :=
  sends.filter fun frame => decide (r.peerOf frame.1 = peerId)

/-- One probe, and the frames the guesser gets for it. -/
def probe (isProxyClassAddr : Address → Bool) (peerId : PeerId) (room : Room) (r : Registry) :
    Probe → Registry × Sends
  | .register c now =>
    let out := r.answer c room now
    (out.1, r.toPeer peerId out.2)
  | .close c =>
    let out := r.removeClient c
    (out.1, r.toPeer peerId out.2)
  | .another addr => ((r.addStreamFrom peerId (sourceKeysFor isProxyClassAddr addr)).1, [])

def transcript (isProxyClassAddr : Address → Bool) (peerId : PeerId) (room : Room) (r : Registry) :
    List Probe → List Sends
  | [] => []
  | event :: rest =>
    let out := r.probe isProxyClassAddr peerId room event
    out.2 :: out.1.transcript isProxyClassAddr peerId room rest

def probeStep (isProxyClassAddr : Address → Bool) (peerId : PeerId) (room : Room) (r : Registry)
    (event : Probe) : Option Registry := some (r.probe isProxyClassAddr peerId room event).1

/-- The guesser's own streams, in the window of the spent budget, of which one stays open. -/
def Probes (peerId : PeerId) (scope : BudgetOf) (budget : OpBudget) (r : Registry) : Probe → Prop
  | .register c now =>
    c ∈ r.streamsOf peerId ∧ r.covers c scope = true ∧ budget.spentAt now = true
  | .close c =>
    c ∈ r.streamsOf peerId ∧ ∃ m ∈ r.streamsOf peerId, m ≠ c ∧ r.covers m scope = true
  | .another _ => True

instance (peerId : PeerId) (scope : BudgetOf) (budget : OpBudget) (r : Registry) :
    ∀ event, Decidable (Probes peerId scope budget r event)
  | .register c now | .close c => inferInstanceAs (Decidable (_ ∧ _))
  | .another _ => inferInstanceAs (Decidable True)

/-- The stream is in the room already, or no cap and no join budget refuses it. -/
def reaches (r : Registry) (c : StreamId) (room : Room) (now : Int) : Bool :=
  match r.streams.get c with
  | none => false
  | some client =>
    decide (room ∈ client.rooms) || (!r.capped client room && (r.chargeJoin client now).1)

/-- Either a cap or the join budget refuses the REGISTER on both sides, or on neither and the
same other peers are in the room. -/
def SameSide (room : Room) (pair : Registry × Registry) : Probe → Prop
  | .register c now => pair.1.reaches c room now = pair.2.reaches c room now ∧
      (pair.1.reaches c room now = true → pair.1.others c room = pair.2.others c room)
  | _ => True

instance (room : Room) (pair : Registry × Registry) : ∀ event, Decidable (SameSide room pair event)
  | .register c now => inferInstanceAs (Decidable (_ ∧ _))
  | .close _ | .another _ => inferInstanceAs (Decidable True)

def pairStep (isProxyClassAddr : Address → Bool) (peerId : PeerId) (room : Room)
    (pair : Registry × Registry) (event : Probe) : Option (Registry × Registry) :=
  some ((pair.1.probe isProxyClassAddr peerId room event).1,
    (pair.2.probe isProxyClassAddr peerId room event).1)

def elsewhere (room : Room) (client : ConnectedClient) : ConnectedClient :=
  { client with rooms := client.rooms.filter fun other => decide (other ≠ room) }

/-- What does not move with who is in a room. -/
def budgetsOf (state : SourceState) : Int × Int × OpBudget × OpBudget :=
  (state.streams, state.maxHeld, state.joins, state.empty)

/-- Nothing differs but which other peers are in the room, which has space for one more. -/
structure DifferOnlyIn (peerId : PeerId) (room : Room) (one two : Registry) : Prop where
  clients : one.clients.entries = two.clients.entries
  streams : (one.streams.entries.map fun entry => (entry.1, elsewhere room entry.2)) =
    two.streams.entries.map fun entry => (entry.1, elsewhere room entry.2)
  outside : ∀ c ∈ one.streamsOf peerId, room ∉ one.roomsOf c ∧ room ∉ two.roomsOf c
  rooms : (one.rooms.entries.filter fun entry => decide (entry.1 ≠ room)) =
    two.rooms.entries.filter fun entry => decide (entry.1 ≠ room)
  emptyRegisters : one.emptyRegisters.entries = two.emptyRegisters.entries
  joins : one.joins.entries = two.joins.entries
  sources : (one.sources.entries.map fun entry => (entry.1, budgetsOf entry.2)) =
    two.sources.entries.map fun entry => (entry.1, budgetsOf entry.2)
  opened : one.opened = two.opened
  space : one.distinctPeersAtLeast (one.membersOf room) maxPeersPerRoom = false ∧
    two.distinctPeersAtLeast (two.membersOf room) maxPeersPerRoom = false

end Registry

theorem spent_refill {budget : OpBudget} {now : Int} (spent : budget.spentAt now = true) :
    budget.refill now = budget ∧ budget.left ≤ 0 := by
  unfold OpBudget.spentAt at spent
  simp only [Bool.and_eq_true, decide_eq_true_eq] at spent
  obtain ⟨⟨started, inside⟩, nothing⟩ := spent
  refine ⟨?_, nothing⟩
  unfold OpBudget.refill
  rw [if_neg]
  rintro (fresh | past)
  · rw [started] at fresh
    cases fresh
  · omega

theorem has_all_spent {now : Int} {budgets : List OpBudget} {budget : OpBudget}
    (mem : budget ∈ budgets) (spent : budget.spentAt now = true) :
    (hasAll now budgets).1 = false := by
  induction budgets with
  | nil => cases mem
  | cons first rest ih =>
    rw [hasAll]
    simp only
    split
    · rename_i some_
      rcases mem_cons.mp mem with rfl | later
      · obtain ⟨same, nothing⟩ := spent_refill spent
        rw [same] at some_
        exact absurd some_ (Int.not_lt.mpr nothing)
      · exact ih later
    · rfl

theorem has_all_keeps {now : Int} {budgets : List OpBudget} {pair : OpBudget × OpBudget}
    (mem : pair ∈ budgets.zip (hasAll now budgets).2) (spent : pair.1.spentAt now = true) :
    pair.2 = pair.1 := by
  induction budgets with
  | nil => cases mem
  | cons first rest ih =>
    have own : (first.refill now, first) = (pair.2, pair.1) → pair.2 = pair.1 := by
      intro same
      obtain ⟨filled, here⟩ := Prod.mk.inj same
      rw [← filled, ← here]
      rw [← here] at spent
      exact (spent_refill spent).1
    rw [hasAll] at mem
    simp only at mem
    split at mem
    · rcases mem_cons.mp mem with here | later
      · exact own (by rw [here])
      · exact ih later
    · rcases mem_cons.mp mem with here | later
      · exact own (by rw [here])
      · have same : pair ∈ rest.zip rest := later
        obtain ⟨index, inside, there⟩ := mem_iff_getElem.mp same
        rw [getElem_zip] at there
        rw [← there]

theorem all_refused {now : Int} {budgets : List OpBudget} {budget : OpBudget}
    (mem : budget ∈ budgets) (spent : budget.spentAt now = true) :
    allowAll now budgets = (false, (hasAll now budgets).2) := by
  have refused := has_all_spent mem spent
  unfold allowAll
  simp only
  rw [refused, if_neg Bool.false_ne_true, ← refused]

namespace Registry

theorem covers_client {r : Registry} {c : StreamId} {client : ConnectedClient}
    (found : r.streams.get c = some client) {key : SourceKey} :
    r.covers c (.source key) = true ↔ key ∈ client.sourceKeys := by
  unfold covers
  rw [found]
  simp

theorem mem_source_states {r : Registry} {keys : List SourceKey} {key : SourceKey}
    {state : SourceState} (mem : key ∈ keys) (found : r.sources.get key = some state) :
    (key, state) ∈ r.sourceStates keys :=
  mem_filterMap.mpr ⟨key, mem, by rw [found]; rfl⟩

/-- The budgets that a REGISTER of an empty room is charged to. -/
def emptyBudgets (r : Registry) (client : ConnectedClient) : List OpBudget :=
  (r.emptyRegisters.get client.peerId).getD (newOpBudget maxEmptyRegisters emptyRegisterWindow) ::
    (r.sourceStates client.sourceKeys).map fun entry => entry.2.empty

section Spent

variable {r : Registry} {c : StreamId} {client : ConnectedClient} {scope : BudgetOf}
  {budget : OpBudget} {now : Int}

section

variable (found : r.streams.get c = some client) (covered : r.covers c scope = true)
  (known : r.emptyBudget client.peerId scope = some budget)
include found covered known

theorem spent_among : budget ∈ r.emptyBudgets client := by
  cases scope with
  | own =>
    have own : r.emptyRegisters.get client.peerId = some budget := known
    rw [emptyBudgets, own]
    exact mem_cons_self
  | source key =>
    obtain ⟨state, there, rfl⟩ := map_eq_some_iff.mp known
    exact mem_cons_of_mem _ (mem_map_of_mem
      (mem_source_states ((covers_client found).mp covered) there))

theorem charge_empty_spent
    (spent : budget.spentAt now = true) : (r.chargeEmpty client now).1 = false ∧
      (r.chargeEmpty client now).2.emptyBudget client.peerId scope = some budget := by
  have refused := all_refused (spent_among found covered known) spent
  have charged : (r.chargeEmpty client now).1 = (allowAll now (r.emptyBudgets client)).1 := rfl
  refine ⟨by rw [charged, refused], ?_⟩
  cases scope with
  | own =>
    have own : r.emptyRegisters.get client.peerId = some budget := known
    obtain ⟨same, nothing⟩ := spent_refill spent
    have first : (allowAll now (r.emptyBudgets client)).2.headD budget = budget := by
      rw [refused, emptyBudgets, own, getD_some, hasAll, same]
      simp only
      rw [if_neg (Int.not_lt.mpr nothing)]
      rfl
    have written : (r.chargeEmpty client now).2.emptyRegisters =
        r.emptyRegisters.set client.peerId ((allowAll now (r.emptyBudgets client)).2.headD
          ((r.emptyRegisters.get client.peerId).getD
            (newOpBudget maxEmptyRegisters emptyRegisterWindow))) := rfl
    unfold emptyBudget
    simp only
    rw [written, own, getD_some, first, get_set, if_pos rfl]
  | source key =>
    obtain ⟨state, there, rfl⟩ := map_eq_some_iff.mp known
    have kept := @write_sources_view key OpBudget SourceState.empty r.sources r.sources
      (r.sourceStates client.sourceKeys) (allowAll now (r.emptyBudgets client)).2.tail
      (fun state budget => { state with empty := budget }) (by
        intro pair mem named
        have entry : pair.1 ∈ r.sourceStates client.sourceKeys := (of_mem_zip mem).1
        have read := source_states_read entry
        rw [named, there] at read
        have here : pair.1.2 = state := (Option.some.inj read).symm
        have paired : (pair.1.2.empty, pair.2) ∈
            (r.emptyBudgets client).zip (hasAll now (r.emptyBudgets client)).2 := by
          rw [refused] at mem
          simp only at mem
          have whole : ∃ head, (hasAll now (r.emptyBudgets client)).2 =
              head :: (hasAll now (r.emptyBudgets client)).2.tail := by
            rw [emptyBudgets, hasAll]
            simp only
            split <;> exact ⟨_, rfl⟩
          obtain ⟨head, whole⟩ := whole
          rw [whole]
          apply mem_cons_of_mem
          show _ ∈ ((r.sourceStates client.sourceKeys).map fun entry => entry.2.empty).zip _
          rw [zip_map_left]
          exact mem_map.mpr ⟨pair, mem, rfl⟩
        simp only
        exact has_all_keeps paired (by rw [here]; exact spent))
      rfl fun entry mem => source_states_read mem
    unfold emptyBudget
    simp only
    exact kept.trans (by rw [there]; rfl)

end

theorem charge_join_empty_budget (peerId : PeerId) :
    (r.chargeJoin client now).2.emptyBudget peerId scope = r.emptyBudget peerId scope := by
  cases scope with
  | own => rfl
  | source key =>
    exact write_sources_view SourceState.empty _ (fun _ _ _ => rfl) rfl
      fun entry mem => source_states_read mem

theorem join_empty_budget (keys : client.sourceKeys.Nodup) (room : Room) (peerId : PeerId) :
    (r.join c client room).emptyBudget peerId scope = r.emptyBudget peerId scope := by
  cases scope with
  | own => rfl
  | source key =>
    show ((r.addHeld 1 client.sourceKeys).sources.get key).map SourceState.empty = _
    rw [add_held_get keys]
    unfold emptyBudget
    simp only
    cases r.sources.get key with
    | none => rfl
    | some state =>
      simp only [map_some]
      split <;> rfl

end Spent

section Answer

variable {r : Registry} {c : StreamId} {client : ConnectedClient} {room : Room} {now : Int}
  {scope : BudgetOf} {budget : OpBudget}

/-- The four ways a REGISTER is taken while the budget for empty rooms is spent. -/
inductive Answered (r : Registry) (c : StreamId) (client : ConnectedClient) (room : Room)
    (now : Int) : Registry × Sends → Prop
  | resync (inside : room ∈ client.rooms) :
      Answered r c client room now (r, sendPeers c room (r.others c room))
  | refused {next : Registry} (outside : room ∉ client.rooms)
      (stopped : r.reaches c room now = false) (charged : Charged r next) :
      Answered r c client room now (next, [(c, .registerFailed room)])
  | silent {next : Registry} (outside : room ∉ client.rooms)
      (passed : r.reaches c room now = true) (empty : r.membersOf room = [])
      (charged : Charged r next) : Answered r c client room now (next, [])
  | joined {next : Registry} (outside : room ∉ client.rooms)
      (passed : r.reaches c room now = true) (some_ : r.membersOf room ≠ [])
      (charged : Charged r next) :
      Answered r c client room now (next.join c client room,
        sendPeers c room (r.others c room) ++
          if !r.peerInRoom (r.membersOf room) client.peerId then
            ((r.membersOf room).filter fun m => decide (r.peerOf m ≠ client.peerId)).map
              fun m => (m, .peerJoined room client.peerId)
          else [])

theorem answered (inv : Inv r) (found : r.streams.get c = some client)
    (covered : r.covers c scope = true)
    (known : r.emptyBudget client.peerId scope = some budget) (spent : budget.spentAt now = true) :
    Answered r c client room now (r.answer c room now) ∧
      (r.answer c room now).1.emptyBudget client.peerId scope = some budget := by
  have own := peer_of_client found
  have budgets := inv.toCoherent.has_budgets found
  have keys := inv.keysOnce c client found
  have live : r.isLive c = true := by
    unfold isLive
    rw [found]
    exact decide_eq_true (inv.listed c client found)
  have joined := charge_join now budgets.2
  have joinedBudget : (r.chargeJoin client now).2.emptyBudget client.peerId scope = some budget :=
    (charge_join_empty_budget _).trans known
  have foundAfter : (r.chargeJoin client now).2.streams.get c = some client := found
  have coveredAfter : (r.chargeJoin client now).2.covers c scope = true := covered
  obtain ⟨silenced, kept⟩ := charge_empty_spent foundAfter coveredAfter joinedBudget spent
  have emptied : Charged r ((r.chargeJoin client now).2.chargeEmpty client now).2 :=
    joined.trans (charge_empty now ((joined.emptyRegisters _).trans budgets.1))
  have others_ : r.peersExcept (r.membersOf room) client.peerId = r.others c room := by
    rw [others, own]
  have passes : room ∉ client.rooms → r.reaches c room now =
      (!r.capped client room && (r.chargeJoin client now).1) := by
    intro outside
    unfold reaches
    rw [found]
    simp [outside]
  unfold answer Registry.register
  rw [found]
  simp only [live, Bool.true_eq_false, if_false]
  split
  · rename_i inside
    rw [others_]
    exact ⟨.resync inside, known⟩
  · rename_i outside
    split
    · rename_i refused
      exact ⟨.refused outside (by rw [passes outside, refused]; rfl) (Charged.refl r), known⟩
    · rename_i accepted
      rw [Bool.not_eq_true] at accepted
      split
      · rename_i spent_
        exact ⟨.refused outside (by rw [passes outside, accepted, spent_]; rfl) joined,
          joinedBudget⟩
      · rename_i charged
        have passed : r.reaches c room now = true := by
          rw [passes outside, accepted]
          simpa using charged
        by_cases empty : r.membersOf room = []
        · rw [if_pos empty, silenced]
          simp only [if_true]
          exact ⟨.silent outside passed empty emptied, kept⟩
        · rw [if_neg empty]
          simp only [Bool.true_eq_false, if_false]
          rw [others_]
          exact ⟨.joined outside passed empty joined,
            (join_empty_budget keys room _).trans joinedBudget⟩

theorem send_peers_adds (c : StreamId) (room : Room) (others : List PeerId) :
    (sendPeers c room others).flatMap (fun frame => frame.2.adds) = others := by
  have whole := @slices_whole PeerId others maxPeersPerFrame (by decide)
  unfold sendPeers peerFrames
  rw [List.map_map, List.flatMap_map]
  exact whole

theorem send_peers_some (c : StreamId) (room : Room) (others : List PeerId) :
    sendPeers c room others ≠ [] := by
  unfold sendPeers peerFrames
  rw [Ne, map_eq_nil_iff, map_eq_nil_iff, range_eq_nil]
  unfold sliceCount
  omega

theorem mem_send_peers_frame {c : StreamId} {room : Room} {others : List PeerId}
    {frame : StreamId × ServerMsg} (mem : frame ∈ sendPeers c room others) :
    ∃ ids, frame = (c, .peers room ids) := by
  obtain ⟨ids, _, rfl⟩ := mem_map.mp mem
  exact ⟨ids, rfl⟩

def heard (r : Registry) (c : StreamId) (room : Room) (now : Int) : Sends :=
  if r.reaches c room now = false then [(c, .registerFailed room)]
  else if r.membersOf room = [] then []
  else sendPeers c room (r.others c room)

theorem to_peer_own {c : StreamId} {sends : Sends} (own : ∀ frame ∈ sends, frame.1 = c) :
    r.toPeer (r.peerOf c) sends = sends := by
  unfold toPeer
  apply filter_eq_self.mpr
  intro frame mem
  rw [own frame mem]
  exact decide_eq_true rfl

theorem Answered.heard (inv : Coherent r) (found : r.streams.get c = some client)
    {out : Registry × Sends} (answered : Answered r c client room now out) :
    r.toPeer client.peerId out.2 = r.heard c room now := by
  have own := peer_of_client found
  have listed : ∀ others, ∀ frame ∈ sendPeers c room others, frame.1 = c := by
    intro others frame mem
    obtain ⟨ids, rfl⟩ := mem_send_peers_frame mem
    rfl
  unfold Registry.heard
  rw [← own]
  cases answered with
  | resync inside =>
    have passed : r.reaches c room now = true := by
      unfold reaches
      rw [found]
      simp [inside]
    have some_ : r.membersOf room ≠ [] := by
      have mem : c ∈ r.membersOf room := by
        rw [inv.members, roomsOf, found]
        exact inside
      exact ne_nil_of_mem mem
    rw [passed, if_neg (by decide : ¬(true = false)), if_neg some_]
    exact to_peer_own (listed _)
  | refused outside stopped charged =>
    rw [if_pos stopped]
    apply to_peer_own
    intro frame mem
    rw [mem_singleton.mp mem]
  | silent outside passed empty charged =>
    rw [passed, if_neg (by decide : ¬(true = false)), if_pos empty]
    rfl
  | joined outside passed some_ charged =>
    rw [passed, if_neg (by decide : ¬(true = false)), if_neg some_]
    have split_ : r.toPeer (r.peerOf c) (if !r.peerInRoom (r.membersOf room) client.peerId then
        ((r.membersOf room).filter fun m => decide (r.peerOf m ≠ client.peerId)).map
          fun m => (m, ServerMsg.peerJoined room client.peerId)
        else []) = [] := by
      apply filter_eq_nil_iff.mpr
      intro frame mem
      split at mem
      · obtain ⟨m, target, rfl⟩ := mem_map.mp mem
        have apart := of_decide_eq_true (mem_filter.mp target).2
        rw [own]
        simpa using apart
      · cases mem
    have both : ∀ first second : Sends, r.toPeer (r.peerOf c) (first ++ second) =
        r.toPeer (r.peerOf c) first ++ r.toPeer (r.peerOf c) second :=
      fun first second => filter_append first second
    rw [both, split_, append_nil]
    exact to_peer_own (listed _)

end Answer

section Pairs

variable {one two : Registry} {peerId : PeerId} {room : Room}

/-- The guesser's own streams are the same on both sides. -/
structure Alike (peerId : PeerId) (one two : Registry) : Prop where
  opened : one.opened = two.opened
  streams : one.streamsOf peerId = two.streamsOf peerId
  clients : ∀ c ∈ one.streamsOf peerId, one.streams.get c = two.streams.get c

section

variable (alike : Alike peerId one two)
include alike

theorem Alike.symm : Alike peerId two one where
  opened := alike.opened.symm
  streams := alike.streams.symm
  clients := fun c mem => (alike.clients c (alike.streams ▸ mem)).symm

theorem Alike.nobody (invOne : Coherent one) (invTwo : Coherent two)
    {c : StreamId} (own : one.peerOf c = peerId)
    (alone : one.others c room = []) (empty : two.membersOf room = []) :
    one.membersOf room = [] := by
  apply eq_nil_iff_forall_not_mem.mpr
  intro m mem
  by_cases mine : one.peerOf m = peerId
  · have there := (invOne.members room m).mp mem
    have live : m ∈ one.streamsOf peerId := by
      rw [roomsOf] at there
      cases found : one.streams.get m with
      | none =>
        rw [found] at there
        cases there
      | some client =>
        rw [peer_of_client found] at mine
        exact mine ▸ invOne.listed m client found
    have inside : m ∈ two.membersOf room := by
      rw [invTwo.members, roomsOf, ← alike.clients m live]
      exact there
    rw [empty] at inside
    cases inside
  · have other : one.peerOf m ∈ one.others c room :=
      mem_others.mpr ⟨own.symm ▸ mine, m, mem, rfl⟩
    rw [alone] at other
    cases other

theorem heard_same_iff (invOne : Coherent one) (invTwo : Coherent two) {c : StreamId}
    (mine : one.peerOf c = peerId) (mine_ : two.peerOf c = peerId) (now : Int) :
    one.heard c room now = two.heard c room now ↔
      SameSide room (one, two) (.register c now) := by
  have lonely : ∀ r : Registry, r.membersOf room = [] → r.others c room = [] := by
    intro r empty
    apply eq_nil_iff_forall_not_mem.mpr
    intro peer mem
    obtain ⟨_, m, inside, _⟩ := mem_others.mp mem
    rw [empty] at inside
    cases inside
  have failed : ∀ others, [(c, ServerMsg.registerFailed room)] ≠ sendPeers c room others := by
    intro others same
    obtain ⟨ids, clash⟩ := mem_send_peers_frame (same ▸ mem_singleton_self _)
    cases (Prod.mk.inj clash).2
  have recovered : ∀ first second, sendPeers c room first = sendPeers c room second →
      first = second := by
    intro first second same
    rw [← send_peers_adds c room first, same, send_peers_adds]
  unfold SameSide heard
  simp only
  cases hereOne : one.reaches c room now with
  | false =>
    cases hereTwo : two.reaches c room now with
    | false => simp
    | true =>
      simp only [if_true, Bool.true_eq_false, if_false, Bool.false_eq_true, false_and,
        iff_false]
      split
      · simp
      · exact failed _
  | true =>
    cases hereTwo : two.reaches c room now with
    | false =>
      simp only [if_true, Bool.true_eq_false, if_false, false_and, iff_false]
      split
      · simp
      · exact fun same => failed _ same.symm
    | true =>
      simp only [Bool.true_eq_false, if_false, true_and, true_implies]
      by_cases emptyOne : one.membersOf room = []
      · by_cases emptyTwo : two.membersOf room = []
        · simp [emptyOne, emptyTwo, lonely]
        · rw [if_pos emptyOne, if_neg emptyTwo, lonely one emptyOne]
          constructor
          · exact fun same => absurd same.symm (send_peers_some c room _)
          · exact fun same => absurd
              (alike.symm.nobody invTwo invOne mine_ same.symm emptyOne) emptyTwo
      · by_cases emptyTwo : two.membersOf room = []
        · rw [if_neg emptyOne, if_pos emptyTwo, lonely two emptyTwo]
          constructor
          · exact fun same => absurd same (send_peers_some c room _)
          · exact fun same => absurd (alike.nobody invOne invTwo mine same emptyTwo) emptyOne
        · rw [if_neg emptyOne, if_neg emptyTwo]
          exact ⟨recovered _ _, fun same => by rw [same]⟩

theorem Alike.charged {nextOne nextTwo : Registry}
    (chargedOne : Charged one nextOne) (chargedTwo : Charged two nextTwo) :
    Alike peerId nextOne nextTwo := by
  have streamsOne : nextOne.streamsOf peerId = one.streamsOf peerId := by
    rw [streamsOf, chargedOne.clients]
    rfl
  have streamsTwo : nextTwo.streamsOf peerId = two.streamsOf peerId := by
    rw [streamsOf, chargedTwo.clients]
    rfl
  refine ⟨?_, ?_, ?_⟩
  · rw [chargedOne.opened, chargedTwo.opened, alike.opened]
  · rw [streamsOne, streamsTwo, alike.streams]
  · rw [streamsOne, chargedOne.streams, chargedTwo.streams]
    exact alike.clients

theorem Alike.join (c : StreamId) (client : ConnectedClient)
    (room : Room) : Alike peerId (one.join c client room) (two.join c client room) := by
  refine ⟨alike.opened, alike.streams, ?_⟩
  intro m mem
  show (one.streams.set c _).get m = (two.streams.set c _).get m
  rw [get_set, get_set, alike.clients m mem]

theorem Alike.answered {c : StreamId} {client : ConnectedClient} {now : Int}
    {outOne outTwo : Registry × Sends} (invOne : Coherent one)
    (invTwo : Coherent two) (own : one.peerOf c = peerId) (own_ : two.peerOf c = peerId)
    (side : SameSide room (one, two) (.register c now))
    (first : Answered one c client room now outOne)
    (second : Answered two c client room now outTwo) : Alike peerId outOne.1 outTwo.1 := by
  obtain ⟨reached, known⟩ := side
  simp only at reached known
  have alone : ∀ {r : Registry}, r.membersOf room = [] → r.others c room = [] := by
    intro r empty
    apply eq_nil_iff_forall_not_mem.mpr
    intro peer mem
    obtain ⟨_, m, inside, _⟩ := mem_others.mp mem
    rw [empty] at inside
    cases inside
  cases first with
  | resync inside =>
    cases second with
    | resync => exact alike
    | refused outside => exact absurd inside outside
    | silent outside => exact absurd inside outside
    | joined outside => exact absurd inside outside
  | refused outside stopped charged =>
    cases second with
    | resync inside => exact absurd inside outside
    | refused _ _ charged_ => exact alike.charged charged charged_
    | silent _ passed =>
      rw [stopped, passed] at reached
      cases reached
    | joined _ passed =>
      rw [stopped, passed] at reached
      cases reached
  | silent outside passed empty charged =>
    cases second with
    | resync inside => exact absurd inside outside
    | refused _ stopped =>
      rw [stopped, passed] at reached
      cases reached
    | silent _ _ _ charged_ => exact alike.charged charged charged_
    | joined _ _ some_ =>
      have same := known passed
      rw [alone empty] at same
      exact absurd (alike.symm.nobody invTwo invOne own_ same.symm empty) some_
  | joined outside passed some_ charged =>
    cases second with
    | resync inside => exact absurd inside outside
    | refused _ stopped =>
      rw [stopped, passed] at reached
      cases reached
    | silent _ _ empty =>
      have same := known passed
      rw [alone empty] at same
      exact absurd (alike.nobody invOne invTwo own same empty) some_
    | joined _ _ _ charged_ => exact (alike.charged charged charged_).join c client room

end

end Pairs

section Closing

variable {r : Registry} {c : StreamId}

/-- What a stream's leaving of rooms does not touch. -/
structure Kept (c : StreamId) (r next : Registry) : Prop where
  clients : next.clients = r.clients
  opened : next.opened = r.opened
  emptyRegisters : next.emptyRegisters = r.emptyRegisters
  streams : ∀ m, m ≠ c → next.streams.get m = r.streams.get m
  sources : ∀ key, (next.sources.get key).map SourceState.empty =
    (r.sources.get key).map SourceState.empty
  peers : next.peerOf = r.peerOf

theorem Kept.refl (r : Registry) : Kept c r r :=
  ⟨rfl, rfl, rfl, fun _ _ => rfl, fun _ => rfl, rfl⟩

theorem Kept.trans {middle next : Registry} (one : Kept c r middle) (two : Kept c middle next) :
    Kept c r next where
  clients := two.clients.trans one.clients
  opened := two.opened.trans one.opened
  emptyRegisters := two.emptyRegisters.trans one.emptyRegisters
  streams := fun m apart => (two.streams m apart).trans (one.streams m apart)
  sources := fun key => (two.sources key).trans (one.sources key)
  peers := two.peers.trans one.peers

theorem Kept.do_unregister (inv : Coherent r) (room : Room) :
    Kept c r (r.doUnregister c room).1 := by
  rcases do_unregister_cases inv c room with same | ⟨client, found, _, same⟩
  · rw [same]
    exact Kept.refl r
  · rw [same]
    refine ⟨rfl, rfl, rfl, ?_, ?_, (leave_resized inv found room).peer_of⟩
    · intro m apart
      rw [(leave_resized inv found room).get, if_neg apart]
    · intro key
      show ((r.addHeld (-1) client.sourceKeys).sources.get key).map SourceState.empty = _
      rw [add_held_get (inv.keysOnce c client found)]
      cases r.sources.get key with
      | none => rfl
      | some state =>
        simp only [map_some]
        split <;> rfl

theorem Kept.leave_rooms (inv : Inv r) (rooms : List Room) :
    Kept c r (r.leaveRooms c rooms).1 := by
  induction rooms generalizing r with
  | nil => exact Kept.refl r
  | cons room rest ih =>
    exact (Kept.do_unregister inv.toCoherent room).trans
      (ih (inv.do_unregister c room))

theorem do_unregister_others (room : Room) :
    ∀ m ∈ (r.doUnregister c room).2, r.peerOf m ≠ r.peerOf c := by
  unfold doUnregister
  split
  · rename_i client members found listed
    split
    · exact fun _ mem => absurd mem not_mem_nil
    · simp only
      split
      · exact fun _ mem => absurd mem not_mem_nil
      · split
        · exact fun _ mem => absurd mem not_mem_nil
        · rename_i gone
          intro m mem same
          rw [peer_of_client found] at same
          exact gone (any_eq_true.mpr ⟨m, mem, decide_eq_true same⟩)
  · exact fun _ mem => absurd mem not_mem_nil

theorem leave_rooms_others (inv : Inv r) (rooms : List Room) :
    ∀ frame ∈ (r.leaveRooms c rooms).2, r.peerOf frame.1 ≠ r.peerOf c := by
  induction rooms generalizing r with
  | nil => exact fun _ mem => absurd mem not_mem_nil
  | cons room rest ih =>
    intro frame mem
    rcases mem_append.mp mem with now | later
    · obtain ⟨m, target, rfl⟩ := mem_map.mp now
      exact do_unregister_others room m target
    · have there := ih (inv.do_unregister c room) frame later
      rw [(Kept.do_unregister inv.toCoherent room).peers] at there
      exact there

theorem remove_client_silent (inv : Inv r) : r.toPeer (r.peerOf c) (r.removeClient c).2 = [] := by
  apply filter_eq_nil_iff.mpr
  intro frame mem
  unfold removeClient at mem
  split at mem
  · unfold evict at mem
    cases found : r.streams.get c with
    | none =>
      rw [found] at mem
      cases mem
    | some client =>
      rw [found] at mem
      simpa using leave_rooms_others inv client.rooms frame mem
  · cases mem

theorem removed_client (inv : Inv r) {client : ConnectedClient}
    (found : r.streams.get c = some client) :
    (r.removeClient c).1.opened = r.opened ∧
      (r.removeClient c).1.streamsOf client.peerId = (r.streamsOf client.peerId).erase c ∧
      ∀ m, m ≠ c → (r.removeClient c).1.streams.get m = r.streams.get m := by
  have live : r.isLive c = true := by
    unfold isLive
    rw [found]
    exact decide_eq_true (inv.listed c client found)
  have kept : Kept c r (r.leaveRooms c client.rooms).1 := Kept.leave_rooms inv client.rooms
  unfold removeClient evict
  rw [live, found]
  simp only [if_true]
  obtain ⟨_, streams, _, opened, _⟩ := forget_shape (r.leaveRooms c client.rooms).1 c client
  refine ⟨opened.trans kept.opened, ?_, ?_⟩
  · rw [forget_streams_of, if_pos rfl, streamsOf, kept.clients]
    rfl
  · intro m apart
    rw [streams, get_delete, if_neg apart]
    exact kept.streams m apart

theorem two_streams_from (inv : Coherent r) {client other : ConnectedClient} {m : StreamId}
    {key : SourceKey} (found : r.streams.get c = some client) (there : r.streams.get m = some other)
    (apart : m ≠ c) (here : key ∈ client.sourceKeys) (too : key ∈ other.sourceKeys) :
    2 ≤ r.streamsFrom key := by
  have rest := total_delete_of_present (fromSource key) found
  have still : (r.streams.delete c).get m = some other := by
    rw [get_delete, if_neg apart]
    exact there
  have more := @le_total StreamId ConnectedClient _ (r.streams.delete c) m other
    (fromSource key) (fun _ _ => by unfold fromSource; split <;> decide) still
  rw [fromSource, if_pos too] at more
  rw [fromSource, if_pos here] at rest
  rw [inv.sourceStreams]
  omega

theorem removed_client_budget (inv : Inv r) {client : ConnectedClient} {scope : BudgetOf}
    {budget : OpBudget} {m : StreamId} (found : r.streams.get c = some client)
    (known : r.emptyBudget client.peerId scope = some budget)
    (open_ : m ∈ r.streamsOf client.peerId) (apart : m ≠ c) (covered : r.covers m scope = true) :
    (r.removeClient c).1.emptyBudget client.peerId scope = some budget := by
  have live : r.isLive c = true := by
    unfold isLive
    rw [found]
    exact decide_eq_true (inv.listed c client found)
  have kept : Kept c r (r.leaveRooms c client.rooms).1 := Kept.leave_rooms inv client.rooms
  obtain ⟨after, gone, _⟩ := inv.leave_rooms found
  unfold removeClient evict
  rw [live, found]
  simp only [if_true]
  cases scope with
  | own =>
    have others : ((r.leaveRooms c client.rooms).1.streamsOf client.peerId).erase c ≠ [] := by
      apply ne_nil_of_mem (a := m)
      rw [(after.once _).mem_erase_iff, streamsOf, kept.clients]
      exact ⟨apart, open_⟩
    obtain ⟨sources, shape⟩ := detach_fields (r.leaveRooms c client.rooms).1 client.sourceKeys
    unfold Registry.forget
    rw [shape]
    simp only
    rw [if_neg others]
    show (r.leaveRooms c client.rooms).1.emptyRegisters.get client.peerId = _
    rw [kept.emptyRegisters]
    exact known
  | source key =>
    obtain ⟨_, _, _, _, sources⟩ := forget_shape (r.leaveRooms c client.rooms).1 c client
    obtain ⟨state, before, empty⟩ := map_eq_some_iff.mp ((kept.sources key).trans known)
    unfold emptyBudget
    simp only
    rw [sources, detach_get (inv.keysOnce c client found), before]
    by_cases own : key ∈ client.sourceKeys
    · have here : m ∈ (r.leaveRooms c client.rooms).1.streamsOf client.peerId := by
        rw [streamsOf, kept.clients]
        exact open_
      obtain ⟨other, there, _⟩ := after.live _ m here
      have shared : key ∈ other.sourceKeys := by
        rw [kept.streams m apart] at there
        exact (covers_client there).mp covered
      have two := two_streams_from after.toCoherent gone there apart own shared
      rw [streamsFrom, before] at two
      simp only [map_some, getD_some] at two
      rw [if_pos own, bind_some, if_neg (by omega)]
      exact congrArg some empty
    · rw [if_neg own]
      exact congrArg some empty

theorem another_budget {peerId : PeerId} {keys : List SourceKey} (once : keys.Nodup)
    {scope : BudgetOf} {budget : OpBudget} (known : r.emptyBudget peerId scope = some budget) :
    (r.addStreamFrom peerId keys).1.emptyBudget peerId scope = some budget := by
  unfold addStreamFrom
  split
  · exact known
  · simp only
    cases scope with
    | own =>
      have own : r.emptyRegisters.get peerId = some budget := known
      have present : r.emptyRegisters.has peerId = true := by
        unfold OrderedMap.has
        rw [own]
        rfl
      unfold emptyBudget
      simp only
      rw [(attach_sources once _).emptyRegisters]
      simp only
      rw [if_pos present]
      exact own
    | source key =>
      obtain ⟨state, there, rfl⟩ := map_eq_some_iff.mp known
      unfold emptyBudget
      simp only
      by_cases inside : key ∈ keys
      · obtain ⟨factor, now⟩ := (attach_sources once _).sources key inside
        rw [now]
        simp only
        rw [there]
        rfl
      · rw [(attach_sources once _).others key inside]
        simp only
        rw [there]
        rfl

end Closing

section Guessing

variable {isProxyClassAddr : Address → Bool} {one two : Registry} {peerId : PeerId} {room : Room}
  {scope : BudgetOf} {budget : OpBudget}

/-- Two registries that a guesser with a spent budget has not told apart. -/
structure Probed (peerId : PeerId) (scope : BudgetOf) (budget : OpBudget) (one two : Registry) :
    Prop where
  invOne : Inv one
  invTwo : Inv two
  alike : Alike peerId one two
  knownOne : one.emptyBudget peerId scope = some budget
  knownTwo : two.emptyBudget peerId scope = some budget

section

variable (probed : Probed peerId scope budget one two)
include probed

theorem Probed.register {c : StreamId} {now : Int}
    (probes : Probes peerId scope budget one (.register c now)) :
    ((one.probe isProxyClassAddr peerId room (.register c now)).2 =
        (two.probe isProxyClassAddr peerId room (.register c now)).2 ↔
      SameSide room (one, two) (.register c now)) ∧
    (SameSide room (one, two) (.register c now) → Probed peerId scope budget
      (one.probe isProxyClassAddr peerId room (.register c now)).1
      (two.probe isProxyClassAddr peerId room (.register c now)).1) := by
  obtain ⟨listed, covered, spent⟩ := probes
  obtain ⟨invOne, invTwo, alike, knownOne, knownTwo⟩ := probed
  obtain ⟨client, found, rfl⟩ := invOne.live peerId c listed
  have found_ : two.streams.get c = some client := (alike.clients c listed).symm.trans found
  have covered_ : two.covers c scope = true := by
    unfold covers at covered ⊢
    rw [← alike.clients c listed]
    exact covered
  obtain ⟨first, keptOne⟩ := @answered one c client room now scope budget invOne found covered
    knownOne spent
  obtain ⟨second, keptTwo⟩ := @answered two c client room now scope budget invTwo found_ covered_
    knownTwo spent
  have own := peer_of_client found
  have own_ := peer_of_client found_
  have hearsOne := first.heard invOne.toCoherent found
  have hearsTwo := second.heard invTwo.toCoherent found_
  refine ⟨?_, ?_⟩
  · rw [← heard_same_iff alike invOne.toCoherent invTwo.toCoherent own own_ now]
    show one.toPeer client.peerId (one.answer c room now).2 =
      two.toPeer client.peerId (two.answer c room now).2 ↔ _
    rw [hearsOne, hearsTwo]
  · intro side
    have still := alike.answered invOne.toCoherent invTwo.toCoherent own own_ side first second
    exact ⟨invOne.register c room now, invTwo.register c room now, still, keptOne, keptTwo⟩

theorem Probed.close {c : StreamId} (probes : Probes peerId scope budget one (.close c)) :
    (one.probe isProxyClassAddr peerId room (.close c)).2 =
        (two.probe isProxyClassAddr peerId room (.close c)).2 ∧
      Probed peerId scope budget (one.probe isProxyClassAddr peerId room (.close c)).1
        (two.probe isProxyClassAddr peerId room (.close c)).1 := by
  obtain ⟨listed, m, open_, apart, covered⟩ := probes
  obtain ⟨invOne, invTwo, alike, knownOne, knownTwo⟩ := probed
  obtain ⟨client, found, rfl⟩ := invOne.live peerId c listed
  have found_ : two.streams.get c = some client := (alike.clients c listed).symm.trans found
  have covered_ : two.covers m scope = true := by
    unfold covers at covered ⊢
    rw [← alike.clients m open_]
    exact covered
  obtain ⟨openedOne, streamsOne, restOne⟩ := removed_client invOne found
  obtain ⟨openedTwo, streamsTwo, restTwo⟩ := removed_client invTwo found_
  refine ⟨?_, invOne.remove_client c, invTwo.remove_client c, ⟨?_, ?_, ?_⟩, ?_, ?_⟩
  · have quietOne := remove_client_silent (c := c) invOne
    have quietTwo := remove_client_silent (c := c) invTwo
    rw [peer_of_client found] at quietOne
    rw [peer_of_client found_] at quietTwo
    exact quietOne.trans quietTwo.symm
  · exact openedOne.trans (alike.opened.trans openedTwo.symm)
  · show (one.removeClient c).1.streamsOf client.peerId = _
    rw [streamsOne, alike.streams]
    exact streamsTwo.symm
  · intro other mem
    have still : other ∈ (one.removeClient c).1.streamsOf client.peerId := mem
    rw [streamsOne, (invOne.once _).mem_erase_iff] at still
    exact (restOne other still.1).trans ((alike.clients other still.2).trans
      (restTwo other still.1).symm)
  · exact removed_client_budget invOne found knownOne open_ apart covered
  · exact removed_client_budget invTwo found_ knownTwo (alike.streams ▸ open_) apart covered_

theorem Probed.another (addr : Option Address) :
    Probed peerId scope budget (one.probe isProxyClassAddr peerId room (.another addr)).1
      (two.probe isProxyClassAddr peerId room (.another addr)).1 := by
  obtain ⟨invOne, invTwo, alike, knownOne, knownTwo⟩ := probed
  have once := source_keys_once isProxyClassAddr addr
  refine ⟨invOne.add_stream peerId once, invTwo.add_stream peerId once, ?_,
    another_budget once knownOne, another_budget once knownTwo⟩
  show Alike peerId (one.addStreamFrom peerId _).1 (two.addStreamFrom peerId _).1
  by_cases few : maxStreamsPerPeer ≤ (one.streamsOf peerId).length
  · have few_ := alike.streams ▸ few
    unfold addStreamFrom
    rw [if_pos few, if_pos few_]
    exact alike
  · have openedOne : Opened one (one.addStreamFrom peerId (sourceKeysFor isProxyClassAddr addr)).1
        peerId (sourceKeysFor isProxyClassAddr addr) :=
      add_stream_opens once (Nat.not_le.mp few)
    have openedTwo : Opened two (two.addStreamFrom peerId (sourceKeysFor isProxyClassAddr addr)).1
        peerId (sourceKeysFor isProxyClassAddr addr) :=
      add_stream_opens once (Nat.not_le.mp (alike.streams ▸ few))
    refine ⟨?_, ?_, ?_⟩
    · rw [openedOne.opened, openedTwo.opened, alike.opened]
    · rw [openedOne.streams_of, openedTwo.streams_of, alike.streams, alike.opened]
    · intro c mem
      rw [openedOne.streams_of] at mem
      rw [openedOne.get, openedTwo.get, alike.opened]
      split
      · rfl
      · rename_i fresh
        rcases mem_append.mp mem with before | now
        · exact alike.clients c before
        · rw [if_pos rfl, mem_singleton] at now
          exact absurd (now.trans alike.opened) fresh

theorem Probed.transcripts {probes : List Probe}
    (within : Meets (probeStep isProxyClassAddr peerId room) (Probes peerId scope budget) one
      probes) :
    one.transcript isProxyClassAddr peerId room probes =
        two.transcript isProxyClassAddr peerId room probes ↔
      Meets (pairStep isProxyClassAddr peerId room) (SameSide room) (one, two) probes := by
  induction probes generalizing one two with
  | nil => exact ⟨fun _ => trivial, fun _ => rfl⟩
  | cons event rest ih =>
    have step : ((one.probe isProxyClassAddr peerId room event).2 =
        (two.probe isProxyClassAddr peerId room event).2 ↔ SameSide room (one, two) event) ∧
        (SameSide room (one, two) event → Probed peerId scope budget
          (one.probe isProxyClassAddr peerId room event).1
          (two.probe isProxyClassAddr peerId room event).1) := by
      cases event with
      | register c now => exact probed.register within.1
      | close c =>
        obtain ⟨same, next⟩ := @Probed.close isProxyClassAddr one two peerId room scope budget
          probed c within.1
        exact ⟨⟨fun _ => trivial, fun _ => same⟩, fun _ => next⟩
      | another addr => exact ⟨⟨fun _ => trivial, fun _ => rfl⟩, fun _ => probed.another addr⟩
    have later := within.2 _ rfl
    unfold transcript
    simp only [List.cons.injEq]
    constructor
    · rintro ⟨same, tails⟩
      have side := step.1.mp same
      refine ⟨side, ?_⟩
      intro next taken
      cases taken
      exact (ih (step.2 side) later).mp tails
    · rintro ⟨side, tails⟩
      exact ⟨step.1.mpr side, (ih (step.2 side) later).mpr (tails _ rfl)⟩

end

end Guessing

section Differing

variable {one two : Registry} {peerId : PeerId} {room : Room}

theorem get_entries_map {Key Value Image : Type} [DecidableEq Key] {map other : OrderedMap Key Value}
    {image : Value → Image}
    (same : (map.entries.map fun entry => (entry.1, image entry.2)) =
      other.entries.map fun entry => (entry.1, image entry.2)) (key : Key) :
    (map.get key).map image = (other.get key).map image := by
  have read : ∀ map : OrderedMap Key Value, (map.get key).map image =
      ((map.entries.map fun entry => (entry.1, image entry.2)).find?
        fun entry => decide (entry.1 = key)).map Prod.snd := by
    intro map
    rw [List.find?_map, OrderedMap.get, Option.map_map, Option.map_map]
    rfl
  rw [read, read, same]

theorem get_of_entries {Key Value : Type} [DecidableEq Key] {map other : OrderedMap Key Value}
    (same : map.entries = other.entries) (key : Key) : map.get key = other.get key := by
  unfold OrderedMap.get
  rw [same]

theorem DifferOnlyIn.alike (differ : DifferOnlyIn peerId room one two) (invOne : Coherent one) :
    Alike peerId one two := by
  have streams : one.streamsOf peerId = two.streamsOf peerId := by
    unfold streamsOf
    rw [get_of_entries differ.clients]
  refine ⟨differ.opened, streams, ?_⟩
  intro c mem
  obtain ⟨client, found, _⟩ := invOne.live peerId c mem
  have same := get_entries_map differ.streams c
  rw [found, map_some] at same
  obtain ⟨other, found_, image⟩ := map_eq_some_iff.mp same.symm
  obtain ⟨outside, outside_⟩ := differ.outside c mem
  rw [roomsOf, found] at outside
  rw [roomsOf, found_] at outside_
  have whole : ∀ rooms : List Room, room ∉ rooms →
      rooms.filter (fun other => decide (other ≠ room)) = rooms := by
    intro rooms fresh
    apply filter_eq_self.mpr
    rintro other inside
    exact decide_eq_true fun same => fresh (same ▸ inside)
  obtain ⟨peer, keys, rooms⟩ := client
  obtain ⟨peer_, keys_, rooms_⟩ := other
  simp only [elsewhere, ConnectedClient.mk.injEq] at image
  rw [whole rooms outside, whole rooms_ outside_] at image
  obtain ⟨rfl, rfl, rfl⟩ := image
  rw [found, found_]

theorem DifferOnlyIn.empty_budget (differ : DifferOnlyIn peerId room one two) (scope : BudgetOf) :
    one.emptyBudget peerId scope = two.emptyBudget peerId scope := by
  cases scope with
  | own => exact get_of_entries differ.emptyRegisters peerId
  | source key =>
    have same := get_entries_map differ.sources key
    have empties := congrArg (Option.map fun books : Int × Int × OpBudget × OpBudget =>
      books.2.2.2) same
    rw [Option.map_map, Option.map_map] at empties
    exact empties

end Differing

/-- Two reachable registries that differ only in who is in a room answer a guesser whose budget
for empty rooms is spent with the same frames exactly when, at every REGISTER, either a cap or
the join budget refuses on both sides or on neither and the same other peers are in the room. -/
theorem answers_same_iff {isProxyClassAddr : Address → Bool} {callsOne callsTwo : List RegistryCall}
    {one two : Registry}
    (ranOne : run (Registry.step isProxyClassAddr) newRegistry callsOne = some one)
    (ranTwo : run (Registry.step isProxyClassAddr) newRegistry callsTwo = some two)
    {peerId : PeerId} {room : Room} (differ : DifferOnlyIn peerId room one two) {scope : BudgetOf}
    {budget : OpBudget} (spent : one.emptyBudget peerId scope = some budget) {probes : List Probe}
    (within : Meets (probeStep isProxyClassAddr peerId room) (Probes peerId scope budget) one
      probes) :
    one.transcript isProxyClassAddr peerId room probes =
        two.transcript isProxyClassAddr peerId room probes ↔
      Meets (pairStep isProxyClassAddr peerId room) (SameSide room) (one, two) probes := by
  obtain ⟨reachedOne, gotOne, invOne⟩ := @Inv.run _ isProxyClassAddr callsOne new_registry_inv
  obtain ⟨reachedTwo, gotTwo, invTwo⟩ := @Inv.run _ isProxyClassAddr callsTwo new_registry_inv
  rw [ranOne] at gotOne
  rw [ranTwo] at gotTwo
  cases gotOne
  cases gotTwo
  exact Probed.transcripts ⟨invOne, invTwo, differ.alike invOne.toCoherent, spent,
    (differ.empty_budget scope).symm.trans spent⟩ within

instance (peerId : PeerId) (room : Room) (one two : Registry) :
    Decidable (DifferOnlyIn peerId room one two) :=
  decidable_of_iff
    (one.clients.entries = two.clients.entries ∧
      (one.streams.entries.map fun entry => (entry.1, elsewhere room entry.2)) =
        (two.streams.entries.map fun entry => (entry.1, elsewhere room entry.2)) ∧
      (∀ c ∈ one.streamsOf peerId, room ∉ one.roomsOf c ∧ room ∉ two.roomsOf c) ∧
      (one.rooms.entries.filter fun entry => decide (entry.1 ≠ room)) =
        (two.rooms.entries.filter fun entry => decide (entry.1 ≠ room)) ∧
      one.emptyRegisters.entries = two.emptyRegisters.entries ∧
      one.joins.entries = two.joins.entries ∧
      (one.sources.entries.map fun entry => (entry.1, budgetsOf entry.2)) =
        (two.sources.entries.map fun entry => (entry.1, budgetsOf entry.2)) ∧
      one.opened = two.opened ∧
      one.distinctPeersAtLeast (one.membersOf room) maxPeersPerRoom = false ∧
      two.distinctPeersAtLeast (two.membersOf room) maxPeersPerRoom = false)
    ⟨fun ⟨clients, streams, outside, rooms, empty, joins, sources, opened, space⟩ =>
      ⟨clients, streams, outside, rooms, empty, joins, sources, opened, space⟩,
    fun differ => ⟨differ.clients, differ.streams, differ.outside, differ.rooms,
      differ.emptyRegisters, differ.joins, differ.sources, differ.opened, differ.space⟩⟩

def guesserSpends : List RegistryCall :=
  [.addStreamFrom "ada" none, .addStreamFrom "eve" none, .register 0 "den" 0] ++
    (List.replicate maxEmptyRegisters
      [RegistryCall.register 1 "void" 0, .unregister 1 "void"]).flatten

def guesserSpent : OpBudget := ⟨maxEmptyRegisters, emptyRegisterWindow, 0, 0, true⟩

def probeRuns (judge : Registry → Registry → Bool) : Option Bool :=
  (run (Registry.step fun _ => false) newRegistry (guesserSpends ++ [.unregister 0 "den"])).bind
    fun one => (run (Registry.step fun _ => false) newRegistry guesserSpends).map fun two =>
      judge one two

theorem probe_runs {judge : Registry → Registry → Bool} (judged : probeRuns judge = some true) :
    ∃ one two,
      run (Registry.step fun _ => false) newRegistry (guesserSpends ++ [.unregister 0 "den"]) =
        some one ∧
      run (Registry.step fun _ => false) newRegistry guesserSpends = some two ∧
      judge one two = true := by
  obtain ⟨one, ranOne, rest⟩ := bind_eq_some_iff.mp judged
  obtain ⟨two, ranTwo, holds⟩ := map_eq_some_iff.mp rest
  exact ⟨one, two, ranOne, ranTwo, holds⟩

/-- Eve asks for ada's room: she gets the list where ada is in it, and nothing where not. -/
theorem spent_budget_tells : ∃ one two,
    run (Registry.step fun _ => false) newRegistry (guesserSpends ++ [.unregister 0 "den"]) =
      some one ∧
    run (Registry.step fun _ => false) newRegistry guesserSpends = some two ∧
    DifferOnlyIn "eve" "den" one two ∧ one.emptyBudget "eve" .own = some guesserSpent ∧
    Meets (probeStep (fun _ => false) "eve" "den") (Probes "eve" .own guesserSpent) one
      [.register 1 0] ∧
    one.transcript (fun _ => false) "eve" "den" [.register 1 0] = [[]] ∧
    two.transcript (fun _ => false) "eve" "den" [.register 1 0] =
      [[(1, .peers "den" ["ada"])]] := by
  obtain ⟨one, two, ranOne, ranTwo, holds⟩ := @probe_runs (fun one two =>
    decide (DifferOnlyIn "eve" "den" one two ∧ one.emptyBudget "eve" .own = some guesserSpent ∧
      Meets (probeStep (fun _ => false) "eve" "den") (Probes "eve" .own guesserSpent) one
        [.register 1 0] ∧
      one.transcript (fun _ => false) "eve" "den" [.register 1 0] = [[]] ∧
      two.transcript (fun _ => false) "eve" "den" [.register 1 0] =
        [[(1, .peers "den" ["ada"])]])) (by decide +kernel)
  exact ⟨one, two, ranOne, ranTwo, of_decide_eq_true holds⟩

theorem sample_answers_same_iff : ∃ one two,
    DifferOnlyIn "eve" "den" one two ∧
    (one.transcript (fun _ => false) "eve" "den" [.register 1 0] =
        two.transcript (fun _ => false) "eve" "den" [.register 1 0] ↔
      Meets (pairStep (fun _ => false) "eve" "den") (SameSide "den") (one, two)
        [.register 1 0]) := by
  obtain ⟨one, two, ranOne, ranTwo, holds⟩ := @probe_runs (fun one two =>
    decide (DifferOnlyIn "eve" "den" one two ∧ one.emptyBudget "eve" .own = some guesserSpent ∧
      Meets (probeStep (fun _ => false) "eve" "den") (Probes "eve" .own guesserSpent) one
        [.register 1 0])) (by decide +kernel)
  obtain ⟨differ, spent, within⟩ := of_decide_eq_true holds
  exact ⟨one, two, differ, answers_same_iff ranOne ranTwo differ spent within⟩

end Registry

end AwfulChat.Relay
