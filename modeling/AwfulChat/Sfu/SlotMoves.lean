import AwfulChat.Sfu.SlotLosses

/-!
# What a step of the slots does

Every event of the handshake in one statement: who is in the rooms after it, which sessions keep
their names and sockets, and which sockets are new to their session.
-/

namespace AwfulChat.Sfu

open Library List Option Function

set_option autoImplicit false

def membersAfter (members : List SessionId) : Change → List SessionId
  | .none => members
  | .entered new none => members ++ [new]
  | .entered new (some old) => members.map fun other => if other = old then new else other
  | .resumed _ => members
  | .left id => members.filter fun other => decide (other ≠ id)

def seatOf : Change → Option SessionId
  | .entered new _ => some new
  | .resumed id => some id
  | _ => none

def Slots.key (slots : Slots) (id : SessionId) : RoomCode × PeerId :=
  ((slots.sessions id).roomCode, (slots.sessions id).peerId)

structure SlotMove (slots next : Slots) (change : Change) : Prop where
  members : next.members = membersAfter slots.members change
  key : ∀ id, id < slots.nextSession → next.key id = slots.key id
  grows : slots.nextSession ≤ next.nextSession
  opens : ∀ ws, (next.sockets ws).ready = .isOpen → (slots.sockets ws).ready = .isOpen
  ws : ∀ id, id < slots.nextSession → seatOf change ≠ some id →
    (next.sessions id).ws = (slots.sessions id).ws
  seats : ∀ id, seatOf change = some id → (slots.sockets (next.sessions id).ws).peer = none
  entered : ∀ new old, change = .entered new old →
    new = slots.nextSession ∧ next.nextSession = slots.nextSession + 1
  vacant : ∀ new, change = .entered new none →
    ∀ id ∈ slots.members, slots.key id ≠ next.key new
  replaced : ∀ new old, change = .entered new (some old) →
    old ∈ slots.members ∧ slots.key old = next.key new
  resumed : ∀ id, change = .resumed id → id ∈ slots.members
  left : ∀ id, change = .left id → id ∈ slots.members

theorem SlotMove.still {slots next : Slots} (members : next.members = slots.members)
    (key : ∀ id, id < slots.nextSession → next.key id = slots.key id)
    (grows : next.nextSession = slots.nextSession)
    (opens : ∀ ws, (next.sockets ws).ready = .isOpen → (slots.sockets ws).ready = .isOpen)
    (ws : ∀ id, (next.sessions id).ws = (slots.sessions id).ws) :
    SlotMove slots next .none :=
  ⟨members, key, Nat.le_of_eq grows.symm, opens, fun id _ _ => ws id, nofun, nofun, nofun, nofun,
    nofun, nofun⟩

theorem shut_opens (slots : Slots) (ws other : SocketId)
    (opens : ((slots.shut ws).sockets other).ready = .isOpen) :
    (slots.sockets other).ready = .isOpen := by
  simp only [Slots.shut, Slots.sockets_setSocket] at opens
  split_ifs at opens with hit
  exact opens

theorem cut_opens (slots : Slots) (ws other : SocketId) (cause : EndedBy)
    (opens : ((slots.cut ws cause).sockets other).ready = .isOpen) :
    (slots.sockets other).ready = .isOpen := by
  have marked := shut_opens _ ws other opens
  rw [Slots.sockets_setSocket] at marked
  split_ifs at marked with hit
  · rw [hit]
    exact marked
  · exact marked

variable {slots : Slots} {change : Change} {oldPeer : Option SessionId}

theorem setSocket_opens {ws other : SocketId} {socket : Socket}
    (same : socket.ready = (slots.sockets ws).ready)
    (opens : ((slots.setSocket ws socket).sockets other).ready = .isOpen) :
    (slots.sockets other).ready = .isOpen := by
  rw [Slots.sockets_setSocket] at opens
  split_ifs at opens with hit
  · rw [hit, ← same]
    exact opens
  · exact opens

theorem enter_opens (slots : Slots) (ws other : SocketId) (roomCode : RoomCode) (peerId : PeerId)
    (oldPeer : Option SessionId)
    (opens : ((slots.enter ws roomCode peerId oldPeer).sockets other).ready = .isOpen) :
    (slots.sockets other).ready = .isOpen := by
  rw [Slots.enter_eq] at opens
  have seated : ((slots.seat ws roomCode peerId oldPeer).sockets other).ready = .isOpen :=
    setSocket_opens (by rfl) opens
  cases oldPeer with
  | none => exact seated
  | some old =>
    exact cut_opens ((slots.allocate ws roomCode peerId).clearDetachTimer old)
      (slots.sessions old).ws other .replaced seated

variable {roomCode : RoomCode} {ws : SocketId} {peerId : PeerId} {id : SessionId}

theorem find_key
    (found : slots.find roomCode peerId = some id) : slots.key id = (roomCode, peerId) := by
  have hit := List.find?_some found
  obtain ⟨sameRoom, samePeer⟩ := of_decide_eq_true hit
  exact Prod.ext sameRoom samePeer

theorem find_vacant (vacant : slots.find roomCode peerId = none) :
    ∀ id ∈ slots.members, slots.key id ≠ (roomCode, peerId) := by
  intro id mem same
  refine List.find?_eq_none.mp vacant id mem ?_
  obtain ⟨sameRoom, samePeer⟩ := Prod.mk.inj same
  exact decide_eq_true ⟨sameRoom, samePeer⟩

theorem enter_new (slots : Slots) (ws : SocketId) (roomCode : RoomCode) (peerId : PeerId)
    (held : ∀ old, oldPeer = some old → old < slots.nextSession) :
    ((slots.enter ws roomCode peerId oldPeer).sessions slots.nextSession) =
      ⟨peerId, roomCode, ws, slots.nextToken, none, none⟩ := by
  have made : (slots.allocate ws roomCode peerId).sessions slots.nextSession =
      ⟨peerId, roomCode, ws, slots.nextToken, none, none⟩ := update_self _ _ _
  cases oldPeer with
  | none => exact made
  | some old =>
    have apart : slots.nextSession ≠ old := (Nat.ne_of_lt (held old rfl)).symm
    have cleared : ((slots.allocate ws roomCode peerId).clearDetachTimer old).sessions
        slots.nextSession = (slots.allocate ws roomCode peerId).sessions slots.nextSession :=
      update_of_ne apart _ _
    exact cleared.trans made

theorem enter_key (slots : Slots) (ws : SocketId) (roomCode : RoomCode) (peerId : PeerId)
    (held : ∀ old, oldPeer = some old → old < slots.nextSession) :
    (slots.enter ws roomCode peerId oldPeer).key slots.nextSession = (roomCode, peerId) := by
  unfold Slots.key
  rw [enter_new slots ws roomCode peerId held]

theorem key_kept {slots later : Slots}
    (roomCode : (later.sessions id).roomCode = (slots.sessions id).roomCode)
    (peerId : (later.sessions id).peerId = (slots.sessions id).peerId) :
    later.key id = slots.key id := Prod.ext roomCode peerId

theorem SlotMove.enter (books : SlotBooks slots) (idle : (slots.sockets ws).peer = none)
    (vacant : oldPeer = none → slots.find roomCode peerId = none)
    (held : ∀ old, oldPeer = some old → slots.find roomCode peerId = some old) :
    SlotMove slots (slots.enter ws roomCode peerId oldPeer)
      (.entered slots.nextSession oldPeer) := by
  have known : ∀ old, oldPeer = some old → old < slots.nextSession :=
    fun old same => books.members old (find_spec (held old same))
  have new := enter_new slots ws roomCode peerId known
  have newKey : (slots.enter ws roomCode peerId oldPeer).key slots.nextSession =
      (roomCode, peerId) := enter_key slots ws roomCode peerId known
  have next : (slots.enter ws roomCode peerId oldPeer).nextSession = slots.nextSession + 1 := by
    rw [Slots.enter_eq]
    exact Slots.seat_next slots ws roomCode peerId oldPeer
  refine ⟨?_, ?_, ?_, ?_, ?_, ?_, ?_, ?_, ?_, nofun, nofun⟩
  · cases oldPeer with
    | none | some old => rfl
  · intro id before
    exact key_kept
      (enter_field Session.roomCode (fun _ _ => rfl) slots ws roomCode peerId oldPeer
        (Nat.ne_of_lt before))
      (enter_field Session.peerId (fun _ _ => rfl) slots ws roomCode peerId oldPeer
        (Nat.ne_of_lt before))
  · rw [next]
    exact Nat.le_succ _
  · exact fun other => enter_opens slots ws other roomCode peerId oldPeer
  · intro id before _
    exact enter_ws slots ws roomCode peerId oldPeer (Nat.ne_of_lt before)
  · intro id same
    cases same
    rw [new]
    exact idle
  · intro _ _ same
    cases same
    exact ⟨rfl, next⟩
  · intro _ same
    cases same
    rw [newKey]
    exact find_vacant (vacant rfl)
  · intro _ old same
    cases same
    rw [newKey]
    exact ⟨find_spec (held old rfl), find_key (held old rfl)⟩

theorem SlotMove.after {slots next : Slots} {socket : Socket}
    (move : SlotMove (slots.setSocket ws socket) next change)
    (ready : socket.ready = (slots.sockets ws).ready)
    (peer : socket.peer = (slots.sockets ws).peer) : SlotMove slots next change := by
  have same : ∀ other, ((slots.setSocket ws socket).sockets other).peer =
      (slots.sockets other).peer := field_update Socket.peer peer
  refine { move with
    opens := fun other opens => setSocket_opens ready (move.opens other opens)
    seats := ?_ }
  intro id seat
  exact (same _).symm.trans (move.seats id seat)

theorem resume_keeps (slots : Slots) (id : SessionId) (ws : SocketId) :
    (slots.resumeSession id ws).nextSession = slots.nextSession ∧
      (∀ other, (slots.resumeSession id ws).key other = slots.key other) ∧
      ((slots.resumeSession id ws).sessions id).ws = ws ∧
      ∀ other, ((slots.resumeSession id ws).sockets other).ready = .isOpen →
        (slots.sockets other).ready = .isOpen := by
  have moved : ∀ other, (slots.setSession id { slots.sessions id with
      ws := ws, livenessProbe := none, detachTimer := none,
      resumeToken := slots.nextToken }).key other = slots.key other := by
    intro other
    exact key_kept (field_update Session.roomCode (by rfl) other)
      (field_update Session.peerId (by rfl) other)
  have own : ((slots.setSession id { slots.sessions id with
      ws := ws, livenessProbe := none, detachTimer := none,
      resumeToken := slots.nextToken }).sessions id).ws = ws := by
    rw [Slots.sessions_setSession, if_pos rfl]
  unfold Slots.resumeSession
  dsimp only
  split_ifs
  · exact ⟨rfl, moved, own, fun other opens => cut_opens _ _ other _ opens⟩
  · exact ⟨rfl, moved, own, fun _ opens => opens⟩

theorem SlotMove.join (inv : SlotsInv slots) (idle : (slots.sockets ws).peer = none)
    (roomCode : RoomCode) (peerId : PeerId) (resume : Option Token) (full buffered : Bool)
    {next : Slots} (joined : slots.join ws roomCode peerId resume full buffered = (next, change)) :
    SlotMove slots next change := by
  have challenge : ∀ other, ((slots.challenge ws).sockets other).ready = .isOpen →
      (slots.sockets other).ready = .isOpen := fun other => setSocket_opens (by rfl)
  have free : ((slots.challenge ws).sockets ws).peer = none := by
    simp only [Slots.challenge, Slots.sockets_setSocket, if_true]
    exact idle
  have cases := join_cases slots ws roomCode peerId resume full buffered
  rw [joined] at cases
  cases cases with
  | spent =>
    exact SlotMove.still rfl (fun _ _ => rfl) rfl (fun other => shut_opens slots ws other)
      fun _ => rfl
  | refused =>
    refine SlotMove.still rfl (fun _ _ => rfl) rfl (fun other opens => ?_) fun _ => rfl
    exact challenge other (shut_opens (slots.challenge ws) ws other opens)
  | entered vacant space =>
    have absent : ∀ old, none = some old →
        (slots.challenge ws).find roomCode peerId = some old := nofun
    exact (SlotMove.enter (inv.challenge ws).toSlotBooks free (fun _ => vacant) absent).after
      rfl rfl
  | resumed found token =>
    rename_i old
    have spec := resumeSession_spec ((slots.challenge ws).take ws old) old ws
    obtain ⟨next, key, own, opens⟩ := resume_keeps ((slots.challenge ws).take ws old) old ws
    refine ⟨resume_members _ _ _, fun id _ => key id, Nat.le_of_eq next.symm, ?_, ?_, ?_, nofun,
      nofun, nofun, ?_, nofun⟩
    · intro other still
      exact challenge other (setSocket_opens (by rfl) (opens other still))
    · intro id _ apart
      have unlike : id ≠ old := fun same => apart (congrArg some same.symm)
      exact congrArg Session.ws (spec.2 id unlike)
    · intro id same
      cases same
      rw [own]
      exact idle
    · intro id same
      cases same
      exact find_spec found
  | asked found =>
    rename_i old
    have probed := (inv.challenge ws).probed old buffered
    have keys : ∀ id, ((slots.challenge ws).probeSessionAlive old buffered).1.key id =
        slots.key id := by
      intro id
      unfold Slots.probeSessionAlive
      dsimp only
      split_ifs
      · rfl
      · rfl
      · split
        · rfl
        · exact key_kept (field_update Session.roomCode (by rfl) id)
            (field_update Session.peerId (by rfl) id)
    refine SlotMove.still probed.members (fun id _ => keys id) probed.nextSession ?_ probed.ws
    intro other opens
    have still := setSocket_opens (by rfl) opens
    rw [probed.sockets] at still
    exact challenge other still

theorem SlotMove.finishJoin (inv : SlotsInv slots) {probing : Probing}
    (asked : (slots.sockets ws).probing = some probing) (alive : Bool) {next : Slots}
    (finished : slots.finishJoin ws probing alive = (next, change)) :
    SlotMove slots next change := by
  have rest : ∀ other, ((slots.rest ws none).sockets other).ready = .isOpen →
      (slots.sockets other).ready = .isOpen := fun other => setSocket_opens (by rfl)
  have idle : (slots.sockets ws).peer = none := by
    refine eq_none_iff_forall_ne_some.mpr ?_
    intro id acts
    rw [(inv.joined ws id acts).2] at asked
    cases asked
  have free : ((slots.rest ws none).sockets ws).peer = none := by
    simp only [Slots.rest, Slots.sockets_setSocket, if_true]
    exact idle
  have cases := finish_cases slots ws probing alive
  rw [finished] at cases
  cases cases with
  | gone => exact SlotMove.still rfl (fun _ _ => rfl) rfl rest fun _ => rfl
  | refused =>
    refine SlotMove.still rfl (fun _ _ => rfl) rfl (fun other opens => ?_) fun _ => rfl
    exact rest other (shut_opens (slots.rest ws none) ws other opens)
  | entered _ _ vacant =>
    have absent : ∀ old, none = some old →
        (slots.rest ws none).find probing.roomCode probing.peerId = some old := nofun
    exact (SlotMove.enter (inv.rest ws).toSlotBooks free (fun _ => vacant) absent).after rfl rfl
  | replaced _ _ found _ =>
    have held : ∀ old, some probing.oldPeer = some old →
        (slots.rest ws none).find probing.roomCode probing.peerId = some old := by
      intro old same
      cases same
      exact found
    have present : some probing.oldPeer = none →
        (slots.rest ws none).find probing.roomCode probing.peerId = none := nofun
    exact (SlotMove.enter (inv.rest ws).toSlotBooks free present held).after rfl rfl

theorem gone_opens {ws other : SocketId}
    (opens : ((slots.setSocket ws { slots.sockets ws with
      ready := .closed, peer := none }).sockets other).ready = .isOpen) :
    (slots.sockets other).ready = .isOpen := by
  rw [Slots.sockets_setSocket] at opens
  split_ifs at opens with hit
  exact opens

theorem SlotMove.leave {slots earlier : Slots} (mem : id ∈ slots.members)
    (members : earlier.members = slots.members) (next : earlier.nextSession = slots.nextSession)
    (sessions : ∀ other, earlier.key other = slots.key other ∧
      (earlier.sessions other).ws = (slots.sessions other).ws)
    (opens : ∀ ws, (earlier.sockets ws).ready = .isOpen → (slots.sockets ws).ready = .isOpen) :
    SlotMove slots (earlier.leave id) (.left id) := by
  have cleared : ∀ other, (earlier.leave id).key other = earlier.key other := by
    intro other
    exact key_kept (field_update Session.roomCode (by rfl) other)
      (field_update Session.peerId (by rfl) other)
  refine ⟨?_, ?_, Nat.le_of_eq next.symm, opens, ?_, nofun, nofun, nofun, nofun, nofun, ?_⟩
  · simp only [Slots.leave, members, membersAfter]
  · intro other _
    exact (cleared other).trans (sessions other).1
  · intro other _ _
    exact (leave_ws earlier id other).trans (sessions other).2
  · intro other same
    cases same
    exact mem

theorem slot_move {grace : Bool} {slots next : Slots} {event : SlotEvent} (inv : SlotsInv slots)
    (taken : slotStep grace slots event = some (next, change)) :
    SlotMove slots next change := by
  cases event with
  | join ws roomCode peerId resume full buffered =>
    dsimp only [slotStep] at taken
    split_ifs at taken with busy
    obtain ⟨_, rest⟩ := not_or.mp busy
    obtain ⟨idle, _⟩ := not_or.mp rest
    exact SlotMove.join inv (of_not_not idle) _ _ _ _ _ (Option.some.inj taken)
  | settle number alive =>
    dsimp only [slotStep] at taken
    split_ifs at taken
    cases taken
    have kept : ∀ id, ((slots.settle number alive).sessions id).roomCode =
          (slots.sessions id).roomCode ∧
        ((slots.settle number alive).sessions id).peerId = (slots.sessions id).peerId ∧
        ((slots.settle number alive).sessions id).ws = (slots.sessions id).ws := by
      intro id
      simp only [Slots.settle]
      split_ifs
      · exact ⟨rfl, rfl, rfl⟩
      · exact ⟨rfl, rfl, rfl⟩
    exact SlotMove.still rfl (fun id _ => key_kept (kept id).1 (kept id).2.1) rfl
      (fun _ opens => opens) fun id => (kept id).2.2
  | finishJoin ws =>
    obtain ⟨probing, asked, later⟩ := bind_eq_some_iff.mp taken
    obtain ⟨alive, _, finished⟩ := map_eq_some_iff.mp later
    exact SlotMove.finishJoin inv asked alive finished
  | shut ws =>
    cases taken
    exact SlotMove.still rfl (fun _ _ => rfl) rfl (fun other => shut_opens slots ws other)
      fun _ => rfl
  | cut ws cause =>
    dsimp only [slotStep] at taken
    split_ifs at taken
    cases taken
    exact SlotMove.still rfl (fun _ _ => rfl) rfl (fun other => cut_opens slots ws other cause)
      fun _ => rfl
  | closed ws code =>
    dsimp only [slotStep] at taken
    split_ifs at taken
    have cases := closed_cases grace slots ws code
    rw [Option.some.inj taken] at cases
    cases cases with
    | idle other =>
      exact SlotMove.still rfl (fun _ _ => rfl) rfl (fun _ => gone_opens) fun _ => rfl
    | held acts mem own resumable =>
      refine SlotMove.still rfl (fun id _ => ?_) rfl (fun _ => gone_opens) fun id => ?_
      · exact key_kept (field_update Session.roomCode (by rfl) id)
          (field_update Session.peerId (by rfl) id)
      · exact field_update Session.ws (by rfl) id
    | left acts mem own final =>
      exact SlotMove.leave mem rfl rfl (fun _ => ⟨rfl, rfl⟩) fun _ => gone_opens
  | graceEnd id =>
    obtain ⟨armed, timer, fired⟩ := map_eq_some_iff.mp taken
    have cleared : ∀ other, (slots.clearDetachTimer id).key other = slots.key other ∧
        ((slots.clearDetachTimer id).sessions other).ws = (slots.sessions other).ws := by
      intro other
      exact ⟨key_kept (field_update Session.roomCode (by rfl) other)
        (field_update Session.peerId (by rfl) other), field_update Session.ws (by rfl) other⟩
    unfold Slots.graceEnd at fired
    dsimp only at fired
    split_ifs at fired with current
    · cases fired
      exact SlotMove.leave current.1 rfl rfl cleared fun _ opens => opens
    · cases fired
      exact SlotMove.still rfl (fun other _ => (cleared other).1) rfl (fun _ opens => opens)
        fun other => (cleared other).2

def Keyed (slots : Slots) : Prop :=
  ∀ id ∈ slots.members, ∀ other ∈ slots.members, slots.key id = slots.key other → id = other

theorem Keyed.step {slots next : Slots} (keyed : Keyed slots) (books : SlotBooks slots)
    (move : SlotMove slots next change) : Keyed next := by
  have old : ∀ id ∈ slots.members, next.key id = slots.key id :=
    fun id mem => move.key id (books.members id mem)
  have stays : ∀ id ∈ slots.members, ∀ other ∈ slots.members, next.key id = next.key other →
      id = other := by
    intro id mem other otherMember same
    rw [old id mem, old other otherMember] at same
    exact keyed id mem other otherMember same
  intro id mem other otherMember same
  rw [move.members] at mem otherMember
  cases change with
  | none | resumed _ => exact stays id mem other otherMember same
  | left gone =>
    exact stays id (mem_filter.mp mem).1 other (mem_filter.mp otherMember).1 same
  | entered new replaced =>
    cases replaced with
    | none =>
      have apart := move.vacant new rfl
      rcases mem_append.mp mem with one | one <;>
        rcases mem_append.mp otherMember with two | two
      · exact stays id one other two same
      · rw [mem_singleton.mp two, old id one] at same
        exact absurd same (apart id one)
      · rw [mem_singleton.mp one, old other two] at same
        exact absurd same.symm (apart other two)
      · exact (mem_singleton.mp one).trans (mem_singleton.mp two).symm
    | some gone =>
      obtain ⟨held, place⟩ := move.replaced new gone rfl
      have only : ∀ id ∈ slots.members, next.key id = next.key new → id = gone := by
        intro id mem equal
        rw [old id mem, ← place] at equal
        exact keyed id mem gone held equal
      obtain ⟨before, one, equal⟩ := mem_map.mp mem
      obtain ⟨otherBefore, two, otherEqual⟩ := mem_map.mp otherMember
      split_ifs at equal otherEqual with hit otherHit otherHit
      · exact equal.symm.trans otherEqual
      · rw [← equal, ← otherEqual] at same
        exact absurd (only otherBefore two same.symm) otherHit
      · rw [← equal, ← otherEqual] at same
        exact absurd (only before one same) hit
      · rw [← equal, ← otherEqual] at same ⊢
        exact stays before one otherBefore two same

end AwfulChat.Sfu
