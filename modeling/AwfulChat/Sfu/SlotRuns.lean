import Mathlib.Data.List.Nodup
import AwfulChat.Sfu.Slots

/-!
# Who holds a slot, and how it is lost

A session in a room is on an unclosed socket that acts for it, or waits for a resume on the
socket whose close armed its timer. A probe that is out is of the socket it was asked of, and a
token a resume used is no session's any more.
-/

namespace AwfulChat.Sfu

open Library List Option Function

set_option autoImplicit false

namespace Slots

variable {slots : Slots}

@[simp] theorem sockets_setSocket (ws other : SocketId) (socket : Socket) :
    (slots.setSocket ws socket).sockets other = if other = ws then socket else slots.sockets other := by
  simp only [setSocket, update_apply]

@[simp] theorem sessions_setSocket (ws : SocketId) (socket : Socket) :
    (slots.setSocket ws socket).sessions = slots.sessions := rfl

@[simp] theorem sessions_setSession (id other : SessionId) (session : Session) :
    (slots.setSession id session).sessions other =
      if other = id then session else slots.sessions other := by
  simp only [setSession, update_apply]

@[simp] theorem sockets_setSession (id : SessionId) (session : Session) :
    (slots.setSession id session).sockets = slots.sockets := rfl

end Slots

theorem field_update {α β γ : Type} [DecidableEq α] {table : α → β} {key : α} {value : β}
    (field : β → γ) (same : field value = field (table key)) (other : α) :
    field (Function.update table key value other) = field (table other) := by
  rw [update_apply]
  split_ifs with hit
  · rw [hit]
    exact same
  · rfl

/-- What an unfinished join knows of the socket it asked about. -/
def Asked (slots : Slots) (probing : Probing) : Prop :=
  match probing.answer with
  | .known true => True
  | .known false => (slots.sockets probing.probedWs).ready ≠ .isOpen
  | .probe number => number < slots.nextProbe ∧ (slots.probes number).ws = probing.probedWs

/-- A session's socket is there and acts for it, or its detach timer runs. -/
def Seated (slots : Slots) (id : SessionId) : Prop :=
  let session := slots.sessions id
  ((slots.sockets session.ws).ready ≠ .closed ∧ (slots.sockets session.ws).peer = some id) ∨
    session.detachTimer = some session.ws

structure SlotBooks (slots : Slots) : Prop where
  members : ∀ id ∈ slots.members, id < slots.nextSession
  once : slots.members.Nodup
  timer : ∀ id ws, (slots.sessions id).detachTimer = some ws →
    ws = (slots.sessions id).ws ∧ (slots.sockets ws).ready = .closed
  joined : ∀ ws id, (slots.sockets ws).peer = some id →
    id < slots.nextSession ∧ (slots.sockets ws).probing = none
  asked : ∀ ws probing, (slots.sockets ws).probing = some probing →
    probing.oldPeer < slots.nextSession ∧ Asked slots probing
  probes : ∀ id number, (slots.sessions id).livenessProbe = some number →
    number < slots.nextProbe ∧ (slots.probes number).ws = (slots.sessions id).ws
  tokens : ∀ id, id < slots.nextSession → (slots.sessions id).resumeToken < slots.nextToken
  distinct : ∀ id other, id < slots.nextSession → other < slots.nextSession →
    (slots.sessions id).resumeToken = (slots.sessions other).resumeToken → id = other
  handed : ∀ id, id < slots.nextSession →
    slots.handed.find? (fun given => decide (given.1 = id)) =
      some (id, (slots.sessions id).resumeToken)
  used : ∀ given ∈ slots.used, given.2 < slots.nextToken ∧
    ∀ id, id < slots.nextSession → (slots.sessions id).resumeToken ≠ given.2
  usedOnce : (slots.used.map fun given => given.2).Nodup

structure SlotsInv (slots : Slots) : Prop extends SlotBooks slots where
  seated : ∀ id ∈ slots.members, Seated slots id

theorem SlotsInv.start : SlotsInv Slots.start :=
  ⟨⟨nofun, nodup_nil, nofun, nofun, nofun, nofun, nofun, nofun, nofun, nofun,
    nodup_nil⟩, nofun⟩

variable {slots : Slots} {id : SessionId} {ws : SocketId}

theorem SlotBooks.setSocket (books : SlotBooks slots) (ws : SocketId)
    {socket : Socket} (closed : (slots.sockets ws).ready = .closed → socket.ready = .closed)
    (opens : socket.ready = .isOpen → (slots.sockets ws).ready = .isOpen)
    (peer : ∀ id, socket.peer = some id → id < slots.nextSession ∧ socket.probing = none)
    (probing : ∀ asked, socket.probing = some asked →
      asked.oldPeer < slots.nextSession ∧ Asked slots asked) :
    SlotBooks (slots.setSocket ws socket) := by
  refine ⟨books.members, books.once, ?_, ?_, ?_, books.probes, books.tokens, books.distinct,
    books.handed, books.used, books.usedOnce⟩
  · intro id armed timer
    obtain ⟨same, gone⟩ := books.timer id armed timer
    refine ⟨same, ?_⟩
    rw [Slots.sockets_setSocket]
    split_ifs with hit
    · rw [hit] at gone
      exact closed gone
    · exact gone
  · intro other id acts
    rw [Slots.sockets_setSocket] at acts ⊢
    split_ifs at acts ⊢ with hit
    · exact peer id acts
    · exact books.joined other id acts
  · intro other asked found
    have before : asked.oldPeer < slots.nextSession ∧ Asked slots asked := by
      rw [Slots.sockets_setSocket] at found
      split_ifs at found with hit
      · exact probing asked found
      · exact books.asked other asked found
    obtain ⟨known, answer⟩ := before
    refine ⟨known, ?_⟩
    unfold Asked at answer ⊢
    split at answer
    · trivial
    · intro isOpen
      rw [Slots.sockets_setSocket] at isOpen
      split_ifs at isOpen with hit
      · rw [hit] at answer
        exact answer (opens isOpen)
      · exact answer isOpen
    · exact answer

/-- Between two states of the slots no socket closes and none changes hands. -/
structure Keeps (slots later : Slots) : Prop where
  standing : ∀ ws, (slots.sockets ws).ready ≠ .closed → (later.sockets ws).ready ≠ .closed
  peer : ∀ ws id, (slots.sockets ws).peer = some id → (later.sockets ws).peer = some id

theorem Seated.keeps {slots later : Slots} (seated : Seated slots id) (keeps : Keeps slots later)
    (same : later.sessions id = slots.sessions id) :
    Seated later id := by
  unfold Seated at seated ⊢
  rw [same]
  rcases seated with ⟨standing, acts⟩ | timer
  · exact Or.inl ⟨keeps.standing _ standing, keeps.peer _ _ acts⟩
  · exact Or.inr timer

theorem Keeps.trans {first second third : Slots} (one : Keeps first second)
    (two : Keeps second third) : Keeps first third :=
  ⟨fun ws standing => two.standing ws (one.standing ws standing),
    fun ws id acts => two.peer ws id (one.peer ws id acts)⟩

theorem keeps_setSocket {socket : Socket}
    (standing : (slots.sockets ws).ready ≠ .closed → socket.ready ≠ .closed)
    (peer : ∀ id, (slots.sockets ws).peer = some id → socket.peer = some id) :
    Keeps slots (slots.setSocket ws socket) := by
  refine ⟨?_, ?_⟩
  · intro other before
    rw [Slots.sockets_setSocket]
    split_ifs with hit
    · rw [hit] at before
      exact standing before
    · exact before
  · intro other id acts
    rw [Slots.sockets_setSocket]
    split_ifs with hit
    · rw [hit] at acts
      exact peer id acts
    · exact acts

theorem SlotsInv.keeps {slots later : Slots} (inv : SlotsInv slots) (books : SlotBooks later)
    (keeps : Keeps slots later) (members : later.members = slots.members)
    (sessions : later.sessions = slots.sessions) : SlotsInv later := by
  refine ⟨books, ?_⟩
  intro id mem
  rw [members] at mem
  exact (inv.seated id mem).keeps keeps (congrFun sessions id)

theorem SlotBooks.shut (books : SlotBooks slots) (ws : SocketId) :
    SlotBooks (slots.shut ws) := by
  refine books.setSocket ws ?_ ?_ (books.joined ws) (books.asked ws)
  · intro gone
    simp [gone]
  · dsimp only
    split_ifs
    · nofun
    · nofun

theorem keeps_shut (slots : Slots) (ws : SocketId) : Keeps slots (slots.shut ws) := by
  refine keeps_setSocket ?_ fun id acts => acts
  intro standing
  simp [standing]

theorem SlotBooks.cut (books : SlotBooks slots) (ws : SocketId)
    (cause : EndedBy) : SlotBooks (slots.cut ws cause) := by
  have marked : SlotBooks (slots.setSocket ws { slots.sockets ws with endedBy := some cause }) :=
    books.setSocket ws (fun gone => gone) (fun opens => opens) (books.joined ws)
      (books.asked ws)
  exact marked.shut ws

theorem keeps_cut (slots : Slots) (ws : SocketId) (cause : EndedBy) :
    Keeps slots (slots.cut ws cause) := by
  have marked : Keeps slots (slots.setSocket ws { slots.sockets ws with endedBy := some cause }) :=
    keeps_setSocket (fun standing => standing) fun _ acts => acts
  exact marked.trans (keeps_shut _ ws)

section

variable (books : SlotBooks slots)
include books

theorem SlotBooks.withSessions
    {sessions : SessionId → Session} (ws : ∀ id, (sessions id).ws = (slots.sessions id).ws)
    (token : ∀ id, (sessions id).resumeToken = (slots.sessions id).resumeToken)
    (timer : ∀ id armed, (sessions id).detachTimer = some armed →
      armed = (slots.sessions id).ws ∧ (slots.sockets armed).ready = .closed)
    (probe : ∀ id number, (sessions id).livenessProbe = some number →
      number < slots.nextProbe ∧ (slots.probes number).ws = (slots.sessions id).ws) :
    SlotBooks { slots with sessions := sessions } := by
  refine ⟨books.members, books.once, ?_, books.joined, books.asked, ?_, ?_, ?_, ?_, ?_,
    books.usedOnce⟩
  · intro id armed found
    rw [ws id]
    exact timer id armed found
  · intro id number found
    rw [ws id]
    exact probe id number found
  · intro id known
    rw [token id]
    exact books.tokens id known
  · intro one two
    rw [token one, token two]
    exact books.distinct one two
  · intro id known
    rw [token id]
    exact books.handed id known
  · intro given mem
    refine ⟨(books.used given mem).1, ?_⟩
    intro id
    rw [token id]
    exact (books.used given mem).2 id

theorem SlotBooks.setTimer (id : SessionId)
    {timer : Option SocketId} (rightly : ∀ ws, timer = some ws →
      ws = (slots.sessions id).ws ∧ (slots.sockets ws).ready = .closed) :
    SlotBooks (slots.setSession id { slots.sessions id with detachTimer := timer }) := by
  refine books.withSessions (field_update Session.ws rfl) (field_update Session.resumeToken rfl)
    ?_ ?_
  · intro other armed found
    rw [update_apply] at found
    split_ifs at found with hit
    · rw [hit]
      exact rightly armed found
    · exact books.timer other armed found
  · intro other number found
    rw [update_apply] at found
    split_ifs at found with hit
    · rw [hit]
      exact books.probes id number found
    · exact books.probes other number found

theorem SlotBooks.clearDetachTimer (id : SessionId) :
    SlotBooks (slots.clearDetachTimer id) :=
  books.setTimer id nofun

theorem SlotBooks.withMembers {members : List SessionId}
    (known : ∀ id ∈ members, id < slots.nextSession) (once : members.Nodup) :
    SlotBooks { slots with members := members } :=
  ⟨known, once, books.timer, books.joined, books.asked, books.probes, books.tokens,
    books.distinct, books.handed, books.used, books.usedOnce⟩

theorem SlotBooks.leave (id : SessionId) :
    SlotBooks (slots.leave id) := by
  refine (books.clearDetachTimer id).withMembers ?_ (books.once.filter _)
  intro other mem
  exact books.members other (mem_filter.mp mem).1

end

theorem seated_clear {id other : SessionId} (apart : other ≠ id)
    (seated : Seated slots other) : Seated (slots.clearDetachTimer id) other := by
  unfold Seated at seated ⊢
  simp only [Slots.clearDetachTimer, Slots.sessions_setSession, Slots.sockets_setSession,
    if_neg apart]
  exact seated

theorem SlotBooks.left (books : SlotBooks slots)
    (seated : ∀ other ∈ slots.members, other ≠ id → Seated slots other) :
    SlotsInv (slots.leave id) := by
  refine ⟨books.leave id, ?_⟩
  intro other mem
  obtain ⟨found, apart⟩ := mem_filter.mp mem
  have apart := of_decide_eq_true apart
  exact seated_clear apart (seated other found apart)

theorem SlotBooks.gone (books : SlotBooks slots) (ws : SocketId) :
    SlotBooks (slots.setSocket ws { slots.sockets ws with ready := .closed, peer := none }) :=
  books.setSocket ws (fun _ => rfl) nofun nofun (books.asked ws)

theorem SlotsInv.others_gone (inv : SlotsInv slots) (mem : id ∈ slots.members)
    (other : (slots.sockets ws).peer ≠ some id ∨ (slots.sessions id).ws ≠ ws) :
    Seated (slots.setSocket ws { slots.sockets ws with ready := .closed, peer := none }) id := by
  rcases inv.seated id mem with ⟨standing, acts⟩ | timer
  · refine Or.inl ?_
    have apart : (slots.sessions id).ws ≠ ws := by
      intro same
      rw [same] at acts
      rcases other with unlike | elsewhere
      · exact unlike acts
      · exact elsewhere same
    simp only [Slots.sessions_setSocket, Slots.sockets_setSocket, if_neg apart]
    exact ⟨standing, acts⟩
  · exact Or.inr timer

theorem SlotBooks.settle (books : SlotBooks slots) (number : Nat) (alive : Bool) :
    SlotBooks (slots.settle number alive) := by
  have probes : ∀ other, ((slots.settle number alive).probes other).ws =
      (slots.probes other).ws := field_update Probe.ws rfl
  have answered : SlotBooks { slots with probes := (slots.settle number alive).probes } := by
    refine ⟨books.members, books.once, books.timer, books.joined, ?_, ?_, books.tokens,
      books.distinct, books.handed, books.used, books.usedOnce⟩
    · intro ws probing found
      obtain ⟨known, answer⟩ := books.asked ws probing found
      refine ⟨known, ?_⟩
      unfold Asked at answer ⊢
      split at answer
      · trivial
      · exact answer
      · rename_i asked _
        exact ⟨answer.1, (probes asked).trans answer.2⟩
    · intro id asked found
      obtain ⟨known, own⟩ := books.probes id asked found
      exact ⟨known, (probes asked).trans own⟩
  refine answered.withSessions ?_ ?_ ?_ ?_
  · intro id
    split_ifs
    · rfl
    · rfl
  · intro id
    split_ifs
    · rfl
    · rfl
  · intro id armed found
    refine books.timer id armed ?_
    split_ifs at found
    · exact found
    · exact found
  · intro id asked found
    refine answered.probes id asked ?_
    split_ifs at found
    exact found

theorem seated_settle (seated : Seated slots id) (number : Nat)
    (alive : Bool) : Seated (slots.settle number alive) id := by
  have ws : ((slots.settle number alive).sessions id).ws = (slots.sessions id).ws := by
    simp only [Slots.settle]
    split_ifs
    · rfl
    · rfl
  have timer : ((slots.settle number alive).sessions id).detachTimer =
      (slots.sessions id).detachTimer := by
    simp only [Slots.settle]
    split_ifs
    · rfl
    · rfl
  dsimp only [Seated] at seated ⊢
  rw [ws, timer]
  exact seated

/-- What a join knows once it has asked about the session. -/
structure Probed (slots later : Slots) (id : SessionId) (answer : Answer) : Prop where
  books : SlotBooks later
  sockets : later.sockets = slots.sockets
  members : later.members = slots.members
  nextSession : later.nextSession = slots.nextSession
  ws : ∀ other, (later.sessions other).ws = (slots.sessions other).ws
  timer : ∀ other, (later.sessions other).detachTimer = (slots.sessions other).detachTimer
  tokens : later.handed = slots.handed ∧ later.used = slots.used
  asked : ∀ probing : Probing, probing.probedWs = (slots.sessions id).ws →
    probing.answer = answer → Asked later probing

section

variable (books : SlotBooks slots)
include books

theorem SlotBooks.ask (id : SessionId) :
    SlotBooks { slots.setSession id { slots.sessions id with
        livenessProbe := some slots.nextProbe } with
      probes := Function.update slots.probes slots.nextProbe ⟨(slots.sessions id).ws, none⟩
      nextProbe := slots.nextProbe + 1 } := by
  have old : ∀ {number}, number < slots.nextProbe →
      (Function.update slots.probes slots.nextProbe ⟨(slots.sessions id).ws, none⟩) number =
        slots.probes number := by
    intro number below
    exact update_of_ne (Nat.ne_of_lt below) _ _
  have added : SlotBooks { slots with
      probes := Function.update slots.probes slots.nextProbe ⟨(slots.sessions id).ws, none⟩
      nextProbe := slots.nextProbe + 1 } := by
    refine ⟨books.members, books.once, books.timer, books.joined, ?_, ?_, books.tokens,
      books.distinct, books.handed, books.used, books.usedOnce⟩
    · intro ws probing found
      obtain ⟨known, answer⟩ := books.asked ws probing found
      refine ⟨known, ?_⟩
      unfold Asked at answer ⊢
      split at answer
      · trivial
      · exact answer
      · exact ⟨Nat.lt_succ_of_lt answer.1, (congrArg Probe.ws (old answer.1)).trans answer.2⟩
    · intro other number found
      obtain ⟨below, own⟩ := books.probes other number found
      exact ⟨Nat.lt_succ_of_lt below, (congrArg Probe.ws (old below)).trans own⟩
  refine added.withSessions (field_update Session.ws rfl) (field_update Session.resumeToken rfl)
    ?_ ?_
  · intro other armed found
    simp only [Slots.sessions_setSession] at found
    split_ifs at found with hit
    · rw [hit]
      exact books.timer id armed found
    · exact books.timer other armed found
  · intro other number found
    simp only [Slots.sessions_setSession] at found
    split_ifs at found with hit
    · cases found
      refine ⟨Nat.lt_succ_self _, ?_⟩
      dsimp only
      rw [update_self, hit]
    · exact added.probes other number found

theorem SlotBooks.probed (id : SessionId) (buffered : Bool) :
    Probed slots (slots.probeSessionAlive id buffered).1 id
      (slots.probeSessionAlive id buffered).2 := by
  unfold Slots.probeSessionAlive
  dsimp only
  split_ifs with unopened
  · refine ⟨books, rfl, rfl, rfl, fun _ => rfl, fun _ => rfl, ⟨rfl, rfl⟩, ?_⟩
    intro probing own answer
    unfold Asked
    rw [answer, own]
    exact unopened
  · refine ⟨books, rfl, rfl, rfl, fun _ => rfl, fun _ => rfl, ⟨rfl, rfl⟩, ?_⟩
    intro probing own answer
    unfold Asked
    rw [answer]
    trivial
  · split
    · rename_i number shared
      refine ⟨books, rfl, rfl, rfl, fun _ => rfl, fun _ => rfl, ⟨rfl, rfl⟩, ?_⟩
      intro probing own answer
      unfold Asked
      rw [answer, own]
      exact books.probes id number shared
    · refine ⟨books.ask id, rfl, rfl, rfl, field_update Session.ws rfl,
        field_update Session.detachTimer rfl, ⟨rfl, rfl⟩, ?_⟩
      · intro probing own answer
        unfold Asked
        rw [answer, own]
        refine ⟨Nat.lt_succ_self _, ?_⟩
        dsimp only
        rw [update_self]

theorem SlotBooks.granted (id next : SessionId)
    (session : Session) {used : List (SessionId × Token)}
    (known : ∀ other, other < next → other = id ∨ other < slots.nextSession)
    (kept : slots.nextSession ≤ next) (own : id < next)
    (token : session.resumeToken = slots.nextToken)
    (clear : session.livenessProbe = none ∧ session.detachTimer = none)
    (spent : used = slots.used ∨
      used = (id, (slots.sessions id).resumeToken) :: slots.used ∧ id < slots.nextSession) :
    SlotBooks { slots.setSession id session with
      nextSession := next
      nextToken := slots.nextToken + 1
      handed := (id, slots.nextToken) :: slots.handed
      used := used } := by
  have below : ∀ other, other < next → other ≠ id →
      (slots.sessions other).resumeToken < slots.nextToken := by
    intro other before apart
    exact books.tokens other ((known other before).resolve_left apart)
  refine ⟨fun other mem => Nat.lt_of_lt_of_le (books.members other mem) kept, books.once,
    ?_, ?_, ?_, ?_, ?_, ?_, ?_, ?_, ?_⟩
  · intro other armed found
    simp only [Slots.sessions_setSession, Slots.sockets_setSession] at found ⊢
    split_ifs at found ⊢ with hit
    · rw [clear.2] at found
      cases found
    · exact books.timer other armed found
  · intro ws other acts
    obtain ⟨before, unasked⟩ := books.joined ws other acts
    exact ⟨Nat.lt_of_lt_of_le before kept, unasked⟩
  · intro ws probing found
    obtain ⟨before, answer⟩ := books.asked ws probing found
    exact ⟨Nat.lt_of_lt_of_le before kept, answer⟩
  · intro other number found
    simp only [Slots.sessions_setSession] at found ⊢
    split_ifs at found ⊢ with hit
    · rw [clear.1] at found
      cases found
    · exact books.probes other number found
  · intro other before
    simp only [Slots.sessions_setSession]
    split_ifs with hit
    · rw [token]
      exact Nat.lt_succ_self _
    · exact Nat.lt_succ_of_lt (below other before hit)
  · intro one two oneKnown twoKnown same
    simp only [Slots.sessions_setSession] at same
    split_ifs at same with first second second
    · rw [first, second]
    · rw [token] at same
      exact absurd same.symm (Nat.ne_of_lt (below two twoKnown second))
    · rw [token] at same
      exact absurd same (Nat.ne_of_lt (below one oneKnown first))
    · exact books.distinct one two ((known one oneKnown).resolve_left first)
        ((known two twoKnown).resolve_left second) same
  · intro other before
    simp only [Slots.sessions_setSession, List.find?_cons]
    split_ifs with hit
    · rw [hit, decide_eq_true rfl, token]
    · rw [decide_eq_false fun same => hit same.symm]
      exact books.handed other ((known other before).resolve_left hit)
  · intro given mem
    have old : given ∈ slots.used ∨
        given = (id, (slots.sessions id).resumeToken) ∧ id < slots.nextSession := by
      rcases spent with same | ⟨same, seen⟩
      · exact Or.inl (same ▸ mem)
      · dsimp only at mem
        rw [same] at mem
        rcases mem_cons.mp mem with head | tail
        · exact Or.inr ⟨head, seen⟩
        · exact Or.inl tail
    have spentBelow : given.2 < slots.nextToken := by
      rcases old with earlier | ⟨same, seen⟩
      · exact (books.used given earlier).1
      · rw [same]
        exact books.tokens id seen
    refine ⟨Nat.lt_succ_of_lt spentBelow, ?_⟩
    intro other before
    simp only [Slots.sessions_setSession]
    split_ifs with hit
    · rw [token]
      exact (Nat.ne_of_lt spentBelow).symm
    · have seenOther := (known other before).resolve_left hit
      rcases old with earlier | ⟨same, seen⟩
      · exact (books.used given earlier).2 other seenOther
      · rw [same]
        exact fun equal => hit (books.distinct other id seenOther seen equal)
  · rcases spent with same | ⟨same, seen⟩
    · rw [same]
      exact books.usedOnce
    · rw [same, map_cons, nodup_cons]
      refine ⟨?_, books.usedOnce⟩
      intro again
      obtain ⟨given, mem, equal⟩ := mem_map.mp again
      exact (books.used given mem).2 id seen equal.symm

theorem SlotBooks.resumeSession (seen : id < slots.nextSession)
    (ws : SocketId) : SlotBooks (slots.resumeSession id ws) := by
  have granted := books.granted id slots.nextSession
    { slots.sessions id with
      ws := ws, livenessProbe := none, detachTimer := none, resumeToken := slots.nextToken }
    (fun _ before => Or.inr before) (Nat.le_refl _) seen rfl ⟨rfl, rfl⟩ (Or.inr ⟨rfl, seen⟩)
  unfold Slots.resumeSession
  dsimp only
  split_ifs
  · exact granted.cut (slots.sessions id).ws .resumed
  · exact granted

end

theorem cut_field {γ : Type} (field : Socket → γ)
    (kept : ∀ socket ready cause, field { socket with ready := ready, endedBy := cause } =
      field socket) (slots : Slots) (ws other : SocketId) (cause : EndedBy) :
    field ((slots.cut ws cause).sockets other) = field (slots.sockets other) := by
  simp only [Slots.cut, Slots.shut, Slots.sockets_setSocket, if_true]
  split_ifs with hit
  · rw [hit]
    exact kept _ _ _
  · rw [hit]
    exact kept _ _ _
  · rfl

def Slots.allocate (slots : Slots) (ws : SocketId) (roomCode : RoomCode) (peerId : PeerId) :
    Slots :=
  { slots.setSession slots.nextSession
      ⟨peerId, roomCode, ws, slots.nextToken, none, none⟩ with
    nextSession := slots.nextSession + 1
    nextToken := slots.nextToken + 1
    handed := (slots.nextSession, slots.nextToken) :: slots.handed }

/-- The slots of a join's new session, before the socket acts for it. -/
def Slots.seat (slots : Slots) (ws : SocketId) (roomCode : RoomCode) (peerId : PeerId)
    (oldPeer : Option SessionId) : Slots :=
  let made := slots.allocate ws roomCode peerId
  match oldPeer with
  | none => { made with members := slots.members ++ [slots.nextSession] }
  | some old =>
    { (made.clearDetachTimer old).cut (slots.sessions old).ws .replaced with
      members := slots.members.map fun other =>
        if other = old then slots.nextSession else other }

theorem Slots.enter_eq (slots : Slots) (ws : SocketId) (roomCode : RoomCode) (peerId : PeerId)
    (oldPeer : Option SessionId) :
    slots.enter ws roomCode peerId oldPeer =
      let seated := slots.seat ws roomCode peerId oldPeer
      seated.setSocket ws { seated.sockets ws with peer := some slots.nextSession } := by
  cases oldPeer with
  | none | some old => rfl

theorem Slots.seat_next (slots : Slots) (ws : SocketId) (roomCode : RoomCode) (peerId : PeerId)
    (oldPeer : Option SessionId) :
    (slots.seat ws roomCode peerId oldPeer).nextSession = slots.nextSession + 1 := by
  cases oldPeer with
  | none | some old => rfl

theorem SlotBooks.allocate (books : SlotBooks slots) (ws : SocketId) (roomCode : RoomCode)
    (peerId : PeerId) :
    SlotBooks (slots.allocate ws roomCode peerId) :=
  books.granted slots.nextSession (slots.nextSession + 1)
    ⟨peerId, roomCode, ws, slots.nextToken, none, none⟩
    (fun _ before => (Nat.lt_succ_iff_lt_or_eq.mp before).symm) (Nat.le_succ _)
    (Nat.lt_succ_self _) rfl ⟨rfl, rfl⟩ (Or.inl rfl)

structure SeatSpec (slots later : Slots) (ws : SocketId) (oldPeer : Option SessionId) :
    Prop where
  books : SlotBooks later
  keeps : Keeps slots later
  sockets : ∀ other, (later.sockets other).peer = (slots.sockets other).peer ∧
    (later.sockets other).probing = (slots.sockets other).probing
  ws : (later.sessions slots.nextSession).ws = ws
  sessions : ∀ id ∈ later.members, id ≠ slots.nextSession →
    id ∈ slots.members ∧ later.sessions id = slots.sessions id
  members : ∀ id ∈ slots.members, oldPeer ≠ some id → id ∈ later.members

theorem SlotsInv.seat (inv : SlotsInv slots) (ws : SocketId) (roomCode : RoomCode) (peerId : PeerId)
    {oldPeer : Option SessionId} (held : ∀ old, oldPeer = some old → old ∈ slots.members) :
    SeatSpec slots (slots.seat ws roomCode peerId oldPeer) ws oldPeer := by
  have granted := inv.allocate ws roomCode peerId
  have apart : ∀ id ∈ slots.members, id ≠ slots.nextSession :=
    fun id mem => Nat.ne_of_lt (inv.members id mem)
  cases oldPeer with
  | none =>
    refine ⟨granted.withMembers ?_ ?_, ⟨fun _ standing => standing, fun _ _ acts => acts⟩,
      fun _ => ⟨rfl, rfl⟩, ?_, ?_, ?_⟩
    · intro id mem
      rcases mem_append.mp mem with old | new
      · exact granted.members id old
      · rw [mem_singleton.mp new]
        exact Nat.lt_succ_self _
    · refine nodup_append.mpr
        ⟨inv.once, nodup_cons.mpr ⟨not_mem_nil, nodup_nil⟩, ?_⟩
      intro id mem other new same
      exact apart id mem (same.trans (mem_singleton.mp new))
    · simp only [Slots.seat, Slots.allocate, Slots.sessions_setSession, if_true]
    · intro id mem new
      refine ⟨?_, update_of_ne new _ _⟩
      rcases mem_append.mp mem with old | same
      · exact old
      · exact absurd (mem_singleton.mp same) new
    · intro id mem _
      exact mem_append_left _ mem
  | some old =>
    have oldHeld := held old rfl
    have ended := (granted.clearDetachTimer old).cut (slots.sessions old).ws .replaced
    have kept := keeps_cut ((slots.allocate ws roomCode peerId).clearDetachTimer old)
      (slots.sessions old).ws .replaced
    refine ⟨ended.withMembers ?_ ?_, ⟨kept.standing, kept.peer⟩, ?_, ?_, ?_, ?_⟩
    · intro id mem
      obtain ⟨other, found, same⟩ := mem_map.mp mem
      rw [← same]
      split_ifs
      · exact Nat.lt_succ_self _
      · exact Nat.lt_succ_of_lt (inv.members other found)
    · refine List.Nodup.map_on ?_ inv.once
      intro one first two second same
      split_ifs at same with oneOld twoOld twoOld
      · rw [oneOld, twoOld]
      · exact absurd same.symm (apart two second)
      · exact absurd same (apart one first)
      · exact same
    · intro other
      exact ⟨cut_field Socket.peer (fun _ _ _ => rfl) _ _ other _,
        cut_field Socket.probing (fun _ _ _ => rfl) _ _ other _⟩
    · simp only [Slots.seat, Slots.allocate, Slots.clearDetachTimer, Slots.cut, Slots.shut,
        Slots.sessions_setSocket, Slots.sessions_setSession,
        if_neg (apart old oldHeld).symm, if_true]
    · intro id mem new
      obtain ⟨other, found, same⟩ := mem_map.mp mem
      split_ifs at same with hit
      · exact absurd same.symm new
      · rw [← same] at new ⊢
        refine ⟨found, ?_⟩
        simp only [Slots.seat, Slots.allocate, Slots.clearDetachTimer, Slots.cut, Slots.shut,
          Slots.sessions_setSocket, Slots.sessions_setSession, if_neg hit, if_neg new]
    · intro id mem other
      have unlike : id ≠ old := fun same => other (congrArg some same.symm)
      exact mem_map.mpr ⟨id, mem, if_neg unlike⟩

theorem SlotsInv.enter (inv : SlotsInv slots) (roomCode : RoomCode) (peerId : PeerId)
    {oldPeer : Option SessionId} (idle : (slots.sockets ws).peer = none)
    (unasked : (slots.sockets ws).probing = none) (standing : (slots.sockets ws).ready ≠ .closed)
    (held : ∀ old, oldPeer = some old → old ∈ slots.members) :
    SlotsInv (slots.enter ws roomCode peerId oldPeer) := by
  have spec := inv.seat ws roomCode peerId held
  have known := Slots.seat_next slots ws roomCode peerId oldPeer
  rw [Slots.enter_eq]
  generalize slots.seat ws roomCode peerId oldPeer = later at spec known
  dsimp only
  refine ⟨spec.books.setSocket ws (fun gone => gone) (fun opens => opens) ?_
    (spec.books.asked ws), ?_⟩
  · intro id acts
    cases acts
    exact ⟨known ▸ Nat.lt_succ_self _, (spec.sockets ws).2.trans unasked⟩
  · intro id mem
    by_cases new : id = slots.nextSession
    · rw [new]
      refine Or.inl ?_
      simp only [Slots.sessions_setSocket, Slots.sockets_setSocket, spec.ws, if_true]
      exact ⟨spec.keeps.standing ws standing, trivial⟩
    · obtain ⟨old, same⟩ := spec.sessions id mem new
      refine ((inv.seated id old).keeps spec.keeps same).keeps
        (keeps_setSocket (fun stands => stands) ?_) rfl
      intro other acts
      rw [(spec.sockets ws).1, idle] at acts
      cases acts

theorem SlotsInv.resumeSession (books : SlotBooks slots) (seen : id < slots.nextSession)
    (acts : (slots.sockets ws).peer = some id) (standing : (slots.sockets ws).ready ≠ .closed)
    (others : ∀ other ∈ slots.members, other ≠ id → Seated slots other) :
    SlotsInv (slots.resumeSession id ws) := by
  have keeps : Keeps slots (slots.resumeSession id ws) := by
    unfold Slots.resumeSession
    dsimp only
    split_ifs
    · have kept := keeps_cut (slots.setSession id { slots.sessions id with
        ws := ws, livenessProbe := none, detachTimer := none, resumeToken := slots.nextToken })
        (slots.sessions id).ws .resumed
      exact ⟨kept.standing, kept.peer⟩
    · exact ⟨fun _ stands => stands, fun _ _ peer => peer⟩
  have sessions : ∀ other, (slots.resumeSession id ws).sessions other =
      if other = id then { slots.sessions id with
        ws := ws, livenessProbe := none, detachTimer := none, resumeToken := slots.nextToken }
      else slots.sessions other := by
    intro other
    simp only [Slots.resumeSession]
    split_ifs with moved hit hit <;>
      simp only [Slots.cut, Slots.shut, Slots.sessions_setSocket, Slots.sessions_setSession, hit,
        if_true, if_false]
  have members : (slots.resumeSession id ws).members = slots.members := by
    unfold Slots.resumeSession
    dsimp only
    split_ifs
    · rfl
    · rfl
  refine ⟨books.resumeSession seen ws, ?_⟩
  intro other mem
  rw [members] at mem
  by_cases same : other = id
  · refine Or.inl ?_
    rw [sessions, if_pos same, same]
    exact ⟨keeps.standing ws standing, keeps.peer ws id acts⟩
  · refine (others other mem same).keeps keeps ?_
    rw [sessions, if_neg same]

theorem find_spec {roomCode : RoomCode} {peerId : PeerId}
    (found : slots.find roomCode peerId = some id) : id ∈ slots.members :=
  mem_of_find?_eq_some found

def Slots.challenge (slots : Slots) (ws : SocketId) : Slots :=
  slots.setSocket ws { slots.sockets ws with joinNonce := false }

def Slots.take (slots : Slots) (ws : SocketId) (old : SessionId) : Slots :=
  slots.setSocket ws { slots.sockets ws with peer := some old }

def Slots.rest (slots : Slots) (ws : SocketId) (probing : Option Probing) : Slots :=
  slots.setSocket ws { slots.sockets ws with probing := probing }

inductive JoinCase (slots : Slots) (ws : SocketId) (roomCode : RoomCode) (peerId : PeerId)
    (resume : Option Token) (buffered : Bool) : Slots × Change → Prop
  | spent : JoinCase slots ws roomCode peerId resume buffered (slots.shut ws, .none)
  | refused :
      JoinCase slots ws roomCode peerId resume buffered ((slots.challenge ws).shut ws, .none)
  | entered (vacant : slots.find roomCode peerId = none)
      (space : (slots.room roomCode).length < MAX_PEERS_PER_ROOM) :
      JoinCase slots ws roomCode peerId resume buffered
        ((slots.challenge ws).enter ws roomCode peerId none, .entered slots.nextSession none)
  | resumed {old : SessionId} (found : slots.find roomCode peerId = some old)
      (token : resume = some (slots.sessions old).resumeToken) :
      JoinCase slots ws roomCode peerId resume buffered
        (((slots.challenge ws).take ws old).resumeSession old ws, .resumed old)
  | asked {old : SessionId} (found : slots.find roomCode peerId = some old) :
      JoinCase slots ws roomCode peerId resume buffered
        (((slots.challenge ws).probeSessionAlive old buffered).1.rest ws
          (some ⟨roomCode, peerId, old, (slots.sessions old).ws,
            ((slots.challenge ws).probeSessionAlive old buffered).2⟩), .none)

theorem join_cases (slots : Slots) (ws : SocketId) (roomCode : RoomCode) (peerId : PeerId)
    (resume : Option Token) (full buffered : Bool) :
    JoinCase slots ws roomCode peerId resume buffered
      (slots.join ws roomCode peerId resume full buffered) := by
  unfold Slots.join
  dsimp only
  split
  · exact .spent
  split
  · exact .refused
  split
  · rename_i vacant
    split_ifs with crowded
    · exact .refused
    · exact .entered vacant (Nat.lt_of_not_le crowded)
  · rename_i old found
    split_ifs with token
    · exact .resumed found token
    · exact .asked found

inductive FinishCase (slots : Slots) (ws : SocketId) (probing : Probing) (alive : Bool) :
    Slots × Change → Prop
  | gone : FinishCase slots ws probing alive (slots.rest ws none, .none)
  | refused : FinishCase slots ws probing alive ((slots.rest ws none).shut ws, .none)
  | entered (open_ : (slots.sockets ws).ready = .isOpen) (dead : alive = false)
      (vacant : slots.find probing.roomCode probing.peerId = none) :
      FinishCase slots ws probing alive
        ((slots.rest ws none).enter ws probing.roomCode probing.peerId none,
          .entered slots.nextSession none)
  | replaced (open_ : (slots.sockets ws).ready = .isOpen) (dead : alive = false)
      (found : slots.find probing.roomCode probing.peerId = some probing.oldPeer)
      (same : (slots.sessions probing.oldPeer).ws = probing.probedWs) :
      FinishCase slots ws probing alive
        ((slots.rest ws none).enter ws probing.roomCode probing.peerId (some probing.oldPeer),
          .entered slots.nextSession (some probing.oldPeer))

theorem finish_cases (slots : Slots) (ws : SocketId) (probing : Probing) (alive : Bool) :
    FinishCase slots ws probing alive (slots.finishJoin ws probing alive) := by
  unfold Slots.finishJoin
  dsimp only
  split
  · exact .gone
  rename_i stays
  split
  · exact .refused
  rename_i dead
  have open_ := of_not_not stays
  have dead := eq_false_of_ne_true dead
  split
  · rename_i vacant
    exact .entered open_ dead vacant
  · rename_i current found
    split_ifs with claimed
    · exact .refused
    · obtain ⟨same, still⟩ := not_or.mp claimed
      have same := of_not_not same
      rw [same] at found still ⊢
      exact .replaced open_ dead found (of_not_not still)

section

variable (inv : SlotsInv slots)
include inv

theorem SlotsInv.shut (ws : SocketId) :
    SlotsInv (slots.shut ws) :=
  inv.keeps (inv.toSlotBooks.shut ws) (keeps_shut slots ws) rfl rfl

theorem SlotsInv.challenge (ws : SocketId) :
    SlotsInv (slots.challenge ws) :=
  inv.keeps
    (inv.setSocket ws (fun gone => gone) (fun opens => opens) (inv.joined ws)
      (inv.asked ws))
    (keeps_setSocket (fun stands => stands) fun _ acts => acts) rfl rfl

theorem SlotsInv.rest (ws : SocketId) :
    SlotsInv (slots.rest ws none) :=
  inv.keeps
    (inv.setSocket ws (fun gone => gone) (fun opens => opens)
      (fun id acts => ⟨(inv.joined ws id acts).1, rfl⟩) nofun)
    (keeps_setSocket (fun stands => stands) fun _ acts => acts) rfl rfl

theorem SlotsInv.join (standing : (slots.sockets ws).ready ≠ .closed)
    (idle : (slots.sockets ws).peer = none) (unasked : (slots.sockets ws).probing = none)
    (roomCode : RoomCode) (peerId : PeerId) (resume : Option Token) (full buffered : Bool) :
    SlotsInv (slots.join ws roomCode peerId resume full buffered).1 := by
  have own : (slots.challenge ws).sockets ws = { slots.sockets ws with joinNonce := false } :=
    update_self _ _ _
  have ready : ((slots.challenge ws).sockets ws).ready ≠ .closed := by
    rw [own]
    exact standing
  have free : ((slots.challenge ws).sockets ws).peer = none := by
    rw [own]
    exact idle
  have silent : ((slots.challenge ws).sockets ws).probing = none := by
    rw [own]
    exact unasked
  generalize made : slots.join ws roomCode peerId resume full buffered = outcome
  have cases := join_cases slots ws roomCode peerId resume full buffered
  rw [made] at cases
  cases cases with
  | spent => exact inv.shut ws
  | refused => exact (inv.challenge ws).shut ws
  | entered vacant space =>
    have vacated : ∀ old, none = some old → old ∈ (slots.challenge ws).members := nofun
    exact (inv.challenge ws).enter roomCode peerId free silent ready vacated
  | resumed found token =>
    rename_i old
    have seen := inv.members old (find_spec found)
    have taken : SlotBooks ((slots.challenge ws).take ws old) := by
      refine (inv.challenge ws).setSocket ws (fun gone => gone) (fun opens => opens) ?_
        ((inv.challenge ws).asked ws)
      intro id acts
      cases acts
      exact ⟨seen, silent⟩
    refine SlotsInv.resumeSession taken seen ?_ ?_ ?_
    · simp only [Slots.take, Slots.sockets_setSocket, if_true]
    · simp only [Slots.take, Slots.sockets_setSocket, if_true]
      exact ready
    · intro other mem _
      refine ((inv.challenge ws).seated other mem).keeps
        (keeps_setSocket (fun stands => stands) ?_) rfl
      intro id acts
      rw [free] at acts
      cases acts
  | asked found =>
    rename_i old
    have probed := (inv.challenge ws).probed old buffered
    generalize (slots.challenge ws).probeSessionAlive old buffered = answer at probed ⊢
    have still : ∀ socket, answer.1.sockets socket = (slots.challenge ws).sockets socket :=
      congrFun probed.sockets
    refine ⟨probed.books.setSocket ws (fun gone => gone) (fun opens => opens) ?_ ?_, ?_⟩
    · intro id acts
      rw [still, free] at acts
      cases acts
    · intro asked same
      cases same
      exact ⟨probed.nextSession ▸ inv.members old (find_spec found), probed.asked _ rfl rfl⟩
    · intro other mem
      have seated : Seated answer.1 other := by
        have before := (inv.challenge ws).seated other (probed.members ▸ mem)
        dsimp only [Seated] at before ⊢
        rw [probed.ws, probed.timer, still]
        exact before
      exact seated.keeps (keeps_setSocket (fun stands => stands) fun _ acts => acts) rfl

theorem SlotsInv.finishJoin {probing : Probing}
    (asked : (slots.sockets ws).probing = some probing) (alive : Bool) :
    SlotsInv (slots.finishJoin ws probing alive).1 := by
  have own : (slots.rest ws none).sockets ws = { slots.sockets ws with probing := none } :=
    update_self _ _ _
  have free : ((slots.rest ws none).sockets ws).peer = none := by
    rw [own]
    refine eq_none_iff_forall_ne_some.mpr ?_
    intro id acts
    rw [(inv.joined ws id acts).2] at asked
    cases asked
  have silent : ((slots.rest ws none).sockets ws).probing = none := by
    rw [own]
  have ready : (slots.sockets ws).ready = .isOpen →
      ((slots.rest ws none).sockets ws).ready ≠ .closed := by
    intro open_
    rw [own]
    dsimp only
    rw [open_]
    nofun
  generalize made : slots.finishJoin ws probing alive = outcome
  have cases := finish_cases slots ws probing alive
  rw [made] at cases
  cases cases with
  | gone => exact inv.rest ws
  | refused => exact (inv.rest ws).shut ws
  | entered open_ dead vacant =>
    have vacated : ∀ old, none = some old → old ∈ (slots.rest ws none).members := nofun
    exact (inv.rest ws).enter _ _ free silent (ready open_) vacated
  | replaced open_ dead found same =>
    have held : ∀ old, some probing.oldPeer = some old →
        old ∈ (slots.rest ws none).members := by
      intro old equal
      cases equal
      exact find_spec found
    exact (inv.rest ws).enter _ _ free silent (ready open_) held

end

inductive ClosedCase (grace : Bool) (slots : Slots) (ws : SocketId) (code : Nat) :
    Slots × Change → Prop
  | idle (other : ∀ id ∈ slots.members,
        (slots.sockets ws).peer ≠ some id ∨ (slots.sessions id).ws ≠ ws) :
      ClosedCase grace slots ws code
        (slots.setSocket ws { slots.sockets ws with ready := .closed, peer := none }, .none)
  | held {id : SessionId} (acts : (slots.sockets ws).peer = some id) (member : id ∈ slots.members)
      (own : (slots.sessions id).ws = ws)
      (resumable : (grace && holdsForResume code (slots.sockets ws).endedBy) = true) :
      ClosedCase grace slots ws code
        ((slots.setSocket ws { slots.sockets ws with ready := .closed, peer := none }).setSession
          id { slots.sessions id with detachTimer := some ws }, .none)
  | left {id : SessionId} (acts : (slots.sockets ws).peer = some id) (member : id ∈ slots.members)
      (own : (slots.sessions id).ws = ws)
      (final : (grace && holdsForResume code (slots.sockets ws).endedBy) = false) :
      ClosedCase grace slots ws code
        ((slots.setSocket ws { slots.sockets ws with ready := .closed, peer := none }).leave id,
          .left id)

theorem closed_cases (grace : Bool) (slots : Slots) (ws : SocketId) (code : Nat) :
    ClosedCase grace slots ws code (slots.closed grace ws code) := by
  unfold Slots.closed
  dsimp only
  split
  · rename_i idle
    refine .idle ?_
    intro id _
    rw [idle]
    exact Or.inl nofun
  · rename_i id acts
    split_ifs with current resumable
    · exact .held acts current.1 current.2 resumable
    · exact .left acts current.1 current.2 (eq_false_of_ne_true resumable)
    · refine .idle ?_
      intro other mem
      by_cases same : id = other
      · rw [same] at current
        exact Or.inr fun own => current ⟨mem, own⟩
      · refine Or.inl ?_
        rw [acts]
        exact fun equal => same (Option.some.inj equal)

theorem SlotsInv.closed (inv : SlotsInv slots) (grace : Bool) (ws : SocketId)
    (code : Nat) : SlotsInv (slots.closed grace ws code).1 := by
  have gone := inv.gone ws
  generalize made : slots.closed grace ws code = outcome
  have cases := closed_cases grace slots ws code
  rw [made] at cases
  cases cases with
  | idle other =>
    exact ⟨gone, fun id mem => inv.others_gone mem (other id mem)⟩
  | held acts mem own resumable =>
    rename_i id
    refine ⟨gone.setTimer id ?_, ?_⟩
    · intro armed same
      cases same
      refine ⟨own.symm, ?_⟩
      rw [Slots.sockets_setSocket, if_pos rfl]
    · intro other found
      by_cases same : other = id
      · refine Or.inr ?_
        rw [same]
        simp only [Slots.sessions_setSession, if_true]
        exact congrArg some own.symm
      · have elsewhere : (slots.sockets ws).peer ≠ some other := by
          rw [acts]
          exact fun equal => same (Option.some.inj equal).symm
        refine (inv.others_gone found (Or.inl elsewhere)).keeps
          ⟨fun _ stands => stands, fun _ _ peer => peer⟩ ?_
        exact update_of_ne same _ _
  | left acts mem own final =>
    rename_i id
    refine gone.left ?_
    intro other found apart
    refine inv.others_gone found (Or.inl ?_)
    rw [acts]
    exact fun equal => apart (Option.some.inj equal).symm

theorem graceEnd_cases (inv : SlotsInv slots) {armed : SocketId}
    (timer : (slots.sessions id).detachTimer = some armed) :
    slots.graceEnd id armed =
      ((slots.clearDetachTimer id).leave id, if id ∈ slots.members then .left id else .none) ∨
    id ∉ slots.members ∧ slots.graceEnd id armed = (slots.clearDetachTimer id, .none) := by
  have own := (inv.timer id armed timer).1
  unfold Slots.graceEnd
  dsimp only
  by_cases mem : id ∈ slots.members
  · rw [if_pos ⟨mem, own.symm⟩, if_pos mem]
    exact Or.inl rfl
  · rw [if_neg fun both => mem both.1]
    exact Or.inr ⟨mem, rfl⟩

theorem SlotsInv.graceEnd (inv : SlotsInv slots) {armed : SocketId}
    (timer : (slots.sessions id).detachTimer = some armed) :
    SlotsInv (slots.graceEnd id armed).1 := by
  have cleared : ∀ other ∈ slots.members, other ≠ id →
      Seated (slots.clearDetachTimer id) other := by
    intro other mem apart
    exact seated_clear apart (inv.seated other mem)
  rcases graceEnd_cases inv timer with left | ⟨absent, rested⟩
  · rw [left]
    exact (inv.clearDetachTimer id).left cleared
  · rw [rested]
    refine ⟨inv.clearDetachTimer id, ?_⟩
    intro other mem
    exact cleared other mem fun same => absent (same ▸ mem)

theorem SlotsInv.settle (inv : SlotsInv slots) (number : Nat) (alive : Bool) :
    SlotsInv (slots.settle number alive) :=
  ⟨inv.toSlotBooks.settle number alive, fun id mem =>
    seated_settle (inv.seated id mem) number alive⟩

theorem SlotsInv.step {grace : Bool} {slots next : Slots} {event : SlotEvent} {change : Change}
    (inv : SlotsInv slots) (taken : slotStep grace slots event = some (next, change)) :
    SlotsInv next := by
  cases event with
  | join ws roomCode peerId resume full buffered =>
    dsimp only [slotStep] at taken
    split_ifs at taken with busy
    obtain ⟨standing, rest⟩ := not_or.mp busy
    obtain ⟨idle, unasked⟩ := not_or.mp rest
    have held := inv.join standing (of_not_not idle) (of_not_not unasked) roomCode peerId
      resume full buffered
    rw [Option.some.inj taken] at held
    exact held
  | settle number alive =>
    dsimp only [slotStep] at taken
    split_ifs at taken
    cases taken
    exact inv.settle number alive
  | finishJoin ws =>
    obtain ⟨probing, asked, later⟩ := bind_eq_some_iff.mp taken
    obtain ⟨alive, _, finished⟩ := map_eq_some_iff.mp later
    have held := inv.finishJoin asked alive
    rw [finished] at held
    exact held
  | shut ws =>
    cases taken
    exact inv.shut ws
  | cut ws cause =>
    dsimp only [slotStep] at taken
    split_ifs at taken
    · cases taken
      exact inv.keeps (inv.toSlotBooks.cut ws cause) (keeps_cut slots ws cause) rfl rfl
  | closed ws code =>
    dsimp only [slotStep] at taken
    split_ifs at taken
    have held := inv.closed grace ws code
    rw [Option.some.inj taken] at held
    exact held
  | graceEnd id =>
    obtain ⟨armed, timer, fired⟩ := map_eq_some_iff.mp taken
    have held := inv.graceEnd timer
    rw [fired] at held
    exact held

end AwfulChat.Sfu
