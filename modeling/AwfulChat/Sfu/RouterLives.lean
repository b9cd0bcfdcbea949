import AwfulChat.Sfu.Ceilings

/-!
# The life of a router

The last leave of a room schedules the close of its router. A session that enters before the close
has run keeps the room but loses the router, and a frame of a session whose room is gone makes a
router that nobody closes.
-/

namespace AwfulChat.Sfu

open Library Library.OrderedMap List Option Function

set_option autoImplicit false

def Occupied (slots : Slots) (roomCode : RoomCode) : Prop :=
  ∃ id ∈ slots.members, (slots.key id).1 = roomCode

theorem occupied_iff (slots : Slots) (roomCode : RoomCode) :
    slots.room roomCode ≠ [] ↔ Occupied slots roomCode := by
  constructor
  · intro some
    obtain ⟨id, mem⟩ := exists_mem_of_ne_nil _ some
    obtain ⟨held, place⟩ := mem_filter.mp mem
    exact ⟨id, held, of_decide_eq_true place⟩
  · rintro ⟨id, held, place⟩ empty
    have mem : id ∈ slots.room roomCode := mem_filter.mpr ⟨held, decide_eq_true place⟩
    rw [empty] at mem
    cases mem

theorem occupied_after {slots next : Slots} {change : Change} (books : SlotBooks slots)
    (move : SlotMove slots next change) (roomCode : RoomCode)
    (entered : ∀ new, change = .entered new none → (next.key new).1 ≠ roomCode)
    (left : ∀ id, change = .left id → (slots.key id).1 ≠ roomCode) :
    Occupied next roomCode ↔ Occupied slots roomCode := by
  have key : ∀ id ∈ slots.members, next.key id = slots.key id :=
    fun id mem => move.key id (books.members id mem)
  unfold Occupied
  rw [move.members]
  cases change with
  | none | resumed _ =>
    exact exists_congr fun id => and_congr_right fun mem => by rw [key id mem]
  | left gone =>
    constructor
    · rintro ⟨id, mem, place⟩
      have held := (mem_filter.mp mem).1
      exact ⟨id, held, key id held ▸ place⟩
    · rintro ⟨id, held, place⟩
      have apart : id ≠ gone := fun same => left gone rfl (same ▸ place)
      exact ⟨id, mem_filter.mpr ⟨held, decide_eq_true apart⟩, (key id held).symm ▸ place⟩
  | entered new replaced =>
    cases replaced with
    | none =>
      constructor
      · rintro ⟨id, mem, place⟩
        rcases mem_append.mp mem with held | same
        · exact ⟨id, held, key id held ▸ place⟩
        · rw [mem_singleton.mp same] at place
          exact absurd place (entered new rfl)
      · rintro ⟨id, held, place⟩
        exact ⟨id, mem_append_left _ held, (key id held).symm ▸ place⟩
    | some old =>
      obtain ⟨oldHeld, same⟩ := move.replaced new old rfl
      constructor
      · rintro ⟨id, mem, place⟩
        obtain ⟨before, held, equal⟩ := mem_map.mp mem
        split_ifs at equal with hit
        · rw [← equal, ← same] at place
          exact ⟨old, oldHeld, place⟩
        · rw [← equal, key before held] at place
          exact ⟨before, held, place⟩
      · rintro ⟨id, held, place⟩
        by_cases hit : id = old
        · rw [hit, same] at place
          exact ⟨new, mem_map.mpr ⟨id, held, if_pos hit⟩, place⟩
        · exact ⟨id, mem_map.mpr ⟨id, held, if_neg hit⟩, (key id held).symm ▸ place⟩

/-- A frame that comes as far as to ask for the router of its room. -/
def asksRouter (peer : Peer) : Message → Bool
  | .createTransport direction => !peer.transportsInFlight direction
  | .consume producerId =>
    decide (peer.transport .recv ≠ none) && (State.existingConsumer peer producerId).isNone &&
      decide (peer.consumers.size + peer.consumersInFlight < MAX_CONSUMERS_PER_PEER)
  | _ => false

/-- The room of a session that enters. -/
def entersRoom (config : Config) (state : State) (event : SlotEvent) : Option RoomCode :=
  (slotStep (decide (0 < config.RESUME_GRACE_MS)) state.slots event).bind fun (slots, change) =>
    match change with
    | .entered new _ => some (slots.key new).1
    | _ => none

/-- No session enters a room whose router is to be closed, and no router is made for a room that
has no session. -/
def keepsRouters (config : Config) (state : State) : Event → Bool
  | .slots event =>
    match entersRoom config state event with
    | none => true
    | some roomCode => state.routers.closing.all fun close => decide (close.1 ≠ roomCode)
  | .frame ws message =>
    match (state.slots.sockets ws).peer with
    | none => true
    | some id =>
      let roomCode := (state.slots.sessions id).roomCode
      !(asksRouter (state.peer id) message) ||
        (state.routers.routers.get roomCode).isSome ||
        decide (config.MAX_ROOMS ≤ state.routers.routers.size) ||
        !(state.slots.room roomCode).isEmpty
  | _ => true

structure RouterBooks (slots : Slots) (routers : Routers) (calls : List Call) : Prop where
  held : ∀ roomCode router, routers.routers.get roomCode = some router →
    router < routers.next ∧ (routers.made router).roomCode = roomCode ∧
      (routers.made router).creation ≠ .failed ∧ (routers.made router).closed = false
  closing : ∀ roomCode router, (roomCode, router) ∈ routers.closing →
    ¬Occupied slots roomCode ∧ routers.routers.get roomCode = some router
  once : routers.closing.Nodup
  rooms : ∀ roomCode router, routers.routers.get roomCode = some router →
    Occupied slots roomCode ∨ (roomCode, router) ∈ routers.closing
  awaited : ∀ call ∈ calls, call.session ∈ slots.members → ∀ router,
    call.op.awaits = some router →
      (routers.made router).creation = .failed ∨
        routers.routers.get (slots.key call.session).1 = some router
  closed : ∀ router, (routers.made router).closed = true →
    (routers.made router).creation = .ready
  calls : ∀ call ∈ calls, ∀ router, call.op.awaits = some router → router < routers.next

theorem RouterBooks.start : RouterBooks Slots.start Routers.start [] :=
  ⟨nofun, nofun, nodup_nil, nofun, nofun, nofun, nofun⟩

variable {routers : Routers} {slots : Slots} {router : RouterId} {config : Config}
  {calls : List Call} {state : State}

variable {roomCode : RoomCode} {id : SessionId} {ws : SocketId}

theorem RouterBooks.unoccupied (books : RouterBooks slots routers calls)
    (occupied : Occupied slots roomCode) (router : RouterId) :
    (roomCode, router) ∉ routers.closing :=
  fun mem => (books.closing roomCode router mem).1 occupied

theorem RouterBooks.withCalls {calls later : List Call}
    (books : RouterBooks slots routers calls)
    (asked : ∀ call ∈ later, call ∈ calls ∨ ∀ router, call.op.awaits = some router →
      router < routers.next ∧ (call.session ∈ slots.members →
        routers.routers.get (slots.key call.session).1 = some router)) :
    RouterBooks slots routers later := by
  refine ⟨books.held, books.closing, books.once, books.rooms, ?_, books.closed, ?_⟩
  · intro call mem inside router awaits
    rcases asked call mem with old | new
    · exact books.awaited call old inside router awaits
    · exact Or.inr ((new router awaits).2 inside)
  · intro call mem router awaits
    rcases asked call mem with old | new
    · exact books.calls call old router awaits
    · exact (new router awaits).1

theorem RouterBooks.done {media : Media} (books : RouterBooks slots routers media.calls)
    (ws : SocketId) :
    RouterBooks slots routers (media.done ws).calls :=
  books.withCalls fun _ mem => Or.inl (mem_filter.mp mem).1

theorem RouterBooks.await {media : Media}
    (books : RouterBooks slots routers media.calls) {op : Op}
    (asked : ∀ router, op.awaits = some router →
      router < routers.next ∧ (id ∈ slots.members →
        routers.routers.get (slots.key id).1 = some router)) :
    RouterBooks slots routers (media.await ws id op).calls := by
  refine books.withCalls ?_
  intro call mem
  rcases mem_append.mp mem with old | new
  · exact Or.inl old
  · rw [mem_singleton.mp new]
    exact Or.inr asked

theorem RouterBooks.created (books : RouterBooks slots routers calls)
    (pending : (routers.made router).creation = .pending) :
    RouterBooks slots (routers.created router) calls := by
  have made : ∀ other, ((routers.created router).made other).roomCode =
        (routers.made other).roomCode ∧
      ((routers.created router).made other).closed = (routers.made other).closed ∧
      (((routers.created router).made other).creation = (routers.made other).creation ∨
        other = router ∧ ((routers.created router).made other).creation = .ready) := by
    intro other
    simp only [Routers.created, update_apply]
    split_ifs with hit
    · rw [hit]
      exact ⟨rfl, rfl, Or.inr ⟨rfl, rfl⟩⟩
    · exact ⟨rfl, rfl, Or.inl rfl⟩
  refine ⟨?_, books.closing, books.once, books.rooms, ?_, ?_, books.calls⟩
  · intro roomCode other found
    obtain ⟨known, place, kept, standing⟩ := books.held roomCode other found
    obtain ⟨room, closed, creation⟩ := made other
    refine ⟨known, room.trans place, ?_, closed.trans standing⟩
    rcases creation with same | ⟨_, ready⟩
    · rw [same]
      exact kept
    · rw [ready]
      nofun
  · intro call mem inside other awaits
    rcases books.awaited call mem inside other awaits with failed | found
    · rcases (made other).2.2 with same | ⟨equal, _⟩
      · exact Or.inl (same.trans failed)
      · rw [equal, pending] at failed
        cases failed
    · exact Or.inr found
  · intro other shut
    obtain ⟨_, closed, creation⟩ := made other
    have ready := books.closed other (closed ▸ shut)
    rcases creation with same | ⟨_, now⟩
    · exact same.trans ready
    · exact now

theorem RouterBooks.rejected (books : RouterBooks slots routers calls)
    (pending : (routers.made router).creation = .pending) :
    RouterBooks slots (routers.rejected router) calls := by
  have found : ∀ roomCode other, (routers.rejected router).routers.get roomCode = some other →
      other ≠ router ∧ routers.routers.get roomCode = some other := by
    intro roomCode other get
    simp only [Routers.rejected] at get
    split_ifs at get with current
    · rw [get_delete] at get
      split_ifs at get with hit
      refine ⟨?_, get⟩
      intro same
      rw [same] at get
      exact hit (books.held roomCode router get).2.1.symm
    · refine ⟨?_, get⟩
      intro same
      rw [same] at get
      rw [(books.held roomCode router get).2.1] at current
      exact current get
  have stays : ∀ roomCode other, other ≠ router → routers.routers.get roomCode = some other →
      (routers.rejected router).routers.get roomCode = some other := by
    intro roomCode other apart get
    simp only [Routers.rejected]
    split_ifs with current
    · rw [get_delete, if_neg]
      · exact get
      · intro same
        rw [← same, get] at current
        exact apart (Option.some.inj current)
    · exact get
  have made : ∀ other, other ≠ router →
      (routers.rejected router).made other = routers.made other :=
    fun other apart => update_of_ne apart _ _
  have failed : ((routers.rejected router).made router).creation = .failed := by
    simp only [Routers.rejected, update_self]
  refine ⟨?_, ?_, books.once.filter _, ?_, ?_, ?_, books.calls⟩
  · intro roomCode other get
    obtain ⟨apart, before⟩ := found roomCode other get
    rw [made other apart]
    exact books.held roomCode other before
  · intro roomCode other scheduled
    obtain ⟨before, apart⟩ := mem_filter.mp scheduled
    obtain ⟨empty, get⟩ := books.closing roomCode other before
    exact ⟨empty, stays roomCode other (of_decide_eq_true apart) get⟩
  · intro roomCode other get
    obtain ⟨apart, before⟩ := found roomCode other get
    rcases books.rooms roomCode other before with occupied | scheduled
    · exact Or.inl occupied
    · exact Or.inr (mem_filter.mpr ⟨scheduled, decide_eq_true apart⟩)
  · intro call mem inside other awaits
    by_cases same : other = router
    · rw [same]
      exact Or.inl failed
    · rw [made other same]
      rcases books.awaited call mem inside other awaits with before | get
      · exact Or.inl before
      · exact Or.inr (stays _ other same get)
  · intro other shut
    by_cases same : other = router
    · rw [same] at shut
      simp only [Routers.rejected, update_self] at shut
      rw [books.closed router shut] at pending
      cases pending
    · rw [made other same] at shut ⊢
      exact books.closed other shut

theorem RouterBooks.close (books : RouterBooks slots routers calls)
    (scheduled : (roomCode, router) ∈ routers.closing)
    (ready : (routers.made router).creation = .ready) :
    RouterBooks slots (routers.close roomCode router) calls := by
  obtain ⟨empty, current⟩ := books.closing roomCode router scheduled
  have place := (books.held roomCode router current).2.1
  have made : ∀ other, other ≠ router → (routers.close roomCode router).made other =
      routers.made other := fun other apart => update_of_ne apart _ _
  have creation : ∀ other, ((routers.close roomCode router).made other).creation =
      (routers.made other).creation := field_update Router.creation rfl
  have elsewhere : ∀ room, room ≠ roomCode →
      (routers.close roomCode router).routers.get room = routers.routers.get room :=
    fun room apart => get_delete_other _ _ _ apart
  have gone : (routers.close roomCode router).routers.get roomCode = none :=
    get_delete_self _ _
  refine ⟨?_, ?_, books.once.erase _, ?_, ?_, ?_, books.calls⟩
  · intro room other get
    have apart : room ≠ roomCode := by
      intro same
      rw [same, gone] at get
      cases get
    rw [elsewhere room apart] at get
    obtain ⟨known, own, rest⟩ := books.held room other get
    have unlike : other ≠ router := by
      intro same
      rw [same, place] at own
      exact apart own.symm
    rw [made other unlike]
    exact ⟨known, own, rest⟩
  · intro room other still
    obtain ⟨unlike, before⟩ := (List.Nodup.mem_erase_iff books.once).mp still
    obtain ⟨vacant, get⟩ := books.closing room other before
    have apart : room ≠ roomCode := by
      intro same
      rw [same, current] at get
      exact unlike (Prod.ext same (Option.some.inj get).symm)
    exact ⟨vacant, (elsewhere room apart).trans get⟩
  · intro room other get
    have apart : room ≠ roomCode := by
      intro same
      rw [same, gone] at get
      cases get
    rw [elsewhere room apart] at get
    rcases books.rooms room other get with occupied | before
    · exact Or.inl occupied
    · refine Or.inr ((List.Nodup.mem_erase_iff books.once).mpr ⟨?_, before⟩)
      exact fun same => apart (congrArg Prod.fst same)
  · intro call mem inside other awaits
    rw [creation]
    rcases books.awaited call mem inside other awaits with failed | get
    · exact Or.inl failed
    · refine Or.inr ((elsewhere _ ?_).trans get)
      intro same
      exact empty ⟨call.session, inside, same⟩
  · intro other shut
    rw [creation]
    by_cases same : other = router
    · rw [same]
      exact ready
    · rw [made other same] at shut
      exact books.closed other shut

theorem RouterBooks.given {routers later : Routers} (books : RouterBooks slots routers calls)
    (given : routers.getOrCreateRouter config roomCode = some (later, router))
    (occupied : routers.routers.get roomCode = none → Occupied slots roomCode) :
    RouterBooks slots later calls ∧ router < later.next ∧
      later.routers.get roomCode = some router := by
  unfold Routers.getOrCreateRouter at given
  split at given
  · rename_i existing found
    cases given
    exact ⟨books, (books.held roomCode router found).1, found⟩
  · rename_i absent
    dsimp only at given
    split_ifs at given
    cases given
    have made : ∀ other, other < routers.next →
        (Function.update routers.made routers.next ⟨roomCode, .pending, false⟩) other =
          routers.made other := fun other known => update_of_ne (Nat.ne_of_lt known) _ _
    have elsewhere : ∀ {room other}, routers.routers.get room = some other →
        (routers.routers.set roomCode routers.next).get room = some other := by
      intro room other get
      rw [get_set_other]
      · exact get
      · intro same
        rw [same, absent] at get
        cases get
    refine ⟨⟨?_, ?_, books.once, ?_, ?_, ?_, ?_⟩, Nat.lt_succ_self _, get_set_self _ _ _⟩
    · intro room other get
      rw [get_set] at get
      split_ifs at get with hit
      · cases get
        rw [hit]
        dsimp only
        rw [update_self]
        exact ⟨Nat.lt_succ_self _, rfl, (by rintro ⟨⟩), rfl⟩
      · obtain ⟨known, rest⟩ := books.held room other get
        dsimp only
        rw [made other known]
        exact ⟨Nat.lt_succ_of_lt known, rest⟩
    · intro room other scheduled
      obtain ⟨empty, get⟩ := books.closing room other scheduled
      exact ⟨empty, elsewhere get⟩
    · intro room other get
      rw [get_set] at get
      split_ifs at get with hit
      · rw [hit]
        exact Or.inl (occupied absent)
      · exact books.rooms room other get
    · intro call mem inside other awaits
      dsimp only
      rw [made other (books.calls call mem other awaits)]
      rcases books.awaited call mem inside other awaits with failed | get
      · exact Or.inl failed
      · exact Or.inr (elsewhere get)
    · intro other shut
      dsimp only at shut ⊢
      rw [update_apply] at shut ⊢
      split_ifs at shut ⊢
      exact books.closed other shut
    · intro call mem other awaits
      exact Nat.lt_succ_of_lt (books.calls call mem other awaits)

/-- The rooms change; the last session of one leaves its router to be closed. -/
theorem RouterBooks.changed {change : Change}
    (books : Books state) (routers : RouterBooks state.slots state.routers state.media.calls)
    (move : SlotMove state.slots slots change)
    (enters : ∀ new, change = .entered new none →
      ∀ router, ((slots.key new).1, router) ∉ state.routers.closing) :
    RouterBooks slots (state.changed slots change).routers state.media.calls := by
  have inv := books.slots.toSlotBooks
  have inside : ∀ call ∈ state.media.calls, call.session ∈ slots.members →
      call.session ∈ state.slots.members ∧
        slots.key call.session = state.slots.key call.session := by
    intro call mem held
    have known := books.tidy.inFlight.session call mem
    refine ⟨?_, move.key _ known⟩
    rw [move.members] at held
    cases change with
    | none | resumed _ => exact held
    | left _ => exact (mem_filter.mp held).1
    | entered new replaced =>
      obtain ⟨equal, _⟩ := move.entered new replaced rfl
      have old : call.session ≠ new := by
        rw [equal]
        exact Nat.ne_of_lt known
      cases replaced with
      | none =>
        rcases mem_append.mp held with before | same
        · exact before
        · exact absurd (mem_singleton.mp same) old
      | some gone =>
        obtain ⟨before, listed, same⟩ := mem_map.mp held
        split_ifs at same with hit
        · exact absurd same.symm old
        · exact same ▸ listed
  have awaited : ∀ call ∈ state.media.calls, call.session ∈ slots.members → ∀ router,
      call.op.awaits = some router →
        (state.routers.made router).creation = .failed ∨
          state.routers.routers.get (slots.key call.session).1 = some router := by
    intro call mem held router awaits
    obtain ⟨before, key⟩ := inside call mem held
    rw [key]
    exact routers.awaited call mem before router awaits
  have kept : ∀ roomCode, (∀ new, change = .entered new none → (slots.key new).1 ≠ roomCode) →
      (∀ id, change = .left id → (state.slots.key id).1 ≠ roomCode) →
        (Occupied slots roomCode ↔ Occupied state.slots roomCode) :=
    fun roomCode => occupied_after inv move roomCode
  by_cases leaves : ∃ id, change = .left id
  · obtain ⟨id, same⟩ := leaves
    subst same
    have place : (slots.sessions id).roomCode = (state.slots.key id).1 :=
      congrArg Prod.fst (move.key id (inv.members id (move.left id rfl)))
    have given : (state.changed slots (.left id)).routers =
        if (slots.room (slots.sessions id).roomCode).isEmpty then
          state.routers.emptied (slots.sessions id).roomCode
        else state.routers := by
      unfold State.changed State.handlePeerLeft
      dsimp only
      split_ifs
      · rfl
      · rfl
    have before : Occupied state.slots (state.slots.key id).1 := ⟨id, move.left id rfl, rfl⟩
    have others : ∀ roomCode, roomCode ≠ (state.slots.key id).1 →
        (Occupied slots roomCode ↔ Occupied state.slots roomCode) := by
      intro roomCode apart
      refine kept roomCode nofun ?_
      intro other same
      cases same
      exact fun equal => apart equal.symm
    have closing : ∀ roomCode router, (roomCode, router) ∈ state.routers.closing →
        ¬Occupied slots roomCode ∧ state.routers.routers.get roomCode = some router := by
      intro roomCode router scheduled
      obtain ⟨empty, get⟩ := routers.closing roomCode router scheduled
      refine ⟨?_, get⟩
      rw [others roomCode]
      · exact empty
      · intro same
        rw [same] at empty
        exact empty before
    rw [given, place]
    split_ifs with empty
    · have vacant : ¬Occupied slots (state.slots.key id).1 := by
        rw [← occupied_iff]
        exact fun some => some (isEmpty_iff.mp empty)
      unfold Routers.emptied
      split
      · rename_i absent
        refine ⟨routers.held, closing, routers.once, ?_, awaited, routers.closed, routers.calls⟩
        intro roomCode router get
        have apart : roomCode ≠ (state.slots.key id).1 := by
          intro same
          rw [same, absent] at get
          cases get
        rw [others roomCode apart]
        exact routers.rooms roomCode router get
      · rename_i router current
        refine ⟨routers.held, ?_, ?_, ?_, awaited, routers.closed, routers.calls⟩
        · intro roomCode other scheduled
          rcases mem_append.mp scheduled with old | new
          · exact closing roomCode other old
          · cases mem_singleton.mp new
            exact ⟨vacant, current⟩
        · refine nodup_append.mpr
            ⟨routers.once, nodup_cons.mpr ⟨not_mem_nil, nodup_nil⟩, ?_⟩
          intro one old two new same
          rw [same, mem_singleton.mp new] at old
          exact routers.unoccupied before router old
        · intro roomCode other get
          by_cases hit : roomCode = (state.slots.key id).1
          · rw [hit, current] at get
            cases get
            rw [hit]
            exact Or.inr (mem_append_right _ (mem_singleton.mpr rfl))
          · rw [others roomCode hit]
            rcases routers.rooms roomCode other get with occupied | scheduled
            · exact Or.inl occupied
            · exact Or.inr (mem_append_left _ scheduled)
    · have still : Occupied slots (state.slots.key id).1 := by
        rw [← occupied_iff]
        exact fun none => empty (isEmpty_iff.mpr none)
      refine ⟨routers.held, closing, routers.once, ?_, awaited, routers.closed, routers.calls⟩
      intro roomCode router get
      by_cases hit : roomCode = (state.slots.key id).1
      · rw [hit]
        exact Or.inl still
      · rw [others roomCode hit]
        exact routers.rooms roomCode router get
  · have same : (state.changed slots change).routers = state.routers := by
      cases change with
      | none | resumed id => rfl
      | left id => exact absurd ⟨id, rfl⟩ leaves
      | entered new old =>
        cases old with
        | none => rfl
        | some old => rfl
    have grows : ∀ roomCode, Occupied state.slots roomCode → Occupied slots roomCode := by
      intro roomCode before
      by_cases entered : ∃ new, change = .entered new none
      · obtain ⟨new, equal⟩ := entered
        obtain ⟨id, held, place⟩ := before
        refine ⟨id, ?_, ?_⟩
        · rw [move.members, equal]
          exact mem_append_left _ held
        · rw [move.key id (inv.members id held)]
          exact place
      · refine (kept roomCode ?_ ?_).mpr before
        · exact fun new equal => absurd ⟨new, equal⟩ entered
        · exact fun id equal => absurd ⟨id, equal⟩ leaves
    rw [same]
    refine ⟨routers.held, ?_, routers.once, ?_, awaited, routers.closed, routers.calls⟩
    · intro roomCode router scheduled
      obtain ⟨empty, get⟩ := routers.closing roomCode router scheduled
      refine ⟨?_, get⟩
      rw [kept roomCode]
      · exact empty
      · intro new equal place
        rw [← place] at scheduled
        exact enters new equal router scheduled
      · exact fun id equal => absurd ⟨id, equal⟩ leaves
    · intro roomCode router get
      rcases routers.rooms roomCode router get with occupied | scheduled
      · exact Or.inl (grows roomCode occupied)
      · exact Or.inr scheduled

/-- What the claim on routers comes to, state by state. -/
structure RoutersKept (config : Config) (state : State) : Prop where
  closes : ∀ event next, step config state event = some next → ∀ router,
    (state.routers.made router).closed = false → (next.routers.made router).closed = true →
      state.slots.room (state.routers.made router).roomCode = []
  gives : ∀ call ∈ state.media.calls, call.session ∈ state.slots.members → ∀ router,
    call.op.awaits = some router → (state.routers.made router).closed = false
  kept : ∀ roomCode router, state.routers.routers.get roomCode = some router →
    (state.routers.made router).creation ≠ .failed
  held : state.routers.closing = [] → ∀ roomCode,
    state.routers.routers.get roomCode ≠ none → state.slots.room roomCode ≠ []

structure RoutersInv (state : State) : Prop where
  books : Books state
  routers : RouterBooks state.slots state.routers state.media.calls

theorem RouterBooks.aside {state next : State}
    (books : RouterBooks state.slots state.routers state.media.calls)
    (aside : Aside state next) : RouterBooks next.slots next.routers next.media.calls := by
  rw [aside.slots, aside.routers, aside.calls]
  exact books

theorem asked_occupied
    {message : Message}
    (keeps : keepsRouters config state (.frame ws message) = true)
    (acts : (state.slots.sockets ws).peer = some id)
    (asks : asksRouter (state.peer id) message = true)
    (given : state.routers.getOrCreateRouter config (state.slots.sessions id).roomCode =
      some (routers, router))
    (absent : state.routers.routers.get (state.slots.sessions id).roomCode = none) :
    Occupied state.slots (state.slots.sessions id).roomCode := by
  have below : ¬config.MAX_ROOMS ≤ state.routers.routers.size := by
    unfold Routers.getOrCreateRouter at given
    rw [absent] at given
    dsimp only at given
    split_ifs at given with full
    exact full
  dsimp only [keepsRouters] at keeps
  rw [acts] at keeps
  dsimp only at keeps
  rw [asks, absent, decide_eq_false below] at keeps
  rw [← occupied_iff]
  intro empty
  rw [empty] at keeps
  cases keeps

theorem RoutersInv.asks
    {message : Message} {peer : Peer} {op : Op}
    (inv : RoutersInv state) (keeps : keepsRouters config state (.frame ws message) = true)
    (acts : (state.slots.sockets ws).peer = some id)
    (asks : asksRouter (state.peer id) message = true)
    (given : state.routers.getOrCreateRouter config (state.slots.sessions id).roomCode =
      some (routers, router))
    (awaits : ∀ other, op.awaits = some other → other = router) :
    RouterBooks (state.asks routers ws id peer op).slots (state.asks routers ws id peer op).routers
      (state.asks routers ws id peer op).media.calls := by
  obtain ⟨books, known, current⟩ := inv.routers.given given (asked_occupied keeps acts asks given)
  refine books.await ?_
  intro other same
  rw [awaits other same]
  exact ⟨known, fun _ => current⟩

theorem RoutersInv.goesOn (inv : RoutersInv state) (call : Call) {op : Op}
    (awaits : op.awaits = none) :
    RouterBooks (state.goesOn call op).slots (state.goesOn call op).routers
      (state.goesOn call op).media.calls := by
  refine (inv.routers.done call.ws).await ?_
  intro router same
  rw [awaits] at same
  cases same

theorem RoutersInv.ended (inv : RoutersInv state) (call : Call) :
    RouterBooks (state.ended call).slots (state.ended call).routers
      (state.ended call).media.calls :=
  inv.routers.done call.ws

theorem RoutersInv.step {state next : State} {event : Event} (inv : RoutersInv state)
    (keeps : keepsRouters config state event = true)
    (taken : step config state event = some next) : RoutersInv next := by
  refine ⟨inv.books.step taken, ?_⟩
  cases step_cases taken with
  | slots sees moved =>
    rename_i event slots change
    rw [changed_slots, changed_calls]
    refine RouterBooks.changed inv.books inv.routers (slot_move inv.books.slots moved) ?_
    intro new same router scheduled
    have enters : entersRoom config state event = some (slots.key new).1 := by
      unfold entersRoom
      rw [moved, same]
      rfl
    dsimp only [keepsRouters] at keeps
    rw [enters] at keeps
    exact of_decide_eq_true (all_eq_true.mp keeps _ scheduled) rfl
  | createTransport idle acts free given =>
    refine inv.asks keeps acts ?_ given ?_
    · dsimp only [asksRouter]
      rw [free]
      rfl
    · intro other same
      cases same
      rfl
  | consume idle acts current new room given =>
    refine inv.asks keeps acts ?_ given ?_
    · dsimp only [asksRouter]
      rw [new, decide_eq_true room, decide_eq_true current]
      rfl
    · intro other same
      cases same
      rfl
  | connectTransport idle acts current | produce idle acts current room budget =>
    exact inv.routers.await nofun
  | closeConsumer acts indexed present =>
    rename_i ws id producer consumer
    have seen := unwatch_aside state id producer
    exact inv.routers.aside ⟨seen.slots, seen.routers, seen.calls⟩
  | routerForTransport waits op ready | routerForConsume waits op ready can current =>
    exact inv.goesOn _ rfl
  | transportMade waits op =>
    exact (inv.ended _).aside (transport_made_aside config (state.ended _) _ _ _)
  | transportConnected waits op | notConsumed waits op ready | transportFailed waits op
  | connectFailed waits op | produceFailed waits op | consumeFailed waits op => exact inv.ended _
  | produced waits op => exact (inv.ended _).aside (produced_aside (state.ended _) _ _ _)
  | consumed waits op => exact (inv.ended _).aside (consumed_aside (state.ended _) _ _ _)
  | transportTimeout armed =>
    rename_i id direction transport
    have reaped := reap_transport_aside (state.setPeer id { state.peer id with
      transportReapTimers :=
        Function.update (state.peer id).transportReapTimers direction none }) id direction
      transport
    exact inv.routers.aside ⟨reaped.slots, reaped.routers, reaped.calls⟩
  | transportDown known => exact inv.routers.aside (reap_transport_aside state _ _ _)
  | routerCreated known pending => exact inv.routers.created pending
  | routerRejected known pending => exact inv.routers.rejected pending
  | routerClose scheduled ready => exact inv.routers.close scheduled ready
  | ignored | forgotConsumer acts indexed absent | closeProducer acts held
  | producerClose isOpen ended => exact inv.routers

theorem closes_scheduled {state next : State} {event : Event}
    (taken : step config state event = some next)
    (standing : (state.routers.made router).closed = false)
    (closed : (next.routers.made router).closed = true) :
    ∃ roomCode, (roomCode, router) ∈ state.routers.closing := by
  have given : ∀ {roomCode routers other},
      state.routers.getOrCreateRouter config roomCode = some (routers, other) →
        (routers.made router).closed = true → (state.routers.made router).closed = true := by
    intro roomCode routers other given shut
    unfold Routers.getOrCreateRouter at given
    split at given
    · cases given
      exact shut
    · dsimp only at given
      split_ifs at given
      cases given
      dsimp only at shut
      rw [update_apply] at shut
      split_ifs at shut
      exact shut
  have kept : next.routers = state.routers → False := by
    intro same
    rw [same, standing] at closed
    cases closed
  cases step_cases taken with
  | slots sees moved =>
    rename_i event slots change
    have made : (state.changed slots change).routers.made = state.routers.made := by
      cases change with
      | none => rfl
      | resumed id => rfl
      | entered new old =>
        cases old with
        | none => rfl
        | some old => rfl
      | left id =>
        unfold State.changed State.handlePeerLeft Routers.emptied
        dsimp only
        split_ifs
        · split
          · rfl
          · rfl
        · rfl
    rw [made, standing] at closed
    cases closed
  | createTransport idle acts free makes =>
    rw [given makes closed] at standing
    cases standing
  | consume idle acts current new room makes =>
    rw [given makes closed] at standing
    cases standing
  | closeConsumer acts indexed present => exact (kept (unwatch_aside state _ _).routers).elim
  | transportMade waits op =>
    exact (kept (transport_made_aside config (state.ended _) _ _ _).routers).elim
  | produced waits op => exact (kept (produced_aside (state.ended _) _ _ _).routers).elim
  | consumed waits op => exact (kept (consumed_aside (state.ended _) _ _ _).routers).elim
  | transportTimeout armed => exact (kept (reap_transport_aside _ _ _ _).routers).elim
  | transportDown known => exact (kept (reap_transport_aside state _ _ _).routers).elim
  | routerCreated known pending =>
    rename_i other
    have same : ((state.routers.created other).made router).closed =
        (state.routers.made router).closed := field_update Router.closed (by rfl) router
    rw [same, standing] at closed
    cases closed
  | routerRejected known pending =>
    rename_i other
    have same : ((state.routers.rejected other).made router).closed =
        (state.routers.made router).closed := field_update Router.closed (by rfl) router
    rw [same, standing] at closed
    cases closed
  | routerClose scheduled ready =>
    rename_i roomCode other
    by_cases same : router = other
    · rw [same]
      exact ⟨roomCode, scheduled⟩
    · have kept : ((state.routers.close roomCode other).made router) =
          state.routers.made router := update_of_ne same _ _
      have shut : ((state.routers.close roomCode other).made router).closed = true := closed
      rw [kept, standing] at shut
      cases shut
  | _ => exact (kept rfl).elim

theorem RoutersInv.kept (inv : RoutersInv state) :
    RoutersKept config state := by
  refine ⟨?_, ?_, fun roomCode router get => (inv.routers.held roomCode router get).2.2.1, ?_⟩
  · intro event next taken router standing closed
    obtain ⟨roomCode, scheduled⟩ := closes_scheduled taken standing closed
    obtain ⟨empty, get⟩ := inv.routers.closing roomCode router scheduled
    have place := (inv.routers.held roomCode router get).2.1
    rw [place]
    by_contra some
    exact empty ((occupied_iff _ _).mp some)
  · intro call mem inside router awaits
    rcases inv.routers.awaited call mem inside router awaits with failed | get
    · by_contra shut
      have ready := inv.routers.closed router (eq_true_of_ne_false shut)
      rw [ready] at failed
      cases failed
    · exact (inv.routers.held _ router get).2.2.2
  · intro none roomCode present
    obtain ⟨router, get⟩ := ne_none_iff_exists'.mp present
    rcases inv.routers.rooms roomCode router get with occupied | scheduled
    · exact (occupied_iff _ _).mpr occupied
    · rw [none] at scheduled
      cases scheduled

/-- In every run in which no session enters a room whose router is to be closed, and none asks for
the router of a room without sessions, the routers are those of rooms. -/
theorem tidy_runs_keep_routers {config : Config} {events : List Event} {state : State}
    (meets : Meets (step config) (fun state event => keepsRouters config state event = true)
      State.start events)
    (reached : run (step config) State.start events = some state) :
    RoutersKept config state := by
  have inv : RoutersInv state :=
    run_keeps (fun _ _ _ inv keeps taken => inv.step keeps taken)
      ⟨Books.start, RouterBooks.start⟩ meets reached
  exact inv.kept

def emptiedCall : List Event :=
  [joinAs 0 "ann", .frame 0 (.createTransport .send), .slots (.closed 0 1000), .routerCreated 0,
    .routerClose "room" 0, .resolved 0 true, .resolved 0 true, joinAs 1 "bob",
    .frame 1 (.createTransport .recv), .routerRejected 1, .rejected 1]

theorem sample_routers : ∃ state, run (step sampleConfig) State.start emptiedCall = some state ∧
    RoutersKept sampleConfig state := by
  have ran : (run (step sampleConfig) State.start emptiedCall).isSome = true := by decide +kernel
  have meets : Meets (step sampleConfig)
      (fun state event => keepsRouters sampleConfig state event = true) State.start
        emptiedCall := by
    decide +kernel
  obtain ⟨state, reached⟩ := isSome_iff_exists.mp ran
  exact ⟨state, reached, tidy_runs_keep_routers meets reached⟩

def refilledCall : List Event :=
  [joinAs 0 "ann", .frame 0 (.createTransport .send), .slots (.closed 0 1000), joinAs 1 "bob",
    .routerCreated 0]

def queuedCall : List Event :=
  [joinAs 0 "ann", .slots (.join 1 "room" "ann" (some 0) false false), .slots (.closed 1 1000),
    .frame 0 (.createTransport .send), .routerCreated 0, .resolved 0 true, .resolved 0 true]

theorem misplaced_routers :
    (∃ state, run (step sampleConfig) State.start refilledCall = some state ∧
      ¬RoutersKept sampleConfig state) ∧
    ∃ state, run (step sampleConfig) State.start queuedCall = some state ∧
      ¬RoutersKept sampleConfig state := by
  constructor
  · have ran : (run (step sampleConfig) State.start refilledCall).map (fun state =>
        decide (state.slots.room "room" ≠ [] ∧ (state.routers.made 0).roomCode = "room" ∧
          (state.routers.made 0).closed = false) &&
        (step sampleConfig state (.routerClose "room" 0)).any fun next =>
          (next.routers.made 0).closed) = some true := by
      decide +kernel
    obtain ⟨state, reached, shown⟩ := map_eq_some_iff.mp ran
    refine ⟨state, reached, ?_⟩
    intro kept
    rw [Bool.and_eq_true] at shown
    obtain ⟨filled, place, standing⟩ := of_decide_eq_true shown.1
    obtain ⟨next, taken, closed⟩ := (any_eq_true _ _).mp shown.2
    exact filled (place ▸ kept.closes _ next taken 0 standing closed)
  · have ran : (run (step sampleConfig) State.start queuedCall).map (fun state =>
        decide (state.routers.closing = [] ∧ state.media.calls = [] ∧
          state.routers.routers.get "room" ≠ none ∧ state.slots.room "room" = [])) =
            some true := by
      decide +kernel
    obtain ⟨state, reached, shown⟩ := map_eq_some_iff.mp ran
    obtain ⟨settled, _, present, empty⟩ := of_decide_eq_true shown
    exact ⟨state, reached, fun kept => kept.held settled "room" present empty⟩

end AwfulChat.Sfu
