import AwfulChat.Inbound.Enrolled

/-!
# Why a room is held

`Standing` says what a room is held for, and `standing` reads it off the history
alone: the pushes into the room that were opened and have not ended, whether the
latest one to end ended short, and for each peer the latest digest it has not
answered. The class keeps the same in its room records. `Kept` is the agreement
of the two: the record under a room's name shows its standing, a room without a
record stands for nothing, and the holds asked for are those of rooms with one.
-/

namespace AwfulChat.Inbound

open Library SyncPush Library.OrderedMap List

set_option autoImplicit false

variable {Proc : Type}

@[ext]
structure Standing where
  openPushes : List Nat
  short : Bool
  unanswered : Peer → Option Nat

namespace Standing

def nothing : Standing where
  openPushes := []
  short := false
  unanswered := fun _ => none

/-- A push is open, the latest one ended short, or a digest is unanswered. -/
def Needed (standing : Standing) : Prop :=
  standing.openPushes ≠ [] ∨ standing.short = true ∨
    ∃ peer nonce, standing.unanswered peer = some nonce

def answer (standing : Standing) (peer : Peer) : Standing :=
  { standing with unanswered := Function.update standing.unanswered peer none }

/-- What one call changes in the standing of the room `name`. -/
def after (name : Room) (call : Call Proc) (standing : Standing) : Standing :=
  match call with
  | .opened push origin _ =>
    if origin.2 = name then { standing with openPushes := standing.openPushes ++ [push] }
    else standing
  | .ended push room completed =>
    if room = name then
      { standing with
        openPushes := standing.openPushes.filter fun other => decide (other ≠ push)
        short := !completed }
    else standing
  | .asked peer room nonce =>
    if room = name then
      { standing with unanswered := Function.update standing.unanswered peer (some nonce) }
    else standing
  | .answered peer room nonce =>
    if room = name ∧ (nonce = none ∨ nonce = standing.unanswered peer) then standing.answer peer
    else standing
  | .lapsed peer room nonce =>
    if room = name ∧ standing.unanswered peer = some nonce then standing.answer peer
    else standing
  | .reset => nothing
  | _ => standing

theorem not_needed_iff {standing : Standing} : ¬standing.Needed ↔ standing = nothing := by
  constructor
  · intro idle
    simp only [Needed, not_or, not_not, Bool.not_eq_true, not_exists] at idle
    obtain ⟨none, whole, answered⟩ := idle
    ext1
    · exact none
    · exact whole
    · funext peer
      cases found : standing.unanswered peer with
      | none => rfl
      | some nonce => exact absurd found (answered peer nonce)
  · rintro rfl
    simp [Needed, nothing]

end Standing

def standing (name : Room) (log : List (Call Proc)) : Standing :=
  log.foldr (Standing.after name) .nothing

/-- Whether a history asked to hold the room and has not let go of it since. -/
def heldAfter (name : Room) (call : Call Proc) (held : Bool) : Bool :=
  match call with
  | .hold room => decide (room = name) || held
  | .release _ room => !decide (room = name) && held
  | .reset => false
  | _ => held

def heldIn (name : Room) (log : List (Call Proc)) : Bool :=
  log.foldr (heldAfter name) false

/-- Nonces of digests only rise. -/
def Rising : List (Call Proc) → Prop
  | [] => True
  | call :: older =>
    (∀ peer room nonce, call = .asked peer room nonce →
      ∀ other place earlier, .asked other place earlier ∈ older → earlier < nonce) ∧
      Rising older

def RoomState.view (record : RoomState) : Standing where
  openPushes := record.openPushes
  short := record.owed
  unanswered := record.expecting.get

theorem RoomState.idle_iff {record : RoomState} :
    record.idle = true ↔ record.view = .nothing := by
  unfold RoomState.idle
  simp only [Bool.and_eq_true, List.isEmpty_iff, Bool.not_eq_true', beq_iff_eq,
    size_eq_zero]
  constructor
  · rintro ⟨⟨none, whole⟩, answered⟩
    ext1
    · exact none
    · exact whole
    · funext peer
      exact answered peer
  · intro same
    exact ⟨⟨congrArg Standing.openPushes same, congrArg Standing.short same⟩,
      fun peer => congrFun (congrArg Standing.unanswered same) peer⟩

/-- The standing the class keeps for a room. -/
def standingOf (state : State Proc) (name : Room) : Standing :=
  match state.rooms.get name with
  | some record => (state.record record).view
  | none => .nothing

/-- `loose` names a room whose record may stand for nothing while a step is
under way, `newcomer` a push that has not joined its room yet. -/
structure Kept (loose : Option Room) (newcomer : Option Nat) (state : State Proc) : Prop where
  fresh : ∀ name record, state.rooms.get name = some record → record < state.recordCount
  apart : ∀ left right record, state.rooms.get left = some record →
    state.rooms.get right = some record → left = right
  waits : ∀ wait ∈ state.waits, state.rooms.get wait.room = some wait.record ∧
    (state.record wait.record).expecting.get wait.peer = some wait.nonce
  agrees : ∀ name, standingOf state name = standing name state.log
  held : ∀ name, heldIn name state.log = (state.rooms.get name).isSome
  busy : ∀ name record, some name ≠ loose → state.rooms.get name = some record →
    (state.record record).idle = false
  alive : ∀ push < state.pushCount, some push ≠ newcomer → (state.push push).ended = false →
    push ∈ (standingOf state (state.push push).room).openPushes
  nonces : ∀ peer name nonce, .asked peer name nonce ∈ state.log → nonce ≤ state.nonces
  rising : Rising state.log

theorem kept_init : Kept none none (State.init Proc) where
  fresh := by
    intro name record found
    simp [State.init] at found
  apart := by
    intro left right record found
    simp [State.init] at found
  waits := by
    intro wait mem
    simp [State.init] at mem
  agrees := by
    intro name
    simp [standingOf, State.init, standing]
  held := by
    intro name
    simp [State.init, heldIn]
  busy := by
    intro name record _ found
    simp [State.init] at found
  alive := fun push bound => absurd bound (Nat.not_lt_zero push)
  nonces := by
    intro peer name nonce mem
    simp [State.init] at mem
  rising := trivial

/-- Calls that change neither a standing nor a hold. -/
def Neutral : Call Proc → Prop
  | .outcome _ _ _ => True
  | .commit _ _ _ _ => True
  | .owed _ _ _ => True
  | _ => False

/-- A change that is not about rooms. -/
structure Steady (before after : State Proc) : Prop where
  rooms : after.rooms = before.rooms
  record : after.record = before.record
  recordCount : after.recordCount = before.recordCount
  waits : after.waits = before.waits
  nonces : after.nonces = before.nonces
  pushCount : after.pushCount = before.pushCount
  room : ∀ push, (after.push push).room = (before.push push).room
  ended : ∀ push, (before.push push).ended = true → (after.push push).ended = true
  log : Grows Neutral before after

namespace Steady

variable {first second third : State Proc}

theorem refl (state : State Proc) : Steady state state :=
  ⟨rfl, rfl, rfl, rfl, rfl, rfl, fun _ => rfl, fun _ => id, Grows.refl state⟩

theorem trans (left : Steady first second) (right : Steady second third) : Steady first third where
  rooms := right.rooms.trans left.rooms
  record := right.record.trans left.record
  recordCount := right.recordCount.trans left.recordCount
  waits := right.waits.trans left.waits
  nonces := right.nonces.trans left.nonces
  pushCount := right.pushCount.trans left.pushCount
  room := fun push => (right.room push).trans (left.room push)
  ended := fun push past => right.ended push (left.ended push past)
  log := left.log.trans right.log

theorem of_push {before after : State Proc} (rooms : after.rooms = before.rooms)
    (record : after.record = before.record) (recordCount : after.recordCount = before.recordCount)
    (waits : after.waits = before.waits) (nonces : after.nonces = before.nonces)
    (pushCount : after.pushCount = before.pushCount) (push : after.push = before.push)
    (log : after.log = before.log) : Steady before after :=
  ⟨rooms, record, recordCount, waits, nonces, pushCount, fun _ => by rw [push],
    fun _ => by rw [push]; exact id, Grows.of_same log⟩

end Steady

section

variable {extra log : List (Call Proc)} (neutral : ∀ call ∈ extra, Neutral call)
include neutral

theorem standing_neutral (name : Room) : standing name (extra ++ log) = standing name log ∧
      heldIn name (extra ++ log) = heldIn name log := by
  induction extra with
  | nil => exact ⟨rfl, rfl⟩
  | cons call rest ih =>
    obtain ⟨sameStanding, sameHeld⟩ :=
      ih fun other mem => neutral other (mem_cons_of_mem call mem)
    have fine := neutral call mem_cons_self
    unfold standing heldIn at *
    rw [cons_append, foldr_cons, foldr_cons, sameStanding, sameHeld]
    cases call <;> first | exact fine.elim | exact ⟨rfl, rfl⟩

theorem rising_neutral (rising : Rising log) : Rising (extra ++ log) := by
  induction extra with
  | nil => exact rising
  | cons call rest ih =>
    refine ⟨?_, ih fun other mem => neutral other (mem_cons_of_mem call mem)⟩
    rintro peer room nonce rfl
    exact (neutral _ mem_cons_self).elim

end

section Keeping

variable {loose : Option Room} {newcomer : Option Nat} {state before after : State Proc}

theorem Kept.steady (kept : Kept loose newcomer before) (steady : Steady before after) :
    Kept loose newcomer after := by
  obtain ⟨extra, extended, neutral⟩ := steady.log
  have same : ∀ name, standingOf after name = standingOf before name := by
    intro name
    unfold standingOf
    rw [steady.rooms, steady.record]
  refine ⟨?_, ?_, ?_, ?_, ?_, ?_, ?_, ?_, ?_⟩
  · rw [steady.rooms, steady.recordCount]
    exact kept.fresh
  · rw [steady.rooms]
    exact kept.apart
  · rw [steady.waits, steady.rooms, steady.record]
    exact kept.waits
  · intro name
    rw [same, extended, (standing_neutral neutral name).1]
    exact kept.agrees name
  · intro name
    rw [extended, (standing_neutral neutral name).2, steady.rooms]
    exact kept.held name
  · rw [steady.rooms, steady.record]
    exact kept.busy
  · intro push bound notNew alive
    rw [steady.pushCount] at bound
    rw [same, steady.room]
    apply kept.alive push bound notNew
    by_contra past
    rw [steady.ended push (by simpa using past)] at alive
    cases alive
  · intro peer name nonce mem
    rw [steady.nonces]
    rcases steady.log.mem mem with old | new
    · exact kept.nonces peer name nonce old
    · exact new.elim
  · rw [extended]
    exact rising_neutral neutral kept.rising

theorem Kept.note_same (kept : Kept loose newcomer state) (call : Call Proc)
    (same : ∀ name, Standing.after name call (standingOf state name) = standingOf state name)
    (holds : ∀ name held, heldAfter name call held = held)
    (late : ∀ peer name nonce, call ≠ .asked peer name nonce) :
    Kept loose newcomer (note state call) where
  fresh := kept.fresh
  apart := kept.apart
  waits := kept.waits
  agrees := by
    intro name
    change standingOf state name = Standing.after name call (standing name state.log)
    rw [← kept.agrees, same]
  held := by
    intro name
    change heldAfter name call (heldIn name state.log) = _
    rw [holds]
    exact kept.held name
  busy := kept.busy
  alive := kept.alive
  nonces := by
    intro peer name nonce mem
    rcases mem_cons.mp mem with new | old
    · exact absurd new.symm (late peer name nonce)
    · exact kept.nonces peer name nonce old
  rising := by
    refine ⟨?_, kept.rising⟩
    intro peer name nonce asked
    exact absurd asked (late peer name nonce)

theorem standing_of_placed {name : Room} {record : Nat}
    (placed : state.rooms.get name = some record) :
    standingOf state name = (state.record record).view := by
  unfold standingOf
  rw [placed]

section

variable {name : Room} {record : Nat} {changed : RoomState} (kept : Kept loose newcomer before)
include kept

theorem Kept.standing_of_amended (placed : before.rooms.get name = some record)
    (rooms : after.rooms = before.rooms)
    (records : after.record = Function.update before.record record changed) (other : Room) :
    standingOf after other = if other = name then changed.view else standingOf before other := by
  unfold standingOf
  rw [rooms, records]
  by_cases hit : other = name
  · subst hit
    rw [placed, if_pos rfl]
    simp
  · rw [if_neg hit]
    cases found : before.rooms.get other with
    | none => rfl
    | some place =>
      have different : place ≠ record := by
        rintro rfl
        exact hit (kept.apart other name place found placed)
      simp [Function.update_of_ne different]

theorem Kept.amend
    (loosened : loose = none ∨ loose = some name)
    (placed : before.rooms.get name = some record) {call : Call Proc}
    {joining : Option Nat} (rooms : after.rooms = before.rooms)
    (records : after.record = Function.update before.record record changed)
    (recordCount : after.recordCount = before.recordCount)
    (log : after.log = call :: before.log)
    (effect : Standing.after name call (before.record record).view = changed.view)
    (elsewhere : ∀ other standing, other ≠ name → Standing.after other call standing = standing)
    (holds : ∀ other held, heldAfter other call held = held)
    (waits : ∀ wait ∈ after.waits, before.rooms.get wait.room = some wait.record ∧
      (Function.update before.record record changed wait.record).expecting.get wait.peer =
        some wait.nonce)
    (alive : ∀ push < after.pushCount, some push ≠ joining → (after.push push).ended = false →
      push ∈ (if (after.push push).room = name then changed.view
        else standingOf before (after.push push).room).openPushes)
    (nonces : before.nonces ≤ after.nonces)
    (asked : ∀ peer room nonce, call = .asked peer room nonce →
      before.nonces < nonce ∧ nonce ≤ after.nonces) :
    Kept (some name) joining after := by
  have shows := kept.standing_of_amended placed rooms records
  refine ⟨?_, ?_, ?_, ?_, ?_, ?_, ?_, ?_, ?_⟩
  · rw [rooms, recordCount]
    exact kept.fresh
  · rw [rooms]
    exact kept.apart
  · rw [rooms, records]
    exact waits
  · intro other
    rw [shows, log]
    change _ = Standing.after other call (standing other before.log)
    rw [← kept.agrees]
    split_ifs with hit
    · subst hit
      rw [standing_of_placed placed, effect]
    · rw [elsewhere other _ hit]
  · intro other
    rw [log, rooms]
    change heldAfter other call (heldIn other before.log) = _
    rw [holds]
    exact kept.held other
  · intro other place tight found
    rw [rooms] at found
    have different : place ≠ record := by
      rintro rfl
      exact tight (congrArg some (kept.apart other name place found placed))
    rw [records, Function.update_of_ne different]
    apply kept.busy other place _ found
    rcases loosened with rfl | rfl
    · simp
    · exact tight
  · intro push bound notNew unended
    rw [shows]
    exact alive push bound notNew unended
  · intro peer room nonce mem
    rw [log] at mem
    rcases mem_cons.mp mem with new | old
    · exact (asked peer room nonce new.symm).2
    · exact le_trans (kept.nonces peer room nonce old) nonces
  · rw [log]
    refine ⟨?_, kept.rising⟩
    intro peer room nonce new other place earlier old
    exact lt_of_le_of_lt (kept.nonces other place earlier old) (asked peer room nonce new).1

end

theorem Kept.tighten {name : Room} (kept : Kept (some name) newcomer state)
    (stands : ∀ record, state.rooms.get name = some record → (state.record record).idle = false) :
    Kept none newcomer state := by
  refine ⟨kept.fresh, kept.apart, kept.waits, kept.agrees, kept.held, ?_, kept.alive, kept.nonces,
    kept.rising⟩
  intro other record _ found
  by_cases hit : other = name
  · subst hit
    exact stands record found
  · exact kept.busy other record (by simpa using hit) found

theorem Kept.settle {name : Room} (kept : Kept (some name) newcomer state) (cause : Option Nat) :
    Kept none newcomer (settle state name cause) := by
  unfold Inbound.settle
  split_ifs with free
  · obtain ⟨record, placed, idle⟩ : ∃ record, state.rooms.get name = some record ∧
        (state.record record).idle = true := by
      unfold settles at free
      split at free
      · rename_i record placed
        exact ⟨record, placed, free⟩
      · cases free
    have nothing := RoomState.idle_iff.mp idle
    have shows : ∀ other, standingOf (note { state with rooms := state.rooms.delete name }
        (.release cause name)) other = standingOf state other := by
      intro other
      unfold standingOf
      simp only [note, get_delete]
      by_cases hit : other = name
      · subst hit
        rw [if_pos rfl, placed]
        exact nothing.symm
      · rw [if_neg hit]
    refine ⟨?_, ?_, ?_, ?_, ?_, ?_, ?_, ?_, ?_⟩
    · intro other place found
      simp only [note, get_delete] at found
      split_ifs at found
      exact kept.fresh other place found
    · intro left right place leftFound rightFound
      simp only [note, get_delete] at leftFound rightFound
      split_ifs at leftFound
      split_ifs at rightFound
      exact kept.apart left right place leftFound rightFound
    · intro wait mem
      obtain ⟨found, waiting⟩ := kept.waits wait mem
      refine ⟨?_, waiting⟩
      simp only [note, get_delete]
      rw [if_neg]
      · exact found
      · intro same
        rw [same, placed] at found
        cases found
        have none : (state.record wait.record).expecting.get wait.peer = none :=
          congrFun (congrArg Standing.unanswered nothing) wait.peer
        rw [none] at waiting
        cases waiting
    · intro other
      rw [shows]
      exact kept.agrees other
    · intro other
      simp only [note, get_delete]
      change heldAfter other (.release cause name : Call Proc) (heldIn other state.log) = _
      by_cases hit : other = name
      · subst hit
        simp [heldAfter]
      · rw [if_neg hit, ← kept.held other]
        have miss : ¬name = other := fun same => hit same.symm
        simp [heldAfter, miss]
    · intro other place _ found
      simp only [note, get_delete] at found
      split_ifs at found with hit
      exact kept.busy other place (by simpa using hit) found
    · intro push bound notNew alive
      rw [shows]
      exact kept.alive push bound notNew alive
    · intro peer room nonce mem
      rcases mem_cons.mp mem with new | old
      · cases new
      · exact kept.nonces peer room nonce old
    · refine ⟨?_, kept.rising⟩
      intro _ _ _ same
      cases same
  · apply kept.tighten
    intro record found
    unfold settles at free
    rw [found] at free
    simpa using free

theorem Kept.room (kept : Kept none newcomer state) (name : Room) :
    Kept (some name) newcomer (room state name).2 ∧
      (room state name).2.rooms.get name = some (room state name).1 ∧
        ∀ other, standingOf (room state name).2 other = standingOf state other := by
  have rising : ∀ log : List (Call Proc), Rising log → Rising (.hold name :: log) := by
    intro log old
    refine ⟨?_, old⟩
    nofun
  unfold Inbound.room
  split
  · rename_i record placed
    refine ⟨⟨kept.fresh, kept.apart, kept.waits, kept.agrees, ?_, ?_, kept.alive, ?_,
      rising _ kept.rising⟩, placed, fun _ => rfl⟩
    · intro other
      change heldAfter other (.hold name : Call Proc) (heldIn other state.log) = _
      by_cases hit : name = other
      · subst hit
        simp [heldAfter, note, placed]
      · simp only [heldAfter, hit, decide_false, Bool.false_or]
        exact kept.held other
    · intro other place _ found
      exact kept.busy other place (by simp) found
    · intro peer place nonce mem
      rcases mem_cons.mp mem with new | old
      · cases new
      · exact kept.nonces peer place nonce old
  · rename_i missing
    have old : ∀ other place, state.rooms.get other = some place → place ≠ state.recordCount :=
      fun other place found => Nat.ne_of_lt (kept.fresh other place found)
    have shows : ∀ other, standingOf (note
        { state with
          rooms := state.rooms.set name state.recordCount
          record := Function.update state.record state.recordCount RoomState.fresh
          recordCount := state.recordCount + 1 } (.hold name)) other = standingOf state other := by
      intro other
      unfold standingOf
      simp only [note, get_set]
      by_cases hit : other = name
      · subst hit
        rw [if_pos rfl, missing]
        simp only [Function.update_self]
        rfl
      · rw [if_neg hit]
        cases found : state.rooms.get other with
        | none => rfl
        | some place => simp [Function.update_of_ne (old other place found)]
    refine ⟨⟨?_, ?_, ?_, ?_, ?_, ?_, ?_, ?_, rising _ kept.rising⟩, by simp [note], shows⟩
    · intro other place found
      simp only [note, get_set] at found ⊢
      split_ifs at found
      · cases found
        exact Nat.lt_succ_self _
      · exact Nat.lt_succ_of_lt (kept.fresh other place found)
    · intro left right place leftFound rightFound
      simp only [note, get_set] at leftFound rightFound
      split_ifs at leftFound rightFound with leftHit rightHit rightHit
      · rw [leftHit, rightHit]
      · cases leftFound
        exact absurd rfl (old right _ rightFound)
      · cases rightFound
        exact absurd rfl (old left _ leftFound)
      · exact kept.apart left right place leftFound rightFound
    · intro wait mem
      obtain ⟨found, waiting⟩ := kept.waits wait mem
      simp only [note, get_set]
      rw [if_neg, Function.update_of_ne (old wait.room wait.record found)]
      · exact ⟨found, waiting⟩
      · intro same
        rw [same, missing] at found
        cases found
    · intro other
      rw [shows]
      exact kept.agrees other
    · intro other
      simp only [note, get_set]
      change heldAfter other (.hold name : Call Proc) (heldIn other state.log) = _
      by_cases hit : other = name
      · subst hit
        simp [heldAfter]
      · have miss : ¬name = other := fun same => hit same.symm
        rw [if_neg hit, ← kept.held other]
        simp [heldAfter, miss]
    · intro other place tight found
      simp only [note, get_set] at found
      split_ifs at found with hit
      · exact absurd (congrArg some hit) tight
      · simp only [note, Function.update_of_ne (old other place found)]
        exact kept.busy other place (by simp) found
    · intro push bound notNew alive
      rw [shows]
      exact kept.alive push bound notNew alive
    · intro peer place nonce mem
      rcases mem_cons.mp mem with new | earlier
      · cases new
      · exact kept.nonces peer place nonce earlier

end Keeping

section Waits

variable {state : State Proc}

theorem clear_before_waits (state : State Proc) (record : Nat) (peer : Peer) :
    ∃ waits, clearBefore state record peer = { state with waits := waits } ∧
      ∀ wait ∈ waits, wait ∈ state.waits ∧
        ∀ before, (state.record record).expecting.get peer = some before → wait.nonce ≠ before := by
  unfold clearBefore
  cases found : (state.record record).expecting.get peer with
  | none => exact ⟨state.waits, rfl, fun wait mem => ⟨mem, by simp⟩⟩
  | some before =>
    refine ⟨_, rfl, ?_⟩
    intro wait mem
    simp only [mem_filter, decide_eq_true_eq] at mem
    refine ⟨mem.1, ?_⟩
    rintro other ⟨⟩
    exact mem.2

theorem view_answer (record : RoomState) (peer : Peer) :
    { record with expecting := record.expecting.delete peer }.view = record.view.answer peer := by
  ext1
  · rfl
  · rfl
  · funext other
    simp only [RoomState.view, Standing.answer, get_delete, Function.update_apply]

theorem view_ask (record : RoomState) (peer : Peer) (nonce : Nat) :
    { record with expecting := record.expecting.set peer nonce }.view =
      { record.view with unanswered := Function.update record.view.unanswered peer (some nonce) } := by
  ext1
  · rfl
  · rfl
  · funext other
    simp only [RoomState.view, get_set, Function.update_apply]

section

variable (kept : Kept none none state)
include kept

theorem Kept.expect (peer : Peer) (name : Room) :
    Kept none none (expect state peer name).2 := by
  obtain ⟨held, placed, -⟩ := kept.room name
  obtain ⟨waits, cleared, fewer⟩ :=
    clear_before_waits (Inbound.room state name).2 (Inbound.room state name).1 peer
  unfold Inbound.expect
  dsimp only
  rw [cleared]
  have asked : Kept (some name) none (note
      (updateRecord
        { (Inbound.room state name).2 with
          nonces := (Inbound.room state name).2.nonces + 1
          waits := { record := (Inbound.room state name).1, room := name, peer := peer,
                     nonce := (Inbound.room state name).2.nonces + 1 } :: waits }
        (Inbound.room state name).1 fun current =>
          { current with
            expecting := current.expecting.set peer ((Inbound.room state name).2.nonces + 1) })
      (.asked peer name ((Inbound.room state name).2.nonces + 1))) := by
    refine held.amend (Or.inr rfl) placed rfl rfl rfl rfl ?_ ?_ (fun _ _ => rfl) ?_ ?_
      (Nat.le_succ _) ?_
    · rw [view_ask]
      simp [Standing.after]
    · intro other standing different
      simp only [Standing.after]
      rw [if_neg fun same => different same.symm]
    · intro wait mem
      rcases mem_cons.mp mem with rfl | old
      · exact ⟨placed, by simp⟩
      · obtain ⟨listed, replaced⟩ := fewer wait old
        obtain ⟨found, waiting⟩ := held.waits wait listed
        refine ⟨found, ?_⟩
        by_cases hit : wait.record = (Inbound.room state name).1
        · rw [hit] at waiting ⊢
          rw [Function.update_self]
          rw [get_set_other]
          · exact waiting
          · intro same
            rw [same] at waiting
            exact replaced wait.nonce waiting rfl
        · rw [Function.update_of_ne hit]
          exact waiting
    · intro push bound notNew alive
      have old := held.alive push bound notNew alive
      split_ifs with hit
      · have sameRoom : ((Inbound.room state name).2.push push).room = name := hit
        rw [sameRoom, standing_of_placed placed] at old
        exact old
      · exact old
    · rintro _ _ _ ⟨⟩
      exact ⟨Nat.lt_succ_self _, le_refl _⟩
  apply asked.tighten
  intro record found
  have same : (Inbound.room state name).2.rooms.get name = some record := found
  rw [placed] at same
  cases same
  by_contra idle
  have nothing := RoomState.idle_iff.mp (by simpa using idle)
  have none := congrFun (congrArg Standing.unanswered nothing) peer
  simp [note, updateRecord, RoomState.view, Standing.nothing] at none

theorem Kept.drop_wait {name : Room} {record : Nat} {peer : Peer}
    {nonce : Nat} (placed : state.rooms.get name = some record)
    (waiting : (state.record record).expecting.get peer = some nonce) {call : Call Proc}
    (effect : Standing.after name call (state.record record).view =
      (state.record record).view.answer peer)
    (elsewhere : ∀ other standing, other ≠ name → Standing.after other call standing = standing)
    (holds : ∀ other held, heldAfter other call held = held)
    (late : ∀ peer room nonce, call ≠ .asked peer room nonce) :
    Kept none none (endWait (clearWait (note state call) nonce) record peer name) := by
  unfold endWait
  apply Kept.settle
  refine kept.amend (Or.inl rfl) placed rfl rfl rfl rfl ?_ elsewhere holds ?_ ?_ (le_refl _) ?_
  · rw [effect]
    exact (view_answer _ peer).symm
  · intro wait mem
    have kind : wait ∈ state.waits ∧ wait.nonce ≠ nonce := by
      simpa [clearWait, updateRecord, note] using mem
    obtain ⟨found, armed⟩ := kept.waits wait kind.1
    refine ⟨found, ?_⟩
    by_cases hit : wait.record = record
    · rw [hit] at armed ⊢
      rw [Function.update_self, get_delete_other]
      · exact armed
      · intro same
        rw [same, waiting] at armed
        cases armed
        exact kind.2 rfl
    · rw [Function.update_of_ne hit]
      exact armed
  · intro push bound notNew alive
    have old := kept.alive push bound notNew alive
    split_ifs with hit
    · have sameRoom : (state.push push).room = name := hit
      rw [sameRoom, standing_of_placed placed] at old
      exact old
    · exact old
  · intro other place earlier asked
    exact absurd asked (late other place earlier)

theorem Kept.answered (peer : Peer) (name : Room)
    (nonce : Option Nat) : Kept none none (answered state peer name nonce) := by
  have late : ∀ other place earlier,
      (Call.answered peer name nonce : Call Proc) ≠ .asked other place earlier := by
    nofun
  have told : (∀ other, Standing.after other (.answered peer name nonce : Call Proc)
      (standingOf state other) = standingOf state other) →
        Kept none none (note state (.answered peer name nonce)) := by
    intro same
    exact kept.note_same _ same (fun _ _ => rfl) late
  have unmoved : ∀ record : Standing, record.unanswered peer = none → record.answer peer = record := by
    intro record missing
    ext1
    · rfl
    · rfl
    · simp only [Standing.answer]
      rw [← missing, Function.update_eq_self]
  have quiet : ∀ other, (name = other → (standingOf state name).unanswered peer = none) →
      Standing.after other (.answered peer name nonce : Call Proc) (standingOf state other) =
        standingOf state other := by
    intro other missing
    simp only [Standing.after]
    split_ifs with hit
    · obtain ⟨rfl, -⟩ := hit
      exact unmoved _ (missing rfl)
    · rfl
  unfold Inbound.answered
  dsimp only
  cases placed : (note state (.answered peer name nonce)).rooms.get name with
  | none =>
    apply told
    intro other
    apply quiet
    intro _
    have missing : state.rooms.get name = none := placed
    simp [standingOf, missing, Standing.nothing]
  | some record =>
    have found : state.rooms.get name = some record := placed
    have shows := standing_of_placed found
    dsimp only
    cases waiting : ((note state (.answered peer name nonce)).record record).expecting.get peer with
    | none =>
      apply told
      intro other
      apply quiet
      intro _
      rw [shows]
      exact waiting
    | some current =>
      have armed : (state.record record).expecting.get peer = some current := waiting
      dsimp only
      split_ifs with other
      · apply told
        intro place
        simp only [Standing.after]
        rw [if_neg]
        rintro ⟨rfl, none | same⟩
        · exact other.1 none
        · rw [shows] at same
          exact other.2 (same.trans armed)
      · apply kept.drop_wait found armed
        · simp only [Standing.after]
          rw [if_pos]
          refine ⟨trivial, ?_⟩
          have match_ : (state.record record).view.unanswered peer = some current := armed
          rw [match_]
          tauto
        · intro place standing different
          simp only [Standing.after]
          rw [if_neg fun hit => different hit.1.symm]
        · exact fun _ _ => rfl
        · exact late

theorem Kept.expect_timer {wait : Wait}
    (armed : wait ∈ state.waits) : Kept none none (expectTimer state wait) := by
  obtain ⟨found, waiting⟩ := kept.waits wait armed
  have fires : ((clearWait state wait.nonce).record wait.record).expecting.get wait.peer =
      some wait.nonce := waiting
  unfold expectTimer
  dsimp only
  rw [if_pos fires]
  have dropped : Kept none none (endWait
      (clearWait (note state (.lapsed wait.peer wait.room wait.nonce)) wait.nonce)
      wait.record wait.peer wait.room) := by
    apply kept.drop_wait found waiting
    · simp only [Standing.after]
      rw [if_pos]
      exact ⟨trivial, waiting⟩
    · intro place standing different
      simp only [Standing.after]
      rw [if_neg fun hit => different hit.1.symm]
    · exact fun _ _ => rfl
    · nofun
  exact dropped

end

end Waits

end AwfulChat.Inbound
