import AwfulChat.Library.Runs
import Mathlib.Data.Finset.Card

/-!
# Admission of message requests

`ensureDmRoomForPeer`, `_admissionView`, `_admitUnsolicited` and `_joinDm` of
`dm.svelte.ts` for people who are neither trusted nor in a room with us, and
`dropDmIfEmpty`. Every await of a call is a point where another call can go on; only
admissions run one at a time. A conversation that is stored and not a request is joined as
it is and takes part in none of this. A view keeps the requests it counted, of which the
source has the number.
-/

namespace AwfulChat.DmAdmission

open Library List

set_option autoImplicit false

def MAX_DM_REQUESTS : Nat := 20

def MAX_UNSOLICITED_DMS : Nat := 64

def REQUEST_SETTLE_MS : Nat := 60000

def ADMISSION_VIEW_MS : Nat := 1000

/-- A stored request. -/
structure Row where
  room : Nat
  createdAt : Nat
  deriving DecidableEq

structure View where
  generation : Nat
  since : Nat
  counted : List Nat
  deriving DecidableEq

/-- Where a call waits. `chargedBefore` is what it remembers of the session's charges. -/
inductive Stage
  | looked (existing : Bool)
  | queued (chargedBefore : Bool)
  | admitted (chargedBefore : Bool)
  | built (chargedBefore : Bool) (createdAt : Nat)
  /-- The record is in storage, the call does not know yet. -/
  | landed
  /-- `_admissionChanged` ran, the slot is still held. -/
  | changed
  deriving DecidableEq

structure Call where
  room : Nat
  provisional : Bool
  stage : Stage
  deriving DecidableEq

/-- The admission whose turn it is. `unasked` are the rows `getAllRooms` answered that have
not been looked into for messages. -/
structure Reading where
  room : Nat
  provisional : Bool
  chargedBefore : Bool
  generation : Nat
  since : Nat
  unasked : Option (List Row)
  counted : List Nat
  deriving DecidableEq

structure Admission where
  now : Nat
  rows : List Row
  written : List Nat
  charged : Finset Nat
  requestsInFlight : Finset Nat
  generation : Nat
  cached : Option View
  reading : Option Reading
  calls : List Call
  undoing : List Nat
  deriving DecidableEq

inductive Event
  | tick (millis : Nat)
  /-- `getRoom` answers a call. -/
  | look (room : Nat) (provisional : Bool)
  /-- A call joins what is stored or joined already, and ends. -/
  | leave (call : Call)
  | enter (call : Call)
  /-- The admission of a queued call starts. -/
  | begin (call : Call)
  /-- `getAllRooms` answers it. -/
  | readRooms
  /-- `_holdsMessages` answers for the next request. -/
  | ask
  | readFails
  | verdict
  /-- The join is over and the record is made. -/
  | build (call : Call)
  | land (call : Call)
  | change (call : Call)
  | release (call : Call)
  | fail (call : Call)
  /-- A message is stored in a conversation. -/
  | write (room : Nat)
  /-- `dropDmIfEmpty` found no message. -/
  | undo (room : Nat)
  | undoLands (room : Nat)
  | undoEnds (room : Nat)
  deriving DecidableEq

def young (now : Nat) (row : Row) : Bool := now - row.createdAt < REQUEST_SETTLE_MS

def Admission.takesSlot (state : Admission) (row : Row) : Bool :=
  young state.now row || decide (row.room ∈ state.written)

def Admission.stored (state : Admission) (room : Nat) : Prop := room ∈ state.rows.map Row.room

instance (state : Admission) (room : Nat) : Decidable (state.stored room) :=
  inferInstanceAs (Decidable (room ∈ state.rows.map Row.room))

/-- The stored requests that hold a message or were made a moment ago. -/
def Admission.heldRequests (state : Admission) : Finset Nat :=
  ((state.rows.filter state.takesSlot).map Row.room).toFinset

/-- Admitted, with the store still to come. -/
def Call.unstored (call : Call) : Bool :=
  match call.stage with
  | .admitted _ => true
  | .built _ _ => true
  | _ => false

/-- Between its admission and the release of its slot. -/
def Call.slotted (call : Call) : Bool :=
  match call.stage with
  | .looked _ => false
  | .queued _ => false
  | _ => true

def Admission.admittedRooms (state : Admission) : Finset Nat :=
  ((state.calls.filter Call.unstored).map Call.room).toFinset

def putRoom (rows : List Row) (row : Row) : List Row :=
  rows.filter (fun other => decide (other.room ≠ row.room)) ++ [row]

def deleteRoom (rows : List Row) (room : Nat) : List Row :=
  rows.filter fun other => decide (other.room ≠ room)

def Admission.move (state : Admission) (call : Call) (stage : Stage) : Admission :=
  { state with calls := { call with stage := stage } :: state.calls.erase call }

def Admission.drop (state : Admission) (call : Call) : Admission :=
  { state with calls := state.calls.erase call }

/-- `_admissionView` up to its first await: the cached view, or a read from storage. -/
def Admission.begin (state : Admission) (call : Call) (chargedBefore : Bool) : Admission :=
  let fresh : Reading :=
    ⟨call.room, call.provisional, chargedBefore, state.generation, state.now, none, []⟩
  let reading : Reading :=
    match state.cached with
    | none => fresh
    | some view =>
      if view.generation = state.generation ∧ state.now - view.since < ADMISSION_VIEW_MS then
        { fresh with since := view.since, unasked := some [], counted := view.counted }
      else fresh
  { state.drop call with reading := some reading }

def Admission.ask (state : Admission) (reading : Reading) (row : Row) (rest : List Row) :
    Admission :=
  let taken := young reading.since row || decide (row.room ∈ state.written)
  { state with
    reading := some { reading with
      unasked := some rest
      counted := if taken then row.room :: reading.counted else reading.counted } }

def Admission.full (state : Admission) (reading : Reading) : Bool :=
  if reading.room ∉ state.charged ∧ MAX_UNSOLICITED_DMS ≤ state.charged.card then true
  else if reading.room ∈ state.requestsInFlight then false
  else decide (MAX_DM_REQUESTS ≤ reading.counted.length + state.requestsInFlight.card)

/-- `_admitUntrusted`, with the view it rests on kept for the next admission. -/
def Admission.admitUntrusted (state : Admission) (reading : Reading) : Admission :=
  let viewed : Admission := { state with
    cached := some ⟨reading.generation, reading.since, reading.counted⟩
    reading := none }
  if state.full reading ∨ reading.provisional then viewed
  else
    let admitted : Admission :=
      { viewed with calls := ⟨reading.room, false, .admitted reading.chargedBefore⟩ :: state.calls }
    if reading.room ∈ state.requestsInFlight then admitted
    else { admitted with
      requestsInFlight := insert reading.room state.requestsInFlight
      charged := insert reading.room state.charged }

/-- The catch and the finally of `ensureDmRoomForPeer`. -/
def Admission.fail (state : Admission) (call : Call) (chargedBefore : Bool) : Admission :=
  { state.drop call with
    charged := if chargedBefore then state.charged else state.charged.erase call.room
    requestsInFlight := state.requestsInFlight.erase call.room }

def stepCall (state : Admission) (call : Call) : Event → Option Admission
  | .leave _ =>
    match call.stage with
    | .looked existing => if existing || call.provisional then some (state.drop call) else none
    | _ => none
  | .enter _ =>
    match call.stage with
    | .looked false => some (state.move call (.queued (call.room ∈ state.charged)))
    | _ => none
  | .begin _ =>
    match call.stage with
    | .queued chargedBefore =>
      if state.reading = none then some (state.begin call chargedBefore) else none
    | _ => none
  | .build _ =>
    match call.stage with
    | .admitted chargedBefore => some (state.move call (.built chargedBefore state.now))
    | _ => none
  | .land _ =>
    match call.stage with
    | .built _ createdAt =>
      some { state.move call .landed with rows := putRoom state.rows ⟨call.room, createdAt⟩ }
    | _ => none
  | .change _ =>
    match call.stage with
    | .landed => some { state.move call .changed with generation := state.generation + 1 }
    | _ => none
  | .release _ =>
    match call.stage with
    | .changed =>
      some { state.drop call with requestsInFlight := state.requestsInFlight.erase call.room }
    | _ => none
  | .fail _ =>
    match call.stage with
    | .admitted chargedBefore => some (state.fail call chargedBefore)
    | .built chargedBefore _ => some (state.fail call chargedBefore)
    | _ => none
  | _ => none

def stepReading (state : Admission) (reading : Reading) : Event → Option Admission
  | .readRooms =>
    if reading.unasked = none then
      some { state with reading := some { reading with unasked := some state.rows } }
    else none
  | .ask =>
    match reading.unasked with
    | some (row :: rest) => some (state.ask reading row rest)
    | _ => none
  | .readFails => some { state with reading := none }
  | .verdict => if reading.unasked = some [] then some (state.admitUntrusted reading) else none
  | _ => none

def Event.call : Event → Option Call
  | .leave call => some call
  | .enter call => some call
  | .begin call => some call
  | .build call => some call
  | .land call => some call
  | .change call => some call
  | .release call => some call
  | .fail call => some call
  | _ => none

def step (state : Admission) (event : Event) : Option Admission :=
  match event with
  | .tick millis => some { state with now := state.now + millis }
  | .look room provisional =>
    some { state with calls := ⟨room, provisional, .looked (state.stored room)⟩ :: state.calls }
  | .write room => some { state with written := room :: state.written }
  | .undo room =>
    if state.stored room ∧ room ∉ state.written then
      some { state with undoing := room :: state.undoing }
    else none
  | .undoLands room =>
    if room ∈ state.undoing then some { state with rows := deleteRoom state.rows room } else none
  | .undoEnds room =>
    if room ∈ state.undoing then
      some { state with
        undoing := state.undoing.erase room
        charged := state.charged.erase room
        generation := state.generation + 1 }
    else none
  | event =>
    match event.call, state.reading with
    | some call, _ => if call ∈ state.calls then stepCall state call event else none
    | none, some reading => stepReading state reading event
    | none, none => none

def Reading.takes (reading : Reading) (unasked : List Row) (written : List Nat) (room : Nat) :
    Prop :=
  room ∈ reading.counted ∨
    ∃ row ∈ unasked, row.room = room ∧ (young reading.since row = true ∨ room ∈ written)

instance (reading : Reading) (unasked : List Row) (written : List Nat) (room : Nat) :
    Decidable (reading.takes unasked written room) := inferInstanceAs (Decidable (_ ∨ _))

def Admission.alone (state : Admission) (call : Call) : Prop :=
  ∀ other ∈ state.calls.erase call, other.slotted = true → other.room ≠ call.room

instance (state : Admission) (call : Call) : Decidable (state.alone call) :=
  inferInstanceAs (Decidable (∀ _, _))

/-- The admission under way, if it has read the rooms, counts the request or will. -/
def Admission.seen (state : Admission) (room : Nat) : Prop :=
  ∀ reading ∈ state.reading, ∀ unasked ∈ reading.unasked,
    room ∈ state.heldRequests → reading.takes unasked state.written room

instance (state : Admission) (room : Nat) : Decidable (state.seen room) :=
  match found : state.reading with
  | none => isTrue (by simp [Admission.seen, found])
  | some reading =>
    match asked : reading.unasked with
    | none => isTrue (by simp [Admission.seen, found, asked])
    | some unasked =>
      decidable_of_iff
        (room ∈ state.heldRequests → reading.takes unasked state.written room)
        (by simp [Admission.seen, found, asked])

/-- A slot is given back only by the last call that holds it, and not while an admission
is under way that read the rooms before this request was stored; a charge that a call found
is still there when the call is admitted; a message comes to a request that has its slot. -/
def Orderly (state : Admission) : Event → Prop
  | .release call => state.alone call ∧ state.seen call.room
  | .fail call => state.alone call
  | .verdict => ∀ reading ∈ state.reading,
      reading.chargedBefore = true → reading.room ∈ state.charged
  | .write room => state.stored room → room ∈ state.heldRequests
  | _ => True

instance (state : Admission) : DecidablePred (Orderly state)
  | .release call => inferInstanceAs (Decidable (_ ∧ _))
  | .fail call => inferInstanceAs (Decidable (state.alone call))
  | .verdict =>
    match found : state.reading with
    | none => isTrue (by simp [Orderly, found])
    | some reading =>
      decidable_of_iff (reading.chargedBefore = true → reading.room ∈ state.charged)
        (by simp [Orderly, found])
  | .write room => inferInstanceAs (Decidable (_ → _))
  | .tick _ | .look _ _ | .leave _ | .enter _ | .begin _ | .readRooms | .ask | .readFails
  | .build _ | .land _ | .change _ | .undo _ | .undoLands _ | .undoEnds _ => isTrue trivial

/-- The caps, and nothing left behind by a conversation that is neither stored nor being
made or undone. -/
structure Caps (state : Admission) : Prop where
  requests : (state.heldRequests ∪ state.admittedRooms).card ≤ MAX_DM_REQUESTS
  conversations : state.charged.card ≤ MAX_UNSOLICITED_DMS
  leftovers : ∀ room, ¬ state.stored room → room ∉ state.undoing →
    (∀ call ∈ state.calls, call.room = room → call.slotted = false) →
      room ∉ state.requestsInFlight ∧ room ∉ state.charged

/-- A session that has just started, over the requests earlier ones stored. -/
def Admission.start (now : Nat) (rows : List Row) (written : List Nat) : Admission :=
  ⟨now, rows, written, ∅, ∅, 0, none, none, [], []⟩

variable {state : Admission} {room : Nat} {calls : List Call} {call : Call} {reading : Reading}
  {chargedBefore : Bool} {stage : Call → Bool}

theorem mem_held :
    room ∈ state.heldRequests ↔ ∃ row ∈ state.rows, state.takesSlot row = true ∧ row.room = room := by
  simp [Admission.heldRequests, and_assoc]

theorem mem_admitted :
    room ∈ state.admittedRooms ↔ ∃ call ∈ state.calls, call.unstored = true ∧ call.room = room := by
  simp [Admission.admittedRooms, and_assoc]

theorem held_stored (held : room ∈ state.heldRequests) :
    state.stored room := by
  obtain ⟨row, listed, _, rfl⟩ := mem_held.mp held
  exact mem_map_of_mem listed

def Has (stage : Call → Bool) (calls : List Call) (room : Nat) : Prop :=
  ∃ call ∈ calls, stage call = true ∧ call.room = room

def Call.fresh (call : Call) : Bool := decide (call.stage = .landed)

def Call.settling (call : Call) : Bool := decide (call.stage = .landed ∨ call.stage = .changed)

def Call.owes (call : Call) : Bool :=
  match call.stage with
  | .admitted chargedBefore => !chargedBefore
  | .built chargedBefore _ => !chargedBefore
  | _ => false

theorem Has.mono {stage wider : Call → Bool} (has : Has stage calls room)
    (implied : ∀ call, stage call = true → wider call = true) :
    Has wider calls room := by
  obtain ⟨call, listed, at_, same⟩ := has
  exact ⟨call, listed, implied call at_, same⟩

theorem Has.cons (has : Has stage calls room) (added : Call) : Has stage (added :: calls) room := by
  obtain ⟨call, listed, at_, same⟩ := has
  exact ⟨call, mem_cons_of_mem _ listed, at_, same⟩

theorem Has.of_erase (has : Has stage (calls.erase call) room) : Has stage calls room := by
  obtain ⟨other, listed, at_, same⟩ := has
  exact ⟨other, mem_of_mem_erase listed, at_, same⟩

theorem Has.erase (has : Has stage calls room) (apart : stage call = false ∨ call.room ≠ room) :
    Has stage (calls.erase call) room := by
  obtain ⟨other, listed, at_, same⟩ := has
  have different : other ≠ call := by
    rintro rfl
    cases apart with
    | inl not => rw [not] at at_; cases at_
    | inr elsewhere => exact elsewhere same
  exact ⟨other, (mem_erase_of_ne different).mpr listed, at_, same⟩

theorem Has.move {call moved : Call} (has : Has stage calls room) (same : moved.room = call.room)
    (stays : stage call = true → stage moved = true) :
    Has stage (moved :: calls.erase call) room := by
  by_cases here : stage call = true ∧ call.room = room
  · exact ⟨moved, mem_cons_self, stays here.1, same.trans here.2⟩
  · have apart : stage call = false ∨ call.room ≠ room := by
      by_cases at_ : stage call = true
      · exact Or.inr fun other => here ⟨at_, other⟩
      · exact Or.inl (Bool.not_eq_true _ ▸ at_)
    exact (has.erase apart).cons moved

/-- What is still right about a view that is being read. -/
structure Reading.Sound (state : Admission) (reading : Reading) : Prop where
  past : reading.generation ≤ state.generation
  since : reading.unasked = none → reading.since ≤ state.now
  sees : ∀ unasked ∈ reading.unasked, ∀ room ∈ state.heldRequests,
    Has Call.settling state.calls room ∨ reading.takes unasked state.written room
  current : ∀ unasked ∈ reading.unasked, reading.generation = state.generation →
    ∀ room ∈ state.heldRequests,
      Has Call.fresh state.calls room ∨ reading.takes unasked state.written room

structure Inv (state : Admission) : Prop where
  bounded : (state.heldRequests ∪ state.requestsInFlight).card ≤ MAX_DM_REQUESTS
  conversations : state.charged.card ≤ MAX_UNSOLICITED_DMS
  slots : ∀ room, room ∈ state.requestsInFlight ↔ Has Call.slotted state.calls room
  charges : ∀ room ∈ state.charged,
    state.stored room ∨ room ∈ state.undoing ∨ Has Call.owes state.calls room
  past : ∀ view ∈ state.cached, view.generation ≤ state.generation
  current : ∀ view ∈ state.cached, view.generation = state.generation →
    ∀ room ∈ state.heldRequests, Has Call.fresh state.calls room ∨ room ∈ view.counted
  reading : ∀ reading ∈ state.reading, reading.Sound state

theorem unstored_slotted (call : Call) (unstored : call.unstored = true) : call.slotted = true := by
  unfold Call.unstored at unstored
  unfold Call.slotted
  split at unstored <;> simp_all

theorem fresh_settling (call : Call) (fresh : call.fresh = true) : call.settling = true := by
  simp only [Call.fresh, Call.settling, decide_eq_true_eq] at fresh ⊢
  exact Or.inl fresh

theorem settling_slotted (call : Call) (settling : call.settling = true) : call.slotted = true := by
  simp only [Call.settling, decide_eq_true_eq] at settling
  unfold Call.slotted
  rcases settling with landed | changed
  · rw [landed]
  · rw [changed]

theorem Inv.caps (inv : Inv state) : Caps state where
  requests := by
    have inside : state.admittedRooms ⊆ state.requestsInFlight := by
      intro room admitted
      have unstored : Has Call.unstored state.calls room := mem_admitted.mp admitted
      exact (inv.slots room).mpr (unstored.mono unstored_slotted)
    exact (Finset.card_le_card (Finset.union_subset_union_right inside)).trans inv.bounded
  conversations := inv.conversations
  leftovers := by
    intro room absent idle free
    constructor
    · intro inFlight
      obtain ⟨call, listed, slotted, same⟩ := (inv.slots room).mp inFlight
      rw [free call listed same] at slotted
      cases slotted
    · intro charged
      rcases inv.charges room charged with stored | undoing | ⟨call, listed, owes, same⟩
      · exact absent stored
      · exact idle undoing
      · have slotted : call.slotted = true := by
          unfold Call.owes at owes
          unfold Call.slotted
          split at owes <;> simp_all
        rw [free call listed same] at slotted
        cases slotted

variable {rows : List Row} {event : Event} {row : Row}

theorem start_inv {now : Nat} {written : List Nat}
    (within : (Admission.start now rows written).heldRequests.card ≤ MAX_DM_REQUESTS) :
    Inv (Admission.start now rows written) where
  bounded := by
    rw [show (Admission.start now rows written).requestsInFlight = ∅ from rfl, Finset.union_empty]
    exact within
  conversations := Nat.zero_le _
  slots := by
    intro room
    simp [Admission.start, Has]
  charges := by
    intro room charged
    exact absurd charged (Finset.notMem_empty room)
  past := nofun
  current := nofun
  reading := nofun

/-- The calls change in a way that keeps every holder of a slot and of a charge. -/
structure SameHolders (before after : List Call) : Prop where
  slots : ∀ room, Has Call.slotted before room ↔ Has Call.slotted after room
  owes : ∀ room, Has Call.owes before room → Has Call.owes after room
  fresh : ∀ room, Has Call.fresh before room → Has Call.fresh after room
  settling : ∀ room, Has Call.settling before room → Has Call.settling after room

theorem Inv.with_calls (inv : Inv state)
    (same : SameHolders state.calls calls) : Inv { state with calls := calls } where
  bounded := inv.bounded
  conversations := inv.conversations
  slots := fun room => (inv.slots room).trans (same.slots room)
  charges := by
    intro room charged
    rcases inv.charges room charged with stored | undoing | owes
    · exact Or.inl stored
    · exact Or.inr (Or.inl undoing)
    · exact Or.inr (Or.inr (same.owes room owes))
  past := inv.past
  current := by
    intro view kept now room held
    exact (inv.current view kept now room held).imp_left (same.fresh room)
  reading := by
    intro reading active
    have sound := inv.reading reading active
    exact ⟨sound.past, sound.since,
      fun unasked asked room held => (sound.sees unasked asked room held).imp_left
        (same.settling room),
      fun unasked asked now room held => (sound.current unasked asked now room held).imp_left
        (same.fresh room)⟩

theorem Inv.with_reading {reading : Option Reading} (inv : Inv state)
    (sound : ∀ active ∈ reading, active.Sound state) : Inv { state with reading := reading } where
  bounded := inv.bounded
  conversations := inv.conversations
  slots := inv.slots
  charges := inv.charges
  past := inv.past
  current := inv.current
  reading := fun active present =>
    ⟨(sound active present).past, (sound active present).since, (sound active present).sees,
      (sound active present).current⟩

theorem owes_slotted (call : Call) (owes : call.owes = true) : call.slotted = true := by
  unfold Call.owes at owes
  unfold Call.slotted
  split at owes <;> simp_all

theorem same_holders_cons {added : Call} (free : added.slotted = false) :
    SameHolders calls (added :: calls) where
  slots := by
    intro room
    constructor
    · intro has
      exact has.cons added
    · rintro ⟨call, listed, slotted, same⟩
      cases mem_cons.mp listed with
      | inl here =>
        rw [here, free] at slotted
        cases slotted
      | inr there => exact ⟨call, there, slotted, same⟩
  owes := fun _ has => has.cons added
  fresh := fun _ has => has.cons added
  settling := fun _ has => has.cons added

theorem not_of_slotted (free : call.slotted = false)
    (slotted : ∀ other, stage other = true → other.slotted = true) : stage call = false := by
  by_contra at_
  rw [slotted call (Bool.not_eq_false _ ▸ at_)] at free
  cases free

theorem same_holders_erase (free : call.slotted = false) :
    SameHolders calls (calls.erase call) where
  slots := fun _ => ⟨fun has => has.erase (Or.inl free), Has.of_erase⟩
  owes := fun _ has => has.erase (Or.inl (not_of_slotted free owes_slotted))
  fresh := fun _ has => has.erase (Or.inl (not_of_slotted free
    fun other fresh => settling_slotted other (fresh_settling other fresh)))
  settling := fun _ has => has.erase (Or.inl (not_of_slotted free settling_slotted))

theorem SameHolders.trans {first second third : List Call} (one : SameHolders first second)
    (two : SameHolders second third) : SameHolders first third where
  slots := fun room => (one.slots room).trans (two.slots room)
  owes := fun room has => two.owes room (one.owes room has)
  fresh := fun room has => two.fresh room (one.fresh room has)
  settling := fun room has => two.settling room (one.settling room has)

theorem slots_move {call moved : Call} (listed : call ∈ calls)
    (same : moved.room = call.room) (before : call.slotted = true) (after : moved.slotted = true)
    (room : Nat) : Has Call.slotted calls room ↔ Has Call.slotted (moved :: calls.erase call) room := by
  constructor
  · intro has
    exact has.move same fun _ => after
  · rintro ⟨other, mem, slotted, at_⟩
    cases mem_cons.mp mem with
    | inl here => exact ⟨call, listed, before, by rw [← same, ← here, at_]⟩
    | inr there => exact ⟨other, mem_of_mem_erase there, slotted, at_⟩

theorem build_same_holders (listed : call ∈ state.calls)
    (at_ : call.stage = .admitted chargedBefore) :
    SameHolders state.calls
      ({ call with stage := .built chargedBefore state.now } :: state.calls.erase call) where
  slots := slots_move listed rfl (by rw [Call.slotted, at_]) rfl
  owes := by
    intro room has
    refine has.move rfl ?_
    rw [Call.owes, at_]
    exact id
  fresh := fun room has => has.move rfl fun fresh => by simp [Call.fresh, at_] at fresh
  settling := fun room has => has.move rfl fun settling => by simp [Call.settling, at_] at settling

theorem held_of_rows {state next : Admission} (rows : ∀ row ∈ next.rows, row ∈ state.rows)
    (takes : ∀ row ∈ next.rows, next.takesSlot row = true → state.takesSlot row = true) :
    next.heldRequests ⊆ state.heldRequests := by
  intro room held
  obtain ⟨row, listed, taking, same⟩ := mem_held.mp held
  exact mem_held.mpr ⟨row, rows row listed, takes row listed taking, same⟩

theorem Inv.fewer {now : Nat} {written : List Nat}
    (inv : Inv state) (later : state.now ≤ now)
    (fewer : Admission.heldRequests { state with now := now, rows := rows, written := written } ⊆
      state.heldRequests)
    (more : ∀ room ∈ state.written, room ∈ written)
    (charges : ∀ room ∈ state.charged, state.stored room →
      room ∈ rows.map Row.room ∨ room ∈ state.undoing) :
    Inv { state with now := now, rows := rows, written := written } where
  bounded := (Finset.card_le_card (Finset.union_subset_union_left fewer)).trans inv.bounded
  conversations := inv.conversations
  slots := inv.slots
  charges := by
    intro room charged
    rcases inv.charges room charged with stored | undoing | owes
    · exact (charges room charged stored).imp_right Or.inl
    · exact Or.inr (Or.inl undoing)
    · exact Or.inr (Or.inr owes)
  past := inv.past
  current := fun view kept now room held => inv.current view kept now room (fewer held)
  reading := by
    intro reading active
    have sound := inv.reading reading active
    have takes : ∀ unasked room, reading.takes unasked state.written room →
        reading.takes unasked written room := by
      rintro unasked room (counted | ⟨row, listed, same, young | there⟩)
      · exact Or.inl counted
      · exact Or.inr ⟨row, listed, same, Or.inl young⟩
      · exact Or.inr ⟨row, listed, same, Or.inr (more room there)⟩
    exact ⟨sound.past, fun unread => (sound.since unread).trans later,
      fun unasked asked room held => (sound.sees unasked asked room (fewer held)).imp_right
        (takes unasked room),
      fun unasked asked now room held => (sound.current unasked asked now room (fewer held)).imp_right
        (takes unasked room)⟩

theorem young_earlier {now later : Nat} (order : now ≤ later)
    (fresh : young later row = true) : young now row = true := by
  simp only [young, decide_eq_true_eq] at fresh ⊢
  omega

theorem Inv.tick (inv : Inv state) (millis : Nat) :
    Inv { state with now := state.now + millis } := by
  apply inv.fewer (Nat.le_add_right _ _)
  · apply held_of_rows
    · exact fun _ listed => listed
    · intro row _ takes
      simp only [Admission.takesSlot, Bool.or_eq_true] at takes ⊢
      exact takes.imp_left (young_earlier (Nat.le_add_right _ _))
  · exact fun _ there => there
  · exact fun _ _ stored => Or.inl stored

theorem Inv.write (inv : Inv state) (taken : state.stored room → room ∈ state.heldRequests) :
    Inv { state with written := room :: state.written } := by
  apply inv.fewer (Nat.le_refl _)
  · intro other held
    by_cases same : other = room
    · have there : state.stored other :=
        @held_stored { state with written := room :: state.written } other held
      exact same ▸ taken (same ▸ there)
    · obtain ⟨row, listed, takes, here⟩ := mem_held.mp held
      refine mem_held.mpr ⟨row, listed, ?_, here⟩
      have apart : row.room ≠ room := here ▸ same
      simpa [Admission.takesSlot, apart] using takes
  · exact fun _ there => mem_cons_of_mem _ there
  · exact fun _ _ stored => Or.inl stored

theorem Inv.undo_lands (inv : Inv state) (undoing : room ∈ state.undoing) :
    Inv { state with rows := deleteRoom state.rows room } := by
  apply inv.fewer (Nat.le_refl _)
  · apply held_of_rows
    · exact fun _ listed => mem_of_mem_filter listed
    · exact fun _ _ takes => takes
  · exact fun _ there => there
  · intro other _ stored
    by_cases same : other = room
    · exact Or.inr (same ▸ undoing)
    · obtain ⟨row, listed, here⟩ := mem_map.mp stored
      refine Or.inl (mem_map.mpr ⟨row, mem_filter.mpr ⟨listed, ?_⟩, here⟩)
      exact decide_eq_true (here ▸ same)

theorem Reading.Sound.outdated {state next : Admission} (sound : reading.Sound state)
    (generation : state.generation < next.generation) (now : next.now = state.now)
    (held : next.heldRequests = state.heldRequests) (written : next.written = state.written)
    (settling : ∀ room, Has Call.settling state.calls room → Has Call.settling next.calls room) :
    reading.Sound next where
  past := sound.past.trans generation.le
  since := now ▸ sound.since
  sees := by
    intro unasked asked room heldRoom
    rw [written]
    exact (sound.sees unasked asked room (held ▸ heldRoom)).imp_left (settling room)
  current := by
    intro unasked asked same
    exact absurd same (Nat.ne_of_lt (lt_of_le_of_lt sound.past generation))

theorem Inv.undo_ends (inv : Inv state) :
    Inv { state with
      undoing := state.undoing.erase room
      charged := state.charged.erase room
      generation := state.generation + 1 } where
  bounded := inv.bounded
  conversations := (Finset.card_erase_le).trans inv.conversations
  slots := inv.slots
  charges := by
    intro other charged
    obtain ⟨apart, there⟩ := Finset.mem_erase.mp charged
    rcases inv.charges other there with stored | undoing | owes
    · exact Or.inl stored
    · exact Or.inr (Or.inl ((mem_erase_of_ne apart).mpr undoing))
    · exact Or.inr (Or.inr owes)
  past := fun view kept => (inv.past view kept).trans (Nat.le_succ _)
  current := fun view kept now => absurd now (Nat.ne_of_lt (Nat.lt_succ_of_le (inv.past view kept)))
  reading := fun reading active =>
    (inv.reading reading active).outdated (Nat.lt_succ_self _) rfl rfl rfl fun _ has => has

theorem Inv.change (inv : Inv state) (listed : call ∈ state.calls) (at_ : call.stage = .landed) :
    Inv { state.move call .changed with generation := state.generation + 1 } where
  bounded := inv.bounded
  conversations := inv.conversations
  slots := fun room => (inv.slots room).trans
    (@slots_move _ call { call with stage := .changed } listed rfl (by rw [Call.slotted, at_]) rfl
      room)
  charges := by
    intro room charged
    rcases inv.charges room charged with stored | undoing | owes
    · exact Or.inl stored
    · exact Or.inr (Or.inl undoing)
    · refine Or.inr (Or.inr (owes.move rfl fun owing => ?_))
      simp [Call.owes, at_] at owing
  past := fun view kept => (inv.past view kept).trans (Nat.le_succ _)
  current := fun view kept now => absurd now (Nat.ne_of_lt (Nat.lt_succ_of_le (inv.past view kept)))
  reading := fun reading active =>
    (inv.reading reading active).outdated (Nat.lt_succ_self _) rfl rfl rfl
      fun _ has => has.move rfl fun _ => by simp [Call.settling]

theorem stored_put (stored : room ∈ rows.map Row.room) :
    room ∈ (putRoom rows row).map Row.room := by
  obtain ⟨other, listed, same⟩ := mem_map.mp stored
  rw [putRoom, map_append, mem_append]
  by_cases here : other.room = row.room
  · right
    simp [← same, here]
  · left
    exact mem_map.mpr ⟨other, mem_filter.mpr ⟨listed, decide_eq_true here⟩, same⟩

theorem held_put
    (held : room ∈ Admission.heldRequests { state with rows := putRoom state.rows row }) :
    room = row.room ∨ room ∈ state.heldRequests := by
  obtain ⟨other, listed, takes, same⟩ := mem_held.mp held
  cases mem_append.mp listed with
  | inl kept => exact Or.inr (mem_held.mpr ⟨other, mem_of_mem_filter kept, takes, same⟩)
  | inr added => exact Or.inl (by rw [← same, mem_singleton.mp added])

theorem Inv.land {createdAt : Nat} (inv : Inv state) (listed : call ∈ state.calls)
    (at_ : call.stage = .built chargedBefore createdAt) :
    Inv { state.move call .landed with rows := putRoom state.rows ⟨call.room, createdAt⟩ } := by
  have slotted : call.slotted = true := by rw [Call.slotted, at_]
  have inFlight : call.room ∈ state.requestsInFlight :=
    (inv.slots call.room).mpr ⟨call, listed, slotted, rfl⟩
  have moved : ({ call with stage := .landed } : Call).room = call.room := rfl
  have here : ∀ stage : Call → Bool, stage { call with stage := .landed } = true →
      Has stage ({ call with stage := .landed } :: state.calls.erase call) call.room :=
    fun stage at_ => ⟨_, mem_cons_self, at_, rfl⟩
  refine ⟨?_, inv.conversations, ?_, ?_, inv.past, ?_, ?_⟩
  · refine le_trans (Finset.card_le_card ?_) inv.bounded
    intro room mem
    cases Finset.mem_union.mp mem with
    | inr waiting => exact Finset.mem_union_right _ waiting
    | inl held =>
      cases held_put held with
      | inl same => exact Finset.mem_union_right _ (same ▸ inFlight)
      | inr before => exact Finset.mem_union_left _ before
  · exact fun room => (inv.slots room).trans (slots_move listed moved slotted rfl room)
  · intro room charged
    rcases inv.charges room charged with stored | undoing | owes
    · exact Or.inl (stored_put stored)
    · exact Or.inr (Or.inl undoing)
    · by_cases same : call.room = room
      · refine Or.inl ?_
        rw [Admission.stored, putRoom, map_append, mem_append]
        exact Or.inr (by simp [same])
      · exact Or.inr (Or.inr ((owes.erase (Or.inr same)).cons _))
  · intro view kept now room held
    cases held_put held with
    | inl same => exact Or.inl (same ▸ here Call.fresh (by simp [Call.fresh]))
    | inr before =>
      refine (inv.current view kept now room before).imp_left fun has => has.move moved ?_
      intro fresh
      simp [Call.fresh, at_] at fresh
  · intro reading active
    have sound := inv.reading reading active
    refine ⟨sound.past, sound.since, ?_, ?_⟩
    · intro unasked asked room held
      cases held_put held with
      | inl same => exact Or.inl (same ▸ here Call.settling (by simp [Call.settling]))
      | inr before =>
        refine (sound.sees unasked asked room before).imp_left fun has => has.move moved ?_
        intro settling
        simp [Call.settling, at_] at settling
    · intro unasked asked now room held
      cases held_put held with
      | inl same => exact Or.inl (same ▸ here Call.fresh (by simp [Call.fresh]))
      | inr before =>
        refine (sound.current unasked asked now room before).imp_left fun has => has.move moved ?_
        intro fresh
        simp [Call.fresh, at_] at fresh

theorem slots_erase (inv : Inv state) (alone : state.alone call)
    (room : Nat) : room ∈ state.requestsInFlight.erase call.room ↔
      Has Call.slotted (state.calls.erase call) room := by
  rw [Finset.mem_erase, inv.slots room]
  constructor
  · rintro ⟨apart, has⟩
    exact has.erase (Or.inr (Ne.symm apart))
  · intro has
    obtain ⟨other, listed, slotted, same⟩ := id has
    exact ⟨same ▸ alone other listed slotted, has.of_erase⟩

theorem bounded_erase (inv : Inv state) (room : Nat) :
    (state.heldRequests ∪ state.requestsInFlight.erase room).card ≤ MAX_DM_REQUESTS :=
  (Finset.card_le_card
    (Finset.union_subset_union_right (Finset.erase_subset _ _))).trans inv.bounded

theorem Inv.release (inv : Inv state) (at_ : call.stage = .changed) (alone : state.alone call)
    (seen : state.seen call.room) :
    Inv { state.drop call with
      requestsInFlight := state.requestsInFlight.erase call.room } where
  bounded := bounded_erase inv call.room
  conversations := inv.conversations
  slots := slots_erase inv alone
  charges := by
    intro room charged
    rcases inv.charges room charged with stored | undoing | owes
    · exact Or.inl stored
    · exact Or.inr (Or.inl undoing)
    · exact Or.inr (Or.inr (owes.erase (Or.inl (by rw [Call.owes, at_]))))
  past := inv.past
  current := by
    intro view kept now room held
    exact (inv.current view kept now room held).imp_left
      fun fresh => fresh.erase (Or.inl (by simp [Call.fresh, at_]))
  reading := by
    intro reading active
    have sound := inv.reading reading active
    refine ⟨sound.past, sound.since, ?_, ?_⟩
    · intro unasked asked room held
      by_cases same : call.room = room
      · exact Or.inr (same ▸ seen reading active unasked asked (same ▸ held))
      · exact (sound.sees unasked asked room held).imp_left fun has => has.erase (Or.inr same)
    · intro unasked asked now room held
      exact (sound.current unasked asked now room held).imp_left
        fun fresh => fresh.erase (Or.inl (by simp [Call.fresh, at_]))

theorem Inv.fail (inv : Inv state)
    (at_ : call.stage = .admitted chargedBefore ∨ ∃ createdAt,
      call.stage = .built chargedBefore createdAt)
    (alone : state.alone call) : Inv (state.fail call chargedBefore) := by
  have unsettled : call.settling = false := by
    rcases at_ with at_ | ⟨createdAt, at_⟩ <;> simp [Call.settling, at_]
  have stale : call.fresh = false := by
    rcases at_ with at_ | ⟨createdAt, at_⟩ <;> simp [Call.fresh, at_]
  have owes : call.owes = !chargedBefore := by
    rcases at_ with at_ | ⟨createdAt, at_⟩ <;> simp [Call.owes, at_]
  refine ⟨bounded_erase inv call.room, ?_, slots_erase inv alone, ?_, inv.past, ?_, ?_⟩
  · refine le_trans (Finset.card_le_card ?_) inv.conversations
    unfold Admission.fail
    split
    · exact Finset.Subset.refl _
    · exact Finset.erase_subset _ _
  · intro room charged
    cases chargedBefore with
    | true =>
      rcases inv.charges room charged with stored | undoing | has
      · exact Or.inl stored
      · exact Or.inr (Or.inl undoing)
      · exact Or.inr (Or.inr (has.erase (Or.inl owes)))
    | false =>
      obtain ⟨apart, there⟩ := Finset.mem_erase.mp charged
      rcases inv.charges room there with stored | undoing | has
      · exact Or.inl stored
      · exact Or.inr (Or.inl undoing)
      · exact Or.inr (Or.inr (has.erase (Or.inr (Ne.symm apart))))
  · intro view kept now room held
    exact (inv.current view kept now room held).imp_left fun has => has.erase (Or.inl stale)
  · intro reading active
    have sound := inv.reading reading active
    exact ⟨sound.past, sound.since,
      fun unasked asked room held => (sound.sees unasked asked room held).imp_left
        fun has => has.erase (Or.inl unsettled),
      fun unasked asked now room held => (sound.current unasked asked now room held).imp_left
        fun has => has.erase (Or.inl stale)⟩

theorem Inv.begin (inv : Inv state)
    (at_ : call.stage = .queued chargedBefore) : Inv (state.begin call chargedBefore) := by
  have free : call.slotted = false := by rw [Call.slotted, at_]
  have dropped : Inv (state.drop call) := inv.with_calls (same_holders_erase free)
  apply dropped.with_reading
  intro reading active
  cases active
  have unread : Reading.Sound (state.drop call) ⟨call.room, call.provisional, chargedBefore,
      state.generation, state.now, none, []⟩ :=
    ⟨Nat.le_refl _, fun _ => Nat.le_refl _, nofun, nofun⟩
  split
  · exact unread
  · rename_i view kept
    split
    · rename_i valid
      have counted : ∀ room ∈ (state.drop call).heldRequests,
          Has Call.fresh (state.drop call).calls room ∨ room ∈ view.counted :=
        dropped.current view kept valid.1
      refine ⟨Nat.le_refl _, nofun, ?_, ?_⟩
      · intro unasked asked room held
        exact (counted room held).imp (fun has => has.mono fresh_settling) Or.inl
      · intro unasked asked now room held
        exact (counted room held).imp id Or.inl
    · exact unread

theorem Inv.read_rooms (inv : Inv state) (active : state.reading = some reading)
    (unread : reading.unasked = none) :
    Inv { state with reading := some { reading with unasked := some state.rows } } := by
  have sound := inv.reading reading active
  apply inv.with_reading
  intro next found
  cases found
  have listed : ∀ room ∈ state.heldRequests,
      Reading.takes { reading with unasked := some state.rows } state.rows state.written room := by
    intro room held
    obtain ⟨row, stored, takes, same⟩ := mem_held.mp held
    refine Or.inr ⟨row, stored, same, ?_⟩
    simp only [Admission.takesSlot, Bool.or_eq_true, decide_eq_true_eq] at takes
    exact takes.imp (young_earlier (sound.since unread)) (same ▸ id)
  refine ⟨sound.past, nofun, ?_, ?_⟩
  · intro unasked asked room held
    cases asked
    exact Or.inr (listed room held)
  · intro unasked asked now room held
    cases asked
    exact Or.inr (listed room held)

theorem Inv.ask {rest : List Row} (inv : Inv state) (active : state.reading = some reading)
    (asked : reading.unasked = some (row :: rest)) : Inv (state.ask reading row rest) := by
  have sound := inv.reading reading active
  apply inv.with_reading
  intro next found
  cases found
  have onward : ∀ room, reading.takes (row :: rest) state.written room →
      Reading.takes { reading with
        unasked := some rest
        counted := if (young reading.since row || decide (row.room ∈ state.written)) = true then
          row.room :: reading.counted else reading.counted } rest state.written room := by
    rintro room (counted | ⟨other, listed, same, taken⟩)
    · left
      show room ∈ if _ then _ else _
      split
      · exact mem_cons_of_mem _ counted
      · exact counted
    · cases mem_cons.mp listed with
      | inr later => exact Or.inr ⟨other, later, same, taken⟩
      | inl here =>
        left
        show room ∈ if _ then _ else _
        rw [here] at same taken
        rw [if_pos, same]
        · exact mem_cons_self
        · rw [Bool.or_eq_true, decide_eq_true_eq, same]
          exact taken
  refine ⟨sound.past, nofun, ?_, ?_⟩
  · intro unasked now room held
    cases now
    exact (sound.sees _ asked room held).imp_right (onward room)
  · intro unasked now same room held
    cases now
    exact (sound.current _ asked same room held).imp_right (onward room)

theorem Inv.viewed (inv : Inv state) (active : state.reading = some reading)
    (asked : reading.unasked = some []) :
    Inv { state with
      cached := some ⟨reading.generation, reading.since, reading.counted⟩
      reading := none } where
  bounded := inv.bounded
  conversations := inv.conversations
  slots := inv.slots
  charges := inv.charges
  past := by
    intro view kept
    cases kept
    exact (inv.reading reading active).past
  current := by
    intro view kept now room held
    cases kept
    refine ((inv.reading reading active).current [] asked now room held).imp_right ?_
    rintro (counted | ⟨row, listed, _⟩)
    · exact counted
    · exact absurd listed (not_mem_nil)
  reading := nofun

theorem held_covered (inv : Inv state) (active : state.reading = some reading)
    (asked : reading.unasked = some []) :
    (state.heldRequests ∪ state.requestsInFlight).card ≤
      reading.counted.length + state.requestsInFlight.card := by
  have covered : state.heldRequests ∪ state.requestsInFlight ⊆
      reading.counted.toFinset ∪ state.requestsInFlight := by
    intro room mem
    cases Finset.mem_union.mp mem with
    | inr waiting => exact Finset.mem_union_right _ waiting
    | inl held =>
      rcases (inv.reading reading active).sees [] asked room held with
        settling | counted | ⟨row, listed, _⟩
      · exact Finset.mem_union_right _ ((inv.slots room).mpr (settling.mono settling_slotted))
      · exact Finset.mem_union_left _ (mem_toFinset.mpr counted)
      · exact absurd listed (not_mem_nil)
  calc (state.heldRequests ∪ state.requestsInFlight).card
      ≤ (reading.counted.toFinset ∪ state.requestsInFlight).card := Finset.card_le_card covered
    _ ≤ reading.counted.toFinset.card + state.requestsInFlight.card := Finset.card_union_le _ _
    _ ≤ reading.counted.length + state.requestsInFlight.card :=
        Nat.add_le_add_right reading.counted.toFinset_card_le _

theorem Inv.share (inv : Inv state) (inFlight : room ∈ state.requestsInFlight) :
    Inv { state with calls := ⟨room, false, .admitted chargedBefore⟩ :: state.calls } := by
  apply inv.with_calls
  refine ⟨?_, fun _ has => has.cons _, fun _ has => has.cons _, fun _ has => has.cons _⟩
  intro other
  constructor
  · intro has
    exact has.cons _
  · rintro ⟨call, listed, slotted, same⟩
    cases mem_cons.mp listed with
    | inr there => exact ⟨call, there, slotted, same⟩
    | inl here =>
      rw [here] at same
      exact (inv.slots other).mp (same ▸ inFlight)

theorem Inv.reserve (inv : Inv state)
    (space : (state.heldRequests ∪ state.requestsInFlight).card < MAX_DM_REQUESTS)
    (conversation : room ∈ state.charged ∨ state.charged.card < MAX_UNSOLICITED_DMS)
    (kept : chargedBefore = true → room ∈ state.charged) :
    Inv { state with
      calls := ⟨room, false, .admitted chargedBefore⟩ :: state.calls
      requestsInFlight := insert room state.requestsInFlight
      charged := insert room state.charged } where
  bounded := by
    show (state.heldRequests ∪ insert room state.requestsInFlight).card ≤ _
    rw [Finset.union_insert]
    exact (Finset.card_insert_le _ _).trans space
  conversations := by
    cases conversation with
    | inl there =>
      show (insert room state.charged).card ≤ _
      rw [Finset.insert_eq_of_mem there]
      exact inv.conversations
    | inr few => exact (Finset.card_insert_le _ _).trans few
  slots := by
    intro other
    constructor
    · intro mem
      cases Finset.mem_insert.mp mem with
      | inl here => exact ⟨_, mem_cons_self, rfl, here.symm⟩
      | inr there => exact ((inv.slots other).mp there).cons _
    · rintro ⟨call, listed, slotted, same⟩
      cases mem_cons.mp listed with
      | inl here => exact Finset.mem_insert.mpr (Or.inl (by rw [← same, here]))
      | inr there =>
        exact Finset.mem_insert_of_mem ((inv.slots other).mpr ⟨call, there, slotted, same⟩)
  charges := by
    intro other mem
    have before : other ∈ state.charged → state.stored other ∨ other ∈ state.undoing ∨
        Has Call.owes (⟨room, false, .admitted chargedBefore⟩ :: state.calls) other :=
      fun there => (inv.charges other there).imp_right fun rest =>
        rest.imp_right fun owes => owes.cons _
    cases Finset.mem_insert.mp mem with
    | inr there => exact before there
    | inl here =>
      cases chargedBefore with
      | true => exact before (here ▸ kept rfl)
      | false => exact Or.inr (Or.inr ⟨_, mem_cons_self, rfl, here.symm⟩)
  past := inv.past
  current := fun view found now other held =>
    (inv.current view found now other held).imp_left fun has => has.cons _
  reading := by
    intro reading active
    have sound := inv.reading reading active
    exact ⟨sound.past, sound.since,
      fun unasked asked other held => (sound.sees unasked asked other held).imp_left
        fun has => has.cons _,
      fun unasked asked now other held => (sound.current unasked asked now other held).imp_left
        fun has => has.cons _⟩

theorem Inv.verdict (inv : Inv state) (active : state.reading = some reading)
    (asked : reading.unasked = some [])
    (kept : reading.chargedBefore = true → reading.room ∈ state.charged) :
    Inv (state.admitUntrusted reading) := by
  have viewed := inv.viewed active asked
  have covered := held_covered inv active asked
  unfold Admission.admitUntrusted
  split
  · exact viewed
  · rename_i verdict
    simp only [not_or, Bool.not_eq_true] at verdict
    split
    · rename_i inFlight
      exact viewed.share inFlight
    · rename_i absent
      have room := verdict.1
      unfold Admission.full at room
      split at room
      · cases room
      · rename_i conversation
        rw [decide_eq_false_iff_not] at room
        refine viewed.reserve ?_ ?_ kept
        · exact lt_of_le_of_lt covered (Nat.lt_of_not_le room)
        · by_cases there : reading.room ∈ state.charged
          · exact Or.inl there
          · exact Or.inr (Nat.lt_of_not_le fun full => conversation ⟨there, full⟩)

theorem Inv.step_call {state next : Admission} (inv : Inv state) (orderly : Orderly state event)
    (named : event.call = some call) (listed : call ∈ state.calls)
    (stepped : stepCall state call event = some next) : Inv next := by
  unfold stepCall at stepped
  cases event with
  | leave other =>
    simp only at stepped
    split at stepped
    · rename_i existing at_
      split at stepped
      · cases stepped
        exact inv.with_calls (same_holders_erase (by rw [Call.slotted, at_]))
      · cases stepped
    · cases stepped
  | enter other =>
    simp only at stepped
    split at stepped
    · rename_i at_
      cases stepped
      exact inv.with_calls ((same_holders_erase (by rw [Call.slotted, at_])).trans
        (same_holders_cons rfl))
    · cases stepped
  | begin other =>
    simp only at stepped
    split at stepped
    · rename_i chargedBefore at_
      split at stepped
      · cases stepped
        exact inv.begin at_
      · cases stepped
    · cases stepped
  | build other =>
    simp only at stepped
    split at stepped
    · rename_i chargedBefore at_
      cases stepped
      exact inv.with_calls (build_same_holders listed at_)
    · cases stepped
  | land other =>
    simp only at stepped
    split at stepped
    · rename_i chargedBefore createdAt at_
      cases stepped
      exact inv.land listed at_
    · cases stepped
  | change other =>
    simp only at stepped
    split at stepped
    · rename_i at_
      cases stepped
      exact inv.change listed at_
    · cases stepped
  | release other =>
    cases named
    simp only at stepped
    split at stepped
    · rename_i at_
      cases stepped
      exact inv.release at_ orderly.1 orderly.2
    · cases stepped
  | fail other =>
    cases named
    simp only at stepped
    split at stepped
    · rename_i chargedBefore at_
      cases stepped
      exact inv.fail (Or.inl at_) orderly
    · rename_i chargedBefore createdAt at_
      cases stepped
      exact inv.fail (Or.inr ⟨createdAt, at_⟩) orderly
    · cases stepped
  | _ => cases stepped

theorem Inv.step_reading {state next : Admission} (inv : Inv state) (orderly : Orderly state event)
    (active : state.reading = some reading)
    (stepped : stepReading state reading event = some next) : Inv next := by
  unfold stepReading at stepped
  cases event with
  | readRooms =>
    simp only at stepped
    split at stepped
    · rename_i unread
      cases stepped
      exact inv.read_rooms active unread
    · cases stepped
  | ask =>
    simp only at stepped
    split at stepped
    · rename_i row rest asked
      cases stepped
      exact inv.ask active asked
    · cases stepped
  | readFails =>
    cases stepped
    exact inv.with_reading nofun
  | verdict =>
    simp only at stepped
    split at stepped
    · rename_i asked
      cases stepped
      exact inv.verdict active asked (orderly reading active)
    · cases stepped
  | _ => cases stepped

theorem Inv.step {state next : Admission} (inv : Inv state) (orderly : Orderly state event)
    (stepped : DmAdmission.step state event = some next) :
    Inv next := by
  have others : (match event.call, state.reading with
      | some call, _ => if call ∈ state.calls then stepCall state call event else none
      | none, some reading => stepReading state reading event
      | none, none => none) = some next → Inv next := by
    intro taken
    split at taken
    · rename_i call named
      split at taken
      · rename_i listed
        exact inv.step_call orderly named listed taken
      · cases taken
    · rename_i reading _ active
      exact inv.step_reading orderly active taken
    · cases taken
  cases event with
  | tick millis =>
    cases stepped
    exact inv.tick millis
  | look room provisional =>
    cases stepped
    exact inv.with_calls (same_holders_cons rfl)
  | write room =>
    cases stepped
    exact inv.write orderly
  | undo room =>
    simp only [DmAdmission.step] at stepped
    split at stepped
    · cases stepped
      refine ⟨inv.bounded, inv.conversations, inv.slots, ?_, inv.past, inv.current, ?_⟩
      · intro other charged
        exact (inv.charges other charged).imp_right fun rest =>
          rest.imp_left fun undoing => mem_cons_of_mem _ undoing
      · intro reading active
        have sound := inv.reading reading active
        exact ⟨sound.past, sound.since, sound.sees, sound.current⟩
    · cases stepped
  | undoLands room =>
    simp only [DmAdmission.step] at stepped
    split at stepped
    · rename_i undoing
      cases stepped
      exact inv.undo_lands undoing
    · cases stepped
  | undoEnds room =>
    simp only [DmAdmission.step] at stepped
    split at stepped
    · cases stepped
      exact inv.undo_ends
    · cases stepped
  | leave call | enter call | begin call | readRooms | ask | readFails | verdict | build call
  | land call | change call | release call | fail call => exact others stepped

/-- The caps hold in every state of an orderly session, and a conversation that came to
nothing left nothing. -/
theorem orderly_session_within_caps (now : Nat) (rows : List Row) (written : List Nat)
    (within : (Admission.start now rows written).heldRequests.card ≤ MAX_DM_REQUESTS)
    {events : List Event} {state : Admission}
    (orderly : Meets step Orderly (Admission.start now rows written) events)
    (ran : run step (Admission.start now rows written) events = some state) : Caps state :=
  (run_keeps (fun _ _ _ inv condition stepped => inv.step condition stepped) (start_inv within)
    orderly ran).caps

def sampleEvents : List Event :=
  [.look 101 false, .enter ⟨101, false, .looked false⟩, .begin ⟨101, false, .queued false⟩,
    .readRooms, .ask, .verdict, .look 102 false, .enter ⟨102, false, .looked false⟩,
    .begin ⟨102, false, .queued false⟩, .verdict,
    .build ⟨101, false, .admitted false⟩, .land ⟨101, false, .built false 100000⟩,
    .change ⟨101, false, .landed⟩, .release ⟨101, false, .changed⟩, .write 101,
    .fail ⟨102, false, .admitted false⟩, .tick 60000]

theorem sample_session_within_caps :
    ∃ state, run step (Admission.start 100000 [⟨1, 0⟩] [1]) sampleEvents = some state ∧
      state.heldRequests = {1, 101} ∧ state.charged = {101} ∧ Caps state := by
  have ran : (run step (Admission.start 100000 [⟨1, 0⟩] [1]) sampleEvents).map
      (fun state => (state.heldRequests, state.charged)) = some ({1, 101}, {101}) := by
    decide +kernel
  obtain ⟨state, ran, found⟩ := Option.map_eq_some_iff.mp ran
  obtain ⟨held, charged⟩ := Prod.mk.inj found
  exact ⟨state, ran, held, charged, orderly_session_within_caps 100000 [⟨1, 0⟩] [1]
    (by decide +kernel) (by decide +kernel) ran⟩

def nineteen : List Row := (List.range 19).map fun room => ⟨room, 0⟩

def missedEvents : List Event :=
  [.look 101 false, .enter ⟨101, false, .looked false⟩, .begin ⟨101, false, .queued false⟩,
      .readRooms] ++ List.replicate 19 .ask ++
    [.verdict, .tick 1000, .look 102 false, .enter ⟨102, false, .looked false⟩,
      .begin ⟨102, false, .queued false⟩, .readRooms, .build ⟨101, false, .admitted false⟩,
      .land ⟨101, false, .built false 101000⟩, .change ⟨101, false, .landed⟩,
      .release ⟨101, false, .changed⟩] ++ List.replicate 19 .ask ++ [.verdict]

theorem request_counted_zero_times :
    (Admission.start 100000 nineteen (List.range 19)).heldRequests.card ≤ MAX_DM_REQUESTS ∧
      ∃ state, run step (Admission.start 100000 nineteen (List.range 19)) missedEvents =
          some state ∧
        (state.heldRequests ∪ state.admittedRooms).card = 21 ∧ ¬ Caps state := by
  have ran : (run step (Admission.start 100000 nineteen (List.range 19)) missedEvents).map
      (fun state => (state.heldRequests ∪ state.admittedRooms).card) = some 21 := by
    decide +kernel
  obtain ⟨state, ran, count⟩ := Option.map_eq_some_iff.mp ran
  refine ⟨by decide +kernel, state, ran, count, ?_⟩
  intro caps
  have most := caps.requests
  rw [count] at most
  exact absurd most (by decide)

end AwfulChat.DmAdmission
