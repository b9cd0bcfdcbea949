import AwfulChat.Library.OrderedMap
import AwfulChat.Library.Runs
import Mathlib.Data.Finset.Card

/-!
# Bindings held on others' account

`ensureDmRoomForPeer`, `_joinProvisionally`, `_joinDm`, `joinSavedDms` and `_forgetJoin` of
`dm.svelte.ts` as far as they decide which conversations the transport keeps bound and on
whose account. A call goes on from await to await and anything can happen between; what
storage and admission answer comes with the event. `mine` and `mineNow` are not in the
source: the bindings that were joined for the user, and those joined for the user in this
session.
-/

namespace AwfulChat.DmBindings

open Library Library.OrderedMap List Option

set_option autoImplicit false

def MAX_PROVISIONAL_DMS : Nat := 32

def MAX_DMS_JOINED_FOR_THEM : Nat := 128

def SAVED_DMS_JOINED_AT_CONNECT : Nat := 64

/-- The most conversations `LibP2PTransport` binds. -/
def CONVERSATION_BINDINGS : Nat := 512

/-- A post-quantum state; an unusable one does not derive. -/
structure PqState where
  id : Nat
  usable : Bool
  deriving DecidableEq

/-- A call without options, an unsolicited one and a provisional one. -/
inductive Asker
  | user
  | message
  | introduction
  deriving DecidableEq

inductive Account
  | user
  | theirs
  | introduction
  deriving DecidableEq

/-- The await a call of `ensureDmRoomForPeer` is at. `existing` is the stored record's
post-quantum state, if there is a record. -/
inductive Stage
  | looking
  | admitting
  /-- `_holdsMessages` of a stored conversation somebody introduced themselves in. -/
  | asking (existing : Option PqState)
  /-- `setDmPqState` before such a conversation is joined provisionally. -/
  | recording (existing : Option PqState)
  /-- `_admitIntroductionJoin`. -/
  | introducing (existing : Option PqState)
  /-- `setDmPqState` in `_joinDm`. -/
  | upgrading (existing : Option PqState)
  /-- `getRoom` after a classical join that the transport refused. -/
  | retrying (account : Account) (existing : Bool)
  /-- `introduceDm` and `putRoom` of a new conversation. -/
  | storing (account : Option Account)
  deriving DecidableEq

structure Call where
  session : Nat
  room : Nat
  asker : Asker
  pqState : Option PqState
  stage : Stage
  deriving DecidableEq

/-- `bound` has each conversation's wire key: none is the classical one. -/
structure Bindings where
  session : Option Nat
  sessions : Nat
  bound : OrderedMap Nat (Option Nat)
  joined : Finset Nat
  provisional : OrderedMap Nat (Option PqState)
  forThem : Option (Nat × Finset Nat)
  calls : List Call
  mine : Finset Nat
  mineNow : Finset Nat

/-- A saved DM as `joinSavedDms` sees it; `mine` is one the user pinned or reached out to. -/
structure SavedDm where
  room : Nat
  mine : Bool
  written : Bool
  pq : Option PqState
  deriving DecidableEq

inductive Event
  | ensureDmRoomForPeer (room : Nat) (asker : Asker) (pqState : Option PqState)
  /-- `getRoom` answers with the record's state, or that there is none. -/
  | look (call : Call) (existing : Option (Option PqState))
  | admission (call : Call) (full : Bool)
  | holds (call : Call) (answer : Bool)
  | recorded (call : Call)
  | introduce (call : Call) (allowed : Bool)
  | upgraded (call : Call)
  | retry (call : Call) (fresh : Option PqState)
  | store (call : Call)
  | fail (call : Call)
  | joinSavedDms (rooms : List SavedDm)
  /-- The user deletes the conversation, or an empty one is dropped. -/
  | forget (room : Nat)
  | lock
  | unlock
  /-- The transport goes down: it leaves every conversation and keeps the bindings. -/
  | disconnect
  deriving DecidableEq

def Bindings.theirs (state : Bindings) : Finset Nat :=
  match state.forThem with
  | none => ∅
  | some (_, rooms) => rooms

/-- `_joinedForThem`: the set is started anew when it is another session's. -/
def Bindings.joinedForThem (state : Bindings) (session : Nat) : Bindings :=
  match state.forThem with
  | none => { state with forThem := some (session, ∅) }
  | some (owner, _) =>
    if owner = session then state else { state with forThem := some (session, ∅) }

/-- The transport's `forgetConversation`. -/
def Bindings.forgetConversation (state : Bindings) (room : Nat) : Bindings :=
  { state with
    bound := state.bound.delete room
    joined := state.joined.erase room
    mine := state.mine.erase room
    mineNow := state.mineNow.erase room }

def Bindings.forgetJoin (state : Bindings) (room : Nat) : Bindings :=
  { state.forgetConversation room with
    provisional := state.provisional.delete room
    forThem := state.forThem.map fun kept => (kept.1, kept.2.erase room) }

/-- The wire key of a conversation with this state; none when it does not derive. -/
def wireKey : Option PqState → Option (Option Nat)
  | none => some none
  | some pq => if pq.usable then some (some pq.id) else none

/-- `joinDmConversation`; none is a throw. A conversation on a hybrid key never goes back to
the classical one. -/
def Bindings.joinDmConversation (state : Bindings) (room : Nat) (pq : Option PqState) :
    Option Bindings :=
  match state.session, wireKey pq with
  | some _, some key =>
    let joined : Bindings := { state with
      bound := state.bound.set room key
      joined := insert room state.joined }
    match state.bound.get room with
    | none => if CONVERSATION_BINDINGS ≤ state.bound.size then none else some joined
    | some held => if held.isSome ∧ key.isNone then none else some joined
  | _, _ => none

def Bindings.evict : Bindings → List Nat → Bindings
  | state, [] => state
  | state, oldest :: rest =>
    if state.provisional.size < MAX_PROVISIONAL_DMS then state
    else
      Bindings.evict
        (Bindings.forgetConversation
          { state with provisional := state.provisional.delete oldest } oldest) rest

/-- What a throw of the join leaves is kept. -/
def Bindings.joinProvisionally (state : Bindings) (session room : Nat) (pq : Option PqState) :
    Bindings :=
  let state := state.joinedForThem session
  if room ∈ state.theirs then (state.joinDmConversation room pq).getD state
  else
    let state :=
      if state.provisional.has room then state else state.evict state.provisional.keys
    match state.joinDmConversation room pq with
    | none => state
    | some joined =>
      { joined with provisional := (joined.provisional.delete room).set room pq }

def Bindings.joinAccount (state : Bindings) (room : Nat) (forThem : Bool) : Option Account :=
  if forThem = false then some .user
  else if state.provisional.has room then some .introduction
  else if room ∈ state.theirs then some .theirs
  else if room ∈ state.joined then some .user
  else if state.theirs.card < MAX_DMS_JOINED_FOR_THEM then some .theirs
  else none

def Bindings.addTheirs (state : Bindings) (room : Nat) : Bindings :=
  { state with forThem := state.forThem.map fun kept => (kept.1, insert room kept.2) }

def Bindings.eraseTheirs (state : Bindings) (room : Nat) : Bindings :=
  { state with forThem := state.forThem.map fun kept => (kept.1, kept.2.erase room) }

def Bindings.noteJoin (state : Bindings) (room : Nat) (account : Account) (asked : Bool) :
    Bindings :=
  if account = .user then
    { state.eraseTheirs room with
      provisional := state.provisional.delete room
      mine := if asked then insert room state.mine else state.mine
      mineNow := if asked then insert room state.mineNow else state.mineNow }
  else if account = .theirs ∨ state.theirs.card < MAX_DMS_JOINED_FOR_THEM then
    { state.addTheirs room with provisional := state.provisional.delete room }
  else state

def Call.forThem (call : Call) : Bool := decide (call.asker ≠ .user)

def Bindings.at (state : Bindings) (call : Call) (stage : Stage) : Bindings :=
  { state with calls := { call with stage := stage } :: state.calls }

/-- After a join: a stored conversation needs nothing more. -/
def Bindings.afterJoin (state : Bindings) (call : Call) (account : Option Account)
    (existing : Bool) : Bindings :=
  if existing then state else state.at call (.storing account)

/-- `_joinDm` from its choice of an account. -/
def Bindings.joinDm (state : Bindings) (call : Call) (existing : Option (Option PqState)) :
    Bindings :=
  let state := state.joinedForThem call.session
  match state.joinAccount call.room call.forThem with
  | none => state.afterJoin call none existing.isSome
  | some account =>
    let stored := existing.join
    match state.joinDmConversation call.room (call.pqState.or stored) with
    | some joined =>
      (joined.noteJoin call.room account (!call.forThem)).afterJoin call (some account)
        existing.isSome
    | none =>
      if (call.pqState.or stored).isSome then state
      else state.at call (.retrying account existing.isSome)

/-- `_joinDm` up to its first await. -/
def Bindings.startJoinDm (state : Bindings) (call : Call) (existing : Option (Option PqState)) :
    Bindings :=
  if state.session ≠ some call.session then state
  else if existing.isSome ∧ call.pqState.isSome then state.at call (.upgrading existing.join)
  else state.joinDm call existing

/-- The first part of a call, up to the await it comes to. -/
def Bindings.look (state : Bindings) (call : Call) (existing : Option (Option PqState)) :
    Bindings :=
  if state.session ≠ some call.session then state
  else
    let adopted := if existing.isNone then
      call.pqState.or (state.provisional.get call.room).join else call.pqState
    let call := { call with pqState := adopted }
    match existing with
    | none =>
      if call.asker ≠ .user ∧
          ¬ (call.asker = .introduction ∧ state.provisional.has call.room = true) then
        state.at call .admitting
      else if call.asker = .introduction then
        state.joinProvisionally call.session call.room call.pqState
      else state.startJoinDm call none
    | some stored =>
      if call.asker = .introduction ∧
          (state.provisional.has call.room = true ∨ call.room ∉ state.joined) then
        state.at call (.asking stored)
      else state.startJoinDm call (some stored)

/-- The session is not looked at again before the provisional join. -/
def Bindings.admission (state : Bindings) (call : Call) (full : Bool) : Bindings :=
  if full then state
  else if call.asker = .introduction then
    state.joinProvisionally call.session call.room call.pqState
  else state.startJoinDm call none

/-- A stored, empty conversation is joined in the bounded way. -/
def Bindings.joinEmpty (state : Bindings) (call : Call) (stored : Option PqState) : Bindings :=
  if state.session ≠ some call.session then state
  else
    let state := state.joinedForThem call.session
    if state.provisional.has call.room = false ∧ call.room ∉ state.theirs then
      state.at call (.introducing stored)
    else state.joinProvisionally call.session call.room (call.pqState.or stored)

def Bindings.holds (state : Bindings) (call : Call) (stored : Option PqState) (answer : Bool) :
    Bindings :=
  if answer then state.startJoinDm call (some stored)
  else if call.pqState.isSome then
    if state.session ≠ some call.session then state else state.at call (.recording stored)
  else state.joinEmpty call stored

def Bindings.retry (state : Bindings) (call : Call) (account : Account) (existing : Bool)
    (fresh : Option PqState) : Bindings :=
  if state.session ≠ some call.session then state
  else
    match fresh.or (state.provisional.get call.room).join with
    | none => state
    | some pq =>
      match state.joinDmConversation call.room (some pq) with
      | none => state
      | some joined =>
        ((joined.joinedForThem call.session).noteJoin call.room account
          (!call.forThem)).afterJoin call (some account) existing

/-- The record is stored under the call's session, or not at all. A provisional join that
was made meanwhile is the user's. -/
def Bindings.store (state : Bindings) (call : Call) (account : Option Account) : Bindings :=
  if state.session ≠ some call.session then state
  else if account = some .user then
    { state with
      provisional := state.provisional.delete call.room
      mine := if call.forThem then state.mine else insert call.room state.mine
      mineNow := if call.forThem then state.mineNow else insert call.room state.mineNow }
  else state

/-- One round of the loop of `joinSavedDms`, with the count of those joined so far. -/
def Bindings.joinSaved (state : Bindings) (joined : Nat) (saved : SavedDm) : Bindings × Nat :=
  if saved.mine = false ∧ (saved.written = false ∨ SAVED_DMS_JOINED_AT_CONNECT ≤ joined ∨
      (saved.room ∈ state.joined ∧ saved.room ∉ state.theirs ∧
        state.provisional.has saved.room = false) ∨
      (saved.room ∉ state.theirs ∧ MAX_DMS_JOINED_FOR_THEM ≤ state.theirs.card)) then
    (state, joined)
  else
    match state.joinDmConversation saved.room saved.pq with
    | none => (state, joined)
    | some bound =>
      if saved.mine then (bound.noteJoin saved.room .user true, joined)
      else (bound.noteJoin saved.room .theirs false, joined + 1)

/-- The loop over the saved DMs, the ones read last first. -/
def Bindings.joinSavedDms (state : Bindings) (rooms : List SavedDm) : Bindings :=
  (rooms.foldl (fun reached saved => reached.1.joinSaved reached.2 saved) (state, 0)).1

/-- The observers of a lock: what is bound on others' account is forgotten, and the transport
leaves the rest. -/
def Bindings.lock (state : Bindings) : Bindings :=
  { state with
    session := none
    bound := state.bound.keep fun room =>
      !state.provisional.has room && decide (room ∉ state.theirs)
    joined := ∅
    provisional := OrderedMap.empty
    forThem := none
    mineNow := ∅ }

def Event.call : Event → Option Call
  | .look call _ => some call
  | .admission call _ => some call
  | .holds call _ => some call
  | .recorded call => some call
  | .introduce call _ => some call
  | .upgraded call => some call
  | .retry call _ => some call
  | .store call => some call
  | .fail call => some call
  | _ => none

/-- A call goes on from its await; it is no longer among those waiting. -/
def resume (state : Bindings) (call : Call) : Event → Option Bindings
  | .look _ existing => if call.stage = .looking then some (state.look call existing) else none
  | .admission _ full => if call.stage = .admitting then some (state.admission call full) else none
  | .holds _ answer =>
    match call.stage with
    | .asking existing => some (state.holds call existing answer)
    | _ => none
  | .recorded _ =>
    match call.stage with
    | .recording existing => some (state.joinEmpty call existing)
    | _ => none
  | .introduce _ allowed =>
    match call.stage with
    | .introducing existing =>
      if allowed = false ∨ state.session ≠ some call.session then some state
      else some (state.joinProvisionally call.session call.room (call.pqState.or existing))
    | _ => none
  | .upgraded _ =>
    match call.stage with
    | .upgrading existing =>
      if state.session ≠ some call.session then some state
      else some (state.joinDm call (some existing))
    | _ => none
  | .retry _ fresh =>
    match call.stage with
    | .retrying account existing => some (state.retry call account existing fresh)
    | _ => none
  | .store _ =>
    match call.stage with
    | .storing account => some (state.store call account)
    | _ => none
  | .fail _ => some state
  | _ => none

def step (state : Bindings) (event : Event) : Option Bindings :=
  match event with
  | .ensureDmRoomForPeer room asker pqState =>
    state.session.map fun session =>
      { state with calls := ⟨session, room, asker, pqState, .looking⟩ :: state.calls }
  | .joinSavedDms rooms =>
    state.session.map fun session => (state.joinedForThem session).joinSavedDms rooms
  | .forget room => some (state.forgetJoin room)
  | .lock => some state.lock
  | .unlock =>
    if state.session = none then
      some { state with session := some state.sessions, sessions := state.sessions + 1 }
    else none
  | .disconnect => some { state with joined := ∅ }
  | event => event.call.bind fun call =>
    if call ∈ state.calls then
      resume { state with calls := state.calls.erase call } call event
    else none

/-- The account that a retried join was begun on is still its account. -/
def Bindings.sameAccount (state : Bindings) (call : Call) : Bool :=
  match call.stage with
  | .retrying account _ => decide (state.joinAccount call.room call.forThem = some account)
  | _ => true

/-- An introduction goes on in the session it began in; a join that is retried is still on
the account it was begun on; and a call nobody here made does not store a conversation as
the user's that became an introduction's meanwhile. -/
def Orderly (state : Bindings) : Event → Prop
  | .admission call full =>
    full = false → call.asker = .introduction → state.session = some call.session
  | .retry call _ => state.sameAccount call = true
  | .store call => call.stage = .storing (some .user) → call.forThem = true →
      state.provisional.has call.room = false
  | _ => True

instance (state : Bindings) : DecidablePred (Orderly state)
  | .admission call full => inferInstanceAs (Decidable (_ → _))
  | .retry call _ => inferInstanceAs (Decidable (state.sameAccount call = true))
  | .store call => inferInstanceAs (Decidable (_ → _))
  | .ensureDmRoomForPeer _ _ _ | .look _ _ | .holds _ _ | .recorded _ | .introduce _ _
  | .upgraded _ | .fail _ | .joinSavedDms _ | .forget _ | .lock | .unlock
  | .disconnect => isTrue trivial

/-- What holds of the two sets and of what is bound. A lock keeps the bindings of the user's
conversations, which are joined again in the next session. -/
structure Accounted (state : Bindings) : Prop where
  provisional : state.provisional.size ≤ MAX_PROVISIONAL_DMS
  theirs : state.theirs.card ≤ MAX_DMS_JOINED_FOR_THEM
  apart : ∀ room, state.provisional.has room = true → room ∉ state.theirs
  bound : ∀ room, state.bound.has room = true →
    state.provisional.has room = true ∨ room ∈ state.theirs ∨ room ∈ state.mine
  joined : ∀ room ∈ state.joined,
    state.provisional.has room = true ∨ room ∈ state.theirs ∨ room ∈ state.mineNow

def Bindings.start : Bindings :=
  ⟨none, 0, OrderedMap.empty, ∅, OrderedMap.empty, none, [], ∅, ∅⟩

structure Inv (state : Bindings) : Prop extends Accounted state where
  owner : ∀ kept ∈ state.forThem, state.session = some kept.1
  within : state.mineNow ⊆ state.mine

theorem start_inv : Inv Bindings.start where
  provisional := Nat.zero_le _
  theirs := Nat.zero_le _
  apart := nofun
  bound := nofun
  joined := nofun
  owner := nofun
  within := Finset.Subset.refl _

variable {state : Bindings} {room : Nat} {map : OrderedMap Nat (Option PqState)}
  {pq : Option PqState} {session : Nat}

variable {key other : Nat} {forThem : Bool}

theorem has_delete :
    (map.delete key).has other = true ↔ other ≠ key ∧ map.has other = true := by
  unfold OrderedMap.has
  rw [get_delete]
  split
  · rename_i same
    simp [same]
  · rename_i apart
    simp [apart]

theorem has_set {value : Option PqState} :
    (map.set key value).has other = true ↔ other = key ∨ map.has other = true := by
  unfold OrderedMap.has
  rw [get_set]
  split
  · rename_i same
    simp [same]
  · rename_i apart
    simp [apart]

theorem bound_set {map : OrderedMap Nat (Option Nat)} {value : Option Nat} :
    (map.set key value).has other = true ↔ other = key ∨ map.has other = true := by
  unfold OrderedMap.has
  rw [get_set]
  split
  · rename_i same
    simp [same]
  · rename_i apart
    simp [apart]

theorem bound_delete {map : OrderedMap Nat (Option Nat)} :
    (map.delete key).has other = true ↔ other ≠ key ∧ map.has other = true := by
  unfold OrderedMap.has
  rw [get_delete]
  split
  · rename_i same
    simp [same]
  · rename_i apart
    simp [apart]

theorem size_delete_le (map : OrderedMap Nat (Option PqState)) (key : Nat) :
    (map.delete key).size ≤ map.size := length_filter_le _ _

theorem Inv.with_calls (inv : Inv state) (calls : List Call) :
    Inv { state with calls := calls } :=
  ⟨⟨inv.provisional, inv.theirs, inv.apart, inv.bound, inv.joined⟩, inv.owner, inv.within⟩

theorem joined_for_them (inv : Inv state) (opened : state.session = some session) :
    Inv (state.joinedForThem session) ∧
      (state.joinedForThem session).forThem = some (session, state.theirs) ∧
      state.joinedForThem session =
        { state with forThem := (state.joinedForThem session).forThem } := by
  cases kept : state.forThem with
  | none =>
    have empty : state.theirs = ∅ := by rw [Bindings.theirs, kept]
    have shape : state.joinedForThem session = { state with forThem := some (session, ∅) } := by
      rw [Bindings.joinedForThem, kept]
    rw [shape, empty]
    refine ⟨⟨⟨inv.provisional, Nat.zero_le _, fun _ _ => Finset.notMem_empty _, ?_, ?_⟩, ?_,
      inv.within⟩, rfl, rfl⟩
    · intro room bound
      have covered := inv.bound room bound
      rwa [empty] at covered
    · intro room joined
      have covered := inv.joined room joined
      rwa [empty] at covered
    · intro other found
      cases found
      exact opened
  | some pair =>
    obtain ⟨owner, rooms⟩ := pair
    have same : owner = session := by
      have held := inv.owner (owner, rooms) kept
      rw [opened] at held
      exact (Option.some.inj held).symm
    have shape : state.joinedForThem session = state := by
      rw [Bindings.joinedForThem, kept]
      simp [same]
    rw [shape, kept, Bindings.theirs, kept, same]
    exact ⟨inv, rfl, by rw [← same, ← kept]⟩

theorem join_cases {state next : Bindings} (joined : state.joinDmConversation room pq = some next) :
    ∃ key, next = { state with
      bound := state.bound.set room key
      joined := insert room state.joined } := by
  unfold Bindings.joinDmConversation at joined
  split at joined
  · rename_i key _ _
    simp only at joined
    split at joined
    · split at joined
      · cases joined
      · exact ⟨key, (Option.some.inj joined).symm⟩
    · split at joined
      · cases joined
      · exact ⟨key, (Option.some.inj joined).symm⟩
  · cases joined

theorem Inv.place {state next : Bindings} {key : Option Nat} (inv : Inv state)
    (bound : next.bound = state.bound.set room key)
    (joined : next.joined = insert room state.joined)
    (owner : ∀ kept ∈ next.forThem, next.session = some kept.1)
    (provisional : next.provisional.size ≤ MAX_PROVISIONAL_DMS)
    (theirs : next.theirs.card ≤ MAX_DMS_JOINED_FOR_THEM)
    (apart : ∀ other, next.provisional.has other = true → other ∉ next.theirs)
    (others : ∀ other, other ≠ room →
      (state.provisional.has other = true → next.provisional.has other = true) ∧
      (other ∈ state.theirs → other ∈ next.theirs))
    (mine : state.mine ⊆ next.mine) (mineNow : state.mineNow ⊆ next.mineNow)
    (within : next.mineNow ⊆ next.mine)
    (here : next.provisional.has room = true ∨ room ∈ next.theirs ∨ room ∈ next.mineNow) :
    Inv next := by
  refine ⟨⟨provisional, theirs, apart, ?_, ?_⟩, owner, within⟩
  · intro other present
    by_cases same : other = room
    · rw [same]
      exact here.imp_right fun rest => rest.imp_right fun mem => within mem
    · rw [bound] at present
      have before := (bound_set.mp present).resolve_left same
      obtain ⟨keepsProvisional, keepsTheirs⟩ := others other same
      exact (inv.bound other before).imp keepsProvisional fun rest =>
        rest.imp keepsTheirs fun mem => mine mem
  · intro other present
    by_cases same : other = room
    · rw [same]
      exact here
    · rw [joined] at present
      have before := (Finset.mem_insert.mp present).resolve_left same
      obtain ⟨keepsProvisional, keepsTheirs⟩ := others other same
      exact (inv.joined other before).imp keepsProvisional fun rest =>
        rest.imp keepsTheirs fun mem => mineNow mem

theorem Inv.forget {state next : Bindings} (inv : Inv state)
    (bound : next.bound = state.bound.delete room) (joined : next.joined = state.joined.erase room)
    (mine : next.mine = state.mine.erase room) (mineNow : next.mineNow = state.mineNow.erase room)
    (session : next.session = state.session)
    (owner : ∀ kept ∈ next.forThem, ∃ before ∈ state.forThem, before.1 = kept.1)
    (provisional : next.provisional.size ≤ state.provisional.size)
    (theirs : next.theirs ⊆ state.theirs)
    (listed : ∀ other, next.provisional.has other = true → state.provisional.has other = true)
    (others : ∀ other, other ≠ room →
      (state.provisional.has other = true → next.provisional.has other = true) ∧
      (other ∈ state.theirs → other ∈ next.theirs)) : Inv next := by
  refine ⟨⟨provisional.trans inv.provisional, (Finset.card_le_card theirs).trans inv.theirs, ?_, ?_,
    ?_⟩, ?_, ?_⟩
  · intro other held mem
    exact inv.apart other (listed other held) (theirs mem)
  · intro other present
    rw [bound] at present
    obtain ⟨different, before⟩ := bound_delete.mp present
    obtain ⟨keepsProvisional, keepsTheirs⟩ := others other different
    refine (inv.bound other before).imp keepsProvisional fun rest => rest.imp keepsTheirs ?_
    intro mem
    rw [mine]
    exact Finset.mem_erase.mpr ⟨different, mem⟩
  · intro other present
    rw [joined] at present
    obtain ⟨different, before⟩ := Finset.mem_erase.mp present
    obtain ⟨keepsProvisional, keepsTheirs⟩ := others other different
    refine (inv.joined other before).imp keepsProvisional fun rest => rest.imp keepsTheirs ?_
    intro mem
    rw [mineNow]
    exact Finset.mem_erase.mpr ⟨different, mem⟩
  · intro kept found
    obtain ⟨before, there, same⟩ := owner kept found
    rw [session, inv.owner before there, same]
  · rw [mine, mineNow]
    exact Finset.erase_subset_erase room inv.within

theorem erase_theirs_theirs (state : Bindings) (room : Nat) :
    (state.eraseTheirs room).theirs = state.theirs.erase room := by
  unfold Bindings.eraseTheirs Bindings.theirs
  cases state.forThem with
  | none => simp
  | some kept => rfl

theorem Inv.forget_join (inv : Inv state) (room : Nat) :
    Inv (state.forgetJoin room) := by
  have theirs : (state.forgetJoin room).theirs = state.theirs.erase room :=
    erase_theirs_theirs state room
  refine @Inv.forget room state (state.forgetJoin room) inv rfl rfl rfl rfl rfl ?_ ?_ ?_ ?_ ?_
  · intro kept found
    obtain ⟨before, there, same⟩ := map_eq_some_iff.mp found
    exact ⟨before, there, by rw [← same]⟩
  · exact size_delete_le _ _
  · rw [theirs]
    exact Finset.erase_subset _ _
  · exact fun other held => (has_delete.mp held).2
  · intro other different
    rw [theirs]
    exact ⟨fun held => has_delete.mpr ⟨different, held⟩,
      fun mem => Finset.mem_erase.mpr ⟨different, mem⟩⟩

/-- The oldest provisional join makes way. -/
def Bindings.makeWay (state : Bindings) (oldest : Nat) : Bindings :=
  Bindings.forgetConversation
    { state with provisional := state.provisional.delete oldest } oldest

theorem Inv.make_way (inv : Inv state) (oldest : Nat) :
    Inv (state.makeWay oldest) := by
  refine @Inv.forget oldest state (state.makeWay oldest) inv rfl rfl rfl rfl rfl ?_ ?_ ?_ ?_ ?_
  · exact fun kept found => ⟨kept, found, rfl⟩
  · exact size_delete_le _ _
  · exact Finset.Subset.refl _
  · exact fun other held => (has_delete.mp held).2
  · exact fun other different => ⟨fun held => has_delete.mpr ⟨different, held⟩, id⟩

theorem Inv.evict (inv : Inv state) (keys : List Nat) :
    Inv (state.evict keys) ∧ (state.evict keys).forThem = state.forThem ∧
      (state.evict keys).session = state.session := by
  induction keys generalizing state with
  | nil => exact ⟨inv, rfl, rfl⟩
  | cons oldest rest ih =>
    rw [Bindings.evict]
    split
    · exact ⟨inv, rfl, rfl⟩
    · exact ih (inv.make_way oldest)

theorem evict_size (state : Bindings) (keys : List Nat)
    (all : ∀ room, state.provisional.has room = true → room ∈ keys) :
    (state.evict keys).provisional.size < MAX_PROVISIONAL_DMS := by
  induction keys generalizing state with
  | nil =>
    have empty : state.provisional.size = 0 := by
      rw [size_eq_zero]
      intro room
      by_contra held
      exact absurd (all room (isSome_iff_ne_none.mpr held)) (not_mem_nil)
    rw [Bindings.evict, empty]
    decide
  | cons oldest rest ih =>
    rw [Bindings.evict]
    split
    · assumption
    · apply ih (state.makeWay oldest)
      intro room held
      obtain ⟨different, before⟩ := has_delete.mp held
      exact (mem_cons.mp (all room before)).resolve_left different

theorem has_keys (held : map.has room = true) : room ∈ map.keys :=
  mem_keys_iff.mpr (isSome_iff_ne_none.mp held)

theorem Inv.join_held {state next : Bindings} (inv : Inv state)
    (joined : state.joinDmConversation room pq = some next)
    (here : state.provisional.has room = true ∨ room ∈ state.theirs ∨ room ∈ state.mineNow) :
    Inv next := by
  obtain ⟨key, rfl⟩ := join_cases joined
  exact inv.place rfl rfl inv.owner inv.provisional inv.theirs inv.apart
    (fun _ _ => ⟨id, id⟩) (Finset.Subset.refl _) (Finset.Subset.refl _) inv.within here

theorem Inv.put_provisional {state next : Bindings} (inv : Inv state) (apart : room ∉ state.theirs)
    (space : state.provisional.has room = true ∨ state.provisional.size < MAX_PROVISIONAL_DMS)
    (joined : state.joinDmConversation room pq = some next) :
    Inv { next with provisional := (next.provisional.delete room).set room pq } := by
  obtain ⟨key, rfl⟩ := join_cases joined
  have absent : (state.provisional.delete room).get room = none := by
    rw [get_delete, if_pos rfl]
  have size : ((state.provisional.delete room).set room pq).size ≤ MAX_PROVISIONAL_DMS := by
    rw [size_set_of_absent pq absent]
    cases space with
    | inr few => exact (Nat.succ_le_succ (size_delete_le _ _)).trans few
    | inl held =>
      obtain ⟨value, found⟩ := isSome_iff_exists.mp held
      have fewer : (state.provisional.delete room).size < state.provisional.size := by
        apply length_filter_lt_length_iff_exists.mpr
        exact ⟨(room, value), mem_of_get found, by simp⟩
      exact (Nat.succ_le_of_lt fewer).trans inv.provisional
  have listed : ∀ other, ((state.provisional.delete room).set room pq).has other = true ↔
      other = room ∨ state.provisional.has other = true := by
    intro other
    rw [has_set, has_delete]
    by_cases same : other = room <;> simp [same]
  apply @Inv.place room state { state with
    bound := state.bound.set room key
    joined := insert room state.joined
    provisional := (state.provisional.delete room).set room pq } key inv rfl rfl inv.owner size
    inv.theirs
  · intro other held
    cases (listed other).mp held with
    | inl same => exact same ▸ apart
    | inr before => exact inv.apart other before
  · exact fun other _ => ⟨fun held => (listed other).mpr (Or.inr held), id⟩
  · exact Finset.Subset.refl _
  · exact Finset.Subset.refl _
  · exact inv.within
  · exact Or.inl ((listed room).mpr (Or.inl rfl))

theorem Inv.join_provisionally (inv : Inv state) (opened : state.session = some session)
    (room : Nat) (pq : Option PqState) :
    Inv (state.joinProvisionally session room pq) := by
  obtain ⟨owned, _, _⟩ := joined_for_them inv opened
  unfold Bindings.joinProvisionally
  simp only
  split
  · rename_i theirs
    cases joined : (state.joinedForThem session).joinDmConversation room pq with
    | none => exact owned
    | some next => exact owned.join_held joined (Or.inr (Or.inl theirs))
  · rename_i apart
    have ready : ∀ ready : Bindings, Inv ready → room ∉ ready.theirs →
        (ready.provisional.has room = true ∨ ready.provisional.size < MAX_PROVISIONAL_DMS) →
        Inv (match ready.joinDmConversation room pq with
          | none => ready
          | some joined =>
            { joined with provisional := (joined.provisional.delete room).set room pq }) := by
      intro ready whole outside space
      split
      · exact whole
      · rename_i joined found
        exact whole.put_provisional outside space found
    apply ready
    · split
      · exact owned
      · exact (owned.evict _).1
    · split
      · exact apart
      · rw [Bindings.theirs, (owned.evict _).2.1]
        exact apart
    · split
      · rename_i held
        exact Or.inl held
      · exact Or.inr (evict_size _ _ fun _ held => has_keys held)

theorem add_theirs_theirs (owned : state.forThem = some (session, state.theirs)) (room : Nat) :
    (state.addTheirs room).theirs = insert room state.theirs := by
  unfold Bindings.addTheirs
  rw [owned]
  rfl

theorem joined_for_user (inv : Inv state)
    (chosen : state.joinAccount room true = some .user) : room ∈ state.mineNow := by
  unfold Bindings.joinAccount at chosen
  rw [if_neg (by decide)] at chosen
  split at chosen
  · cases chosen
  · rename_i absent
    split at chosen
    · cases chosen
    · rename_i outside
      split at chosen
      · rename_i present
        exact ((inv.joined room present).resolve_left absent).resolve_left outside
      · split at chosen <;> cases chosen

theorem theirs_account (chosen : state.joinAccount room forThem = some .theirs) :
    room ∈ state.theirs ∨ state.theirs.card < MAX_DMS_JOINED_FOR_THEM := by
  unfold Bindings.joinAccount at chosen
  split at chosen
  · cases chosen
  · split at chosen
    · cases chosen
    · split at chosen
      · rename_i there
        exact Or.inl there
      · split at chosen
        · cases chosen
        · split at chosen
          · rename_i few
            exact Or.inr few
          · cases chosen

theorem introduction_account (chosen : state.joinAccount room forThem = some .introduction) :
    state.provisional.has room = true := by
  unfold Bindings.joinAccount at chosen
  split at chosen
  · cases chosen
  · split at chosen
    · assumption
    · split at chosen
      · cases chosen
      · split at chosen
        · cases chosen
        · split at chosen <;> cases chosen

theorem Inv.note_user {key : Option Nat} {asked : Bool} (inv : Inv state)
    (known : asked = false → room ∈ state.mineNow) :
    Inv (Bindings.noteJoin { state with
      bound := state.bound.set room key
      joined := insert room state.joined } room .user asked) := by
  have grown : ∀ rooms : Finset Nat, rooms ⊆ if asked then insert room rooms else rooms := by
    intro rooms
    split
    · exact Finset.subset_insert _ _
    · exact Finset.Subset.refl _
  have theirs : (Bindings.noteJoin { state with
      bound := state.bound.set room key
      joined := insert room state.joined } room .user asked).theirs = state.theirs.erase room :=
    erase_theirs_theirs state room
  refine @Inv.place room state _ key inv rfl rfl ?_ ?_ ?_ ?_ ?_ (grown state.mine)
    (grown state.mineNow) ?_ ?_
  · intro kept found
    obtain ⟨before, there, rfl⟩ := map_eq_some_iff.mp found
    exact inv.owner before there
  · exact (size_delete_le _ _).trans inv.provisional
  · rw [theirs]
    exact (Finset.card_le_card (Finset.erase_subset _ _)).trans inv.theirs
  · intro other held mem
    rw [theirs] at mem
    exact inv.apart other (has_delete.mp held).2 (Finset.mem_of_mem_erase mem)
  · intro other different
    rw [theirs]
    exact ⟨fun held => has_delete.mpr ⟨different, held⟩,
      fun mem => Finset.mem_erase.mpr ⟨different, mem⟩⟩
  · show (if asked then insert room state.mineNow else state.mineNow) ⊆
      if asked then insert room state.mine else state.mine
    split
    · exact Finset.insert_subset_insert room inv.within
    · exact inv.within
  · refine Or.inr (Or.inr ?_)
    show room ∈ if asked then insert room state.mineNow else state.mineNow
    split
    · exact Finset.mem_insert_self _ _
    · rename_i unasked
      exact known (Bool.not_eq_true _ ▸ unasked)

theorem Inv.note_theirs {room session : Nat} {key : Option Nat} (inv : Inv state)
    (owned : state.forThem = some (session, state.theirs))
    (space : room ∈ state.theirs ∨ state.theirs.card < MAX_DMS_JOINED_FOR_THEM) :
    Inv { state with
      bound := state.bound.set room key
      joined := insert room state.joined
      provisional := state.provisional.delete room
      forThem := state.forThem.map fun kept => (kept.1, insert room kept.2) } := by
  have theirs : Bindings.theirs { state with
      bound := state.bound.set room key
      joined := insert room state.joined
      provisional := state.provisional.delete room
      forThem := state.forThem.map fun kept => (kept.1, insert room kept.2) } =
        insert room state.theirs := add_theirs_theirs owned room
  refine @Inv.place room state _ key inv rfl rfl ?_ ?_ ?_ ?_ ?_ (Finset.Subset.refl _)
    (Finset.Subset.refl _) inv.within ?_
  · intro kept found
    obtain ⟨before, there, rfl⟩ := map_eq_some_iff.mp found
    exact inv.owner before there
  · exact (size_delete_le _ _).trans inv.provisional
  · rw [theirs]
    cases space with
    | inl there =>
      rw [Finset.insert_eq_of_mem there]
      exact inv.theirs
    | inr few => exact (Finset.card_insert_le _ _).trans few
  · intro other held mem
    obtain ⟨different, before⟩ := has_delete.mp held
    rw [theirs] at mem
    exact inv.apart other before (Finset.mem_of_mem_insert_of_ne mem different)
  · intro other different
    rw [theirs]
    exact ⟨fun held => has_delete.mpr ⟨different, held⟩, Finset.mem_insert_of_mem⟩
  · rw [theirs]
    exact Or.inr (Or.inl (Finset.mem_insert_self _ _))

theorem Inv.note_join {state next : Bindings} {room session : Nat} {account : Account}
    (inv : Inv state) (owned : state.forThem = some (session, state.theirs))
    (chosen : state.joinAccount room forThem = some account)
    (joined : state.joinDmConversation room pq = some next) :
    Inv (next.noteJoin room account (!forThem)) := by
  have held := inv.join_held joined
  obtain ⟨key, rfl⟩ := join_cases joined
  cases account with
  | user =>
    apply inv.note_user
    intro unasked
    rw [Bool.not_eq_false'] at unasked
    rw [unasked] at chosen
    exact joined_for_user inv chosen
  | theirs =>
    rw [Bindings.noteJoin, if_neg (by decide), if_pos (Or.inl rfl)]
    exact inv.note_theirs owned (theirs_account chosen)
  | introduction =>
    rw [Bindings.noteJoin, if_neg (by decide)]
    split
    · rename_i space
      exact inv.note_theirs owned (Or.inr (space.resolve_left (by decide)))
    · exact held (Or.inl (introduction_account chosen))

theorem Inv.after_join (inv : Inv state) (call : Call) (account : Option Account)
    (existing : Bool) : Inv (state.afterJoin call account existing) := by
  unfold Bindings.afterJoin
  split
  · exact inv
  · exact inv.with_calls _

theorem Inv.join_dm {call : Call} (inv : Inv state) (opened : state.session = some call.session)
    (existing : Option (Option PqState)) :
    Inv (state.joinDm call existing) := by
  obtain ⟨owned, kept, shape⟩ := joined_for_them inv opened
  have same : (state.joinedForThem call.session).theirs = state.theirs := by
    rw [Bindings.theirs, kept]
  rw [← same] at kept
  unfold Bindings.joinDm
  simp only
  split
  · exact owned.after_join _ _ _
  · rename_i account chosen
    split
    · rename_i joined found
      exact (owned.note_join kept chosen found).after_join _ _ _
    · split
      · exact owned
      · exact owned.with_calls _

theorem Inv.start_join_dm (inv : Inv state) (call : Call)
    (existing : Option (Option PqState)) : Inv (state.startJoinDm call existing) := by
  unfold Bindings.startJoinDm
  split
  · exact inv
  · rename_i opened
    split
    · exact inv.with_calls _
    · exact inv.join_dm (not_not.mp opened) existing

theorem Inv.look (inv : Inv state) (call : Call)
    (existing : Option (Option PqState)) : Inv (state.look call existing) := by
  unfold Bindings.look
  split
  · exact inv
  · rename_i opened
    simp only
    cases existing with
    | none =>
      simp only
      split
      · exact inv.with_calls _
      · split
        · exact inv.join_provisionally (not_not.mp opened) _ _
        · exact inv.start_join_dm _ _
    | some stored =>
      simp only
      split
      · exact inv.with_calls _
      · exact inv.start_join_dm _ _

theorem Inv.admission {call : Call} {full : Bool} (inv : Inv state)
    (same : full = false → call.asker = .introduction → state.session = some call.session) :
    Inv (state.admission call full) := by
  unfold Bindings.admission
  split
  · exact inv
  · rename_i admitted
    split
    · rename_i introduction
      exact inv.join_provisionally (same (Bool.not_eq_true _ ▸ admitted) introduction) _ _
    · exact inv.start_join_dm _ _

theorem Inv.join_empty (inv : Inv state) (call : Call)
    (stored : Option PqState) : Inv (state.joinEmpty call stored) := by
  unfold Bindings.joinEmpty
  split
  · exact inv
  · rename_i opened
    obtain ⟨owned, _, shape⟩ := joined_for_them inv (not_not.mp opened)
    simp only
    split
    · exact owned.with_calls _
    · apply owned.join_provisionally
      rw [shape]
      exact not_not.mp opened

theorem Inv.holds (inv : Inv state) (call : Call) (stored : Option PqState)
    (answer : Bool) : Inv (state.holds call stored answer) := by
  unfold Bindings.holds
  split
  · exact inv.start_join_dm _ _
  · split
    · split
      · exact inv
      · exact inv.with_calls _
    · exact inv.join_empty _ _

theorem join_for_them {state next : Bindings} (session : Nat)
    (joined : state.joinDmConversation room pq = some next) :
    (state.joinedForThem session).joinDmConversation room pq =
      some (next.joinedForThem session) := by
  have fresh : Bindings.joinDmConversation { state with forThem := some (session, ∅) } room pq =
      some { next with forThem := some (session, ∅) } := by
    unfold Bindings.joinDmConversation at joined ⊢
    simp only
    split at joined
    · simp only at joined
      split at joined <;> split at joined <;> cases joined <;> simp_all
    · cases joined
  have kept : next.forThem = state.forThem := by
    obtain ⟨key, rfl⟩ := join_cases joined
    rfl
  unfold Bindings.joinedForThem
  rw [kept]
  split
  · exact fresh
  · split
    · exact joined
    · exact fresh

section

variable {state : Bindings} (inv : Inv state)
include inv

theorem Inv.retry {call : Call} {account : Account} (existing : Bool) (fresh : Option PqState)
    (chosen : state.joinAccount call.room call.forThem = some account) :
    Inv (state.retry call account existing fresh) := by
  unfold Bindings.retry
  split
  · exact inv
  · rename_i opened
    split
    · exact inv
    · rename_i pq _
      split
      · exact inv
      · rename_i joined found
        obtain ⟨owned, kept, shape⟩ := joined_for_them inv (not_not.mp opened)
        have same : (state.joinedForThem call.session).theirs = state.theirs := by
          rw [Bindings.theirs, kept]
        have account_ : (state.joinedForThem call.session).joinAccount call.room call.forThem =
            some account := by
          unfold Bindings.joinAccount at chosen ⊢
          rw [same]
          rw [shape]
          exact chosen
        have later := join_for_them call.session found
        rw [← same] at kept
        exact (owned.note_join kept account_ later).after_join _ _ _

theorem Inv.store {call : Call} {account : Option Account}
    (theirs : account = some .user → call.forThem = true →
      state.provisional.has call.room = false) : Inv (state.store call account) := by
  unfold Bindings.store
  split
  · exact inv
  · split
    · rename_i user
      cases asked : call.forThem with
      | true =>
        have absent := theirs user asked
        have same : state.provisional.delete call.room = state.provisional := by
          apply delete_of_absent
          simpa [OrderedMap.has] using absent
        rw [same]
        exact inv
      | false =>
        refine ⟨⟨(size_delete_le _ _).trans inv.provisional, inv.theirs, ?_, ?_, ?_⟩, inv.owner,
          Finset.insert_subset_insert _ inv.within⟩
        · exact fun other held => inv.apart other (has_delete.mp held).2
        · intro other bound
          by_cases same : other = call.room
          · exact Or.inr (Or.inr (Finset.mem_insert.mpr (Or.inl same)))
          · exact (inv.bound other bound).imp (fun held => has_delete.mpr ⟨same, held⟩)
              fun rest => rest.imp_right Finset.mem_insert_of_mem
        · intro other joined
          by_cases same : other = call.room
          · exact Or.inr (Or.inr (Finset.mem_insert.mpr (Or.inl same)))
          · exact (inv.joined other joined).imp (fun held => has_delete.mpr ⟨same, held⟩)
              fun rest => rest.imp_right Finset.mem_insert_of_mem
    · exact inv

theorem Inv.lock : Inv state.lock where
  provisional := Nat.zero_le _
  theirs := Nat.zero_le _
  apart := nofun
  bound := by
    intro room bound
    refine Or.inr (Or.inr ?_)
    unfold Bindings.lock OrderedMap.has at bound
    rw [get_keep] at bound
    split at bound
    · rename_i stays
      simp only [Bool.and_eq_true, Bool.not_eq_true', decide_eq_true_eq] at stays
      rcases inv.bound room bound with held | mem | mine
      · exact absurd held (Bool.eq_false_iff.mp stays.1)
      · exact absurd mem stays.2
      · exact mine
    · cases bound
  joined := fun room joined => absurd joined (Finset.notMem_empty room)
  owner := nofun
  within := Finset.empty_subset _

end

theorem owned_theirs (owner : state.forThem.map Prod.fst = some session) :
    state.forThem = some (session, state.theirs) := by
  obtain ⟨⟨_, rooms⟩, kept, rfl⟩ := map_eq_some_iff.mp owner
  rw [Bindings.theirs, kept]

theorem note_join_owner (state : Bindings) (room : Nat) (account : Account) (asked : Bool) :
    (state.noteJoin room account asked).forThem.map Prod.fst = state.forThem.map Prod.fst := by
  have same : ∀ change : Finset Nat → Finset Nat,
      (state.forThem.map fun kept => (kept.1, change kept.2)).map Prod.fst =
        state.forThem.map Prod.fst := by
    intro change
    cases state.forThem <;> rfl
  unfold Bindings.noteJoin
  split
  · exact same fun rooms => rooms.erase room
  · split
    · exact same fun rooms => insert room rooms
    · rfl

theorem Inv.join_saved (inv : Inv state) (owner : state.forThem.map Prod.fst = some session)
    (joined : Nat) (saved : SavedDm) :
    Inv (state.joinSaved joined saved).1 ∧
      (state.joinSaved joined saved).1.forThem.map Prod.fst = some session := by
  unfold Bindings.joinSaved
  split
  · exact ⟨inv, owner⟩
  · rename_i wanted
    split
    · exact ⟨inv, owner⟩
    · rename_i next found
      obtain ⟨key, rfl⟩ := join_cases found
      split
      · exact ⟨inv.note_user nofun, (note_join_owner _ _ _ _).trans owner⟩
      · rename_i others
        refine ⟨?_, (note_join_owner _ _ _ _).trans owner⟩
        have space : saved.room ∈ state.theirs ∨
            state.theirs.card < MAX_DMS_JOINED_FOR_THEM := by
          by_contra full
          simp only [not_or, Nat.not_lt] at full
          exact wanted ⟨Bool.not_eq_true _ ▸ others, Or.inr (Or.inr (Or.inr full))⟩
        rw [Bindings.noteJoin, if_neg (by decide), if_pos (Or.inl rfl)]
        exact inv.note_theirs (owned_theirs owner) space

theorem Inv.join_saved_dms (inv : Inv state) (opened : state.session = some session)
    (rooms : List SavedDm) :
    Inv ((state.joinedForThem session).joinSavedDms rooms) := by
  obtain ⟨owned, kept, _⟩ := joined_for_them inv opened
  have loop : ∀ reached : Bindings × Nat,
      Inv reached.1 ∧ reached.1.forThem.map Prod.fst = some session →
        Inv (rooms.foldl (fun reached saved => reached.1.joinSaved reached.2 saved) reached).1 := by
    induction rooms with
    | nil => exact fun reached whole => whole.1
    | cons saved rest ih =>
      intro reached whole
      exact ih _ (whole.1.join_saved whole.2 reached.2 saved)
  exact loop (_, 0) ⟨owned, by rw [kept]; rfl⟩

theorem Inv.resume {state next : Bindings} {event : Event} {call : Call} (inv : Inv state)
    (asked : event.call = some call) (orderly : Orderly state event)
    (done : DmBindings.resume state call event = some next) : Inv next := by
  cases event with
  | look other existing =>
    cases asked
    simp only [DmBindings.resume] at done
    split at done
    · cases done
      exact inv.look call existing
    · cases done
  | admission other full =>
    cases asked
    simp only [DmBindings.resume] at done
    split at done
    · cases done
      exact inv.admission orderly
    · cases done
  | holds other answer =>
    cases asked
    simp only [DmBindings.resume] at done
    split at done
    · cases done
      exact inv.holds call _ answer
    · cases done
  | recorded other =>
    cases asked
    simp only [DmBindings.resume] at done
    split at done
    · cases done
      exact inv.join_empty call _
    · cases done
  | introduce other allowed =>
    cases asked
    simp only [DmBindings.resume] at done
    split at done
    · split at done
      · cases done
        exact inv
      · rename_i going
        cases done
        exact inv.join_provisionally (not_not.mp (not_or.mp going).2) _ _
    · cases done
  | upgraded other =>
    cases asked
    simp only [DmBindings.resume] at done
    split at done
    · split at done
      · cases done
        exact inv
      · rename_i going
        cases done
        exact inv.join_dm (not_not.mp going) _
    · cases done
  | retry other fresh =>
    cases asked
    simp only [DmBindings.resume] at done
    split at done
    · rename_i account existing stage
      cases done
      apply inv.retry
      simpa [Orderly, Bindings.sameAccount, stage] using orderly
    · cases done
  | store other =>
    cases asked
    simp only [DmBindings.resume] at done
    split at done
    · rename_i account stage
      cases done
      apply inv.store
      intro user
      exact orderly (by rw [stage, user])
    · cases done
  | fail other =>
    cases done
    exact inv
  | ensureDmRoomForPeer room asker pqState | joinSavedDms rooms | forget room | lock | unlock
  | disconnect => cases asked

theorem Inv.step {state next : Bindings} {event : Event} (inv : Inv state)
    (orderly : Orderly state event) (stepped : step state event = some next) : Inv next := by
  have resumed : ∀ call, event.call = some call →
      ((if call ∈ state.calls then
        DmBindings.resume { state with calls := state.calls.erase call } call event
      else none) = some next) → Inv next := by
    intro call asked found
    split at found
    · refine (inv.with_calls (state.calls.erase call)).resume asked ?_ found
      cases event <;> exact orderly
    · cases found
  cases event with
  | ensureDmRoomForPeer room asker pqState =>
    obtain ⟨session, _, rfl⟩ := map_eq_some_iff.mp stepped
    exact inv.with_calls _
  | joinSavedDms rooms =>
    obtain ⟨session, opened, rfl⟩ := map_eq_some_iff.mp stepped
    exact inv.join_saved_dms opened rooms
  | forget room =>
    cases stepped
    exact inv.forget_join room
  | lock =>
    cases stepped
    exact inv.lock
  | unlock =>
    simp only [DmBindings.step] at stepped
    split at stepped
    · rename_i closed
      cases stepped
      refine ⟨⟨inv.provisional, inv.theirs, inv.apart, inv.bound, inv.joined⟩, ?_, inv.within⟩
      intro kept held
      have owner := inv.owner kept held
      rw [closed] at owner
      cases owner
    · cases stepped
  | disconnect =>
    cases stepped
    exact ⟨⟨inv.provisional, inv.theirs, inv.apart, inv.bound,
      fun room joined => absurd joined (Finset.notMem_empty room)⟩, inv.owner, inv.within⟩
  | look call existing => exact resumed call rfl stepped
  | admission call full => exact resumed call rfl stepped
  | holds call answer => exact resumed call rfl stepped
  | recorded call => exact resumed call rfl stepped
  | introduce call allowed => exact resumed call rfl stepped
  | upgraded call => exact resumed call rfl stepped
  | retry call fresh => exact resumed call rfl stepped
  | store call => exact resumed call rfl stepped
  | fail call => exact resumed call rfl stepped

def sampleEvents : List Event :=
  [.unlock, .ensureDmRoomForPeer 1 .user none, .look ⟨0, 1, .user, none, .looking⟩ none,
    .store ⟨0, 1, .user, none, .storing (some .user)⟩,
    .ensureDmRoomForPeer 2 .message none, .look ⟨0, 2, .message, none, .looking⟩ none,
    .admission ⟨0, 2, .message, none, .admitting⟩ false,
    .store ⟨0, 2, .message, none, .storing (some .theirs)⟩,
    .ensureDmRoomForPeer 3 .introduction (some ⟨7, true⟩),
    .look ⟨0, 3, .introduction, some ⟨7, true⟩, .looking⟩ none,
    .admission ⟨0, 3, .introduction, some ⟨7, true⟩, .admitting⟩ false]

def relockedEvents : List Event :=
  [.unlock, .ensureDmRoomForPeer 1 .introduction none,
    .look ⟨0, 1, .introduction, none, .looking⟩ none, .lock, .unlock,
    .ensureDmRoomForPeer 2 .message none, .look ⟨1, 2, .message, none, .looking⟩ none,
    .admission ⟨1, 2, .message, none, .admitting⟩ false,
    .store ⟨1, 2, .message, none, .storing (some .theirs)⟩,
    .admission ⟨0, 1, .introduction, none, .admitting⟩ false]

end AwfulChat.DmBindings
