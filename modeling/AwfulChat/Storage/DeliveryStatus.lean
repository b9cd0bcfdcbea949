import AwfulChat.Library.Interleaving
import AwfulChat.Library.OrderedMap
import AwfulChat.Storage.Messages
import Mathlib.Order.Nat

/-!
# Delivery status of a room's messages

`updateMessageStatus` and `markOwnMessagesReadUpTo` of `storage.ts`, any number of
them side by side. Each reads rows, seals new ones outside any transaction and
writes them back. The rank of a message never goes back. That every request is
met in the end needs more: the second walk of the cascade compares the sender of
a row stored unblinded with a blinded one, and so finds none, and a row of the
walk that does not open ends the cascade before it writes anything.
-/

namespace AwfulChat.Storage

open Library Library.OrderedMap List Option Bool

set_option autoImplicit false

/-- The rank of a status field; a message without one is below every status. -/
def statusRank : Option MessageStatus → Nat
  | none => 0
  | some status => status.rank + 1

/-- A stored message: the status it opens to, whether that is also a clear field,
and whether its room and sender are stored as hashes. -/
structure StatusRow where
  sender : Plain
  lamport : Int
  status : Option MessageStatus
  statusClear : Bool
  blinded : Bool
  readable : Bool

abbrev StatusRows := OrderedMap String StatusRow

structure StatusSite where
  key : IndexKey
  migrating : Bool

def StatusRow.clearStatus (row : StatusRow) : Option MessageStatus :=
  if row.statusClear then row.status else none

def StatusRow.senderId (key : IndexKey) (row : StatusRow) : String :=
  if row.blinded then row.sender.blind key else row.sender.value

/-- The row sealed again with a status; every blind field is hashed by the seal. -/
def StatusRow.reseal (row : StatusRow) (status : MessageStatus) : StatusRow :=
  { row with status := some status, statusClear := true, blinded := true }

/-- `!status || RANK[status] < RANK[wanted]`. -/
def belowStatus (status : Option MessageStatus) (wanted : MessageStatus) : Bool :=
  match status with
  | none => true
  | some current => decide (current.rank < wanted.rank)

/-- One walk of the cascade, over the rows stored blinded or over the others. -/
def walkRows (site : StatusSite) (rows : StatusRows) (blinded : Bool) (sender : Plain)
    (lamport after : Int) : List (String × StatusRow) :=
  rows.entries.filter fun entry =>
    decide (entry.2.blinded = blinded) && decide (after < entry.2.lamport) &&
      decide (entry.2.lamport ≤ lamport) &&
      decide (entry.2.senderId site.key = sender.blind site.key) &&
      belowStatus entry.2.clearStatus .read

/-- The write transaction of the cascade: rows deleted meanwhile are skipped. -/
def writeChanged (rows : StatusRows) (changed : List (String × StatusRow)) : StatusRows :=
  changed.foldl (fun rows entry => if rows.has entry.1 then rows.set entry.1 entry.2 else rows) rows

inductive StatusCall where
  | update (id : String) (status : MessageStatus)
  | cascade (sender : Plain) (lamport after : Int)

inductive StatusPhase where
  | reading
  | committing (sealed : StatusRow)
  | finished

inductive CascadePhase where
  | walking
  | walkingPlain (candidates : List (String × StatusRow))
  | sealing (candidates : List (String × StatusRow))
  | writing (changed : List (String × StatusRow))
  | finished
  | failed

inductive StatusJob where
  | updating (id : String) (status : MessageStatus) (phase : StatusPhase)
  | cascading (sender : Plain) (lamport after : Int) (phase : CascadePhase)

def updateStatusAct (rows : StatusRows) (id : String) (status : MessageStatus) :
    StatusPhase → Option (StatusRows × StatusPhase)
  | .reading =>
    match rows.get id with
    | none => some (rows, .finished)
    | some row =>
      if row.readable && belowStatus row.status status then
        some (rows, .committing (row.reseal status))
      else some (rows, .finished)
  | .committing sealed =>
    match rows.get id with
    | none => some (rows, .finished)
    | some fresh =>
      if belowStatus fresh.clearStatus status then some (rows.set id sealed, .finished)
      else some (rows, .finished)
  | .finished => none

def cascadeAct (site : StatusSite) (rows : StatusRows) (sender : Plain) (lamport after : Int) :
    CascadePhase → Option (StatusRows × CascadePhase)
  | .walking =>
    let candidates := walkRows site rows true sender lamport after
    some (rows, if site.migrating then .walkingPlain candidates else .sealing candidates)
  | .walkingPlain candidates =>
    some (rows, .sealing (candidates ++
      (walkRows site rows false sender lamport after).filter fun entry =>
        !(candidates.map Prod.fst).contains entry.1))
  | .sealing candidates =>
    if candidates.all fun entry => entry.2.readable then
      let changed := (candidates.filter fun entry => belowStatus entry.2.status .read).map
        fun entry => (entry.1, entry.2.reseal .read)
      some (rows, if changed.isEmpty then .finished else .writing changed)
    else some (rows, .failed)
  | .writing changed => some (writeChanged rows changed, .finished)
  | .finished => none
  | .failed => none

def statusAct (site : StatusSite) (rows : StatusRows) : StatusJob → Option (StatusRows × StatusJob)
  | .updating id status phase =>
    (updateStatusAct rows id status phase).map fun acted => (acted.1, .updating id status acted.2)
  | .cascading sender lamport after phase =>
    (cascadeAct site rows sender lamport after phase).map fun acted =>
      (acted.1, .cascading sender lamport after acted.2)

def statusStart (rows : StatusRows) : StatusCall → StatusRows × StatusJob
  | .update id status => (rows, .updating id status .reading)
  | .cascade sender lamport after =>
    (rows, .cascading sender lamport after (if lamport ≤ after then .finished else .walking))

def statusCalls (site : StatusSite) : Program StatusRows StatusCall StatusJob Empty where
  start := statusStart
  act := statusAct site
  outside := fun _ event => nomatch event

/-- A later version of a row: never a lower rank, and once written in this
session with its status clear and its fields hashed. -/
structure Advanced (old new : StatusRow) : Prop where
  sender : new.sender = old.sender
  lamport : new.lamport = old.lamport
  readable : new.readable = old.readable
  rank : statusRank old.status ≤ statusRank new.status
  fresh : new = old ∨ new.statusClear = true ∧ new.blinded = true

def StatusMoves (before after : StatusRows) : Prop :=
  (∀ id, before.get id = none → after.get id = none) ∧
    ∀ id old, before.get id = some old → ∃ new, after.get id = some new ∧ Advanced old new

section Ranks

theorem status_rank_le_read (status : Option MessageStatus) :
    statusRank status ≤ statusRank (some .read) := by
  rcases status with _ | status
  · exact Nat.zero_le _
  · cases status <;> decide

theorem below_status_iff {status : Option MessageStatus} {wanted : MessageStatus} :
    belowStatus status wanted = true ↔ statusRank status < statusRank (some wanted) := by
  rcases status with _ | status
  · simp [belowStatus, statusRank]
  · simp [belowStatus, statusRank]

theorem advanced_refl (row : StatusRow) : Advanced row row :=
  ⟨rfl, rfl, rfl, le_refl _, Or.inl rfl⟩

theorem advanced_trans {first second third : StatusRow} (early : Advanced first second)
    (late : Advanced second third) : Advanced first third := by
  refine ⟨late.sender.trans early.sender, late.lamport.trans early.lamport,
    late.readable.trans early.readable, le_trans early.rank late.rank, ?_⟩
  rcases late.fresh with same | new
  · rw [same]
    exact early.fresh
  · exact Or.inr new

theorem status_moves_refl (rows : StatusRows) : StatusMoves rows rows :=
  ⟨fun _ absent => absent, fun _ old found => ⟨old, found, advanced_refl old⟩⟩

theorem status_moves_trans {first second third : StatusRows} (early : StatusMoves first second)
    (late : StatusMoves second third) : StatusMoves first third := by
  refine ⟨fun id absent => late.1 id (early.1 id absent), ?_⟩
  intro id old found
  obtain ⟨middle, at_middle, before⟩ := early.2 id old found
  obtain ⟨new, at_new, after⟩ := late.2 id middle at_middle
  exact ⟨new, at_new, advanced_trans before after⟩

theorem StatusMoves.back {before after : StatusRows} (moves : StatusMoves before after) {id : String}
    {new : StatusRow} (found : after.get id = some new) :
    ∃ old, before.get id = some old ∧ Advanced old new := by
  cases was : before.get id with
  | none =>
    rw [moves.1 id was] at found
    cases found
  | some old =>
    obtain ⟨later, there, advanced⟩ := moves.2 id old was
    rw [found] at there
    cases there
    exact ⟨old, rfl, advanced⟩

theorem set_moves {rows : StatusRows} {id : String} {fresh sealed : StatusRow}
    (found : rows.get id = some fresh) (advanced : Advanced fresh sealed) :
    StatusMoves rows (rows.set id sealed) := by
  refine ⟨?_, ?_⟩
  · intro other absent
    have different : other ≠ id := by
      intro same
      rw [same, found] at absent
      cases absent
    simpa [different] using absent
  · intro other old there
    by_cases same : other = id
    · subst same
      rw [found] at there
      cases there
      exact ⟨sealed, by simp, advanced⟩
    · exact ⟨old, by simpa [same] using there, advanced_refl old⟩

end Ranks

def Snapshot (rows : StatusRows) (entry : String × StatusRow) : Prop :=
  ∃ current, rows.get entry.1 = some current ∧ Advanced entry.2 current

/-- An own message of a cascade: of the sender, above `upTo` and up to `lamport`. -/
structure InRange (sender : Plain) (lamport upTo : Int) (row : StatusRow) : Prop where
  sender : row.sender = sender
  above : upTo < row.lamport
  below : row.lamport ≤ lamport

def StatusHeld (rows : StatusRows) : StatusJob → Prop
  | .updating id status (.committing sealed) =>
    ∃ row, sealed = row.reseal status ∧ statusRank row.status < statusRank (some status) ∧
      Snapshot rows (id, row)
  | .cascading sender lamport upTo (.walkingPlain candidates)
  | .cascading sender lamport upTo (.sealing candidates) =>
    ∀ entry ∈ candidates, Snapshot rows entry ∧ InRange sender lamport upTo entry.2
  | .cascading sender lamport upTo (.writing changed) =>
    ∀ entry ∈ changed, ∃ row, entry.2 = row.reseal .read ∧ Snapshot rows (entry.1, row) ∧
      InRange sender lamport upTo row
  | _ => True

section Held

variable {rows after : StatusRows} {site : StatusSite}

theorem Snapshot.stable {entry : String × StatusRow} (snapshot : Snapshot rows entry)
    (moves : StatusMoves rows after) : Snapshot after entry := by
  obtain ⟨current, found, advanced⟩ := snapshot
  obtain ⟨new, at_new, later⟩ := moves.2 entry.1 current found
  exact ⟨new, at_new, advanced_trans advanced later⟩

theorem StatusHeld.stable {job : StatusJob} (held : StatusHeld rows job)
    (moves : StatusMoves rows after) : StatusHeld after job := by
  cases job with
  | updating id status phase =>
    cases phase with
    | reading | finished => trivial
    | committing sealed =>
      obtain ⟨row, same, below, snapshot⟩ := held
      exact ⟨row, same, below, snapshot.stable moves⟩
  | cascading sender lamport upTo phase =>
    cases phase with
    | walking | finished | failed => trivial
    | walkingPlain candidates | sealing candidates =>
      intro entry mem
      exact ⟨(held entry mem).1.stable moves, (held entry mem).2⟩
    | writing changed =>
      intro entry mem
      obtain ⟨row, same, snapshot, within⟩ := held entry mem
      exact ⟨row, same, snapshot.stable moves, within⟩

theorem reseal_advances {row fresh : StatusRow} {status : MessageStatus}
    (advanced : Advanced row fresh)
    (rank : statusRank fresh.status ≤ statusRank (some status)) :
    Advanced fresh (row.reseal status) :=
  ⟨advanced.sender.symm, advanced.lamport.symm, advanced.readable.symm, rank, Or.inr ⟨rfl, rfl⟩⟩

theorem walk_held {blinded : Bool} {sender : Plain} {lamport upTo : Int}
    {entry : String × StatusRow} (mem : entry ∈ walkRows site rows blinded sender lamport upTo) :
    Snapshot rows entry ∧ InRange sender lamport upTo entry.2 := by
  obtain ⟨listed, passes⟩ := mem_filter.mp mem
  simp only [and_eq_true, decide_eq_true_eq] at passes
  obtain ⟨⟨⟨⟨-, above⟩, below⟩, named⟩, -⟩ := passes
  refine ⟨⟨entry.2, get_of_mem listed, advanced_refl _⟩, ?_, above, below⟩
  unfold StatusRow.senderId at named
  split_ifs at named
  · exact (blind_inj _ _ _).mp named
  · exact absurd named (value_ne_blind _ _ _)

theorem plain_walk_empty (sender : Plain) (lamport upTo : Int) :
    walkRows site rows false sender lamport upTo = [] := by
  unfold walkRows
  rw [filter_eq_nil_iff]
  intro entry _
  simp only [and_eq_true, decide_eq_true_eq]
  rintro ⟨⟨⟨⟨plain, -⟩, -⟩, named⟩, -⟩
  simp only [StatusRow.senderId, plain, false_eq_true, if_false] at named
  exact value_ne_blind _ _ _ named

theorem write_changed_moves {changed : List (String × StatusRow)}
    (sealed : ∀ entry ∈ changed, ∃ row, entry.2 = row.reseal .read ∧ Snapshot rows (entry.1, row)) :
    StatusMoves rows (writeChanged rows changed) := by
  induction changed generalizing rows with
  | nil => exact status_moves_refl rows
  | cons entry rest ih =>
    obtain ⟨row, same, current, found, advanced⟩ := sealed entry mem_cons_self
    have has : rows.has entry.1 = true := by simp [OrderedMap.has, found]
    have first : StatusMoves rows (rows.set entry.1 entry.2) := by
      rw [same]
      exact set_moves found (reseal_advances advanced (status_rank_le_read _))
    have others : StatusMoves (rows.set entry.1 entry.2)
        (writeChanged (rows.set entry.1 entry.2) rest) := by
      apply ih
      intro other mem
      obtain ⟨source, from_source, snapshot⟩ := sealed other (mem_cons_of_mem _ mem)
      exact ⟨source, from_source, snapshot.stable first⟩
    have unfolded : writeChanged rows (entry :: rest) =
        writeChanged (rows.set entry.1 entry.2) rest := by
      simp only [writeChanged, foldl_cons, has, if_true]
    rw [unfolded]
    exact status_moves_trans first others

theorem update_status_moves {id : String} {status : MessageStatus} {phase next : StatusPhase}
    (held : StatusHeld rows (.updating id status phase))
    (acted : updateStatusAct rows id status phase = some (after, next)) :
    StatusMoves rows after ∧ StatusHeld after (.updating id status next) := by
  cases phase with
  | finished => cases acted
  | reading =>
    simp only [updateStatusAct] at acted
    cases found : rows.get id with
    | none =>
      simp only [found] at acted
      cases acted
      exact ⟨status_moves_refl rows, trivial⟩
    | some row =>
      simp only [found] at acted
      split_ifs at acted with opens
      · cases acted
        obtain ⟨-, below⟩ := and_eq_true_iff.mp opens
        exact ⟨status_moves_refl rows, row, rfl, below_status_iff.mp below, row, found,
          advanced_refl row⟩
      · cases acted
        exact ⟨status_moves_refl rows, trivial⟩
  | committing sealed =>
    obtain ⟨row, rfl, below, fresh, found, advanced⟩ := held
    simp only [updateStatusAct, found] at acted
    split_ifs at acted with passes
    · cases acted
      refine ⟨set_moves found (reseal_advances advanced ?_), trivial⟩
      rcases advanced.fresh with same | ⟨clear, -⟩
      · rw [same]
        exact le_of_lt below
      · simp only [StatusRow.clearStatus, clear, if_true] at passes
        exact le_of_lt (below_status_iff.mp passes)
    · cases acted
      exact ⟨status_moves_refl rows, trivial⟩

theorem cascade_moves {sender : Plain} {lamport upTo : Int} {phase next : CascadePhase}
    (held : StatusHeld rows (.cascading sender lamport upTo phase))
    (acted : cascadeAct site rows sender lamport upTo phase = some (after, next)) :
    StatusMoves rows after ∧ StatusHeld after (.cascading sender lamport upTo next) := by
  cases phase with
  | finished | failed => cases acted
  | walking =>
    cases acted
    refine ⟨status_moves_refl rows, ?_⟩
    split_ifs
    · intro entry mem
      exact walk_held mem
    · intro entry mem
      exact walk_held mem
  | walkingPlain candidates =>
    cases acted
    refine ⟨status_moves_refl rows, ?_⟩
    intro entry mem
    rcases mem_append.mp mem with old | new
    · exact held entry old
    · exact walk_held (mem_filter.mp new).1
  | sealing candidates =>
    simp only [cascadeAct] at acted
    split_ifs at acted with readable empty
    · cases acted
      exact ⟨status_moves_refl rows, trivial⟩
    · cases acted
      refine ⟨status_moves_refl rows, ?_⟩
      intro entry mem
      obtain ⟨source, kept, rfl⟩ := mem_map.mp mem
      obtain ⟨snapshot, within⟩ := held source (mem_filter.mp kept).1
      exact ⟨source.2, rfl, snapshot, within⟩
    · cases acted
      exact ⟨status_moves_refl rows, trivial⟩
  | writing changed =>
    cases acted
    refine ⟨write_changed_moves ?_, trivial⟩
    intro entry mem
    obtain ⟨row, same, snapshot, -⟩ := held entry mem
    exact ⟨row, same, snapshot⟩

theorem status_act_moves {job next : StatusJob} (held : StatusHeld rows job)
    (acted : statusAct site rows job = some (after, next)) :
    StatusMoves rows after ∧ StatusHeld after next := by
  cases job with
  | updating id status phase =>
    simp only [statusAct, map_eq_some_iff] at acted
    obtain ⟨⟨moved, later⟩, stepped, same⟩ := acted
    cases same
    exact update_status_moves held stepped
  | cascading sender lamport upTo phase =>
    simp only [statusAct, map_eq_some_iff] at acted
    obtain ⟨⟨moved, later⟩, stepped, same⟩ := acted
    cases same
    exact cascade_moves held stepped

theorem status_start_held {call : StatusCall} {job : StatusJob}
    (started : statusStart rows call = (after, job)) : after = rows ∧ StatusHeld rows job := by
  cases call with
  | update id status =>
    cases started
    exact ⟨rfl, trivial⟩
  | cascade sender lamport upTo =>
    cases started
    refine ⟨rfl, ?_⟩
    split_ifs <;> trivial

theorem status_calls_keep (site : StatusSite) :
    Keeps (statusCalls site) (fun _ _ => True) (fun _ => True) StatusHeld StatusMoves where
  refl := status_moves_refl
  trans := status_moves_trans
  start := by
    intro pool call rows job _ _ started
    obtain ⟨rfl, held⟩ := status_start_held started
    exact ⟨trivial, held, status_moves_refl _⟩
  act := by
    intro pool index job rows after _ _ _ held acted
    obtain ⟨moves, kept⟩ := status_act_moves held acted
    exact ⟨trivial, kept, moves⟩
  outside := nofun
  stable := fun _ moves held => held.stable moves

end Held

/-- Whether a cascade would miss the row, or fail over it. -/
def missesRow (row : StatusRow) : Bool :=
  if row.blinded then belowStatus row.clearStatus .read && !row.readable
  else belowStatus row.status .read

/-- A cascade starts over a range none of whose own rows it misses. -/
def cleanCascade (pool : Pool StatusRows StatusJob) : Turn StatusCall Empty → Bool
  | .start (.cascade sender lamport upTo) =>
    pool.shared.entries.all fun entry =>
      !(decide (entry.2.sender = sender) && decide (upTo < entry.2.lamport) &&
        decide (entry.2.lamport ≤ lamport) && missesRow entry.2)
  | _ => true

def CleanRange (rows : StatusRows) (sender : Plain) (lamport upTo : Int) : Prop :=
  ∀ id row, rows.get id = some row → InRange sender lamport upTo row → missesRow row = false

/-- Every own row in range that is not read yet is among the listed ones. -/
def ListsUnread (rows : StatusRows) (sender : Plain) (lamport upTo : Int)
    (listed : List (String × StatusRow)) : Prop :=
  ∀ id row, rows.get id = some row → InRange sender lamport upTo row →
    statusRank row.status < statusRank (some .read) → ∃ other, (id, other) ∈ listed

/-- How far each call is on the way to what it was asked for. -/
def StatusMet (rows : StatusRows) : StatusJob → Prop
  | .updating id status .finished =>
    ∀ row, rows.get id = some row → row.readable = true →
      statusRank (some status) ≤ statusRank row.status
  | .updating _ _ _ => True
  | .cascading sender lamport upTo .walking => CleanRange rows sender lamport upTo
  | .cascading sender lamport upTo (.walkingPlain candidates)
  | .cascading sender lamport upTo (.sealing candidates) =>
    (∀ entry ∈ candidates, entry.2.readable = true) ∧
      ListsUnread rows sender lamport upTo candidates
  | .cascading sender lamport upTo (.writing changed) => ListsUnread rows sender lamport upTo changed
  | .cascading sender lamport upTo .finished => ListsUnread rows sender lamport upTo []
  | .cascading _ _ _ .failed => False

section Met

variable {rows after : StatusRows} {site : StatusSite} {sender : Plain} {lamport upTo : Int}

theorem Advanced.in_range {old new : StatusRow} (advanced : Advanced old new)
    (within : InRange sender lamport upTo new) : InRange sender lamport upTo old := by
  obtain ⟨named, above, below⟩ := within
  rw [advanced.sender] at named
  rw [advanced.lamport] at above below
  exact ⟨named, above, below⟩

theorem clear_status_below {row : StatusRow}
    (below : statusRank row.status < statusRank (some .read)) :
    belowStatus row.clearStatus .read = true := by
  unfold StatusRow.clearStatus
  split_ifs
  · exact below_status_iff.mpr below
  · rfl

theorem unread_walked {row : StatusRow} (found : missesRow row = false)
    (below : statusRank row.status < statusRank (some .read)) :
    row.blinded = true ∧ row.readable = true := by
  cases blinded : row.blinded with
  | true => simpa [missesRow, blinded, clear_status_below below] using found
  | false => simp [missesRow, blinded, below_status_iff.mpr below] at found

theorem CleanRange.stable (clean : CleanRange rows sender lamport upTo)
    (moves : StatusMoves rows after) : CleanRange after sender lamport upTo := by
  intro id new found within
  obtain ⟨old, was, advanced⟩ := moves.back found
  have before := clean id old was (advanced.in_range within)
  rcases advanced.fresh with same | ⟨clear, blinded⟩
  · rw [same]
    exact before
  · simp only [missesRow, blinded, if_true, StatusRow.clearStatus, clear]
    cases unread : belowStatus new.status .read with
    | false => rfl
    | true =>
      have below := lt_of_le_of_lt advanced.rank (below_status_iff.mp unread)
      rw [advanced.readable, (unread_walked before below).2]
      rfl

theorem ListsUnread.stable {listed : List (String × StatusRow)}
    (lists : ListsUnread rows sender lamport upTo listed) (moves : StatusMoves rows after) :
    ListsUnread after sender lamport upTo listed := by
  intro id new found within below
  obtain ⟨old, was, advanced⟩ := moves.back found
  exact lists id old was (advanced.in_range within) (lt_of_le_of_lt advanced.rank below)

theorem StatusMet.stable {job : StatusJob} (met : StatusMet rows job)
    (moves : StatusMoves rows after) : StatusMet after job := by
  cases job with
  | updating id status phase =>
    cases phase with
    | reading | committing => trivial
    | finished =>
      intro new found readable
      obtain ⟨old, was, advanced⟩ := moves.back found
      rw [advanced.readable] at readable
      exact le_trans (met old was readable) advanced.rank
  | cascading named top bottom phase =>
    cases phase with
    | walking => exact CleanRange.stable met moves
    | walkingPlain | sealing => exact ⟨met.1, met.2.stable moves⟩
    | writing | finished => exact ListsUnread.stable met moves
    | failed => exact met

theorem update_status_met {id : String} {status : MessageStatus} {phase next : StatusPhase}
    (held : StatusHeld rows (.updating id status phase))
    (acted : updateStatusAct rows id status phase = some (after, next)) :
    StatusMet after (.updating id status next) := by
  cases phase with
  | finished => cases acted
  | reading =>
    simp only [updateStatusAct] at acted
    cases found : rows.get id with
    | none =>
      simp only [found] at acted
      cases acted
      intro row there
      rw [found] at there
      cases there
    | some row =>
      simp only [found] at acted
      split_ifs at acted with opens
      · cases acted
        trivial
      · cases acted
        intro other there readable
        rw [found] at there
        cases there
        simp only [readable, Bool.true_and, below_status_iff, not_lt] at opens
        exact opens
  | committing sealed =>
    obtain ⟨row, rfl, -, fresh, found, -⟩ := held
    simp only [updateStatusAct, found] at acted
    split_ifs at acted with passes
    · cases acted
      intro other there _
      rw [get_set_self] at there
      cases there
      exact le_refl _
    · cases acted
      intro other there _
      rw [found] at there
      cases there
      cases clear : fresh.statusClear with
      | false => simp [StatusRow.clearStatus, clear, belowStatus] at passes
      | true =>
        simp only [StatusRow.clearStatus, clear, if_true, below_status_iff, not_lt] at passes
        exact passes

theorem walk_lists (clean : CleanRange rows sender lamport upTo) :
    (∀ entry ∈ walkRows site rows true sender lamport upTo, entry.2.readable = true) ∧
      ListsUnread rows sender lamport upTo (walkRows site rows true sender lamport upTo) := by
  refine ⟨?_, ?_⟩
  · intro entry mem
    obtain ⟨listed, passes⟩ := mem_filter.mp mem
    have within := (walk_held mem).2
    have found := clean entry.1 entry.2 (get_of_mem listed) within
    simp only [and_eq_true, decide_eq_true_eq] at passes
    obtain ⟨⟨⟨⟨blinded, -⟩, -⟩, -⟩, below⟩ := passes
    simpa [missesRow, blinded, below] using found
  · intro id row found within below
    obtain ⟨blinded, -⟩ := unread_walked (clean id row found within) below
    refine ⟨row, mem_filter.mpr ⟨mem_of_get found, ?_⟩⟩
    simp [blinded, within.above, within.below, StatusRow.senderId, within.sender,
      clear_status_below below]

theorem changed_lists {candidates : List (String × StatusRow)}
    (snapshots : ∀ entry ∈ candidates, Snapshot rows entry ∧ InRange sender lamport upTo entry.2)
    (lists : ListsUnread rows sender lamport upTo candidates) :
    ListsUnread rows sender lamport upTo
      ((candidates.filter fun entry => belowStatus entry.2.status .read).map
        fun entry => (entry.1, entry.2.reseal .read)) := by
  intro id row found within below
  obtain ⟨other, mem⟩ := lists id row found within below
  obtain ⟨⟨current, there, advanced⟩, -⟩ := snapshots (id, other) mem
  rw [found] at there
  cases there
  have unread : belowStatus other.status .read = true :=
    below_status_iff.mpr (lt_of_le_of_lt advanced.rank below)
  exact ⟨other.reseal .read, mem_map.mpr
    ⟨(id, other), mem_filter.mpr ⟨mem, unread⟩, rfl⟩⟩

theorem write_changed_reads {changed : List (String × StatusRow)}
    (sealed : ∀ entry ∈ changed, ∃ row, entry.2 = row.reseal .read ∧ Snapshot rows (entry.1, row))
    {id : String} {other new : StatusRow} (mem : (id, other) ∈ changed)
    (found : (writeChanged rows changed).get id = some new) :
    statusRank (some .read) ≤ statusRank new.status := by
  induction changed generalizing rows with
  | nil => cases mem
  | cons entry rest ih =>
    obtain ⟨row, same, current, there, advanced⟩ := sealed entry mem_cons_self
    have has : rows.has entry.1 = true := by simp [OrderedMap.has, there]
    have first : StatusMoves rows (rows.set entry.1 entry.2) := by
      rw [same]
      exact set_moves there (reseal_advances advanced (status_rank_le_read _))
    have later : ∀ entry' ∈ rest, ∃ row, entry'.2 = row.reseal .read ∧
        Snapshot (rows.set entry.1 entry.2) (entry'.1, row) := by
      intro entry' listed
      obtain ⟨source, from_source, snapshot⟩ := sealed entry' (mem_cons_of_mem _ listed)
      exact ⟨source, from_source, snapshot.stable first⟩
    have unfolded : writeChanged rows (entry :: rest) =
        writeChanged (rows.set entry.1 entry.2) rest := by
      simp only [writeChanged, foldl_cons, has, if_true]
    rw [unfolded] at found
    rcases mem_cons.mp mem with here | deeper
    · obtain ⟨old, was, forward⟩ := (write_changed_moves later).back found
      rw [← here, get_set_self] at was
      cases was
      have status : other.status = some .read := by
        rw [← here] at same
        rw [show other = row.reseal .read from same]
        rfl
      have rank := forward.rank
      rw [status] at rank
      exact rank
    · exact ih later deeper found

theorem cascade_met {phase next : CascadePhase}
    (held : StatusHeld rows (.cascading sender lamport upTo phase))
    (met : StatusMet rows (.cascading sender lamport upTo phase))
    (acted : cascadeAct site rows sender lamport upTo phase = some (after, next)) :
    StatusMet after (.cascading sender lamport upTo next) := by
  cases phase with
  | finished | failed => cases acted
  | walking =>
    cases acted
    split_ifs
    · exact walk_lists met
    · exact walk_lists met
  | walkingPlain candidates =>
    simp only [cascadeAct, plain_walk_empty, filter_nil, append_nil] at acted
    cases acted
    exact met
  | sealing candidates =>
    have readable : (candidates.all fun entry => entry.2.readable) = true :=
      all_eq_true.mpr met.1
    have lists := changed_lists held met.2
    simp only [cascadeAct, readable, if_true] at acted
    split_ifs at acted with empty
    · cases acted
      rw [isEmpty_iff.mp empty] at lists
      exact lists
    · cases acted
      exact lists
  | writing changed =>
    have sealed : ∀ entry ∈ changed, ∃ row, entry.2 = row.reseal .read ∧
        Snapshot rows (entry.1, row) := by
      intro entry mem
      obtain ⟨row, same, snapshot, -⟩ := held entry mem
      exact ⟨row, same, snapshot⟩
    cases acted
    intro id new found within below
    obtain ⟨old, was, advanced⟩ := (write_changed_moves sealed).back found
    obtain ⟨other, mem⟩ := met id old was (advanced.in_range within)
      (lt_of_le_of_lt advanced.rank below)
    have reached := write_changed_reads sealed mem found
    exact absurd below (not_lt.mpr reached)

theorem status_calls_meet (site : StatusSite) :
    Keeps (statusCalls site) (fun pool turn => cleanCascade pool turn = true) (fun _ => True)
      (fun rows job => StatusHeld rows job ∧ StatusMet rows job) StatusMoves where
  refl := status_moves_refl
  trans := status_moves_trans
  start := by
    intro pool call rows job clean _ started
    obtain ⟨rfl, held⟩ := status_start_held started
    refine ⟨trivial, ⟨held, ?_⟩, status_moves_refl _⟩
    cases call with
    | update id status =>
      cases started
      trivial
    | cascade sender lamport upTo =>
      cases started
      split_ifs with empty
      · intro id row found within _
        have above := within.above
        have below := within.below
        omega
      · intro id row found within
        have every := all_eq_true.mp clean (id, row) (mem_of_get found)
        simpa [within.sender, within.above, within.below] using every
  act := by
    intro pool index job rows after _ _ _ held acted
    obtain ⟨moves, kept⟩ := status_act_moves held.1 acted
    refine ⟨trivial, ⟨kept, ?_⟩, moves⟩
    cases job with
    | updating id status phase =>
      simp only [statusCalls, statusAct, map_eq_some_iff] at acted
      obtain ⟨⟨moved, later⟩, stepped, same⟩ := acted
      cases same
      exact update_status_met held.1 stepped
    | cascading sender lamport upTo phase =>
      simp only [statusCalls, statusAct, map_eq_some_iff] at acted
      obtain ⟨⟨moved, later⟩, stepped, same⟩ := acted
      cases same
      exact cascade_met held.1 held.2 stepped
  outside := nofun
  stable := fun _ moves held => ⟨held.1.stable moves, held.2.stable moves⟩

end Met

/-- The status a call asks for a message: its own, or `read` for an own message of
the cascade's range. -/
def StatusJob.requests (id : String) (row : StatusRow) : StatusJob → Option MessageStatus
  | .updating other status _ => if other = id then some status else none
  | .cascading sender lamport upTo _ =>
    if row.sender = sender ∧ upTo < row.lamport ∧ row.lamport ≤ lamport then some .read else none

def StatusJob.settled : StatusJob → Bool
  | .updating _ _ .finished => true
  | .cascading _ _ _ .finished => true
  | .cascading _ _ _ .failed => true
  | _ => false

/-- `final` is the highest of the rank a message had and the ranks asked for it. -/
structure HighestAsked (jobs : List StatusJob) (id : String) (old final : StatusRow) : Prop where
  initial : statusRank old.status ≤ statusRank final.status
  asked : ∀ job ∈ jobs, ∀ status, job.requests id old = some status →
    statusRank (some status) ≤ statusRank final.status
  reached : final.status = old.status ∨
    ∃ job ∈ jobs, ∃ status, job.requests id old = some status ∧ final.status = some status

section Asked

variable {rows after : StatusRows} {site : StatusSite}

theorem requests_of_advanced {id : String} {old new : StatusRow} (advanced : Advanced old new)
    (job : StatusJob) : job.requests id new = job.requests id old := by
  cases job with
  | updating => rfl
  | cascading => simp [StatusJob.requests, advanced.sender, advanced.lamport]

theorem requests_act {job next : StatusJob} (acted : statusAct site rows job = some (after, next))
    (id : String) (row : StatusRow) : next.requests id row = job.requests id row := by
  cases job with
  | updating other status phase | cascading sender lamport upTo phase =>
    simp only [statusAct, map_eq_some_iff] at acted
    obtain ⟨⟨moved, later⟩, -, same⟩ := acted
    cases same
    rfl

theorem write_changed_get {changed : List (String × StatusRow)} {id : String} {new : StatusRow}
    (found : (writeChanged rows changed).get id = some new) :
    rows.get id = some new ∨ (id, new) ∈ changed := by
  induction changed generalizing rows with
  | nil => exact Or.inl found
  | cons entry rest ih =>
    have unfolded : writeChanged rows (entry :: rest) =
        writeChanged (if rows.has entry.1 then rows.set entry.1 entry.2 else rows) rest := rfl
    rw [unfolded] at found
    rcases ih found with old | later
    · split_ifs at old
      · by_cases same : id = entry.1
        · subst same
          rw [get_set_self] at old
          cases old
          exact Or.inr mem_cons_self
        · exact Or.inl (by simpa [same] using old)
      · exact Or.inl old
    · exact Or.inr (mem_cons_of_mem _ later)

theorem status_act_rows {job next : StatusJob} (held : StatusHeld rows job)
    (acted : statusAct site rows job = some (after, next)) {id : String} {new : StatusRow}
    (found : after.get id = some new) :
    rows.get id = some new ∨
      ∃ status, job.requests id new = some status ∧ new.status = some status := by
  cases job with
  | updating other status phase =>
    simp only [statusAct, map_eq_some_iff] at acted
    obtain ⟨⟨moved, later⟩, stepped, same⟩ := acted
    cases same
    cases phase with
    | finished => cases stepped
    | reading =>
      simp only [updateStatusAct] at stepped
      split at stepped
      · cases stepped
        exact Or.inl found
      · split_ifs at stepped <;>
        · cases stepped
          exact Or.inl found
    | committing sealed =>
      obtain ⟨row, rfl, -, fresh, there, -⟩ := held
      simp only [updateStatusAct, there] at stepped
      split_ifs at stepped
      · cases stepped
        by_cases same : id = other
        · subst same
          rw [get_set_self] at found
          cases found
          exact Or.inr ⟨status, by simp [StatusJob.requests], rfl⟩
        · exact Or.inl (by simpa [same] using found)
      · cases stepped
        exact Or.inl found
  | cascading sender lamport upTo phase =>
    simp only [statusAct, map_eq_some_iff] at acted
    obtain ⟨⟨moved, later⟩, stepped, same⟩ := acted
    cases same
    cases phase with
    | finished | failed => cases stepped
    | walking | walkingPlain =>
      cases stepped
      exact Or.inl found
    | sealing candidates =>
      simp only [cascadeAct] at stepped
      split_ifs at stepped <;>
      · cases stepped
        exact Or.inl found
    | writing changed =>
      cases stepped
      rcases write_changed_get found with old | listed
      · exact Or.inl old
      · obtain ⟨row, same, -, within⟩ := held (id, new) listed
        have new_eq : new = row.reseal .read := same
        subst new_eq
        refine Or.inr ⟨.read, ?_, rfl⟩
        simp [StatusJob.requests, StatusRow.reseal, within.sender, within.above, within.below]

/-- Every stored status was there at the start or is one some call asks for. -/
def StatusAsked (start : StatusRows) (pool : Pool StatusRows StatusJob) : Prop :=
  ∀ id old row, start.get id = some old → pool.shared.get id = some row →
    row.status = old.status ∨
      ∃ job ∈ pool.jobs, ∃ status, job.requests id old = some status ∧ row.status = some status

theorem StatusAsked.step {start : StatusRows} {pool next : Pool StatusRows StatusJob}
    {turn : Turn StatusCall Empty} (asked : StatusAsked start pool)
    (good : pool.Good (fun _ => True) StatusHeld) (from_start : StatusMoves start pool.shared)
    (stepped : (statusCalls site).step pool turn = some next) : StatusAsked start next := by
  intro id old row was found
  cases turn with
  | outside event => cases event
  | start call =>
    cases stepped
    have same : (statusStart pool.shared call).1 = pool.shared := (status_start_held rfl).1
    have before : pool.shared.get id = some row := by
      rw [← same]
      exact found
    rcases asked id old row was before with kept | ⟨job, mem, status, requested, reached⟩
    · exact Or.inl kept
    · exact Or.inr ⟨job, mem_append_left _ mem, status, requested, reached⟩
  | advance index =>
    obtain ⟨job, rows, after, there, acted, rfl⟩ := advance_some stepped
    have inside := (List.getElem?_eq_some_iff.mp there).1
    have held := good.held job (mem_of_getElem? there)
    rcases status_act_rows held acted found with before | ⟨status, requested, reached⟩
    · rcases asked id old row was before with kept | ⟨other, mem, status, requested, reached⟩
      · exact Or.inl kept
      · right
        obtain ⟨place, at_place⟩ := mem_iff_getElem?.mp mem
        by_cases here : index = place
        · subst here
          rw [there] at at_place
          cases at_place
          refine ⟨after, mem_set inside after, status, ?_, reached⟩
          rw [requests_act acted]
          exact requested
        · refine ⟨other, ?_, status, requested, reached⟩
          apply mem_iff_getElem?.mpr
          refine ⟨place, ?_⟩
          rw [List.getElem?_set_ne here]
          exact at_place
    · right
      obtain ⟨moves, -⟩ := status_act_moves held acted
      obtain ⟨first, at_first, advanced⟩ := (status_moves_trans from_start moves).back found
      rw [was] at at_first
      cases at_first
      refine ⟨after, mem_set inside after, status, ?_, reached⟩
      rw [requests_act acted, ← requests_of_advanced advanced]
      exact requested

theorem status_asked_run {start : StatusRows} {pool final : Pool StatusRows StatusJob}
    {turns : List (Turn StatusCall Empty)} (asked : StatusAsked start pool)
    (good : pool.Good (fun _ => True) StatusHeld) (from_start : StatusMoves start pool.shared)
    (ran : run (statusCalls site).step pool turns = some final) : StatusAsked start final := by
  induction turns generalizing pool with
  | nil =>
    cases ran
    exact asked
  | cons turn rest ih =>
    obtain ⟨next, stepped, later⟩ := run_cons ran
    obtain ⟨kept, moves⟩ := (status_calls_keep site).step good trivial stepped
    exact ih (asked.step good from_start stepped) kept
      (status_moves_trans from_start moves) later

end Asked

/-- In every interleaving of status updates and cascades the rank of a message
never goes back; and where no cascade starts over an own row it would miss or fail
over, a message that opens ends, once every call has settled, at the highest of
the rank it had and the ranks asked for it. -/
theorem delivery_status_never_regresses {site : StatusSite} {rows : StatusRows}
    {turns : List (Turn StatusCall Empty)} {final : Pool StatusRows StatusJob}
    (ran : run (statusCalls site).step ⟨rows, []⟩ turns = some final) :
    (∀ before after middle, turns = before ++ after →
      run (statusCalls site).step ⟨rows, []⟩ before = some middle →
      StatusMoves middle.shared final.shared) ∧
    (Meets (statusCalls site).step (fun pool turn => cleanCascade pool turn = true) ⟨rows, []⟩
        turns →
      (∀ job ∈ final.jobs, job.settled = true) →
      ∀ id old row, rows.get id = some old → final.shared.get id = some row →
        row.readable = true → HighestAsked final.jobs id old row) := by
  have always (pool : Pool StatusRows StatusJob) (events : List (Turn StatusCall Empty)) :
      Meets (statusCalls site).step (fun _ _ => True) pool events :=
    meets_of_forall (fun _ _ => trivial) pool events
  refine ⟨?_, ?_⟩
  · intro before after middle split reached
    rw [split, run_append, reached, bind_some] at ran
    obtain ⟨good, -⟩ := (status_calls_keep site).run ⟨trivial, by simp⟩ (always _ _) reached
    exact ((status_calls_keep site).run good (always _ _) ran).2
  · intro clean settled id old row was found readable
    obtain ⟨good, moves⟩ := (status_calls_meet site).run ⟨trivial, by simp⟩ clean ran
    have asked : StatusAsked rows final := by
      refine status_asked_run ?_ ⟨trivial, by simp⟩ (status_moves_refl rows) ran
      intro other first there at_first at_there
      rw [show rows.get other = some there from at_there] at at_first
      cases at_first
      exact Or.inl rfl
    obtain ⟨first, at_first, advanced⟩ := moves.back found
    have same : first = old := by
      rw [show rows.get id = some old from was] at at_first
      exact (Option.some.inj at_first).symm
    subst same
    refine ⟨advanced.rank, ?_, asked id first row was found⟩
    intro job mem status requested
    have met := (good.held job mem).2
    have done := settled job mem
    cases job with
    | updating other wanted phase =>
      cases phase with
      | reading | committing => cases done
      | finished =>
        simp only [StatusJob.requests] at requested
        split_ifs at requested with here
        subst here
        cases requested
        exact met row found readable
    | cascading sender lamport upTo phase =>
      simp only [StatusJob.requests] at requested
      split_ifs at requested with here
      cases requested
      have within : InRange sender lamport upTo row :=
        ⟨advanced.sender.trans here.1, by rw [advanced.lamport]; exact here.2.1,
          by rw [advanced.lamport]; exact here.2.2⟩
      cases phase with
      | walking | walkingPlain | sealing | writing => cases done
      | failed => exact False.elim met
      | finished =>
        by_contra below
        obtain ⟨other, impossible⟩ := met id row found within (not_le.mp below)
        cases impossible

section Schedules

def aliceSite : StatusSite := ⟨plainKey, true⟩

def deliveredRow (blinded : Bool) : StatusRow := ⟨alice, 5, some .delivered, true, blinded, true⟩

def readUpToTen : List (Turn StatusCall Empty) :=
  [.start (.cascade alice 10 (-1)), .start (.update "m" .sent), .advance 0, .advance 1, .advance 0,
    .advance 0, .advance 0]

theorem blinded_row_is_read :
    ∃ final, run (statusCalls aliceSite).step ⟨OrderedMap.empty.set "m" (deliveredRow true), []⟩
        readUpToTen = some final ∧
      ∃ row, final.shared.get "m" = some row ∧ row.status = some .read ∧
        HighestAsked final.jobs "m" (deliveredRow true) row := by
  have ran : run (statusCalls aliceSite).step ⟨OrderedMap.empty.set "m" (deliveredRow true), []⟩
    readUpToTen = some _ := rfl
  refine ⟨_, ran, _, rfl, rfl, ?_⟩
  exact (delivery_status_never_regresses ran).2 (by decide) (by decide) "m" _ _ rfl rfl rfl

/-- The same message stored before its room and sender were hashed stays `delivered`. -/
theorem unblinded_row_is_not_read :
    ∃ final, run (statusCalls aliceSite).step ⟨OrderedMap.empty.set "m" (deliveredRow false), []⟩
        [.start (.cascade alice 10 (-1)), .advance 0, .advance 0, .advance 0] = some final ∧
      (∀ job ∈ final.jobs, job.settled = true) ∧
      final.shared.get "m" = some (deliveredRow false) ∧
      ¬HighestAsked final.jobs "m" (deliveredRow false) (deliveredRow false) := by
  refine ⟨_, rfl, by decide, rfl, ?_⟩
  intro highest
  have reached := highest.asked _ mem_cons_self .read (by decide)
  exact absurd reached (by decide)

end Schedules

end AwfulChat.Storage
