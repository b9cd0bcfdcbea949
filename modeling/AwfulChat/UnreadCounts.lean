import AwfulChat.Library.Runs
import AwfulChat.MessageOrder

/-!
# Unread counts

`noteUnreadArrivals`, `noteRoomRead`, `refreshUnreadCount` and `_recountUnread` of
`rooms.svelte.ts` for one room that is in the mirror, against `getUnreadCount` of
`storage.ts`. The ids already counted are shared by all rooms. `base`, `reported` and
`foreign` are not in the source: the rows behind the running total, as often as they were
counted, and the ids this room and the others have reported.
-/

namespace AwfulChat.UnreadCounts

open Library MessageOrder List Option

set_option autoImplicit false

structure Row where
  id : String
  senderId : String
  lamport : Int
  type : MessageType
  deriving DecidableEq

def COUNTED_IDS_MAX : Nat := 2048

/-- A recount in flight: the mark it started from and, once storage answered, the rows it
counted. -/
structure Recount where
  again : Bool
  lastSeenLamport : Int
  read : Option (List Row)
  deriving DecidableEq

structure Unread where
  stored : List Row
  lastSeenLamport : Int
  counted : Bool
  recount : Option Recount
  countedIds : List String
  unreadCount : Option Nat
  base : List Row
  reported : List String
  foreign : List String
  deriving DecidableEq

def counts (self : Option String) (row : Row) : Bool :=
  decide (row.type ≠ .reaction) && decide (row.type ≠ .pluginUpdate) &&
    decide (some row.senderId ≠ self)

def isUnread (self : Option String) (lastSeenLamport : Int) (row : Row) : Bool :=
  counts self row && decide (lastSeenLamport < row.lamport)

def unreadRows (self : Option String) (lastSeenLamport : Int) (stored : List Row) : List Row :=
  stored.filter (isUnread self lastSeenLamport)

def getUnreadCount (self : Option String) (lastSeenLamport : Int) (stored : List Row) : Nat :=
  (unreadRows self lastSeenLamport stored).length

/-- `_firstSighting` of an id not remembered: the oldest one is forgotten for it. -/
def remember (countedIds : List String) (id : String) : List String :=
  if COUNTED_IDS_MAX < (countedIds ++ [id]).length then (countedIds ++ [id]).tail
  else countedIds ++ [id]

/-- The rows of a report that count and are seen for the first time. -/
def sight (self : Option String) : List String → List Row → List String × List Row
  | countedIds, [] => (countedIds, [])
  | countedIds, row :: rest =>
    if counts self row ∧ row.id ∉ countedIds then
      let later := sight self (remember countedIds row.id) rest
      (later.1, row :: later.2)
    else sight self countedIds rest

inductive Event
  | store (row : Row)
  | noteUnreadArrivals (rows : List Row)
  | refreshUnreadCount
  /-- Storage answers the recount in flight. -/
  | read
  /-- The recount in flight goes on with its answer. -/
  | resume
  | noteRoomRead (maxLamport : Int)
  /-- Another room reports a row. -/
  | elsewhere (id : String)
  deriving DecidableEq

section Steps

variable (self : Option String)

def Unread.refreshUnreadCount (state : Unread) : Unread :=
  match state.recount with
  | some running => { state with recount := some { running with again := true } }
  | none => { state with recount := some ⟨false, state.lastSeenLamport, none⟩ }

def Unread.noted (state : Unread) (rows : List Row) : Unread :=
  { state with
    countedIds := (sight self state.countedIds rows).1
    reported := state.reported ++ rows.map Row.id }

def Unread.noteUnreadArrivals (state : Unread) (rows : List Row) : Unread :=
  let fresh := (sight self state.countedIds rows).2
  if fresh = [] then state.noted self rows
  else if !state.counted || state.recount.isSome then (state.noted self rows).refreshUnreadCount
  else
    let added := fresh.filter fun row => decide (state.lastSeenLamport < row.lamport)
    if added = [] then state.noted self rows
    else { state.noted self rows with
      unreadCount := some (state.unreadCount.getD 0 + added.length)
      base := state.base ++ added }

/-- `markRoomSeen` moves the mark in the mirror and tells the counter at once. -/
def Unread.noteRoomRead (state : Unread) (maxLamport : Int) : Unread :=
  { state with
    lastSeenLamport := max state.lastSeenLamport maxLamport
    counted := false
    unreadCount := some 0
    base := [] }

/-- The end of one pass of `_recountUnread`, dropped when the mark moved meanwhile. -/
def Unread.install (state : Unread) (recount : Recount) (rows : List Row) : Unread :=
  if state.lastSeenLamport ≠ recount.lastSeenLamport then state
  else { state with
    counted := true
    unreadCount := some rows.length
    base := rows }

def step (state : Unread) : Event → Option Unread
  | .store row =>
    if row.id ∈ state.stored.map Row.id ∨ row.id ∈ state.foreign then none
    else some { state with stored := state.stored ++ [row] }
  | .noteUnreadArrivals rows =>
    if ∀ row ∈ rows, row ∈ state.stored then some (state.noteUnreadArrivals self rows) else none
  | .refreshUnreadCount => some state.refreshUnreadCount
  | .read =>
    match state.recount with
    | some ⟨again, lastSeenLamport, none⟩ =>
      let rows := unreadRows self lastSeenLamport state.stored
      some { state with recount := some ⟨again, lastSeenLamport, some rows⟩ }
    | _ => none
  | .resume =>
    match state.recount with
    | some ⟨again, lastSeenLamport, some rows⟩ =>
      let installed := state.install ⟨again, lastSeenLamport, some rows⟩ rows
      let next := if again then some ⟨false, installed.lastSeenLamport, none⟩ else none
      some { installed with recount := next }
    | _ => none
  | .noteRoomRead maxLamport => some (state.noteRoomRead maxLamport)
  | .elsewhere id =>
    if id ∈ state.stored.map Row.id then none
    else some { state with
      foreign := state.foreign ++ [id]
      countedIds := if id ∈ state.countedIds then state.countedIds
        else remember state.countedIds id }

def start (stored : List Row) (lastSeenLamport : Int) : Unread :=
  ⟨stored, lastSeenLamport, false, none, [], none, [], [], []⟩

/-- A report that adds to the running total adds no row the total already stands on: none
that a recount read from storage before its report, none whose id was forgotten. -/
def AddsNew (state : Unread) : Event → Prop
  | .noteUnreadArrivals rows => state.counted = true → state.recount = none →
      (state.base ++ (sight self state.countedIds rows).2).Nodup
  | _ => True

instance (state : Unread) : DecidablePred (AddsNew self state)
  | .noteUnreadArrivals rows => inferInstanceAs (Decidable (_ → _))
  | .store _ | .refreshUnreadCount | .read | .resume | .noteRoomRead _ | .elsewhere _ =>
    isTrue trivial

end Steps

section Sighting

variable {self : Option String}

variable {countedIds : List String}

theorem remember_mem {id other : String}
    (mem : other ∈ remember countedIds id) : other ∈ countedIds ∨ other = id := by
  have whole : other ∈ countedIds ++ [id] := by
    unfold remember at mem
    split_ifs at mem
    · exact mem_of_mem_tail mem
    · exact mem
  simpa using whole

theorem sight_sublist (countedIds : List String) (rows : List Row) :
    (sight self countedIds rows).2.Sublist rows := by
  induction rows generalizing countedIds with
  | nil => exact List.Sublist.refl _
  | cons row rest ih =>
    unfold sight
    split_ifs
    · exact (ih _).cons_cons row
    · exact (ih _).cons row

theorem sight_counts {rows : List Row} {row : Row}
    (mem : row ∈ (sight self countedIds rows).2) : counts self row = true := by
  induction rows generalizing countedIds with
  | nil => cases mem
  | cons head rest ih =>
    unfold sight at mem
    split_ifs at mem with fresh
    · rcases mem_cons.mp mem with rfl | later
      · exact fresh.1
      · exact ih later
    · exact ih mem

theorem sight_mem {rows : List Row} {id : String}
    (mem : id ∈ (sight self countedIds rows).1) : id ∈ countedIds ∨ id ∈ rows.map Row.id := by
  induction rows generalizing countedIds with
  | nil => exact Or.inl mem
  | cons row rest ih =>
    unfold sight at mem
    split_ifs at mem
    · rcases ih mem with remembered | later
      · rcases remember_mem remembered with old | rfl
        · exact Or.inl old
        · exact Or.inr (by simp)
      · exact Or.inr (mem_cons_of_mem _ later)
    · exact (ih mem).imp_right (mem_cons_of_mem _)

theorem sight_complete {rows : List Row} {row : Row} (mem : row ∈ rows)
    (counting : counts self row = true) :
    row.id ∈ countedIds ∨ row.id ∈ (sight self countedIds rows).2.map Row.id := by
  induction rows generalizing countedIds with
  | nil => cases mem
  | cons head rest ih =>
    unfold sight
    split_ifs with fresh
    · rcases mem_cons.mp mem with rfl | later
      · exact Or.inr (by simp)
      · rcases @ih (remember countedIds head.id) later with seen | listed
        · rcases remember_mem seen with old | same
          · exact Or.inl old
          · exact Or.inr (by simp [same])
        · exact Or.inr (mem_cons_of_mem _ listed)
    · rcases mem_cons.mp mem with rfl | later
      · exact Or.inl (by simpa [counting] using fresh)
      · exact ih later

end Sighting

/-- The total is the length of `base`, whose rows are unread and counted once. -/
structure Tallied (me : Option String) (state : Unread) : Prop where
  ids : (state.stored.map Row.id).Nodup
  remembered : ∀ id ∈ state.countedIds, id ∈ state.reported ∨ id ∈ state.foreign
  apart : ∀ id ∈ state.foreign, id ∉ state.stored.map Row.id
  reported : ∀ id ∈ state.reported, id ∈ state.stored.map Row.id
  total : state.unreadCount.getD 0 = state.base.length
  once : state.base.Nodup
  unread : ∀ row ∈ state.base, row ∈ unreadRows me state.lastSeenLamport state.stored
  mark : state.counted = true → ∀ recount ∈ state.recount,
    recount.lastSeenLamport = state.lastSeenLamport
  read : ∀ recount ∈ state.recount, ∀ rows ∈ recount.read, rows.Nodup ∧
    ∀ row ∈ rows, row ∈ unreadRows me recount.lastSeenLamport state.stored

/-- Once no recount is in flight, `base` lacks only rows not yet reported; so does what a
recount has read, unless it goes round again. -/
structure UnreadInv (me : Option String) (state : Unread) : Prop extends Tallied me state where
  complete : state.counted = true → state.recount = none →
    ∀ row ∈ unreadRows me state.lastSeenLamport state.stored,
      row.id ∈ state.reported → row ∈ state.base
  whole : ∀ recount ∈ state.recount, recount.again = false → ∀ rows ∈ recount.read,
    ∀ row ∈ unreadRows me recount.lastSeenLamport state.stored,
      row.id ∈ state.reported → row ∈ rows

section Keeping

variable {self : Option String} {state : Unread}

theorem mem_unread_rows {lastSeenLamport : Int} {stored : List Row} {row : Row} :
    row ∈ unreadRows self lastSeenLamport stored ↔
      row ∈ stored ∧ counts self row = true ∧ lastSeenLamport < row.lamport := by
  simp [unreadRows, isUnread]

theorem Tallied.refresh (tallied : Tallied self state) :
    UnreadInv self state.refreshUnreadCount := by
  unfold Unread.refreshUnreadCount
  split
  · rename_i running inFlight
    refine ⟨⟨tallied.ids, tallied.remembered, tallied.apart, tallied.reported, tallied.total,
      tallied.once, tallied.unread, ?_, ?_⟩, ?_, ?_⟩
    · rintro counted _ ⟨⟩
      exact tallied.mark counted running inFlight
    · rintro _ ⟨⟩ rows answered
      exact tallied.read running inFlight rows answered
    · nofun
    · rintro _ ⟨⟩ last
      cases last
  · refine ⟨⟨tallied.ids, tallied.remembered, tallied.apart, tallied.reported, tallied.total,
      tallied.once, tallied.unread, ?_, ?_⟩, ?_, ?_⟩
    · rintro _ _ ⟨⟩
      rfl
    · rintro _ ⟨⟩ rows answered
      cases answered
    · nofun
    · rintro _ ⟨⟩ _ rows answered
      cases answered

theorem UnreadInv.store (inv : UnreadInv self state) {row : Row}
    (fresh : row.id ∉ state.stored.map Row.id) (ours : row.id ∉ state.foreign) :
    UnreadInv self { state with stored := state.stored ++ [row] } := by
  have grows : ∀ other ∈ state.stored, other ∈ state.stored ++ [row] := fun other mem =>
    mem_append_left _ mem
  have unreported : row.id ∉ state.reported := fun told => fresh (inv.reported _ told)
  have old : ∀ lastSeenLamport,
      ∀ other ∈ unreadRows self lastSeenLamport (state.stored ++ [row]),
      other.id ∈ state.reported → other ∈ unreadRows self lastSeenLamport state.stored := by
    intro lastSeenLamport other mem told
    obtain ⟨held, counting⟩ := mem_unread_rows.mp mem
    rcases mem_append.mp held with before | new
    · exact mem_unread_rows.mpr ⟨before, counting⟩
    · rw [mem_singleton.mp new] at told
      exact absurd told unreported
  have more : ∀ lastSeenLamport, ∀ other ∈ unreadRows self lastSeenLamport state.stored,
      other ∈ unreadRows self lastSeenLamport (state.stored ++ [row]) := by
    intro lastSeenLamport other mem
    obtain ⟨held, counting⟩ := mem_unread_rows.mp mem
    exact mem_unread_rows.mpr ⟨grows other held, counting⟩
  refine ⟨⟨?_, inv.remembered, ?_, ?_, inv.total, inv.once, ?_, inv.mark, ?_⟩, ?_, ?_⟩
  · rw [map_append, nodup_append]
    refine ⟨inv.ids, by simp, ?_⟩
    intro one oneMember two twoMember same
    simp only [map_cons, map_nil, mem_singleton] at twoMember
    exact fresh (twoMember ▸ same ▸ oneMember)
  · intro id elsewhere mem
    rw [map_append, mem_append] at mem
    rcases mem with held | new
    · exact inv.apart id elsewhere held
    · simp only [map_cons, map_nil, mem_singleton] at new
      exact ours (new ▸ elsewhere)
  · intro id told
    rw [map_append]
    exact mem_append_left _ (inv.reported id told)
  · intro other mem
    exact more _ other (inv.unread other mem)
  · intro recount inFlight rows answered
    obtain ⟨distinct, inside⟩ := inv.read recount inFlight rows answered
    exact ⟨distinct, fun other mem => more _ other (inside other mem)⟩
  · intro counted idle other mem told
    exact inv.complete counted idle other (old _ other mem told) told
  · intro recount inFlight last rows answered other mem told
    exact inv.whole recount inFlight last rows answered other (old _ other mem told) told

variable {rows : List Row}

theorem UnreadInv.nothing_new (inv : UnreadInv self state) (held : ∀ row ∈ rows, row ∈ state.stored)
    {row : Row} (stored : row ∈ state.stored) (counting : counts self row = true)
    (told : row.id ∈ state.reported ++ rows.map Row.id)
    (old : row.id ∉ (sight self state.countedIds rows).2.map Row.id) : row.id ∈ state.reported := by
  rcases mem_append.mp told with before | now
  · exact before
  · obtain ⟨other, mem, same⟩ := mem_map.mp now
    have equal := inj_on_of_nodup_map inv.ids (held other mem) stored same
    subst equal
    have sighted : other.id ∈ state.countedIds ∨
        other.id ∈ (sight self state.countedIds rows).2.map Row.id := sight_complete mem counting
    rcases sighted with seen | new
    · rcases inv.remembered _ seen with ours | elsewhere
      · exact ours
      · exact absurd (mem_map_of_mem stored) (inv.apart _ elsewhere)
    · exact absurd new old

theorem Tallied.noted (tallied : Tallied self state)
    (held : ∀ row ∈ rows, row ∈ state.stored) : Tallied self (state.noted self rows) := by
  refine ⟨tallied.ids, ?_, tallied.apart, ?_, tallied.total, tallied.once, tallied.unread,
    tallied.mark, tallied.read⟩
  · intro id mem
    rcases sight_mem mem with old | new
    · exact (tallied.remembered id old).imp_left (mem_append_left _)
    · exact Or.inl (mem_append_right _ new)
  · intro id told
    rcases mem_append.mp told with old | new
    · exact tallied.reported id old
    · obtain ⟨row, mem, rfl⟩ := mem_map.mp new
      exact mem_map_of_mem (held row mem)

section

variable (inv : UnreadInv self state)
include inv

theorem UnreadInv.named (held : ∀ row ∈ rows, row ∈ state.stored) {lastSeenLamport : Int}
    {row : Row} (mem : row ∈ unreadRows self lastSeenLamport state.stored)
    (told : row.id ∈ (state.noted self rows).reported) :
    row ∈ (sight self state.countedIds rows).2 ∨ row.id ∈ state.reported := by
  obtain ⟨stored, counting, -⟩ := mem_unread_rows.mp mem
  by_cases new : row.id ∈ (sight self state.countedIds rows).2.map Row.id
  · obtain ⟨other, listed, same⟩ := mem_map.mp new
    have otherStored := held other ((sight_sublist _ _).subset listed)
    have equal := inj_on_of_nodup_map inv.ids otherStored stored same
    exact Or.inl (equal ▸ listed)
  · exact Or.inr (inv.nothing_new held stored counting told new)

theorem UnreadInv.report (held : ∀ row ∈ rows, row ∈ state.stored)
    (fresh : AddsNew self state (.noteUnreadArrivals rows)) :
    UnreadInv self (state.noteUnreadArrivals self rows) := by
  have noted := inv.toTallied.noted held
  unfold Unread.noteUnreadArrivals
  by_cases none : (sight self state.countedIds rows).2 = []
  · rw [if_pos none]
    have old : ∀ lastSeenLamport, ∀ row ∈ unreadRows self lastSeenLamport state.stored,
        row.id ∈ (state.noted self rows).reported → row.id ∈ state.reported := by
      intro lastSeenLamport row mem told
      rcases inv.named held mem told with new | before
      · rw [none] at new
        cases new
      · exact before
    refine ⟨noted, ?_, ?_⟩
    · intro counted idle row mem told
      exact inv.complete counted idle row mem (old _ row mem told)
    · intro recount inFlight last answer answered row mem told
      exact inv.whole recount inFlight last answer answered row mem (old _ row mem told)
  · rw [if_neg none]
    by_cases busy : (!state.counted || state.recount.isSome) = true
    · rw [if_pos busy]
      exact noted.refresh
    · rw [if_neg busy]
      rw [Bool.or_eq_true, not_or] at busy
      have counted : state.counted = true := by simpa using busy.1
      have idle : state.recount = .none := by simpa using busy.2
      have distinct := fresh counted idle
      have added : ∀ row ∈ unreadRows self state.lastSeenLamport state.stored,
          row.id ∈ (state.noted self rows).reported →
          row ∈ state.base ++ (sight self state.countedIds rows).2.filter
            fun row => decide (state.lastSeenLamport < row.lamport) := by
        intro row mem told
        rcases inv.named held mem told with new | before
        · apply mem_append_right
          rw [mem_filter]
          exact ⟨new, by simpa using (mem_unread_rows.mp mem).2.2⟩
        · exact mem_append_left _ (inv.complete counted idle row mem before)
      have noRecount : ∀ recount ∈ state.recount, False := by
        intro recount inFlight
        rw [idle] at inFlight
        cases inFlight
      dsimp only
      split_ifs with nothing
      · refine ⟨noted, ?_, fun recount inFlight => (noRecount recount inFlight).elim⟩
        intro _ _ row mem told
        show row ∈ state.base
        simpa [nothing] using added row mem told
      · refine ⟨⟨noted.ids, noted.remembered, noted.apart, noted.reported, ?_, ?_, ?_, noted.mark,
          noted.read⟩, fun _ _ => added, fun recount inFlight => (noRecount recount inFlight).elim⟩
        · show state.unreadCount.getD 0 + _ = _
          rw [length_append, inv.total]
        · exact distinct.sublist (filter_sublist.append_left state.base)
        · intro row mem
          rcases mem_append.mp mem with old | new
          · exact inv.unread row old
          · rw [mem_filter, decide_eq_true_eq] at new
            exact mem_unread_rows.mpr ⟨held row ((sight_sublist _ _).subset new.1),
              sight_counts new.1, new.2⟩

theorem UnreadInv.resume {again : Bool} {lastSeenLamport : Int}
    (inFlight : state.recount = some ⟨again, lastSeenLamport, some rows⟩) :
    UnreadInv self { state.install ⟨again, lastSeenLamport, some rows⟩ rows with
      recount := if again then
        some ⟨false, (state.install ⟨again, lastSeenLamport, some rows⟩ rows).lastSeenLamport, none⟩
        else none } := by
  obtain ⟨distinct, inside⟩ := inv.read _ inFlight rows rfl
  unfold Unread.install
  split_ifs with moved more more
  · refine ⟨⟨inv.ids, inv.remembered, inv.apart, inv.reported, inv.total, inv.once, inv.unread, ?_,
      ?_⟩, ?_, ?_⟩
    · rintro _ _ ⟨⟩
      rfl
    · rintro _ ⟨⟩ answer answered
      cases answered
    · nofun
    · rintro _ ⟨⟩ _ answer answered
      cases answered
  · refine ⟨⟨inv.ids, inv.remembered, inv.apart, inv.reported, inv.total, inv.once, inv.unread, ?_,
      ?_⟩, ?_, ?_⟩
    · nofun
    · nofun
    · intro counted
      exact absurd (inv.mark counted _ inFlight).symm moved
    · nofun
  · have same : state.lastSeenLamport = lastSeenLamport := by simpa using moved
    refine ⟨⟨inv.ids, inv.remembered, inv.apart, inv.reported, rfl, distinct, same ▸ inside, ?_,
      ?_⟩, ?_, ?_⟩
    · rintro _ _ ⟨⟩
      rfl
    · rintro _ ⟨⟩ answer answered
      cases answered
    · nofun
    · rintro _ ⟨⟩ _ answer answered
      cases answered
  · have same : state.lastSeenLamport = lastSeenLamport := by simpa using moved
    refine ⟨⟨inv.ids, inv.remembered, inv.apart, inv.reported, rfl, distinct, same ▸ inside, ?_,
      ?_⟩, ?_, ?_⟩
    · nofun
    · nofun
    · intro _ _ row mem told
      exact inv.whole _ inFlight (by simpa using more) rows rfl row (same ▸ mem) told
    · nofun

theorem UnreadInv.step {event : Event} {next : Unread}
    (fresh : AddsNew self state event) (stepped : step self state event = some next) :
    UnreadInv self next := by
  cases event with
  | store row =>
    simp only [UnreadCounts.step, ite_none_left_eq_some, Option.some.injEq, not_or] at stepped
    obtain ⟨⟨new, ours⟩, rfl⟩ := stepped
    exact inv.store new ours
  | noteUnreadArrivals rows =>
    simp only [UnreadCounts.step, ite_none_right_eq_some, Option.some.injEq] at stepped
    obtain ⟨held, rfl⟩ := stepped
    exact inv.report held fresh
  | refreshUnreadCount =>
    cases stepped
    exact inv.toTallied.refresh
  | read =>
    simp only [UnreadCounts.step] at stepped
    split at stepped
    · rename_i again lastSeenLamport inFlight
      cases stepped
      refine ⟨⟨inv.ids, inv.remembered, inv.apart, inv.reported, inv.total, inv.once, inv.unread,
        ?_, ?_⟩, ?_, ?_⟩
      · rintro counted _ ⟨⟩
        have same : lastSeenLamport = state.lastSeenLamport := inv.mark counted _ inFlight
        exact same
      · rintro _ ⟨⟩ _ ⟨⟩
        exact ⟨(List.Nodup.of_map _ inv.ids).filter _, fun _ mem => mem⟩
      · nofun
      · rintro _ ⟨⟩ _ _ ⟨⟩ row mem _
        exact mem
    · cases stepped
  | resume =>
    simp only [UnreadCounts.step] at stepped
    split at stepped
    · cases stepped
      exact inv.resume ‹_›
    · cases stepped
  | noteRoomRead maxLamport =>
    cases stepped
    refine ⟨⟨inv.ids, inv.remembered, inv.apart, inv.reported, rfl, nodup_nil, ?_, ?_,
      inv.read⟩, ?_, inv.whole⟩
    · nofun
    · nofun
    · nofun
  | elsewhere id =>
    simp only [UnreadCounts.step, ite_none_left_eq_some, Option.some.injEq] at stepped
    obtain ⟨away, rfl⟩ := stepped
    refine ⟨⟨inv.ids, ?_, ?_, inv.reported, inv.total, inv.once, inv.unread, inv.mark, inv.read⟩,
      inv.complete, inv.whole⟩
    · intro other mem
      have seen : other ∈ state.countedIds ∨ other = id := by
        dsimp only at mem
        split_ifs at mem
        · exact Or.inl mem
        · exact remember_mem mem
      rcases seen with old | rfl
      · exact (inv.remembered other old).imp_right (mem_append_left _)
      · exact Or.inr (by simp)
    · intro other mem
      rcases mem_append.mp mem with old | new
      · exact inv.apart other old
      · rw [mem_singleton.mp new]
        exact away

end

end Keeping

theorem start_inv (self : Option String) {stored : List Row} (lastSeenLamport : Int)
    (ids : (stored.map Row.id).Nodup) : UnreadInv self (start stored lastSeenLamport) := by
  refine ⟨⟨ids, ?_, ?_, ?_, rfl, nodup_nil, ?_, ?_, ?_⟩, ?_, ?_⟩ <;> simp [start]

/-- In every run whose reports add only rows the total does not stand on, the total counts
each row once, and it is the fresh count as soon as the room is counted, no recount is in
flight and every stored row has been reported. -/
theorem unread_count_exact (self : Option String) (stored : List Row) (lastSeenLamport : Int)
    (events : List Event) (final : Unread) (ids : (stored.map Row.id).Nodup)
    (ran : run (step self) (start stored lastSeenLamport) events = some final)
    (fresh : Meets (step self) (AddsNew self) (start stored lastSeenLamport) events) :
    final.unreadCount.getD 0 = final.base.length ∧ final.base.Nodup ∧
      (final.counted = true → final.recount = none →
        (∀ row ∈ final.stored, row.id ∈ final.reported) →
        final.unreadCount.getD 0 =
          getUnreadCount self final.lastSeenLamport final.stored) := by
  have keeps : ∀ state event next, UnreadInv self state → AddsNew self state event →
      step self state event = some next → UnreadInv self next := fun _ _ _ inv fresh stepped =>
    inv.step fresh stepped
  have inv := run_keeps keeps (start_inv self lastSeenLamport ids) fresh ran
  refine ⟨inv.total, inv.once, ?_⟩
  intro counted idle told
  have whole : final.base.Perm (unreadRows self final.lastSeenLamport final.stored) := by
    apply (perm_ext_iff_of_nodup inv.once ((List.Nodup.of_map _ inv.ids).filter _)).mpr
    intro row
    constructor
    · exact inv.unread row
    · intro mem
      exact inv.complete counted idle row mem (told row (mem_unread_rows.mp mem).1)
  rw [inv.total]
  exact whole.length_eq

def sampleRow (id : String) (lamport : Int) : Row := ⟨id, "did:key:b", lamport, .text⟩

/-- A row is stored, a refresh counts it from storage, then its own report adds it again. -/
theorem unread_count_drifts :
    ¬ ∀ (self : Option String) (stored : List Row) (lastSeenLamport : Int) (events : List Event)
        (final : Unread),
      (stored.map Row.id).Nodup →
      run (step self) (start stored lastSeenLamport) events = some final →
      (final.counted = true → final.recount = none →
        (∀ row ∈ final.stored, row.id ∈ final.reported) →
        final.unreadCount.getD 0 =
          getUnreadCount self final.lastSeenLamport final.stored) ∧
      (final.reported.length < COUNTED_IDS_MAX → final.base.Nodup) := by
  intro exact
  have ran : run (step (some "did:key:a")) (start [] 0)
      [.store (sampleRow "m1" 1), .refreshUnreadCount, .read, .resume,
        .noteUnreadArrivals [sampleRow "m1" 1]] =
      some ⟨[sampleRow "m1" 1], 0, true, none, ["m1"], some 2,
        [sampleRow "m1" 1, sampleRow "m1" 1], ["m1"], []⟩ := by
    decide +kernel
  have same := (exact (some "did:key:a") [] 0 _ _ (by simp) ran).1 rfl rfl (by decide)
  exact absurd same (by decide)

theorem sample_unread_count_exact :
    ∃ final, run (step (some "did:key:a")) (start [] 0)
        [.refreshUnreadCount, .read, .resume, .store (sampleRow "m1" 1), .store (sampleRow "m2" 2),
          .noteUnreadArrivals [sampleRow "m2" 2, sampleRow "m1" 1],
          .noteUnreadArrivals [sampleRow "m1" 1]] = some final ∧
      final.unreadCount.getD 0 = getUnreadCount (some "did:key:a") final.lastSeenLamport
        final.stored := by
  obtain ⟨final, ran, shown⟩ := map_eq_some_iff.mp
    (show (run (step (some "did:key:a")) (start [] 0)
        [.refreshUnreadCount, .read, .resume, .store (sampleRow "m1" 1), .store (sampleRow "m2" 2),
          .noteUnreadArrivals [sampleRow "m2" 2, sampleRow "m1" 1],
          .noteUnreadArrivals [sampleRow "m1" 1]]).map
        (fun state => (state.counted, state.recount, state.stored, state.reported)) =
      some (true, none, [sampleRow "m1" 1, sampleRow "m2" 2], ["m2", "m1", "m1"]) by
      decide +kernel)
  simp only [Prod.mk.injEq] at shown
  obtain ⟨counted, idle, stored, reported⟩ := shown
  refine ⟨final, ran, (unread_count_exact (some "did:key:a") [] 0 _ final (by simp) ran
    (by decide +kernel)).2.2 counted idle ?_⟩
  simp [stored, reported, sampleRow]

end AwfulChat.UnreadCounts
