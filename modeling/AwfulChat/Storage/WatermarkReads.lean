import AwfulChat.Library.Interleaving
import AwfulChat.Storage.Watermarks

/-!
# Watermark reads of one room

`getWatermark`, `setWatermark`, `commitWatermark`, `holdWatermarks` and
`releaseWatermarks` of `storage.ts`, side by side on one room. An advance lives in
the hold of the room or in its row; a release drops the hold first and writes the
rows one sender after the other, so between the two it lives only in the loop of
the release, where no read looks.

A row that does not open counts as no saved value: `commitWatermark` deletes it
and writes its own.
-/

namespace AwfulChat.Storage

open Library Inbound Library.OrderedMap List Option Bool

set_option autoImplicit false

structure Lamport where
  value : Int
  safe : isSafeInteger value = true
  nonneg : 0 ≤ value

structure MarkRow where
  maxLamport : Int
  iv : Nat
  readable : Bool

/-- The holds, the rows of the room under their blinded and their plaintext keys,
`_readableWatermarks`, and the next IV. -/
structure RoomMarks where
  holds : Holds
  rows : OrderedMap Sender MarkRow
  legacy : OrderedMap Sender MarkRow
  known : List Sender
  nextIv : Nat

/-- The room, and whether the at-rest sweep is still to finish. -/
structure MarkSite where
  room : Room
  migrating : Bool

inductive MarkCall where
  | get (sender : Sender)
  | set (sender : Sender) (lamport : Lamport)
  | commit (sender : Sender) (lamport : Lamport)
  | release

inductive MarkPhase where
  | sealing
  | committing (sealed : MarkRow)
  | opening (sealed existing : MarkRow)
  | purging (sealed existing : MarkRow)
  | repairing (sealed : MarkRow)

/-- A call: a read on its way or done, or the advances still to be written, the
first one in hand. `asked` is the advance a `setWatermark` or `commitWatermark`
was called for; a release has none. -/
inductive MarkJob where
  | reading (sender : Sender) (held : Int)
  | readingLegacy (sender : Sender) (held : Int)
  | returned (sender : Sender) (value : Int)
  | writing (sender : Sender) (lamport : Int) (phase : MarkPhase) (rest : List (Sender × Int))
      (asked : Option (Sender × Int))
  | resolved (asked : Option (Sender × Int))

def writeNext (asked : Option (Sender × Int)) : List (Sender × Int) → MarkJob
  | [] => .resolved asked
  | (sender, lamport) :: rest => .writing sender lamport .sealing rest asked

def heldMark (site : MarkSite) (store : RoomMarks) (sender : Sender) : Option Int :=
  (store.holds.get site.room).bind fun waiting => waiting.get sender

def markStart (site : MarkSite) (store : RoomMarks) : MarkCall → RoomMarks × MarkJob
  | .get sender => (store, .reading sender ((heldMark site store sender).getD 0))
  | .set sender lamport =>
    let taken := setWatermark store.holds site.room sender lamport.value
    let asked := some (sender, lamport.value)
    ({ store with holds := taken.1 },
      if taken.2 then writeNext asked [(sender, lamport.value)] else .resolved asked)
  | .commit sender lamport =>
    (store, writeNext (some (sender, lamport.value)) [(sender, lamport.value)])
  | .release =>
    let taken := releaseWatermarks store.holds site.room
    ({ store with holds := taken.1 }, writeNext none taken.2)

def RoomMarks.put (store : RoomMarks) (sender : Sender) (sealed : MarkRow) : RoomMarks :=
  { store with rows := store.rows.set sender sealed, known := sender :: store.known }

/-- One act of `commitWatermark`: the store, and the phase it goes on with; none
once it has returned. -/
def commitAct (store : RoomMarks) (sender : Sender) (lamport : Int) :
    MarkPhase → RoomMarks × Option MarkPhase
  | .sealing =>
    ({ store with nextIv := store.nextIv + 1 }, some (.committing ⟨lamport, store.nextIv, true⟩))
  | .committing sealed =>
    match store.rows.get sender with
    | none => (store.put sender sealed, none)
    | some existing =>
      if existing.maxLamport < lamport then (store.put sender sealed, none)
      else if sender ∈ store.known then (store, none)
      else (store, some (.opening sealed existing))
  | .opening sealed existing =>
    if existing.readable then ({ store with known := sender :: store.known }, none)
    else (store, some (.purging sealed existing))
  | .purging sealed existing =>
    match store.rows.get sender with
    | some current =>
      (if current.iv = existing.iv then { store with rows := store.rows.delete sender }
        else store, some (.repairing sealed))
    | none => (store, some (.repairing sealed))
  | .repairing sealed =>
    match store.rows.get sender with
    | none => (store.put sender sealed, none)
    | some current =>
      if current.maxLamport < lamport then (store.put sender sealed, none)
      else ({ store with known := sender :: store.known }, none)

def markAct (site : MarkSite) (store : RoomMarks) : MarkJob → Option (RoomMarks × MarkJob)
  | .reading sender held =>
    match store.rows.get sender with
    | some row => some (store, .returned sender (max row.maxLamport held))
    | none =>
      if site.migrating then some (store, .readingLegacy sender held)
      else some (store, .returned sender (max 0 held))
  | .readingLegacy sender held =>
    some (store, .returned sender
      (max (((store.legacy.get sender).map MarkRow.maxLamport).getD 0) held))
  | .returned _ _ => none
  | .writing sender lamport phase rest asked =>
    match commitAct store sender lamport phase with
    | (next, some phase) => some (next, .writing sender lamport phase rest asked)
    | (next, none) => some (next, writeNext asked rest)
  | .resolved _ => none

/-- The calls on one room; from outside, only the hold. -/
def watermarkCalls (site : MarkSite) : Program RoomMarks MarkCall MarkJob Unit where
  start := markStart site
  act := markAct site
  outside := fun store _ => some { store with holds := holdWatermarks store.holds site.room }

/-- The row `getWatermark` reads, its two lookups taken together. -/
def visibleMark (site : MarkSite) (store : RoomMarks) (sender : Sender) : Option MarkRow :=
  match store.rows.get sender with
  | some row => some row
  | none => if site.migrating then store.legacy.get sender else none

def savedMark (site : MarkSite) (store : RoomMarks) (sender : Sender) : Option Int :=
  (visibleMark site store sender).bind fun row => if row.readable then some row.maxLamport else none

/-- The advances a release has taken out of the hold and not yet written. -/
def MarkJob.owes : MarkJob → List (Sender × Int)
  | .writing sender lamport phase rest none =>
    match phase with
    | .opening _ existing | .purging _ existing =>
      if existing.readable then rest else (sender, lamport) :: rest
    | _ => (sender, lamport) :: rest
  | _ => []

/-- Fewer senders held than the cap, where an advance is to be held. -/
def fewHeld (site : MarkSite) (pool : Pool RoomMarks MarkJob) : Turn MarkCall Unit → Bool
  | .start (.set _ _) =>
    match pool.shared.holds.get site.room with
    | some waiting => decide (waiting.size < maxHeldSenders)
    | none => true
  | _ => true

/-- A write about to put a lower value under the blinded key while only a row
under the plaintext key is stored. -/
def shadowsLegacy (site : MarkSite) (store : RoomMarks) : MarkJob → Bool
  | .writing sender lamport (.committing _) _ _ | .writing sender lamport (.repairing _) _ _ =>
    match store.rows.get sender, store.legacy.get sender with
    | none, some row => site.migrating && row.readable && decide (lamport < row.maxLamport)
    | _, _ => false
  | _ => false

/-- No read of a sender starts while a release owes its advance, and no write
hides a higher row of the plaintext key. -/
def markSafe (site : MarkSite) (pool : Pool RoomMarks MarkJob) : Turn MarkCall Unit → Bool
  | .start (.get sender) =>
    pool.jobs.all fun job => job.owes.all fun entry => decide (entry.1 ≠ sender)
  | .advance index =>
    match pool.jobs[index]? with
    | some job => !shadowsLegacy site pool.shared job
    | none => true
  | _ => true

/-- A row that opens, at `lamport` or above. -/
def RowKept (store : RoomMarks) (sender : Sender) (lamport : Int) : Prop :=
  ∃ row, store.rows.get sender = some row ∧ row.readable = true ∧ lamport ≤ row.maxLamport

/-- Rows that do not open were there before the first seal, `first`. -/
structure MarkInv (first : Nat) (store : RoomMarks) : Prop where
  dead : ∀ sender row, store.rows.get sender = some row → row.readable = false → row.iv < first
  known : ∀ sender row, sender ∈ store.known → store.rows.get sender = some row →
    row.readable = true
  next : first ≤ store.nextIv

structure MarkMoves (first : Nat) (site : MarkSite) (before after : RoomMarks) : Prop where
  new : ∀ sender row, after.rows.get sender = some row →
    before.rows.get sender = some row ∨ row.readable = true ∧ first ≤ row.iv
  kept : ∀ sender lamport, RowKept before sender lamport → RowKept after sender lamport
  saved : ∀ sender value, savedMark site before sender = some value →
    ∃ later, savedMark site after sender = some later ∧ value ≤ later

structure SealedFor (first : Nat) (lamport : Int) (sealed : MarkRow) : Prop where
  value : sealed.maxLamport = lamport
  readable : sealed.readable = true
  fresh : first ≤ sealed.iv

/-- A row that did not open when it was read, and what may still carry its IV. -/
structure DeadSeen (first : Nat) (store : RoomMarks) (sender : Sender) (existing : MarkRow) :
    Prop where
  old : existing.iv < first
  same : ∀ current, store.rows.get sender = some current →
    (current.iv = existing.iv ↔ current.readable = false)

def PhaseHeld (first : Nat) (store : RoomMarks) (sender : Sender) (lamport : Int) :
    MarkPhase → Prop
  | .sealing => True
  | .committing sealed => SealedFor first lamport sealed
  | .opening sealed existing => SealedFor first lamport sealed ∧
      (existing.readable = true → RowKept store sender lamport) ∧
      (existing.readable = false → DeadSeen first store sender existing)
  | .purging sealed existing => SealedFor first lamport sealed ∧ existing.readable = false ∧
      DeadSeen first store sender existing
  | .repairing sealed => SealedFor first lamport sealed ∧
      ∀ current, store.rows.get sender = some current → current.readable = true

def JobHeld (first : Nat) (store : RoomMarks) : MarkJob → Prop
  | .writing sender lamport phase rest asked =>
    PhaseHeld first store sender lamport phase ∧
      ∀ advance, asked = some advance → advance = (sender, lamport) ∧ rest = []
  | _ => True

section Rows

variable {first : Nat} {site : MarkSite} {store after : RoomMarks} {sender : Sender}
  {lamport : Int}

theorem mark_moves_of_rows (rows : after.rows = store.rows) (legacy : after.legacy = store.legacy) :
    MarkMoves first site store after := by
  refine ⟨?_, ?_, ?_⟩
  · intro other row found
    rw [rows] at found
    exact Or.inl found
  · intro other value kept
    unfold RowKept at kept ⊢
    rw [rows]
    exact kept
  · intro other value found
    refine ⟨value, ?_, le_refl _⟩
    unfold savedMark visibleMark at found ⊢
    rw [rows, legacy]
    exact found

theorem mark_moves_trans {before middle later : RoomMarks} (early : MarkMoves first site before middle)
    (late : MarkMoves first site middle later) : MarkMoves first site before later := by
  refine ⟨?_, ?_, ?_⟩
  · intro other row found
    rcases late.new other row found with old | new
    · exact early.new other row old
    · exact Or.inr new
  · intro other value kept
    exact late.kept other value (early.kept other value kept)
  · intro other value found
    obtain ⟨second, at_second, below⟩ := early.saved other value found
    obtain ⟨third, at_third, above⟩ := late.saved other second at_second
    exact ⟨third, at_third, le_trans below above⟩

theorem saved_below_put
    (higher : ∀ existing, store.rows.get sender = some existing → existing.readable = true →
      existing.maxLamport < lamport)
    (shown : ∀ row, store.rows.get sender = none → site.migrating = true →
      store.legacy.get sender = some row → row.readable = true → row.maxLamport ≤ lamport)
    {value : Int} (found : savedMark site store sender = some value) : value ≤ lamport := by
  unfold savedMark visibleMark at found
  cases blinded : store.rows.get sender with
  | some existing =>
    simp only [blinded, bind_some] at found
    split_ifs at found with readable
    cases found
    exact le_of_lt (higher existing blinded readable)
  | none =>
    simp only [blinded] at found
    split_ifs at found with migrating
    · cases plain : store.legacy.get sender with
      | none => simp [plain] at found
      | some row =>
        simp only [plain, bind_some] at found
        split_ifs at found with readable
        cases found
        exact shown row blinded migrating plain readable
    · cases found

theorem put_moves {sealed : MarkRow} (inv : MarkInv first store)
    (fits : SealedFor first lamport sealed)
    (higher : ∀ existing, store.rows.get sender = some existing → existing.readable = true →
      existing.maxLamport < lamport)
    (shown : ∀ row, store.rows.get sender = none → site.migrating = true →
      store.legacy.get sender = some row → row.readable = true → row.maxLamport ≤ lamport) :
    MarkInv first (store.put sender sealed) ∧ MarkMoves first site store (store.put sender sealed) ∧
      RowKept (store.put sender sealed) sender lamport := by
  have here : (store.put sender sealed).rows.get sender = some sealed := by
    simp [RoomMarks.put]
  have elsewhere : ∀ other, other ≠ sender →
      (store.put sender sealed).rows.get other = store.rows.get other := by
    intro other different
    simp [RoomMarks.put, different]
  have kept_here : RowKept (store.put sender sealed) sender lamport :=
    ⟨sealed, here, fits.readable, le_of_eq fits.value.symm⟩
  refine ⟨⟨?_, ?_, inv.next⟩, ⟨?_, ?_, ?_⟩, kept_here⟩
  · intro other row found dead
    by_cases same : other = sender
    · subst same
      rw [here] at found
      cases found
      rw [fits.readable] at dead
      cases dead
    · rw [elsewhere other same] at found
      exact inv.dead other row found dead
  · intro other row known found
    by_cases same : other = sender
    · subst same
      rw [here] at found
      cases found
      exact fits.readable
    · rw [elsewhere other same] at found
      refine inv.known other row ?_ found
      simpa [RoomMarks.put, same] using known
  · intro other row found
    by_cases same : other = sender
    · subst same
      rw [here] at found
      cases found
      exact Or.inr ⟨fits.readable, fits.fresh⟩
    · rw [elsewhere other same] at found
      exact Or.inl found
  · intro other value kept
    by_cases same : other = sender
    · subst same
      obtain ⟨row, found, readable, above⟩ := kept
      refine ⟨sealed, here, fits.readable, ?_⟩
      rw [fits.value]
      exact le_trans above (le_of_lt (higher row found readable))
    · obtain ⟨row, found, readable, above⟩ := kept
      exact ⟨row, by rw [elsewhere other same]; exact found, readable, above⟩
  · intro other value found
    by_cases same : other = sender
    · subst same
      refine ⟨lamport, ?_, saved_below_put higher shown found⟩
      simp [savedMark, visibleMark, here, fits.readable, fits.value]
    · refine ⟨value, ?_, le_refl _⟩
      unfold savedMark visibleMark at found ⊢
      rw [elsewhere other same]
      exact found

variable (site) in
theorem delete_moves {current : MarkRow} (inv : MarkInv first store)
    (found : store.rows.get sender = some current) (dead : current.readable = false) :
    MarkInv first { store with rows := store.rows.delete sender } ∧
      MarkMoves first site store { store with rows := store.rows.delete sender } := by
  have elsewhere : ∀ other, other ≠ sender →
      (store.rows.delete sender).get other = store.rows.get other := by
    intro other different
    simp [different]
  have only : ∀ other row, (store.rows.delete sender).get other = some row →
      store.rows.get other = some row := by
    intro other row there
    rw [get_delete] at there
    split_ifs at there
    exact there
  refine ⟨⟨?_, ?_, inv.next⟩, ⟨?_, ?_, ?_⟩⟩
  · intro other row there
    exact inv.dead other row (only other row there)
  · intro other row known there
    exact inv.known other row known (only other row there)
  · intro other row there
    exact Or.inl (only other row there)
  · intro other value kept
    obtain ⟨row, there, readable, above⟩ := kept
    by_cases same : other = sender
    · subst same
      rw [found] at there
      cases there
      rw [dead] at readable
      cases readable
    · exact ⟨row, by rw [elsewhere other same]; exact there, readable, above⟩
  · intro other value there
    by_cases same : other = sender
    · subst same
      simp [savedMark, visibleMark, found, dead] at there
    · refine ⟨value, ?_, le_refl _⟩
      unfold savedMark visibleMark at there ⊢
      dsimp only
      rw [elsewhere other same]
      exact there

theorem PhaseHeld.stable {phase : MarkPhase} (held : PhaseHeld first store sender lamport phase)
    (moves : MarkMoves first site store after) : PhaseHeld first after sender lamport phase := by
  have still : ∀ existing, DeadSeen first store sender existing →
      DeadSeen first after sender existing := by
    intro existing seen
    refine ⟨seen.old, ?_⟩
    intro current found
    rcases moves.new sender current found with old | ⟨opens, fresh⟩
    · exact seen.same current old
    · have older := seen.old
      constructor
      · intro same
        omega
      · intro fails
        rw [opens] at fails
        cases fails
  cases phase with
  | sealing => trivial
  | committing sealed => exact held
  | opening sealed existing =>
    obtain ⟨fits, readable, dead⟩ := held
    exact ⟨fits, fun opens => moves.kept _ _ (readable opens), fun fails => still _ (dead fails)⟩
  | purging sealed existing =>
    obtain ⟨fits, fails, dead⟩ := held
    exact ⟨fits, fails, still _ dead⟩
  | repairing sealed =>
    obtain ⟨fits, readable⟩ := held
    refine ⟨fits, ?_⟩
    intro current found
    rcases moves.new sender current found with old | ⟨opens, -⟩
    · exact readable current old
    · exact opens

end Rows

section Acts

variable {first : Nat} {site : MarkSite} {store next : RoomMarks} {sender : Sender}
  {lamport : Int}

/-- How far one act of `commitWatermark` got: on to a phase, or done with its
advance in a row that opens. -/
def Committed (first : Nat) (store : RoomMarks) (sender : Sender) (lamport : Int) :
    Option MarkPhase → Prop
  | some phase => PhaseHeld first store sender lamport phase
  | none => RowKept store sender lamport

variable {asked : Option (Sender × Int)} {rest : List (Sender × Int)}

variable {phase : MarkPhase}

theorem shown_of_safe {sealed : MarkRow}
    (writes : phase = .committing sealed ∨ phase = .repairing sealed)
    (safe : shadowsLegacy site store (.writing sender lamport phase rest asked) = false) :
    ∀ row, store.rows.get sender = none → site.migrating = true →
      store.legacy.get sender = some row → row.readable = true → row.maxLamport ≤ lamport := by
  intro row absent migrating plain readable
  rcases writes with rfl | rfl <;>
  · simp only [shadowsLegacy, absent, plain, migrating, readable, Bool.true_and,
      decide_eq_false_iff_not, not_lt] at safe
    exact safe

theorem commit_act_put {sealed : MarkRow} (inv : MarkInv first store)
    (writes : phase = .committing sealed ∨ phase = .repairing sealed)
    (fits : SealedFor first lamport sealed)
    (safe : shadowsLegacy site store (.writing sender lamport phase rest asked) = false)
    (higher : ∀ existing, store.rows.get sender = some existing → existing.maxLamport < lamport) :
    MarkInv first (store.put sender sealed) ∧ MarkMoves first site store (store.put sender sealed) ∧
      Committed first (store.put sender sealed) sender lamport none :=
  put_moves inv fits (fun existing found _ => higher existing found) (shown_of_safe writes safe)

variable (site) in
theorem learn_moves (inv : MarkInv first store)
    (opens : ∀ row, store.rows.get sender = some row → row.readable = true) :
    MarkInv first { store with known := sender :: store.known } ∧
      MarkMoves first site store { store with known := sender :: store.known } := by
  refine ⟨⟨inv.dead, ?_, inv.next⟩, mark_moves_of_rows rfl rfl⟩
  intro other row known found
  rcases mem_cons.mp known with same | old
  · subst same
    exact opens row found
  · exact inv.known other row old found

theorem RowKept.opens (kept : RowKept store sender lamport) :
    ∀ row, store.rows.get sender = some row → row.readable = true := by
  intro row found
  obtain ⟨other, there, readable, -⟩ := kept
  rw [found] at there
  cases there
  exact readable

theorem commit_act_kept {result : Option MarkPhase} (inv : MarkInv first store)
    (held : PhaseHeld first store sender lamport phase)
    (safe : shadowsLegacy site store (.writing sender lamport phase rest asked) = false)
    (acted : commitAct store sender lamport phase = (next, result)) :
    MarkInv first next ∧ MarkMoves first site store next ∧
      Committed first next sender lamport result := by
  cases phase with
  | sealing =>
    simp only [commitAct, Prod.mk.injEq] at acted
    obtain ⟨rfl, rfl⟩ := acted
    exact ⟨⟨inv.dead, inv.known, Nat.le_succ_of_le inv.next⟩, mark_moves_of_rows rfl rfl,
      ⟨rfl, rfl, inv.next⟩⟩
  | committing sealed =>
    simp only [commitAct] at acted
    cases found : store.rows.get sender with
    | none =>
      simp only [found, Prod.mk.injEq] at acted
      obtain ⟨rfl, rfl⟩ := acted
      apply commit_act_put inv (Or.inl rfl) held safe
      intro existing there
      rw [found] at there
      cases there
    | some existing =>
      simp only [found] at acted
      split_ifs at acted with below known
      · obtain ⟨rfl, rfl⟩ := Prod.mk.inj acted
        apply commit_act_put inv (Or.inl rfl) held safe
        intro other there
        rw [found] at there
        cases there
        exact below
      · obtain ⟨rfl, rfl⟩ := Prod.mk.inj acted
        exact ⟨inv, mark_moves_of_rows rfl rfl, existing, found,
          inv.known sender existing known found, not_lt.mp below⟩
      · obtain ⟨rfl, rfl⟩ := Prod.mk.inj acted
        refine ⟨inv, mark_moves_of_rows rfl rfl, held, ?_, ?_⟩
        · intro opens
          exact ⟨existing, found, opens, not_lt.mp below⟩
        · intro fails
          refine ⟨inv.dead sender existing found fails, ?_⟩
          intro current there
          rw [found] at there
          cases there
          exact ⟨fun _ => fails, fun _ => rfl⟩
  | opening sealed existing =>
    obtain ⟨fits, readable, dead⟩ := held
    simp only [commitAct] at acted
    split_ifs at acted with opens
    · obtain ⟨rfl, rfl⟩ := Prod.mk.inj acted
      have learnt := learn_moves site inv (readable opens).opens
      exact ⟨learnt.1, learnt.2, readable opens⟩
    · obtain ⟨rfl, rfl⟩ := Prod.mk.inj acted
      have fails : existing.readable = false := by simpa using opens
      exact ⟨inv, mark_moves_of_rows rfl rfl, fits, fails, dead fails⟩
  | purging sealed existing =>
    obtain ⟨fits, fails, dead⟩ := held
    simp only [commitAct] at acted
    cases found : store.rows.get sender with
    | none =>
      simp only [found, Prod.mk.injEq] at acted
      obtain ⟨rfl, rfl⟩ := acted
      refine ⟨inv, mark_moves_of_rows rfl rfl, fits, ?_⟩
      intro current there
      rw [found] at there
      cases there
    | some current =>
      simp only [found, Prod.mk.injEq] at acted
      obtain ⟨same, rfl⟩ := acted
      split_ifs at same with iv
      · subst same
        have purged := delete_moves site inv found ((dead.same current found).mp iv)
        refine ⟨purged.1, purged.2, fits, ?_⟩
        intro other there
        simp at there
      · subst same
        refine ⟨inv, mark_moves_of_rows rfl rfl, fits, ?_⟩
        intro other there
        rw [found] at there
        cases there
        by_contra closed
        have unread : current.readable = false := by simpa using closed
        exact iv ((dead.same current found).mpr unread)
  | repairing sealed =>
    obtain ⟨fits, readable⟩ := held
    simp only [commitAct] at acted
    cases found : store.rows.get sender with
    | none =>
      simp only [found, Prod.mk.injEq] at acted
      obtain ⟨rfl, rfl⟩ := acted
      apply commit_act_put inv (Or.inr rfl) fits safe
      intro existing there
      rw [found] at there
      cases there
    | some current =>
      simp only [found] at acted
      split_ifs at acted with below
      · obtain ⟨rfl, rfl⟩ := Prod.mk.inj acted
        apply commit_act_put inv (Or.inr rfl) fits safe
        intro other there
        rw [found] at there
        cases there
        exact below
      · obtain ⟨rfl, rfl⟩ := Prod.mk.inj acted
        have learnt := learn_moves site inv readable
        exact ⟨learnt.1, learnt.2, current, found, readable current found, not_lt.mp below⟩

end Acts

section Reads

variable {first : Nat} {site : MarkSite}

variable {store next : RoomMarks}

theorem commit_act_holds {sender : Sender} {lamport : Int} {phase : MarkPhase}
    {result : Option MarkPhase}
    (acted : commitAct store sender lamport phase = (next, result)) : next.holds = store.holds := by
  unfold commitAct at acted
  split at acted
  · cases acted
    rfl
  · split at acted
    · cases acted
      rfl
    · split_ifs at acted <;> cases acted <;> rfl
  · split_ifs at acted <;> cases acted <;> rfl
  · split at acted
    · cases acted
      split_ifs <;> rfl
    · cases acted
      rfl
  · split at acted
    · cases acted
      rfl
    · split_ifs at acted <;> cases acted <;> rfl

theorem write_next_held (store : RoomMarks) (asked : Option (Sender × Int))
    (todo : List (Sender × Int)) (single : ∀ advance, asked = some advance → todo = [advance] ∨ todo = []) :
    JobHeld first store (writeNext asked todo) := by
  cases todo with
  | nil => trivial
  | cons entry rest =>
    refine ⟨trivial, ?_⟩
    intro advance same
    rcases single advance same with one | none
    · cases one
      exact ⟨rfl, rfl⟩
    · cases none

variable {job after : MarkJob}

theorem mark_act_kept (inv : MarkInv first store) (held : JobHeld first store job)
    (safe : shadowsLegacy site store job = false)
    (acted : markAct site store job = some (next, after)) :
    MarkInv first next ∧ JobHeld first next after ∧ MarkMoves first site store next := by
  cases job with
  | reading sender sampled =>
    simp only [markAct] at acted
    split at acted
    · cases acted
      exact ⟨inv, trivial, mark_moves_of_rows rfl rfl⟩
    · split_ifs at acted <;>
      · cases acted
        exact ⟨inv, trivial, mark_moves_of_rows rfl rfl⟩
  | readingLegacy sender sampled =>
    cases acted
    exact ⟨inv, trivial, mark_moves_of_rows rfl rfl⟩
  | returned | resolved => cases acted
  | writing sender lamport phase rest asked =>
    obtain ⟨phase_held, single⟩ := held
    cases result : commitAct store sender lamport phase with
    | mk moved outcome =>
      obtain ⟨moved_inv, moves, committed⟩ := commit_act_kept inv phase_held safe result
      cases outcome with
      | some phase =>
        simp only [markAct, result] at acted
        cases acted
        exact ⟨moved_inv, ⟨committed, single⟩, moves⟩
      | none =>
        simp only [markAct, result] at acted
        cases acted
        refine ⟨moved_inv, write_next_held _ _ _ ?_, moves⟩
        intro advance same
        exact Or.inr (single advance same).2

theorem watermark_calls_keep (first : Nat) (site : MarkSite) :
    Keeps (watermarkCalls site) (fun pool turn => markSafe site pool turn = true)
      (MarkInv first) (JobHeld first) (MarkMoves first site) where
  refl := fun store => mark_moves_of_rows rfl rfl
  trans := mark_moves_trans
  start := by
    intro pool call store job _ inv started
    cases call with
    | get sender =>
      cases started
      exact ⟨inv, trivial, mark_moves_of_rows rfl rfl⟩
    | set sender lamport =>
      cases started
      refine ⟨⟨inv.dead, inv.known, inv.next⟩, ?_, mark_moves_of_rows rfl rfl⟩
      split_ifs
      · apply write_next_held
        intro advance same
        cases same
        exact Or.inl rfl
      · trivial
    | commit sender lamport =>
      cases started
      refine ⟨inv, ?_, mark_moves_of_rows rfl rfl⟩
      apply write_next_held
      intro advance same
      cases same
      exact Or.inl rfl
    | release =>
      cases started
      refine ⟨⟨inv.dead, inv.known, inv.next⟩, ?_, mark_moves_of_rows rfl rfl⟩
      apply write_next_held
      nofun
  act := by
    intro pool index job store after found safe inv held acted
    have shown : shadowsLegacy site pool.shared job = false := by
      simpa only [markSafe, found, not_eq_true'] using safe
    exact mark_act_kept inv held shown acted
  outside := by
    intro pool event store _ inv happened
    cases happened
    exact ⟨⟨inv.dead, inv.known, inv.next⟩, mark_moves_of_rows rfl rfl⟩
  stable := by
    intro before after job _ moves held
    cases job with
    | writing sender lamport phase rest asked => exact ⟨held.1.stable moves, held.2⟩
    | _ => trivial

theorem mark_act_holds
    (acted : markAct site store job = some (next, after)) : next.holds = store.holds := by
  cases job with
  | reading sender sampled =>
    simp only [markAct] at acted
    split at acted
    · cases acted
      rfl
    · split_ifs at acted <;>
      · cases acted
        rfl
  | readingLegacy sender sampled =>
    cases acted
    rfl
  | returned | resolved => cases acted
  | writing sender lamport phase rest asked =>
    cases result : commitAct store sender lamport phase with
    | mk moved outcome =>
      have same := commit_act_holds result
      cases outcome <;>
      · simp only [markAct, result] at acted
        cases acted
        exact same

/-- A row that opens, or the hold of the room, stands for the advance. -/
def Stands (site : MarkSite) (store : RoomMarks) (sender : Sender) (lamport : Int) : Prop :=
  RowKept store sender lamport ∨
    ∃ waiting, heldMark site store sender = some waiting ∧ lamport ≤ waiting

/-- An advance that stands, or is in the loop of a release. -/
def Covered (site : MarkSite) (pool : Pool RoomMarks MarkJob) (sender : Sender) (lamport : Int) :
    Prop :=
  Stands site pool.shared sender lamport ∨
    ∃ job ∈ pool.jobs, ∃ waiting, (sender, waiting) ∈ job.owes ∧ lamport ≤ waiting

theorem owes_write_next (todo : List (Sender × Int)) : (writeNext none todo).owes = todo := by
  cases todo <;> rfl

theorem mark_act_owes (inv : MarkInv first store) (held : JobHeld first store job)
    (safe : shadowsLegacy site store job = false)
    (acted : markAct site store job = some (next, after)) {entry : Sender × Int}
    (owed : entry ∈ job.owes) : entry ∈ after.owes ∨ RowKept next entry.1 entry.2 := by
  cases job with
  | reading | readingLegacy | returned | resolved => cases owed
  | writing sender lamport phase rest asked =>
    cases asked with
    | some advance => cases owed
    | none =>
      have listed : entry = (sender, lamport) ∨ entry ∈ rest := by
        cases phase with
        | opening | purging =>
          simp only [MarkJob.owes] at owed
          split_ifs at owed
          · exact Or.inr owed
          · exact mem_cons.mp owed
        | sealing | committing | repairing => exact mem_cons.mp owed
      cases result : commitAct store sender lamport phase with
      | mk moved outcome =>
        obtain ⟨-, -, committed⟩ := commit_act_kept inv held.1 safe result
        cases outcome with
        | none =>
          simp only [markAct, result] at acted
          cases acted
          rcases listed with rfl | later
          · exact Or.inr committed
          · rw [owes_write_next]
            exact Or.inl later
        | some phase =>
          simp only [markAct, result] at acted
          cases acted
          cases phase with
          | opening sealed existing =>
            cases opens : existing.readable with
            | true =>
              rcases listed with rfl | later
              · exact Or.inr (committed.2.1 opens)
              · exact Or.inl (by simpa [MarkJob.owes, opens] using later)
            | false => exact Or.inl (by simpa [MarkJob.owes, opens] using listed)
          | purging sealed existing =>
            have fails := committed.2.1
            exact Or.inl (by simpa [MarkJob.owes, fails] using listed)
          | sealing | committing | repairing =>
            exact Or.inl (by simpa [MarkJob.owes] using listed)

theorem mark_act_resolves {job : MarkJob} (inv : MarkInv first store)
    (held : JobHeld first store job) (safe : shadowsLegacy site store job = false) {sender : Sender}
    {lamport : Int}
    (acted : markAct site store job = some (next, .resolved (some (sender, lamport)))) :
    RowKept next sender lamport := by
  cases job with
  | reading other sampled =>
    simp only [markAct] at acted
    split at acted
    · cases acted
    · split_ifs at acted <;> cases acted
  | readingLegacy | returned | resolved => cases acted
  | writing other value phase rest asked =>
    cases result : commitAct store other value phase with
    | mk moved outcome =>
      obtain ⟨-, -, committed⟩ := commit_act_kept inv held.1 safe result
      cases outcome with
      | some phase =>
        simp only [markAct, result] at acted
        cases acted
      | none =>
        simp only [markAct, result, Option.some.injEq, Prod.mk.injEq] at acted
        obtain ⟨rfl, finished⟩ := acted
        cases rest with
        | cons entry rest => cases finished
        | nil =>
          cases finished
          obtain ⟨same, -⟩ := held.2 (sender, lamport) rfl
          cases same
          exact committed

section Waiting

variable {waiting : OrderedMap Sender Int} {sender other : Sender} {lamport value : Int}

theorem wait_advance_keeps (found : waiting.get other = some value) :
    ∃ later, (waitAdvance waiting sender lamport).get other = some later ∧ value ≤ later := by
  unfold waitAdvance
  by_cases valid : isSafeInteger lamport = true ∧ 0 ≤ lamport
  · rw [if_pos valid]
    cases kept : waiting.get sender with
    | none =>
      dsimp only
      split_ifs
      · exact ⟨value, found, le_refl _⟩
      · have different : other ≠ sender := by
          intro same
          rw [same, kept] at found
          cases found
        exact ⟨value, by simpa [different] using found, le_refl _⟩
    | some before =>
      dsimp only
      split_ifs with above
      · by_cases same : other = sender
        · subst same
          rw [kept] at found
          cases found
          exact ⟨lamport, by simp, le_of_lt above⟩
        · exact ⟨value, by simpa [same] using found, le_refl _⟩
      · exact ⟨value, found, le_refl _⟩
  · rw [if_neg valid]
    exact ⟨value, found, le_refl _⟩

theorem wait_advance_reaches (advance : Lamport) (room_left : waiting.size < maxHeldSenders) :
    ∃ later, (waitAdvance waiting sender advance.value).get sender = some later ∧
      advance.value ≤ later := by
  unfold waitAdvance
  rw [if_pos ⟨advance.safe, advance.nonneg⟩]
  cases kept : waiting.get sender with
  | none =>
    dsimp only
    rw [if_neg (not_le.mpr room_left)]
    exact ⟨advance.value, by simp, le_refl _⟩
  | some before =>
    dsimp only
    split_ifs with above
    · exact ⟨advance.value, by simp, le_refl _⟩
    · exact ⟨before, kept, not_lt.mp above⟩

end Waiting

section Steps

variable {pool next : Pool RoomMarks MarkJob} {turn : Turn MarkCall Unit} {sender : Sender}
  {lamport : Int}

variable {store after : RoomMarks}

variable {job : MarkJob}

theorem mark_start_stands {call : MarkCall} (stands : Stands site store sender lamport)
    (started : markStart site store call = (after, job)) :
    Stands site after sender lamport ∨
      ∃ waiting, (sender, waiting) ∈ job.owes ∧ lamport ≤ waiting := by
  cases call with
  | get | commit =>
    cases started
    exact Or.inl stands
  | set other advance =>
    cases started
    left
    rcases stands with kept | ⟨value, held, above⟩
    · exact Or.inl kept
    · right
      cases found : store.holds.get site.room with
      | none => simp [heldMark, found] at held
      | some waiting =>
        have was : waiting.get sender = some value := by
          simpa only [heldMark, found, bind_some] using held
        obtain ⟨later, got, higher⟩ : ∃ later,
            (waitAdvance waiting other advance.value).get sender = some later ∧ value ≤ later :=
          wait_advance_keeps was
        refine ⟨later, ?_, le_trans above higher⟩
        simpa [heldMark, setWatermark, found] using got
  | release =>
    cases started
    rcases stands with kept | ⟨value, held, above⟩
    · exact Or.inl (Or.inl kept)
    · right
      cases found : store.holds.get site.room with
      | none => simp [heldMark, found] at held
      | some waiting =>
        have was : waiting.get sender = some value := by
          simpa only [heldMark, found, bind_some] using held
        refine ⟨value, ?_, above⟩
        rw [owes_write_next]
        simpa only [releaseWatermarks, found] using mem_of_get was

theorem hold_stands {store : RoomMarks} (stands : Stands site store sender lamport) :
    Stands site { store with holds := holdWatermarks store.holds site.room } sender lamport := by
  rcases stands with kept | ⟨value, held, above⟩
  · exact Or.inl kept
  · right
    refine ⟨value, ?_, above⟩
    cases found : store.holds.get site.room with
    | none => simp [heldMark, found] at held
    | some waiting =>
      have has : store.holds.has site.room = true := by simp [OrderedMap.has, found]
      simpa [heldMark, holdWatermarks, has] using held

theorem Covered.step (good : pool.Good (MarkInv first) (JobHeld first))
    (safe : markSafe site pool turn = true) (covered : Covered site pool sender lamport)
    (stepped : (watermarkCalls site).step pool turn = some next) :
    Covered site next sender lamport := by
  cases turn with
  | start call =>
    cases stepped
    rcases covered with stands | ⟨job, mem, waiting, owed, above⟩
    · have started : markStart site pool.shared call = (_, _) := rfl
      rcases mark_start_stands stands started with still | ⟨waiting, owed, above⟩
      · exact Or.inl still
      · refine Or.inr ⟨_, mem_append_right _ mem_cons_self, waiting, owed, above⟩
    · exact Or.inr ⟨job, mem_append_left _ mem, waiting, owed, above⟩
  | outside event =>
    cases stepped
    rcases covered with stands | owed
    · exact Or.inl (hold_stands stands)
    · exact Or.inr owed
  | advance index =>
    obtain ⟨job, store, after, found, acted, rfl⟩ := advance_some stepped
    have shown : shadowsLegacy site pool.shared job = false := by
      simpa only [markSafe, found, not_eq_true'] using safe
    have held := good.held job (mem_of_getElem? found)
    obtain ⟨-, -, moves⟩ := mark_act_kept good.inv held shown acted
    have inside := (List.getElem?_eq_some_iff.mp found).1
    rcases covered with (kept | ⟨waiting, waits, above⟩) | ⟨other, mem, waiting, owed, above⟩
    · exact Or.inl (Or.inl (moves.kept sender lamport kept))
    · refine Or.inl (Or.inr ⟨waiting, ?_, above⟩)
      have same : store.holds = pool.shared.holds := mark_act_holds acted
      unfold heldMark at waits ⊢
      rw [same]
      exact waits
    · obtain ⟨place, there⟩ := mem_iff_getElem?.mp mem
      by_cases here : place = index
      · subst here
        rw [found] at there
        cases there
        rcases mark_act_owes good.inv held shown acted owed with still | kept
        · exact Or.inr ⟨after, mem_set inside after, waiting, still, above⟩
        · obtain ⟨row, got, opens, higher⟩ := kept
          exact Or.inl (Or.inl ⟨row, got, opens, le_trans above higher⟩)
      · refine Or.inr ⟨other, ?_, waiting, owed, above⟩
        apply mem_iff_getElem?.mpr
        refine ⟨place, ?_⟩
        rw [List.getElem?_set_ne (Ne.symm here)]
        exact there

/-- Every advance whose call has resolved is covered. -/
def ResolvedCovered (site : MarkSite) (pool : Pool RoomMarks MarkJob) : Prop :=
  ∀ sender lamport, .resolved (some (sender, lamport)) ∈ pool.jobs →
    Covered site pool sender lamport

theorem set_resolves {advance : Lamport} {other : Sender}
    (few : ∀ waiting, store.holds.get site.room = some waiting → waiting.size < maxHeldSenders)
    (started : markStart site store (.set other advance) =
      (after, .resolved (some (sender, lamport)))) : Stands site after sender lamport := by
  cases found : store.holds.get site.room with
  | none =>
    simp only [markStart, setWatermark, found, if_true, writeNext, Prod.mk.injEq] at started
    obtain ⟨-, impossible⟩ := started
    cases impossible
  | some waiting =>
    simp only [markStart, setWatermark, found, Prod.mk.injEq] at started
    obtain ⟨rfl, resolved⟩ := started
    cases resolved
    obtain ⟨later, got, above⟩ : ∃ later,
        (waitAdvance waiting sender advance.value).get sender = some later ∧
          advance.value ≤ later := wait_advance_reaches advance (few waiting found)
    exact Or.inr ⟨later, by simpa [heldMark] using got, above⟩

theorem ResolvedCovered.step (good : pool.Good (MarkInv first) (JobHeld first))
    (few : fewHeld site pool turn = true) (safe : markSafe site pool turn = true)
    (covered : ResolvedCovered site pool)
    (stepped : (watermarkCalls site).step pool turn = some next) : ResolvedCovered site next := by
  intro sender lamport mem
  cases turn with
  | start call =>
    have before := stepped
    cases stepped
    rcases mem_append.mp mem with old | new
    · exact (covered sender lamport old).step good safe before
    · have started : markStart site pool.shared call =
          (_, .resolved (some (sender, lamport))) :=
        Prod.ext rfl (mem_singleton.mp new).symm
      cases call with
      | get => cases started
      | commit => cases started
      | release =>
        simp only [markStart, Prod.mk.injEq] at started
        obtain ⟨-, impossible⟩ := started
        cases todo : (releaseWatermarks pool.shared.holds site.room).2 with
        | nil =>
          rw [todo] at impossible
          cases impossible
        | cons entry rest =>
          rw [todo] at impossible
          cases impossible
      | set other advance =>
        left
        apply set_resolves _ started
        intro waiting found
        simpa only [fewHeld, found, decide_eq_true_eq] using few
  | outside event =>
    obtain ⟨shared, -, same⟩ := outside_some stepped
    have old : .resolved (some (sender, lamport)) ∈ pool.jobs := by
      rw [same] at mem
      exact mem
    exact (covered sender lamport old).step good safe stepped
  | advance index =>
    have before := stepped
    obtain ⟨job, store, after, found, acted, rfl⟩ := advance_some stepped
    rcases mem_or_eq_of_mem_set mem with old | new
    · exact (covered sender lamport old).step good safe before
    · subst new
      have shown : shadowsLegacy site pool.shared job = false := by
        simpa only [markSafe, found, not_eq_true'] using safe
      exact Or.inl (Or.inl (mark_act_resolves good.inv
        (good.held job (mem_of_getElem? found)) shown acted))

/-- A read of the sender that will return, or has returned, at least `lamport`. -/
def ReadHeld (store : RoomMarks) (sender : Sender) (lamport : Int) : MarkJob → Prop
  | .reading other sampled => other = sender → lamport ≤ sampled ∨ RowKept store sender lamport
  | .readingLegacy other sampled => other = sender → lamport ≤ sampled
  | .returned other value => other = sender → lamport ≤ value
  | _ => True

/-- The calls that came after the first `count` read at least `lamport`. -/
structure ReadsFrom (count : Nat) (sender : Sender) (lamport : Int)
    (pool : Pool RoomMarks MarkJob) : Prop where
  count_le : count ≤ pool.jobs.length
  reads : ∀ index job, count ≤ index → pool.jobs[index]? = some job →
    ReadHeld pool.shared sender lamport job

theorem ReadHeld.stable (held : ReadHeld store sender lamport job)
    (moves : MarkMoves first site store after) :
    ReadHeld after sender lamport job := by
  cases job with
  | reading other sampled =>
    intro same
    rcases held same with above | kept
    · exact Or.inl above
    · exact Or.inr (moves.kept sender lamport kept)
  | readingLegacy | returned => exact held
  | writing | resolved => trivial

theorem read_held_write_next (store : RoomMarks) (asked : Option (Sender × Int))
    (todo : List (Sender × Int)) : ReadHeld store sender lamport (writeNext asked todo) := by
  cases todo <;> trivial

theorem ReadHeld.act {job later : MarkJob} (held : ReadHeld store sender lamport job)
    (acted : markAct site store job = some (after, later)) :
    ReadHeld after sender lamport later := by
  cases job with
  | reading other sampled =>
    simp only [markAct] at acted
    cases found : store.rows.get other with
    | some row =>
      simp only [found] at acted
      cases acted
      intro same
      subst same
      rcases held rfl with above | ⟨kept, there, -, above⟩
      · exact le_trans above (le_max_right _ _)
      · rw [found] at there
        cases there
        exact le_trans above (le_max_left _ _)
    | none =>
      have sampled_above : other = sender → lamport ≤ sampled := by
        intro same
        subst same
        rcases held rfl with above | ⟨kept, there, -, -⟩
        · exact above
        · rw [found] at there
          cases there
      simp only [found] at acted
      split_ifs at acted
      · cases acted
        exact sampled_above
      · cases acted
        intro same
        exact le_trans (sampled_above same) (le_max_right _ _)
  | readingLegacy other sampled =>
    cases acted
    intro same
    exact le_trans (held same) (le_max_right _ _)
  | returned | resolved => cases acted
  | writing other value phase rest asked =>
    cases result : commitAct store other value phase with
    | mk moved outcome =>
      cases outcome with
      | some phase =>
        simp only [markAct, result] at acted
        cases acted
        trivial
      | none =>
        simp only [markAct, result] at acted
        cases acted
        exact read_held_write_next _ _ _

theorem read_starts {call : MarkCall} {store : RoomMarks}
    (safe : markSafe site pool (.start call) = true) (covered : Covered site pool sender lamport)
    (started : markStart site pool.shared call = (store, job)) :
    ReadHeld store sender lamport job := by
  cases call with
  | commit =>
    cases started
    trivial
  | release =>
    cases started
    exact read_held_write_next _ _ _
  | set =>
    cases started
    split_ifs
    · exact read_held_write_next _ _ _
    · trivial
  | get other =>
    cases started
    intro same
    subst same
    rcases covered with (kept | ⟨waiting, waits, above⟩) | ⟨job, mem, waiting, owed, -⟩
    · exact Or.inr kept
    · left
      rw [waits]
      exact above
    · have clear : ∀ entry ∈ job.owes, entry.1 ≠ other := by
        have all := all_eq_true.mp safe job mem
        intro entry listed
        simpa using all_eq_true.mp all entry listed
      exact absurd rfl (clear (other, waiting) owed)

theorem ReadsFrom.step {count : Nat} (good : pool.Good (MarkInv first) (JobHeld first))
    (safe : markSafe site pool turn = true) (covered : Covered site pool sender lamport)
    (reads : ReadsFrom count sender lamport pool)
    (stepped : (watermarkCalls site).step pool turn = some next) :
    ReadsFrom count sender lamport next := by
  obtain ⟨-, moves⟩ := (watermark_calls_keep first site).step good safe stepped
  cases turn with
  | start call =>
    cases stepped
    refine ⟨by simpa using Nat.le_succ_of_le reads.count_le, ?_⟩
    intro index job beyond found
    rw [List.getElem?_append] at found
    split_ifs at found with inside
    · exact (reads.reads index job beyond found).stable moves
    · have started : markStart site pool.shared call =
          ((markStart site pool.shared call).1, job) := by
        rw [List.getElem?_singleton] at found
        split_ifs at found
        exact Prod.ext rfl (Option.some.inj found)
      exact read_starts safe covered started
  | outside event =>
    obtain ⟨shared, -, rfl⟩ := outside_some stepped
    exact ⟨reads.count_le, fun index job beyond found =>
      (reads.reads index job beyond found).stable moves⟩
  | advance place =>
    obtain ⟨job, store, after, found, acted, rfl⟩ := advance_some stepped
    refine ⟨by simpa using reads.count_le, ?_⟩
    intro index other beyond there
    have inside := (List.getElem?_eq_some_iff.mp found).1
    by_cases here : place = index
    · subst here
      rw [List.getElem?_set_self inside] at there
      cases there
      exact (reads.reads place job beyond found).act acted
    · rw [List.getElem?_set_ne here] at there
      exact (reads.reads index other beyond there).stable moves

end Steps

section Runs

variable {pool final : Pool RoomMarks MarkJob} {turns : List (Turn MarkCall Unit)}

/-- The claim's own bound on held senders, and the two steps it does not survive. -/
def markCondition (site : MarkSite) (pool : Pool RoomMarks MarkJob) (turn : Turn MarkCall Unit) :
    Prop :=
  fewHeld site pool turn = true ∧ markSafe site pool turn = true

theorem resolved_covered_run (good : pool.Good (MarkInv first) (JobHeld first))
    (covered : ResolvedCovered site pool)
    (meets : Meets (watermarkCalls site).step (markCondition site) pool turns)
    (ran : run (watermarkCalls site).step pool turns = some final) :
    final.Good (MarkInv first) (JobHeld first) ∧ ResolvedCovered site final := by
  have keeps : ∀ state turn next,
      state.Good (MarkInv first) (JobHeld first) ∧ ResolvedCovered site state →
      markCondition site state turn → (watermarkCalls site).step state turn = some next →
      next.Good (MarkInv first) (JobHeld first) ∧ ResolvedCovered site next := by
    intro state turn next holds condition stepped
    exact ⟨((watermark_calls_keep first site).step holds.1 condition.2 stepped).1,
      holds.2.step holds.1 condition.1 condition.2 stepped⟩
  exact run_keeps keeps ⟨good, covered⟩ meets ran

theorem reads_from_run {sender : Sender} {lamport : Int} {count : Nat}
    (good : pool.Good (MarkInv first) (JobHeld first)) (covered : Covered site pool sender lamport)
    (reads : ReadsFrom count sender lamport pool)
    (meets : Meets (watermarkCalls site).step (markCondition site) pool turns)
    (ran : run (watermarkCalls site).step pool turns = some final) :
    ReadsFrom count sender lamport final := by
  induction turns generalizing pool with
  | nil =>
    cases ran
    exact reads
  | cons turn rest ih =>
    obtain ⟨next, stepped, later⟩ := run_cons ran
    obtain ⟨-, safe⟩ := meets.1
    exact ih ((watermark_calls_keep first site).step good safe stepped).1
      (covered.step good safe stepped) (reads.step good safe covered stepped)
      (meets.2 next stepped) later

end Runs

end Reads

/-- In every interleaving of the calls on one room in which no read of a sender
starts while a release still owes that sender's advance, and no write hides a
higher row of the plaintext key: a read that starts after an advance resolved
returns at least it, and what a sender has saved is never lowered. -/
theorem watermark_reads_never_go_back {site : MarkSite} {store : RoomMarks}
    (rows : ∀ sender row, store.rows.get sender = some row → row.iv < store.nextIv)
    (known : ∀ sender row, sender ∈ store.known → store.rows.get sender = some row →
      row.readable = true)
    {before after : List (Turn MarkCall Unit)} {middle final : Pool RoomMarks MarkJob}
    (meets : Meets (watermarkCalls site).step (markCondition site) ⟨store, []⟩ (before ++ after))
    (reached : run (watermarkCalls site).step ⟨store, []⟩ before = some middle)
    (ran : run (watermarkCalls site).step middle after = some final) :
    (∀ sender lamport value index, .resolved (some (sender, lamport)) ∈ middle.jobs →
      middle.jobs.length ≤ index → final.jobs[index]? = some (.returned sender value) →
      lamport ≤ value) ∧
    (∀ sender value, savedMark site middle.shared sender = some value →
      ∃ later, savedMark site final.shared sender = some later ∧ value ≤ later) := by
  obtain ⟨early, late⟩ := meets_append.mp meets
  have fresh : Pool.Good (MarkInv store.nextIv) (JobHeld store.nextIv) ⟨store, []⟩ := by
    exact ⟨⟨fun sender row found _ => rows sender row found, known, le_refl _⟩, by simp⟩
  obtain ⟨good, covered⟩ := resolved_covered_run fresh (fun _ _ mem => by cases mem) early
    reached
  refine ⟨?_, ?_⟩
  · intro sender lamport value index resolved beyond found
    have none_yet : ReadsFrom middle.jobs.length sender lamport middle := by
      refine ⟨le_refl _, ?_⟩
      intro place job outside there
      rw [List.getElem?_eq_none outside] at there
      cases there
    have reads := reads_from_run good (covered sender lamport resolved) none_yet
      (late middle reached) ran
    exact reads.reads index _ beyond found rfl
  · have safe : Meets (watermarkCalls site).step (fun pool turn => markSafe site pool turn = true)
        middle after := meets_mono (fun _ _ condition => condition.2) (late middle reached)
    exact ((watermark_calls_keep store.nextIv site).run good safe ran).2.saved

section Schedules

def denMarks : MarkSite := ⟨"den", false⟩

def savedFive : RoomMarks := ⟨.empty, OrderedMap.empty.set "alice" ⟨5, 0, true⟩, .empty, [], 1⟩

def nine : Lamport := ⟨9, by decide, by decide⟩

def heldAndReleased : List (Turn MarkCall Unit) :=
  [.outside (), .start (.set "alice" nine), .start .release]

def releasing : Pool RoomMarks MarkJob :=
  (run (watermarkCalls denMarks).step ⟨savedFive, []⟩ heldAndReleased).getD ⟨savedFive, []⟩

instance (site : MarkSite) (pool : Pool RoomMarks MarkJob) (turn : Turn MarkCall Unit) :
    Decidable (markCondition site pool turn) :=
  inferInstanceAs (Decidable (_ ∧ _))

theorem read_after_write_reaches :
    ∃ final, run (watermarkCalls denMarks).step ⟨savedFive, []⟩ heldAndReleased = some releasing ∧
      run (watermarkCalls denMarks).step releasing
        [.advance 1, .advance 1, .start (.get "alice"), .advance 2] = some final ∧
      final.jobs[2]? = some (.returned "alice" 9) ∧
      ∃ later, savedMark denMarks final.shared "alice" = some later ∧ 5 ≤ later := by
  have reached : run (watermarkCalls denMarks).step ⟨savedFive, []⟩ heldAndReleased =
    some releasing := rfl
  have ran : run (watermarkCalls denMarks).step releasing
    [.advance 1, .advance 1, .start (.get "alice"), .advance 2] = some _ := rfl
  have holds := watermark_reads_never_go_back
    (by
      intro sender row found
      simp only [savedFive, get_set, get_empty] at found
      split_ifs at found
      cases found
      decide)
    (by
      intro sender row known
      simp [savedFive] at known)
    (by decide) reached ran
  exact ⟨_, reached, ran, rfl, holds.2 "alice" 5 rfl⟩

/-- Read while the release has not written yet: the hold is gone and the row is old. -/
theorem read_during_release_goes_back :
    ∃ final, run (watermarkCalls denMarks).step ⟨savedFive, []⟩ heldAndReleased = some releasing ∧
      .resolved (some ("alice", 9)) ∈ releasing.jobs ∧
      run (watermarkCalls denMarks).step releasing [.start (.get "alice"), .advance 2] = some final ∧
      final.jobs[2]? = some (.returned "alice" 5) := by
  refine ⟨_, rfl, ?_, rfl, rfl⟩
  exact mem_cons_self

end Schedules

end AwfulChat.Storage
