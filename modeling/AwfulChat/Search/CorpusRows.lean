import Mathlib.Data.List.Sort
import Mathlib.Data.Prod.Lex
import Mathlib.Data.List.Nodup

/-!
# The rows of one room, as the search corpus reads them

What `storage.ts` answers about a room's message rows: counts over clear fields, a page newest
first, the searchable rows from a lamport up. Lamports are non-negative integers and the
migration is complete, so that one index range holds every row. A row that does not open is
counted like any other and dropped from what is read.
-/

namespace AwfulChat.Search

open List

set_option autoImplicit false

inductive ChatMessageType
  | text | reply | reaction | file | pluginCard | pluginUpdate
  deriving DecidableEq

/-- `SEARCHABLE` of the engine and `SEARCHABLE_TYPES` of the corpus, which agree. -/
def searchable : ChatMessageType → Bool
  | .text => true
  | .reply => true
  | .file => true
  | .pluginCard => true
  | .reaction => false
  | .pluginUpdate => false

structure Message (Id : Type) where
  id : Id
  lamport : Nat
  type : ChatMessageType
  deriving DecidableEq

structure Row (Id : Type) extends Message Id where
  readable : Bool
  deriving DecidableEq

structure SearchEntry (Id : Type) where
  id : Id
  lamport : Nat
  deriving DecidableEq

variable {Id : Type}

def entryFromMessage (msg : Message Id) : Option (SearchEntry Id) :=
  if searchable msg.type then some ⟨msg.id, msg.lamport⟩ else none

/-- A row search has an entry for: it opens, and its type is covered. -/
def Row.accepted (row : Row Id) : Bool := row.readable && searchable row.type

theorem entry_from_message {msg : Message Id} {entry : SearchEntry Id}
    (made : entryFromMessage msg = some entry) :
    searchable msg.type = true ∧ entry.id = msg.id ∧ entry.lamport = msg.lamport := by
  unfold entryFromMessage at made
  split_ifs at made with covered
  cases made
  exact ⟨covered, rfl, rfl⟩

def PAGE_SIZE : Nat := 50

def countBelow (rows : List (Row Id)) (lamport : Nat) : Nat :=
  rows.countP fun row => decide (row.lamport < lamport)

def countRowsBelow (rows : List (Row Id)) (lamport : Nat) : Nat :=
  if lamport = 0 then 0 else countBelow rows lamport

theorem count_rows_below (rows : List (Row Id)) (lamport : Nat) :
    countRowsBelow rows lamport = countBelow rows lamport := by
  unfold countRowsBelow
  split_ifs with zero
  · subst zero
    simp [countBelow]
  · rfl

structure RoomCounts where
  rows : Nat
  below : Nat
  newest : Nat
  deriving DecidableEq

/-- One transaction. -/
def countRoomRows (rows : List (Row Id)) (lamport : Nat) : RoomCounts :=
  ⟨rows.length, countRowsBelow rows lamport, (rows.map fun row => row.lamport).foldr max 0⟩

theorem lamport_le_newest {rows : List (Row Id)} {row : Row Id} (mem : row ∈ rows)
    (lamport : Nat) : row.lamport ≤ (countRoomRows rows lamport).newest := by
  simp only [countRoomRows]
  induction rows with
  | nil => cases mem
  | cons head rest ih =>
    simp only [map_cons, foldr_cons]
    rcases mem_cons.mp mem with same | later
    · rw [same]
      exact Nat.le_max_left _ _
    · exact Nat.le_trans (ih later) (Nat.le_max_right _ _)

/-- `countBelow` of `getSearchableStats`: clear types, readable or not. -/
def getSearchableStats (rows : List (Row Id)) (below : Nat) : Nat :=
  rows.countP fun row => searchable row.type && decide (row.lamport < below)

def openAll (rows : List (Row Id)) : List (Message Id) :=
  (rows.filter fun row => row.readable).map Row.toMessage

theorem mem_openAll {rows : List (Row Id)} {row : Row Id} (mem : row ∈ rows)
    (opens : row.readable = true) : row.toMessage ∈ openAll rows :=
  mem_map_of_mem (mem_filter.mpr ⟨mem, opens⟩)

theorem of_mem_openAll {rows : List (Row Id)} {msg : Message Id} (mem : msg ∈ openAll rows) :
    ∃ row ∈ rows, row.toMessage = msg ∧ row.readable = true := by
  obtain ⟨row, found, same⟩ := mem_map.mp mem
  obtain ⟨inside, opens⟩ := mem_filter.mp found
  exact ⟨row, inside, same, opens⟩

section Ordered

variable [LinearOrder Id]

def place (msg : Message Id) : Nat ×ₗ Id := toLex (msg.lamport, msg.id)

def newestFirst (first second : Row Id) : Prop := place second.toMessage ≤ place first.toMessage

instance : DecidableRel (newestFirst : Row Id → Row Id → Prop) :=
  fun _ _ => inferInstanceAs (Decidable (_ ≤ _))

instance : Std.Total (newestFirst : Row Id → Row Id → Prop) :=
  ⟨fun first second => le_total (place second.toMessage) (place first.toMessage)⟩

instance : IsTrans (Row Id) newestFirst :=
  ⟨fun _ _ _ late early => le_trans early late⟩

def isBefore (before : Option (Message Id)) (row : Row Id) : Bool :=
  match before with
  | none => true
  | some cursor => decide (place row.toMessage < place cursor)

/-- The rows one read walks to: at most a page of them, newest first, plugin updates aside. -/
def pageRows (rows : List (Row Id)) (before : Option (Message Id)) : List (Row Id) :=
  (((rows.filter (isBefore before)).filter fun row =>
    decide (row.type ≠ .pluginUpdate)).insertionSort newestFirst).take PAGE_SIZE

/-- The page oldest first with what opens of it, and whether the read hit the cap. -/
def getMessages (rows : List (Row Id)) (before : Option (Message Id)) :
    List (Message Id) × Bool :=
  let page := pageRows rows before
  (openAll page.reverse, decide (PAGE_SIZE ≤ page.length))

def getSearchableSince (rows : List (Row Id)) (lamport : Nat) (known : List Id) :
    List (Message Id) :=
  openAll (rows.filter fun row =>
    decide (lamport ≤ row.lamport) && searchable row.type && decide (row.id ∉ known))

end Ordered

/-- A room's rows in the database, which keeps one row an id. -/
structure Storage (Id : Type) where
  rows : List (Row Id)
  distinct : (rows.map fun row => row.id).Nodup

namespace Storage

variable [DecidableEq Id]

def put (storage : Storage Id) (row : Row Id) : Storage Id where
  rows := row :: storage.rows.filter fun other => decide (other.id ≠ row.id)
  distinct := by
    rw [map_cons, nodup_cons]
    constructor
    · intro member
      obtain ⟨other, found, same⟩ := mem_map.mp member
      simpa [same] using (mem_filter.mp found).2
    · exact storage.distinct.sublist (filter_sublist.map _)

/-- Whether storing the row leaves what a row held under its id counts as. -/
def Keeps (storage : Storage Id) (row : Row Id) : Prop :=
  ∀ held ∈ storage.rows, held.id = row.id →
    held.lamport = row.lamport ∧ held.accepted = row.accepted

instance (storage : Storage Id) (row : Row Id) : Decidable (storage.Keeps row) :=
  inferInstanceAs (Decidable (∀ held ∈ storage.rows, _ → _))

end Storage

end AwfulChat.Search
