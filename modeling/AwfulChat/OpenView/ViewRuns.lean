import AwfulChat.OpenView.Coverage
import Mathlib.Data.List.Perm.Basic

/-!
# The open conversation's view over whole runs

Where no history is being read for the open room its messages stand in ascending order, and
a stored message at or above the first of them is there or on its way. The conditions name
the steps at which a writer relies on what it read or decided before an await.
-/

namespace AwfulChat.OpenView

open Library List Option
open AwfulChat.MessageOrder

set_option autoImplicit false

variable {content : String → Message}

/-- The stored rows that a task will still bring to the view. -/
def Task.awaits : Task → List Message
  | .row message .showing => [message]
  | .batch _ rows _ .showing => rows
  | .merge _ fresh _ _ => fresh
  | _ => []

def View.awaited (state : View) (row : Message) : Prop :=
  row ∈ state.parked ∨ ∃ task ∈ state.tasks, row ∈ task.awaits

instance (state : View) (row : Message) : Decidable (state.awaited row) :=
  inferInstanceAs (Decidable (_ ∨ _))

def Task.loads (holder : Nat) : Task → Bool
  | .history run _ _ => decide (run = holder)
  | _ => false

/-- The open room's own history is still being read. -/
def View.loading (state : View) : Bool := state.tasks.any (Task.loads state.holder)

/-- The row belongs on screen: nobody shows it yet, and it is not older than the first. -/
def Appends (state : View) (message : Message) : Prop :=
  state.roomCode = some message.room → state.loading = false →
    message ∉ state.messages ∧ Reaches state.messages message

instance (state : View) (message : Message) : Decidable (Appends state message) :=
  inferInstanceAs (Decidable (_ → _ → _ ∧ _))

/-- What came to storage since the read and lies at or above its first row is among the rows
read, shown or on its way. -/
def CaughtUp (state : View) (room : Nat) (known : Store) (page shown : List Message) : Prop :=
  ∀ row ∈ state.store.values, row.room = room → row.type ≠ .pluginUpdate →
    known.get row.id = none → Reaches page row →
      row ∈ page ++ shown ∨ state.awaited row

instance (state : View) (room : Nat) (known : Store) (page shown : List Message) :
    Decidable (CaughtUp state room known page shown) := inferInstanceAs (Decidable (∀ _, _))

/-- Of the rows that only their batch brings, those taken to be above the first row still are,
and the others are still below it. -/
def Stands (messages fresh above newest : List Message) : Prop :=
  ∀ row ∈ fresh, row ∉ newest → row ∉ messages →
    (row ∈ above ↔ messages ≠ [] ∧ Reaches messages row)

instance (messages fresh above newest : List Message) :
    Decidable (Stands messages fresh above newest) :=
  inferInstanceAs (Decidable (∀ row ∈ fresh, _ → _ → (_ ↔ _)))

/-- A bare lamport cannot tell the rows of that lamport apart. -/
def Bound.tells (messages : List Message) : Bound → Prop
  | .lamport value => ∀ first ∈ messages.head?, first.lamport ≠ value
  | .cursor _ => True

instance (messages : List Message) : DecidablePred (Bound.tells messages)
  | .lamport value => inferInstanceAs (Decidable (∀ _, _))
  | .cursor _ => isTrue trivial

/-- What a task relies on as it goes on, the others being as they are. -/
def Ready (state : View) : Task → Prop
  | .row message .showing => Appends state message
  | .echo message => state.roomCode = some message.room → state.loading = false →
      Reaches state.messages message → message ∈ state.messages
  | .history run room (some page) => run = state.holder →
      run = state.run ∧ CaughtUp state room page.known page.rows []
  | .merge room fresh above (some page) => state.roomCode = some room → state.loading = false →
      CaughtUp state room page.known page.rows state.messages ∧
        Stands state.messages fresh above page.rows
  | .more room before _ reach older known (some rows) =>
    state.roomCode = some room → state.loading = false → lastPage reach rows = true →
      cutAbove state.messages before = false →
        CaughtUp state room known (older ++ rows) state.messages ∧ before.tells state.messages
  | _ => True

instance (state : View) : DecidablePred (Ready state)
  | .row message .showing => inferInstanceAs (Decidable (Appends state message))
  | .echo message | .history run room (some page) | .merge room fresh above (some page)
  | .more room before _ reach older known (some rows) => inferInstanceAs (Decidable (_ → _))
  | .row _ .looking | .row _ .storing | .history _ _ none | .merge _ _ _ none
  | .more _ _ _ _ _ _ none | .opening _ _ _ | .batch _ _ _ _ => isTrue trivial

/-- One id stands for one message and a batch has each once; a trim leaves a row; and a task
goes on as it can rely on. -/
def Orderly (content : String → Message) (state : View) : Event → Prop
  | .arrive message _ => Genuine content message
  | .send message echoed => Genuine content message ∧ (echoed = true → Appends state message)
  | .batch _ rows _ => (∀ row ∈ rows, Genuine content row) ∧ rows.Nodup
  | .trim room keepFrom => state.roomCode = some room → state.loading = false →
      state.messages ≠ [] →
        ∃ row ∈ state.messages, 0 ≤ compareMessages (Row.cursor row) keepFrom
  | .go index => ∀ task ∈ state.tasks[index]?, Ready (state.without index) task
  | _ => True

instance (state : View) : DecidablePred (Orderly content state)
  | .arrive message _ => inferInstanceAs (Decidable (Genuine content message))
  | .send message echoed | .batch _ rows _ => inferInstanceAs (Decidable (_ ∧ _))
  | .trim room keepFrom => inferInstanceAs (Decidable (_ → _))
  | .go index => inferInstanceAs (Decidable (∀ _, _))
  | .openRoom _ _ | .flush _ | .loadMore _ _ | .refuse _ => isTrue trivial

def Task.historyOf : Task → Option Nat
  | .history _ room _ => some room
  | _ => none

/-- No history of this room is being read, and no stored row of it is still to be shown. -/
def Quiet (state : View) (room : Nat) : Prop :=
  (∀ row ∈ state.parked, row.room ≠ room) ∧
    ∀ task ∈ state.tasks, task.historyOf ≠ some room ∧ ∀ row ∈ task.awaits, row.room ≠ room

/-- The view of this room is sorted, has no id twice, no other room's row and no gap. -/
structure Complete (state : View) (room : Nat) : Prop where
  ascending : Ascending state.messages
  distinct : (state.messages.map Message.id).Nodup
  own : ∀ row ∈ state.messages, row.room = room
  whole : ∀ row ∈ state.store.values, row.room = room → row.type ≠ .pluginUpdate →
    (∀ first ∈ state.messages.head?,
      0 ≤ compareMessages (Row.cursor row) (Row.cursor first)) → row ∈ state.messages

/-- Every room that is open with nothing on its way has its whole view. -/
def Settled (state : View) : Prop :=
  ∀ room, state.roomCode = some room → Quiet state room → Complete state room

/-- A page that was just loaded, over what storage holds. -/
def View.start (rows : List Message) : View :=
  ⟨0, 0, none, [], OrderedMap.collect (rows.map fun row => (row.id, row)), [], []⟩

def Task.run? : Task → Option Nat
  | .opening run _ _ => some run
  | .history run _ _ => some run
  | _ => none

/-- The later store has what the earlier one had. -/
def Grown (before after : Store) : Prop := ∀ row, Holds before row → Holds after row

structure PageRead (content : String → Message) (store : Store) (room : Nat) (page : Page) :
    Prop where
  rows : page.rows = getMessages page.known room none
  sound : Sound content page.known
  grown : Grown page.known store

/-- What `loadMoreMessages` has read so far: all that storage held below its beginning, down
to its cursor. -/
structure Reading (content : String → Message) (store : Store) (room : Nat) (before cursor : Bound)
    (older : List Message) (known : Store) (page : Option (List Message)) : Prop where
  sound : Sound content known
  grown : Grown known store
  rows : ∀ row ∈ older, Holds store row ∧ row.room = room ∧ cursor.below row = false
  unique : older.Nodup
  covers : ∀ row, Listed known room (some before) row → cursor.below row = false → row ∈ older
  page : ∀ rows ∈ page, ∃ then_, Sound content then_ ∧ Grown known then_ ∧ Grown then_ store ∧
    rows = getMessages then_ room (some cursor)

def TaskInv (content : String → Message) (state : View) : Task → Prop
  | .opening run _ _ => run ≤ state.run
  | .history run room page => run ≤ state.holder ∧
      (run = state.holder → state.roomCode = some room) ∧
      ∀ read ∈ page, PageRead content state.store room read
  | .row message _ => Genuine content message
  | .echo message => Genuine content message
  | .batch room rows _ stage => rows.Nodup ∧ (∀ row ∈ rows, Genuine content row ∧ row.room = room) ∧
      (stage = .showing → ∀ row ∈ rows, Holds state.store row)
  | .merge room fresh above page => fresh.Nodup ∧ above.Sublist fresh ∧
      (∀ row ∈ fresh, Holds state.store row ∧ row.room = room) ∧
      ∀ read ∈ page, PageRead content state.store room read ∧ ∀ row ∈ fresh, Holds read.known row
  | .more room before cursor _ older known page =>
    Reading content state.store room before cursor older known page

structure Inv (content : String → Message) (state : View) : Prop where
  sound : Sound content state.store
  shown : ∀ row ∈ state.messages, Genuine content row ∧ state.roomCode = some row.room
  parked : ∀ row ∈ state.parked, Holds state.store row
  unique : state.parked.Nodup
  tasks : ∀ task ∈ state.tasks, TaskInv content state task
  runs : (state.tasks.filterMap Task.run?).Nodup
  latest : state.holder ≤ state.run
  ascending : state.loading = false → Ascending state.messages
  covers : state.loading = false → ∀ row, Holds state.store row →
    state.roomCode = some row.room → row.type ≠ .pluginUpdate → Reaches state.messages row →
      row ∈ state.messages ∨ state.awaited row

variable {state : View} {room : Nat} {task : Task} {older rows : List Message}
  {before cursor : Bound} {page : Page} {known : Store} {row : Message}

theorem PageRead.later {before after : Store} (read : PageRead content before room page)
    (grown : Grown before after) :
    PageRead content after room page :=
  ⟨read.rows, read.sound, fun row held => grown row (read.grown row held)⟩

theorem Reading.later {before after : Store} {first cursor : Bound} {older : List Message}
    {page : Option (List Message)}
    (reading : Reading content before room first cursor older known page)
    (grown : Grown before after) : Reading content after room first cursor older known page where
  sound := reading.sound
  grown := fun row held => grown row (reading.grown row held)
  rows := fun row mem => (reading.rows row mem).imp_left (grown row)
  unique := reading.unique
  covers := reading.covers
  page := by
    intro rows found
    obtain ⟨then_, sound, first, later, same⟩ := reading.page rows found
    exact ⟨then_, sound, first, fun row held => grown row (later row held), same⟩

theorem TaskInv.later {state next : View} (good : TaskInv content state task)
    (run : next.run = state.run) (holder : next.holder = state.holder)
    (room : next.roomCode = state.roomCode) (grown : Grown state.store next.store) :
    TaskInv content next task := by
  cases task with
  | opening asked other direct =>
    rw [TaskInv, run]
    exact good
  | history asked other page =>
    refine ⟨holder ▸ good.1, ?_, fun read found => (good.2.2 read found).later grown⟩
    rw [holder, room]
    exact good.2.1
  | row message stage | echo message => exact good
  | batch other rows live stage =>
    exact ⟨good.1, good.2.1, fun showing row mem => grown row (good.2.2 showing row mem)⟩
  | merge other fresh above page =>
    refine ⟨good.1, good.2.1, fun row mem => (good.2.2.1 row mem).imp_left (grown row), ?_⟩
    exact fun read found => (good.2.2.2 read found).imp_left fun earlier => earlier.later grown
  | more other before cursor reach older known page => exact Reading.later good grown

theorem Inv.change {state next : View} (inv : Inv content state) (run : next.run = state.run)
    (holder : next.holder = state.holder) (room : next.roomCode = state.roomCode)
    (messages : next.messages = state.messages) (sound : Sound content next.store)
    (parked : ∀ row ∈ next.parked, Holds next.store row) (unique : next.parked.Nodup)
    (tasks : ∀ task ∈ next.tasks, TaskInv content next task)
    (runs : (next.tasks.filterMap Task.run?).Nodup)
    (loads : next.loading = false → state.loading = false)
    (awaits : ∀ row, state.awaited row → row ∉ state.messages →
      state.roomCode = some row.room → Reaches state.messages row → next.awaited row)
    (stored : ∀ row, Holds next.store row → ¬ Holds state.store row → state.loading = false →
      state.roomCode = some row.room → Reaches state.messages row →
        row ∈ state.messages ∨ next.awaited row) : Inv content next where
  sound := sound
  shown := by
    rw [messages, room]
    exact inv.shown
  parked := parked
  unique := unique
  tasks := tasks
  runs := runs
  latest := by
    rw [run, holder]
    exact inv.latest
  ascending := by
    rw [messages]
    exact fun done => inv.ascending (loads done)
  covers := by
    rw [messages, room]
    intro done row held open_ type reached
    by_cases before : Holds state.store row
    · by_cases there : row ∈ state.messages
      · exact Or.inl there
      · have waiting := (inv.covers (loads done) row before open_ type reached).resolve_left there
        exact Or.inr (awaits row waiting there open_ reached)
    · exact stored row held before (loads done) open_ reached

theorem Inv.perm {tasks : List Task} (inv : Inv content state)
    (same : tasks.Perm state.tasks) : Inv content { state with tasks := tasks } := by
  refine @Inv.change content state { state with tasks := tasks } inv rfl rfl rfl rfl inv.sound
    inv.parked inv.unique ?_ ?_ ?_ ?_ ?_
  · intro task mem
    have good := inv.tasks task (same.mem_iff.mp mem)
    exact good.later rfl rfl rfl fun _ => id
  · exact ((same.filterMap Task.run?).nodup_iff).mpr inv.runs
  · intro done
    unfold View.loading at done ⊢
    rw [List.any_eq_false] at done ⊢
    exact fun task mem => done task (same.mem_iff.mpr mem)
  · rintro row (parked | ⟨task, mem, waiting⟩) _ _ _
    · exact Or.inl parked
    · exact Or.inr ⟨task, same.mem_iff.mpr mem, waiting⟩
  · exact fun row held absent => absurd held absent

theorem push_tasks (state : View) (task : Task) : (state.push task).tasks = task :: state.tasks :=
  rfl

theorem push_loading (state : View) (task : Task) :
    (state.push task).loading = (task.loads state.holder || state.loading) := rfl

theorem push_awaited :
    (state.push task).awaited row ↔ row ∈ task.awaits ∨ state.awaited row := by
  unfold View.awaited View.push
  simp only [mem_cons, exists_eq_or_imp]
  tauto

theorem Inv.show (inv : Inv content (state.push task))
    {messages : List Message}
    (shown : ∀ row ∈ messages, Genuine content row ∧ state.roomCode = some row.room)
    (settled : state.loading = false → Ascending messages ∧ ∀ row, Holds state.store row →
      state.roomCode = some row.room → row.type ≠ .pluginUpdate → Reaches messages row →
        row ∈ messages ∨ state.awaited row) :
    Inv content { state with messages := messages } where
  sound := inv.sound
  shown := shown
  parked := inv.parked
  unique := inv.unique
  tasks := by
    intro other mem
    exact (inv.tasks other (mem_cons_of_mem _ mem)).later rfl rfl rfl fun _ => id
  runs := by
    refine List.Sublist.nodup ?_ inv.runs
    exact List.Sublist.filterMap _ (sublist_cons_self _ _)
  latest := inv.latest
  ascending := fun done => (settled done).1
  covers := fun done => (settled done).2

theorem Inv.drop (inv : Inv content (state.push task))
    (quiet : task.loads state.holder = false)
    (brings : state.loading = false → ∀ row ∈ task.awaits, state.roomCode = some row.room →
      row.type ≠ .pluginUpdate → Reaches state.messages row → Holds state.store row →
        row ∈ state.messages ∨ state.awaited row) : Inv content state := by
  refine @Inv.show content state task inv state.messages inv.shown ?_
  intro done
  have still : (state.push task).loading = false := by
    rw [push_loading, quiet, done]
    rfl
  refine ⟨inv.ascending still, ?_⟩
  intro row held open_ type reached
  rcases inv.covers still row held open_ type reached with there | waiting
  · exact Or.inl there
  · rcases push_awaited.mp waiting with own | others
    · exact brings done row own open_ type reached held
    · exact Or.inr others

theorem Inv.drop_silent (inv : Inv content (state.push task))
    (quiet : task.loads state.holder = false) (silent : task.awaits = []) : Inv content state := by
  apply inv.drop quiet
  intro _ row mem
  rw [silent] at mem
  cases mem

theorem Inv.swap {task next : Task} (inv : Inv content (state.push task))
    (good : TaskInv content state next) (run : next.run? = task.run?)
    (loads : next.loads state.holder = task.loads state.holder)
    (brings : ∀ row ∈ task.awaits, row ∉ state.messages → state.roomCode = some row.room →
      row ∈ next.awaits) : Inv content (state.push next) := by
  refine @Inv.change content (state.push task) (state.push next) inv rfl rfl rfl rfl inv.sound
    inv.parked inv.unique ?_ ?_ ?_ ?_ ?_
  · intro other mem
    rcases mem_cons.mp mem with rfl | rest
    · exact good.later rfl rfl rfl fun _ => id
    · exact (inv.tasks other (mem_cons_of_mem _ rest)).later rfl rfl rfl fun _ => id
  · have runs := inv.runs
    rw [push_tasks, filterMap_cons] at runs ⊢
    rw [run]
    exact runs
  · rw [push_loading, push_loading, loads]
    exact id
  · intro row waiting outside open_ _
    rw [push_awaited] at waiting ⊢
    exact waiting.imp_left fun own => brings row own outside open_
  · exact fun row held absent => absurd held absent

theorem Inv.begin (inv : Inv content state) (good : TaskInv content state task)
    (run : task.run? = none) :
    Inv content (state.push task) := by
  refine @Inv.change content state (state.push task) inv rfl rfl rfl rfl inv.sound inv.parked
    inv.unique ?_ ?_ ?_ ?_ ?_
  · intro other mem
    rcases mem_cons.mp mem with rfl | rest
    · exact good.later rfl rfl rfl fun _ => id
    · exact (inv.tasks other rest).later rfl rfl rfl fun _ => id
  · rw [push_tasks, filterMap_cons, run]
    exact inv.runs
  · rw [push_loading]
    exact fun done => (Bool.or_eq_false_iff.mp done).2
  · exact fun row waiting _ _ _ => push_awaited.mpr (Or.inr waiting)
  · exact fun row held absent => absurd held absent

theorem Inv.put {rows : List Message} {tasks : List Task}
    (inv : Inv content (state.push task)) (genuine : ∀ row ∈ rows, Genuine content row)
    (silent : task.awaits = []) (runless : task.run? = none)
    (quiet : task.loads state.holder = false)
    (good : ∀ next ∈ tasks, next.run? = none ∧ TaskInv content
      { state with store := putMessages state.store rows, tasks := tasks ++ state.tasks } next)
    (brings : state.loading = false → ∀ row ∈ rows, state.roomCode = some row.room →
      Reaches state.messages row → row ∈ state.messages ∨ ∃ next ∈ tasks, row ∈ next.awaits) :
    Inv content { state with
      store := putMessages state.store rows, tasks := tasks ++ state.tasks } := by
  obtain ⟨sound, holds⟩ := Sound.put inv.sound genuine
  have grown : Grown state.store (putMessages state.store rows) :=
    fun row held => (holds row).mpr (Or.inl held)
  refine @Inv.change content (state.push task) { state with
      store := putMessages state.store rows, tasks := tasks ++ state.tasks } inv rfl rfl rfl rfl
    sound (fun row mem => grown row (inv.parked row mem)) inv.unique ?_ ?_ ?_ ?_ ?_
  · intro other mem
    rcases mem_append.mp mem with new | rest
    · exact (good other new).2
    · exact (inv.tasks other (mem_cons_of_mem _ rest)).later rfl rfl rfl grown
  · have none_ : tasks.filterMap Task.run? = [] := by
      rw [filterMap_eq_nil_iff]
      exact fun other mem => (good other mem).1
    have runs := inv.runs
    rw [push_tasks, filterMap_cons, runless] at runs
    show ((tasks ++ state.tasks).filterMap Task.run?).Nodup
    rw [filterMap_append, none_]
    exact runs
  · intro done
    have rest : state.loading = false := by
      unfold View.loading at done ⊢
      simp only [any_append, Bool.or_eq_false_iff] at done
      exact done.2
    rw [push_loading, quiet, rest]
    rfl
  · intro row waiting _ _ _
    rcases push_awaited.mp waiting with own | parked | ⟨other, mem, listed⟩
    · rw [silent] at own
      cases own
    · exact Or.inl parked
    · exact Or.inr ⟨other, mem_append_right _ mem, listed⟩
  · intro row held absent done open_ reached
    rw [push_loading, quiet, Bool.false_or] at done
    have new := ((holds row).mp held).resolve_left absent
    rcases brings done row new open_ reached with there | ⟨next, mem, listed⟩
    · exact Or.inl there
    · exact Or.inr (Or.inr ⟨next, mem_append_left _ mem, listed⟩)

theorem Inv.append {message : Message} (inv : Inv content (state.push task))
    (here : Genuine content message) (quiet : task.loads state.holder = false)
    (brings : ∀ row ∈ task.awaits, row = message)
    (ready : Appends state message) : Inv content (state.append message) := by
  unfold View.append
  split
  · rename_i open_
    apply inv.show
    · intro row mem
      rcases mem_append_sorted.mp mem with before | rfl
      · exact inv.shown row before
      · exact ⟨here, open_⟩
    · intro done
      obtain ⟨fresh, reaches⟩ := ready open_ done
      have still : (state.push task).loading = false := by
        rw [push_loading, quiet, done]
        rfl
      have ascending := inv.ascending still
      refine ⟨append_sorted_ascending ascending (fun row mem => (inv.shown row mem).1) here
        fresh, ?_⟩
      intro row held own type reached
      have before : Reaches state.messages row := by
        rcases reached with empty | ⟨first, mem, ahead⟩
        · have present : message ∈ appendSorted state.messages message :=
            mem_append_sorted.mpr (Or.inr rfl)
          rw [empty] at present
          cases present
        · rcases mem_append_sorted.mp mem with there | rfl
          · exact Or.inr ⟨first, there, ahead⟩
          · rcases reaches with none_ | ⟨least, there, below⟩
            · exact Or.inl none_
            · exact Or.inr ⟨least, there, before_trans below ahead⟩
      rw [mem_append_sorted]
      rcases inv.covers still row held own type before with there | waiting
      · exact Or.inl (Or.inl there)
      · rcases push_awaited.mp waiting with mine | others
        · exact Or.inl (Or.inr (brings row mine))
        · exact Or.inr others
  · rename_i closed
    apply inv.drop quiet
    intro _ row mine open_ _ _ _
    rw [brings row mine] at open_
    exact absurd open_ closed

theorem Inv.merge {rows : List Message} {live : Bool}
    (inv : Inv content (state.push (.batch room rows live .showing))) :
    Inv content (state.mergeSyncedIntoView room rows) := by
  obtain ⟨unique, genuine, stored⟩ := inv.tasks _ mem_cons_self
  have held := stored rfl
  unfold View.mergeSyncedIntoView
  split
  · rename_i closed
    apply inv.drop rfl
    intro _ row mine open_ _ _ _
    rw [(genuine row mine).2] at open_
    exact absurd open_ closed
  · rename_i opened
    have open_ : state.roomCode = some room := not_not.mp opened
    have listed : ∀ row ∈ rows, inRows state.messages row.id = true ↔ row ∈ state.messages :=
      fun row mem => in_rows_genuine (fun row mem => (inv.shown row mem).1)
        (genuine row mem).1
    have members : ∀ row, row ∈ rows.filter (fun row => !inRows state.messages row.id) ↔
        row ∈ rows ∧ row ∉ state.messages := by
      intro row
      rw [mem_filter, and_congr_right_iff]
      intro mem
      rw [Bool.not_eq_true', ← listed row mem, Bool.not_eq_true]
    simp only
    split
    · rename_i empty
      apply inv.drop rfl
      intro _ row mine _ _ _ _
      refine Or.inl ?_
      by_contra outside
      have present := (members row).mpr ⟨mine, outside⟩
      rw [empty] at present
      cases present
    · split
      · rename_i all
        have whole := (above_floor_sublist state.messages
          (rows.filter fun row => !inRows state.messages row.id)).eq_of_length all.2
        apply inv.show
        · intro row mem
          rcases mem_append.mp (mem_sort_rows.mp mem) with before | new
          · exact inv.shown row before
          · obtain ⟨mine, -⟩ := (members row).mp new
            exact ⟨(genuine row mine).1, by rw [(genuine row mine).2, open_]⟩
        · intro done
          have still : (state.push (.batch room rows live .showing)).loading = false := by
            rw [push_loading, done]
            rfl
          have ascending : Ascending state.messages := inv.ascending still
          constructor
          · apply @ascending_sort content
            · intro row mem
              rcases mem_append.mp mem with before | new
              · exact (inv.shown row before).1
              · exact (genuine row ((members row).mp new).1).1
            · rw [nodup_append]
              refine ⟨ascending.nodup, unique.filter _, ?_⟩
              rintro row before other new rfl
              exact ((members row).mp new).2 before
          · intro row stored_ own type reached
            have before : Reaches state.messages row := by
              rcases reached with empty | ⟨first, mem, ahead⟩
              · have short := congrArg List.length empty
                rw [(sort_rows_perm _).length_eq, length_append, length_nil] at short
                exact absurd (eq_nil_of_length_eq_zero (by omega)) all.1
              · rcases mem_append.mp (mem_sort_rows.mp mem) with there | new
                · exact Or.inr ⟨first, there, ahead⟩
                · rw [← whole] at new
                  obtain ⟨-, some_, above⟩ := (mem_above_floor ascending).mp new
                  obtain ⟨least, there, below⟩ := above.resolve_left some_
                  exact Or.inr ⟨least, there, before_trans below ahead⟩
            rw [mem_sort_rows, mem_append, members]
            rcases inv.covers still row stored_ own type before with there | waiting
            · exact Or.inl (Or.inl there)
            · rcases push_awaited.mp waiting with mine | others
              · by_cases there : row ∈ state.messages
                · exact Or.inl (Or.inl there)
                · exact Or.inl (Or.inr ⟨mine, there⟩)
              · exact Or.inr others
      · have good : TaskInv content state (.merge room
            (rows.filter fun row => !inRows state.messages row.id)
            (aboveFloor state.messages (rows.filter fun row => !inRows state.messages row.id))
            none) := by
          refine ⟨unique.filter _, above_floor_sublist _ _, ?_, nofun⟩
          intro row new
          have mine := ((members row).mp new).1
          exact ⟨held row mine, (genuine row mine).2⟩
        exact inv.swap good rfl rfl fun row mine outside _ => (members row).mpr ⟨mine, outside⟩

theorem Inv.hand_over (inv : Inv content state) (room : Nat) :
    Inv content (View.push { state with
      parked := state.parked.filter fun row => decide (row.room ≠ room) }
        (.batch room (state.parked.filter fun row => decide (row.room = room)) true .showing)) := by
  refine @Inv.change content state _ inv rfl rfl rfl rfl inv.sound ?_ (inv.unique.filter _) ?_ ?_
    ?_ ?_ ?_
  · exact fun row mem => inv.parked row (mem_filter.mp mem).1
  · intro task mem
    rcases mem_cons.mp mem with rfl | rest
    · refine ⟨inv.unique.filter _, ?_, ?_⟩
      · intro row listed
        obtain ⟨there, same⟩ := mem_filter.mp listed
        exact ⟨inv.sound.genuine (inv.parked row there), of_decide_eq_true same⟩
      · exact fun _ row listed => inv.parked row (mem_filter.mp listed).1
    · exact (inv.tasks task rest).later rfl rfl rfl fun _ => id
  · exact inv.runs
  · exact id
  · rintro row (parked | ⟨task, mem, listed⟩) _ _ _
    · by_cases same : row.room = room
      · refine Or.inr ⟨_, mem_cons_self, ?_⟩
        exact mem_filter.mpr ⟨parked, decide_eq_true same⟩
      · exact Or.inl (mem_filter.mpr ⟨parked, decide_eq_true same⟩)
    · exact Or.inr ⟨task, mem_cons_of_mem _ mem, listed⟩
  · exact fun row held absent => absurd held absent

theorem Inv.park {rows : List Message} {live : Bool}
    (inv : Inv content (state.push (.batch room rows live .showing))) :
    Inv content { state with parked := park state.parked rows } := by
  obtain ⟨unique, genuine, stored⟩ := inv.tasks _ mem_cons_self
  obtain ⟨distinct, members⟩ := park_mem
    (fun row mem => inv.sound.genuine (inv.parked row mem))
    (fun row mem => (genuine row mem).1) inv.unique
  refine @Inv.change content (state.push (.batch room rows live .showing)) _ inv rfl rfl rfl rfl
    inv.sound ?_ distinct ?_ ?_ ?_ ?_ ?_
  · intro row mem
    rcases (members row).mp mem with before | new
    · exact inv.parked row before
    · exact stored rfl row new
  · intro task mem
    exact (inv.tasks task (mem_cons_of_mem _ mem)).later rfl rfl rfl fun _ => id
  · exact inv.runs
  · exact id
  · intro row waiting _ _ _
    rcases push_awaited.mp waiting with mine | parked | others
    · exact Or.inl ((members row).mpr (Or.inr mine))
    · exact Or.inl ((members row).mpr (Or.inl parked))
    · exact Or.inr others
  · exact fun row held absent => absurd held absent

theorem PageRead.covers {shown : List Message} (read : PageRead content state.store room page)
    (caughtUp : CaughtUp state room page.known page.rows shown) (sound : Sound content state.store)
    (held : Holds state.store row) (own : row.room = room) (type : row.type ≠ .pluginUpdate)
    (reached : Reaches page.rows row) :
    row ∈ page.rows ++ shown ∨ state.awaited row := by
  cases known : page.known.get row.id with
  | none => exact caughtUp row (sound.mem_values.mpr held) own type known reached
  | some other =>
    have before : Holds page.known row := by
      obtain ⟨ids, there⟩ := read.sound row.id other known
      rw [there.same (sound.genuine held) ids] at known
      exact known
    refine Or.inl (mem_append_left _ ?_)
    rw [read.rows] at reached ⊢
    exact get_messages_covers read.sound ⟨before, own, type, nofun⟩ reached

theorem PageRead.listed {store : Store} (read : PageRead content store room page)
    (mem : row ∈ page.rows) :
    Holds store row ∧ row.room = room := by
  rw [read.rows] at mem
  have listed := get_messages_listed read.sound mem
  exact ⟨read.grown row listed.held, listed.room⟩

theorem PageRead.nodup {store : Store}
    (read : PageRead content store room page) : page.rows.Nodup := by
  rw [read.rows]
  exact get_messages_nodup read.sound room none

theorem Inv.history {run room : Nat}
    (inv : Inv content (state.push (.history run room (some page))))
    (ready : Ready state (.history run room (some page))) :
    Inv content (resume state (.history run room (some page))) := by
  obtain ⟨least, holds, reads⟩ := inv.tasks _ mem_cons_self
  have latest : state.holder ≤ state.run := inv.latest
  have read : PageRead content state.store room page := reads page rfl
  simp only [resume]
  split
  · rename_i current
    have same : run = state.holder := le_antisymm least (latest.trans_eq current.symm)
    have open_ : state.roomCode = some room := holds same
    apply inv.show
    · intro row mem
      obtain ⟨held, own⟩ := read.listed (mem_sort_rows.mp mem)
      exact ⟨inv.sound.genuine held, by rw [own, open_]⟩
    · intro done
      constructor
      · exact ascending_sort
          (fun row mem => inv.sound.genuine (read.listed mem).1) read.nodup
      · intro row held own type reached
        rw [open_, Option.some.injEq] at own
        rw [reaches_congr fun _ => mem_sort_rows] at reached
        rw [mem_sort_rows]
        have covered := read.covers (ready same).2 inv.sound held own.symm type reached
        rwa [append_nil] at covered
  · rename_i superseded
    apply inv.drop_silent _ rfl
    apply decide_eq_false
    exact fun same => superseded (ready same).1

theorem Inv.refill {fresh above : List Message}
    (inv : Inv content (state.push (.merge room fresh above (some page))))
    (ready : Ready state (.merge room fresh above (some page))) :
    Inv content (resume state (.merge room fresh above (some page))) := by
  obtain ⟨unique, part, held, reads⟩ := inv.tasks _ mem_cons_self
  obtain ⟨read, known⟩ := reads page rfl
  have still : (state.push (.merge room fresh above (some page))).loading = state.loading := rfl
  simp only [resume]
  split
  · rename_i closed
    apply inv.drop rfl
    intro _ row mine open_ _ _ _
    rw [(held row mine).2] at open_
    exact absurd open_ closed
  · rename_i opened
    have open_ : state.roomCode = some room := not_not.mp opened
    have shown : ∀ row ∈ state.messages, Genuine content row ∧ row.room = room := by
      intro row mem
      obtain ⟨genuine, own⟩ := inv.shown row mem
      have rooms : some room = some row.room := open_.symm.trans own
      exact ⟨genuine, (Option.some.inj rooms).symm⟩
    have genuinePage : ∀ row ∈ page.rows, Genuine content row :=
      fun row mem => inv.sound.genuine (read.listed mem).1
    have genuineAbove : ∀ row ∈ above, Genuine content row :=
      fun row mem => inv.sound.genuine (held row (part.subset mem)).1
    have members := fun {row} => @mem_refill content state.messages above page.rows room shown
      genuinePage genuineAbove row
    apply inv.show
    · intro row mem
      rcases members.mp mem with before | listed | extra
      · exact inv.shown row before
      · exact ⟨genuinePage row listed, by rw [(read.listed listed).2, open_]⟩
      · exact ⟨genuineAbove row extra, by rw [(held row (part.subset extra)).2, open_]⟩
    · intro done
      obtain ⟨caughtUp, stands⟩ := ready open_ done
      have ascending : Ascending state.messages := inv.ascending (still.trans done)
      refine ⟨refill_ascending shown genuinePage genuineAbove ascending.nodup read.nodup
        (part.nodup unique), ?_⟩
      intro row stored own type reached
      have here : row.room = room := by
        rw [open_] at own
        exact (Option.some.inj own).symm
      by_cases listed : row ∈ page.rows
      · exact Or.inl (members.mpr (Or.inr (Or.inl listed)))
      by_cases there : row ∈ state.messages
      · exact Or.inl (members.mpr (Or.inl there))
      -- every row of the refill is at or above the page's first or the view's first
      have bottom : Reaches page.rows row ∨ (state.messages ≠ [] ∧ Reaches state.messages row) := by
        rcases reached with empty | ⟨first, mem, ahead⟩
        · refine Or.inl (Or.inl ?_)
          rw [eq_nil_iff_forall_not_mem]
          intro other found
          have present := members.mpr (Or.inr (Or.inl found))
          rw [empty] at present
          cases present
        · rcases members.mp mem with before | found | extra
          · exact Or.inr ⟨ne_nil_of_mem before, Or.inr ⟨first, before, ahead⟩⟩
          · exact Or.inl (Or.inr ⟨first, found, ahead⟩)
          · by_cases found : first ∈ page.rows
            · exact Or.inl (Or.inr ⟨first, found, ahead⟩)
            by_cases before : first ∈ state.messages
            · exact Or.inr ⟨ne_nil_of_mem before, Or.inr ⟨first, before, ahead⟩⟩
            obtain ⟨some_, floor⟩ :=
              (stands first (part.subset extra) found before).mp extra
            obtain ⟨least, low, below⟩ := floor.resolve_left some_
            exact Or.inr ⟨some_, Or.inr ⟨least, low, before_trans below ahead⟩⟩
      rcases bottom with onPage | ⟨some_, onView⟩
      · have covered := @PageRead.covers content state room page _ state.messages read caughtUp
          inv.sound stored here type onPage
        rcases covered with found | waiting
        · rcases mem_append.mp found with inPage | inView
          · exact absurd inPage listed
          · exact absurd inView there
        · exact Or.inr waiting
      · rcases inv.covers (still.trans done) row stored own type onView with inView | waiting
        · exact absurd inView there
        · rcases push_awaited.mp waiting with mine | others
          · have extra := (stands row mine listed there).mpr ⟨some_, onView⟩
            exact Or.inl (members.mpr (Or.inr (Or.inr extra)))
          · exact Or.inr others

theorem cut_above_iff {messages : List Message} {before : Bound} :
    cutAbove messages before = false ↔ ∀ first ∈ messages.head?, match before with
      | .lamport value => first.lamport ≤ value
      | .cursor value => Before (Row.cursor first) value := by
  unfold cutAbove
  cases messages.head? with
  | none => simp
  | some first =>
    cases before with
    | lamport value => simp
    | cursor value => simp [Before]

theorem reaches_of_not_below {messages : List Message} {before : Bound}
    (ascending : Ascending messages) (open_ : cutAbove messages before = false)
    (tells : before.tells messages) (past : before.below row = false) : Reaches messages row := by
  rw [ascending.reaches]
  intro first found
  have floor := cut_above_iff.mp open_ first found
  cases before with
  | lamport value =>
    have apart : first.lamport ≠ value := tells first found
    simp only [Bound.below, decide_eq_false_iff_not, not_lt] at past floor
    rw [rowBefore, before_iff]
    left
    show (first.lamport : Int) < row.lamport
    omega
  | cursor value =>
    simp only [Bound.below, decide_eq_false_iff_not, compare_neg_iff, not_not] at past floor
    exact before_trans floor past

theorem get_messages_sorted (store : Store) (room : Nat) (before : Option Bound) :
    (getMessages store room before).Pairwise rowBefore :=
  (sort_rows_pairwise _).sublist (drop_sublist _ _)

theorem below_cursor_iff {first row : Message} :
    (Bound.cursor (Row.cursor first)).below row = false ↔ rowBefore first row := by
  simp only [Bound.below, decide_eq_false_iff_not, compare_neg_iff, not_not]
  rfl

theorem Reading.with_page {store : Store}
    (reading : Reading content store room before cursor older known (some rows)) :
    (∀ row ∈ older ++ rows, Holds store row ∧ row.room = room) ∧ (older ++ rows).Nodup ∧
      ∀ row, Listed known room (some before) row → older ++ rows ≠ [] →
        Reaches (older ++ rows) row → row ∈ older ++ rows := by
  obtain ⟨then_, sound, first, later, rfl⟩ := reading.page rows rfl
  have listed : ∀ {row}, row ∈ getMessages then_ room (some cursor) →
      Listed then_ room (some cursor) row := fun mem => get_messages_listed sound mem
  refine ⟨?_, ?_, ?_⟩
  · intro row mem
    rcases mem_append.mp mem with before_ | new
    · exact ⟨(reading.rows row before_).1, (reading.rows row before_).2.1⟩
    · exact ⟨later row (listed new).held, (listed new).room⟩
  · rw [nodup_append]
    refine ⟨reading.unique, get_messages_nodup sound room _, ?_⟩
    rintro row before_ other new rfl
    have below := (listed new).below cursor rfl
    rw [(reading.rows row before_).2.2] at below
    cases below
  · intro row here some_ reached
    cases past : cursor.below row with
    | false => exact mem_append_left _ (reading.covers row here past)
    | true =>
      have inRange : Listed then_ room (some cursor) row :=
        ⟨first row here.held, here.room, here.type, fun bound same => by cases same; exact past⟩
      obtain ⟨least, mem, ahead⟩ := reached.resolve_left some_
      rcases mem_append.mp mem with before_ | new
      · have below := Bound.below_of_before ahead past
        rw [(reading.rows least before_).2.2] at below
        cases below
      · exact mem_append_right _
          (get_messages_covers sound inRange (Or.inr ⟨least, new, ahead⟩))

theorem Reading.next {store : Store} {first : Message}
    (reading : Reading content store room before cursor older known (some rows))
    (head : rows.head? = some first) :
    Reading content store room before (.cursor (Row.cursor first)) (older ++ rows) known none := by
  obtain ⟨held, unique, covers⟩ := reading.with_page
  obtain ⟨then_, sound, grown, later, same⟩ := reading.page rows rfl
  obtain ⟨rest, shape⟩ := List.head?_eq_some_iff.mp head
  have present : first ∈ rows := by
    rw [shape]
    exact mem_cons_self
  have low : ∀ row ∈ older ++ rows, rowBefore first row := by
    intro row mem
    rcases mem_append.mp mem with before_ | new
    · have past := (reading.rows row before_).2.2
      refine (before_total (Row.cursor first) (Row.cursor row)).resolve_right ?_
      intro back
      rw [same] at present
      have below := (get_messages_listed sound present).below cursor rfl
      rw [Bound.below_of_before back below] at past
      cases past
    · have sorted := get_messages_sorted then_ room (some cursor)
      rw [← same, shape] at sorted
      rw [shape] at new
      rcases mem_cons.mp new with rfl | further
      · exact row_before_refl row
      · exact (pairwise_cons.mp sorted).1 row further
  refine ⟨reading.sound, reading.grown, ?_, unique, ?_, nofun⟩
  · intro row mem
    exact ⟨(held row mem).1, (held row mem).2, below_cursor_iff.mpr (low row mem)⟩
  · intro row here past
    have some_ : older ++ rows ≠ [] := ne_nil_of_mem (mem_append_right _ present)
    exact covers row here some_
      (Or.inr ⟨first, mem_append_right _ present, below_cursor_iff.mp past⟩)

theorem mem_prepend {messages older : List Message} {before : Bound}
    (shown : ∀ row ∈ messages, Genuine content row) (rest : ∀ row ∈ older, Genuine content row)
    (open_ : cutAbove messages before = false) :
    row ∈ prepend messages older before ↔ row ∈ messages ∨ row ∈ older := by
  unfold prepend
  split
  · rename_i done
    have empty : older = [] := done.resolve_right (by rw [open_]; decide)
    simp [empty]
  · rw [mem_sort_rows, mem_append, mem_filter]
    constructor
    · rintro (⟨new, -⟩ | there)
      · exact Or.inr new
      · exact Or.inl there
    · rintro (there | new)
      · exact Or.inr there
      · by_cases there : row ∈ messages
        · exact Or.inr there
        · refine Or.inl ⟨new, ?_⟩
          rw [Bool.not_eq_true', ← Bool.not_eq_true, in_rows_genuine shown (rest row new)]
          exact there

theorem prepend_ascending {messages older : List Message} {before : Bound}
    (shown : ∀ row ∈ messages, Genuine content row) (rest : ∀ row ∈ older, Genuine content row)
    (ascending : Ascending messages) (unique : older.Nodup) :
    Ascending (prepend messages older before) := by
  unfold prepend
  split
  · exact ascending
  · apply @ascending_sort content
    · intro row mem
      rcases mem_append.mp mem with new | there
      · exact rest row (mem_filter.mp new).1
      · exact shown row there
    · rw [nodup_append]
      refine ⟨unique.filter _, ascending.nodup, ?_⟩
      rintro row new other there rfl
      obtain ⟨mine, outside⟩ := mem_filter.mp new
      rw [(in_rows_genuine shown (rest row mine)).mpr there] at outside
      cases outside

theorem Inv.prepend
    {reach : Option (MessageCursor × Nat)}
    (inv : Inv content (state.push (.more room before cursor reach older known (some rows))))
    (opened : state.roomCode = some room)
    (ready : state.loading = false → cutAbove state.messages before = false →
      CaughtUp state room known (older ++ rows) state.messages ∧ before.tells state.messages) :
    Inv content { state with messages := prepend state.messages (older ++ rows) before } := by
  have reading : Reading content state.store room before cursor older known (some rows) :=
    inv.tasks _ mem_cons_self
  obtain ⟨held, unique, covers⟩ := reading.with_page
  have genuine : ∀ row ∈ state.messages, Genuine content row := fun row mem =>
    (inv.shown row mem).1
  have rest : ∀ row ∈ older ++ rows, Genuine content row := fun row mem =>
    inv.sound.genuine (held row mem).1
  cases cut : cutAbove state.messages before with
  | true =>
    have same : OpenView.prepend state.messages (older ++ rows) before = state.messages := by
      rw [OpenView.prepend, if_pos (Or.inr cut)]
    rw [same]
    exact inv.drop_silent rfl rfl
  | false =>
    apply inv.show
    · intro row mem
      rcases (mem_prepend genuine rest cut).mp mem with there | new
      · exact inv.shown row there
      · exact ⟨rest row new, by rw [(held row new).2, opened]⟩
    · intro done
      obtain ⟨caughtUp, tells⟩ := ready done cut
      have ascending : Ascending state.messages := inv.ascending done
      refine ⟨prepend_ascending genuine rest ascending unique, ?_⟩
      intro row stored own type reached
      have here : row.room = room := by
        rw [opened] at own
        exact (Option.some.inj own).symm
      have onView : Reaches state.messages row → row ∈
          OpenView.prepend state.messages (older ++ rows) before ∨ state.awaited row := by
        intro onView
        rw [mem_prepend genuine rest cut]
        rcases inv.covers done row stored own type onView with there | waiting
        · exact Or.inl (Or.inl there)
        · exact Or.inr ((push_awaited.mp waiting).resolve_left not_mem_nil)
      by_cases empty : older ++ rows = []
      · have same : OpenView.prepend state.messages (older ++ rows) before = state.messages := by
          rw [OpenView.prepend, if_pos (Or.inl empty)]
        rw [same] at reached
        exact onView reached
      have bottom : Reaches (older ++ rows) row ∨ Reaches state.messages row := by
        obtain ⟨first, mem, ahead⟩ := reached.resolve_left (by
          obtain ⟨new, listed⟩ := exists_mem_of_ne_nil _ empty
          exact ne_nil_of_mem ((mem_prepend genuine rest cut).mpr (Or.inr listed)))
        rcases (mem_prepend genuine rest cut).mp mem with there | new
        · exact Or.inr (Or.inr ⟨first, there, ahead⟩)
        · exact Or.inl (Or.inr ⟨first, new, ahead⟩)
      rcases bottom with onPages | there
      · cases past : before.below row with
        | false => exact onView (reaches_of_not_below ascending cut tells past)
        | true =>
          rw [mem_prepend genuine rest cut]
          cases before_ : known.get row.id with
          | none =>
            rcases caughtUp row (inv.sound.mem_values.mpr stored) here type before_ onPages
              with found | waiting
            · exact Or.inl (mem_append.mp found).symm
            · exact Or.inr waiting
          | some other =>
            obtain ⟨ids, there⟩ := reading.sound row.id other before_
            rw [there.same (inv.sound.genuine stored) ids] at before_
            have listed : Listed known room (some before) row :=
              ⟨before_, here, type, fun bound same => by cases same; exact past⟩
            exact Or.inl (Or.inr (covers row listed empty onPages))
      · exact onView there

theorem Inv.claim {run room : Nat} {direct : Bool}
    (inv : Inv content (state.push (.opening run room direct))) :
    Inv content (resume state (.opening run room direct)) := by
  simp only [resume]
  split
  · exact inv.drop_silent rfl rfl
  · rename_i current
    have latest : state.holder ≤ state.run := inv.latest
    have same : run = state.run := not_not.mp current
    have runs := inv.runs
    rw [push_tasks, filterMap_cons] at runs
    obtain ⟨alone, _⟩ := nodup_cons.mp (show (run :: state.tasks.filterMap Task.run?).Nodup
      from runs)
    refine ⟨inv.sound, nofun, ?_, ?_, ?_, runs, le_of_eq same, ?_, ?_⟩
    · intro row mem
      simp only at mem
      split at mem
      · exact inv.parked row mem
      · exact inv.parked row (mem_filter.mp mem).1
    · simp only
      split
      · exact inv.unique
      · exact inv.unique.filter _
    · intro task mem
      rcases mem_cons.mp mem with rfl | rest
      · exact ⟨le_refl _, fun _ => rfl, nofun⟩
      · have good := inv.tasks task (mem_cons_of_mem _ rest)
        cases task with
        | history asked other page =>
          have before : asked ≤ state.holder := good.1
          refine ⟨(before.trans latest).trans_eq same.symm, ?_, good.2.2⟩
          rintro rfl
          have listed : asked ∈ state.tasks.filterMap Task.run? :=
            mem_filterMap.mpr ⟨_, rest, rfl⟩
          exact absurd listed alone
        | opening asked other direct | row message stage | echo message
        | batch other rows live stage | merge other fresh above page
        | more other before cursor reach older known page => exact good
    · intro done
      have busy : Task.loads run (.history run room none) = true := decide_eq_true rfl
      simp [View.loading, busy] at done
    · intro done
      have busy : Task.loads run (.history run room none) = true := decide_eq_true rfl
      simp [View.loading, busy] at done

theorem Inv.trim {keepFrom : MessageCursor} (inv : Inv content state)
    (opened : state.roomCode = some room)
    (leaves : state.roomCode = some room → state.loading = false → state.messages ≠ [] →
      ∃ row ∈ state.messages, 0 ≤ compareMessages (Row.cursor row) keepFrom) :
    Inv content { state with
      messages := state.messages.filter fun row =>
        decide (0 ≤ compareMessages (Row.cursor row) keepFrom) } where
  sound := inv.sound
  shown := fun row mem => inv.shown row (mem_filter.mp mem).1
  parked := inv.parked
  unique := inv.unique
  tasks := fun task mem => (inv.tasks task mem).later rfl rfl rfl fun _ => id
  runs := inv.runs
  latest := inv.latest
  ascending := fun done => List.Pairwise.filter _ (inv.ascending done)
  covers := by
    intro done row stored own type reached
    by_cases empty : state.messages = []
    · refine (inv.covers done row stored own type (Or.inl empty)).imp_left ?_
      intro there
      rw [empty] at there
      cases there
    · obtain ⟨kept, there, past⟩ := leaves opened done empty
      have remains : kept ∈ state.messages.filter fun row =>
          decide (0 ≤ compareMessages (Row.cursor row) keepFrom) :=
        mem_filter.mpr ⟨there, decide_eq_true past⟩
      have some_ := ne_nil_of_mem remains
      obtain ⟨first, mem, ahead⟩ := reached.resolve_left some_
      obtain ⟨before, high⟩ := mem_filter.mp mem
      have low := (compare_nonneg_iff _ _).mp (of_decide_eq_true high)
      refine (inv.covers done row stored own type (Or.inr ⟨first, before, ahead⟩)).imp_left ?_
      intro there
      refine mem_filter.mpr ⟨there, decide_eq_true ?_⟩
      exact (compare_nonneg_iff _ _).mpr (before_trans low ahead)

theorem Inv.more {reach : Option (MessageCursor × Nat)}
    (inv : Inv content (state.push (.more room before cursor reach older known (some rows))))
    (ready : Ready state (.more room before cursor reach older known (some rows))) :
    Inv content (resume state (.more room before cursor reach older known (some rows))) := by
  have reading : Reading content state.store room before cursor older known (some rows) :=
    inv.tasks _ mem_cons_self
  simp only [resume]
  split
  · exact inv.drop_silent rfl rfl
  · rename_i opened
    have open_ : state.roomCode = some room := not_not.mp opened
    split
    · rename_i first _ head
      have good : TaskInv content state (.more room before (.cursor (Row.cursor first))
          (reach.map fun aim => (aim.1, aim.2 - 1)) (older ++ rows) known none) :=
        reading.next head
      exact inv.swap good rfl rfl nofun
    · rename_i ends
      apply inv.prepend open_
      intro done cut
      refine ready open_ done ?_ cut
      cases last : lastPage reach rows with
      | true => rfl
      | false =>
        exfalso
        unfold lastPage at last
        cases head : rows.head? with
        | none => simp [head] at last
        | some first => exact ends first last head

/-- Every task keeps the invariant as it goes on. -/
theorem Inv.resume (inv : Inv content (state.push task))
    (ready : Ready state task) : Inv content (resume state task) := by
  have good := inv.tasks task mem_cons_self
  cases task with
  | opening run room direct => exact inv.claim
  | history run room page =>
    cases page with
    | none =>
      have read : TaskInv content state (.history run room
          (some ⟨getMessages state.store room none, state.store⟩)) := by
        refine ⟨good.1, good.2.1, ?_⟩
        rintro page ⟨⟩
        exact ⟨rfl, inv.sound, fun _ => id⟩
      exact inv.swap read rfl rfl nofun
    | some page => exact inv.history ready
  | row message stage =>
    have here : Genuine content message := good
    cases stage with
    | looking =>
      simp only [OpenView.resume]
      split
      · exact inv.drop_silent rfl rfl
      · have next : TaskInv content state (.row message .storing) := here
        exact inv.swap next rfl rfl nofun
    | storing =>
      refine @Inv.put content state (.row message .storing) [message]
        [.row message .showing] inv ?_ rfl rfl rfl ?_ ?_
      · exact fun row mem => mem_singleton.mp mem ▸ here
      · intro next mem
        rw [mem_singleton.mp mem]
        exact ⟨rfl, here⟩
      · exact fun _ row mem _ _ => Or.inr ⟨_, mem_cons_self, mem⟩
    | showing =>
      exact inv.append here rfl (fun row mem => mem_singleton.mp mem) ready
  | echo message =>
    have here : Genuine content message := good
    refine @Inv.put content state (.echo message) [message] [] inv ?_ rfl rfl rfl nofun ?_
    · exact fun row mem => mem_singleton.mp mem ▸ here
    · intro done row mem own reached
      rw [mem_singleton.mp mem] at own reached ⊢
      exact Or.inl (ready own done reached)
  | batch room rows live stage =>
    obtain ⟨unique, genuine, stored⟩ := good
    cases stage with
    | looking =>
      simp only [OpenView.resume]
      split
      · exact inv.drop_silent rfl rfl
      · have next : TaskInv content state (.batch room
            (rows.filter fun row => !state.store.has row.id) live .storing) :=
          ⟨unique.filter _, fun row mem => genuine row (mem_filter.mp mem).1, nofun⟩
        exact inv.swap next rfl rfl nofun
    | storing =>
      have fresh : ∀ row ∈ rows, Genuine content row := fun row mem => (genuine row mem).1
      refine @Inv.put content state (.batch room rows live .storing) rows
        [.batch room rows live .showing] inv fresh rfl rfl rfl ?_ ?_
      · intro next mem
        rw [mem_singleton.mp mem]
        refine ⟨rfl, unique, genuine, ?_⟩
        exact fun _ row listed => ((Sound.put inv.sound fresh).2 row).mpr (Or.inr listed)
      · exact fun _ row mem _ _ => Or.inr ⟨_, mem_cons_self, mem⟩
    | showing =>
      simp only [OpenView.resume]
      split
      · rename_i closed
        apply inv.drop rfl
        intro _ row mine open_ _ _ _
        rw [(genuine row mine).2] at open_
        exact absurd open_ closed
      · split
        · exact inv.merge
        · exact inv.park
  | merge room fresh above page =>
    cases page with
    | none =>
      have read : TaskInv content state (.merge room fresh above
          (some ⟨getMessages state.store room none, state.store⟩)) := by
        refine ⟨good.1, good.2.1, good.2.2.1, ?_⟩
        rintro page ⟨⟩
        exact ⟨⟨rfl, inv.sound, fun _ => id⟩, fun row mem => (good.2.2.1 row mem).1⟩
      exact inv.swap read rfl rfl fun row mem _ _ => mem
    | some page => exact inv.refill ready
  | more room before cursor reach older known page =>
    cases page with
    | none =>
      have reading : Reading content state.store room before cursor older known none := good
      have read : TaskInv content state (.more room before cursor reach older known
          (some (getMessages state.store room (some cursor)))) := by
        refine ⟨reading.sound, reading.grown, reading.rows, reading.unique, reading.covers, ?_⟩
        rintro rows ⟨⟩
        exact ⟨state.store, inv.sound, reading.grown, fun _ => id, rfl⟩
      exact inv.swap read rfl rfl nofun
    | some rows => exact inv.more ready

theorem Inv.take {index : Nat} (inv : Inv content state)
    (found : state.tasks[index]? = some task) : Inv content ((state.without index).push task) := by
  obtain ⟨inside, rfl⟩ := List.getElem?_eq_some_iff.mp found
  exact inv.perm (getElem_cons_eraseIdx_perm inside)

theorem Inv.ask (inv : Inv content state) (room : Nat) (direct : Bool) :
    Inv content { state with
      run := state.run + 1
      tasks := .opening (state.run + 1) room direct :: state.tasks } where
  sound := inv.sound
  shown := inv.shown
  parked := inv.parked
  unique := inv.unique
  tasks := by
    intro task mem
    rcases mem_cons.mp mem with rfl | rest
    · exact le_refl _
    · have good := inv.tasks task rest
      cases task with
      | opening asked other direct => exact Nat.le_succ_of_le good
      | history asked other page | row message stage | echo message
      | batch other rows live stage | merge other fresh above page
      | more other before cursor reach older known page => exact good
  runs := by
    refine nodup_cons.mpr ⟨?_, inv.runs⟩
    intro listed
    obtain ⟨task, mem, asked⟩ := mem_filterMap.mp listed
    have least := inv.latest
    have good := inv.tasks task mem
    cases task with
    | opening run other direct =>
      have bound : run ≤ state.run := good
      cases asked
      omega
    | history run other page =>
      have bound : run ≤ state.holder := good.1
      cases asked
      omega
    | row message stage | echo message | batch other rows live stage
    | merge other fresh above page | more other before cursor reach older known page => cases asked
  latest := Nat.le_succ_of_le inv.latest
  ascending := inv.ascending
  covers := by
    intro done row stored own type reached
    refine (inv.covers done row stored own type reached).imp_right ?_
    exact fun waiting => (@push_awaited state (.opening (state.run + 1) room direct) row).mpr
      (Or.inr waiting)

theorem Inv.step {state next : View} {event : Event} (inv : Inv content state)
    (orderly : Orderly content state event) (stepped : step state event = some next) :
    Inv content next := by
  cases event with
  | openRoom room direct =>
    cases stepped
    exact inv.ask room direct
  | arrive message direct =>
    simp only [OpenView.step] at stepped
    split at stepped
    · cases stepped
      exact inv
    · cases stepped
      exact inv.begin orderly rfl
  | send message echoed =>
    simp only [OpenView.step] at stepped
    obtain ⟨here, ready⟩ := orderly
    split at stepped
    · rename_i shown
      cases stepped
      have waits : Inv content (state.push (.row message .looking)) := inv.begin here rfl
      exact (waits.append here rfl nofun (ready shown)).begin here rfl
    · cases stepped
      exact inv.begin here rfl
  | batch room rows live =>
    simp only [OpenView.step] at stepped
    split at stepped
    · rename_i own
      cases stepped
      refine inv.begin ⟨orderly.2, ?_, nofun⟩ rfl
      intro row mem
      exact ⟨orderly.1 row mem, of_decide_eq_true (all_eq_true.mp own row mem)⟩
    · cases stepped
  | flush room =>
    cases stepped
    exact (inv.hand_over room).merge
  | loadMore before reach =>
    simp only [OpenView.step] at stepped
    split at stepped
    · cases stepped
      exact inv
    · split at stepped
      · cases stepped
        exact inv
      · cases stepped
        refine inv.begin ⟨inv.sound, fun _ => id, nofun, nodup_nil, ?_, nofun⟩ rfl
        intro row listed past
        rw [listed.below before rfl] at past
        cases past
  | trim room keepFrom =>
    simp only [OpenView.step] at stepped
    split at stepped
    · rename_i opened
      cases stepped
      exact inv.trim opened orderly
    · cases stepped
      exact inv
  | go index =>
    obtain ⟨task, found, rfl⟩ := map_eq_some_iff.mp stepped
    exact (inv.take found).resume (orderly task found)
  | refuse index =>
    obtain ⟨task, found, rest⟩ := bind_eq_some_iff.mp stepped
    split at rest
    · rename_i refusable
      cases rest
      have held := inv.take found
      cases task with
      | opening run room direct => exact held.drop_silent rfl rfl
      | row message stage =>
        cases stage with
        | looking => exact held.drop_silent rfl rfl
        | storing => exact held.drop_silent rfl rfl
        | showing => cases refusable
      | echo message => exact held.drop_silent rfl rfl
      | batch room rows live stage =>
        cases stage with
        | looking => exact held.drop_silent rfl rfl
        | storing => exact held.drop_silent rfl rfl
        | showing => cases refusable
      | history run room page => cases refusable
      | merge room fresh above page => cases refusable
      | more room before cursor reach older known page => cases refusable
    · cases rest

theorem start_inv {rows : List Message} (genuine : ∀ row ∈ rows, Genuine content row) :
    Inv content (View.start rows) where
  sound := by
    intro id row found
    obtain ⟨listed, there, pair⟩ := mem_map.mp (OrderedMap.collect_get_mem found)
    obtain ⟨same, rfl⟩ := Prod.mk.inj pair
    exact ⟨same, genuine listed there⟩
  shown := nofun
  parked := nofun
  unique := nodup_nil
  tasks := nofun
  runs := nodup_nil
  latest := le_refl _
  ascending := fun _ => List.Pairwise.nil
  covers := nofun

theorem Inv.settled (inv : Inv content state) : Settled state := by
  intro room opened quiet
  have own : ∀ row ∈ state.messages, row.room = room := by
    intro row mem
    have rooms := (inv.shown row mem).2
    rw [opened] at rooms
    exact (Option.some.inj rooms).symm
  have done : state.loading = false := by
    unfold View.loading
    rw [List.any_eq_false]
    intro task mem loads
    have good := inv.tasks task mem
    cases task with
    | history run other page =>
      have held := good.2.1 (of_decide_eq_true loads)
      rw [opened] at held
      exact (quiet.2 _ mem).1 held.symm
    | opening run other direct | row message stage | echo message | batch other rows live stage
    | merge other fresh above page | more other before cursor reach older known page => cases loads
  have ascending := inv.ascending done
  refine ⟨ascending, ascending.distinct fun row mem => (inv.shown row mem).1, own, ?_⟩
  intro row mem here type least
  have held := inv.sound.mem_values.mp mem
  have reached : Reaches state.messages row := by
    rw [ascending.reaches]
    exact fun first found => (compare_nonneg_iff _ _).mp (least first found)
  refine (inv.covers done row held (by rw [opened, here]) type reached).resolve_right ?_
  rintro (parked | ⟨task, listed, waits⟩)
  · exact quiet.1 row parked here
  · exact (quiet.2 task listed).2 row waits here

def sampleText (id : String) : Message := ⟨id, 1, id.length, .text⟩

def sampleEvents : List Event :=
  [.openRoom 1 false, .go 0, .go 0, .go 0, .arrive (sampleText "ccc") false, .go 0, .go 0, .go 0,
    .batch 1 [sampleText "a", sampleText "dddd"] true, .go 0, .go 0, .go 0, .go 0, .go 0,
    .send (sampleText "eeeee") false, .go 0, .go 0,
    .trim 1 (Row.cursor (sampleText "dddd")), .loadMore (.cursor (Row.cursor (sampleText "dddd"))) none,
    .go 0, .go 0]

def overwrittenEvents : List Event :=
  [.openRoom 1 false, .go 0, .go 0, .arrive (sampleText "a") false, .go 0, .go 0, .go 0, .go 0]

end AwfulChat.OpenView
