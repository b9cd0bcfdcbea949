import AwfulChat.MessageOrder
import AwfulChat.Library.OrderedMap
import AwfulChat.Library.Runs

/-!
# The writers of the open conversation's view

`joinRoom` and `openDmConversation` with `_loadHistory`, `_handleChatMessage`, the sends,
`_storeSyncBatch`, `_mergeSyncedIntoView`, `loadMoreMessages` and `trimMessageView` as far
as they read and write the stored messages and `transportState.messages`. What one of them
does between two awaits is one step of its task. `holder` and `known` are not in the
source: the opening that the open room was claimed by, and what storage held when a page
was read.
-/

namespace AwfulChat.OpenView

open Library
open AwfulChat.MessageOrder

set_option autoImplicit false

structure Message where
  id : String
  room : Nat
  lamport : Nat
  type : MessageType
  deriving DecidableEq

instance : Row Message where
  cursor message := ⟨message.lamport, message.id⟩
  type message := message.type

abbrev Store := OrderedMap String Message

def PAGE_SIZE : Nat := 50

/-- `number | MessageCursor`, the upper end of a read. -/
inductive Bound
  | lamport (value : Nat)
  | cursor (value : MessageCursor)
  deriving DecidableEq

def Bound.below : Bound → Message → Bool
  | .lamport value, row => decide (row.lamport < value)
  | .cursor value, row => decide (compareMessages (Row.cursor row) value < 0)

def inPage (room : Nat) (before : Option Bound) (row : Message) : Bool :=
  decide (row.room = room) && decide (row.type ≠ .pluginUpdate) &&
    match before with
    | none => true
    | some bound => bound.below row

/-- The newest rows below the bound, in ascending order. -/
def getMessages (store : Store) (room : Nat) (before : Option Bound) : List Message :=
  let rows := sortRows (store.values.filter (inPage room before))
  rows.drop (rows.length - PAGE_SIZE)

structure Page where
  rows : List Message
  known : Store

/-- The await that a message on its way is at. -/
inductive Stage
  | looking
  | storing
  | showing
  deriving DecidableEq

inductive Task
  | opening (run room : Nat) (direct : Bool)
  /-- `_loadHistory`, before and after its read. -/
  | history (run room : Nat) (page : Option Page)
  | row (message : Message) (stage : Stage)
  /-- A DM of our own, which is shown before it is stored. -/
  | echo (message : Message)
  | batch (room : Nat) (rows : List Message) (live : Bool) (stage : Stage)
  /-- The second half of `_mergeSyncedIntoView`, before and after its read. -/
  | merge (room : Nat) (fresh above : List Message) (page : Option Page)
  /-- `loadMoreMessages`, before and after the read of a page. -/
  | more (room : Nat) (before cursor : Bound) (reach : Option (MessageCursor × Nat))
      (older : List Message) (known : Store) (page : Option (List Message))

structure View where
  run : Nat
  holder : Nat
  roomCode : Option Nat
  messages : List Message
  store : Store
  /-- The rows in the sync view buffer, each under its room. -/
  parked : List Message
  tasks : List Task

inductive Event
  | openRoom (room : Nat) (direct : Bool)
  /-- A DM's own handler looks in storage only. -/
  | arrive (message : Message) (direct : Bool)
  | send (message : Message) (echoed : Bool)
  | batch (room : Nat) (rows : List Message) (live : Bool)
  /-- The buffer's timer, or `settle`. -/
  | flush (room : Nat)
  | loadMore (before : Bound) (reach : Option (MessageCursor × Nat))
  | trim (room : Nat) (keepFrom : MessageCursor)
  /-- The task at this place goes on to its next await. -/
  | go (index : Nat)
  /-- An opening gives up, a message is refused or its store fails. -/
  | refuse (index : Nat)
  deriving DecidableEq

def View.push (state : View) (task : Task) : View := { state with tasks := task :: state.tasks }

def View.without (state : View) (index : Nat) : View :=
  { state with tasks := state.tasks.eraseIdx index }

def inRows (rows : List Message) (id : String) : Bool := rows.any fun row => decide (row.id = id)

def appendSorted (list : List Message) (message : Message) : List Message :=
  let next := list ++ [message]
  match list.getLast? with
  | none => next
  | some last =>
    if 0 < compareMessages (Row.cursor last) (Row.cursor message) then sortRows next else next

def View.append (state : View) (message : Message) : View :=
  if state.roomCode = some message.room then
    { state with messages := appendSorted state.messages message }
  else state

def putMessages (store : Store) (rows : List Message) : Store :=
  rows.foldl (fun stored row => stored.set row.id row) store

def aboveFloor (messages rows : List Message) : List Message :=
  match messages.head? with
  | none => []
  | some floor =>
    rows.filter fun row => decide (0 ≤ compareMessages (Row.cursor row) (Row.cursor floor))

def View.mergeSyncedIntoView (state : View) (room : Nat) (rows : List Message) : View :=
  if state.roomCode ≠ some room then state
  else
    let fresh := rows.filter fun row => !inRows state.messages row.id
    if fresh = [] then state
    else
      let above := aboveFloor state.messages fresh
      if state.messages ≠ [] ∧ above.length = fresh.length then
        { state with messages := sortRows (state.messages ++ fresh) }
      else state.push (.merge room fresh above none)

/-- What `_mergeSyncedIntoView` makes of the view once the newest page is there. -/
def refill (messages : List Message) (room : Nat) (above newest : List Message) : List Message :=
  let held := OrderedMap.collect (messages.map fun row => (row.id, row))
  let merged := newest.map fun row => (held.get row.id).getD row
  let kept := messages.filter fun row => decide (row.room = room) && !inRows newest row.id
  let extra := above.filter fun row => !inRows newest row.id && (held.get row.id).isNone
  sortRows (kept ++ merged ++ extra)

/-- The view was cut, or begins, above where the read began. -/
def cutAbove (messages : List Message) (before : Bound) : Bool :=
  match messages.head?, before with
  | none, _ => false
  | some floor, .lamport value => decide (value < floor.lamport)
  | some floor, .cursor value => decide (0 < compareMessages (Row.cursor floor) value)

def prepend (messages older : List Message) (before : Bound) : List Message :=
  if older = [] ∨ cutAbove messages before = true then messages
  else sortRows ((older.filter fun row => !inRows messages row.id) ++ messages)

/-- The loop of `loadMoreMessages` ends with these rows. -/
def lastPage (reach : Option (MessageCursor × Nat)) (rows : List Message) : Bool :=
  decide (rows.length < PAGE_SIZE) ||
    match reach, rows.head? with
    | some (target, pages), some first =>
      decide (compareMessages (Row.cursor first) target ≤ 0) || decide (pages ≤ 1)
    | _, _ => true

def park (parked rows : List Message) : List Message :=
  rows.foldl (fun waiting row => if inRows waiting row.id then waiting else waiting ++ [row]) parked

/-- A task goes on; it is no longer among the others. -/
def resume (state : View) : Task → View
  | .opening run room direct =>
    if run ≠ state.run then state
    else
      { state with
        holder := run
        roomCode := some room
        messages := []
        parked := if direct then state.parked
          else state.parked.filter fun row => decide (some row.room ≠ state.roomCode)
        tasks := .history run room none :: state.tasks }
  | .history run room none =>
    state.push (.history run room (some ⟨getMessages state.store room none, state.store⟩))
  | .history run _ (some page) =>
    if run = state.run then { state with messages := sortRows page.rows } else state
  | .row message .looking =>
    if state.store.has message.id then state else state.push (.row message .storing)
  | .row message .storing =>
    { state with
      store := putMessages state.store [message]
      tasks := .row message .showing :: state.tasks }
  | .row message .showing => state.append message
  | .echo message => { state with store := putMessages state.store [message] }
  | .batch room rows live .looking =>
    let fresh := rows.filter fun row => !state.store.has row.id
    if fresh = [] then state else state.push (.batch room fresh live .storing)
  | .batch room rows live .storing =>
    { state with
      store := putMessages state.store rows
      tasks := .batch room rows live .showing :: state.tasks }
  | .batch room rows live .showing =>
    if state.roomCode ≠ some room then state
    else if live then state.mergeSyncedIntoView room rows
    else { state with parked := park state.parked rows }
  | .merge room fresh above none =>
    state.push
      (.merge room fresh above (some ⟨getMessages state.store room none, state.store⟩))
  | .merge room _ above (some page) =>
    if state.roomCode ≠ some room then state
    else { state with messages := refill state.messages room above page.rows }
  | .more room before cursor reach older known none =>
    state.push (.more room before cursor reach older known
      (some (getMessages state.store room (some cursor))))
  | .more room before _ reach older known (some rows) =>
    if state.roomCode ≠ some room then state
    else
      match lastPage reach rows, rows.head? with
      | false, some first =>
        state.push (.more room before (.cursor (Row.cursor first))
          (reach.map fun aim => (aim.1, aim.2 - 1)) (older ++ rows) known none)
      | _, _ => { state with messages := prepend state.messages (older ++ rows) before }

def Task.refusable : Task → Bool
  | .opening _ _ _ => true
  | .row _ .showing => false
  | .row _ _ => true
  | .echo _ => true
  | .batch _ _ _ .showing => false
  | .batch _ _ _ _ => true
  | _ => false

def step (state : View) : Event → Option View
  | .openRoom room direct =>
    some { state with
      run := state.run + 1
      tasks := .opening (state.run + 1) room direct :: state.tasks }
  | .arrive message direct =>
    if direct = false ∧ inRows state.messages message.id = true then some state
    else some (state.push (.row message .looking))
  | .send message echoed =>
    if echoed then some ((state.append message).push (.echo message))
    else some (state.push (.row message .storing))
  | .batch room rows live =>
    if rows.all fun row => decide (row.room = room) then
      some (state.push (.batch room rows live .looking))
    else none
  | .flush room =>
    let rows := state.parked.filter fun row => decide (row.room = room)
    some ({ state with
      parked := state.parked.filter fun row => decide (row.room ≠ room) }.mergeSyncedIntoView
        room rows)
  | .loadMore before reach =>
    match state.roomCode with
    | none => some state
    | some room =>
      if (reach.map Prod.snd) = some 0 then some state
      else some (state.push (.more room before before reach [] state.store none))
  | .trim room keepFrom =>
    if state.roomCode = some room then
      some { state with
        messages := state.messages.filter fun row =>
          decide (0 ≤ compareMessages (Row.cursor row) keepFrom) }
    else some state
  | .go index => (state.tasks[index]?).map (resume (state.without index))
  | .refuse index =>
    (state.tasks[index]?).bind fun task =>
      if task.refusable then some (state.without index) else none

end AwfulChat.OpenView
