import AwfulChat.Search.CorpusRows
import AwfulChat.Library.Runs

/-!
# The search corpus of a room

`corpus.svelte.ts` in any number of tabs over one database, for one room that is not deleted and
under one storage key. A build and a save go step by step, one step to each transaction and one
to what runs once its answer is there; a message is stored first and told to the tab's hook
later. When a save starts is left open, as the throttle and the timers are. A count and the
entries taken with it are one step: no write lands between a count's transaction and what runs
on its answer.
-/

namespace AwfulChat.Search

open Library

set_option autoImplicit false

variable {Id : Type}

structure SearchIndexRecord (Id : Type) where
  lastLamport : Nat
  data : List (SearchEntry Id)
  rowsBelow : Option Nat

/-- Where `ensureRoomCorpus` stands: what it waits for, or what it is about to take in. -/
inductive Stage (Id : Type)
  | idle
  | counting
  | looking
  | checking (record : SearchIndexRecord Id)
  | topping (lastLamport : Nat) (counted : Bool)
  | landing (since : List (Message Id)) (counted : Bool)
  | sweeping (before : Option (Message Id))
  | paging (msgs : List (Message Id)) (capped : Bool)
  | saving

/-- Where `saveIndex` stands. -/
inductive Save (Id : Type)
  | counting (lastLamport : Nat)
  | putting (record : SearchIndexRecord Id) (minRows : Nat) (ids : List Id)

structure Base where
  rows : Nat
  newest : Nat

structure RoomCorpus (Id : Type) where
  entries : List (SearchEntry Id)
  done : Bool
  sweeping : Bool
  lastLamport : Nat
  dirty : Bool
  base : Option Base
  added : List Id
  stage : Stage Id
  save : Option (Save Id)
  /-- For the statements only: the room's rows when the build began, and the messages this tab
  stored since it has a corpus. -/
  begun : List (Row Id)
  stored : List (Message Id)

namespace RoomCorpus

def fresh : RoomCorpus Id := ⟨[], false, false, 0, false, none, [], .idle, none, [], []⟩

def ids (corpus : RoomCorpus Id) : List Id := corpus.entries.map fun entry => entry.id

section Taking

variable [DecidableEq Id]

def add (corpus : RoomCorpus Id) (entry : SearchEntry Id) : RoomCorpus Id × Bool :=
  if entry.id ∈ corpus.ids then (corpus, false)
  else
    ({ corpus with
      entries := corpus.entries ++ [entry]
      lastLamport := max corpus.lastLamport entry.lamport }, true)

def noteStored (corpus : RoomCorpus Id) (msg : Message Id) (newEntry : Bool) : RoomCorpus Id :=
  match corpus.base with
  | none => corpus
  | some base =>
    if msg.id ∈ corpus.added then corpus
    else if decide (base.newest < msg.lamport) || (newEntry && corpus.done) then
      { corpus with added := msg.id :: corpus.added }
    else corpus

/-- The message-stored hook. -/
def onStored (corpus : RoomCorpus Id) (msg : Message Id) : RoomCorpus Id :=
  let noted := match entryFromMessage msg with
    | none => corpus.noteStored msg false
    | some entry =>
      let taken := corpus.add entry
      let noted := taken.1.noteStored msg taken.2
      if taken.2 then { noted with dirty := true } else noted
  { noted with stored := msg :: noted.stored }

def addAll (corpus : RoomCorpus Id) : List (SearchEntry Id) → RoomCorpus Id
  | [] => corpus
  | entry :: rest => (corpus.add entry).1.addAll rest

/-- The entries of messages read, with whether any was new. -/
def addMessages (corpus : RoomCorpus Id) : List (Message Id) → RoomCorpus Id × Bool
  | [] => (corpus, false)
  | msg :: rest =>
    match entryFromMessage msg with
    | none => corpus.addMessages rest
    | some entry =>
      let taken := corpus.add entry
      let later := taken.1.addMessages rest
      (later.1, taken.2 || later.2)

end Taking

def ensureRoomCorpus (corpus : RoomCorpus Id) : RoomCorpus Id :=
  if corpus.done || corpus.sweeping then corpus
  else { corpus with sweeping := true, base := none, added := [], stage := .counting }

def countBase (rows : List (Row Id)) (corpus : RoomCorpus Id) : RoomCorpus Id :=
  let counts := countRoomRows rows 0
  { corpus with base := some ⟨counts.rows, counts.newest⟩, begun := rows, stage := .looking }

def look (found : Option (SearchIndexRecord Id)) (corpus : RoomCorpus Id) : RoomCorpus Id :=
  { corpus with
    stage := match found with
      | some record => .checking record
      | none => .sweeping none }

def coversBelow (rows : List (Row Id)) (record : SearchIndexRecord Id) : Bool :=
  match record.rowsBelow with
  | some rowsBelow => decide (countRowsBelow rows record.lastLamport = rowsBelow)
  | none =>
    decide (getSearchableStats rows record.lastLamport =
      record.data.countP fun entry => decide (entry.lamport < record.lastLamport))

def finishSweep (corpus : RoomCorpus Id) : RoomCorpus Id :=
  { corpus with done := true, stage := .saving, save := some (.counting corpus.lastLamport) }

section Building

variable [LinearOrder Id]

def check (rows : List (Row Id)) (record : SearchIndexRecord Id) (corpus : RoomCorpus Id) :
    RoomCorpus Id :=
  if coversBelow rows record then
    { corpus.addAll record.data with
      stage := .topping record.lastLamport record.rowsBelow.isSome }
  else { corpus with stage := .sweeping none }

def land (since : List (Message Id)) (counted : Bool) (corpus : RoomCorpus Id) : RoomCorpus Id :=
  let taken := corpus.addMessages since
  { taken.1 with
    dirty := taken.1.dirty || taken.2 || !counted
    done := true
    sweeping := false
    stage := .idle }

def landPage (msgs : List (Message Id)) (capped : Bool) (corpus : RoomCorpus Id) :
    RoomCorpus Id :=
  match msgs with
  | [] => corpus.finishSweep
  | oldest :: _ =>
    let taken := (corpus.addMessages msgs).1
    if capped then { taken with stage := .sweeping (some oldest) } else taken.finishSweep

/-- The next step of a build, over the rows and the sealed index as they are. -/
def advance (rows : List (Row Id)) (found : Option (SearchIndexRecord Id))
    (corpus : RoomCorpus Id) : Option (RoomCorpus Id) :=
  match corpus.stage with
  | .idle => none
  | .counting => some (corpus.countBase rows)
  | .looking => some (corpus.look found)
  | .checking record => some (corpus.check rows record)
  | .topping lastLamport counted =>
    some { corpus with
      stage := .landing (getSearchableSince rows lastLamport corpus.ids) counted }
  | .landing since counted => some (corpus.land since counted)
  | .sweeping before =>
    some { corpus with
      stage := .paging (getMessages rows before).1 (getMessages rows before).2 }
  | .paging msgs capped => some (corpus.landPage msgs capped)
  | .saving => none

end Building

/-- A save is over; the build that waited for it is too. -/
def endSave (corpus : RoomCorpus Id) : RoomCorpus Id :=
  match corpus.stage with
  | .saving => { corpus with save := none, stage := .idle, sweeping := false }
  | _ => { corpus with save := none }

def saveSearchIndexes (corpus : RoomCorpus Id) : RoomCorpus Id :=
  if corpus.dirty && corpus.done && !corpus.sweeping && corpus.save.isNone then
    { corpus with save := some (.counting corpus.lastLamport) }
  else corpus

def seen (corpus : RoomCorpus Id) : Nat :=
  match corpus.base with
  | some base => base.rows + corpus.added.length
  | none => 0

def countSave (rows : List (Row Id)) (lastLamport : Nat) (corpus : RoomCorpus Id) :
    RoomCorpus Id :=
  let counts := countRoomRows rows lastLamport
  let clean := { corpus with dirty := false }
  if counts.rows = 0 ∨ counts.rows < corpus.seen then clean.endSave
  else
    { clean with
      save := some (.putting
        ⟨lastLamport, corpus.entries,
          if corpus.base.isSome ∧ counts.rows = corpus.seen then some counts.below else none⟩
        counts.rows corpus.ids) }

/-- A save's transaction failed: what it was to write is due again. -/
def failSave (corpus : RoomCorpus Id) : RoomCorpus Id :=
  match corpus.save with
  | some (.putting _ _ _) => { corpus with dirty := true }.endSave
  | _ => corpus.endSave

/-- A read of the build failed. What landed stays, and the next build starts over. -/
def failBuild (corpus : RoomCorpus Id) : Option (RoomCorpus Id) :=
  match corpus.stage with
  | .idle => none
  | .saving => none
  | _ => some { corpus with stage := .idle, sweeping := false }

end RoomCorpus

structure Tab (Id : Type) where
  /-- Messages written whose hook has not run yet. -/
  pending : List (Message Id)
  corpus : Option (RoomCorpus Id)

structure State (Id : Type) where
  storage : Storage Id
  sealed : Option (SearchIndexRecord Id)
  tabs : Nat → Tab Id

namespace State

def start (storage : Storage Id) : State Id := ⟨storage, none, fun _ => ⟨[], none⟩⟩

def setTab (state : State Id) (tab : Nat) (next : Tab Id) : State Id :=
  { state with tabs := Function.update state.tabs tab next }

def setCorpus (state : State Id) (tab : Nat) (corpus : RoomCorpus Id) : State Id :=
  state.setTab tab { state.tabs tab with corpus := some corpus }

/-- The transaction of `putSearchIndex`. -/
def putSearchIndex [DecidableEq Id] (state : State Id) (record : SearchIndexRecord Id)
    (minRows : Nat) (ids : List Id) : State Id :=
  let held := state.storage.rows.map fun row => row.id
  if max 1 minRows ≤ held.length ∧ ∀ id ∈ ids, id ∈ held then
    { state with sealed := some record }
  else state

end State

inductive Event (Id : Type)
  | store (tab : Nat) (msg : Message Id)
  | notify (tab : Nat) (msg : Message Id)
  | ensureRoomCorpus (tab : Nat)
  | advance (tab : Nat)
  | failBuild (tab : Nat)
  | saveSearchIndexes (tab : Nat)
  | countSave (tab : Nat)
  | putSave (tab : Nat)
  | failSave (tab : Nat)
  | newSession (tab : Nat)

def step [LinearOrder Id] (state : State Id) : Event Id → Option (State Id)
  | .store tab msg =>
    some (State.setTab { state with storage := state.storage.put ⟨msg, true⟩ } tab
      { state.tabs tab with pending := msg :: (state.tabs tab).pending })
  | .notify tab msg =>
    if msg ∈ (state.tabs tab).pending then
      some (state.setTab tab
        ⟨(state.tabs tab).pending.erase msg,
          (state.tabs tab).corpus.map fun corpus => corpus.onStored msg⟩)
    else none
  | .ensureRoomCorpus tab =>
    some (state.setCorpus tab
      (((state.tabs tab).corpus.getD RoomCorpus.fresh).ensureRoomCorpus))
  | .advance tab =>
    (state.tabs tab).corpus.bind fun corpus =>
      (corpus.advance state.storage.rows state.sealed).map fun next => state.setCorpus tab next
  | .failBuild tab =>
    (state.tabs tab).corpus.bind fun corpus =>
      corpus.failBuild.map fun next => state.setCorpus tab next
  | .saveSearchIndexes tab =>
    (state.tabs tab).corpus.map fun corpus => state.setCorpus tab corpus.saveSearchIndexes
  | .countSave tab =>
    match (state.tabs tab).corpus with
    | none => none
    | some corpus =>
      match corpus.save with
      | some (.counting lastLamport) =>
        some (state.setCorpus tab (corpus.countSave state.storage.rows lastLamport))
      | _ => none
  | .putSave tab =>
    match (state.tabs tab).corpus with
    | none => none
    | some corpus =>
      match corpus.save with
      | some (.putting record minRows ids) =>
        some ((state.putSearchIndex record minRows ids).setCorpus tab corpus.endSave)
      | _ => none
  | .failSave tab =>
    (state.tabs tab).corpus.bind fun corpus =>
      if corpus.save.isSome then some (state.setCorpus tab corpus.failSave) else none
  | .newSession tab => some (state.setTab tab { state.tabs tab with corpus := none })

/-- A finished corpus has every row it must have, none twice, and so has a sealed index whose
count still holds, together with the rows from its lamport up. -/
structure Complete (state : State Id) : Prop where
  once : ∀ tab corpus, (state.tabs tab).corpus = some corpus → corpus.done = true →
    corpus.ids.Nodup
  begun : ∀ tab corpus, (state.tabs tab).corpus = some corpus → corpus.done = true →
    ∀ row ∈ corpus.begun, row.accepted = true → row.id ∈ corpus.ids
  stored : ∀ tab corpus, (state.tabs tab).corpus = some corpus → corpus.done = true →
    ∀ msg ∈ corpus.stored, searchable msg.type = true → msg.id ∈ corpus.ids
  sealed : ∀ record, state.sealed = some record →
    record.rowsBelow = some (countRowsBelow state.storage.rows record.lastLamport) →
      ∀ row ∈ state.storage.rows, row.accepted = true →
        row.id ∈ record.data.map (fun entry => entry.id) ∨ record.lastLamport ≤ row.lamport

/-- A store leaves a row held under its id with its lamport and as searchable as it was, and a
page that is full has a row that opens. -/
def Steady [LinearOrder Id] (state : State Id) : Event Id → Prop
  | .store _ msg => state.storage.Keeps ⟨msg, true⟩
  | .advance tab =>
    ∀ corpus ∈ (state.tabs tab).corpus,
      match corpus.stage with
      | .sweeping before =>
        (getMessages state.storage.rows before).2 = true →
          (getMessages state.storage.rows before).1 ≠ []
      | _ => True
  | _ => True

end AwfulChat.Search
