import AwfulChat.Library.Interleaving
import AwfulChat.Storage.Messages

/-!
# Search index rows and deleted rooms

`putSearchIndex` and `deleteMessagesForRoom` of `storage.ts`, any number of them side
by side in any number of tabs, over one database. An index is written from memory,
from entries read at any earlier time; its transaction counts the room's rows and
looks for each id the entries were read from. A deletion drops the index, reads the
ids to delete in one transaction and drops them, with the index again, in a later
one. Messages are stored, and legacy rows sealed, at any moment in between.
-/

namespace AwfulChat.Storage

open Library MessageOrder Inbound List Option

set_option autoImplicit false

structure SearchEntry where
  id : String
  text : String
  deriving DecidableEq

structure SearchIndexRecord where
  roomCode : Plain
  lastLamport : Int
  data : List SearchEntry
  rowsBelow : Option Nat
  deriving DecidableEq

/-- What a call is answered on its way: whether a key is armed when it seals, whether
the migration is complete when it asks, and what `stillWanted` says, twice. -/
structure SearchAnswers where
  armed : Bool
  complete : Bool
  wantedSealed : Bool
  wantedWriting : Bool

/-- A record and its options. The ids are those its entries were read from. -/
structure SearchIndexWrite where
  record : SearchIndexRecord
  rowKey : Option String
  minRows : Nat
  ids : List String
  covers : ∀ entry ∈ record.data, entry.id ∈ ids

structure SearchStore where
  messages : MessageStore
  searchIndex : OrderedMap String SearchIndexRecord

inductive SearchCall where
  | putSearchIndex (write : SearchIndexWrite) (answers : SearchAnswers)
  | deleteMessagesForRoom (room : Plain) (complete : Bool)

inductive SearchPhase where
  | sealing
  | writing
  | dropping
  | reading
  | deleting (ids : List String)
  | finished (written : Bool)

structure SearchJob where
  call : SearchCall
  phase : SearchPhase

inductive SearchOutside where
  | putMessages (messages : List Message)
  | bulkAddNewMessages (messages : List Message)
  | sealRow (id : String)
  | deleteSearchIndex (room : Plain)

section Rows

def MessageStore.hasId (store : MessageStore) (id : String) : Bool :=
  store.rows.any fun row => decide (row.message.id = id)

def MessageStore.deleteIds (store : MessageStore) (ids : List String) : MessageStore where
  rows := store.rows.filter fun row => !ids.contains row.message.id
  keyed := store.keyed.sublist (filter_sublist.map _)

/-- `put` of a sealed row replaces the row of its id. -/
def MessageStore.put (store : MessageStore) (message : Message) : MessageStore where
  rows := (store.deleteIds [message.id]).rows ++ [⟨message, true⟩]
  keyed := by
    rw [map_append, nodup_append]
    refine ⟨(store.deleteIds [message.id]).keyed, by simp, ?_⟩
    intro left member right last same
    obtain ⟨row, kept, rfl⟩ := mem_map.mp member
    rw [map_singleton, mem_singleton] at last
    simp [MessageStore.deleteIds, same, last] at kept

def MessageStore.putNew (store : MessageStore) (message : Message) : MessageStore :=
  if store.hasId message.id then store else store.put message

/-- The at-rest sweep puts a legacy row back in sealed form. -/
def MessageStore.sealRow (store : MessageStore) (id : String) : MessageStore where
  rows := store.rows.map fun row => if row.message.id = id then { row with migrated := true } else row
  keyed := by
    rw [List.map_map]
    have names : ((fun row : StoredMessage => row.message.id) ∘
        fun row => if row.message.id = id then { row with migrated := true } else row) =
        fun row => row.message.id := by
      funext row
      simp only [Function.comp]
      split_ifs <;> rfl
    rw [names]
    exact store.keyed

/-- The room keys a call looks under. -/
def roomCodes (key : IndexKey) (complete : Bool) (room : Plain) : List String :=
  if complete then [room.blind key] else [room.blind key, room.value]

/-- `getAll` over `byRoom`, by id. -/
def idsOfRoom (key : IndexKey) (complete : Bool) (store : MessageStore) (room : Plain) :
    List String :=
  (store.rows.filter fun row => (roomCodes key complete room).contains (row.roomCode key)).map
    fun row => row.message.id

/-- `getAllKeys` over `byRoomLamport`. -/
def heldIds (key : IndexKey) (complete : Bool) (store : MessageStore) (room : Plain) :
    List String :=
  (store.rows.filter fun row => (roomCodes key complete room).contains (row.roomCode key) &&
    decide (0 ≤ row.lamport) && decide (row.lamport ≤ maxSafeInteger)).map fun row => row.message.id

end Rows

section Model

variable (key : IndexKey)

/-- What `putSearchIndex` checks before its transaction. -/
def mayWrite (write : SearchIndexWrite) (answers : SearchAnswers) : Bool :=
  answers.armed && (write.rowKey.all fun rowKey => decide (write.record.roomCode.blind key = rowKey)) &&
    answers.wantedSealed

/-- What it checks inside. -/
def writesNow (store : SearchStore) (write : SearchIndexWrite) (answers : SearchAnswers) : Bool :=
  let held := heldIds key answers.complete store.messages write.record.roomCode
  decide (max 1 write.minRows ≤ held.length) && (write.ids.all fun id => held.contains id) &&
    answers.wantedWriting

def searchAct (store : SearchStore) (job : SearchJob) : Option (SearchStore × SearchJob) :=
  match job.call, job.phase with
  | .putSearchIndex write answers, .sealing =>
    some (store, { job with
      phase := if mayWrite key write answers then .writing else .finished false })
  | .putSearchIndex write answers, .writing =>
    if writesNow key store write answers then
      some ({ store with
        searchIndex := store.searchIndex.set (write.record.roomCode.blind key) write.record },
        { job with phase := .finished true })
    else some (store, { job with phase := .finished false })
  | .deleteMessagesForRoom room _, .dropping =>
    some ({ store with searchIndex := store.searchIndex.delete (room.blind key) },
      { job with phase := .reading })
  | .deleteMessagesForRoom room complete, .reading =>
    some (store, { job with phase := .deleting (idsOfRoom key complete store.messages room) })
  | .deleteMessagesForRoom room _, .deleting ids =>
    some (⟨store.messages.deleteIds ids, store.searchIndex.delete (room.blind key)⟩,
      { job with phase := .finished true })
  | _, _ => none

def SearchCall.firstPhase : SearchCall → SearchPhase
  | .putSearchIndex _ _ => .sealing
  | .deleteMessagesForRoom _ _ => .dropping

def searchOutside (store : SearchStore) : SearchOutside → SearchStore
  | .putMessages messages =>
    { store with messages := messages.foldl MessageStore.put store.messages }
  | .bulkAddNewMessages messages =>
    { store with messages := messages.foldl MessageStore.putNew store.messages }
  | .sealRow id => { store with messages := store.messages.sealRow id }
  | .deleteSearchIndex room =>
    { store with searchIndex := store.searchIndex.delete (room.blind key) }

def searchIndexes : Program SearchStore SearchCall SearchJob SearchOutside where
  start := fun store call => (store, ⟨call, call.firstPhase⟩)
  act := searchAct key
  outside := fun store event => some (searchOutside key store event)

end Model

/-! ## Rows and ids -/

section Ids

variable {key : IndexKey} {complete : Bool} {store : MessageStore} {room : Plain} {id : String}

def RowOf (store : MessageStore) (room : Plain) (id : String) : Prop :=
  ∃ row ∈ store.rows, row.message.id = id ∧ row.message.roomCode = room

theorem room_of_code {row : StoredMessage}
    (listed : (roomCodes key complete room).contains (row.roomCode key) = true) :
    row.message.roomCode = room := by
  rw [List.contains_iff_mem] at listed
  have either : row.roomCode key = room.blind key ∨ row.roomCode key = room.value := by
    unfold roomCodes at listed
    split_ifs at listed
    · exact .inl (mem_singleton.mp listed)
    · simpa using listed
  rcases either with blinded | plain
  · exact ((room_code_eq_blind key room).mp blinded).2
  · exact ((room_code_eq_value key room).mp plain).2

theorem row_of_held (held : id ∈ heldIds key complete store room) : RowOf store room id := by
  obtain ⟨row, mem, rfl⟩ := mem_map.mp held
  obtain ⟨stored, listed⟩ := mem_filter.mp mem
  simp only [Bool.and_eq_true] at listed
  exact ⟨row, stored, rfl, room_of_code listed.1.1⟩

theorem RowOf.has_id (held : RowOf store room id) : store.hasId id = true := by
  obtain ⟨row, stored, named, -⟩ := held
  exact any_eq_true.mpr ⟨row, stored, decide_eq_true named⟩

theorem has_id_false : store.hasId id = false ↔ ∀ row ∈ store.rows, row.message.id ≠ id := by
  simp [MessageStore.hasId]

theorem deleted_ids_gone {ids : List String} (deleted : id ∈ ids) :
    (store.deleteIds ids).hasId id = false := by
  rw [has_id_false]
  intro row mem same
  have kept := (mem_filter.mp mem).2
  simp [same, deleted] at kept

theorem delete_ids_absent (ids : List String) (absent : store.hasId id = false) :
    (store.deleteIds ids).hasId id = false := by
  rw [has_id_false] at absent ⊢
  intro row mem
  exact absent row (mem_filter.mp mem).1

section

variable {message : Message} (other : message.id ≠ id) (absent : store.hasId id = false)
include other absent

theorem put_absent : (store.put message).hasId id = false := by
  have kept := delete_ids_absent [message.id] absent
  rw [has_id_false] at kept ⊢
  intro row mem
  rcases mem_append.mp mem with old | new
  · exact kept row old
  · rw [mem_singleton.mp new]
    exact other

theorem put_new_absent : (store.putNew message).hasId id = false := by
  unfold MessageStore.putNew
  split_ifs
  · exact absent
  · exact put_absent other absent

end

theorem fold_absent {put : MessageStore → Message → MessageStore}
    (keeps : ∀ {store : MessageStore} {message : Message}, message.id ≠ id →
      store.hasId id = false → (put store message).hasId id = false)
    {messages : List Message} (others : ∀ message ∈ messages, message.id ≠ id)
    (absent : store.hasId id = false) : (messages.foldl put store).hasId id = false := by
  induction messages generalizing store with
  | nil => exact absent
  | cons message rest ih =>
    apply ih
    · intro other mem
      exact others other (mem_cons_of_mem _ mem)
    · exact keeps (others message (by simp)) absent

theorem seal_row_absent (other : String) (absent : store.hasId id = false) :
    (store.sealRow other).hasId id = false := by
  rw [has_id_false] at absent ⊢
  intro row mem
  obtain ⟨before, stored, rfl⟩ := mem_map.mp mem
  split_ifs
  · exact absent before stored
  · exact absent before stored

end Ids

/-! ## One act -/

section Acts

variable {key : IndexKey} {store after : SearchStore} {job next : SearchJob}

theorem search_act_cases (acted : searchAct key store job = some (after, next)) :
    after = store ∨
    (∃ write answers, job = ⟨.putSearchIndex write answers, .writing⟩ ∧
      writesNow key store write answers = true ∧
      after = { store with
        searchIndex := store.searchIndex.set (write.record.roomCode.blind key) write.record }) ∨
    (∃ room complete, job = ⟨.deleteMessagesForRoom room complete, .dropping⟩ ∧
      after = { store with searchIndex := store.searchIndex.delete (room.blind key) }) ∨
    ∃ room complete ids, job = ⟨.deleteMessagesForRoom room complete, .deleting ids⟩ ∧
      after = ⟨store.messages.deleteIds ids, store.searchIndex.delete (room.blind key)⟩ := by
  obtain ⟨call, phase⟩ := job
  cases call with
  | putSearchIndex write answers =>
    cases phase with
    | sealing =>
      cases acted
      exact .inl rfl
    | writing =>
      simp only [searchAct] at acted
      split_ifs at acted with writes
      · cases acted
        exact .inr (.inl ⟨write, answers, rfl, writes, rfl⟩)
      · cases acted
        exact .inl rfl
    | _ => cases acted
  | deleteMessagesForRoom room complete =>
    cases phase with
    | dropping =>
      cases acted
      exact .inr (.inr (.inl ⟨room, complete, rfl, rfl⟩))
    | reading =>
      cases acted
      exact .inl rfl
    | deleting ids =>
      cases acted
      exact .inr (.inr (.inr ⟨room, complete, ids, rfl, rfl⟩))
    | _ => cases acted

theorem ids_held_at_write {write : SearchIndexWrite} {answers : SearchAnswers}
    (writes : writesNow key store write answers = true) :
    ∀ id ∈ write.ids, RowOf store.messages write.record.roomCode id := by
  intro id mem
  simp only [writesNow, Bool.and_eq_true, List.all_eq_true, List.contains_iff_mem] at writes
  exact row_of_held (writes.1.2 id mem)

/-- The turn is the transaction of a `putSearchIndex` that writes `record`, all of
whose ids are rows of the room. -/
def WritesIndex (key : IndexKey) (pool : Pool SearchStore SearchJob)
    (turn : Turn SearchCall SearchOutside) (record : SearchIndexRecord) : Prop :=
  ∃ index write answers, turn = .advance index ∧
    pool.jobs[index]? = some ⟨.putSearchIndex write answers, .writing⟩ ∧
    write.record = record ∧ writesNow key pool.shared write answers = true ∧
    ∀ id ∈ write.ids, RowOf pool.shared.messages record.roomCode id

/-- The turn is the last transaction of a `deleteMessagesForRoom`. -/
def DeletesRoom (pool : Pool SearchStore SearchJob) (turn : Turn SearchCall SearchOutside)
    (room : Plain) (ids : List String) : Prop :=
  ∃ index complete, turn = .advance index ∧
    pool.jobs[index]? = some ⟨.deleteMessagesForRoom room complete, .deleting ids⟩

def storesId (id : String) : Turn SearchCall SearchOutside → Bool
  | .outside (.putMessages messages) => messages.any fun message => decide (message.id = id)
  | .outside (.bulkAddNewMessages messages) => messages.any fun message => decide (message.id = id)
  | _ => false

variable {index : OrderedMap String SearchIndexRecord} {name : String} {found : SearchIndexRecord}

theorem set_index_get {room : Plain} {record found : SearchIndexRecord}
    (stored : (index.set (room.blind key) record).get name = some found) :
    index.get name = some found ∨ name = room.blind key ∧ record = found := by
  rw [OrderedMap.get_set] at stored
  split_ifs at stored with same
  · cases stored
    exact .inr ⟨same, rfl⟩
  · exact .inl stored

theorem delete_index_get {room : Plain}
    (stored : (index.delete (room.blind key)).get name = some found) :
    index.get name = some found := by
  rw [OrderedMap.get_delete] at stored
  split_ifs at stored
  exact stored

theorem outside_index_get {event : SearchOutside}
    (stored : (searchOutside key store event).searchIndex.get name = some found) :
    store.searchIndex.get name = some found := by
  cases event with
  | deleteSearchIndex room => exact delete_index_get stored
  | _ => exact stored

variable {pool later : Pool SearchStore SearchJob} {turn : Turn SearchCall SearchOutside}

theorem index_after_step {record : SearchIndexRecord}
    (stepped : (searchIndexes key).step pool turn = some later)
    (stored : later.shared.searchIndex.get name = some record) :
    pool.shared.searchIndex.get name = some record ∨
      name = record.roomCode.blind key ∧ WritesIndex key pool turn record := by
  cases turn with
  | start call =>
    cases stepped
    exact .inl stored
  | advance index =>
    obtain ⟨job, shared, after, found, acted, rfl⟩ := advance_some stepped
    rcases search_act_cases acted with rfl | ⟨write, answers, rfl, writes, rfl⟩ |
      ⟨room, complete, rfl, rfl⟩ | ⟨room, complete, ids, rfl, rfl⟩
    · exact .inl stored
    · rcases set_index_get stored with old | ⟨rfl, rfl⟩
      · exact .inl old
      · exact .inr ⟨rfl, index, write, answers, rfl, found, rfl, writes, ids_held_at_write writes⟩
    · exact .inl (delete_index_get stored)
    · exact .inl (delete_index_get stored)
  | outside event =>
    obtain ⟨shared, happened, rfl⟩ := outside_some stepped
    cases happened
    exact .inl (outside_index_get stored)

/-- Neither the message nor an entry for it in the room's index is stored. -/
structure Forgotten (key : IndexKey) (room : Plain) (id : String) (store : SearchStore) : Prop where
  unstored : store.messages.hasId id = false
  unindexed : ∀ record, store.searchIndex.get (room.blind key) = some record →
    ∀ entry ∈ record.data, entry.id ≠ id

variable {room : Plain} {id : String}

section

variable (forgotten : Forgotten key room id store)
include forgotten

theorem Forgotten.drop_index (other : Plain) :
    Forgotten key room id
      { store with searchIndex := store.searchIndex.delete (other.blind key) } := by
  refine ⟨forgotten.unstored, ?_⟩
  intro record stored
  exact forgotten.unindexed record (delete_index_get stored)

theorem Forgotten.write_index {write : SearchIndexWrite} {answers : SearchAnswers}
    (writes : writesNow key store write answers = true) :
    Forgotten key room id { store with
      searchIndex := store.searchIndex.set (write.record.roomCode.blind key) write.record } := by
  refine ⟨forgotten.unstored, ?_⟩
  intro record stored entry mem same
  rcases set_index_get stored with old | ⟨-, rfl⟩
  · exact forgotten.unindexed record old entry mem same
  · have held := (ids_held_at_write writes entry.id (write.covers entry mem)).has_id
    rw [same, forgotten.unstored] at held
    cases held

theorem Forgotten.outside {event : SearchOutside} (other : storesId id (.outside event) = false) :
    Forgotten key room id (searchOutside key store event) := by
  cases event with
  | putMessages messages =>
    refine ⟨?_, forgotten.unindexed⟩
    exact fold_absent put_absent (by simpa [storesId] using other) forgotten.unstored
  | bulkAddNewMessages messages =>
    refine ⟨?_, forgotten.unindexed⟩
    exact fold_absent put_new_absent (by simpa [storesId] using other) forgotten.unstored
  | sealRow name => exact ⟨seal_row_absent name forgotten.unstored, forgotten.unindexed⟩
  | deleteSearchIndex dropped => exact forgotten.drop_index dropped

end

theorem forgotten_step (forgotten : Forgotten key room id pool.shared)
    (other : storesId id turn = false) (stepped : (searchIndexes key).step pool turn = some later) :
    Forgotten key room id later.shared := by
  cases turn with
  | start call =>
    cases stepped
    exact forgotten
  | advance index =>
    obtain ⟨job, shared, after, found, acted, rfl⟩ := advance_some stepped
    rcases search_act_cases acted with rfl | ⟨write, answers, -, writes, rfl⟩ |
      ⟨dropped, complete, -, rfl⟩ | ⟨dropped, complete, ids, -, rfl⟩
    · exact forgotten
    · exact forgotten.write_index writes
    · exact forgotten.drop_index dropped
    · exact ⟨delete_ids_absent ids forgotten.unstored, (forgotten.drop_index dropped).unindexed⟩
  | outside event =>
    obtain ⟨shared, happened, rfl⟩ := outside_some stepped
    cases happened
    exact forgotten.outside other

theorem deleted_is_forgotten {ids : List String} (deletes : DeletesRoom pool turn room ids)
    (deleted : id ∈ ids) (stepped : (searchIndexes key).step pool turn = some later) :
    Forgotten key room id later.shared := by
  obtain ⟨index, complete, rfl, found⟩ := deletes
  obtain ⟨job, shared, after, same, acted, rfl⟩ := advance_some stepped
  rw [found] at same
  cases same
  cases acted
  refine ⟨deleted_ids_gone deleted, ?_⟩
  intro record stored
  simp at stored

end Acts

/-! ## Whole interleavings -/

section Runs

variable {key : IndexKey} {pool final : Pool SearchStore SearchJob}
  {turns : List (Turn SearchCall SearchOutside)}

theorem index_was_written {record : SearchIndexRecord} {name : String}
    (ran : run (searchIndexes key).step pool turns = some final)
    (stored : final.shared.searchIndex.get name = some record) :
    pool.shared.searchIndex.get name = some record ∨
      name = record.roomCode.blind key ∧
        ∃ before turn after middle, turns = before ++ turn :: after ∧
          run (searchIndexes key).step pool before = some middle ∧
          WritesIndex key middle turn record := by
  induction turns generalizing pool with
  | nil =>
    cases ran
    exact .inl stored
  | cons turn rest ih =>
    obtain ⟨next, stepped, later⟩ := run_cons ran
    rcases ih later with there | ⟨named, before, written, after, middle, split, reached, writes⟩
    · rcases index_after_step stepped there with old | ⟨named, writes⟩
      · exact .inl old
      · exact .inr ⟨named, [], turn, rest, pool, rfl, rfl, writes⟩
    · refine .inr ⟨named, turn :: before, written, after, middle, ?_, ?_, writes⟩
      · rw [split, cons_append]
      · rw [run, stepped, bind_some, reached]

theorem stays_forgotten {room : Plain} {id : String} (forgotten : Forgotten key room id pool.shared)
    (unstored : ∀ turn ∈ turns, storesId id turn = false)
    (ran : run (searchIndexes key).step pool turns = some final) :
    Forgotten key room id final.shared :=
  run_keeps (fun _ _ _ holds other stepped => forgotten_step holds other stepped) forgotten
    (meets_of_events unstored pool) ran

end Runs

/-! ## A refilled room -/

section Refill

def greeting : Message := ⟨"m1", den, alice, 1, .text, none⟩

def greetingStore : SearchStore := ⟨⟨[⟨greeting, true⟩], by simp⟩, .empty⟩

def greetingIndex : SearchIndexWrite where
  record := ⟨den, 1, [⟨"m1", "hello"⟩], none⟩
  rowKey := none
  minRows := 1
  ids := ["m1"]
  covers := by simp

def yes : SearchAnswers := ⟨true, true, true, true⟩

def deletion : List (Turn SearchCall SearchOutside) :=
  [.start (.putSearchIndex greetingIndex yes), .advance 0,
    .start (.deleteMessagesForRoom den true), .advance 1, .advance 1]

def refill : List (Turn SearchCall SearchOutside) :=
  [.outside (.putMessages [greeting]), .advance 0]

theorem refill_leaves_index :
    ∃ final, run (searchIndexes plainKey).step ⟨greetingStore, []⟩
        (deletion ++ .advance 1 :: refill) = some final ∧
      final.shared.searchIndex.get (den.blind plainKey) = some greetingIndex.record :=
  map_eq_some_iff.mp (by decide +kernel)

end Refill

end AwfulChat.Storage
