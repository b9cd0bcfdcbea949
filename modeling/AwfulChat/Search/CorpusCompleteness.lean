import AwfulChat.Search.Corpus
import Mathlib.Data.List.Perm.Subperm

/-!
# Completeness of the search corpus

Counts vouch for a corpus because rows are only added: as many rows below a lamport as before
are the same rows, and as many rows as a corpus has seen are the rows it has seen.
-/

namespace AwfulChat.Search

open Library List Option

set_option autoImplicit false

variable {Id : Type}

def Held (rows : List (Row Id)) (row : Row Id) : Prop :=
  ∃ stored ∈ rows, stored.id = row.id ∧ stored.lamport = row.lamport ∧
    stored.accepted = row.accepted

def MessageHeld (rows : List (Row Id)) (msg : Message Id) : Prop :=
  ∃ stored ∈ rows, stored.id = msg.id ∧ stored.lamport = msg.lamport ∧
    stored.accepted = searchable msg.type

/-- What storing a row does to the rows of a room. -/
structure Grows (rows later : List (Row Id)) : Prop where
  held : ∀ row ∈ rows, Held later row
  counts : ∀ lamport, countBelow rows lamport ≤ countBelow later lamport
  same : ∀ lamport, countBelow later lamport = countBelow rows lamport →
    ∀ row ∈ later, row.lamport < lamport → Held rows row

theorem Held.refl {rows : List (Row Id)} {row : Row Id} (mem : row ∈ rows) : Held rows row :=
  ⟨row, mem, rfl, rfl, rfl⟩

variable {rows later : List (Row Id)}

theorem Held.grows {row : Row Id} (held : Held rows row)
    (grows : Grows rows later) : Held later row := by
  obtain ⟨stored, mem, id, lamport, accepted⟩ := held
  obtain ⟨last, found, lastId, lastLamport, lastAccepted⟩ := grows.held stored mem
  exact ⟨last, found, lastId.trans id, lastLamport.trans lamport, lastAccepted.trans accepted⟩

theorem MessageHeld.grows {msg : Message Id} (held : MessageHeld rows msg)
    (grows : Grows rows later) : MessageHeld later msg := by
  obtain ⟨stored, mem, id, lamport, accepted⟩ := held
  obtain ⟨last, found, lastId, lastLamport, lastAccepted⟩ := grows.held stored mem
  exact ⟨last, found, lastId.trans id, lastLamport.trans lamport, lastAccepted.trans accepted⟩

theorem row_of_id {rows : List (Row Id)} (distinct : (rows.map fun row => row.id).Nodup)
    {first second : Row Id} (one : first ∈ rows) (two : second ∈ rows)
    (same : first.id = second.id) : first = second :=
  inj_on_of_nodup_map distinct one two same

section Putting

variable [DecidableEq Id]

theorem perm_held {rows : List (Row Id)} (distinct : (rows.map fun row => row.id).Nodup)
    {held : Row Id} {id : Id} (mem : held ∈ rows) (same : held.id = id) :
    rows.Perm (held :: rows.filter fun other => decide (other.id ≠ id)) := by
  have others : (rows.filter fun other => decide (other.id ≠ id)) = rows.erase held := by
    rw [(distinct.of_map _).erase_eq_filter]
    apply filter_congr
    intro other found
    rw [← same]
    by_cases hit : other = held
    · simp [hit]
    · have apart : other.id ≠ held.id := fun equal => hit (row_of_id distinct found mem equal)
      simp [hit, apart]
  rw [others]
  exact perm_cons_erase mem

theorem put_grows {storage : Storage Id} {row : Row Id} (keeps : storage.Keeps row) :
    Grows storage.rows (storage.put row).rows := by
  by_cases known : ∃ held ∈ storage.rows, held.id = row.id
  · obtain ⟨held, mem, same⟩ := known
    obtain ⟨lamport, accepted⟩ := keeps held mem same
    have split : storage.rows.Perm
        (held :: storage.rows.filter fun other => decide (other.id ≠ row.id)) :=
      perm_held storage.distinct mem same
    have counts : ∀ below, countBelow (storage.put row).rows below =
        countBelow storage.rows below := by
      intro below
      unfold countBelow
      rw [split.countP_eq]
      simp only [Storage.put, countP_cons, lamport]
    refine ⟨?_, fun below => (counts below).ge, ?_⟩
    · intro other found
      by_cases hit : other.id = row.id
      · have only : other = held :=
          row_of_id storage.distinct found mem (hit.trans same.symm)
        rw [only]
        exact ⟨row, mem_cons_self, same.symm, lamport.symm, accepted.symm⟩
      · exact Held.refl (mem_cons_of_mem _ (List.mem_filter.mpr ⟨found, by simpa using hit⟩))
    · intro below _ other found _
      rcases mem_cons.mp found with new | old
      · rw [new]
        exact ⟨held, mem, same, lamport, accepted⟩
      · exact Held.refl (List.mem_filter.mp old).1
  · push Not at known
    have all : storage.rows.filter (fun other => decide (other.id ≠ row.id)) = storage.rows := by
      apply filter_eq_self.mpr
      intro other found
      simpa using known other found
    have rows : (storage.put row).rows = row :: storage.rows := by
      simp only [Storage.put, all]
    rw [rows]
    refine ⟨fun other found => Held.refl (mem_cons_of_mem _ found), ?_, ?_⟩
    · intro below
      simp [countBelow, countP_cons]
    · intro below equal other found low
      rcases mem_cons.mp found with new | old
      · rw [new] at low
        simp [countBelow, countP_cons, low] at equal
      · exact Held.refl old

end Putting

/-- Entries as a corpus or a sealed index holds them: none twice, each of a stored row. -/
structure Entries (rows : List (Row Id)) (entries : List (SearchEntry Id)) : Prop where
  once : (entries.map fun entry => entry.id).Nodup
  held : ∀ entry ∈ entries, ∃ stored ∈ rows, stored.id = entry.id ∧
    stored.lamport = entry.lamport ∧ stored.accepted = true

theorem Entries.grows {entries : List (SearchEntry Id)} (holds : Entries rows entries)
    (grows : Grows rows later) : Entries later entries := by
  refine ⟨holds.once, ?_⟩
  intro entry mem
  obtain ⟨stored, found, id, lamport, accepted⟩ := holds.held entry mem
  obtain ⟨last, there, lastId, lastLamport, lastAccepted⟩ := grows.held stored found
  exact ⟨last, there, lastId.trans id, lastLamport.trans lamport, lastAccepted.trans accepted⟩

/-- A sealed index. While the count it was written with still holds, it has every searchable
row below its lamport. -/
structure RecordInv (rows : List (Row Id)) (record : SearchIndexRecord Id) : Prop where
  entries : Entries rows record.data
  below : ∀ rowsBelow, record.rowsBelow = some rowsBelow →
    rowsBelow ≤ countBelow rows record.lastLamport ∧
      (countBelow rows record.lastLamport = rowsBelow → ∀ row ∈ rows, row.accepted = true →
        row.lamport < record.lastLamport → row.id ∈ record.data.map fun entry => entry.id)

theorem RecordInv.grows {record : SearchIndexRecord Id} (inv : RecordInv rows record)
    (grows : Grows rows later) : RecordInv later record := by
  refine ⟨inv.entries.grows grows, ?_⟩
  intro rowsBelow counted
  obtain ⟨least, covers⟩ := inv.below rowsBelow counted
  have more := grows.counts record.lastLamport
  refine ⟨Nat.le_trans least more, ?_⟩
  intro equal row mem accepted low
  have unchanged : countBelow rows record.lastLamport = rowsBelow := by omega
  obtain ⟨stored, found, id, lamport, same⟩ :=
    grows.same record.lastLamport (equal.trans unchanged.symm) row mem low
  rw [← id]
  apply covers unchanged stored found (same.trans accepted)
  rw [lamport]
  exact low

/-- What a stage of the build still owes of the rows it began with. -/
def StageInv [LinearOrder Id] (rows : List (Row Id)) (corpus : RoomCorpus Id) :
    Stage Id → Prop
  | .idle => True
  | .counting => corpus.base = none ∧ corpus.added = []
  | .looking => True
  | .checking record => RecordInv rows record
  | .topping lastLamport _ => ∀ row ∈ corpus.begun, row.accepted = true →
      row.lamport < lastLamport → row.id ∈ corpus.ids
  | .landing since _ => (∀ msg ∈ since, MessageHeld rows msg) ∧
      ∀ row ∈ corpus.begun, row.accepted = true → row.id ∈ corpus.ids ∨
        ∃ msg ∈ since, msg.id = row.id ∧ searchable msg.type = true
  | .sweeping before => ∀ row ∈ corpus.begun, row.accepted = true →
      row.id ∈ corpus.ids ∨ isBefore before row = true
  | .paging msgs capped => (∀ msg ∈ msgs, MessageHeld rows msg) ∧
      ∀ row ∈ corpus.begun, row.accepted = true → row.id ∈ corpus.ids ∨
        (∃ msg ∈ msgs, msg.id = row.id ∧ searchable msg.type = true) ∨
          capped = true ∧ ∃ oldest, msgs.head? = some oldest ∧
            place row.toMessage < place oldest
  | .saving => True

def Building : Stage Id → Prop
  | .idle => False
  | .saving => False
  | _ => True

structure CorpusInv [LinearOrder Id] (rows : List (Row Id)) (corpus : RoomCorpus Id) : Prop where
  entries : Entries rows corpus.entries
  begun : ∀ row ∈ corpus.begun, Held rows row
  begunOnce : (corpus.begun.map fun row => row.id).Nodup
  stored : ∀ msg ∈ corpus.stored, searchable msg.type = true → msg.id ∈ corpus.ids
  base : ∀ base, corpus.base = some base →
    base.rows = corpus.begun.length ∧ ∀ row ∈ corpus.begun, row.lamport ≤ base.newest
  addedOnce : corpus.added.Nodup
  added : ∀ id ∈ corpus.added, id ∉ corpus.begun.map (fun row => row.id) ∧
    ∃ stored ∈ rows, stored.id = id ∧ (stored.accepted = true → id ∈ corpus.ids)
  done : corpus.done = true → ∀ row ∈ corpus.begun, row.accepted = true → row.id ∈ corpus.ids
  building : Building corpus.stage → corpus.done = false
  saving : corpus.save ≠ none → corpus.done = true
  stage : StageInv rows corpus corpus.stage
  putting : ∀ record minRows ids, corpus.save = some (.putting record minRows ids) →
    RecordInv rows record

/-- One corpus with more entries than another, and nothing else changed. -/
structure Takes (rows : List (Row Id)) (corpus later : RoomCorpus Id) : Prop where
  same : ∃ entries lastLamport,
    later = { corpus with entries := entries, lastLamport := lastLamport }
  entries : Entries rows later.entries
  more : corpus.ids ⊆ later.ids

theorem Takes.refl {rows : List (Row Id)} {corpus : RoomCorpus Id}
    (entries : Entries rows corpus.entries) : Takes rows corpus corpus :=
  ⟨⟨_, _, rfl⟩, entries, fun _ mem => mem⟩

theorem Takes.trans {rows : List (Row Id)} {first second third : RoomCorpus Id}
    (one : Takes rows first second) (two : Takes rows second third) : Takes rows first third := by
  obtain ⟨entries, lastLamport, same⟩ := one.same
  obtain ⟨more, last, equal⟩ := two.same
  refine ⟨⟨more, last, ?_⟩, two.entries, fun id mem => two.more (one.more mem)⟩
  rw [equal, same]

theorem held_entry {rows : List (Row Id)} {msg : Message Id} {entry : SearchEntry Id}
    (held : MessageHeld rows msg) (made : entryFromMessage msg = some entry) :
    ∃ stored ∈ rows, stored.id = entry.id ∧ stored.lamport = entry.lamport ∧
      stored.accepted = true := by
  obtain ⟨covered, id, lamport⟩ := entry_from_message made
  obtain ⟨stored, mem, sameId, sameLamport, accepted⟩ := held
  exact ⟨stored, mem, sameId.trans id.symm, sameLamport.trans lamport.symm,
    accepted.trans covered⟩

section Adding

variable [DecidableEq Id]

theorem takes_add {rows : List (Row Id)} {corpus : RoomCorpus Id} {entry : SearchEntry Id}
    (entries : Entries rows corpus.entries)
    (held : ∃ stored ∈ rows, stored.id = entry.id ∧ stored.lamport = entry.lamport ∧
      stored.accepted = true) :
    Takes rows corpus (corpus.add entry).1 ∧ entry.id ∈ (corpus.add entry).1.ids ∧
      ((corpus.add entry).2 = true → entry.id ∉ corpus.ids) := by
  unfold RoomCorpus.add
  split_ifs with known
  · exact ⟨Takes.refl entries, known, nofun⟩
  · refine ⟨⟨⟨_, _, rfl⟩, ⟨?_, ?_⟩, ?_⟩, ?_, fun _ => known⟩
    · rw [map_append, nodup_append]
      refine ⟨entries.once, nodup_singleton _, ?_⟩
      intro id mem other found same
      have equal : id = entry.id := same.trans (mem_singleton.mp found)
      rw [equal] at mem
      exact known mem
    · intro other mem
      rcases mem_append.mp mem with old | new
      · exact entries.held other old
      · rw [mem_singleton.mp new]
        exact held
    · intro id mem
      simp only [RoomCorpus.ids, map_append, mem_append]
      exact Or.inl mem
    · simp [RoomCorpus.ids]

theorem takes_addAll {rows : List (Row Id)} {corpus : RoomCorpus Id}
    {list : List (SearchEntry Id)} (entries : Entries rows corpus.entries)
    (held : ∀ entry ∈ list, ∃ stored ∈ rows, stored.id = entry.id ∧
      stored.lamport = entry.lamport ∧ stored.accepted = true) :
    Takes rows corpus (corpus.addAll list) ∧
      ∀ entry ∈ list, entry.id ∈ (corpus.addAll list).ids := by
  induction list generalizing corpus with
  | nil => exact ⟨Takes.refl entries, nofun⟩
  | cons entry rest ih =>
    obtain ⟨takes, there, -⟩ := takes_add entries (held entry mem_cons_self)
    obtain ⟨later, all⟩ := ih takes.entries fun other mem =>
      held other (mem_cons_of_mem _ mem)
    refine ⟨takes.trans later, ?_⟩
    intro other mem
    rcases mem_cons.mp mem with same | old
    · rw [same]
      exact later.more there
    · exact all other old

theorem takes_addMessages {rows : List (Row Id)} {corpus : RoomCorpus Id} {msgs : List (Message Id)}
    (entries : Entries rows corpus.entries) (held : ∀ msg ∈ msgs, MessageHeld rows msg) :
    Takes rows corpus (corpus.addMessages msgs).1 ∧
      ∀ msg ∈ msgs, searchable msg.type = true → msg.id ∈ (corpus.addMessages msgs).1.ids := by
  induction msgs generalizing corpus with
  | nil => exact ⟨Takes.refl entries, nofun⟩
  | cons msg rest ih =>
    have later := fun other mem => held other (mem_cons_of_mem msg mem)
    cases made : entryFromMessage msg with
    | none =>
      simp only [RoomCorpus.addMessages, made]
      obtain ⟨takes, all⟩ := ih entries later
      refine ⟨takes, ?_⟩
      intro other mem covered
      rcases mem_cons.mp mem with same | old
      · rw [← same, entryFromMessage, if_pos covered] at made
        cases made
      · exact all other old covered
    | some entry =>
      simp only [RoomCorpus.addMessages, made]
      obtain ⟨takes, there, -⟩ :=
        takes_add entries (held_entry (held msg mem_cons_self) made)
      obtain ⟨more, all⟩ := ih takes.entries later
      refine ⟨takes.trans more, ?_⟩
      intro other mem covered
      rcases mem_cons.mp mem with same | old
      · rw [same, ← (entry_from_message made).2.1]
        exact more.more there
      · exact all other old covered

end Adding

section Reading

variable [LinearOrder Id]

variable {rows : List (Row Id)} {corpus : RoomCorpus Id} {record : SearchIndexRecord Id}
  {msg : Message Id} {state : State Id}

theorem StageInv.grows {rows later : List (Row Id)} {stage : Stage Id}
    (inv : StageInv rows corpus stage) (grows : Grows rows later) :
    StageInv later corpus stage := by
  cases stage with
  | checking record => exact RecordInv.grows inv grows
  | landing since counted | paging msgs capped =>
    exact ⟨fun msg mem => (inv.1 msg mem).grows grows, inv.2⟩
  | _ => exact inv

theorem CorpusInv.grows {rows later : List (Row Id)} (inv : CorpusInv rows corpus)
    (grows : Grows rows later) : CorpusInv later corpus := by
  refine ⟨inv.entries.grows grows, fun row mem => (inv.begun row mem).grows grows,
    inv.begunOnce, inv.stored, inv.base, inv.addedOnce, ?_, inv.done, inv.building, inv.saving,
    inv.stage.grows grows, fun record minRows ids put =>
      (inv.putting record minRows ids put).grows grows⟩
  intro id mem
  obtain ⟨apart, stored, found, same, covered⟩ := inv.added id mem
  obtain ⟨last, there, lastId, -, accepted⟩ := grows.held stored found
  refine ⟨apart, last, there, lastId.trans same, ?_⟩
  rw [accepted]
  exact covered

theorem StageInv.takes {corpus later : RoomCorpus Id} {stage : Stage Id}
    (inv : StageInv rows corpus stage) (takes : Takes rows corpus later) :
    StageInv rows later stage := by
  obtain ⟨⟨entries, lastLamport, rfl⟩, -, more⟩ := takes
  cases stage with
  | topping from_ counted => exact fun row mem accepted low => more (inv row mem accepted low)
  | landing since counted | paging msgs capped =>
    refine ⟨inv.1, ?_⟩
    intro row mem accepted
    exact (inv.2 row mem accepted).imp (fun here => more here) id
  | sweeping before =>
    intro row mem accepted
    exact (inv row mem accepted).imp (fun here => more here) id
  | _ => exact inv

theorem CorpusInv.takes {corpus later : RoomCorpus Id} (inv : CorpusInv rows corpus)
    (takes : Takes rows corpus later) : CorpusInv rows later := by
  have stage := inv.stage.takes takes
  obtain ⟨⟨entries, lastLamport, rfl⟩, held, more⟩ := takes
  refine ⟨held, inv.begun, inv.begunOnce, ?_, inv.base, inv.addedOnce, ?_, ?_, inv.building,
    inv.saving, stage, inv.putting⟩
  · intro msg mem covered
    exact more (inv.stored msg mem covered)
  · intro id mem
    obtain ⟨apart, stored, found, same, covered⟩ := inv.added id mem
    exact ⟨apart, stored, found, same, fun accepted => more (covered accepted)⟩
  · intro done row mem accepted
    exact more (inv.done done row mem accepted)

theorem begun_message (inv : CorpusInv rows corpus) (distinct : (rows.map fun row => row.id).Nodup)
    (held : MessageHeld rows msg) (mem : msg.id ∈ corpus.begun.map fun row => row.id) :
    ∃ row ∈ corpus.begun, row.id = msg.id ∧ row.lamport = msg.lamport ∧
      row.accepted = searchable msg.type := by
  obtain ⟨row, begun, same⟩ := List.mem_map.mp mem
  obtain ⟨stored, found, id, lamport, accepted⟩ := inv.begun row begun
  obtain ⟨other, there, otherId, otherLamport, otherAccepted⟩ := held
  have only : stored = other :=
    row_of_id distinct found there (by rw [id, otherId]; exact same)
  subst only
  exact ⟨row, begun, same, lamport.symm.trans otherLamport, accepted.symm.trans otherAccepted⟩

theorem note_stored_cases (corpus : RoomCorpus Id) (msg : Message Id) (newEntry : Bool) :
    corpus.noteStored msg newEntry = corpus ∨
      corpus.noteStored msg newEntry = { corpus with added := msg.id :: corpus.added } ∧
        msg.id ∉ corpus.added ∧ ∃ base, corpus.base = some base ∧
          (base.newest < msg.lamport ∨ newEntry = true ∧ corpus.done = true) := by
  unfold RoomCorpus.noteStored
  split
  case h_1 => exact Or.inl rfl
  case h_2 base counted =>
    split_ifs with known certain
    · exact Or.inl rfl
    · refine Or.inr ⟨rfl, known, base, counted, ?_⟩
      simpa using certain
    · exact Or.inl rfl

theorem CorpusInv.noted
    {newEntry : Bool} (inv : CorpusInv rows corpus)
    (distinct : (rows.map fun row => row.id).Nodup) (held : MessageHeld rows msg)
    (covered : searchable msg.type = true → msg.id ∈ corpus.ids)
    (fresh : newEntry = true → corpus.done = true →
      msg.id ∉ corpus.begun.map fun row => row.id) :
    CorpusInv rows (corpus.noteStored msg newEntry) := by
  rcases note_stored_cases corpus msg newEntry with same | ⟨same, unknown, base, counted, certain⟩
  · rw [same]
    exact inv
  · rw [same]
    have apart : msg.id ∉ corpus.begun.map fun row => row.id := by
      intro mem
      rcases certain with newer | ⟨new, done⟩
      · obtain ⟨row, begun, -, lamport, -⟩ := begun_message inv distinct held mem
        have low := (inv.base base counted).2 row begun
        omega
      · exact fresh new done mem
    have stage : StageInv rows { corpus with added := msg.id :: corpus.added }
        corpus.stage := by
      have old := inv.stage
      cases standing : corpus.stage with
      | counting =>
        rw [standing] at old
        rw [old.1] at counted
        cases counted
      | _ =>
        rw [standing] at old
        exact old
    refine ⟨inv.entries, inv.begun, inv.begunOnce, inv.stored, inv.base,
      nodup_cons.mpr ⟨unknown, inv.addedOnce⟩, ?_, inv.done, inv.building, inv.saving,
      stage, inv.putting⟩
    intro id mem
    rcases mem_cons.mp mem with same | old
    · rw [same]
      obtain ⟨stored, found, sameId, -, accepted⟩ := held
      refine ⟨apart, stored, found, sameId, ?_⟩
      rw [accepted]
      exact covered
    · exact inv.added id old

theorem note_stored_ids (corpus : RoomCorpus Id) (msg : Message Id) (newEntry : Bool) :
    (corpus.noteStored msg newEntry).ids = corpus.ids := by
  rcases note_stored_cases corpus msg newEntry with same | ⟨same, -⟩ <;> rw [same] <;> rfl

section

variable (inv : CorpusInv rows corpus)
include inv

theorem CorpusInv.dirtied (dirty : Bool) :
    CorpusInv rows { corpus with dirty := dirty } := by
  have stage : StageInv rows { corpus with dirty := dirty } corpus.stage := by
    have old := inv.stage
    cases at_ : corpus.stage <;> rw [at_] at old <;> exact old
  exact ⟨inv.entries, inv.begun, inv.begunOnce, inv.stored, inv.base, inv.addedOnce, inv.added,
    inv.done, inv.building, inv.saving, stage, inv.putting⟩

theorem CorpusInv.heard (covered : searchable msg.type = true → msg.id ∈ corpus.ids) :
    CorpusInv rows { corpus with stored := msg :: corpus.stored } := by
  have stage : StageInv rows { corpus with stored := msg :: corpus.stored } corpus.stage := by
    have old := inv.stage
    cases at_ : corpus.stage <;> rw [at_] at old <;> exact old
  refine ⟨inv.entries, inv.begun, inv.begunOnce, ?_, inv.base, inv.addedOnce, inv.added,
    inv.done, inv.building, inv.saving, stage, inv.putting⟩
  intro other mem
  rcases mem_cons.mp mem with same | old
  · rw [same]
    exact covered
  · exact inv.stored other old

theorem CorpusInv.onStored (distinct : (rows.map fun row => row.id).Nodup)
    (held : MessageHeld rows msg) : CorpusInv rows (corpus.onStored msg) := by
  unfold RoomCorpus.onStored
  cases made : entryFromMessage msg with
  | none =>
    have uncovered : ¬searchable msg.type = true := by
      intro covered
      rw [entryFromMessage, if_pos covered] at made
      cases made
    have noted : CorpusInv rows (corpus.noteStored msg false) :=
      inv.noted distinct held (fun covered => absurd covered uncovered) nofun
    exact noted.heard fun covered => absurd covered uncovered
  | some entry =>
    dsimp only
    obtain ⟨covered, sameId, -⟩ := entry_from_message made
    obtain ⟨takes, there, new⟩ := takes_add inv.entries (held_entry held made)
    rw [sameId] at there new
    have fresh : (corpus.add entry).2 = true → (corpus.add entry).1.done = true →
        msg.id ∉ (corpus.add entry).1.begun.map fun row => row.id := by
      obtain ⟨entries, lastLamport, same⟩ := takes.same
      rw [same]
      intro isNew done mem
      obtain ⟨row, begun, id, -, accepted⟩ := begun_message inv distinct held mem
      apply new isNew
      rw [← id]
      exact inv.done done row begun (accepted.trans covered)
    have noted := (inv.takes takes).noted distinct held (fun _ => there) fresh
    have kept : msg.id ∈ ((corpus.add entry).1.noteStored msg (corpus.add entry).2).ids := by
      rw [note_stored_ids]
      exact there
    split_ifs
    · exact (noted.dirtied true).heard fun _ => kept
    · exact noted.heard fun _ => kept

theorem begun_covered {row : Row Id} (mem : row ∈ corpus.begun)
    (accepted : row.accepted = true) :
    ∃ stored ∈ rows, stored.id = row.id ∧ stored.lamport = row.lamport ∧
      stored.accepted = true ∧ place stored.toMessage = place row.toMessage := by
  obtain ⟨stored, found, id, lamport, same⟩ := inv.begun row mem
  refine ⟨stored, found, id, lamport, same.trans accepted, ?_⟩
  rw [place, place, id, lamport]

end

theorem stats_cover {entries : List (SearchEntry Id)} {lamport : Nat}
    (distinct : (rows.map fun row => row.id).Nodup) (holds : Entries rows entries)
    (equal : getSearchableStats rows lamport =
      entries.countP fun entry => decide (entry.lamport < lamport)) :
    ∀ row ∈ rows, row.accepted = true → row.lamport < lamport →
      row.id ∈ entries.map fun entry => entry.id := by
  let low := entries.filter fun entry => decide (entry.lamport < lamport)
  let wanted := rows.filter fun row => searchable row.type && decide (row.lamport < lamport)
  have once : (low.map fun entry => entry.id).Nodup :=
    holds.once.sublist (filter_sublist.map _)
  have inside : (low.map fun entry => entry.id) ⊆ wanted.map fun row => row.id := by
    intro id mem
    obtain ⟨entry, found, same⟩ := List.mem_map.mp mem
    obtain ⟨kept, below⟩ := List.mem_filter.mp found
    obtain ⟨stored, there, sameId, sameLamport, accepted⟩ := holds.held entry kept
    apply List.mem_map.mpr
    refine ⟨stored, List.mem_filter.mpr ⟨there, ?_⟩, sameId.trans same⟩
    rw [sameLamport, (Bool.and_eq_true_iff.mp accepted).2]
    exact below
  have lengths : (wanted.map fun row => row.id).length ≤
      (low.map fun entry => entry.id).length := by
    rw [length_map, length_map, ← countP_eq_length_filter,
      ← countP_eq_length_filter]
    exact equal.le
  have same := (List.Nodup.subperm once inside).perm_of_length_le lengths
  intro row mem accepted below
  have want : row.id ∈ wanted.map fun row => row.id := by
    apply List.mem_map_of_mem
    refine List.mem_filter.mpr ⟨mem, ?_⟩
    rw [(Bool.and_eq_true_iff.mp accepted).2]
    simpa using below
  obtain ⟨entry, found, sameId⟩ := List.mem_map.mp (same.mem_iff.mpr want)
  exact List.mem_map.mpr ⟨entry, (List.mem_filter.mp found).1, sameId⟩

theorem covers_below (distinct : (rows.map fun row => row.id).Nodup) (inv : RecordInv rows record)
    (covers : RoomCorpus.coversBelow rows record = true) :
    ∀ row ∈ rows, row.accepted = true → row.lamport < record.lastLamport →
      row.id ∈ record.data.map fun entry => entry.id := by
  unfold RoomCorpus.coversBelow at covers
  split at covers
  case h_1 rowsBelow counted =>
    have equal := of_decide_eq_true covers
    rw [count_rows_below] at equal
    exact (inv.below rowsBelow counted).2 equal
  case h_2 => exact stats_cover distinct inv.entries (of_decide_eq_true covers)

theorem page_owes {before : Option (Message Id)} (distinct : (rows.map fun row => row.id).Nodup)
    (opens : (getMessages rows before).2 = true → (getMessages rows before).1 ≠ []) {row : Row Id}
    (mem : row ∈ rows) (accepted : row.accepted = true) (below : isBefore before row = true) :
    row.toMessage ∈ (getMessages rows before).1 ∨ (getMessages rows before).2 = true ∧
      ∃ oldest, (getMessages rows before).1.head? = some oldest ∧
        place row.toMessage < place oldest := by
  obtain ⟨readable, covered⟩ := Bool.and_eq_true_iff.mp accepted
  let sorted := ((rows.filter (isBefore before)).filter fun row =>
    decide (row.type ≠ .pluginUpdate)).insertionSort newestFirst
  have walked : row ∈ sorted := by
    rw [mem_insertionSort]
    refine List.mem_filter.mpr ⟨List.mem_filter.mpr ⟨mem, below⟩, ?_⟩
    apply decide_eq_true
    intro update
    rw [update] at covered
    cases covered
  have order : sorted.Pairwise newestFirst := pairwise_insertionSort newestFirst _
  have split : pageRows rows before ++ sorted.drop PAGE_SIZE = sorted :=
    take_append_drop PAGE_SIZE sorted
  rw [← split, mem_append] at walked
  rcases walked with onPage | older
  · exact Or.inl (mem_openAll (mem_reverse.mpr onPage) readable)
  · have full : PAGE_SIZE ≤ (pageRows rows before).length := by
      have long : PAGE_SIZE < sorted.length := by
        by_contra short
        rw [drop_eq_nil_of_le (by omega)] at older
        cases older
      have taken : (pageRows rows before).length = min PAGE_SIZE sorted.length :=
        length_take
      omega
    have capped : (getMessages rows before).2 = true := decide_eq_true full
    refine Or.inr ⟨capped, ?_⟩
    cases msgs : (getMessages rows before).1 with
    | nil => exact absurd msgs (opens capped)
    | cons oldest rest =>
      refine ⟨oldest, rfl, ?_⟩
      have opened : oldest ∈ openAll (pageRows rows before).reverse := by
        have first : oldest ∈ (getMessages rows before).1 := by
          rw [msgs]
          exact mem_cons_self
        exact first
      obtain ⟨last, found, same, -⟩ := of_mem_openAll opened
      have onPage := mem_reverse.mp found
      rw [← split, pairwise_append] at order
      have after : place row.toMessage ≤ place last.toMessage := order.2.2 last onPage row older
      rw [← same]
      refine lt_of_le_of_ne after ?_
      intro equal
      have stored : last ∈ rows := by
        have walked : last ∈ sorted := by
          rw [← split]
          exact mem_append_left _ onPage
        rw [mem_insertionSort] at walked
        exact (List.mem_filter.mp (List.mem_filter.mp walked).1).1
      have sameId : row.id = last.id := congrArg (fun key => (ofLex key).2) equal
      have only := row_of_id distinct mem stored sameId
      have once : sorted.Nodup :=
        ((perm_insertionSort _ _).nodup_iff).mpr
          ((distinct.of_map _).sublist (filter_sublist.trans filter_sublist))
      rw [← split] at once
      rw [only] at older
      exact (disjoint_of_nodup_append once) onPage older

section

variable (inv : CorpusInv rows corpus)
include inv

theorem CorpusInv.finishes
    (covered : ∀ row ∈ corpus.begun, row.accepted = true → row.id ∈ corpus.ids) :
    CorpusInv rows corpus.finishSweep :=
  ⟨inv.entries, inv.begun, inv.begunOnce, inv.stored, inv.base, inv.addedOnce, inv.added,
    fun _ => covered, nofun, fun _ => rfl, trivial, nofun⟩

theorem CorpusInv.moves {stage : Stage Id}
    (building : corpus.done = false) (next : StageInv rows { corpus with stage := stage } stage) :
    CorpusInv rows { corpus with stage := stage } :=
  ⟨inv.entries, inv.begun, inv.begunOnce, inv.stored, inv.base, inv.addedOnce, inv.added,
    inv.done, fun _ => building, inv.saving, next, inv.putting⟩

theorem CorpusInv.countBase (distinct : (rows.map fun row => row.id).Nodup)
    (standing : corpus.stage = .counting) : CorpusInv rows (corpus.countBase rows) := by
  have building : corpus.done = false := inv.building (by rw [standing]; trivial)
  have empty := inv.stage
  rw [standing] at empty
  refine ⟨inv.entries, fun row mem => Held.refl mem, distinct, inv.stored, ?_,
    inv.addedOnce, ?_, ?_, fun _ => building, inv.saving, trivial, inv.putting⟩
  · intro base counted
    cases counted
    exact ⟨rfl, fun row mem => lamport_le_newest mem 0⟩
  · intro id mem
    rw [show (corpus.countBase rows).added = [] from empty.2] at mem
    cases mem
  · intro done
    rw [show corpus.done = true from done] at building
    cases building

theorem CorpusInv.check
    (distinct : (rows.map fun row => row.id).Nodup) (standing : corpus.stage = .checking record) :
    CorpusInv rows (corpus.check rows record) := by
  have building : corpus.done = false := inv.building (by rw [standing]; trivial)
  have sound := inv.stage
  rw [standing] at sound
  unfold RoomCorpus.check
  split_ifs with covers
  · obtain ⟨takes, all⟩ := takes_addAll inv.entries (RecordInv.entries sound).held
    have taken := inv.takes takes
    obtain ⟨entries, lastLamport, same⟩ := takes.same
    refine taken.moves (by rw [same]; exact building) ?_
    intro row mem accepted low
    obtain ⟨stored, found, id, lamport, held, -⟩ := begun_covered taken mem accepted
    have inside := covers_below distinct sound covers stored found held (by rw [lamport]; exact low)
    obtain ⟨entry, there, sameId⟩ := List.mem_map.mp inside
    have known := all entry there
    rw [← id, ← sameId]
    exact known
  · refine inv.moves building ?_
    intro row _ _
    exact Or.inr rfl

theorem CorpusInv.top {lastLamport : Nat} {counted : Bool}
    (standing : corpus.stage = .topping lastLamport counted) :
    CorpusInv rows { corpus with
      stage := .landing (getSearchableSince rows lastLamport corpus.ids) counted } := by
  have building : corpus.done = false := inv.building (by rw [standing]; trivial)
  have owes := inv.stage
  rw [standing] at owes
  refine inv.moves building ⟨?_, ?_⟩
  · intro msg mem
    obtain ⟨row, found, same, opens⟩ := of_mem_openAll mem
    rw [← same]
    refine ⟨row, (List.mem_filter.mp found).1, rfl, rfl, ?_⟩
    rw [Row.accepted, opens, Bool.true_and]
  · intro row mem accepted
    by_cases low : row.lamport < lastLamport
    · exact Or.inl (owes row mem accepted low)
    · by_cases known : row.id ∈ corpus.ids
      · exact Or.inl known
      · obtain ⟨stored, found, id, lamport, held, -⟩ := begun_covered inv mem accepted
        obtain ⟨readable, covered⟩ := Bool.and_eq_true_iff.mp held
        refine Or.inr ⟨stored.toMessage, mem_openAll ?_ readable, id, covered⟩
        refine List.mem_filter.mpr ⟨found, ?_⟩
        rw [id, lamport, covered]
        simp only [Bool.and_true, Bool.and_eq_true, decide_eq_true_eq]
        exact ⟨by omega, known⟩

theorem CorpusInv.land {since : List (Message Id)} {counted : Bool}
    (standing : corpus.stage = .landing since counted) :
    CorpusInv rows (corpus.land since counted) := by
  have owes := inv.stage
  rw [standing] at owes
  obtain ⟨takes, all⟩ := takes_addMessages inv.entries owes.1
  have taken := inv.takes takes
  have covered : ∀ row ∈ (corpus.addMessages since).1.begun, row.accepted = true →
      row.id ∈ (corpus.addMessages since).1.ids := by
    obtain ⟨entries, lastLamport, same⟩ := takes.same
    rw [same] at all ⊢
    intro row mem accepted
    rcases owes.2 row mem accepted with known | ⟨msg, found, id, covered⟩
    · have more := takes.more known
      rw [same] at more
      exact more
    · rw [← id]
      exact all msg found covered
  exact ⟨taken.entries, taken.begun, taken.begunOnce, taken.stored, taken.base, taken.addedOnce,
    taken.added, fun _ => covered, nofun, fun _ => rfl, trivial, taken.putting⟩

theorem CorpusInv.page {before : Option (Message Id)}
    (distinct : (rows.map fun row => row.id).Nodup) (standing : corpus.stage = .sweeping before)
    (opens : (getMessages rows before).2 = true → (getMessages rows before).1 ≠ []) :
    CorpusInv rows { corpus with
      stage := .paging (getMessages rows before).1 (getMessages rows before).2 } := by
  have building : corpus.done = false := inv.building (by rw [standing]; trivial)
  have owes := inv.stage
  rw [standing] at owes
  refine inv.moves building ⟨?_, ?_⟩
  · intro msg mem
    have opened : msg ∈ openAll (pageRows rows before).reverse := mem
    obtain ⟨row, found, same, readable⟩ := of_mem_openAll opened
    rw [← same]
    refine ⟨row, ?_, rfl, rfl, ?_⟩
    · have walked := mem_of_mem_take (mem_reverse.mp found)
      rw [mem_insertionSort] at walked
      exact (List.mem_filter.mp (List.mem_filter.mp walked).1).1
    · rw [Row.accepted, readable, Bool.true_and]
  · intro row mem accepted
    rcases owes row mem accepted with known | below
    · exact Or.inl known
    · refine Or.inr ?_
      obtain ⟨stored, found, id, lamport, held, same⟩ := begun_covered inv mem accepted
      have storedBelow : isBefore before stored = true := by
        unfold isBefore at below ⊢
        cases before with
        | none => rfl
        | some cursor =>
          rw [same]
          exact below
      rw [← same]
      rcases page_owes distinct opens found held storedBelow with onPage | older
      · exact Or.inl ⟨stored.toMessage, onPage, id, (Bool.and_eq_true_iff.mp held).2⟩
      · exact Or.inr older

theorem CorpusInv.landPage {msgs : List (Message Id)} {capped : Bool}
    (standing : corpus.stage = .paging msgs capped) :
    CorpusInv rows (corpus.landPage msgs capped) := by
  have building : corpus.done = false := inv.building (by rw [standing]; trivial)
  have owes := inv.stage
  rw [standing] at owes
  unfold RoomCorpus.landPage
  cases msgs with
  | nil =>
    apply inv.finishes
    intro row mem accepted
    rcases owes.2 row mem accepted with known | ⟨msg, found, -⟩ | ⟨-, oldest, first, -⟩
    · exact known
    · cases found
    · cases first
  | cons oldest rest =>
    obtain ⟨takes, all⟩ := takes_addMessages inv.entries owes.1
    have taken := inv.takes takes
    have covered : ∀ row ∈ (corpus.addMessages (oldest :: rest)).1.begun,
        row.accepted = true → row.id ∈ (corpus.addMessages (oldest :: rest)).1.ids ∨
          capped = true ∧ place row.toMessage < place oldest := by
      obtain ⟨entries, lastLamport, same⟩ := takes.same
      have more := takes.more
      rw [same] at all more ⊢
      intro row mem accepted
      rcases owes.2 row mem accepted with known | ⟨msg, found, id, covered⟩ |
        ⟨isCapped, first, head, older⟩
      · exact Or.inl (more known)
      · rw [← id]
        exact Or.inl (all msg found covered)
      · cases head
        exact Or.inr ⟨isCapped, older⟩
    dsimp only
    split_ifs with isCapped
    · refine taken.moves ?_ ?_
      · obtain ⟨entries, lastLamport, same⟩ := takes.same
        rw [same]
        exact building
      · intro row mem accepted
        exact (covered row mem accepted).imp id fun older => decide_eq_true older.2
    · apply taken.finishes
      intro row mem accepted
      rcases covered row mem accepted with known | ⟨full, -⟩
      · exact known
      · exact absurd full isCapped

theorem CorpusInv.endSave : CorpusInv rows corpus.endSave := by
  unfold RoomCorpus.endSave
  split
  case h_1 =>
    exact ⟨inv.entries, inv.begun, inv.begunOnce, inv.stored, inv.base, inv.addedOnce, inv.added,
      inv.done, nofun, nofun, trivial, nofun⟩
  case h_2 other =>
    have stage : StageInv rows { corpus with save := none } corpus.stage := by
      have old := inv.stage
      cases standing : corpus.stage <;> rw [standing] at old <;> exact old
    exact ⟨inv.entries, inv.begun, inv.begunOnce, inv.stored, inv.base, inv.addedOnce, inv.added,
      inv.done, inv.building, nofun, stage, nofun⟩

theorem CorpusInv.failSave : CorpusInv rows corpus.failSave := by
  unfold RoomCorpus.failSave
  split
  · exact (inv.dirtied true).endSave
  · exact inv.endSave

end

theorem CorpusInv.saves (save : Save Id) (inv : CorpusInv rows corpus) (done : corpus.done = true)
    (putting : ∀ record minRows ids, save = .putting record minRows ids → RecordInv rows record) :
    CorpusInv rows { corpus with save := some save } := by
  have stage : StageInv rows { corpus with save := some save } corpus.stage := by
    have old := inv.stage
    cases standing : corpus.stage <;> rw [standing] at old <;> exact old
  refine ⟨inv.entries, inv.begun, inv.begunOnce, inv.stored, inv.base, inv.addedOnce, inv.added,
    inv.done, inv.building, fun _ => done, stage, ?_⟩
  intro record minRows ids found
  exact putting record minRows ids (Option.some.inj found)

section

variable (inv : CorpusInv rows corpus)
include inv

theorem CorpusInv.saveSearchIndexes : CorpusInv rows corpus.saveSearchIndexes := by
  unfold RoomCorpus.saveSearchIndexes
  split_ifs with due
  · simp only [Bool.and_eq_true] at due
    exact inv.saves _ due.1.1.2 nofun
  · exact inv

theorem seen_all (distinct : (rows.map fun row => row.id).Nodup) (done : corpus.done = true)
    (counted : corpus.base.isSome = true) (seen : rows.length = corpus.seen) :
    ∀ row ∈ rows, row.accepted = true → row.id ∈ corpus.ids := by
  obtain ⟨base, based⟩ := isSome_iff_exists.mp counted
  let known := corpus.begun.map (fun row => row.id) ++ corpus.added
  have once : known.Nodup := by
    rw [nodup_append]
    refine ⟨inv.begunOnce, inv.addedOnce, ?_⟩
    intro id begun other added same
    rw [← same] at added
    exact (inv.added id added).1 begun
  have inside : known ⊆ rows.map fun row => row.id := by
    intro id mem
    rcases mem_append.mp mem with begun | added
    · obtain ⟨row, found, same⟩ := List.mem_map.mp begun
      obtain ⟨stored, there, sameId, -, -⟩ := inv.begun row found
      exact List.mem_map.mpr ⟨stored, there, sameId.trans same⟩
    · obtain ⟨-, stored, there, sameId, -⟩ := inv.added id added
      exact List.mem_map.mpr ⟨stored, there, sameId⟩
  have lengths : (rows.map fun row => row.id).length ≤ known.length := by
    have total : corpus.seen = base.rows + corpus.added.length := by
      simp only [RoomCorpus.seen, based]
    have begun := (inv.base base based).1
    simp only [known, length_append, length_map]
    omega
  have same := (List.Nodup.subperm once inside).perm_of_length_le lengths
  intro row mem accepted
  rcases mem_append.mp (same.mem_iff.mpr (List.mem_map_of_mem mem)) with begun | added
  · obtain ⟨old, found, sameId⟩ := List.mem_map.mp begun
    obtain ⟨stored, there, storedId, -, storedAccepted⟩ := inv.begun old found
    have only := row_of_id distinct there mem (storedId.trans sameId)
    rw [← sameId]
    apply inv.done done old found
    rw [← storedAccepted, only]
    exact accepted
  · obtain ⟨-, stored, there, storedId, covered⟩ := inv.added row.id added
    have only := row_of_id distinct there mem storedId
    apply covered
    rw [only]
    exact accepted

theorem CorpusInv.countSave {lastLamport : Nat} (distinct : (rows.map fun row => row.id).Nodup)
    (saving : corpus.save = some (.counting lastLamport)) :
    CorpusInv rows (corpus.countSave rows lastLamport) := by
  have done : corpus.done = true := by
    apply inv.saving
    rw [saving]
    nofun
  unfold RoomCorpus.countSave
  dsimp only
  split_ifs with fewer counted
  · exact (inv.dirtied false).endSave
  · refine (inv.dirtied false).saves _ done ?_
    intro record minRows ids same
    cases same
    refine ⟨inv.entries, ?_⟩
    intro rowsBelow found
    cases found
    have below : (countRoomRows rows lastLamport).below = countBelow rows lastLamport :=
      count_rows_below rows lastLamport
    rw [below]
    refine ⟨Nat.le_refl _, ?_⟩
    intro _ row mem accepted _
    exact seen_all inv distinct done counted.1 counted.2 row mem accepted
  · refine (inv.dirtied false).saves _ done ?_
    intro record minRows ids same
    cases same
    exact ⟨inv.entries, nofun⟩

theorem CorpusInv.ensured : CorpusInv rows corpus.ensureRoomCorpus := by
  unfold RoomCorpus.ensureRoomCorpus
  split_ifs with busy
  · exact inv
  · simp only [Bool.or_eq_true, not_or, Bool.not_eq_true] at busy
    exact ⟨inv.entries, inv.begun, inv.begunOnce, inv.stored, nofun, nodup_nil, nofun,
      inv.done, fun _ => busy.1, inv.saving, ⟨rfl, rfl⟩, inv.putting⟩

end

theorem CorpusInv.fresh (rows : List (Row Id)) :
    CorpusInv rows (RoomCorpus.fresh : RoomCorpus Id) :=
  ⟨⟨nodup_nil, nofun⟩, nofun, nodup_nil, nofun, nofun, nodup_nil, nofun, nofun,
    nofun, fun save => absurd rfl save, trivial, nofun⟩

theorem CorpusInv.failBuild {corpus next : RoomCorpus Id} (inv : CorpusInv rows corpus)
    (failed : corpus.failBuild = some next) :
    CorpusInv rows next := by
  unfold RoomCorpus.failBuild at failed
  split at failed
  · cases failed
  · cases failed
  · cases failed
    exact ⟨inv.entries, inv.begun, inv.begunOnce, inv.stored, inv.base, inv.addedOnce, inv.added,
      inv.done, nofun, inv.saving, trivial, inv.putting⟩

theorem CorpusInv.advance {sealed : Option (SearchIndexRecord Id)}
    {corpus next : RoomCorpus Id} (inv : CorpusInv rows corpus)
    (distinct : (rows.map fun row => row.id).Nodup)
    (sound : ∀ record, sealed = some record → RecordInv rows record)
    (steady : match corpus.stage with
      | .sweeping before =>
        (getMessages rows before).2 = true → (getMessages rows before).1 ≠ []
      | _ => True)
    (advanced : corpus.advance rows sealed = some next) : CorpusInv rows next := by
  unfold RoomCorpus.advance at advanced
  cases standing : corpus.stage with
  | idle | saving =>
    rw [standing] at advanced
    cases advanced
  | counting =>
    rw [standing] at advanced
    cases advanced
    exact inv.countBase distinct standing
  | looking =>
    rw [standing] at advanced
    cases advanced
    have building : corpus.done = false := inv.building (by rw [standing]; trivial)
    unfold RoomCorpus.look
    cases sealed with
    | none => exact inv.moves building fun row _ _ => Or.inr rfl
    | some record => exact inv.moves building (sound record rfl)
  | checking record =>
    rw [standing] at advanced
    cases advanced
    exact inv.check distinct standing
  | topping lastLamport counted =>
    rw [standing] at advanced
    cases advanced
    exact inv.top standing
  | landing since counted =>
    rw [standing] at advanced
    cases advanced
    exact inv.land standing
  | sweeping before =>
    rw [standing] at advanced steady
    cases advanced
    exact inv.page distinct standing steady
  | paging msgs capped =>
    rw [standing] at advanced
    cases advanced
    exact inv.landPage standing

structure TabInv (rows : List (Row Id)) (tab : Tab Id) : Prop where
  pending : ∀ msg ∈ tab.pending, MessageHeld rows msg
  corpus : ∀ corpus, tab.corpus = some corpus → CorpusInv rows corpus

structure Inv (state : State Id) : Prop where
  sealed : ∀ record, state.sealed = some record → RecordInv state.storage.rows record
  tabs : ∀ tab, TabInv state.storage.rows (state.tabs tab)

theorem Inv.start (storage : Storage Id) : Inv (State.start storage) :=
  ⟨nofun, fun _ => ⟨nofun, nofun⟩⟩

theorem TabInv.grows {rows later : List (Row Id)} {tab : Tab Id} (inv : TabInv rows tab)
    (grows : Grows rows later) : TabInv later tab :=
  ⟨fun msg mem => (inv.pending msg mem).grows grows,
    fun corpus found => (inv.corpus corpus found).grows grows⟩

theorem Inv.setTab (inv : Inv state) (tab : Nat) {next : Tab Id}
    (own : TabInv state.storage.rows next) : Inv (state.setTab tab next) := by
  refine ⟨inv.sealed, ?_⟩
  intro other
  by_cases same : other = tab
  · subst same
    simpa only [State.setTab, Function.update_self] using own
  · simpa only [State.setTab, Function.update_of_ne same] using inv.tabs other

theorem Inv.setCorpus (inv : Inv state) (tab : Nat)
    (own : CorpusInv state.storage.rows corpus) : Inv (state.setCorpus tab corpus) := by
  refine inv.setTab tab ⟨(inv.tabs tab).pending, ?_⟩
  intro other found
  cases found
  exact own

theorem Inv.store (inv : Inv state) (tab : Nat) (keeps : state.storage.Keeps ⟨msg, true⟩) :
    Inv (State.setTab { state with storage := state.storage.put ⟨msg, true⟩ } tab
      { state.tabs tab with pending := msg :: (state.tabs tab).pending }) := by
  have grows := put_grows keeps
  have grown : Inv { state with storage := state.storage.put ⟨msg, true⟩ } :=
    ⟨fun record found => (inv.sealed record found).grows grows,
      fun other => (inv.tabs other).grows grows⟩
  refine grown.setTab tab ⟨?_, (grown.tabs tab).corpus⟩
  intro other mem
  rcases mem_cons.mp mem with same | old
  · rw [same]
    exact ⟨⟨msg, true⟩, mem_cons_self, rfl, rfl, rfl⟩
  · exact (grown.tabs tab).pending other old

theorem Inv.put (inv : Inv state) (sound : RecordInv state.storage.rows record) (minRows : Nat)
    (ids : List Id) :
    Inv (state.putSearchIndex record minRows ids) ∧
      (state.putSearchIndex record minRows ids).storage = state.storage := by
  unfold State.putSearchIndex
  dsimp only
  split_ifs
  · refine ⟨⟨?_, inv.tabs⟩, rfl⟩
    intro other found
    cases found
    exact sound
  · exact ⟨inv, rfl⟩

theorem Inv.step {state next : State Id} {event : Event Id} (inv : Inv state)
    (steady : Steady state event) (stepped : step state event = some next) : Inv next := by
  have distinct := state.storage.distinct
  cases event with
  | store tab msg =>
    cases stepped
    exact inv.store tab steady
  | notify tab msg =>
    simp only [Search.step] at stepped
    split_ifs at stepped with pending
    cases stepped
    have held := (inv.tabs tab).pending msg pending
    refine inv.setTab tab ⟨?_, ?_⟩
    · intro other mem
      exact (inv.tabs tab).pending other (mem_of_mem_erase mem)
    · intro corpus found
      obtain ⟨old, stood, same⟩ := map_eq_some_iff.mp found
      rw [← same]
      exact ((inv.tabs tab).corpus old stood).onStored distinct held
  | ensureRoomCorpus tab =>
    cases stepped
    apply inv.setCorpus tab
    cases found : (state.tabs tab).corpus with
    | none => exact (CorpusInv.fresh _).ensured
    | some corpus => exact ((inv.tabs tab).corpus corpus found).ensured
  | advance tab =>
    simp only [Search.step] at stepped
    obtain ⟨corpus, found, moved⟩ := bind_eq_some_iff.mp stepped
    obtain ⟨later, advanced, same⟩ := map_eq_some_iff.mp moved
    cases same
    apply inv.setCorpus tab
    exact ((inv.tabs tab).corpus corpus found).advance distinct inv.sealed
      (steady corpus found) advanced
  | failBuild tab =>
    simp only [Search.step] at stepped
    obtain ⟨corpus, found, moved⟩ := bind_eq_some_iff.mp stepped
    obtain ⟨later, failed, same⟩ := map_eq_some_iff.mp moved
    cases same
    exact inv.setCorpus tab (((inv.tabs tab).corpus corpus found).failBuild failed)
  | saveSearchIndexes tab =>
    simp only [Search.step] at stepped
    obtain ⟨corpus, found, same⟩ := map_eq_some_iff.mp stepped
    cases same
    exact inv.setCorpus tab ((inv.tabs tab).corpus corpus found).saveSearchIndexes
  | countSave tab =>
    simp only [Search.step] at stepped
    cases found : (state.tabs tab).corpus with
    | none =>
      rw [found] at stepped
      cases stepped
    | some corpus =>
      rw [found] at stepped
      dsimp only at stepped
      split at stepped
      case h_1 lastLamport saving =>
        cases stepped
        exact inv.setCorpus tab
          (((inv.tabs tab).corpus corpus found).countSave distinct saving)
      case h_2 => cases stepped
  | putSave tab =>
    simp only [Search.step] at stepped
    cases found : (state.tabs tab).corpus with
    | none =>
      rw [found] at stepped
      cases stepped
    | some corpus =>
      rw [found] at stepped
      dsimp only at stepped
      split at stepped
      case h_1 record minRows ids saving =>
        cases stepped
        have own := (inv.tabs tab).corpus corpus found
        obtain ⟨put, same⟩ := inv.put (own.putting record minRows ids saving) minRows ids
        apply put.setCorpus tab
        rw [same]
        exact own.endSave
      case h_2 => cases stepped
  | failSave tab =>
    simp only [Search.step] at stepped
    obtain ⟨corpus, found, moved⟩ := bind_eq_some_iff.mp stepped
    split_ifs at moved
    cases moved
    exact inv.setCorpus tab ((inv.tabs tab).corpus corpus found).failSave
  | newSession tab =>
    cases stepped
    exact inv.setTab tab ⟨(inv.tabs tab).pending, nofun⟩

theorem Inv.complete (inv : Inv state) : Complete state := by
  constructor
  · intro tab corpus found _
    exact ((inv.tabs tab).corpus corpus found).entries.once
  · intro tab corpus found done
    exact ((inv.tabs tab).corpus corpus found).done done
  · intro tab corpus found _
    exact ((inv.tabs tab).corpus corpus found).stored
  · intro record found counted row mem accepted
    rw [count_rows_below] at counted
    by_cases low : row.lamport < record.lastLamport
    · exact Or.inl (((inv.sealed record found).below _ counted).2 rfl row mem accepted low)
    · exact Or.inr (by omega)

theorem steady_runs_keep_corpora_complete (storage : Storage Id) (events : List (Event Id))
    (final : State Id) (steady : Meets step Steady (State.start storage) events)
    (ran : run step (State.start storage) events = some final) : Complete final :=
  (run_keeps (fun _ _ _ inv meets stepped => Inv.step inv meets stepped) (Inv.start storage)
    steady ran).complete

end Reading

instance (state : State Nat) (event : Event Nat) : Decidable (Steady state event) :=
  match event with
  | .store _ msg => inferInstanceAs (Decidable (state.storage.Keeps ⟨msg, true⟩))
  | .advance tab =>
    match found : (state.tabs tab).corpus with
    | none => isTrue (by simp [Steady, found])
    | some corpus =>
      match standing : corpus.stage with
      | .sweeping before =>
        decidable_of_iff ((getMessages state.storage.rows before).2 = true →
          (getMessages state.storage.rows before).1 ≠ []) (by simp [Steady, found, standing])
      | .idle => isTrue (by simp [Steady, found, standing])
      | .counting => isTrue (by simp [Steady, found, standing])
      | .looking => isTrue (by simp [Steady, found, standing])
      | .checking _ => isTrue (by simp [Steady, found, standing])
      | .topping _ _ => isTrue (by simp [Steady, found, standing])
      | .landing _ _ => isTrue (by simp [Steady, found, standing])
      | .paging _ _ => isTrue (by simp [Steady, found, standing])
      | .saving => isTrue (by simp [Steady, found, standing])
  | .notify _ _ | .ensureRoomCorpus _ | .failBuild _ | .saveSearchIndexes _ | .countSave _
  | .putSave _ | .failSave _ | .newSession _ => isTrue trivial

def doneIds (state : State Nat) (tab : Nat) : Option (List Nat) :=
  (state.tabs tab).corpus.bind fun corpus => if corpus.done then some corpus.ids else none

def sampleStorage : Storage Nat :=
  ⟨[⟨⟨1, 1, .text⟩, true⟩, ⟨⟨2, 2, .reaction⟩, true⟩, ⟨⟨3, 2, .file⟩, true⟩], by decide⟩

def sampleEvents : List (Event Nat) :=
  [.ensureRoomCorpus 0, .advance 0, .advance 0, .advance 0, .advance 0, .countSave 0, .putSave 0,
    .store 1 ⟨4, 2, .reply⟩, .newSession 0, .ensureRoomCorpus 0, .advance 0, .advance 0,
    .advance 0, .advance 0, .store 0 ⟨5, 3, .text⟩, .notify 0 ⟨5, 3, .text⟩, .advance 0]

theorem sample_complete : ∃ final, run step (State.start sampleStorage) sampleEvents = some final ∧
    doneIds final 0 = some [1, 3, 5, 4] ∧ Complete final := by
  have sampled : ((run step (State.start sampleStorage) sampleEvents).map fun final =>
      decide (doneIds final 0 = some [1, 3, 5, 4])) = some true := by
    decide +kernel
  obtain ⟨final, ran, shape⟩ := map_eq_some_iff.mp sampled
  have steady : Meets step Steady (State.start sampleStorage) sampleEvents := by decide +kernel
  exact ⟨final, ran, of_decide_eq_true shape,
    steady_runs_keep_corpora_complete sampleStorage sampleEvents final steady ran⟩

def unreadableStorage : Storage Nat :=
  ⟨(List.range 51).map fun place => ⟨⟨place, place, .text⟩, decide (place = 0)⟩, by decide +kernel⟩

def unreadableEvents : List (Event Nat) :=
  [.ensureRoomCorpus 0, .advance 0, .advance 0, .advance 0, .advance 0]

def lonelyStorage : Storage Nat := ⟨[⟨⟨1, 5, .text⟩, true⟩], by decide⟩

def restoredEvents : List (Event Nat) :=
  [.ensureRoomCorpus 0, .advance 0, .advance 0, .advance 0, .advance 0, .countSave 0, .putSave 0,
    .store 0 ⟨1, 10, .text⟩, .notify 0 ⟨1, 10, .text⟩, .store 1 ⟨2, 3, .text⟩,
    .store 0 ⟨3, 11, .text⟩, .notify 0 ⟨3, 11, .text⟩, .saveSearchIndexes 0, .countSave 0,
    .putSave 0]

theorem runs_reach_incomplete_corpora :
    (∃ final, run step (State.start unreadableStorage) unreadableEvents = some final ∧
      ¬Complete final) ∧
      ∃ final, run step (State.start lonelyStorage) restoredEvents = some final ∧
        ¬Complete final := by
  constructor
  · have reached : ((run step (State.start unreadableStorage) unreadableEvents).bind fun final =>
        (final.tabs 0).corpus.map fun corpus => decide (corpus.done = true ∧
          ∃ row ∈ corpus.begun, row.accepted = true ∧ row.id ∉ corpus.ids)) = some true := by
      decide +kernel
    obtain ⟨final, ran, shows⟩ := bind_eq_some_iff.mp reached
    obtain ⟨corpus, found, lacks⟩ := map_eq_some_iff.mp shows
    obtain ⟨done, row, begun, accepted, missing⟩ := of_decide_eq_true lacks
    exact ⟨final, ran, fun complete => missing (complete.begun 0 corpus found done row begun accepted)⟩
  · have reached : ((run step (State.start lonelyStorage) restoredEvents).bind fun final =>
        final.sealed.map fun record => decide (record.rowsBelow =
          some (countRowsBelow final.storage.rows record.lastLamport) ∧
            ∃ row ∈ final.storage.rows, row.accepted = true ∧
              row.id ∉ record.data.map (fun entry => entry.id) ∧
                row.lamport < record.lastLamport)) = some true := by
      decide +kernel
    obtain ⟨final, ran, shows⟩ := bind_eq_some_iff.mp reached
    obtain ⟨record, found, lacks⟩ := map_eq_some_iff.mp shows
    obtain ⟨counted, row, mem, accepted, missing, low⟩ := of_decide_eq_true lacks
    refine ⟨final, ran, ?_⟩
    intro complete
    rcases complete.sealed record found counted row mem accepted with there | high
    · exact missing there
    · omega

end AwfulChat.Search
