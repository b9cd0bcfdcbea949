import AwfulChat.Library.OrderedMap
import AwfulChat.RoomNames
import Mathlib.Order.WithBot

/-!
# Merging an imported room

`mergeImportedRoom` of `backup.ts`: the record of a room from a backup or another device, over the
one that is stored. Numbers are finite, but for the earliest of no times.
-/

namespace AwfulChat.RoomMerge

open Library RoomNames Library.OrderedMap List Option

set_option autoImplicit false

inductive RoomType
  | text
  | dm
  deriving DecidableEq

structure DmPqState where
  ct : Text
  ek : Text
  deriving DecidableEq

/-- A row of `rooms`, with the fields of `DMRoom`. Rows of older builds lack some that the type
demands. -/
@[ext]
structure Room where
  roomCode : Text
  roomSecret : Option Text
  type : RoomType
  name : Text
  lastSeenLamport : Option ℚ
  seenAt : Option ℚ
  createdAt : Option (WithTop ℚ)
  pfpData : Option Library.Bytes
  pfpURL : Option Text
  participants : Option (List Text)
  participantLastSeen : Option (OrderedMap Text ℚ)
  pinnedAt : Option ℚ
  position : Option ℚ
  pinnedMessages : Option (List Text)
  archiveOf : Option Text
  movedTo : Option Text
  nameAt : Option ℚ
  participantDid : Option Text
  pq : Option DmPqState
  request : Option Bool

def Room.named (room : Room) : NamedRoom := ⟨room.name, room.nameAt⟩

/-- A secret that is there and not empty. -/
def given (secret : Option Text) : Bool := decide (secret.getD [] ≠ [])

def union (left right : Option (List Text)) : List Text :=
  (left.getD [] ++ right.getD []).eraseDups

def entriesOf (seen : Option (OrderedMap Text ℚ)) : List (Text × ℚ) :=
  (seen.map OrderedMap.entries).getD []

def raiseSeen (seen : OrderedMap Text ℚ) (entry : Text × ℚ) : OrderedMap Text ℚ :=
  seen.set entry.1 (max ((seen.get entry.1).getD 0) entry.2)

def mergeLastSeen (left right : Option (OrderedMap Text ℚ)) : OrderedMap Text ℚ :=
  (entriesOf right).foldl raiseSeen (OrderedMap.collect (entriesOf left))

/-- Whether a stored room has a name of its own. -/
def Room.hasName (room : Room) : Bool :=
  decide (room.name ≠ []) && decide (room.name ≠ room.roomCode)

def createdAtOf (localRoom imported : Room) : WithTop ℚ :=
  if localRoom.type = .text then max (localRoom.createdAt.getD 0) (imported.createdAt.getD 0)
  else min (localRoom.createdAt.getD ⊤) (imported.createdAt.getD ⊤)

/-- Two capabilities that differ. -/
def conflicts (localRoom imported : Room) : Bool :=
  given localRoom.roomSecret && given imported.roomSecret &&
    decide (localRoom.roomSecret ≠ imported.roomSecret)

def mergedRoom (localRoom imported : Room) : Room :=
  { imported with
    roomSecret :=
      if given localRoom.roomSecret || given imported.roomSecret then
        localRoom.roomSecret.or imported.roomSecret
      else imported.roomSecret
    pq := if localRoom.pq.isSome || imported.pq.isSome then localRoom.pq.or imported.pq else imported.pq
    lastSeenLamport :=
      some (max (localRoom.lastSeenLamport.getD 0) (imported.lastSeenLamport.getD 0))
    createdAt := some (createdAtOf localRoom imported)
    participants := some (union localRoom.participants imported.participants)
    participantLastSeen :=
      some (mergeLastSeen localRoom.participantLastSeen imported.participantLastSeen)
    name := if localRoom.hasName then localRoom.name else imported.name
    pinnedAt := localRoom.pinnedAt.or imported.pinnedAt
    position := localRoom.position.or imported.position
    pinnedMessages := some (union localRoom.pinnedMessages imported.pinnedMessages) }

/-- Nothing when it throws. -/
def mergeImportedRoom (localRoom imported : Room) : Option Room :=
  if conflicts localRoom imported then none else some (mergedRoom localRoom imported)

section Lossless

/-- A name that `room-name.ts` keeps over another: a chosen one over one that nobody chose, else the
newer, and of two of one instant the greater. -/
def Keeps (roomCode : Text) (kept other : NamedRoom) : Prop :=
  isChosenName roomCode other = true →
    isChosenName roomCode kept = true ∧ (rank roomCode other).Le (rank roomCode kept)

/-- What only the first record has is in the merged one. -/
def Carried {Value : Type} (localRoom imported merged : Option Value) : Prop :=
  imported = none → localRoom ≠ none → merged = localRoom

def Bounded {Value : Type} [LE Value] (value bound : Option Value) : Prop :=
  ∀ found, value = some found → ∃ upper, bound = some upper ∧ found ≤ upper

def seenOf (room : Room) (did : Text) : Option ℚ :=
  room.participantLastSeen.bind fun seen => seen.get did

/-- Every optional field that only the stored record has; a name and its stamp are one thing. -/
structure FieldsCarried (localRoom imported merged : Room) : Prop where
  roomSecret : Carried localRoom.roomSecret imported.roomSecret merged.roomSecret
  seenAt : Carried localRoom.seenAt imported.seenAt merged.seenAt
  pfpData : Carried localRoom.pfpData imported.pfpData merged.pfpData
  pfpURL : Carried localRoom.pfpURL imported.pfpURL merged.pfpURL
  participantLastSeen : Carried localRoom.participantLastSeen imported.participantLastSeen
    merged.participantLastSeen
  pinnedAt : Carried localRoom.pinnedAt imported.pinnedAt merged.pinnedAt
  position : Carried localRoom.position imported.position merged.position
  pinnedMessages : Carried localRoom.pinnedMessages imported.pinnedMessages merged.pinnedMessages
  archiveOf : Carried localRoom.archiveOf imported.archiveOf merged.archiveOf
  movedTo : Carried localRoom.movedTo imported.movedTo merged.movedTo
  participantDid : Carried localRoom.participantDid imported.participantDid merged.participantDid
  pq : Carried localRoom.pq imported.pq merged.pq
  request : Carried localRoom.request imported.request merged.request

structure Grown (room merged : Room) : Prop where
  lastSeenLamport : Bounded room.lastSeenLamport merged.lastSeenLamport
  participantLastSeen : ∀ did, Bounded (seenOf room did) (seenOf merged did)
  participants : room.participants.getD [] ⊆ merged.participants.getD []
  pinnedMessages : room.pinnedMessages.getD [] ⊆ merged.pinnedMessages.getD []

structure Lossless (localRoom imported merged : Room) : Prop where
  named : (merged.named = localRoom.named ∧ Keeps localRoom.roomCode localRoom.named imported.named) ∨
    (merged.named = imported.named ∧ Keeps localRoom.roomCode imported.named localRoom.named)
  fields : FieldsCarried localRoom imported merged
  grownLocal : Grown localRoom merged
  grownImported : Grown imported merged
  created : localRoom.type = .text →
    merged.createdAt = some (max (localRoom.createdAt.getD 0) (imported.createdAt.getD 0))
  again : mergeImportedRoom merged imported = some merged

/-- Of the fields taken from the import alone the stored record has none that the import lacks. -/
structure FieldsShared (localRoom imported : Room) : Prop where
  roomSecret : imported.roomSecret = none → localRoom.roomSecret ≠ some []
  seenAt : imported.seenAt = none → localRoom.seenAt = none
  pfpData : imported.pfpData = none → localRoom.pfpData = none
  pfpURL : imported.pfpURL = none → localRoom.pfpURL = none
  pinnedMessages : imported.pinnedMessages = none → (localRoom.pinnedMessages.getD []).Nodup
  archiveOf : imported.archiveOf = none → localRoom.archiveOf = none
  movedTo : imported.movedTo = none → localRoom.movedTo = none
  participantDid : imported.participantDid = none → localRoom.participantDid = none
  request : imported.request = none → localRoom.request = none

/-- The stored room has no name of its own, or the name it keeps is right with the import's stamp. -/
def NameSettled (localRoom imported : Room) : Prop :=
  localRoom.hasName = true →
    (localRoom.nameAt = imported.nameAt ∧ Keeps localRoom.roomCode localRoom.named imported.named) ∨
      (localRoom.name = imported.name ∧ Keeps localRoom.roomCode imported.named localRoom.named)

/-- Rooms of one kind, or the stored time is not on the wrong side of the import's. -/
def TypesAgree (localRoom imported : Room) : Prop :=
  match localRoom.type, imported.type with
  | .text, .dm => localRoom.createdAt.getD 0 ≤ imported.createdAt.getD ⊤
  | .dm, .text => imported.createdAt.getD 0 ≤ localRoom.createdAt.getD ⊤
  | _, _ => True

end Lossless

section Proofs

theorem mem_union {left right : Option (List Text)} {item : Text} :
    item ∈ union left right ↔ item ∈ left.getD [] ∨ item ∈ right.getD [] := by
  unfold union
  rw [mem_eraseDups, mem_append]

theorem erase_dups_of_nodup {items : List Text} (distinct : items.Nodup) :
    items.eraseDups = items := by
  induction items with
  | nil => rfl
  | cons item rest ih =>
    obtain ⟨absent, others⟩ := nodup_cons.mp distinct
    have kept : rest.filter (fun other => !other == item) = rest := by
      rw [filter_eq_self]
      intro other mem
      have apart : other ≠ item := fun same => absent (same ▸ mem)
      simp [apart]
    rw [eraseDups_cons, kept, ih others]

theorem nodup_erase_dups (items : List Text) : items.eraseDups.Nodup := by
  induction items using List.reverseRecOn with
  | nil => exact nodup_nil
  | append_singleton rest item ih =>
    rw [eraseDups_append]
    by_cases mem : item ∈ rest
    · have nothing : [item].removeAll rest = [] := by simp [List.removeAll, mem]
      rw [nothing, eraseDups_nil, append_nil]
      exact ih
    · have whole : [item].removeAll rest = [item] := by simp [List.removeAll, mem]
      rw [whole, nodup_append]
      refine ⟨ih, by simp [eraseDups_cons], ?_⟩
      intro other listed last appended same
      rw [mem_eraseDups] at listed appended
      rw [mem_singleton] at appended
      exact mem (appended ▸ same ▸ listed)

theorem union_again (left right : Option (List Text)) :
    union (some (union left right)) right = union left right := by
  have inside : (right.getD []).removeAll (union left right) = [] := by
    unfold List.removeAll
    rw [filter_eq_nil_iff]
    intro item mem
    have there : item ∈ union left right := mem_union.mpr (Or.inr mem)
    simp [there]
  have distinct : (union left right).Nodup := nodup_erase_dups _
  have split : union (some (union left right)) right =
      (union left right).eraseDups ++ ((right.getD []).removeAll (union left right)).eraseDups :=
    eraseDups_append
  rw [split, inside, eraseDups_nil, append_nil]
  exact erase_dups_of_nodup distinct

variable {seen : OrderedMap Text ℚ}

theorem raised_above (entries : List (Text × ℚ)) (did : Text) :
    Bounded (seen.get did) ((entries.foldl raiseSeen seen).get did) := by
  induction entries generalizing seen with
  | nil => exact fun found stored => ⟨found, stored, le_refl _⟩
  | cons entry rest ih =>
    intro found stored
    have step : Bounded (seen.get did) ((raiseSeen seen entry).get did) := by
      intro before shown
      unfold raiseSeen
      rw [get_set]
      split_ifs with same
      · rw [← same, shown]
        exact ⟨_, rfl, le_max_left _ _⟩
      · exact ⟨before, shown, le_refl _⟩
    obtain ⟨middle, next, first⟩ := step found stored
    obtain ⟨upper, last, second⟩ := ih middle next
    exact ⟨upper, last, first.trans second⟩

theorem raised_entry {entries : List (Text × ℚ)} {entry : Text × ℚ} (mem : entry ∈ entries) :
    Bounded (some entry.2) ((entries.foldl raiseSeen seen).get entry.1) := by
  induction entries generalizing seen with
  | nil => cases mem
  | cons first rest ih =>
    rcases mem_cons.mp mem with rfl | later
    · rintro _ ⟨rfl⟩
      have written : (raiseSeen seen entry).get entry.1 =
          some (max ((seen.get entry.1).getD 0) entry.2) := get_set_self _ _ _
      obtain ⟨upper, last, second⟩ := raised_above rest entry.1 _ written
      exact ⟨upper, last, (le_max_right _ _).trans second⟩
    · exact ih later

theorem set_stored {did : Text} {value : ℚ}
    (stored : seen.get did = some value) : seen.set did value = seen := by
  obtain ⟨before, after, stands⟩ := stands_of_get stored
  have entries := (stands.set value).trans stands.split.symm
  cases written : seen.set did value
  cases seen
  simp only [written] at entries
  simp only [OrderedMap.mk.injEq]
  exact entries

theorem raised_again {entries : List (Text × ℚ)}
    (below : ∀ entry ∈ entries, Bounded (some entry.2) (seen.get entry.1)) :
    entries.foldl raiseSeen seen = seen := by
  induction entries with
  | nil => rfl
  | cons entry rest ih =>
    obtain ⟨upper, stored, order⟩ := below entry mem_cons_self entry.2 rfl
    have same : raiseSeen seen entry = seen := by
      unfold raiseSeen
      rw [stored, getD_some, max_eq_left order]
      exact set_stored stored
    rw [foldl_cons, same]
    exact ih fun other mem => below other (mem_cons_of_mem _ mem)

theorem collect_self (seen : OrderedMap Text ℚ) : OrderedMap.collect seen.entries = seen := by
  have entries := collect_entries seen.entries seen.distinct
  cases written : OrderedMap.collect seen.entries
  cases seen
  simp only [written] at entries
  simp only [OrderedMap.mk.injEq]
  exact entries

theorem last_seen_again (left right : Option (OrderedMap Text ℚ)) :
    mergeLastSeen (some (mergeLastSeen left right)) right = mergeLastSeen left right := by
  have start : OrderedMap.collect (entriesOf (some (mergeLastSeen left right))) =
      mergeLastSeen left right := collect_self _
  have split : mergeLastSeen (some (mergeLastSeen left right)) right = (entriesOf right).foldl
      raiseSeen (OrderedMap.collect (entriesOf (some (mergeLastSeen left right)))) := rfl
  rw [split, start]
  exact raised_again fun entry mem => raised_entry mem

variable {Value : Type}

theorem carried_import (stored imported : Option Value) :
    Carried stored imported imported ↔ (imported = none → stored = none) := by
  unfold Carried
  constructor
  · intro carried absent
    by_contra there
    have same := carried absent there
    exact there (same.symm.trans absent)
  · intro shared absent there
    exact absurd (shared absent) there

theorem carried_or (stored imported : Option Value) :
    Carried stored imported (stored.or imported) := by
  intro absent _
  rw [absent, or_none]

theorem carried_secret (stored imported : Option Text) :
    Carried stored imported
        (if given stored || given imported then stored.or imported else imported) ↔
      (imported = none → stored ≠ some []) := by
  unfold Carried
  refine imp_congr_right ?_
  rintro rfl
  cases stored with
  | none => simp
  | some secret =>
    by_cases filled : secret = []
    · simp [given, filled]
    · simp [given, filled]

theorem carried_pq (stored imported : Option DmPqState) :
    Carried stored imported
      (if stored.isSome || imported.isSome then stored.or imported else imported) := by
  rintro rfl there
  obtain ⟨state, rfl⟩ := ne_none_iff_exists'.mp there
  rfl

theorem carried_seen (stored imported : Option (OrderedMap Text ℚ)) :
    Carried stored imported (some (mergeLastSeen stored imported)) := by
  rintro rfl there
  obtain ⟨seen, rfl⟩ := ne_none_iff_exists'.mp there
  exact congrArg some (collect_self seen)

theorem carried_union (stored imported : Option (List Text)) :
    Carried stored imported (some (union stored imported)) ↔
      (imported = none → (stored.getD []).Nodup) := by
  unfold Carried
  refine imp_congr_right ?_
  rintro rfl
  cases stored with
  | none => simp
  | some items =>
    unfold union
    rw [getD_some, getD_none, append_nil]
    constructor
    · intro same
      rw [← Option.some.inj (same (by simp))]
      exact nodup_erase_dups items
    · intro distinct _
      rw [erase_dups_of_nodup distinct]

theorem bounded_max (stored imported : Option ℚ) :
    Bounded stored (some (max (stored.getD 0) (imported.getD 0))) ∧
      Bounded imported (some (max (stored.getD 0) (imported.getD 0))) := by
  constructor
  · rintro found rfl
    exact ⟨_, rfl, le_max_left _ _⟩
  · rintro found rfl
    exact ⟨_, rfl, le_max_right _ _⟩

end Proofs

section Merged

variable {localRoom imported : Room}

theorem merged_fields : FieldsCarried localRoom imported (mergedRoom localRoom imported) ↔
    FieldsShared localRoom imported := by
  constructor
  · intro carried
    exact {
      roomSecret := (carried_secret _ _).mp carried.roomSecret
      seenAt := (carried_import _ _).mp carried.seenAt
      pfpData := (carried_import _ _).mp carried.pfpData
      pfpURL := (carried_import _ _).mp carried.pfpURL
      pinnedMessages := (carried_union _ _).mp carried.pinnedMessages
      archiveOf := (carried_import _ _).mp carried.archiveOf
      movedTo := (carried_import _ _).mp carried.movedTo
      participantDid := (carried_import _ _).mp carried.participantDid
      request := (carried_import _ _).mp carried.request }
  · intro shared
    exact {
      roomSecret := (carried_secret _ _).mpr shared.roomSecret
      seenAt := (carried_import _ _).mpr shared.seenAt
      pfpData := (carried_import _ _).mpr shared.pfpData
      pfpURL := (carried_import _ _).mpr shared.pfpURL
      participantLastSeen := carried_seen _ _
      pinnedAt := carried_or _ _
      position := carried_or _ _
      pinnedMessages := (carried_union _ _).mpr shared.pinnedMessages
      archiveOf := (carried_import _ _).mpr shared.archiveOf
      movedTo := (carried_import _ _).mpr shared.movedTo
      participantDid := (carried_import _ _).mpr shared.participantDid
      pq := carried_pq _ _
      request := (carried_import _ _).mpr shared.request }

theorem merged_name :
    (((mergedRoom localRoom imported).named = localRoom.named ∧
        Keeps localRoom.roomCode localRoom.named imported.named) ∨
      ((mergedRoom localRoom imported).named = imported.named ∧
        Keeps localRoom.roomCode imported.named localRoom.named)) ↔
      NameSettled localRoom imported := by
  unfold NameSettled
  cases own : localRoom.hasName with
  | true =>
    have named : (mergedRoom localRoom imported).named = ⟨localRoom.name, imported.nameAt⟩ := by
      simp [mergedRoom, Room.named, own]
    rw [named]
    unfold Room.named
    simp only [NamedRoom.mk.injEq, true_and, and_true, forall_const]
    rw [eq_comm (a := localRoom.nameAt)]
  | false =>
    have named : (mergedRoom localRoom imported).named = imported.named := by
      simp [mergedRoom, Room.named, own]
    have unchosen : isChosenName localRoom.roomCode localRoom.named = false := by
      unfold Room.hasName at own
      unfold isChosenName Room.named
      rw [Bool.and_assoc, own, Bool.and_false]
    have keeps : Keeps localRoom.roomCode imported.named localRoom.named := by
      intro chosen
      rw [unchosen] at chosen
      cases chosen
    refine iff_of_true (Or.inr ⟨named, keeps⟩) ?_
    nofun

theorem merged_grown : Grown localRoom (mergedRoom localRoom imported) ∧
    Grown imported (mergedRoom localRoom imported) := by
  have lamports := bounded_max localRoom.lastSeenLamport imported.lastSeenLamport
  refine ⟨⟨lamports.1, ?_, ?_, ?_⟩, ⟨lamports.2, ?_, ?_, ?_⟩⟩
  · intro did found stored
    unfold seenOf at stored
    obtain ⟨seen, held, value⟩ := bind_eq_some_iff.mp stored
    have start : (OrderedMap.collect (entriesOf localRoom.participantLastSeen)).get did =
        some found := by
      rw [held]
      exact (congrArg (fun map => map.get did) (collect_self seen)).trans value
    exact raised_above _ did found start
  · intro did mem
    exact mem_union.mpr (Or.inl mem)
  · intro pin mem
    exact mem_union.mpr (Or.inl mem)
  · intro did found stored
    unfold seenOf at stored
    obtain ⟨seen, held, value⟩ := bind_eq_some_iff.mp stored
    have listed : (did, found) ∈ entriesOf imported.participantLastSeen := by
      rw [held]
      exact mem_of_get value
    exact raised_entry listed found rfl
  · intro did mem
    exact mem_union.mpr (Or.inr mem)
  · intro pin mem
    exact mem_union.mpr (Or.inr mem)

theorem secret_again (stored imported : Option Text) :
    (if given (if given stored || given imported then stored.or imported else imported) ||
        given imported then
      (if given stored || given imported then stored.or imported else imported).or imported
    else imported) = if given stored || given imported then stored.or imported else imported := by
  cases stored with
  | none => cases imported <;> simp
  | some mine =>
    cases imported with
    | none => by_cases filled : mine = [] <;> simp [given, filled]
    | some other => by_cases filled : mine = [] <;> by_cases full : other = [] <;>
        simp [given, filled, full]

theorem created_again : createdAtOf (mergedRoom localRoom imported) imported =
    createdAtOf localRoom imported ↔ TypesAgree localRoom imported := by
  have lower : imported.createdAt.getD 0 ≤ imported.createdAt.getD ⊤ := by
    cases imported.createdAt with
    | none => exact le_top
    | some time => exact le_refl _
  have kind : (mergedRoom localRoom imported).type = imported.type := rfl
  have time : (mergedRoom localRoom imported).createdAt = some (createdAtOf localRoom imported) :=
    rfl
  unfold TypesAgree
  conv_lhs => lhs; unfold createdAtOf
  rw [kind, time, getD_some, getD_some]
  unfold createdAtOf
  cases localRoom.type <;> cases imported.type
  · simp
  · simp only [reduceCtorEq, if_false, if_true]
    rw [min_eq_left_iff, max_le_iff, and_iff_left lower]
  · simp only [reduceCtorEq, if_false, if_true]
    rw [max_eq_left_iff, le_min_iff, and_iff_left lower]
  · simp

end Merged

section Result

variable {localRoom imported : Room}

theorem merge_of_no_conflict (free : conflicts localRoom imported = false) :
    mergeImportedRoom localRoom imported = some (mergedRoom localRoom imported) := by
  unfold mergeImportedRoom
  rw [free]
  rfl

theorem conflict_free_again (free : conflicts localRoom imported = false) :
    conflicts (mergedRoom localRoom imported) imported = false := by
  have secret : (mergedRoom localRoom imported).roomSecret =
    if given localRoom.roomSecret || given imported.roomSecret then
      localRoom.roomSecret.or imported.roomSecret
    else imported.roomSecret := rfl
  unfold conflicts at free ⊢
  rw [secret]
  generalize localRoom.roomSecret = mine at free
  generalize imported.roomSecret = other at free
  cases mine with
  | none => cases other <;> simp
  | some text =>
    cases other with
    | none => simp [given]
    | some found =>
      by_cases filled : text = []
      · by_cases full : found = [] <;> simp [given, filled, full]
      · by_cases full : found = []
        · simp [given, full]
        · have same : text = found := by simpa [given, filled, full] using free
          simp [same]

theorem name_again (sameCode : imported.roomCode = localRoom.roomCode) :
    (mergedRoom (mergedRoom localRoom imported) imported).name =
      (mergedRoom localRoom imported).name := by
  have split : (mergedRoom (mergedRoom localRoom imported) imported).name =
      if (mergedRoom localRoom imported).hasName then (mergedRoom localRoom imported).name
      else imported.name := rfl
  cases own : localRoom.hasName with
  | true =>
    have kept : (mergedRoom localRoom imported).name = localRoom.name := if_pos own
    have again : (mergedRoom localRoom imported).hasName = true := by
      have code : (mergedRoom localRoom imported).roomCode = localRoom.roomCode := sameCode
      unfold Room.hasName at own ⊢
      rw [kept, code]
      exact own
    rw [split, if_pos again]
  | false =>
    have taken : (mergedRoom localRoom imported).name = imported.name := if_neg (by simp [own])
    rw [split, taken, ite_self]

theorem lamport_again (stored imported : Option ℚ) :
    some (max ((some (max (stored.getD 0) (imported.getD 0))).getD 0) (imported.getD 0)) =
      some (max (stored.getD 0) (imported.getD 0)) := by
  rw [getD_some, max_assoc, max_self]

theorem or_again {Value : Type} (stored imported : Option Value) :
    (stored.or imported).or imported = stored.or imported := by
  rw [Option.or_assoc, Option.or_self]

theorem pq_again (stored imported : Option DmPqState) :
    (if (if stored.isSome || imported.isSome then stored.or imported else imported).isSome ||
        imported.isSome then
      (if stored.isSome || imported.isSome then stored.or imported else imported).or imported
    else imported) = if stored.isSome || imported.isSome then stored.or imported else imported := by
  cases stored <;> cases imported <;> rfl

theorem merged_again (sameCode : imported.roomCode = localRoom.roomCode) (free : conflicts localRoom imported = false) :
    mergeImportedRoom (mergedRoom localRoom imported) imported =
      some (mergedRoom localRoom imported) ↔ TypesAgree localRoom imported := by
  rw [merge_of_no_conflict (conflict_free_again free), Option.some.injEq, ← created_again]
  constructor
  · intro same
    exact Option.some.inj (congrArg Room.createdAt same)
  · intro created
    refine Room.ext rfl (secret_again _ _) rfl (name_again sameCode) (lamport_again _ _) rfl
      (congrArg some created) rfl rfl (congrArg some (union_again _ _))
      (congrArg some (last_seen_again _ _)) (or_again _ _) (or_again _ _)
      (congrArg some (union_again _ _)) rfl rfl rfl rfl (pq_again _ _) rfl

/-- Merging loses nothing and keeps the name that wins exactly when the import has every field the
stored record has that is taken from it alone, and the stamp of the name that is kept. -/
theorem merge_lossless_iff (localRoom imported : Room)
    (sameCode : imported.roomCode = localRoom.roomCode)
    (free : conflicts localRoom imported = false) :
    ∃ merged, mergeImportedRoom localRoom imported = some merged ∧
      (Lossless localRoom imported merged ↔ FieldsShared localRoom imported ∧
        NameSettled localRoom imported ∧ TypesAgree localRoom imported) := by
  refine ⟨mergedRoom localRoom imported, merge_of_no_conflict free, ?_⟩
  constructor
  · intro lossless
    exact ⟨merged_fields.mp lossless.fields, merged_name.mp lossless.named,
      (merged_again sameCode free).mp lossless.again⟩
  · rintro ⟨shared, settled, agree⟩
    refine ⟨merged_name.mpr settled, merged_fields.mpr shared, merged_grown.1, merged_grown.2, ?_,
      (merged_again sameCode free).mpr agree⟩
    intro text
    exact congrArg some (if_pos text)

def sampleRoom : Room where
  roomCode := [114]
  roomSecret := some [115]
  type := .text
  name := [76]
  lastSeenLamport := some 5
  seenAt := some 700
  createdAt := some 100
  pfpData := none
  pfpURL := none
  participants := some [[97]]
  participantLastSeen := none
  pinnedAt := none
  position := some 2
  pinnedMessages := some [[109]]
  archiveOf := none
  movedTo := none
  nameAt := some 500
  participantDid := none
  pq := none
  request := none

def renamedRoom : Room :=
  { sampleRoom with
    name := [82]
    nameAt := some 900
    seenAt := none
    lastSeenLamport := some 9 }

/-- The older name goes on under the newer stamp, and the time of the last reading is lost. -/
theorem renamed_merge_loses :
    ∃ merged, mergeImportedRoom sampleRoom renamedRoom = some merged ∧
      merged.name = sampleRoom.name ∧ merged.nameAt = renamedRoom.nameAt ∧
      merged.seenAt = none ∧ ¬Lossless sampleRoom renamedRoom merged := by
  refine ⟨mergedRoom sampleRoom renamedRoom, merge_of_no_conflict (by decide), rfl, rfl, rfl, ?_⟩
  intro lossless
  have shared := lossless.fields.seenAt rfl (by decide)
  cases shared

def readRoom : Room :=
  { sampleRoom with
    lastSeenLamport := some 9
    seenAt := some 800 }

theorem read_merge_keeps :
    ∃ merged, mergeImportedRoom sampleRoom readRoom = some merged ∧
      (Lossless sampleRoom readRoom merged ↔ FieldsShared sampleRoom readRoom ∧
        NameSettled sampleRoom readRoom ∧ TypesAgree sampleRoom readRoom) ∧
      Lossless sampleRoom readRoom merged := by
  obtain ⟨merged, done, exactly⟩ := merge_lossless_iff sampleRoom readRoom rfl (by decide)
  have shared : FieldsShared sampleRoom readRoom := by
    constructor <;> decide
  have settled : NameSettled sampleRoom readRoom := fun _ => Or.inl ⟨rfl, fun _ => by decide⟩
  exact ⟨merged, done, exactly, exactly.mpr ⟨shared, settled, trivial⟩⟩

end Result

end AwfulChat.RoomMerge
