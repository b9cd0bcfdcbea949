import AwfulChat.Library.Runs
import AwfulChat.StoreAndForward
import Mathlib.Algebra.Order.Ring.Rat
import Mathlib.Data.List.Lex
import Mathlib.Tactic.Linarith

/-!
# Room names

`room-name.ts`, `_handleRoomName` and `_applyRoomName` of `transport.svelte.ts` and
`renameRoom` of `rooms.svelte.ts`, one room at one member. A stamp is a finite number;
strings compare by code unit. `putRoom` of a room queues, so puts land in the order they were
issued. `handled` is not in the source: the names this member judged, each with its stamp.
-/

namespace AwfulChat.RoomNames

open Library StoreAndForward List Option

set_option autoImplicit false

structure NamedRoom where
  name : Text
  nameAt : Option ℚ
  deriving DecidableEq

def PLACEHOLDER_NAME_AT : ℚ := 0

def LEGACY_NAME_AT : ℚ := 1

def MAX_FUTURE_MS : ℚ := 60 * 60 * 1000

def ROOM_NAME_LENGTH : Nat := 64

/-- `name.trim().slice(0, 64)`. -/
def trimName (name : Text) : Text := (trim name).take ROOM_NAME_LENGTH

/-- Code units, the order of `<` on strings. -/
def units (name : Text) : List Nat := name.map UInt16.toNat

section Judging

variable (roomCode : Text)

def isChosenName (room : NamedRoom) : Bool :=
  decide (room.nameAt ≠ some PLACEHOLDER_NAME_AT) && decide (room.name ≠ []) &&
    decide (room.name ≠ roomCode)

def nameStamp (room : NamedRoom) : ℚ :=
  if isChosenName roomCode room then room.nameAt.getD LEGACY_NAME_AT else PLACEHOLDER_NAME_AT

inductive Verdict
  | take
  | keep
  | answer
  deriving DecidableEq

def inRange (theirs now : ℚ) : Bool :=
  decide (LEGACY_NAME_AT ≤ theirs) && decide (theirs ≤ now + MAX_FUTURE_MS)

def judgeRoomName (stored : NamedRoom) (name : Text) (nameAt : Option ℚ) (now : ℚ) : Verdict :=
  let theirs := nameAt.getD LEGACY_NAME_AT
  if !inRange theirs now then .keep
  else if !isChosenName roomCode stored then .take
  else if nameStamp roomCode stored < theirs then .take
  else if theirs < nameStamp roomCode stored then .answer
  else if name = stored.name then .keep
  else if units stored.name < units name then .take
  else .answer

def nextNameStamp (room : Option NamedRoom) (now : ℚ) : ℚ :=
  max now ((room.map (nameStamp roomCode)).getD 0 + 1)

end Judging

structure Claim where
  nameAt : ℚ
  name : Text
  deriving DecidableEq

def Claim.Le (left right : Claim) : Prop :=
  left.nameAt < right.nameAt ∨ (left.nameAt = right.nameAt ∧ units left.name ≤ units right.name)

instance : DecidableRel Claim.Le := fun left right => inferInstanceAs (Decidable (_ ∨ _))

/-- What a room's record stands for; every name that nobody chose is below all others. -/
def rank (roomCode : Text) (room : NamedRoom) : Claim :=
  ⟨nameStamp roomCode room, if isChosenName roomCode room then room.name else []⟩

/-- A call of `_applyRoomName` or `renameRoom` that waits for storage, or holds its answer. -/
inductive Handler
  | looking (name : Text) (nameAt : Option ℚ)
  | lookedUp (name : Text) (nameAt : Option ℚ) (room : NamedRoom)
  | renaming (name : Text) (nameAt : ℚ)
  | renamed (name : Text) (nameAt : ℚ)
  deriving DecidableEq

structure Member where
  mirror : Option NamedRoom
  stored : NamedRoom
  handlers : List Handler
  writing : List NamedRoom
  handled : List Claim
  deriving DecidableEq

inductive Event
  /-- A name announced by another member arrives. -/
  | handleRoomName (name : Text) (nameAt : Option ℚ) (now : ℚ)
  /-- The user renames the room. -/
  | renameRoomEverywhere (name : Text) (now : ℚ)
  /-- Storage answers a handler. -/
  | answer (handler : Nat)
  /-- A handler goes on with its answer. -/
  | resume (handler : Nat) (now : ℚ)
  | land
  deriving DecidableEq

section Steps

variable (roomCode : Text)

/-- `renameRoom` up to its read of the stored record; `none` when it returns before. -/
def Member.renameRoom (member : Member) (name : Text) (nameAt : ℚ) : Option Handler :=
  let trimmed := trimName name
  if trimmed = [] ∨ trimmed = roomCode then none
  else if member.mirror = some ⟨trimmed, some nameAt⟩ then none
  else some (.renaming trimmed nameAt)

/-- `_applyRoomName` from its judgement on. -/
def Member.applyRoomName (member : Member) (room : NamedRoom) (name : Text) (nameAt : Option ℚ)
    (now : ℚ) : Member :=
  let theirs := nameAt.getD LEGACY_NAME_AT
  let noted := if inRange theirs now then member.handled ++ [⟨theirs, name⟩] else member.handled
  match judgeRoomName roomCode room name nameAt now with
  | .take => { member with
      handlers := member.handlers ++ (member.renameRoom roomCode name theirs).toList
      handled := noted }
  | _ => { member with handled := noted }

def Member.leave (member : Member) (handler : Nat) : Member :=
  { member with handlers := member.handlers.eraseIdx handler }

/-- The mirror is patched and the put issued at once. -/
def Member.write (member : Member) (room : NamedRoom) : Member :=
  { member with
    mirror := member.mirror.map fun _ => room
    writing := member.writing ++ [room] }

def step (member : Member) : Event → Option Member
  | .handleRoomName name nameAt now =>
    let trimmed := trimName name
    if trimmed = [] ∨ trimmed = roomCode then some member
    else match member.mirror with
      | some room => some (member.applyRoomName roomCode room trimmed nameAt now)
      | none => some { member with handlers := member.handlers ++ [.looking trimmed nameAt] }
  | .renameRoomEverywhere name now =>
    let trimmed := trimName name
    if trimmed = [] ∨ trimmed = roomCode then some member
    else
      let stamp := nextNameStamp roomCode member.mirror now
      some { member with
        handlers := member.handlers ++ (member.renameRoom roomCode trimmed stamp).toList
        handled := member.handled ++ [⟨stamp, trimmed⟩] }
  | .answer handler =>
    match member.handlers[handler]? with
    | some (.looking name nameAt) =>
      let left := member.leave handler
      some { left with handlers := left.handlers ++ [.lookedUp name nameAt member.stored] }
    | some (.renaming name nameAt) =>
      let left := member.leave handler
      some { left with handlers := left.handlers ++ [.renamed name nameAt] }
    | _ => none
  | .resume handler now =>
    match member.handlers[handler]? with
    | some (.lookedUp name nameAt room) =>
      some ((member.leave handler).applyRoomName roomCode room name nameAt now)
    | some (.renamed name nameAt) => some ((member.leave handler).write ⟨name, some nameAt⟩)
    | _ => none
  | .land =>
    match member.writing with
    | [] => none
    | room :: rest => some { member with stored := room, writing := rest }

/-- A name that is taken is not shortened again by `renameRoom`. -/
def TakenWhole (room : NamedRoom) (name : Text) (nameAt : Option ℚ) (now : ℚ) : Prop :=
  judgeRoomName roomCode room name nameAt now = .take → trimName name = name

instance (room : NamedRoom) (name : Text) (nameAt : Option ℚ) (now : ℚ) :
    Decidable (TakenWhole roomCode room name nameAt now) :=
  inferInstanceAs (Decidable (_ → _))

/-- No newer name stands in storage or in a put on its way when a rename is written. -/
def Newer (member : Member) (name : Text) (nameAt : ℚ) : Prop :=
  ∀ room ∈ member.stored :: member.writing, (rank roomCode room).Le ⟨nameAt, name⟩

instance (member : Member) (name : Text) (nameAt : ℚ) :
    Decidable (Newer roomCode member name nameAt) := inferInstanceAs (Decidable (∀ _, _))

def ResumesInOrder (member : Member) (now : ℚ) : Handler → Prop
  | .lookedUp name nameAt room => TakenWhole roomCode room name nameAt now
  | .renamed name nameAt => Newer roomCode member name nameAt
  | _ => True

instance (member : Member) (now : ℚ) : DecidablePred (ResumesInOrder roomCode member now)
  | .lookedUp name nameAt room => inferInstanceAs (Decidable (TakenWhole roomCode room name nameAt now))
  | .renamed name nameAt => inferInstanceAs (Decidable (Newer roomCode member name nameAt))
  | .looking _ _ | .renaming _ _ => isTrue trivial

def InOrder (member : Member) : Event → Prop
  | .handleRoomName name nameAt now =>
    ∀ room ∈ member.mirror, TakenWhole roomCode room (trimName name) nameAt now
  | .renameRoomEverywhere name _ => trimName (trimName name) = trimName name
  | .resume handler now =>
    ∀ found ∈ member.handlers[handler]?, ResumesInOrder roomCode member now found
  | _ => True

instance (member : Member) : DecidablePred (InOrder roomCode member)
  | .handleRoomName name nameAt now => inferInstanceAs (Decidable (∀ _, _))
  | .renameRoomEverywhere name _ =>
    inferInstanceAs (Decidable (trimName (trimName name) = trimName name))
  | .resume handler now => inferInstanceAs (Decidable (∀ _, _))
  | .answer _ | .land => isTrue trivial

end Steps

def start (initial : NamedRoom) (mirrored : Bool) : Member :=
  ⟨if mirrored then some initial else none, initial, [], [], []⟩

/-- A chosen name bears a stamp from `LEGACY_NAME_AT` on. -/
def WellNamed (roomCode : Text) (room : NamedRoom) : Prop :=
  isChosenName roomCode room = true → LEGACY_NAME_AT ≤ room.nameAt.getD LEGACY_NAME_AT

/-- What a settled member holds: the greatest of its first name and those it judged. -/
structure Newest (roomCode : Text) (initial : NamedRoom) (handled : List Claim)
    (stored : NamedRoom) : Prop where
  beats : ∀ claim ∈ handled, claim.Le (rank roomCode stored)
  keeps : (rank roomCode initial).Le (rank roomCode stored)
  origin : (stored.name = initial.name ∧ nameStamp roomCode stored = nameStamp roomCode initial) ∨
    (⟨nameStamp roomCode stored, stored.name⟩ : Claim) ∈ handled

theorem units_injective : Function.Injective units :=
  map_injective_iff.mpr fun _ _ same => UInt16.toNat.inj same

theorem Claim.Le.refl (claim : Claim) : claim.Le claim := Or.inr ⟨rfl, le_rfl⟩

theorem Claim.Le.trans {first second third : Claim} (left : first.Le second)
    (right : second.Le third) : first.Le third := by
  rcases left with earlier | ⟨same, before⟩
  · rcases right with later | ⟨equal, -⟩
    · exact Or.inl (earlier.trans later)
    · exact Or.inl (equal ▸ earlier)
  · rcases right with later | ⟨equal, after⟩
    · exact Or.inl (same ▸ later)
    · exact Or.inr ⟨same.trans equal, before.trans after⟩

theorem Claim.Le.antisymm {left right : Claim} (first : left.Le right) (second : right.Le left) :
    left = right := by
  have stamps : left.nameAt = right.nameAt := by
    rcases first with earlier | ⟨same, -⟩
    · rcases second with later | ⟨same, -⟩
      · exact absurd later (lt_asymm earlier)
      · exact same.symm
    · exact same
  have names : units left.name = units right.name := by
    rcases first with earlier | ⟨-, before⟩
    · exact absurd stamps (ne_of_lt earlier)
    · rcases second with later | ⟨-, after⟩
      · exact absurd stamps.symm (ne_of_lt later)
      · exact le_antisymm before after
  cases left
  cases right
  simp only [Claim.mk.injEq]
  exact ⟨stamps, units_injective names⟩

section Rank

variable {roomCode : Text}

variable {room : NamedRoom}

theorem rank_chosen (chosen : isChosenName roomCode room = true) :
    rank roomCode room = ⟨nameStamp roomCode room, room.name⟩ := by
  simp [rank, chosen]

theorem stamp_chosen (chosen : isChosenName roomCode room = true) :
    nameStamp roomCode room = room.nameAt.getD LEGACY_NAME_AT := by
  simp [nameStamp, chosen]

theorem chosen_iff :
    isChosenName roomCode room = true ↔ nameStamp roomCode room ≠ 0 := by
  constructor
  · intro chosen
    rw [stamp_chosen chosen]
    simp only [isChosenName, PLACEHOLDER_NAME_AT, Bool.and_eq_true, decide_eq_true_eq] at chosen
    cases stamp : room.nameAt with
    | none => simp [LEGACY_NAME_AT]
    | some nameAt => simpa [stamp] using chosen.1.1
  · intro stamped
    by_contra unchosen
    exact stamped (by simp [nameStamp, unchosen, PLACEHOLDER_NAME_AT])

theorem rank_eq (room : NamedRoom) : rank roomCode room =
    ⟨nameStamp roomCode room, if nameStamp roomCode room = 0 then [] else room.name⟩ := by
  cases chosen : isChosenName roomCode room with
  | true => rw [rank_chosen chosen, if_neg (chosen_iff.mp chosen)]
  | false =>
    have zero : nameStamp roomCode room = 0 := by
      by_contra stamped
      rw [chosen_iff.mpr stamped] at chosen
      cases chosen
    simp [rank, chosen, zero]

theorem chosen_of_stamp (stamped : LEGACY_NAME_AT ≤ nameStamp roomCode room) :
    isChosenName roomCode room = true := by
  apply chosen_iff.mpr
  intro zero
  rw [zero] at stamped
  exact absurd stamped (by decide)

section

variable {name : Text} {nameAt : ℚ} (some_name : name ≠ []) (other : name ≠ roomCode)
  (stamped : LEGACY_NAME_AT ≤ nameAt)
include some_name other stamped

theorem written_chosen : isChosenName roomCode ⟨name, some nameAt⟩ = true := by
  have positive : nameAt ≠ 0 := by
    intro zero
    rw [zero] at stamped
    exact absurd stamped (by decide)
  simp [isChosenName, some_name, other, positive, PLACEHOLDER_NAME_AT]

theorem rank_written : rank roomCode ⟨name, some nameAt⟩ = ⟨nameAt, name⟩ := by
  have chosen := written_chosen some_name other stamped
  rw [rank_chosen chosen, stamp_chosen chosen]
  rfl

end

theorem stamp_nonneg (well : WellNamed roomCode room) :
    0 ≤ nameStamp roomCode room := by
  cases chosen : isChosenName roomCode room with
  | false => simp [nameStamp, chosen, PLACEHOLDER_NAME_AT]
  | true =>
    rw [stamp_chosen chosen]
    exact le_trans (by decide) (well chosen)

theorem judged_older {name : Text} {nameAt : Option ℚ} {now : ℚ}
    (fits : inRange (nameAt.getD LEGACY_NAME_AT) now = true)
    (left : judgeRoomName roomCode room name nameAt now ≠ .take) :
    (⟨nameAt.getD LEGACY_NAME_AT, name⟩ : Claim).Le (rank roomCode room) := by
  unfold judgeRoomName at left
  simp only [fits, Bool.not_true, Bool.false_eq_true, if_false] at left
  split_ifs at left with unchosen newer older same greater
  · exact absurd rfl left
  · exact absurd rfl left
  · have chosen : isChosenName roomCode room = true := by simpa using unchosen
    rw [rank_chosen chosen]
    exact Or.inl older
  · have chosen : isChosenName roomCode room = true := by simpa using unchosen
    rw [rank_chosen chosen, same]
    exact Or.inr ⟨le_antisymm (not_lt.mp newer) (not_lt.mp older), le_rfl⟩
  · exact absurd rfl left
  · have chosen : isChosenName roomCode room = true := by simpa using unchosen
    rw [rank_chosen chosen]
    exact Or.inr ⟨le_antisymm (not_lt.mp newer) (not_lt.mp older), not_lt.mp greater⟩

theorem next_stamp_after (room : NamedRoom) (now : ℚ) :
    nameStamp roomCode room < nextNameStamp roomCode (some room) now := by
  unfold nextNameStamp
  apply lt_of_lt_of_le _ (le_max_right _ _)
  simp

end Rank

/-- What the record, the puts on their way and the waiting renames would have the room named. -/
def Handler.claim : Handler → Option Claim
  | .renaming name nameAt => some ⟨nameAt, name⟩
  | .renamed name nameAt => some ⟨nameAt, name⟩
  | _ => none

def Handler.announced : Handler → Option Text
  | .looking name _ => some name
  | .lookedUp name _ _ => some name
  | _ => none

def claims (roomCode : Text) (member : Member) : List Claim :=
  (member.stored :: member.writing).map (rank roomCode) ++ member.handlers.filterMap Handler.claim

def Covered (roomCode : Text) (member : Member) (claim : Claim) : Prop :=
  ∃ other ∈ claims roomCode member, claim.Le other

/-- A claim that some name was judged with, and that `renameRoom` would write as it is. -/
structure Writable (roomCode : Text) (handled : List Claim) (claim : Claim) : Prop where
  handled : claim ∈ handled
  named : claim.name ≠ []
  other : claim.name ≠ roomCode
  stamped : LEGACY_NAME_AT ≤ claim.nameAt

structure NamesInv (roomCode : Text) (initial : NamedRoom) (member : Member) : Prop where
  wellMirror : ∀ room ∈ member.mirror, WellNamed roomCode room
  chain : (member.stored :: member.writing).Pairwise fun earlier later =>
    (rank roomCode earlier).Le (rank roomCode later)
  mirror : ∀ room ∈ member.mirror, Covered roomCode member (rank roomCode room)
  read : ∀ name nameAt room, Handler.lookedUp name nameAt room ∈ member.handlers →
    (rank roomCode room).Le (rank roomCode member.stored)
  names : ∀ handler ∈ member.handlers, ∀ name ∈ handler.announced, name ≠ [] ∧ name ≠ roomCode
  waiting : ∀ handler ∈ member.handlers, ∀ claim ∈ handler.claim,
    Writable roomCode member.handled claim
  onTheWay : ∀ room ∈ member.writing, Writable roomCode member.handled (rank roomCode room) ∧
    isChosenName roomCode room = true
  handled : ∀ claim ∈ member.handled, Covered roomCode member claim ∧ LEGACY_NAME_AT ≤ claim.nameAt
  keeps : (rank roomCode initial).Le (rank roomCode member.stored)
  origin : (member.stored.name = initial.name ∧
      nameStamp roomCode member.stored = nameStamp roomCode initial) ∨
    (⟨nameStamp roomCode member.stored, member.stored.name⟩ : Claim) ∈ member.handled

section Steps

variable {roomCode : Text} {initial : NamedRoom} {member next : Member}

theorem Covered.of_le {claim other : Claim} (covered : Covered roomCode member other)
    (less : claim.Le other) : Covered roomCode member claim := by
  obtain ⟨most, member, under⟩ := covered
  exact ⟨most, member, less.trans under⟩

theorem Covered.into {claim : Claim} (covered : Covered roomCode member claim)
    (kept : ∀ other ∈ claims roomCode member, Covered roomCode next other) :
    Covered roomCode next claim := by
  obtain ⟨other, listed, less⟩ := covered
  exact (kept other listed).of_le less

theorem covered_record {room : NamedRoom} (held : room ∈ member.stored :: member.writing) :
    Covered roomCode member (rank roomCode room) :=
  ⟨_, mem_append_left _ (mem_map_of_mem held), Claim.Le.refl _⟩

theorem covered_handler {handler : Handler} {claim : Claim} (waits : handler ∈ member.handlers)
    (own : handler.claim = some claim) : Covered roomCode member claim :=
  ⟨claim, mem_append_right _ (mem_filterMap.mpr ⟨handler, waits, own⟩),
    Claim.Le.refl _⟩

theorem mem_erase_or {handlers : List Handler} {place : Nat} {handler : Handler}
    (waits : handler ∈ handlers) :
    handler ∈ handlers.eraseIdx place ∨ handlers[place]? = some handler := by
  induction handlers generalizing place with
  | nil => cases waits
  | cons head rest ih =>
    cases place with
    | zero =>
      rcases mem_cons.mp waits with rfl | later
      · exact Or.inr rfl
      · exact Or.inl later
    | succ place =>
      rcases mem_cons.mp waits with rfl | later
      · exact Or.inl (by simp)
      · rcases @ih place later with stays | gone
        · exact Or.inl (mem_cons_of_mem _ stays)
        · exact Or.inr gone

theorem kept_but_one {rest : List Handler} {place : Nat} {gone : Handler}
    (found : member.handlers[place]? = some gone)
    (stays : ∀ handler ∈ member.handlers.eraseIdx place, handler ∈ rest)
    (last : ∀ claim ∈ gone.claim, Covered roomCode { member with handlers := rest } claim) :
    ∀ other ∈ claims roomCode member, Covered roomCode { member with handlers := rest } other := by
  intro other listed
  rcases mem_append.mp listed with records | waits
  · obtain ⟨room, held, rfl⟩ := mem_map.mp records
    exact covered_record held
  · obtain ⟨handler, member, own⟩ := mem_filterMap.mp waits
    rcases @mem_erase_or _ place _ member with left | removed
    · exact covered_handler (stays handler left) own
    · rw [found] at removed
      exact last other (Option.some.inj removed ▸ own)

structure Fits (roomCode : Text) (stored : NamedRoom) (handled : List Claim) (handler : Handler) :
    Prop where
  read : ∀ name nameAt room, handler = .lookedUp name nameAt room →
    (rank roomCode room).Le (rank roomCode stored)
  names : ∀ name ∈ handler.announced, name ≠ [] ∧ name ≠ roomCode
  waiting : ∀ claim ∈ handler.claim, Writable roomCode handled claim

theorem NamesInv.fits (inv : NamesInv roomCode initial member) {handler : Handler}
    (waits : handler ∈ member.handlers) : Fits roomCode member.stored member.handled handler := by
  refine ⟨?_, inv.names handler waits, inv.waiting handler waits⟩
  rintro name nameAt room rfl
  exact inv.read name nameAt room waits

theorem NamesInv.update (inv : NamesInv roomCode initial member) {handlers : List Handler}
    {handled : List Claim}
    (kept : ∀ other ∈ claims roomCode member,
      Covered roomCode { member with handlers := handlers, handled := handled } other)
    (grows : ∀ claim ∈ member.handled, claim ∈ handled)
    (each : ∀ handler ∈ handlers, handler ∈ member.handlers ∨
      Fits roomCode member.stored handled handler)
    (noted : ∀ claim ∈ handled, claim ∈ member.handled ∨
      (Covered roomCode { member with handlers := handlers, handled := handled } claim ∧
        LEGACY_NAME_AT ≤ claim.nameAt)) :
    NamesInv roomCode initial { member with handlers := handlers, handled := handled } := by
  have more : ∀ {claim}, Writable roomCode member.handled claim →
      Writable roomCode handled claim := fun writable =>
    ⟨grows _ writable.handled, writable.named, writable.other, writable.stamped⟩
  have fits : ∀ handler ∈ handlers, Fits roomCode member.stored handled handler := by
    intro handler waits
    rcases each handler waits with old | new
    · have before := inv.fits old
      exact ⟨before.read, before.names, fun claim own => more (before.waiting claim own)⟩
    · exact new
  refine ⟨inv.wellMirror, inv.chain, fun room mirrored => (inv.mirror room mirrored).into kept,
    fun name nameAt room waits => (fits _ waits).read name nameAt room rfl,
    fun handler waits => (fits handler waits).names,
    fun handler waits => (fits handler waits).waiting,
    fun room way => ⟨more (inv.onTheWay room way).1, (inv.onTheWay room way).2⟩, ?_, inv.keeps,
    inv.origin.imp_right (grows _)⟩
  intro claim judged
  rcases noted claim judged with old | new
  · obtain ⟨covered, stamped⟩ := inv.handled claim old
    exact ⟨covered.into kept, stamped⟩
  · exact new

theorem kept_all (handlers : List Handler) (handled : List Claim) :
    ∀ other ∈ claims roomCode member, Covered roomCode
      { member with handlers := member.handlers ++ handlers, handled := handled } other := by
  intro other listed
  refine ⟨other, ?_, Claim.Le.refl _⟩
  rcases mem_append.mp listed with records | waits
  · exact mem_append_left _ records
  · simp only [claims, filterMap_append, mem_append]
    exact Or.inr (Or.inl waits)

section

variable (inv : NamesInv roomCode initial member)
include inv

theorem NamesInv.note {extra : List Handler} {claim : Claim}
    (fits : ∀ handler ∈ extra, Fits roomCode member.stored (member.handled ++ [claim]) handler)
    (covered : Covered roomCode { member with
      handlers := member.handlers ++ extra
      handled := member.handled ++ [claim] } claim)
    (stamped : LEGACY_NAME_AT ≤ claim.nameAt) :
    NamesInv roomCode initial { member with
      handlers := member.handlers ++ extra
      handled := member.handled ++ [claim] } := by
  apply inv.update (kept_all _ _)
  · intro old judged
    exact mem_append_left _ judged
  · intro handler waits
    exact (mem_append.mp waits).imp_right (fits handler)
  · intro other judged
    rcases mem_append.mp judged with old | new
    · exact Or.inl old
    · rw [mem_singleton.mp new]
      exact Or.inr ⟨covered, stamped⟩

theorem NamesInv.rename {name : Text} {nameAt : ℚ} (named : name ≠ []) (other : name ≠ roomCode)
    (whole : trimName name = name) (stamped : LEGACY_NAME_AT ≤ nameAt) :
    NamesInv roomCode initial { member with
      handlers := member.handlers ++ (member.renameRoom roomCode name nameAt).toList
      handled := member.handled ++ [⟨nameAt, name⟩] } := by
  by_cases known : member.mirror = some ⟨name, some nameAt⟩
  · have returns : member.renameRoom roomCode name nameAt = none := by
      simp [Member.renameRoom, whole, named, other, known]
    have shown := inv.mirror _ known
    rw [rank_written named other stamped] at shown
    rw [returns]
    exact inv.note (by simp) (shown.into (kept_all _ _)) stamped
  · have waits : member.renameRoom roomCode name nameAt = some (.renaming name nameAt) := by
      simp [Member.renameRoom, whole, named, other, known]
    have listed : Handler.renaming name nameAt ∈
        member.handlers ++ [Handler.renaming name nameAt] := by simp
    rw [waits]
    apply inv.note _ (covered_handler listed rfl) stamped
    intro handler new
    rw [mem_singleton.mp new]
    refine ⟨by simp, by simp [Handler.announced], ?_⟩
    rintro _ ⟨⟩
    exact ⟨by simp, named, other, stamped⟩

theorem NamesInv.apply {room : NamedRoom} {name : Text} {nameAt : Option ℚ} {now : ℚ}
    (named : name ≠ []) (other : name ≠ roomCode)
    (covered : Covered roomCode member (rank roomCode room))
    (whole : TakenWhole roomCode room name nameAt now) :
    NamesInv roomCode initial (member.applyRoomName roomCode room name nameAt now) := by
  by_cases fits : inRange (nameAt.getD LEGACY_NAME_AT) now = true
  · have stamped : LEGACY_NAME_AT ≤ nameAt.getD LEGACY_NAME_AT := by
      simp only [inRange, Bool.and_eq_true, decide_eq_true_eq] at fits
      exact fits.1
    by_cases taken : judgeRoomName roomCode room name nameAt now = .take
    · simp only [Member.applyRoomName, taken, fits, if_true]
      exact inv.rename named other (whole taken) stamped
    · have left : member.applyRoomName roomCode room name nameAt now =
          { member with
            handlers := member.handlers ++ []
            handled := member.handled ++ [⟨nameAt.getD LEGACY_NAME_AT, name⟩] } := by
        unfold Member.applyRoomName
        cases verdict : judgeRoomName roomCode room name nameAt now with
        | take => exact absurd verdict taken
        | keep | answer => simp [fits]
      rw [left]
      exact inv.note (by simp) ((covered.of_le (judged_older fits taken)).into (kept_all _ _)) stamped
  · have ignored : judgeRoomName roomCode room name nameAt now = .keep := by
      have outside : inRange (nameAt.getD LEGACY_NAME_AT) now = false := by simpa using fits
      simp [judgeRoomName, outside]
    have same : member.applyRoomName roomCode room name nameAt now = member := by
      simp [Member.applyRoomName, ignored, fits]
    rw [same]
    exact inv

theorem NamesInv.reseat {place : Nat} {gone : Handler} {extra : List Handler}
    (found : member.handlers[place]? = some gone)
    (same : ∀ claim ∈ gone.claim, ∃ back ∈ extra, back.claim = some claim)
    (fits : ∀ back ∈ extra, Fits roomCode member.stored member.handled back) :
    NamesInv roomCode initial { member with
      handlers := member.handlers.eraseIdx place ++ extra } := by
  have kept : ∀ other ∈ claims roomCode member, Covered roomCode
      { member with handlers := member.handlers.eraseIdx place ++ extra } other := by
    apply kept_but_one found
    · exact fun handler left => mem_append_left _ left
    · intro claim own
      obtain ⟨back, seated, again⟩ := same claim own
      exact covered_handler (mem_append_right _ seated) again
  apply inv.update kept
  · exact fun claim judged => judged
  · intro handler waits
    exact (mem_append.mp waits).imp mem_of_mem_eraseIdx (fits handler)
  · exact fun claim judged => Or.inl judged

theorem NamesInv.leave {place : Nat} {gone : Handler} (found : member.handlers[place]? = some gone)
    (nothing : gone.claim = none) :
    NamesInv roomCode initial (member.leave place) := by
  have left := @NamesInv.reseat _ _ _ inv _ _ [] found (by simp [nothing]) (by simp)
  rwa [append_nil] at left

theorem NamesInv.write {place : Nat} {name : Text} {nameAt : ℚ}
    (found : member.handlers[place]? = some (.renamed name nameAt))
    (newer : Newer roomCode member name nameAt) :
    NamesInv roomCode initial ((member.leave place).write ⟨name, some nameAt⟩) := by
  have mine := inv.waiting _ (mem_of_getElem? found) ⟨nameAt, name⟩ rfl
  have written := rank_written mine.named mine.other mine.stamped
  have chosen := written_chosen mine.named mine.other mine.stamped
  have last : Covered roomCode ((member.leave place).write ⟨name, some nameAt⟩) ⟨nameAt, name⟩ := by
    rw [← written]
    exact covered_record (by simp [Member.write])
  have kept : ∀ other ∈ claims roomCode member,
      Covered roomCode ((member.leave place).write ⟨name, some nameAt⟩) other := by
    intro other listed
    rcases mem_append.mp listed with records | waits
    · obtain ⟨room, held, rfl⟩ := mem_map.mp records
      apply covered_record
      rw [Member.write, ← cons_append]
      exact mem_append_left _ held
    · obtain ⟨handler, member, own⟩ := mem_filterMap.mp waits
      rcases @mem_erase_or _ place _ member with stays | removed
      · exact covered_handler stays own
      · rw [found, Option.some.injEq] at removed
        subst removed
        cases own
        exact last
  refine ⟨?_, ?_, ?_, ?_, ?_, ?_, ?_, ?_, inv.keeps, inv.origin⟩
  · intro room mirrored
    obtain ⟨-, -, rfl⟩ := map_eq_some_iff.mp mirrored
    exact fun _ => mine.stamped
  · rw [Member.write, ← cons_append, pairwise_append]
    refine ⟨inv.chain, by simp, ?_⟩
    intro room held other new
    rw [mem_singleton.mp new, written]
    exact newer room held
  · intro room mirrored
    obtain ⟨-, -, rfl⟩ := map_eq_some_iff.mp mirrored
    rw [written]
    exact last
  · intro name nameAt room waits
    exact inv.read name nameAt room (mem_of_mem_eraseIdx waits)
  · exact fun handler waits => inv.names handler (mem_of_mem_eraseIdx waits)
  · exact fun handler waits => inv.waiting handler (mem_of_mem_eraseIdx waits)
  · intro room way
    rcases mem_append.mp way with old | new
    · exact inv.onTheWay room old
    · rw [mem_singleton.mp new, written]
      exact ⟨mine, chosen⟩
  · intro claim judged
    obtain ⟨covered, stamped⟩ := inv.handled claim judged
    exact ⟨covered.into kept, stamped⟩

theorem NamesInv.land {room : NamedRoom} {rest : List NamedRoom}
    (way : member.writing = room :: rest) :
    NamesInv roomCode initial { member with stored := room, writing := rest } := by
  have chain := inv.chain
  rw [way, pairwise_cons] at chain
  have higher := chain.1 room (by simp)
  have mine := inv.onTheWay room (by simp [way])
  have kept : ∀ other ∈ claims roomCode member,
      Covered roomCode { member with stored := room, writing := rest } other := by
    intro other listed
    rcases mem_append.mp listed with records | waits
    · obtain ⟨record, held, rfl⟩ := mem_map.mp records
      rcases mem_cons.mp held with rfl | later
      · exact (covered_record (by simp)).of_le higher
      · exact covered_record (way ▸ later)
    · exact ⟨other, mem_append_right _ waits, Claim.Le.refl _⟩
  refine ⟨inv.wellMirror, chain.2, fun shown mirrored => (inv.mirror shown mirrored).into kept, ?_,
    inv.names, inv.waiting, ?_, ?_, inv.keeps.trans higher, ?_⟩
  · intro name nameAt record waits
    exact (inv.read name nameAt record waits).trans higher
  · intro other later
    exact inv.onTheWay other (by simp [way, later])
  · intro claim judged
    obtain ⟨covered, stamped⟩ := inv.handled claim judged
    exact ⟨covered.into kept, stamped⟩
  · have judged := mine.1.handled
    rw [rank_chosen mine.2] at judged
    exact Or.inr judged

/-- What one step keeps. -/
theorem NamesInv.step {event : Event} (ordered : InOrder roomCode member event)
    (stepped : step roomCode member event = some next) : NamesInv roomCode initial next := by
  cases event with
  | handleRoomName name nameAt now =>
    simp only [RoomNames.step] at stepped
    split_ifs at stepped with ignored
    · cases stepped
      exact inv
    · rw [not_or] at ignored
      split at stepped
      · rename_i room mirrored
        cases stepped
        exact inv.apply ignored.1 ignored.2 (inv.mirror room mirrored) (ordered room mirrored)
      · cases stepped
        apply inv.update (kept_all _ _)
        · exact fun claim judged => judged
        · intro handler waits
          rcases mem_append.mp waits with old | new
          · exact Or.inl old
          · rw [mem_singleton.mp new]
            exact Or.inr ⟨by simp, by simpa [Handler.announced] using ignored,
              by simp [Handler.claim]⟩
        · exact fun claim judged => Or.inl judged
  | renameRoomEverywhere name now =>
    simp only [RoomNames.step] at stepped
    split_ifs at stepped with ignored
    · cases stepped
      exact inv
    · rw [not_or] at ignored
      cases stepped
      apply inv.rename ignored.1 ignored.2 ordered
      unfold nextNameStamp
      apply le_trans _ (le_max_right _ _)
      cases mirrored : member.mirror with
      | none => simp [LEGACY_NAME_AT]
      | some room =>
        have nonneg := stamp_nonneg (inv.wellMirror room mirrored)
        simpa [LEGACY_NAME_AT] using nonneg
  | answer place =>
    simp only [RoomNames.step] at stepped
    split at stepped
    · rename_i name nameAt found
      cases stepped
      apply inv.reseat found (by simp [Handler.claim])
      intro back seated
      rw [mem_singleton.mp seated]
      refine ⟨?_, inv.names (.looking name nameAt) (mem_of_getElem? found),
        by simp [Handler.claim]⟩
      rintro _ _ _ ⟨⟩
      exact Claim.Le.refl _
    · rename_i name nameAt found
      cases stepped
      apply inv.reseat found
      · intro claim own
        exact ⟨.renamed name nameAt, by simp, own⟩
      · intro back seated
        rw [mem_singleton.mp seated]
        exact ⟨by simp, by simp [Handler.announced],
          inv.waiting (.renaming name nameAt) (mem_of_getElem? found)⟩
    · cases stepped
  | resume place now =>
    simp only [RoomNames.step] at stepped
    split at stepped
    · rename_i name nameAt room found
      cases stepped
      have waits := mem_of_getElem? found
      have names := inv.names _ waits name rfl
      have left := inv.leave found rfl
      have covered : Covered roomCode (member.leave place) (rank roomCode room) :=
        (covered_record (by simp [Member.leave])).of_le (inv.read name nameAt room waits)
      exact left.apply names.1 names.2 covered (ordered _ found)
    · rename_i name nameAt found
      cases stepped
      exact inv.write found (ordered _ found)
    · cases stepped
  | land =>
    simp only [RoomNames.step] at stepped
    split at stepped
    · cases stepped
    · cases stepped
      exact inv.land ‹_›

end

theorem apply_stored (room : NamedRoom) (name : Text) (nameAt : Option ℚ) (now : ℚ) :
    (member.applyRoomName roomCode room name nameAt now).stored = member.stored := by
  unfold Member.applyRoomName
  cases judgeRoomName roomCode room name nameAt now <;> rfl

theorem stamp_rises (inv : NamesInv roomCode initial member) {event : Event}
    (stepped : step roomCode member event = some next) :
    nameStamp roomCode member.stored ≤ nameStamp roomCode next.stored := by
  cases event with
  | handleRoomName name nameAt now =>
    simp only [RoomNames.step] at stepped
    split_ifs at stepped
    · cases stepped
      exact le_rfl
    · split at stepped <;> cases stepped
      · rw [apply_stored]
      · exact le_rfl
  | renameRoomEverywhere name now =>
    simp only [RoomNames.step] at stepped
    split_ifs at stepped <;> cases stepped <;> exact le_rfl
  | answer place =>
    simp only [RoomNames.step] at stepped
    split at stepped <;> cases stepped <;> exact le_rfl
  | resume place now =>
    simp only [RoomNames.step] at stepped
    split at stepped <;> cases stepped
    · rw [apply_stored]
      exact le_rfl
    · exact le_rfl
  | land =>
    simp only [RoomNames.step] at stepped
    split at stepped
    · cases stepped
    · rename_i room rest way
      cases stepped
      have chain := inv.chain
      rw [way, pairwise_cons] at chain
      rcases chain.1 room (by simp) with later | ⟨same, -⟩
      · exact le_of_lt later
      · exact le_of_eq same

theorem start_inv {mirrored : Bool} (well : WellNamed roomCode initial) :
    NamesInv roomCode initial (start initial mirrored) := by
  refine ⟨?_, by simp [start], ?_, by simp [start], by simp [start], by simp [start],
    by simp [start], by simp [start], Claim.Le.refl _, Or.inl ⟨rfl, rfl⟩⟩
  · intro room shown
    cases mirrored <;> cases shown
    exact well
  · intro room shown
    cases mirrored <;> cases shown
    exact covered_record (by simp [start])

end Steps

/-- A run at one member in which every rename is written in order, and that has settled. -/
structure SettledRun (roomCode : Text) (initial : NamedRoom) (events : List Event)
    (final : Member) : Prop where
  well : WellNamed roomCode initial
  ran : ∃ mirrored, run (step roomCode) (start initial mirrored) events = some final ∧
    Meets (step roomCode) (InOrder roomCode) (start initial mirrored) events
  settled : final.handlers = [] ∧ final.writing = []

section Settled

variable {roomCode : Text} {initial : NamedRoom} {events : List Event} {final : Member}

theorem run_inv {mirrored : Bool} (well : WellNamed roomCode initial)
    (ran : run (step roomCode) (start initial mirrored) events = some final)
    (ordered : Meets (step roomCode) (InOrder roomCode) (start initial mirrored) events) :
    NamesInv roomCode initial final := by
  have keeps : ∀ member event next, NamesInv roomCode initial member →
      InOrder roomCode member event → step roomCode member event = some next →
      NamesInv roomCode initial next := fun _ _ _ inv ordered stepped => inv.step ordered stepped
  exact run_keeps keeps (start_inv well) ordered ran

theorem SettledRun.inv (settled : SettledRun roomCode initial events final) :
    NamesInv roomCode initial final := by
  obtain ⟨mirrored, ran, ordered⟩ := settled.ran
  exact run_inv settled.well ran ordered

theorem SettledRun.newest (settled : SettledRun roomCode initial events final) :
    Newest roomCode initial final.handled final.stored := by
  have inv := settled.inv
  refine ⟨?_, inv.keeps, inv.origin⟩
  intro claim judged
  obtain ⟨other, listed, less⟩ := (inv.handled claim judged).1
  rw [claims, settled.settled.1, settled.settled.2] at listed
  simp only [map_cons, map_nil, filterMap_nil, append_nil,
    mem_singleton] at listed
  exact listed ▸ less

theorem Newest.rank_origin {handled : List Claim} {stored : NamedRoom}
    (newest : Newest roomCode initial handled stored)
    (stamped : ∀ claim ∈ handled, LEGACY_NAME_AT ≤ claim.nameAt) :
    rank roomCode stored = rank roomCode initial ∨ rank roomCode stored ∈ handled := by
  rcases newest.origin with ⟨name, stamp⟩ | judged
  · left
    rw [rank_eq, rank_eq, name, stamp]
  · right
    rw [rank_chosen (chosen_of_stamp (stamped _ judged))]
    exact judged

variable {otherInitial : NamedRoom} {otherEvents : List Event} {other : Member}

/-- What one member of two may begin with: the other's name, or one that a name both judged
is no older than. -/
def SameStart (roomCode : Text) (initial otherInitial : NamedRoom) (handled : List Claim) : Prop :=
  (initial.name = otherInitial.name ∧
      nameStamp roomCode initial = nameStamp roomCode otherInitial) ∨
    ∃ claim ∈ handled, (rank roomCode initial).Le claim ∧ (rank roomCode otherInitial).Le claim

section

variable (settled : SettledRun roomCode initial events final)
  (otherSettled : SettledRun roomCode otherInitial otherEvents other)
include settled otherSettled

theorem SettledRun.below (same : ∀ claim, claim ∈ final.handled → claim ∈ other.handled)
    (begun : SameStart roomCode initial otherInitial final.handled) :
    (rank roomCode final.stored).Le (rank roomCode other.stored) := by
  have newest := otherSettled.newest
  rcases settled.newest.rank_origin fun claim judged => (settled.inv.handled claim judged).2 with
    first | judged
  · rw [first]
    rcases begun with ⟨name, stamp⟩ | ⟨claim, judged, under, -⟩
    · rw [rank_eq, name, stamp, ← rank_eq]
      exact newest.keeps
    · exact under.trans (newest.beats claim (same claim judged))
  · exact newest.beats _ (same _ judged)

theorem SettledRun.same_name (same : ∀ claim, claim ∈ final.handled ↔ claim ∈ other.handled)
    (begun : SameStart roomCode initial otherInitial final.handled) :
    final.stored.name = other.stored.name := by
  have begunBack : SameStart roomCode otherInitial initial other.handled := by
    rcases begun with ⟨name, stamp⟩ | ⟨claim, judged, one, two⟩
    · exact Or.inl ⟨name.symm, stamp.symm⟩
    · exact Or.inr ⟨claim, (same claim).mp judged, two, one⟩
  have equal := (settled.below otherSettled (fun claim => (same claim).mp) begun).antisymm
    (otherSettled.below settled (fun claim => (same claim).mpr) begunBack)
  have stamps : nameStamp roomCode final.stored = nameStamp roomCode other.stored :=
    congrArg Claim.nameAt equal
  have names := congrArg Claim.name equal
  rw [rank_eq, rank_eq] at names
  by_cases placeholder : nameStamp roomCode final.stored = 0
  · -- Nobody chose either name, so each member still has the one it began with.
    have notJudged : ∀ claim ∈ final.handled, ¬ claim.Le (rank roomCode final.stored) := by
      intro claim judged less
      have stamped := (settled.inv.handled claim judged).2
      have under : claim.nameAt ≤ 0 := by
        rcases less with earlier | ⟨level, -⟩
        · exact le_of_lt (lt_of_lt_of_eq earlier placeholder)
        · exact le_of_eq (level.trans placeholder)
      exact absurd (stamped.trans under) (by decide)
    have first : final.stored.name = initial.name := by
      rcases settled.newest.origin with ⟨name, -⟩ | judged
      · exact name
      · exact absurd (settled.newest.beats _ judged) (notJudged _ judged)
    have second : other.stored.name = otherInitial.name := by
      rcases otherSettled.newest.origin with ⟨name, -⟩ | judged
      · exact name
      · have here := (same _).mpr judged
        exact absurd (settled.newest.beats _ here) (notJudged _ here)
    rcases begun with ⟨name, -⟩ | ⟨claim, judged, -⟩
    · rw [first, second, name]
    · exact absurd (settled.newest.beats claim judged) (notJudged claim judged)
  · simpa [placeholder, ← stamps] using names

end

end Settled

/-- In every run in which renames are written in order, each settled member holds the greatest
of its first name and the names it judged and its stored stamp never went back; members that
judged the same names agree; and a rename stamped with `nextNameStamp` is taken by every
member that holds the name it replaced. -/
theorem room_names_converge (roomCode : Text) (initial : NamedRoom) (events : List Event)
    (final : Member) (settled : SettledRun roomCode initial events final) :
    Newest roomCode initial final.handled final.stored ∧
      (∀ mirrored before after middle, events = before ++ after →
        Meets (step roomCode) (InOrder roomCode) (start initial mirrored) events →
        run (step roomCode) (start initial mirrored) before = some middle →
        run (step roomCode) middle after = some final →
        nameStamp roomCode middle.stored ≤ nameStamp roomCode final.stored) ∧
      (∀ otherInitial otherEvents other, SettledRun roomCode otherInitial otherEvents other →
        (∀ claim, claim ∈ final.handled ↔ claim ∈ other.handled) →
        SameStart roomCode initial otherInitial final.handled →
        final.stored.name = other.stored.name) ∧
      ∀ room held name now later, nameStamp roomCode held = nameStamp roomCode room →
        inRange (nextNameStamp roomCode (some room) now) later = true →
        judgeRoomName roomCode held name (some (nextNameStamp roomCode (some room) now)) later =
          .take := by
  refine ⟨settled.newest, ?_, fun _ _ _ otherSettled same begun =>
    settled.same_name otherSettled same begun, ?_⟩
  · rintro mirrored before after middle rfl ordered reached ran
    obtain ⟨first, later⟩ := meets_append.mp ordered
    have inv := run_inv settled.well reached first
    have keeps : ∀ member event next, NamesInv roomCode initial member ∧
        nameStamp roomCode middle.stored ≤ nameStamp roomCode member.stored →
        InOrder roomCode member event → step roomCode member event = some next →
        NamesInv roomCode initial next ∧
          nameStamp roomCode middle.stored ≤ nameStamp roomCode next.stored :=
      fun _ _ _ both ordered stepped =>
        ⟨both.1.step ordered stepped, both.2.trans (stamp_rises both.1 stepped)⟩
    exact (run_keeps keeps ⟨inv, le_rfl⟩ (later middle reached) ran).2
  · intro room held name now later same fits
    have after : nameStamp roomCode room < nextNameStamp roomCode (some room) now :=
      next_stamp_after room now
    rw [← same] at after
    unfold judgeRoomName
    simp only [getD_some, fits, Bool.not_true, Bool.false_eq_true, if_false, after, if_true]
    split_ifs <;> rfl

def sampleRoom : NamedRoom := ⟨text "Old", some 5⟩

/-- Two renames are judged newer than the same old name, the newer is written first: the
older one lands over it. -/
theorem room_name_goes_back :
    ¬ ∀ (roomCode : Text) (initial : NamedRoom) (mirrored : Bool) (events : List Event)
        (final : Member), WellNamed roomCode initial →
      run (step roomCode) (start initial mirrored) events = some final →
      final.handlers = [] → final.writing = [] →
      Newest roomCode initial final.handled final.stored := by
  intro newest
  have ran : run (step (text "rd2_x")) (start sampleRoom true)
      [.handleRoomName (text "Older") (some 6) 10, .handleRoomName (text "Newer") (some 7) 10,
        .answer 0, .answer 0, .resume 1 10, .resume 0 10, .land, .land] =
      some ⟨some ⟨text "Older", some 6⟩, ⟨text "Older", some 6⟩, [], [],
        [⟨6, text "Older"⟩, ⟨7, text "Newer"⟩]⟩ := by
    decide +kernel
  have held := newest (text "rd2_x") sampleRoom true _ _ (fun _ => by decide +kernel) ran rfl rfl
  have beaten := held.beats ⟨7, text "Newer"⟩ (by simp)
  exact absurd beaten (by decide +kernel)

/-- The newer name is written last, and a third one is answered. -/
theorem sample_room_names_converge :
    ∃ final, SettledRun (text "rd2_x") sampleRoom
        [.handleRoomName (text "Older") (some 6) 10, .handleRoomName (text "Newer") (some 7) 10,
          .answer 0, .answer 0, .resume 0 10, .resume 0 10, .land, .land,
          .handleRoomName (text "Late") none 10] final ∧
      Newest (text "rd2_x") sampleRoom final.handled final.stored := by
  have ran : run (step (text "rd2_x")) (start sampleRoom true)
      [.handleRoomName (text "Older") (some 6) 10, .handleRoomName (text "Newer") (some 7) 10,
        .answer 0, .answer 0, .resume 0 10, .resume 0 10, .land, .land,
        .handleRoomName (text "Late") none 10] =
      some ⟨some ⟨text "Newer", some 7⟩, ⟨text "Newer", some 7⟩, [], [],
        [⟨6, text "Older"⟩, ⟨7, text "Newer"⟩, ⟨1, text "Late"⟩]⟩ := by
    decide +kernel
  have settled : SettledRun (text "rd2_x") sampleRoom _ _ :=
    ⟨fun _ => by decide +kernel, ⟨true, ran, by decide +kernel⟩, rfl, rfl⟩
  exact ⟨_, settled, (room_names_converge (text "rd2_x") sampleRoom _ _ settled).1⟩

end AwfulChat.RoomNames
