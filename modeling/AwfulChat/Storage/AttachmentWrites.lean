import AwfulChat.Library.Interleaving
import Mathlib.Order.Nat

/-!
# Status and bytes of one attachment row

`updateAttachmentStatus` and `updateAttachmentData` of `storage.ts`, any number of
them side by side on one row. Each reads the row, opens and seals outside any
transaction, and writes the whole record it built if the status rank of the row
then stored lets it. The rank never goes back, a deleted row stays deleted and
a data update runs at most twice; the bytes stay unless a `seeding` update built
from a row without them is written over a `complete` row that has them.
-/

namespace AwfulChat.Storage

open Library Option Bool

set_option autoImplicit false

inductive AttachmentStatus where
  | pending
  | downloading
  | failed
  | complete
  | seeding
  deriving DecidableEq

def attachmentStatusRank : AttachmentStatus → Nat
  | .pending => 0
  | .downloading => 1
  | .failed => 2
  | .complete => 3
  | .seeding => 4

/-- An attachment record: its bytes, its status and the fields no update changes. -/
structure Attachment (Info Bytes : Type) where
  info : Info
  data : Option Bytes
  status : AttachmentStatus

/-- A stored row: the IV of its seal, none for a plaintext row, and whether it opens. -/
structure AttachmentRow (Info Bytes : Type) where
  record : Attachment Info Bytes
  iv : Option Nat
  readable : Bool

inductive AttachmentUpdate (Bytes : Type) where
  | status (status : AttachmentStatus)
  | data (bytes : Bytes)
  deriving DecidableEq

inductive UpdatePhase (Info Bytes : Type) where
  | reading
  | opening (stored : AttachmentRow Info Bytes)
  | purging (stored : AttachmentRow Info Bytes)
  | sealing (record : Attachment Info Bytes)
  | committing (sealed : AttachmentRow Info Bytes)
  | finished

structure UpdateJob (Info Bytes : Type) where
  update : AttachmentUpdate Bytes
  phase : UpdatePhase Info Bytes
  retries : Nat

structure AttachmentStore (Info Bytes : Type) where
  row : Option (AttachmentRow Info Bytes)
  nextIv : Nat

section Model

variable {Info Bytes : Type}

def AttachmentRow.rank (row : AttachmentRow Info Bytes) : Nat :=
  attachmentStatusRank row.record.status

def openRow (row : AttachmentRow Info Bytes) : Option (Attachment Info Bytes) :=
  if row.readable then some row.record else none

/-- What an update makes of the record it opened, if it goes on. -/
def updatedRecord (attachment : Attachment Info Bytes) :
    AttachmentUpdate Bytes → Option (Attachment Info Bytes)
  | .status status =>
    if attachmentStatusRank status ≤ attachmentStatusRank attachment.status then none
    else some { attachment with status }
  | .data bytes =>
    some { attachment with
      data := some bytes
      status :=
        if attachmentStatusRank .complete ≤ attachmentStatusRank attachment.status then
          attachment.status
        else .complete }

/-- `database.get`, and for a status the check of the clear status on it. -/
def readPhase (row : Option (AttachmentRow Info Bytes)) :
    AttachmentUpdate Bytes → UpdatePhase Info Bytes
  | .status status =>
    match row with
    | none => .finished
    | some stored =>
      if attachmentStatusRank status ≤ stored.rank then .finished else .opening stored
  | .data _ =>
    match row with
    | none => .finished
    | some stored => .opening stored

/-- `_purgeUnreadable`: only the very row that failed to open. -/
def purgeUnreadable (row : Option (AttachmentRow Info Bytes)) (dead : AttachmentRow Info Bytes) :
    Option (AttachmentRow Info Bytes) :=
  match row with
  | some current => if current.iv = dead.iv then none else some current
  | none => none

inductive CommitResult (Info Bytes : Type) where
  | dropped
  | retry
  | put (sealed : AttachmentRow Info Bytes)

/-- The write transaction: the freshest row decides. -/
def commitUpdate (row : Option (AttachmentRow Info Bytes)) (sealed : AttachmentRow Info Bytes) :
    AttachmentUpdate Bytes → CommitResult Info Bytes
  | .status status =>
    match row with
    | none => .dropped
    | some fresh =>
      if attachmentStatusRank status ≤ fresh.rank then .dropped else .put sealed
  | .data _ =>
    match row with
    | none => .dropped
    | some fresh => if sealed.rank < fresh.rank then .retry else .put sealed

def updateAct (store : AttachmentStore Info Bytes) (job : UpdateJob Info Bytes) :
    Option (AttachmentStore Info Bytes × UpdateJob Info Bytes) :=
  match job.phase with
  | .reading => some (store, { job with phase := readPhase store.row job.update })
  | .opening stored =>
    match openRow stored with
    | none => some (store, { job with phase := .purging stored })
    | some attachment =>
      match updatedRecord attachment job.update with
      | none => some (store, { job with phase := .finished })
      | some record => some (store, { job with phase := .sealing record })
  | .purging stored =>
    some ({ store with row := purgeUnreadable store.row stored }, { job with phase := .finished })
  | .sealing record =>
    some ({ store with nextIv := store.nextIv + 1 },
      { job with phase := .committing ⟨record, some store.nextIv, true⟩ })
  | .committing sealed =>
    match commitUpdate store.row sealed job.update with
    | .dropped => some (store, { job with phase := .finished })
    | .retry => some (store, { job with phase := .reading, retries := job.retries + 1 })
    | .put row => some ({ store with row := some row }, { job with phase := .finished })
  | .finished => none

/-- The updates of one row, and from outside only the deletion of the row. -/
def attachmentUpdates (Info Bytes : Type) :
    Program (AttachmentStore Info Bytes) (AttachmentUpdate Bytes) (UpdateJob Info Bytes) Unit where
  start := fun store update => (store, ⟨update, .reading, 0⟩)
  act := updateAct
  outside := fun store _ => some { store with row := none }

/-- What one act of an update can do to the row and to the update: its row, its
phase and its retries afterwards. -/
inductive UpdateMove (row : Option (AttachmentRow Info Bytes)) (job : UpdateJob Info Bytes) :
    Option (AttachmentRow Info Bytes) → UpdatePhase Info Bytes → Nat → Prop where
  | returned : job.phase ≠ .finished → UpdateMove row job row .finished job.retries
  | read (stored : AttachmentRow Info Bytes) : job.phase = .reading → row = some stored →
      UpdateMove row job row (.opening stored) job.retries
  | unreadable (stored : AttachmentRow Info Bytes) : job.phase = .opening stored →
      UpdateMove row job row (.purging stored) job.retries
  | opened (stored : AttachmentRow Info Bytes) (record : Attachment Info Bytes) :
      job.phase = .opening stored → updatedRecord stored.record job.update = some record →
      UpdateMove row job row (.sealing record) job.retries
  | purged (stored : AttachmentRow Info Bytes) : job.phase = .purging stored →
      UpdateMove row job none .finished job.retries
  | sealed (record : Attachment Info Bytes) (iv : Option Nat) : job.phase = .sealing record →
      UpdateMove row job row (.committing ⟨record, iv, true⟩) job.retries
  | retried (sealed fresh : AttachmentRow Info Bytes) (bytes : Bytes) :
      job.phase = .committing sealed → job.update = .data bytes → row = some fresh →
      sealed.rank < fresh.rank → UpdateMove row job row .reading (job.retries + 1)
  | put_status (sealed fresh : AttachmentRow Info Bytes) (status : AttachmentStatus) :
      job.phase = .committing sealed → job.update = .status status → row = some fresh →
      fresh.rank < attachmentStatusRank status →
      UpdateMove row job (some sealed) .finished job.retries
  | put_data (sealed fresh : AttachmentRow Info Bytes) (bytes : Bytes) :
      job.phase = .committing sealed → job.update = .data bytes → row = some fresh →
      fresh.rank ≤ sealed.rank → UpdateMove row job (some sealed) .finished job.retries

section Moves

variable {store shared : AttachmentStore Info Bytes} {job after : UpdateJob Info Bytes}

theorem read_moves (row : Option (AttachmentRow Info Bytes)) (reads : job.phase = .reading) :
    UpdateMove row job row (readPhase row job.update) job.retries := by
  have unfinished : job.phase ≠ .finished := by
    rw [reads]
    simp
  cases row with
  | none => cases job.update <;> exact .returned unfinished
  | some stored =>
    cases job.update with
    | data bytes => exact .read stored reads rfl
    | status status =>
      simp only [readPhase]
      split_ifs
      · exact .returned unfinished
      · exact .read stored reads rfl

theorem purge_moves (row : Option (AttachmentRow Info Bytes)) {dead : AttachmentRow Info Bytes}
    (purges : job.phase = .purging dead) :
    UpdateMove row job (purgeUnreadable row dead) .finished job.retries := by
  have unfinished : job.phase ≠ .finished := by
    rw [purges]
    simp
  cases row with
  | none => exact .returned unfinished
  | some current =>
    simp only [purgeUnreadable]
    split_ifs
    · exact .purged dead purges
    · exact .returned unfinished

theorem commit_moves (store : AttachmentStore Info Bytes) {sealed : AttachmentRow Info Bytes}
    (commits : job.phase = .committing sealed)
    (acted : updateAct store job = some (shared, after)) :
    UpdateMove store.row job shared.row after.phase after.retries := by
  have unfinished : job.phase ≠ .finished := by
    rw [commits]
    simp
  simp only [updateAct, commits] at acted
  cases found : store.row with
  | none =>
    cases update : job.update <;>
    · simp only [commitUpdate, found, update] at acted
      cases acted
      simpa only [found] using UpdateMove.returned unfinished
  | some fresh =>
    cases update : job.update with
    | status status =>
      simp only [commitUpdate, found, update] at acted
      split_ifs at acted with above
      · cases acted
        simpa only [found] using UpdateMove.returned unfinished
      · cases acted
        exact .put_status sealed fresh status commits update rfl (by omega)
    | data bytes =>
      simp only [commitUpdate, found, update] at acted
      split_ifs at acted with below
      · cases acted
        simpa only [found] using UpdateMove.retried sealed fresh bytes commits update rfl below
      · cases acted
        exact .put_data sealed fresh bytes commits update rfl (by omega)

theorem update_act_moves (acted : updateAct store job = some (shared, after)) :
    UpdateMove store.row job shared.row after.phase after.retries ∧ after.update = job.update := by
  cases phase : job.phase with
  | reading =>
    simp only [updateAct, phase, Option.some.injEq, Prod.mk.injEq] at acted
    obtain ⟨rfl, rfl⟩ := acted
    exact ⟨read_moves _ phase, rfl⟩
  | opening stored =>
    simp only [updateAct, phase, openRow] at acted
    split_ifs at acted with readable
    · cases made : updatedRecord stored.record job.update with
      | none =>
        simp only [made] at acted
        cases acted
        exact ⟨.returned (by rw [phase]; simp), rfl⟩
      | some record =>
        simp only [made] at acted
        cases acted
        exact ⟨.opened stored record phase made, rfl⟩
    · cases acted
      exact ⟨.unreadable stored phase, rfl⟩
  | purging stored =>
    simp only [updateAct, phase, Option.some.injEq, Prod.mk.injEq] at acted
    obtain ⟨rfl, rfl⟩ := acted
    exact ⟨purge_moves _ phase, rfl⟩
  | sealing record =>
    simp only [updateAct, phase, Option.some.injEq, Prod.mk.injEq] at acted
    obtain ⟨rfl, rfl⟩ := acted
    exact ⟨.sealed record _ phase, rfl⟩
  | committing sealed =>
    refine ⟨commit_moves store phase acted, ?_⟩
    simp only [updateAct, phase] at acted
    cases result : commitUpdate store.row sealed job.update <;>
    · simp only [result] at acted
      cases acted
      rfl
  | finished =>
    simp only [updateAct, phase] at acted
    cases acted

end Moves

/-- The record an update carries towards its write. -/
def UpdatePhase.seen : UpdatePhase Info Bytes → Option (Attachment Info Bytes)
  | .opening stored => some stored.record
  | .sealing record => some record
  | .committing sealed => some sealed.record
  | _ => none

def UpdatePhase.built : UpdatePhase Info Bytes → Option (Attachment Info Bytes)
  | .sealing record => some record
  | .committing sealed => some sealed.record
  | _ => none

/-- The record an update builds is the one it was asked for, and a second
pass of a data update can only meet a `seeding` row. -/
structure UpdateSound (row : Option (AttachmentRow Info Bytes)) (job : UpdateJob Info Bytes) :
    Prop where
  status : ∀ status record, job.update = .status status → job.phase.built = some record →
    record.status = status
  data : ∀ bytes record, job.update = .data bytes → job.phase.built = some record →
    record.data.isSome ∧
      attachmentStatusRank .complete ≤ attachmentStatusRank record.status
  again : job.retries = 0 ∨ job.retries = 1 ∧
    (∀ stored, row = some stored → stored.record.status = .seeding) ∧
    ∀ record, job.phase.seen = some record → record.status = .seeding

/-- A stored row follows one of no higher rank: none appears, none goes back. -/
def RankMoves (before after : Option (AttachmentRow Info Bytes)) : Prop :=
  ∀ row, after = some row → ∃ old, before = some old ∧ old.rank ≤ row.rank

theorem rank_le_seeding (status : AttachmentStatus) :
    attachmentStatusRank status ≤ attachmentStatusRank .seeding := by
  cases status <;> decide

variable {first second third : Option (AttachmentRow Info Bytes)}
  {before after : Option (AttachmentRow Info Bytes)} {status : AttachmentStatus}

theorem seeding_of_rank
    (above : attachmentStatusRank .seeding ≤ attachmentStatusRank status) : status = .seeding := by
  cases status <;> first | rfl | exact absurd above (by decide)

theorem complete_of_rank (above : attachmentStatusRank .complete ≤ attachmentStatusRank status)
    (below : attachmentStatusRank status < attachmentStatusRank .seeding) : status = .complete := by
  cases status <;> first | rfl | exact absurd above (by decide) | exact absurd below (by decide)

theorem rank_moves_refl (row : Option (AttachmentRow Info Bytes)) : RankMoves row row := by
  intro stored found
  exact ⟨stored, found, le_refl _⟩

theorem rank_moves_trans (early : RankMoves first second)
    (late : RankMoves second third) : RankMoves first third := by
  intro row found
  obtain ⟨middle, at_middle, late_le⟩ := late row found
  obtain ⟨old, at_old, early_le⟩ := early middle at_middle
  exact ⟨old, at_old, le_trans early_le late_le⟩

theorem RankMoves.seeding (moves : RankMoves before after)
    (all : ∀ stored, before = some stored → stored.record.status = .seeding) :
    ∀ stored, after = some stored → stored.record.status = .seeding := by
  intro stored found
  obtain ⟨old, at_old, above⟩ := moves stored found
  apply seeding_of_rank
  rw [← all old at_old]
  exact above

section Sound

variable {row after : Option (AttachmentRow Info Bytes)} {job : UpdateJob Info Bytes}
  {phase : UpdatePhase Info Bytes} {retries : Nat}

theorem UpdateMove.rank_moves (move : UpdateMove row job after phase retries)
    (sound : UpdateSound row job) : RankMoves row after := by
  cases move with
  | put_status sealed fresh status phase update found below =>
    intro stored same
    cases same
    have set : sealed.record.status = status :=
      sound.status status sealed.record update (by rw [phase]; rfl)
    refine ⟨fresh, found, ?_⟩
    rw [AttachmentRow.rank, AttachmentRow.rank, set]
    exact le_of_lt below
  | put_data sealed fresh bytes phase update found above =>
    intro stored same
    cases same
    exact ⟨fresh, found, above⟩
  | purged =>
    nofun
  | _ => exact rank_moves_refl row

theorem UpdateSound.stable (sound : UpdateSound row job) (moves : RankMoves row after) :
    UpdateSound after job := by
  refine ⟨sound.status, sound.data, ?_⟩
  rcases sound.again with none | ⟨once, all, carried⟩
  · exact Or.inl none
  · exact Or.inr ⟨once, moves.seeding all, carried⟩

theorem UpdateSound.unbuilt (sound : UpdateSound row job) (unbuilt : phase.built = none)
    (carry : (∀ stored, row = some stored → stored.record.status = .seeding) →
      ∀ record, phase.seen = some record → record.status = .seeding) :
    UpdateSound row { job with phase := phase } := by
  refine ⟨?_, ?_, ?_⟩
  · intro status record update built
    rw [unbuilt] at built
    cases built
  · intro bytes record update built
    rw [unbuilt] at built
    cases built
  · rcases sound.again with none | ⟨once, all, carried⟩
    · exact Or.inl none
    · exact Or.inr ⟨once, all, carry all⟩

theorem UpdateSound.unseen (sound : UpdateSound row job) (unbuilt : phase.built = none)
    (unseen : phase.seen = none) : UpdateSound row { job with phase := phase } := by
  apply sound.unbuilt unbuilt
  intro all record seen
  rw [unseen] at seen
  cases seen

variable {attachment record : Attachment Info Bytes}

theorem updated_record_status {status : AttachmentStatus}
    (made : updatedRecord attachment (.status status) = some record) :
    record = { attachment with status } := by
  simp only [updatedRecord] at made
  split_ifs at made
  cases made
  rfl

theorem updated_record_data {bytes : Bytes}
    (made : updatedRecord attachment (.data bytes) = some record) :
    record.data.isSome ∧ attachmentStatusRank .complete ≤ attachmentStatusRank record.status := by
  simp only [updatedRecord, Option.some.injEq] at made
  subst made
  refine ⟨rfl, ?_⟩
  dsimp only
  split_ifs with above
  · exact above
  · exact le_refl _

theorem updated_record_seeding {update : AttachmentUpdate Bytes}
    (made : updatedRecord attachment update = some record)
    (seeding : attachment.status = .seeding) : record.status = .seeding := by
  cases update with
  | status status =>
    simp only [updatedRecord, seeding, rank_le_seeding, if_true] at made
    cases made
  | data bytes =>
    simp only [updatedRecord, seeding, Option.some.injEq] at made
    subst made
    rfl

section

variable {sealed fresh : AttachmentRow Info Bytes} (sound : UpdateSound row job)
  (commits : job.phase = .committing sealed)
include sound commits

theorem UpdateSound.seeding_fresh {bytes : Bytes} (update : job.update = .data bytes)
    (below : sealed.rank < fresh.rank) :
    fresh.record.status = .seeding := by
  have complete := (sound.data bytes sealed.record update (by rw [commits]; rfl)).2
  have above : attachmentStatusRank .complete < attachmentStatusRank fresh.record.status :=
    lt_of_le_of_lt complete below
  exact seeding_of_rank above

theorem UpdateSound.first_retry (below : sealed.rank < fresh.rank) : job.retries = 0 := by
  rcases sound.again with none | ⟨once, all, carried⟩
  · exact none
  · have stale : sealed.record.status = .seeding := carried sealed.record (by rw [commits]; rfl)
    have above := rank_le_seeding fresh.record.status
    rw [AttachmentRow.rank, AttachmentRow.rank, stale] at below
    omega

end

theorem UpdateMove.sound (move : UpdateMove row job after phase retries)
    (sound : UpdateSound row job) :
    UpdateSound row { job with phase := phase, retries := retries } := by
  cases move with
  | returned | purged | put_status | put_data | unreadable => exact sound.unseen rfl rfl
  | read stored reads found =>
    apply sound.unbuilt rfl
    intro all record seen
    cases seen
    exact all stored found
  | opened stored record opens made =>
    refine ⟨?_, ?_, ?_⟩
    · intro status other update built
      cases built
      change job.update = .status status at update
      rw [update] at made
      rw [updated_record_status made]
    · intro bytes other update built
      cases built
      change job.update = .data bytes at update
      rw [update] at made
      exact updated_record_data made
    · rcases sound.again with none | ⟨once, all, carried⟩
      · exact Or.inl none
      · refine Or.inr ⟨once, all, ?_⟩
        intro other seen
        cases seen
        have before : stored.record.status = .seeding :=
          carried stored.record (by rw [opens]; rfl)
        exact updated_record_seeding made before
  | sealed record iv seals =>
    refine ⟨?_, ?_, ?_⟩
    · intro status other update built
      cases built
      exact sound.status status record update (by rw [seals]; rfl)
    · intro bytes other update built
      cases built
      exact sound.data bytes record update (by rw [seals]; rfl)
    · rcases sound.again with none | ⟨once, all, carried⟩
      · exact Or.inl none
      · refine Or.inr ⟨once, all, ?_⟩
        intro other seen
        cases seen
        exact carried record (by rw [seals]; rfl)
  | retried sealed fresh bytes commits update found below =>
    refine ⟨?_, ?_, Or.inr ⟨?_, ?_, ?_⟩⟩
    · nofun
    · nofun
    · rw [sound.first_retry commits below]
    · intro stored same
      rw [found] at same
      cases same
      exact sound.seeding_fresh commits update below
    · nofun

end Sound

/-- A `seeding` update built from a row without bytes, about to be written over
a `complete` row that has them. -/
def dropsBytes (row : Option (AttachmentRow Info Bytes)) (job : UpdateJob Info Bytes) : Bool :=
  match job.update, job.phase, row with
  | .status .seeding, .committing sealed, some fresh =>
    sealed.record.data.isNone && fresh.record.data.isSome &&
      decide (fresh.record.status = .complete)
  | _, _, _ => false

/-- What a status update carries about the bytes of the row. -/
structure BytesHeld (row : Option (AttachmentRow Info Bytes)) (job : UpdateJob Info Bytes) :
    Prop where
  kept : ∀ status record, job.update = .status status → job.phase.seen = some record →
    record.data.isSome → ∀ stored, row = some stored → stored.record.data.isSome
  lacking : ∀ status record, job.update = .status status → job.phase.seen = some record →
    record.data = none → ∀ stored, row = some stored → stored.record.data.isSome →
    attachmentStatusRank .complete ≤ stored.rank

/-- Bytes stay, and a row that gains them is `complete` or further. -/
def BytesMoves (before after : Option (AttachmentRow Info Bytes)) : Prop :=
  ∀ row, after = some row → ∃ old, before = some old ∧ old.rank ≤ row.rank ∧
    (old.record.data.isSome → row.record.data.isSome) ∧
    (row.record.data.isSome →
      old.record.data.isSome ∨ attachmentStatusRank .complete ≤ row.rank)

theorem bytes_moves_refl (row : Option (AttachmentRow Info Bytes)) : BytesMoves row row := by
  intro stored found
  exact ⟨stored, found, le_refl _, id, Or.inl⟩

theorem bytes_moves_trans (early : BytesMoves first second) (late : BytesMoves second third) :
    BytesMoves first third := by
  intro row found
  obtain ⟨middle, at_middle, late_le, late_keeps, late_gains⟩ := late row found
  obtain ⟨old, at_old, early_le, early_keeps, early_gains⟩ := early middle at_middle
  refine ⟨old, at_old, le_trans early_le late_le, fun has => late_keeps (early_keeps has), ?_⟩
  intro has
  rcases late_gains has with had | complete
  · rcases early_gains had with had | complete
    · exact Or.inl had
    · exact Or.inr (le_trans complete late_le)
  · exact Or.inr complete

theorem BytesMoves.rank (moves : BytesMoves before after) : RankMoves before after := by
  intro row found
  obtain ⟨old, at_old, above, -, -⟩ := moves row found
  exact ⟨old, at_old, above⟩

section BytesKept

variable {row after : Option (AttachmentRow Info Bytes)} {job : UpdateJob Info Bytes}
  {phase : UpdatePhase Info Bytes} {retries : Nat}

theorem BytesHeld.stable (held : BytesHeld row job) (moves : BytesMoves row after) :
    BytesHeld after job := by
  refine ⟨?_, ?_⟩
  · intro status record update seen has stored found
    obtain ⟨old, at_old, -, keeps, -⟩ := moves stored found
    exact keeps (held.kept status record update seen has old at_old)
  · intro status record update seen lacks stored found has
    obtain ⟨old, at_old, above, -, gains⟩ := moves stored found
    rcases gains has with had | complete
    · exact le_trans (held.lacking status record update seen lacks old at_old had) above
    · exact complete

theorem drops_bytes_of_put {sealed fresh : AttachmentRow Info Bytes} {status : AttachmentStatus}
    (held : BytesHeld row job) (commits : job.phase = .committing sealed)
    (update : job.update = .status status) (found : row = some fresh)
    (below : fresh.rank < attachmentStatusRank status) (lacks : sealed.record.data = none)
    (has : fresh.record.data.isSome) :
    dropsBytes row job = true := by
  have complete : attachmentStatusRank .complete ≤ fresh.rank :=
    held.lacking status sealed.record update (by rw [commits]; rfl) lacks fresh found has
  have seeding : status = .seeding := by
    apply seeding_of_rank
    have above : attachmentStatusRank .complete < attachmentStatusRank status :=
      lt_of_le_of_lt complete below
    exact above
  subst seeding
  have still : fresh.record.status = .complete := complete_of_rank complete below
  simp [dropsBytes, update, commits, found, lacks, has, still]

theorem UpdateMove.bytes_moves (move : UpdateMove row job after phase retries)
    (sound : UpdateSound row job) (held : BytesHeld row job)
    (safe : dropsBytes row job = false) : BytesMoves row after := by
  have ranks := move.rank_moves sound
  cases move with
  | put_status sealed fresh status commits update found below =>
    intro stored same
    cases same
    obtain ⟨old, at_old, above⟩ := ranks sealed rfl
    rw [found] at at_old
    cases at_old
    refine ⟨fresh, found, above, ?_, ?_⟩
    · intro has
      by_contra missing
      have lacks : sealed.record.data = none := by simpa using missing
      rw [drops_bytes_of_put held commits update found below lacks has] at safe
      cases safe
    · intro has
      exact Or.inl (held.kept status sealed.record update (by rw [commits]; rfl) has fresh found)
  | put_data sealed fresh bytes commits update found above =>
    intro stored same
    cases same
    obtain ⟨has, complete⟩ := sound.data bytes sealed.record update (by rw [commits]; rfl)
    exact ⟨fresh, found, above, fun _ => has, fun _ => Or.inr complete⟩
  | purged =>
    nofun
  | _ => exact bytes_moves_refl row

theorem BytesHeld.unseen (row : Option (AttachmentRow Info Bytes)) (job : UpdateJob Info Bytes)
    (unseen : job.phase.seen = none) : BytesHeld row job := by
  refine ⟨?_, ?_⟩ <;>
  · intro status record update seen
    rw [unseen] at seen
    cases seen

theorem BytesHeld.carry (held : BytesHeld row job) (before : Attachment Info Bytes)
    (seen : job.phase.seen = some before)
    (same : ∀ status record, job.update = .status status → phase.seen = some record →
      record.data = before.data) :
    BytesHeld row { job with phase := phase, retries := retries } := by
  refine ⟨?_, ?_⟩
  · intro status record update now has
    rw [same status record update now] at has
    exact held.kept status before update seen has
  · intro status record update now lacks
    rw [same status record update now] at lacks
    exact held.lacking status before update seen lacks

theorem UpdateMove.bytes_held (move : UpdateMove row job after phase retries)
    (held : BytesHeld row job) :
    BytesHeld row { job with phase := phase, retries := retries } := by
  cases move with
  | read stored reads found =>
    refine ⟨?_, ?_⟩
    · intro status record update seen has other there
      cases seen
      rw [found] at there
      cases there
      exact has
    · intro status record update seen lacks other there has
      cases seen
      rw [found] at there
      cases there
      rw [lacks] at has
      cases has
  | opened stored record opens made =>
    apply held.carry stored.record (by rw [opens]; rfl)
    intro status other update seen
    cases seen
    rw [update] at made
    rw [updated_record_status made]
  | sealed record iv seals =>
    apply held.carry record (by rw [seals]; rfl)
    intro status other update seen
    cases seen
    rfl
  | _ => exact BytesHeld.unseen _ _ rfl

end BytesKept

def UpdatePhase.left : UpdatePhase Info Bytes → Nat
  | .reading => 4
  | .opening _ => 3
  | .purging _ => 1
  | .sealing _ => 2
  | .committing _ => 1
  | .finished => 0

/-- An upper bound on the acts an update still has to take. -/
def UpdateJob.left (job : UpdateJob Info Bytes) : Nat :=
  job.phase.left + if job.retries = 0 then 4 else 0

def bytesSafe (pool : Pool (AttachmentStore Info Bytes) (UpdateJob Info Bytes)) :
    Turn (AttachmentUpdate Bytes) Unit → Bool
  | .advance index =>
    match pool.jobs[index]? with
    | some job => !dropsBytes pool.shared.row job
    | none => true
  | _ => true

section Runs

variable {row after : Option (AttachmentRow Info Bytes)} {job : UpdateJob Info Bytes}
  {phase : UpdatePhase Info Bytes} {retries : Nat}

theorem UpdateMove.left_lt (move : UpdateMove row job after phase retries)
    (sound : UpdateSound row job) :
    UpdateJob.left { job with phase := phase, retries := retries } < job.left := by
  unfold UpdateJob.left
  cases move with
  | returned unfinished =>
    cases found : job.phase <;> simp [UpdatePhase.left, found] at unfinished ⊢
  | retried sealed fresh bytes commits update found below =>
    have first := sound.first_retry commits below
    simp [UpdatePhase.left, commits, first]
  | read _ phase | unreadable _ phase | opened _ _ phase | purged _ phase | sealed _ _ phase
  | put_status _ _ _ phase | put_data _ _ _ phase => simp [UpdatePhase.left, phase]

theorem updates_sound :
    Keeps (attachmentUpdates Info Bytes) (fun _ _ => True) (fun _ => True)
      (fun store job => UpdateSound store.row job)
      (fun before after => RankMoves before.row after.row) where
  refl := fun store => rank_moves_refl store.row
  trans := rank_moves_trans
  start := by
    intro pool update store job _ _ started
    cases started
    refine ⟨trivial, ⟨?_, ?_, Or.inl rfl⟩, rank_moves_refl _⟩
    · nofun
    · nofun
  act := by
    intro pool index job store after _ _ _ sound acted
    obtain ⟨move, same⟩ := update_act_moves acted
    have moves := move.rank_moves sound
    have kept := (move.sound sound).stable moves
    rw [← same] at kept
    exact ⟨trivial, kept, moves⟩
  outside := by
    intro pool event store _ _ happened
    cases happened
    refine ⟨trivial, ?_⟩
    nofun
  stable := fun _ moves sound => sound.stable moves

theorem updates_keep_bytes :
    Keeps (attachmentUpdates Info Bytes) (fun pool turn => bytesSafe pool turn = true)
      (fun _ => True) (fun store job => UpdateSound store.row job ∧ BytesHeld store.row job)
      (fun before after => BytesMoves before.row after.row) where
  refl := fun store => bytes_moves_refl store.row
  trans := bytes_moves_trans
  start := by
    intro pool update store job _ valid started
    obtain ⟨-, sound, -⟩ := updates_sound.start trivial valid started
    cases started
    exact ⟨trivial, ⟨sound, BytesHeld.unseen _ _ rfl⟩, bytes_moves_refl _⟩
  act := by
    intro pool index job store after found meets _ held acted
    have safe : dropsBytes pool.shared.row job = false := by
      simpa only [bytesSafe, found, not_eq_true'] using meets
    obtain ⟨move, same⟩ := update_act_moves acted
    have moves := move.bytes_moves held.1 held.2 safe
    have sound := (move.sound held.1).stable moves.rank
    have bytes := (move.bytes_held held.2).stable moves
    rw [← same] at sound bytes
    exact ⟨trivial, ⟨sound, bytes⟩, moves⟩
  outside := by
    intro pool event store _ _ happened
    cases happened
    refine ⟨trivial, ?_⟩
    nofun
  stable := fun _ moves held => ⟨held.1.stable moves.rank, held.2.stable moves⟩

/-- Wherever the run had stored bytes, every version it stored later has bytes. -/
def BytesKept (pool : Pool (AttachmentStore Info Bytes) (UpdateJob Info Bytes))
    (turns : List (Turn (AttachmentUpdate Bytes) Unit)) : Prop :=
  ∀ before between after middle later, turns = before ++ (between ++ after) →
    run (attachmentUpdates Info Bytes).step pool before = some middle →
    run (attachmentUpdates Info Bytes).step middle between = some later →
    ∀ old row, middle.shared.row = some old → later.shared.row = some row →
      old.record.data.isSome → row.record.data.isSome

variable {store : AttachmentStore Info Bytes}

theorem bytes_kept_of_safe
    {turns : List (Turn (AttachmentUpdate Bytes) Unit)}
    (meets : Meets (attachmentUpdates Info Bytes).step
      (fun pool turn => bytesSafe pool turn = true) ⟨store, []⟩ turns) :
    BytesKept ⟨store, []⟩ turns := by
  intro before between after middle later split reached went old row at_old at_row has
  subst split
  obtain ⟨first, rest⟩ := meets_append.mp meets
  obtain ⟨second, -⟩ := meets_append.mp (rest middle reached)
  obtain ⟨good, -⟩ := updates_keep_bytes.run ⟨trivial, by simp⟩ first reached
  obtain ⟨-, moves⟩ := updates_keep_bytes.run good second went
  obtain ⟨source, at_source, -, keeps, -⟩ := moves row at_row
  rw [at_old] at at_source
  cases at_source
  exact keeps has

theorem unsafe_step_drops {pool next : Pool (AttachmentStore Info Bytes) (UpdateJob Info Bytes)}
    {turn : Turn (AttachmentUpdate Bytes) Unit} (risky : ¬bytesSafe pool turn = true)
    (stepped : (attachmentUpdates Info Bytes).step pool turn = some next) :
    ∃ old row, pool.shared.row = some old ∧ next.shared.row = some row ∧
      old.record.data.isSome ∧ row.record.data = none := by
  cases turn with
  | start update | outside event => exact absurd rfl risky
  | advance index =>
    obtain ⟨job, store, after, found, acted, same⟩ := advance_some stepped
    subst same
    simp only [bytesSafe, found, not_eq_true', not_eq_false] at risky
    unfold dropsBytes at risky
    split at risky
    · next sealed fresh update commits at_fresh =>
        simp only [and_eq_true, decide_eq_true_eq] at risky
        obtain ⟨⟨lacks, has⟩, complete⟩ := risky
        have passes : ¬attachmentStatusRank .seeding ≤ fresh.rank := by
          rw [AttachmentRow.rank, complete]
          decide
        change updateAct pool.shared job = some (store, after) at acted
        simp only [updateAct, commits, commitUpdate, update, at_fresh, if_neg passes,
          Option.some.injEq, Prod.mk.injEq] at acted
        obtain ⟨rfl, -⟩ := acted
        exact ⟨fresh, sealed, at_fresh, rfl, has, by simpa using lacks⟩
    · cases risky

theorem update_act_isSome {job : UpdateJob Info Bytes}
    (unfinished : job.phase ≠ .finished) : (updateAct store job).isSome := by
  unfold updateAct
  split <;> first | rfl | skip
  · split
    · rfl
    · split <;> rfl
  · split <;> rfl
  · exact absurd ‹_› unfinished

/-- In every interleaving of updates, with the row deleted at any point: the rank
never goes back and a deleted row does not return, every update returns within
eight of its own acts, and the bytes stay exactly when no `seeding` update built
without them is written over a `complete` row that has them. -/
theorem attachment_updates_never_regress {store : AttachmentStore Info Bytes}
    {turns : List (Turn (AttachmentUpdate Bytes) Unit)}
    {final : Pool (AttachmentStore Info Bytes) (UpdateJob Info Bytes)}
    (ran : run (attachmentUpdates Info Bytes).step ⟨store, []⟩ turns = some final) :
    (∀ before after middle, turns = before ++ after →
      run (attachmentUpdates Info Bytes).step ⟨store, []⟩ before = some middle →
      RankMoves middle.shared.row final.shared.row) ∧
    (∀ index, turns.countP (Turn.advances index) ≤ 8) ∧
    (∀ index job, final.jobs[index]? = some job → job.phase ≠ .finished →
      ((attachmentUpdates Info Bytes).step final (.advance index)).isSome) ∧
    (Meets (attachmentUpdates Info Bytes).step (fun pool turn => bytesSafe pool turn = true)
        ⟨store, []⟩ turns ↔
      BytesKept ⟨store, []⟩ turns) := by
  have always (pool : Pool (AttachmentStore Info Bytes) (UpdateJob Info Bytes))
      (events : List (Turn (AttachmentUpdate Bytes) Unit)) :
      Meets (attachmentUpdates Info Bytes).step (fun _ _ => True) pool events :=
    meets_of_forall (fun _ _ => trivial) pool events
  refine ⟨?_, ?_, ?_, ?_⟩
  · intro before after middle split reached
    rw [split, run_append, reached, bind_some] at ran
    obtain ⟨good, -⟩ := updates_sound.run ⟨trivial, by simp⟩ (always _ _) reached
    exact (updates_sound.run good (always _ _) ran).2
  · intro index
    apply updates_sound.turns_bounded UpdateJob.left 8 _ _ _ (always _ _) ran
    · intro shared update
      exact le_refl 8
    · intro shared job next after _ sound acted
      obtain ⟨move, same⟩ := update_act_moves acted
      exact move.left_lt sound
    · exact ⟨trivial, by simp⟩
  · intro index job found unfinished
    simp only [Program.step, found, bind_some, isSome_map]
    exact update_act_isSome unfinished
  · refine ⟨bytes_kept_of_safe, ?_⟩
    intro kept
    by_contra fails
    obtain ⟨before, turn, after, middle, next, split, reached, stepped, risky⟩ :=
      exists_of_not_meets ran fails
    obtain ⟨old, row, at_old, at_row, has, lacks⟩ := unsafe_step_drops risky stepped
    have still := kept before [turn] after middle next split reached
      (by simp [run, stepped]) old row at_old at_row has
    rw [lacks] at still
    cases still

end Runs

end Model

section Schedules

def downloadingRow : AttachmentStore Unit (List UInt8) :=
  ⟨some ⟨⟨(), none, .downloading⟩, some 0, true⟩, 1⟩

def lateSeeding : List (Turn (AttachmentUpdate (List UInt8)) Unit) :=
  [.start (.status .seeding), .start (.data [1, 2]), .advance 0, .advance 1, .advance 1, .advance 1,
    .advance 1, .advance 0, .advance 0, .advance 0]

def retriedData : List (Turn (AttachmentUpdate (List UInt8)) Unit) :=
  [.start (.data [1, 2]), .advance 0, .advance 0, .advance 0, .start (.status .seeding), .advance 1,
    .advance 1, .advance 1, .advance 1, .advance 0, .advance 0, .advance 0, .advance 0, .advance 0]

theorem retried_data_lands :
    ∃ final, run (attachmentUpdates Unit (List UInt8)).step ⟨downloadingRow, []⟩ retriedData =
        some final ∧
      retriedData.countP (Turn.advances 0) ≤ 8 ∧ BytesKept ⟨downloadingRow, []⟩ retriedData := by
  have ran : run (attachmentUpdates Unit (List UInt8)).step ⟨downloadingRow, []⟩ retriedData =
    some _ := rfl
  obtain ⟨-, bounded, -, kept⟩ := attachment_updates_never_regress ran
  exact ⟨_, rfl, bounded 0, kept.mp (by decide)⟩

theorem late_seeding_drops_bytes :
    (run (attachmentUpdates Unit (List UInt8)).step ⟨downloadingRow, []⟩ lateSeeding).isSome ∧
      ¬BytesKept ⟨downloadingRow, []⟩ lateSeeding := by
  refine ⟨rfl, ?_⟩
  intro kept
  have still := kept (lateSeeding.take 7) (lateSeeding.drop 7) [] _ _ rfl rfl rfl _ _ rfl rfl rfl
  exact absurd still (by decide)

end Schedules

end AwfulChat.Storage
