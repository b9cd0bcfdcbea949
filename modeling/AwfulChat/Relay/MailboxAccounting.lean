import AwfulChat.Relay.Mailbox

/-!
# The counters of the mailbox are the files of the mailbox

Every operation of the mailbox is made of four moves: a blob goes, an index is
rewritten, an empty directory goes, a blob comes. Each keeps the counters and the
lists equal to what is on disk.
-/

namespace AwfulChat.Relay

open Library Library.OrderedMap
open List hiding get_of_mem
open Option hiding get_of_mem

set_option autoImplicit false

def devicesOf (m : Mailbox) (box id : String) : List String :=
  ((readAckIndex m box).get id).getD []

def sourceFiles (source : String) (_ : String × String) (origin : MailboxOrigin) : Int :=
  if origin.source = source then 1 else 0

def sourceBytes (source : String) (_ : String × String) (origin : MailboxOrigin) : Int :=
  if origin.source = source then origin.charge else 0

/-- The counters and the shares tell what is on disk. -/
structure Counted (m : Mailbox) : Prop where
  used : m.usedBytes = m.disk.total fun _ dir => dir.bytes
  files : m.files = m.disk.total fun _ dir => dir.files
  boxes : m.boxes = m.disk.size
  held : ∀ source, m.heldBy source =
    ⟨m.blobOrigin.total (sourceFiles source), m.blobOrigin.total (sourceBytes source)⟩
  origins : ∀ box id origin, m.blobOrigin.get (box, id) = some origin →
    ∃ blob, m.blobAt box id = some blob ∧ origin.charge = mailboxCharge blob.size
  ackedBytes : m.ackedBytes = m.acked.total fun _ charge => charge
  order : ∀ box, m.boxOrder.get box = none ↔ m.disk.get box = none

/-- And so do the blobs remembered as acked. -/
structure Accounted (m : Mailbox) : Prop extends Counted m where
  acked : ∀ box id, m.acked.get (box, id) = (m.blobAt box id).bind fun blob =>
    if devicesOf m box id = [] then none else some (mailboxCharge blob.size)

theorem mailbox_charge_pos (size : Nat) : 0 < mailboxCharge size := by
  unfold mailboxCharge mailboxBlockSize
  split_ifs <;> omega

theorem acks_charge_nonneg (acks : Option AckFile) : 0 ≤ acksCharge acks := by
  cases acks with
  | none => exact Int.le_refl 0
  | some file => exact Int.le_of_lt (mailbox_charge_pos _)

theorem blob_bytes_nonneg (blobs : OrderedMap String Blob) :
    0 ≤ blobs.total fun _ blob => mailboxCharge blob.size :=
  total_nonneg (fun _ _ => Int.le_of_lt (mailbox_charge_pos _)) blobs

theorem dir_bytes_nonneg (dir : BoxDir) : 0 ≤ dir.bytes := by
  have blobs := blob_bytes_nonneg dir.blobs
  have acks := acks_charge_nonneg dir.acks
  unfold BoxDir.bytes
  omega

theorem dir_files_nonneg (dir : BoxDir) : 0 ≤ dir.files := by
  unfold BoxDir.files
  split_ifs <;> omega

section Memory

variable (m : Mailbox) (box id : String) (key : String × String)

theorem forget_acked_eq : mailboxForgetAcked m key =
    { m with
      acked := m.acked.delete key
      ackedBytes := m.ackedBytes - (m.acked.get key).getD 0 } := by
  unfold mailboxForgetAcked
  cases found : m.acked.get key with
  | none => simp [delete_of_absent found]
  | some charge => rfl

theorem forget_origin_disk : (mailboxForgetOrigin m key).disk = m.disk := by
  unfold mailboxForgetOrigin
  split <;> rfl

theorem forget_origin_counters : (mailboxForgetOrigin m key).usedBytes = m.usedBytes ∧
    (mailboxForgetOrigin m key).files = m.files ∧ (mailboxForgetOrigin m key).boxes = m.boxes := by
  unfold mailboxForgetOrigin
  split <;> exact ⟨rfl, rfl, rfl⟩

theorem forget_origin_lists : (mailboxForgetOrigin m key).boxOrder = m.boxOrder ∧
    (mailboxForgetOrigin m key).acked = m.acked ∧
    (mailboxForgetOrigin m key).ackedBytes = m.ackedBytes := by
  unfold mailboxForgetOrigin
  split <;> exact ⟨rfl, rfl, rfl⟩

theorem forget_origin_origins :
    (mailboxForgetOrigin m key).blobOrigin = m.blobOrigin.delete key := by
  unfold mailboxForgetOrigin
  cases found : m.blobOrigin.get key with
  | none => exact (delete_of_absent found).symm
  | some origin => rfl

/-- What forgetting a blob changes, and what it leaves. -/
structure Forgets (before after : Mailbox) (key : String × String) : Prop where
  disk : after.disk = before.disk
  usedBytes : after.usedBytes = before.usedBytes
  files : after.files = before.files
  boxes : after.boxes = before.boxes
  boxOrder : after.boxOrder = before.boxOrder
  origins : after.blobOrigin = before.blobOrigin.delete key
  acked : after.acked = before.acked.delete key
  ackedBytes : after.ackedBytes = before.ackedBytes - (before.acked.get key).getD 0

theorem forget_blob_forgets : Forgets m (mailboxForgetBlob m box id) (box, id) := by
  unfold mailboxForgetBlob
  obtain ⟨used, files, boxes⟩ :=
    forget_origin_counters (mailboxForgetAcked m (box, id)) (box, id)
  obtain ⟨order, acked, bytes⟩ := forget_origin_lists (mailboxForgetAcked m (box, id)) (box, id)
  rw [forget_acked_eq] at used files boxes order acked bytes ⊢
  exact ⟨forget_origin_disk _ _, used, files, boxes, order, forget_origin_origins _ _, acked, bytes⟩

end Memory

section Shares

variable {m : Mailbox}

/-- The shares are those of the recorded blobs. -/
def HeldSound (m : Mailbox) : Prop :=
  ∀ source, m.heldBy source =
    ⟨m.blobOrigin.total (sourceFiles source), m.blobOrigin.total (sourceBytes source)⟩

theorem source_files_nonneg (source : String) (key : String × String) (origin : MailboxOrigin) :
    0 ≤ sourceFiles source key origin := by
  unfold sourceFiles
  split_ifs <;> omega

theorem held_by_set (source other : String) (share : MailboxShare) :
    Mailbox.heldBy { m with held := m.held.set source share } other =
      if other = source then share else m.heldBy other := by
  unfold Mailbox.heldBy
  dsimp only
  rw [get_set]
  split_ifs <;> rfl

theorem held_by_delete (source other : String) :
    Mailbox.heldBy { m with held := m.held.delete source } other =
      if other = source then ⟨0, 0⟩ else m.heldBy other := by
  unfold Mailbox.heldBy
  dsimp only
  rw [get_delete]
  split_ifs <;> rfl

theorem source_bytes_zero {origins : OrderedMap (String × String) MailboxOrigin} {source : String}
    (zero : origins.total (sourceFiles source) = 0) : origins.total (sourceBytes source) = 0 := by
  apply total_zero_of_zero (source_files_nonneg source) zero
  intro key origin none_held
  unfold sourceFiles at none_held
  unfold sourceBytes
  split_ifs at none_held ⊢ <;> first | rfl | omega

theorem forget_origin_held (sound : HeldSound m) (key : String × String) :
    HeldSound (mailboxForgetOrigin m key) := by
  intro source
  rw [forget_origin_origins]
  cases found : m.blobOrigin.get key with
  | none =>
    have same : mailboxForgetOrigin m key = m := by
      unfold mailboxForgetOrigin
      rw [found]
    rw [same, delete_of_absent found]
    exact sound source
  | some origin =>
    have less_files := total_delete_of_present (sourceFiles source) found
    have less_bytes := total_delete_of_present (sourceBytes source) found
    have positive := total_nonneg (source_files_nonneg source) (m.blobOrigin.delete key)
    have changed : (mailboxForgetOrigin m key).heldBy source =
        if source = origin.source then
          if (m.heldBy origin.source).files - 1 ≤ 0 then ⟨0, 0⟩
          else ⟨(m.heldBy origin.source).files - 1,
            (m.heldBy origin.source).bytes - origin.charge⟩
        else m.heldBy source := by
      unfold mailboxForgetOrigin
      rw [found]
      dsimp only
      by_cases last : (m.heldBy origin.source).files - 1 ≤ 0
      · simp only [if_pos last]
        exact held_by_delete origin.source source
      · simp only [if_neg last]
        exact held_by_set origin.source source _
    rw [changed, sound source, less_files, less_bytes]
    by_cases own : source = origin.source
    · subst own
      have one : sourceFiles origin.source key origin = 1 := if_pos rfl
      have charged : sourceBytes origin.source key origin = origin.charge := if_pos rfl
      rw [one] at less_files
      rw [if_pos rfl, sound origin.source, one, charged]
      dsimp only
      split_ifs with last
      · have zero : (m.blobOrigin.delete key).total (sourceFiles origin.source) = 0 := by omega
        have no_bytes := source_bytes_zero zero
        rw [MailboxShare.mk.injEq]
        omega
      · rfl
    · have none_files : sourceFiles source key origin = 0 := if_neg (Ne.symm own)
      have none_bytes : sourceBytes source key origin = 0 := if_neg (Ne.symm own)
      rw [if_neg own, none_files, none_bytes, Int.sub_zero, Int.sub_zero]

theorem record_blob_held (sound : HeldSound m) {box id : String} (source : String) (charge : Int)
    (absent : m.blobOrigin.get (box, id) = none) :
    HeldSound (mailboxRecordBlob m box id source charge) := by
  intro other
  have changed : (mailboxRecordBlob m box id source charge).heldBy other =
      if other = source then ⟨(m.heldBy source).files + 1, (m.heldBy source).bytes + charge⟩
      else m.heldBy other :=
    held_by_set source other _
  have more_files := total_set_of_absent (sourceFiles other) ⟨source, charge⟩ absent
  have more_bytes := total_set_of_absent (sourceBytes other) ⟨source, charge⟩ absent
  have recorded : (mailboxRecordBlob m box id source charge).blobOrigin =
      m.blobOrigin.set (box, id) ⟨source, charge⟩ := rfl
  rw [changed, recorded, more_files, more_bytes, sound other, sound source]
  by_cases own : other = source
  · subst own
    simp [sourceFiles, sourceBytes]
  · simp [sourceFiles, sourceBytes, own, Ne.symm own]

end Shares

section Moves

variable {m : Mailbox} {box id : String} {dir : BoxDir} {blob : Blob}

theorem blob_at_of_dir (found : m.disk.get box = some dir) : m.blobAt box id = dir.blobs.get id := by
  simp [Mailbox.blobAt, found]

theorem dir_of_blob_at (found : m.blobAt box id = some blob) :
    ∃ dir, m.disk.get box = some dir ∧ dir.blobs.get id = some blob :=
  bind_eq_some_iff.mp found

theorem blob_at_set (other : String) (name : String) :
    Mailbox.blobAt { m with disk := m.disk.set box dir } other name =
      if other = box then dir.blobs.get name else m.blobAt other name := by
  unfold Mailbox.blobAt
  dsimp only
  rw [get_set]
  split_ifs <;> rfl

theorem read_index_set (other : String) :
    readAckIndex { m with disk := m.disk.set box dir } other =
      if other = box then
        match dir.acks with
        | some (.written index) => index
        | _ => .empty
      else readAckIndex m other := by
  unfold readAckIndex
  dsimp only
  rw [get_set]
  split_ifs <;> rfl

/-- A removed blob, with all that is remembered of it. -/
structure Cuts (before after : Mailbox) (box id : String) (blob : Blob) : Prop where
  there : before.blobAt box id = some blob
  disk : ∃ dir, before.disk.get box = some dir ∧
    after.disk = before.disk.set box { dir with blobs := dir.blobs.delete id }
  usedBytes : after.usedBytes = before.usedBytes - mailboxCharge blob.size
  files : after.files = before.files - 1
  boxes : after.boxes = before.boxes
  boxOrder : after.boxOrder = before.boxOrder
  origins : after.blobOrigin = before.blobOrigin.delete (box, id)
  held : HeldSound before → HeldSound after
  acked : after.acked = before.acked.delete (box, id)
  ackedBytes : after.ackedBytes = before.ackedBytes - (before.acked.get (box, id)).getD 0

section

variable {after : Mailbox} (cut : Cuts m after box id blob)
include cut

theorem dir_of_cut :
    ∃ dir, m.disk.get box = some dir ∧ dir.blobs.get id = some blob ∧
      after.disk = m.disk.set box { dir with blobs := dir.blobs.delete id } := by
  obtain ⟨dir, found, disk⟩ := cut.disk
  refine ⟨dir, found, ?_, disk⟩
  have there := cut.there
  rwa [blob_at_of_dir found] at there

theorem Cuts.blob_at (other name : String) :
    after.blobAt other name = if (other, name) = (box, id) then none else m.blobAt other name := by
  obtain ⟨dir, found, -, disk⟩ := dir_of_cut cut
  have changed : after.blobAt other name = if other = box then (dir.blobs.delete id).get name
      else m.blobAt other name := by
    unfold Mailbox.blobAt
    rw [disk, get_set]
    split_ifs <;> rfl
  rw [changed, get_delete]
  by_cases same : other = box
  · subst same
    rw [if_pos rfl, blob_at_of_dir found]
    simp
  · simp [same]

theorem Cuts.read_index (other : String) :
    readAckIndex after other = readAckIndex m other := by
  obtain ⟨dir, found, -, disk⟩ := dir_of_cut cut
  unfold readAckIndex
  rw [disk, get_set]
  split_ifs with same
  · rw [same, found]
    rfl
  · rfl

end

theorem Accounted.cut (sound : Accounted m) {after : Mailbox} (cut : Cuts m after box id blob) :
    Accounted after := by
  obtain ⟨dir, found, there, disk⟩ := dir_of_cut cut
  have fewer_bytes : BoxDir.bytes { dir with blobs := dir.blobs.delete id } =
      dir.bytes - mailboxCharge blob.size := by
    unfold BoxDir.bytes
    dsimp only
    rw [total_delete_of_present _ there]
    omega
  have fewer_files : BoxDir.files { dir with blobs := dir.blobs.delete id } = dir.files - 1 := by
    unfold BoxDir.files
    dsimp only
    rw [size_delete_of_present there]
    omega
  refine ⟨⟨?_, ?_, ?_, cut.held sound.held, ?_, ?_, ?_⟩, ?_⟩
  · rw [cut.usedBytes, sound.used, disk, total_set_of_present _ _ found, fewer_bytes]
    omega
  · rw [cut.files, sound.files, disk, total_set_of_present _ _ found, fewer_files]
    omega
  · rw [cut.boxes, sound.boxes, disk, size_set_of_present]
    rw [found]
    simp
  · intro other name origin stored
    rw [cut.origins, get_delete] at stored
    split_ifs at stored with same
    obtain ⟨kept, listed, charged⟩ := sound.origins other name origin stored
    exact ⟨kept, by rw [cut.blob_at, if_neg same, listed], charged⟩
  · rw [cut.ackedBytes, cut.acked, sound.ackedBytes]
    cases listed : m.acked.get (box, id) with
    | none => simp [delete_of_absent listed]
    | some charge =>
      rw [total_delete_of_present _ listed]
      rfl
  · intro other
    rw [cut.boxOrder, sound.order, disk, get_set]
    split_ifs with same
    · rw [same, found]
      simp
    · rfl
  · intro other name
    have devices : devicesOf after other name = devicesOf m other name := by
      unfold devicesOf
      rw [cut.read_index]
    rw [cut.acked, get_delete, cut.blob_at, devices]
    by_cases same : (other, name) = (box, id)
    · rw [if_pos same, if_pos same, bind_none]
    · rw [if_neg same, if_neg same]
      exact sound.acked other name

theorem Counted.covers (sound : Counted m) (there : m.blobAt box id = some blob) :
    mailboxCharge blob.size ≤ m.usedBytes ∧ 0 < m.files := by
  obtain ⟨dir, found, listed⟩ := dir_of_blob_at there
  have bytes : dir.bytes ≤ m.usedBytes := by
    rw [sound.used]
    exact le_total (fun _ dir => dir_bytes_nonneg dir) found
  have files : dir.files ≤ m.files := by
    rw [sound.files]
    exact le_total (fun _ dir => dir_files_nonneg dir) found
  have charge : mailboxCharge blob.size ≤ dir.blobs.total fun _ blob => mailboxCharge blob.size :=
    le_total (fun _ _ => Int.le_of_lt (mailbox_charge_pos _)) listed
  have acks := acks_charge_nonneg dir.acks
  have one : (1 : Int) ≤ dir.blobs.size := by
    rw [← total_one]
    exact le_total (fun _ _ => by decide) listed
  unfold BoxDir.bytes at bytes
  unfold BoxDir.files at files
  constructor
  · omega
  · split_ifs at files <;> omega

variable {removed : Mailbox} {faults : Faults}

theorem removed_eq (gone : m.removeBlob faults box id = some removed) :
    ∃ dir, m.disk.get box = some dir ∧ dir.blobs.get id ≠ none ∧ faults.file box id = false ∧
      removed = { m with disk := m.disk.set box { dir with blobs := dir.blobs.delete id } } := by
  unfold Mailbox.removeBlob at gone
  cases found : m.disk.get box with
  | none => simp [found] at gone
  | some dir =>
    simp only [found] at gone
    split_ifs at gone with there
    cases gone
    simp only [OrderedMap.has, Bool.and_eq_true, isSome_iff_ne_none,
      Bool.not_eq_true'] at there
    exact ⟨dir, rfl, there.1, there.2, rfl⟩

theorem cuts_of_removed (gone : m.removeBlob faults box id = some removed)
    (there : m.blobAt box id = some blob) :
    Cuts m ((mailboxForgetBlob removed box id).subtract (mailboxCharge blob.size)) box id blob := by
  obtain ⟨dir, found, -, -, rfl⟩ := removed_eq gone
  have forgets := forget_blob_forgets
    { m with disk := m.disk.set box { dir with blobs := dir.blobs.delete id } } box id
  refine ⟨there, ⟨dir, found, forgets.disk⟩, ?_, ?_, forgets.boxes, forgets.boxOrder,
    forgets.origins, ?_, forgets.acked, forgets.ackedBytes⟩
  · exact congrArg (· - mailboxCharge blob.size) forgets.usedBytes
  · exact congrArg (· - 1) forgets.files
  · intro sound
    apply forget_origin_held
    rw [forget_acked_eq]
    exact sound

theorem give_back_eq (sound : Counted m) (gone : m.removeBlob faults box id = some removed)
    (there : m.blobAt box id = some blob) :
    (mailboxForgetBlob removed box id).giveBack (mailboxCharge blob.size) =
      (mailboxForgetBlob removed box id).subtract (mailboxCharge blob.size) := by
  obtain ⟨dir, found, -, -, rfl⟩ := removed_eq gone
  have forgets := forget_blob_forgets
    { m with disk := m.disk.set box { dir with blobs := dir.blobs.delete id } } box id
  obtain ⟨bytes, files⟩ := sound.covers there
  unfold Mailbox.giveBack Mailbox.subtract
  rw [forgets.usedBytes, forgets.files, if_pos bytes, if_pos files]

theorem Counted.set_dir (sound : Counted m) (found : m.disk.get box = some dir) (next : BoxDir)
    {used files : Int} (bytes : used = m.usedBytes - dir.bytes + next.bytes)
    (count : files = m.files - dir.files + next.files)
    (kept : ∀ name blob, dir.blobs.get name = some blob → next.blobs.get name = some blob) :
    Counted { m with disk := m.disk.set box next, usedBytes := used, files := files } where
  used := by
    dsimp only
    rw [total_set_of_present _ _ found, bytes, sound.used]
  files := by
    dsimp only
    rw [total_set_of_present _ _ found, count, sound.files]
  boxes := by
    dsimp only
    rw [size_set_of_present, sound.boxes]
    rw [found]
    simp
  held := sound.held
  origins := by
    intro other name origin stored
    obtain ⟨blob, there, charged⟩ := sound.origins other name origin stored
    refine ⟨blob, ?_, charged⟩
    unfold Mailbox.blobAt at there ⊢
    dsimp only
    rw [get_set]
    split_ifs with same
    · rw [same, found] at there
      exact kept name blob there
    · exact there
  ackedBytes := sound.ackedBytes
  order := by
    intro other
    dsimp only
    rw [sound.order, get_set]
    split_ifs with same
    · simp [same, found]
    · rfl

theorem write_index_eq (found : m.disk.get box = some dir) (index : AckIndex) :
    writeAckIndex noFaults m box index =
      if index.size = 0 then
        if dir.acks.isSome then
          Mailbox.giveBack { m with disk := m.disk.set box { dir with acks := none } }
            (acksCharge dir.acks)
        else m
      else
        { m with
          disk := m.disk.set box { dir with acks := some (.written index) }
          files := if dir.acks.isSome then m.files else m.files + 1
          usedBytes := if m.usedBytes + (mailboxCharge index.jsonSize - acksCharge dir.acks) < 0
            then 0 else m.usedBytes + (mailboxCharge index.jsonSize - acksCharge dir.acks) } := by
  unfold writeAckIndex
  rw [found]
  simp [noFaults]

theorem Counted.dir_within (sound : Counted m) (found : m.disk.get box = some dir) :
    dir.bytes ≤ m.usedBytes ∧ dir.files ≤ m.files := by
  rw [sound.used, sound.files]
  exact ⟨le_total (fun _ dir => dir_bytes_nonneg dir) found,
    le_total (fun _ dir => dir_files_nonneg dir) found⟩

@[simp] theorem acks_charge_none : acksCharge none = 0 := rfl

variable (index : AckIndex)

theorem acks_charge_written :
    acksCharge (some (.written index)) = mailboxCharge index.jsonSize := rfl

theorem dir_bytes_with_acks (dir : BoxDir) (acks : Option AckFile) :
    BoxDir.bytes { dir with acks := acks } = dir.bytes - acksCharge dir.acks + acksCharge acks := by
  unfold BoxDir.bytes
  dsimp only
  omega

def acksFiles (acks : Option AckFile) : Int := if acks.isSome then 1 else 0

theorem dir_files_with_acks (dir : BoxDir) (acks : Option AckFile) :
    BoxDir.files { dir with acks := acks } = dir.files - acksFiles dir.acks + acksFiles acks := by
  unfold BoxDir.files acksFiles
  dsimp only
  omega

theorem Counted.acks_within (sound : Counted m) (found : m.disk.get box = some dir) :
    acksCharge dir.acks ≤ m.usedBytes ∧ acksFiles dir.acks ≤ m.files := by
  obtain ⟨bytes, files⟩ := sound.dir_within found
  have blobs := blob_bytes_nonneg dir.blobs
  unfold BoxDir.bytes at bytes
  unfold BoxDir.files at files
  unfold acksFiles
  omega

theorem Counted.write_index (sound : Counted m) (index : AckIndex) :
    Counted (writeAckIndex noFaults m box index) := by
  cases found : m.disk.get box with
  | none =>
    unfold writeAckIndex
    rw [found]
    exact sound
  | some dir =>
    obtain ⟨within, counted⟩ := sound.acks_within found
    have charge := mailbox_charge_pos index.jsonSize
    rw [write_index_eq found]
    by_cases empty : index.size = 0
    · rw [if_pos empty]
      by_cases stored : dir.acks.isSome = true
      · have one : acksFiles dir.acks = 1 := if_pos stored
        have some_file : 0 < m.files := by omega
        unfold Mailbox.giveBack
        dsimp only
        rw [if_pos stored, if_pos within, if_pos some_file]
        apply sound.set_dir found
        · rw [dir_bytes_with_acks dir none, acks_charge_none]
          omega
        · have none_left : acksFiles none = 0 := rfl
          rw [dir_files_with_acks dir none, one, none_left]
          omega
        · exact fun _ _ listed => listed
      · rw [if_neg stored]
        exact sound
    · have enough : ¬m.usedBytes + (mailboxCharge index.jsonSize - acksCharge dir.acks) < 0 := by
        omega
      rw [if_neg empty, if_neg enough]
      apply sound.set_dir found
      · rw [dir_bytes_with_acks dir (some _), acks_charge_written]
        omega
      · have one : acksFiles (some (.written index)) = 1 := rfl
        rw [dir_files_with_acks dir (some _), one]
        unfold acksFiles
        split_ifs <;> omega
      · exact fun _ _ listed => listed

theorem write_index_disk (faults : Faults) :
    (writeAckIndex faults m box index).disk = m.disk ∨
      ∃ dir acks, m.disk.get box = some dir ∧
        (writeAckIndex faults m box index).disk =
          m.disk.set box (BoxDir.mk dir.blobs acks) := by
  unfold writeAckIndex
  cases found : m.disk.get box with
  | none => exact Or.inl rfl
  | some dir =>
    dsimp only
    by_cases empty : index.size = 0
    · rw [if_pos empty]
      split
      · exact Or.inr ⟨dir, none, rfl, rfl⟩
      · exact Or.inl rfl
    · rw [if_neg empty]
      exact Or.inr ⟨dir, _, rfl, rfl⟩

theorem write_index_blob_at (faults : Faults) (other name : String) :
    (writeAckIndex faults m box index).blobAt other name = m.blobAt other name := by
  unfold Mailbox.blobAt
  rcases write_index_disk index faults with same | ⟨dir, acks, found, disk⟩
  · rw [same]
  · rw [disk, get_set]
    split_ifs with same
    · rw [same, found]
      rfl
    · rfl

theorem write_index_acked (faults : Faults) :
    (writeAckIndex faults m box index).acked = m.acked := by
  unfold writeAckIndex
  cases m.disk.get box with
  | none => rfl
  | some dir =>
    dsimp only
    split_ifs <;> rfl

theorem write_index_order (faults : Faults) :
    (writeAckIndex faults m box index).boxOrder = m.boxOrder := by
  unfold writeAckIndex
  cases m.disk.get box with
  | none => rfl
  | some dir =>
    dsimp only
    split_ifs <;> rfl

theorem write_index_devices_other (faults : Faults) {other : String}
    (different : other ≠ box) (name : String) :
    devicesOf (writeAckIndex faults m box index) other name = devicesOf m other name := by
  have same : readAckIndex (writeAckIndex faults m box index) other = readAckIndex m other := by
    unfold readAckIndex
    rcases write_index_disk index faults with same | ⟨dir, acks, found, disk⟩
    · rw [same]
    · rw [disk, get_set, if_neg different]
  unfold devicesOf
  rw [same]

theorem write_index_devices (found : m.disk.get box = some dir) (index : AckIndex) (name : String) :
    devicesOf (writeAckIndex noFaults m box index) box name = (index.get name).getD [] := by
  rw [write_index_eq found]
  unfold devicesOf
  by_cases empty : index.size = 0
  · have missing := size_eq_zero.mp empty name
    rw [if_pos empty, missing]
    by_cases stored : dir.acks.isSome = true
    · rw [if_pos stored]
      simp [readAckIndex, Mailbox.giveBack]
    · rw [if_neg stored]
      have none_stored : dir.acks = none := by simpa using stored
      simp [readAckIndex, found, none_stored]
  · rw [if_neg empty]
    simp [readAckIndex]

theorem Accounted.write_index (sound : Accounted m) {index : AckIndex}
    (kept : ∀ name, m.blobAt box name ≠ none →
      ((index.get name).getD [] = [] ↔ devicesOf m box name = [])) :
    Accounted (writeAckIndex noFaults m box index) := by
  refine ⟨sound.toCounted.write_index index, ?_⟩
  intro other name
  rw [write_index_acked, write_index_blob_at, sound.acked]
  by_cases same : other = box
  · subst same
    cases found : m.disk.get other with
    | none => simp [Mailbox.blobAt, found]
    | some dir =>
      rw [write_index_devices found]
      cases there : m.blobAt other name with
      | none => rfl
      | some blob =>
        have lists := kept name (by simp [there])
        simp only [bind_some, lists]
  · rw [write_index_devices_other index noFaults same]

theorem removed_box_eq (gone : m.removeBox faults box = some removed) :
    ∃ dir, m.disk.get box = some dir ∧ (∀ name, dir.blobs.get name = none) ∧ dir.acks = none ∧
      removed = { m with disk := m.disk.delete box } := by
  unfold Mailbox.removeBox at gone
  cases found : m.disk.get box with
  | none => simp [found] at gone
  | some dir =>
    simp only [found] at gone
    split_ifs at gone with empty
    cases gone
    exact ⟨dir, rfl, size_eq_zero.mp empty.1, by simpa using empty.2.1, rfl⟩

theorem Accounted.remove_box (sound : Accounted m) (gone : m.removeBox faults box = some removed) :
    Accounted { mailboxForgetBox removed box with boxes := removed.boxes - 1 } := by
  obtain ⟨dir, found, blobs, acks, rfl⟩ := removed_box_eq gone
  have size : dir.blobs.size = 0 := size_eq_zero.mpr blobs
  have no_bytes : dir.bytes = 0 := by
    have none_listed : dir.blobs.entries = [] := length_eq_zero_iff.mp size
    unfold BoxDir.bytes OrderedMap.total
    rw [none_listed, acks]
    rfl
  have no_files : dir.files = 0 := by
    unfold BoxDir.files
    rw [size, acks]
    rfl
  have blob_at : ∀ other name, Mailbox.blobAt { m with disk := m.disk.delete box } other name =
      m.blobAt other name := by
    intro other name
    unfold Mailbox.blobAt
    dsimp only
    rw [get_delete]
    split_ifs with same
    · rw [same, found, bind_some, blobs name, bind_none]
    · rfl
  have index : ∀ other, readAckIndex { m with disk := m.disk.delete box } other =
      readAckIndex m other := by
    intro other
    unfold readAckIndex
    dsimp only
    rw [get_delete]
    split_ifs with same
    · rw [same, found, bind_some, acks, bind_none]
    · rfl
  refine ⟨⟨?_, ?_, ?_, sound.held, ?_, sound.ackedBytes, ?_⟩, ?_⟩
  · simp only [mailboxForgetBox]
    rw [total_delete_of_present _ found, sound.used, no_bytes, Int.sub_zero]
  · simp only [mailboxForgetBox]
    rw [total_delete_of_present _ found, sound.files, no_files, Int.sub_zero]
  · simp only [mailboxForgetBox]
    rw [size_delete_of_present found, sound.boxes]
  · intro other name origin stored
    obtain ⟨blob, there, charged⟩ := sound.origins other name origin stored
    exact ⟨blob, (blob_at other name).trans there, charged⟩
  · intro other
    simp only [mailboxForgetBox]
    rw [get_delete, get_delete]
    split_ifs
    · simp
    · exact sound.order other
  · intro other name
    have devices : devicesOf { m with disk := m.disk.delete box } other name =
        devicesOf m other name := by
      unfold devicesOf
      rw [index]
    have acked := sound.acked other name
    rw [← blob_at, ← devices] at acked
    exact acked

theorem Counted.some_box (sound : Counted m) (found : m.disk.get box = some dir) : 0 < m.boxes := by
  have one : 1 ≤ m.disk.total fun _ _ => 1 := le_total (fun _ _ => by decide) found
  rw [total_one] at one
  rw [sound.boxes]
  omega

theorem Accounted.forget_removed (sound : Accounted m)
    (gone : m.removeBox faults box = some removed) :
    Accounted (mailboxForgetBox removed box).oneBoxLess := by
  obtain ⟨dir, found, -, -, shape⟩ := removed_box_eq gone
  have some_box : 0 < removed.boxes := by
    rw [shape]
    exact sound.some_box found
  have same : (mailboxForgetBox removed box).oneBoxLess =
      { mailboxForgetBox removed box with boxes := removed.boxes - 1 } := by
    unfold Mailbox.oneBoxLess mailboxForgetBox
    dsimp only
    rw [if_pos some_box]
  rw [same]
  exact sound.remove_box gone

theorem Accounted.remove_empty_box (sound : Accounted m) (faults : Faults) (box : String) :
    Accounted (removeEmptyBox faults m box) := by
  unfold removeEmptyBox
  cases gone : m.removeBox faults box with
  | none => exact sound
  | some removed => exact sound.forget_removed gone

theorem Accounted.drop_acks (sound : Accounted m) {ids : List String}
    (gone : ∀ name ∈ ids, m.blobAt box name = none) : Accounted (dropAcks noFaults m box ids) := by
  unfold dropAcks
  dsimp only
  split_ifs
  · apply sound.write_index
    intro name there
    have kept : name ∉ ids := fun mem => there (gone name mem)
    rw [get_keep, if_pos (decide_eq_true kept)]
    rfl
  · exact sound

end Moves

section Store

variable {m : Mailbox} {box : String} {blob : Bytes} {arrival : DepositArrival}

/-- The directory a deposit finds, or makes. -/
def depositDir (m : Mailbox) (box : String) : BoxDir := (m.disk.get box).getD BoxDir.empty

theorem deposit_dir_get (m : Mailbox) (box name : String) :
    (depositDir m box).blobs.get name = m.blobAt box name := by
  unfold depositDir Mailbox.blobAt
  cases m.disk.get box with
  | none | some dir => rfl

/-- The counters of a blob written, before its source is charged. -/
def writtenBlob (m : Mailbox) (box : String) (blob : Bytes) (arrival : DepositArrival) : Mailbox :=
  { m with
    disk := m.disk.set box (BoxDir.mk
      ((depositDir m box).blobs.set arrival.id ⟨blob, arrival.writtenAt⟩) (depositDir m box).acks)
    boxes := if (m.disk.get box).isNone then m.boxes + 1 else m.boxes
    boxOrder := (m.boxOrder.delete box).set box arrival.touchedAt
    files := m.files + 1
    usedBytes := m.usedBytes + mailboxCharge blob.length }

theorem store_blob_eq : storeBlob m box blob arrival =
    if arrival.source ≠ "" then
      mailboxRecordBlob (writtenBlob m box blob arrival) box arrival.id arrival.source
        (mailboxCharge blob.length)
    else writtenBlob m box blob arrival := rfl

theorem written_blob_at (other name : String) : (writtenBlob m box blob arrival).blobAt other name =
    if (other, name) = (box, arrival.id) then some ⟨blob, arrival.writtenAt⟩
    else m.blobAt other name := by
  unfold writtenBlob Mailbox.blobAt
  dsimp only
  rw [get_set]
  by_cases same : other = box
  · subst same
    rw [if_pos rfl, bind_some]
    dsimp only
    rw [get_set]
    by_cases own : name = arrival.id
    · rw [if_pos own, own, if_pos rfl]
    · have other_name : (other, name) ≠ (other, arrival.id) := fun equal => own (Prod.mk.inj equal).2
      rw [if_neg own, if_neg other_name, deposit_dir_get]
      rfl
  · have other_box : (other, name) ≠ (box, arrival.id) := fun equal => same (Prod.mk.inj equal).1
    rw [if_neg same, if_neg other_box]

theorem written_blob_index (other : String) :
    readAckIndex (writtenBlob m box blob arrival) other = readAckIndex m other := by
  unfold readAckIndex writtenBlob depositDir
  dsimp only
  rw [get_set]
  split_ifs with same
  · rw [same]
    cases m.disk.get box with
    | none | some dir => rfl
  · rfl

theorem written_dir_bytes (absent : m.blobAt box arrival.id = none) :
    BoxDir.bytes (BoxDir.mk ((depositDir m box).blobs.set arrival.id ⟨blob, arrival.writtenAt⟩)
      (depositDir m box).acks) = (depositDir m box).bytes + mailboxCharge blob.length := by
  have unlisted : (depositDir m box).blobs.get arrival.id = none := by rw [deposit_dir_get, absent]
  unfold BoxDir.bytes
  dsimp only
  rw [total_set_of_absent _ _ unlisted]
  simp only [Blob.size]
  omega

theorem written_dir_files (absent : m.blobAt box arrival.id = none) :
    BoxDir.files (BoxDir.mk ((depositDir m box).blobs.set arrival.id ⟨blob, arrival.writtenAt⟩)
      (depositDir m box).acks) = (depositDir m box).files + 1 := by
  have unlisted : (depositDir m box).blobs.get arrival.id = none := by rw [deposit_dir_get, absent]
  unfold BoxDir.files
  dsimp only
  rw [size_set_of_absent _ unlisted]
  omega

theorem Accounted.written (sound : Accounted m) (blob : Bytes)
    (absent : m.blobAt box arrival.id = none) (unlisted : devicesOf m box arrival.id = []) :
    Accounted (writtenBlob m box blob arrival) := by
  refine ⟨⟨?_, ?_, ?_, sound.held, ?_, sound.ackedBytes, ?_⟩, ?_⟩
  · simp only [writtenBlob]
    cases found : m.disk.get box with
    | none =>
      have fresh : depositDir m box = BoxDir.empty := by simp [depositDir, found]
      rw [total_set_of_absent _ _ found, written_dir_bytes absent, sound.used, fresh]
      simp [BoxDir.bytes, BoxDir.empty]
    | some dir =>
      have known : depositDir m box = dir := by simp [depositDir, found]
      rw [total_set_of_present _ _ found, written_dir_bytes absent, sound.used, known]
      omega
  · simp only [writtenBlob]
    cases found : m.disk.get box with
    | none =>
      have fresh : depositDir m box = BoxDir.empty := by simp [depositDir, found]
      rw [total_set_of_absent _ _ found, written_dir_files absent, sound.files, fresh]
      simp [BoxDir.files, BoxDir.empty, OrderedMap.size, OrderedMap.empty]
    | some dir =>
      have known : depositDir m box = dir := by simp [depositDir, found]
      rw [total_set_of_present _ _ found, written_dir_files absent, sound.files, known]
      omega
  · simp only [writtenBlob]
    cases found : m.disk.get box with
    | none =>
      rw [size_set_of_absent _ found, sound.boxes]
      simp
    | some dir =>
      rw [size_set_of_present _ (by simp [found]), sound.boxes]
      simp
  · intro other name origin stored
    obtain ⟨found, there, charged⟩ := sound.origins other name origin stored
    refine ⟨found, ?_, charged⟩
    rw [written_blob_at, if_neg]
    · exact there
    · intro same
      rw [(Prod.mk.inj same).1, (Prod.mk.inj same).2, absent] at there
      cases there
  · intro other
    simp only [writtenBlob]
    rw [get_set, get_set]
    split_ifs with same
    · simp
    · rw [get_delete_other _ _ _ same]
      exact sound.order other
  · intro other name
    have devices : devicesOf (writtenBlob m box blob arrival) other name = devicesOf m other name := by
      unfold devicesOf
      rw [written_blob_index]
    have acked : (writtenBlob m box blob arrival).acked = m.acked := rfl
    rw [acked, devices, written_blob_at, sound.acked]
    by_cases same : (other, name) = (box, arrival.id)
    · rw [if_pos same, (Prod.mk.inj same).1, (Prod.mk.inj same).2, absent, unlisted]
      rfl
    · rw [if_neg same]

theorem record_blob_blob_at (box id source : String) (charge : Int) (other name : String) :
    (mailboxRecordBlob m box id source charge).blobAt other name = m.blobAt other name := rfl

theorem Accounted.store_blob (sound : Accounted m) (absent : m.blobAt box arrival.id = none)
    (unlisted : devicesOf m box arrival.id = []) : Accounted (storeBlob m box blob arrival) := by
  have written := sound.written blob absent unlisted
  rw [store_blob_eq]
  split
  · have unknown : (writtenBlob m box blob arrival).blobOrigin.get (box, arrival.id) = none := by
      cases known : m.blobOrigin.get (box, arrival.id) with
      | none => exact known
      | some origin =>
        obtain ⟨found, there, -⟩ := sound.origins box arrival.id origin known
        rw [absent] at there
        cases there
    refine ⟨⟨written.used, written.files, written.boxes,
      record_blob_held written.held arrival.source _ unknown, ?_, written.ackedBytes,
      written.order⟩, written.acked⟩
    intro other name origin stored
    rw [record_blob_blob_at]
    have recorded : (mailboxRecordBlob (writtenBlob m box blob arrival) box arrival.id arrival.source
        (mailboxCharge blob.length)).blobOrigin =
        (writtenBlob m box blob arrival).blobOrigin.set (box, arrival.id)
          ⟨arrival.source, mailboxCharge blob.length⟩ := rfl
    rw [recorded, get_set] at stored
    by_cases same : (other, name) = (box, arrival.id)
    · rw [if_pos same] at stored
      cases stored
      exact ⟨⟨blob, arrival.writtenAt⟩, by rw [written_blob_at, if_pos same], by simp only [Blob.size]⟩
    · rw [if_neg same] at stored
      exact written.origins other name origin stored
  · exact written

end Store

section Loops

variable {m : Mailbox} {box : String}

variable {id : String} {blob : Blob}

theorem no_faults_remove (there : m.blobAt box id = some blob) :
    ∃ removed, m.removeBlob noFaults box id = some removed := by
  obtain ⟨dir, found, listed⟩ := dir_of_blob_at there
  have removable : (dir.blobs.has id && !noFaults.file box id) = true := by
    simp [OrderedMap.has, listed, noFaults]
  unfold Mailbox.removeBlob
  rw [found]
  dsimp only
  rw [if_pos removable]
  exact ⟨_, rfl⟩

theorem Accounted.give_back (sound : Accounted m) {faults : Faults} {removed : Mailbox}
    (gone : m.removeBlob faults box id = some removed) (there : m.blobAt box id = some blob) :
    Accounted ((mailboxForgetBlob removed box id).giveBack (mailboxCharge blob.size)) ∧
      Cuts m ((mailboxForgetBlob removed box id).giveBack (mailboxCharge blob.size)) box id blob := by
  rw [give_back_eq sound.toCounted gone there]
  have cut := cuts_of_removed gone there
  exact ⟨sound.cut cut, cut⟩

theorem acked_there (sound : Accounted m) {charge : Int}
    (listed : m.acked.get (box, id) = some charge) :
    ∃ blob, m.blobAt box id = some blob ∧ charge = mailboxCharge blob.size := by
  rw [sound.acked] at listed
  obtain ⟨blob, there, kept⟩ := bind_eq_some_iff.mp listed
  split_ifs at kept
  exact ⟨blob, there, (Option.some.inj kept).symm⟩

theorem Accounted.take_acked (sound : Accounted m) (keepBox : String) {charge : Int}
    (listed : m.acked.get (box, id) = some charge) :
    Accounted (takeAcked noFaults m keepBox box id).1 := by
  obtain ⟨blob, there, -⟩ := acked_there sound listed
  obtain ⟨removed, gone⟩ := no_faults_remove there
  obtain ⟨given, cut⟩ := sound.give_back gone there
  unfold takeAcked
  rw [there, gone]
  dsimp only
  have trimmed : Accounted (dropAcks noFaults
      ((mailboxForgetBlob removed box id).giveBack (mailboxCharge blob.size)) box [id]) := by
    apply given.drop_acks
    intro name mem
    rw [mem_singleton.mp mem, cut.blob_at, if_pos rfl]
  split_ifs
  · exact trimmed
  · exact trimmed.remove_empty_box noFaults box

theorem Accounted.make_room_loop (charge : Int) (keepBox : String) (fuel : Nat)
    (sound : Accounted m) (gone : List String) :
    Accounted (makeRoomLoop noFaults charge keepBox fuel m gone).1 := by
  induction fuel generalizing m gone with
  | zero => exact sound
  | succ fuel ih =>
    unfold makeRoomLoop
    split
    · split
      · exact sound
      · rename_i box id cost rest entries
        have listed : m.acked.get (box, id) = some cost := by
          apply get_of_mem
          rw [entries]
          simp
        exact ih (sound.take_acked keepBox listed) _
    · exact sound

theorem Accounted.make_room (sound : Accounted m) (charge : Int) (keepBox : String) :
    Accounted (mailboxMakeRoom noFaults m charge keepBox).1 :=
  sound.make_room_loop charge keepBox _ []

/-- Several blobs of one box removed, one after the other. -/
structure CutsAll (before after : Mailbox) (box : String) (names : List String) : Prop where
  accounted : Accounted before → Accounted after
  blob_at : ∀ other name, after.blobAt other name =
    if other = box ∧ name ∈ names then none else before.blobAt other name
  index : ∀ other, readAckIndex after other = readAckIndex before other
  order : after.boxOrder = before.boxOrder
  less : after.usedBytes ≤ before.usedBytes ∧ after.files ≤ before.files

theorem CutsAll.none_cut (m : Mailbox) (box : String) : CutsAll m m box [] where
  accounted := fun sound => sound
  blob_at := by simp
  index := fun _ => rfl
  order := rfl
  less := ⟨Int.le_refl _, Int.le_refl _⟩

theorem CutsAll.cons {middle after : Mailbox} {names : List String}
    (cut : Cuts m middle box id blob) (later : CutsAll middle after box names) :
    CutsAll m after box (id :: names) where
  accounted := fun sound => later.accounted (sound.cut cut)
  blob_at := by
    intro other name
    rw [later.blob_at, cut.blob_at]
    by_cases same : other = box <;> by_cases own : name = id <;> simp [same, own]
  index := fun other => (later.index other).trans (cut.read_index other)
  order := later.order.trans cut.boxOrder
  less := by
    have charge := mailbox_charge_pos blob.size
    have bytes := cut.usedBytes
    have files := cut.files
    obtain ⟨fewer_bytes, fewer_files⟩ := later.less
    omega

def AllThere (m : Mailbox) (box : String) (entries : List (String × Blob)) : Prop :=
  (entries.map Prod.fst).Nodup ∧ ∀ entry ∈ entries, m.blobAt box entry.1 = some entry.2

section

variable {rest : List (String × Blob)} (there : AllThere m box ((id, blob) :: rest))
include there

theorem AllThere.tail : AllThere m box rest := by
  refine ⟨(nodup_cons.mp there.1).2, ?_⟩
  intro entry mem
  exact there.2 entry (mem_cons_of_mem _ mem)

theorem AllThere.after_cut {after : Mailbox}
    (cut : Cuts m after box id blob) : AllThere after box rest := by
  obtain ⟨distinct, listed⟩ := there.tail
  refine ⟨distinct, ?_⟩
  intro entry mem
  have different : (box, entry.1) ≠ (box, id) := by
    intro same
    apply (nodup_cons.mp there.1).1
    exact mem_map.mpr ⟨entry, mem, (Prod.mk.inj same).2⟩
  rw [cut.blob_at, if_neg different]
  exact listed entry mem

end

theorem listed_there (m : Mailbox) (box : String) :
    AllThere m box (listedBlobs m box) := by
  unfold listedBlobs
  cases found : m.disk.get box with
  | none => exact ⟨nodup_nil, by simp⟩
  | some dir =>
    refine ⟨dir.blobs.distinct, ?_⟩
    intro entry mem
    rw [blob_at_of_dir found]
    exact get_of_mem mem

theorem evict_blobs_cuts (sound : Accounted m) {entries : List (String × Blob)}
    (there : AllThere m box entries) :
    CutsAll m (evictBlobs noFaults box entries m) box (entries.map Prod.fst) := by
  induction entries generalizing m with
  | nil => exact CutsAll.none_cut m box
  | cons entry rest ih =>
    obtain ⟨id, blob⟩ := entry
    have listed := there.2 (id, blob) (by simp)
    obtain ⟨removed, gone⟩ := no_faults_remove listed
    obtain ⟨given, cut⟩ := sound.give_back gone listed
    unfold evictBlobs
    rw [gone]
    exact CutsAll.cons cut (ih given (there.after_cut cut))

/-- The blobs a sweep takes and those it leaves. -/
def expired (now : Nat) (entry : String × Blob) : Bool := decide (entry.2.mod + mailboxTTL < now)

theorem sweep_blobs_cuts (now : Nat) {entries : List (String × Blob)}
    (there : AllThere m box entries) (alive : List String) :
    CutsAll m (sweepBlobs noFaults now box entries m alive).1 box
        ((entries.filter (expired now)).map Prod.fst) ∧
      (sweepBlobs noFaults now box entries m alive).2 =
        alive ++ (entries.filter fun entry => !expired now entry).map Prod.fst := by
  induction entries generalizing m alive with
  | nil => exact ⟨CutsAll.none_cut m box, by simp [sweepBlobs]⟩
  | cons entry rest ih =>
    obtain ⟨id, blob⟩ := entry
    have listed := there.2 (id, blob) (by simp)
    unfold sweepBlobs
    by_cases old : blob.mod + mailboxTTL < now
    · obtain ⟨removed, gone⟩ := no_faults_remove listed
      have cut := cuts_of_removed gone listed
      obtain ⟨cuts, kept⟩ := ih (there.after_cut cut) alive
      have taken : expired now (id, blob) = true := decide_eq_true old
      rw [if_pos old, gone]
      dsimp only
      rw [filter_cons_of_pos taken, filter_cons_of_neg (by simp [taken])]
      exact ⟨CutsAll.cons cut cuts, kept⟩
    · obtain ⟨cuts, kept⟩ := ih there.tail (alive ++ [id])
      have left : expired now (id, blob) = false := decide_eq_false old
      rw [if_neg old, filter_cons_of_neg (by simp [left]),
        filter_cons_of_pos (by simp [left])]
      exact ⟨cuts, by simp [kept]⟩

theorem forget_blob_unknown (acked : m.acked.get (box, id) = none)
    (origin : m.blobOrigin.get (box, id) = none) : mailboxForgetBlob m box id = m := by
  have kept : mailboxForgetAcked m (box, id) = m := by
    unfold mailboxForgetAcked
    rw [acked]
  unfold mailboxForgetBlob
  rw [kept]
  unfold mailboxForgetOrigin
  rw [origin]

theorem Accounted.nothing_known (sound : Accounted m) (absent : m.blobAt box id = none) :
    m.acked.get (box, id) = none ∧ m.blobOrigin.get (box, id) = none := by
  constructor
  · rw [sound.acked, absent, bind_none]
  · cases known : m.blobOrigin.get (box, id) with
    | none => rfl
    | some origin =>
      obtain ⟨blob, there, -⟩ := sound.origins box id origin known
      rw [absent] at there
      cases there

theorem evict_acks_eq (sound : Accounted m) (cleared : ∀ name, m.blobAt box name = none) :
    evictAcks noFaults m box = writeAckIndex noFaults m box .empty := by
  obtain ⟨acked, origin⟩ := sound.nothing_known (cleared ackIndexName)
  cases found : m.disk.get box with
  | none =>
    unfold evictAcks writeAckIndex
    rw [found]
  | some dir =>
    rw [write_index_eq found, if_pos (show OrderedMap.size (.empty : AckIndex) = 0 from rfl)]
    unfold evictAcks
    rw [found]
    dsimp only
    cases stored : dir.acks with
    | none => rfl
    | some file =>
      dsimp only
      have forgotten : mailboxForgetBlob
          { m with disk := m.disk.set box { dir with acks := none } } box ackIndexName =
          { m with disk := m.disk.set box { dir with acks := none } } :=
        forget_blob_unknown acked origin
      rw [if_neg (by simp [noFaults]), forgotten,
        if_pos (show (some file).isSome = true from rfl)]
      rfl

theorem Accounted.evict_acks (sound : Accounted m) (cleared : ∀ name, m.blobAt box name = none) :
    Accounted (evictAcks noFaults m box) := by
  rw [evict_acks_eq sound cleared]
  apply sound.write_index
  intro name there
  exact absurd (cleared name) there

theorem mem_listed_iff {name : String} :
    name ∈ (listedBlobs m box).map Prod.fst ↔ m.blobAt box name ≠ none := by
  unfold listedBlobs Mailbox.blobAt
  cases found : m.disk.get box with
  | none => simp
  | some dir => exact mem_keys_iff

theorem evicted_clear {after : Mailbox}
    (cuts : CutsAll m after box ((listedBlobs m box).map Prod.fst)) (name : String) :
    after.blobAt box name = none := by
  rw [cuts.blob_at]
  split_ifs with taken
  · rfl
  · by_contra there
    exact taken ⟨rfl, mem_listed_iff.mpr there⟩

theorem Accounted.evict (sound : Accounted m) (now : Nat) :
    Accounted (evictOldestStaleBox noFaults m now).2 := by
  unfold evictOldestStaleBox
  split
  · exact sound
  rename_i oldest lastDeposit rest entries
  split
  · have cuts := evict_blobs_cuts sound (listed_there m oldest)
    have cleared := (cuts.accounted sound).evict_acks (evicted_clear cuts)
    have order : (evictAcks noFaults (evictBlobs noFaults oldest (listedBlobs m oldest) m)
        oldest).boxOrder = m.boxOrder := by
      rw [evict_acks_eq (cuts.accounted sound) (evicted_clear cuts), write_index_order]
      exact cuts.order
    have known : m.boxOrder.get oldest = some lastDeposit :=
      get_of_mem (by simp [entries])
    dsimp only
    split
    · rename_i missing
      have unknown := (cleared.order oldest).mpr missing
      rw [order, known] at unknown
      cases unknown
    · split
      · exact cleared
      · rename_i removed gone
        exact cleared.forget_removed gone
  · exact sound

theorem sweep_alive (now : Nat) {name : String}
    (there : (sweepBlobs noFaults now box (listedBlobs m box) m []).1.blobAt box name ≠ none) :
    name ∈ (sweepBlobs noFaults now box (listedBlobs m box) m []).2 := by
  obtain ⟨cuts, kept⟩ := sweep_blobs_cuts now (listed_there m box) []
  obtain ⟨blob, found⟩ := ne_none_iff_exists'.mp there
  rw [cuts.blob_at] at found
  split_ifs at found with taken
  have mem := mem_listed_iff.mpr (show m.blobAt box name ≠ none by simp [found])
  obtain ⟨entry, listed, same⟩ := mem_map.mp mem
  rw [kept, nil_append]
  refine mem_map.mpr ⟨entry, mem_filter.mpr ⟨listed, ?_⟩, same⟩
  cases old : expired now entry with
  | false => rfl
  | true =>
    exact absurd ⟨rfl, mem_map.mpr ⟨entry, mem_filter.mpr ⟨listed, old⟩, same⟩⟩ taken

theorem Accounted.sweep (sound : Accounted m) (now : Nat) (box : String) :
    Accounted (sweepBox noFaults now m box) := by
  obtain ⟨cuts, -⟩ := sweep_blobs_cuts now (listed_there m box) []
  have trimmed : Accounted (writeAckIndex noFaults
      (sweepBlobs noFaults now box (listedBlobs m box) m []).1 box
      (pruneAckIndex (readAckIndex (sweepBlobs noFaults now box (listedBlobs m box) m []).1 box)
        (sweepBlobs noFaults now box (listedBlobs m box) m []).2)) := by
    apply (cuts.accounted sound).write_index
    intro name there
    unfold pruneAckIndex
    rw [get_keep, if_pos (decide_eq_true (sweep_alive now there))]
    rfl
  unfold sweepBox
  dsimp only
  split
  · split_ifs
    · exact trimmed
    · exact cuts.accounted sound
  · rename_i removed gone
    refine Accounted.remove_box ?_ gone
    split_ifs
    · exact trimmed
    · exact cuts.accounted sound

end Loops

end AwfulChat.Relay
