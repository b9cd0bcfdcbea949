import AwfulChat.Relay.MailboxOperations

/-!
# Mailbox accounting over whole runs

What boot finds on disk it counts, and every operation keeps the counts, so they
equal the disk after every operation of every run.
-/

namespace AwfulChat.Relay

open Library Library.OrderedMap List Option

set_option autoImplicit false

section Boot

variable {disk : MailboxDisk} {dirTime : String → Nat}

theorem mem_acked_in_box {box : String} {dir : BoxDir} {found : AckedOnDisk} :
    found ∈ ackedInBox box dir ↔ ∃ index devices blob, dir.acks = some (.written index) ∧
      index.get found.id = some devices ∧ dir.blobs.get found.id = some blob ∧ devices ≠ [] ∧
      found = ⟨box, found.id, mailboxCharge blob.size, blob.mod⟩ := by
  unfold ackedInBox
  split
  · rename_i index acks
    rw [mem_filterMap]
    constructor
    · rintro ⟨⟨id, devices⟩, listed, chosen⟩
      dsimp only at chosen
      split at chosen
      · cases chosen
      · rename_i blob there
        split at chosen
        · cases chosen
        · rename_i some_device
          cases chosen
          exact ⟨index, devices, blob, acks, get_of_mem listed, there, some_device, rfl⟩
    · rintro ⟨other, devices, blob, same, listed, there, some_device, shape⟩
      rw [acks] at same
      cases same
      refine ⟨(found.id, devices), mem_of_get listed, ?_⟩
      dsimp only
      rw [there]
      dsimp only
      rw [if_neg some_device, ← shape]
  · rename_i unwritten
    constructor
    · rintro ⟨⟩
    · rintro ⟨index, -, -, acks, -⟩
      exact absurd acks (unwritten index)

/-- The blobs boot remembers as acked. -/
def ackedAtBoot (disk : MailboxDisk) : List AckedOnDisk :=
  (disk.entries.flatMap fun entry => ackedInBox entry.1 entry.2).mergeSort ackedEarlier

theorem mem_acked_at_boot {found : AckedOnDisk} : found ∈ ackedAtBoot disk ↔
    ∃ dir, disk.get found.box = some dir ∧ found ∈ ackedInBox found.box dir := by
  unfold ackedAtBoot
  rw [mem_mergeSort, mem_flatMap]
  constructor
  · rintro ⟨⟨box, dir⟩, listed, acked⟩
    have same : found.box = box := by
      obtain ⟨index, devices, blob, -, -, -, -, shape⟩ := mem_acked_in_box.mp acked
      rw [shape]
    subst same
    exact ⟨dir, get_of_mem listed, acked⟩
  · rintro ⟨dir, listed, acked⟩
    exact ⟨(found.box, dir), mem_of_get listed, acked⟩

def noteAll (m : Mailbox) (found : List AckedOnDisk) : Mailbox :=
  found.foldl (fun m blob => mailboxNoteAcked m blob.box blob.id blob.charge) m

theorem note_all_counted {m : Mailbox} (sound : Counted m) (found : List AckedOnDisk) :
    Counted (noteAll m found) := by
  induction found generalizing m with
  | nil => exact sound
  | cons first rest ih => exact ih (sound.note_acked first.id first.charge)

theorem note_all_disk (m : Mailbox) (found : List AckedOnDisk) :
    (noteAll m found).disk = m.disk ∧ (noteAll m found).boxOrder = m.boxOrder := by
  induction found generalizing m with
  | nil => exact ⟨rfl, rfl⟩
  | cons first rest ih =>
    obtain ⟨disk, order⟩ := note_acked_disk m first.box first.id first.charge
    obtain ⟨later, kept⟩ := ih (mailboxNoteAcked m first.box first.id first.charge)
    exact ⟨later.trans disk, kept.trans order⟩

theorem note_all_get {m : Mailbox} {found : List AckedOnDisk} {box id : String} {charge : Int}
    (listed : (noteAll m found).acked.get (box, id) = some charge) :
    m.acked.get (box, id) = some charge ∨
      ∃ blob ∈ found, blob.box = box ∧ blob.id = id ∧ blob.charge = charge := by
  induction found generalizing m with
  | nil => exact Or.inl listed
  | cons first rest ih =>
    rcases ih listed with earlier | ⟨blob, mem, shape⟩
    · rw [note_acked_get] at earlier
      split_ifs at earlier with same
      · obtain ⟨own, name⟩ := Prod.mk.inj same
        cases known : m.acked.get (first.box, first.id) with
        | none =>
          rw [known, getD_none] at earlier
          right
          exact ⟨first, by simp, own.symm, name.symm, Option.some.inj earlier⟩
        | some old =>
          rw [known, getD_some] at earlier
          left
          rw [same, known, earlier]
      · exact Or.inl earlier
    · exact Or.inr ⟨blob, mem_cons_of_mem _ mem, shape⟩

theorem note_all_listed {m : Mailbox} {found : List AckedOnDisk} {box id : String}
    (there : m.acked.get (box, id) ≠ none ∨ ∃ blob ∈ found, blob.box = box ∧ blob.id = id) :
    (noteAll m found).acked.get (box, id) ≠ none := by
  induction found generalizing m with
  | nil =>
    rcases there with listed | ⟨blob, mem, -⟩
    · exact listed
    · cases mem
  | cons first rest ih =>
    apply ih
    rcases there with listed | ⟨blob, mem, own, name⟩
    · left
      rw [note_acked_get]
      split_ifs
      · simp
      · exact listed
    · rcases mem_cons.mp mem with same | later
      · left
        rw [note_acked_get, if_pos (by rw [← own, ← name, same])]
        simp
      · exact Or.inr ⟨blob, later, own, name⟩

/-- The counters boot starts from, before the acked blobs. -/
def countedAtBoot (disk : MailboxDisk) (dirTime : String → Nat) : Mailbox where
  disk := disk
  usedBytes := disk.total fun _ dir => dir.bytes
  files := disk.total fun _ dir => dir.files
  boxes := disk.size
  blobOrigin := .empty
  held := .empty
  boxOrder := .collect ((disk.keys.map fun box => (box, dirTime box)).mergeSort olderBox)
  acked := .empty
  ackedBytes := 0

theorem init_used_bytes_eq (disk : MailboxDisk) (dirTime : String → Nat) :
    mailboxInitUsedBytes disk dirTime = noteAll (countedAtBoot disk dirTime) (ackedAtBoot disk) :=
  rfl

theorem counted_at_boot (disk : MailboxDisk) (dirTime : String → Nat) :
    Counted (countedAtBoot disk dirTime) where
  used := rfl
  files := rfl
  boxes := rfl
  held := fun _ => rfl
  origins := by
    intro box id origin found
    simp [countedAtBoot] at found
  ackedBytes := rfl
  order := by
    intro box
    unfold countedAtBoot
    dsimp only
    rw [collect_get_none]
    constructor
    · intro unlisted
      by_contra found
      have mem : (box, dirTime box) ∈
          (disk.keys.map fun box => (box, dirTime box)).mergeSort olderBox :=
        mem_mergeSort.mpr (mem_map.mpr ⟨box, mem_keys_iff.mpr found, rfl⟩)
      exact unlisted _ mem rfl
    · intro absent entry mem same
      obtain ⟨other, listed, shape⟩ := mem_map.mp (mem_mergeSort.mp mem)
      rw [← same, ← shape] at absent
      exact mem_keys_iff.mp listed absent

theorem boot_accounted (disk : MailboxDisk) (dirTime : String → Nat) :
    Accounted (mailboxInitUsedBytes disk dirTime) := by
  rw [init_used_bytes_eq]
  have files := (note_all_disk (countedAtBoot disk dirTime) (ackedAtBoot disk)).1
  refine ⟨note_all_counted (counted_at_boot disk dirTime) _, ?_⟩
  intro box id
  have blob_at : (noteAll (countedAtBoot disk dirTime) (ackedAtBoot disk)).blobAt box id =
      (disk.get box).bind fun dir => dir.blobs.get id := by
    unfold Mailbox.blobAt
    rw [files]
    rfl
  have devices : devicesOf (noteAll (countedAtBoot disk dirTime) (ackedAtBoot disk)) box id =
      devicesOf (countedAtBoot disk dirTime) box id := by
    unfold devicesOf readAckIndex
    rw [files]
  rw [blob_at, devices]
  cases listed : (noteAll (countedAtBoot disk dirTime) (ackedAtBoot disk)).acked.get (box, id) with
  | some charge =>
    rcases note_all_get listed with never | ⟨found, mem, rfl, rfl, rfl⟩
    · simp [countedAtBoot] at never
    · obtain ⟨dir, here, acked⟩ := mem_acked_at_boot.mp mem
      obtain ⟨index, devices, blob, acks, names, there, some_device, shape⟩ :=
        mem_acked_in_box.mp acked
      have listing : devicesOf (countedAtBoot disk dirTime) found.box found.id = devices := by
        simp [devicesOf, readAckIndex, countedAtBoot, here, acks, names]
      have cost : found.charge = mailboxCharge blob.size := by rw [shape]
      rw [here, bind_some, there, bind_some, listing, if_neg some_device, cost]
  | none =>
    cases here : disk.get box with
    | none => rfl
    | some dir =>
      rw [bind_some]
      cases there : dir.blobs.get id with
      | none => rfl
      | some blob =>
        rw [bind_some]
        by_cases none_listed : devicesOf (countedAtBoot disk dirTime) box id = []
        · rw [if_pos none_listed]
        · exfalso
          apply note_all_listed _ listed
          right
          refine ⟨⟨box, id, mailboxCharge blob.size, blob.mod⟩, ?_, rfl, rfl⟩
          apply mem_acked_at_boot.mpr
          refine ⟨dir, here, mem_acked_in_box.mpr ?_⟩
          simp only [devicesOf, readAckIndex, countedAtBoot, here, bind_some]
            at none_listed
          split at none_listed
          · rename_i index acks
            cases names : index.get id with
            | none => simp [names] at none_listed
            | some devices =>
              rw [names, getD_some] at none_listed
              exact ⟨index, devices, blob, acks, names, there, none_listed, rfl⟩
          · simp at none_listed

theorem boot_disk (disk : MailboxDisk) (dirTime : String → Nat) :
    (mailboxInitUsedBytes disk dirTime).disk = disk := by
  rw [init_used_bytes_eq, (note_all_disk _ _).1]
  rfl

theorem boot_ids_known (disk : MailboxDisk) (dirTime : String → Nat) :
    IdsKnown (mailboxInitUsedBytes disk dirTime) (idsOf disk) := by
  have files := boot_disk disk dirTime
  constructor
  · intro box id found
    unfold Mailbox.blobAt at found
    rw [files] at found
    obtain ⟨blob, there⟩ := ne_none_iff_exists'.mp found
    obtain ⟨dir, here, listed⟩ := bind_eq_some_iff.mp there
    refine mem_flatMap.mpr ⟨(box, dir), mem_of_get here, mem_append_left _ ?_⟩
    exact mem_map.mpr ⟨id, mem_keys_iff.mpr (by simp [listed]), rfl⟩
  · intro box id found
    unfold readAckIndex at found
    rw [files] at found
    cases here : disk.get box with
    | none => simp [here] at found
    | some dir =>
      rw [here, bind_some] at found
      refine mem_flatMap.mpr
        ⟨(box, dir), mem_of_get here, mem_append_right _ ?_⟩
      split at found
      · rename_i index acks
        dsimp only
        rw [acks]
        exact mem_map.mpr ⟨id, mem_keys_iff.mpr found, rfl⟩
      · simp at found

end Boot

section Steps

variable {m : Mailbox} {ids : List (String × String)}

theorem acked_state_disk (m : Mailbox) (box device : String) (names : List String) :
    (ackedState m box device names).1.disk = m.disk := by
  have fold : ∀ state : Mailbox × AckIndex, state.1.disk = m.disk →
      (names.foldl (ackOne box device) state).1.disk = m.disk := by
    induction names with
    | nil => exact fun _ disk => disk
    | cons id rest ih =>
      intro state disk
      exact ih _ (ack_one_keys box device state id disk).1
  exact fold _ rfl

theorem IdsKnown.device_ack (known : IdsKnown m ids) (faults : Faults) (box device : String)
    (names : List String) : IdsKnown (deviceAck faults m box device names) ids := by
  have disk := acked_state_disk m box device names
  unfold deviceAck
  constructor
  · intro other name found
    rw [write_index_blob_at] at found
    unfold Mailbox.blobAt at found
    rw [disk] at found
    exact known.blobs other name found
  · intro other name found
    rcases write_index_read _ faults other name found with old | ⟨same, listed⟩
    · unfold readAckIndex at old
      rw [disk] at old
      exact known.index other name old
    · rw [same]
      rcases acked_state_keys box device names listed with old | there
      · exact known.index box name old
      · exact known.blobs box name there

theorem IdsKnown.ack (known : IdsKnown m ids) (arrival : AckArrival) :
    IdsKnown (handleMailboxAck m arrival).2 ids := by
  unfold handleMailboxAck
  split
  · exact known
  · rename_i box device names checked
    split
    · exact known.device_ack arrival.faults box device names
    · exact known.loses (loses_plain_ack box names)

variable {world next : MailboxWorld} {event : MailboxEvent}

theorem fresh_id_unused {arrival : DepositArrival} (fresh : freshId world arrival = true)
    {box : String} {blob : Bytes} (checked : arrival.checked = .ok (box, blob)) :
    (box, arrival.id) ∉ world.ids := by
  unfold freshId at fresh
  rw [checked] at fresh
  exact of_decide_eq_true fresh

theorem deposit_step_mailbox (world : MailboxWorld) (arrival : DepositArrival) :
    (depositStep world arrival).mailbox = (handleMailboxDeposit world.mailbox arrival).2 := by
  unfold depositStep
  dsimp only
  split <;> rfl

theorem ack_step_mailbox (world : MailboxWorld) (arrival : AckArrival) :
    (ackStep world arrival).mailbox = (handleMailboxAck world.mailbox arrival).2 ∧
      (ackStep world arrival).ids = world.ids := by
  unfold ackStep
  dsimp only
  split
  · exact ⟨rfl, rfl⟩
  · split <;> exact ⟨rfl, rfl⟩

theorem ack_step_cases (world : MailboxWorld) (arrival : AckArrival) :
    (∃ status, arrival.checked = .error status ∧ ackStep world arrival = world) ∨
    (∃ box names, arrival.checked = .ok (box, "", names) ∧ ackStep world arrival =
      { world with mailbox := plainAck arrival.faults world.mailbox box names }) ∨
    ∃ box device names, arrival.checked = .ok (box, device, names) ∧ device ≠ "" ∧
      ackStep world arrival =
        { world with
          mailbox := deviceAck arrival.faults world.mailbox box device names
          named := names.map (fun id => (box, device, id)) ++ world.named
          collected := (names.filter fun id => (world.mailbox.blobAt box id).isSome).map
            (fun id => (box, device, id)) ++ world.collected } := by
  cases checked : arrival.checked with
  | error status =>
    refine Or.inl ⟨status, rfl, ?_⟩
    unfold ackStep handleMailboxAck
    rw [checked]
  | ok request =>
    obtain ⟨box, device, names⟩ := request
    by_cases named : device = ""
    · subst named
      refine Or.inr (Or.inl ⟨box, names, rfl, ?_⟩)
      unfold ackStep handleMailboxAck
      rw [checked]
      simp
    · refine Or.inr (Or.inr ⟨box, device, names, rfl, named, ?_⟩)
      unfold ackStep handleMailboxAck
      rw [checked]
      simp [named]

theorem IdsKnown.deposit_step (known : IdsKnown world.mailbox world.ids)
    (arrival : DepositArrival) :
    IdsKnown (depositStep world arrival).mailbox (depositStep world arrival).ids := by
  cases checked : arrival.checked with
  | error status =>
    unfold depositStep handleMailboxDeposit
    rw [checked]
    exact known
  | ok request =>
    obtain ⟨box, blob⟩ := request
    have deposited := known.deposit checked
    unfold depositStep
    rw [checked]
    exact deposited

theorem mailbox_step_cases (stepped : mailboxStep world event = some next) :
    (∃ arrival, event = .deposit arrival ∧ world.clock ≤ arrival.now ∧
      arrival.now ≤ arrival.storedAt ∧ arrival.storedAt ≤ arrival.touchedAt ∧
      arrival.writtenAt ≤ arrival.touchedAt ∧ freshId world arrival = true ∧
      next = depositStep world arrival) ∨
    (∃ arrival, event = .ack arrival ∧ next = ackStep world arrival) ∨
    (∃ faults now box, event = .sweep faults now box ∧
      next = { world with mailbox := sweepBox faults now world.mailbox box }) ∨
    (∃ faults now, event = .evict faults now ∧ world.clock ≤ now ∧
      next = { world with
        mailbox := (evictOldestStaleBox faults world.mailbox now).2, clock := now }) ∨
    ∃ faults charge keepBox, event = .makeRoom faults charge keepBox ∧
      next = { world with mailbox := (mailboxMakeRoom faults world.mailbox charge keepBox).1 } := by
  cases event with
  | deposit arrival =>
    simp only [mailboxStep] at stepped
    split_ifs at stepped with allowed
    obtain ⟨⟨started, named, touched, written⟩, fresh⟩ := allowed
    exact Or.inl ⟨arrival, rfl, started, named, touched, written, fresh,
      (Option.some.inj stepped).symm⟩
  | ack arrival => exact Or.inr (Or.inl ⟨arrival, rfl, (Option.some.inj stepped).symm⟩)
  | sweep faults now box =>
    exact Or.inr (Or.inr (Or.inl ⟨faults, now, box, rfl, (Option.some.inj stepped).symm⟩))
  | evict faults now =>
    simp only [mailboxStep] at stepped
    split_ifs at stepped with later
    exact Or.inr (Or.inr (Or.inr (Or.inl
      ⟨faults, now, rfl, later, (Option.some.inj stepped).symm⟩)))
  | makeRoom faults charge keepBox =>
    exact Or.inr (Or.inr (Or.inr (Or.inr
      ⟨faults, charge, keepBox, rfl, (Option.some.inj stepped).symm⟩)))

theorem IdsKnown.step (known : IdsKnown world.mailbox world.ids)
    (stepped : mailboxStep world event = some next) : IdsKnown next.mailbox next.ids := by
  rcases mailbox_step_cases stepped with ⟨arrival, -, -, -, -, -, -, rfl⟩ | ⟨arrival, -, rfl⟩ |
    ⟨faults, now, box, -, rfl⟩ | ⟨faults, now, -, -, rfl⟩ | ⟨faults, charge, keepBox, -, rfl⟩
  · exact known.deposit_step arrival
  · rw [(ack_step_mailbox world arrival).1, (ack_step_mailbox world arrival).2]
    exact known.ack arrival
  · exact known.loses (loses_sweep now box)
  · exact known.loses (loses_evict now)
  · exact known.loses (loses_make_room charge keepBox)

theorem Accounted.step (sound : Accounted world.mailbox)
    (known : IdsKnown world.mailbox world.ids) (clean : event.faults = noFaults)
    (stepped : mailboxStep world event = some next) : Accounted next.mailbox := by
  rcases mailbox_step_cases stepped with ⟨arrival, rfl, -, -, -, -, fresh, rfl⟩ |
    ⟨arrival, rfl, rfl⟩ | ⟨faults, now, box, rfl, rfl⟩ | ⟨faults, now, rfl, -, rfl⟩ |
    ⟨faults, charge, keepBox, rfl, rfl⟩
  · rw [deposit_step_mailbox]
    apply sound.deposit known clean
    intro box blob checked
    exact fresh_id_unused fresh checked
  · rw [(ack_step_mailbox world arrival).1]
    exact sound.ack clean
  · change faults = noFaults at clean
    rw [clean]
    exact sound.sweep now box
  · change faults = noFaults at clean
    rw [clean]
    exact sound.evict now
  · change faults = noFaults at clean
    rw [clean]
    exact sound.make_room charge keepBox

/-- What holds between operations while removals succeed. -/
structure MailboxSound (world : MailboxWorld) : Prop where
  accounted : Accounted world.mailbox
  known : IdsKnown world.mailbox world.ids

theorem MailboxSound.step (sound : MailboxSound world) (clean : event.faults = noFaults)
    (stepped : mailboxStep world event = some next) : MailboxSound next :=
  ⟨sound.accounted.step sound.known clean stepped, sound.known.step stepped⟩

theorem boot_sound (disk : MailboxDisk) (dirTime : String → Nat) (clock : Nat) :
    MailboxSound (bootWorld disk dirTime clock) :=
  ⟨boot_accounted disk dirTime, boot_ids_known disk dirTime⟩

theorem run_sound {events : List MailboxEvent} (sound : MailboxSound world)
    (clean : ∀ event ∈ events, event.faults = noFaults)
    (ran : run mailboxStep world events = some next) : MailboxSound next :=
  run_keeps (fun _ _ _ held clean stepped => held.step clean stepped) sound
    (meets_of_events clean world) ran

end Steps

section Sample

def sampleBox : String := String.ofList (List.replicate 64 'a')

def sampleDevice : String := String.ofList (List.replicate 40 'A')

def sampleDeposit (box : String) (now : Nat) : DepositArrival where
  preflight := none
  admitted := true
  request := some (box, "AQ==")
  source := "s"
  now := now
  storedAt := now
  writtenAt := now
  touchedAt := now
  mkdirFails := false
  writeFails := false
  partialBlob := []
  faults := noFaults

def sampleAck (box device : String) (ids : List String) : AckArrival where
  preflight := none
  admitted := true
  request := some (ids, device)
  box := some box
  faults := noFaults

end Sample

end AwfulChat.Relay
