import AwfulChat.Relay.MailboxRoom

/-!
# Delivery to each device

The index of a box says which devices acked which blob. While removals succeed, each
rewrite of it leaves the lists of the blobs still there as they were, so a collect
returns a device exactly the blobs it has not acked.
-/

namespace AwfulChat.Relay

open Library Library.OrderedMap
open List hiding get_of_mem
open Option hiding get_of_mem

set_option autoImplicit false

section Lists

variable {m middle after : Mailbox} {box : String}

/-- What is left was there before, with the same list of devices. -/
def KeepsLists (before after : Mailbox) : Prop :=
  ∀ box id, after.blobAt box id ≠ none → after.blobAt box id = before.blobAt box id ∧
    devicesOf after box id = devicesOf before box id

theorem KeepsLists.refl (m : Mailbox) : KeepsLists m m := fun _ _ _ => ⟨rfl, rfl⟩

theorem KeepsLists.trans (first : KeepsLists m middle) (second : KeepsLists middle after) :
    KeepsLists m after := by
  intro box id there
  obtain ⟨blob, devices⟩ := second box id there
  obtain ⟨earlier, before⟩ := first box id (blob ▸ there)
  exact ⟨blob.trans earlier, devices.trans before⟩

theorem KeepsLists.of_disk (kept : KeepsLists m middle) (disk : after.disk = middle.disk) :
    KeepsLists m after := by
  intro box id there
  have blob : after.blobAt box id = middle.blobAt box id := by
    unfold Mailbox.blobAt
    rw [disk]
  have devices : devicesOf after box id = devicesOf middle box id := by
    unfold devicesOf readAckIndex
    rw [disk]
  rw [blob] at there ⊢
  rw [devices]
  exact kept box id there

theorem CutsAll.keeps_lists {names : List String} (cuts : CutsAll m after box names) :
    KeepsLists m after := by
  intro other id there
  have devices : devicesOf after other id = devicesOf m other id := by
    unfold devicesOf
    rw [cuts.index]
  rw [cuts.blob_at] at there ⊢
  split_ifs at there ⊢
  · exact absurd rfl there
  · exact ⟨rfl, devices⟩

theorem write_index_keeps {index : AckIndex}
    (same : ∀ name, m.blobAt box name ≠ none → (index.get name).getD [] = devicesOf m box name) :
    KeepsLists m (writeAckIndex noFaults m box index) := by
  intro other id there
  have blob : (writeAckIndex noFaults m box index).blobAt other id = m.blobAt other id :=
    write_index_blob_at index noFaults other id
  refine ⟨blob, ?_⟩
  rw [blob] at there
  by_cases own : other = box
  · subst own
    obtain ⟨found, listed⟩ := ne_none_iff_exists'.mp there
    obtain ⟨dir, here, -⟩ := dir_of_blob_at listed
    rw [write_index_devices here]
    exact same id there
  · exact write_index_devices_other index noFaults own id

theorem drop_acks_keeps {ids : List String} (gone : ∀ name ∈ ids, m.blobAt box name = none) :
    KeepsLists m (dropAcks noFaults m box ids) := by
  unfold dropAcks
  dsimp only
  split_ifs
  · apply write_index_keeps
    intro name there
    have stays : name ∉ ids := fun mem => there (gone name mem)
    rw [get_keep, if_pos (decide_eq_true stays)]
    rfl
  · exact KeepsLists.refl m

theorem remove_box_keeps {removed : Mailbox} (gone : m.removeBox noFaults box = some removed) :
    KeepsLists m removed := by
  obtain ⟨dir, found, blobs, -, rfl⟩ := removed_box_eq gone
  intro other id there
  unfold devicesOf readAckIndex
  unfold Mailbox.blobAt at there ⊢
  dsimp only at there ⊢
  rw [get_delete] at there ⊢
  split_ifs at there ⊢
  · exact absurd rfl there
  · exact ⟨rfl, rfl⟩

theorem remove_empty_box_keeps (m : Mailbox) (box : String) :
    KeepsLists m (removeEmptyBox noFaults m box) := by
  unfold removeEmptyBox
  cases gone : m.removeBox noFaults box with
  | none => exact KeepsLists.refl m
  | some removed => exact (remove_box_keeps gone).of_disk rfl

theorem take_acked_keeps (sound : Accounted m) (keepBox : String) {id : String} {cost : Int}
    (listed : m.acked.get (box, id) = some cost) :
    KeepsLists m (takeAcked noFaults m keepBox box id).1 := by
  obtain ⟨blob, there, -⟩ := acked_there sound listed
  obtain ⟨removed, gone⟩ := no_faults_remove there
  obtain ⟨given, cut⟩ := sound.give_back gone there
  have cuts := CutsAll.cons cut (CutsAll.none_cut _ box)
  have trimmed : KeepsLists m (dropAcks noFaults
      ((mailboxForgetBlob removed box id).giveBack (mailboxCharge blob.size)) box [id]) := by
    apply cuts.keeps_lists.trans
    apply drop_acks_keeps
    intro name mem
    rw [cuts.blob_at, if_pos ⟨rfl, mem⟩]
  unfold takeAcked
  rw [there, gone]
  dsimp only
  split
  · exact trimmed
  · exact trimmed.trans (remove_empty_box_keeps _ box)

theorem make_room_loop_keeps (charge : Int) (keepBox : String) (fuel : Nat) (sound : Accounted m)
    (gone : List String) : KeepsLists m (makeRoomLoop noFaults charge keepBox fuel m gone).1 := by
  induction fuel generalizing m gone with
  | zero => exact KeepsLists.refl m
  | succ fuel ih =>
    unfold makeRoomLoop
    split
    · split
      · exact KeepsLists.refl m
      · rename_i box id cost rest entries
        have listed : m.acked.get (box, id) = some cost :=
          get_of_mem (by simp [entries])
        exact (take_acked_keeps sound keepBox listed).trans
          (ih (sound.take_acked keepBox listed) _)
    · exact KeepsLists.refl m

theorem make_room_keeps (sound : Accounted m) (charge : Int) (keepBox : String) :
    KeepsLists m (mailboxMakeRoom noFaults m charge keepBox).1 :=
  make_room_loop_keeps charge keepBox _ sound []

theorem evict_keeps (sound : Accounted m) (now : Nat) :
    KeepsLists m (evictOldestStaleBox noFaults m now).2 := by
  unfold evictOldestStaleBox
  split
  · exact KeepsLists.refl m
  rename_i oldest lastDeposit rest entries
  split
  · have cuts := evict_blobs_cuts sound (listed_there m oldest)
    have cleared : KeepsLists m (evictAcks noFaults
        (evictBlobs noFaults oldest (listedBlobs m oldest) m) oldest) := by
      apply cuts.keeps_lists.trans
      rw [evict_acks_eq (cuts.accounted sound) (evicted_clear cuts)]
      apply write_index_keeps
      intro name there
      exact absurd (evicted_clear cuts name) there
    dsimp only
    split
    · exact cleared.of_disk rfl
    · split
      · exact cleared
      · rename_i removed gone
        exact (cleared.trans (remove_box_keeps gone)).of_disk rfl
  · exact KeepsLists.refl m

theorem sweep_keeps (now : Nat) (box : String) : KeepsLists m (sweepBox noFaults now m box) := by
  obtain ⟨cuts, -⟩ := sweep_blobs_cuts now (listed_there m box) []
  have alive : ∀ name,
      (sweepBlobs noFaults now box (listedBlobs m box) m []).1.blobAt box name ≠ none →
      name ∈ (sweepBlobs noFaults now box (listedBlobs m box) m []).2 :=
    fun _ there => sweep_alive now there
  unfold sweepBox
  dsimp only
  generalize sweepBlobs noFaults now box (listedBlobs m box) m [] = result at cuts alive
  have trimmed : KeepsLists m
      (if 0 < (readAckIndex result.1 box).size ∧
          (pruneAckIndex (readAckIndex result.1 box) result.2).size <
            (readAckIndex result.1 box).size then
        writeAckIndex noFaults result.1 box (pruneAckIndex (readAckIndex result.1 box) result.2)
      else result.1) := by
    split
    · apply cuts.keeps_lists.trans
      apply write_index_keeps
      intro name there
      unfold pruneAckIndex
      rw [get_keep, if_pos (decide_eq_true (alive name there))]
      rfl
    · exact cuts.keeps_lists
  split
  · exact trimmed
  · rename_i removed gone
    exact (trimmed.trans (remove_box_keeps gone)).of_disk rfl

theorem plain_ack_keeps (sound : Accounted m) (box : String) (ids : List String) :
    KeepsLists m (plainAck noFaults m box ids) := by
  have cuts := ack_remove_cuts sound box ids
  unfold plainAck
  apply KeepsLists.trans _ (remove_empty_box_keeps _ box)
  apply cuts.keeps_lists.trans
  apply drop_acks_keeps
  intro name mem
  rw [cuts.blob_at, if_pos ⟨rfl, mem⟩]

end Lists

section Acking

variable {m : Mailbox} {box : String} {allowed : List String}

/-- A list as the relay writes it for the devices that use the box. -/
def TidyList (allowed devices : List String) : Prop := devices.Nodup ∧ devices ⊆ allowed

theorem TidyList.nil (allowed : List String) : TidyList allowed [] :=
  ⟨nodup_nil, nil_subset _⟩

section

variable {devices : List String} {device : String} (tidy : TidyList allowed devices)
  (used : device ∈ allowed) (absent : device ∉ devices)
include tidy used absent

theorem TidyList.room : devices.length < allowed.length := by
  have with_device : (device :: devices).Nodup := nodup_cons.mpr ⟨absent, tidy.1⟩
  have within : device :: devices ⊆ allowed := by
    intro other mem
    rcases mem_cons.mp mem with rfl | listed
    · exact used
    · exact tidy.2 listed
  exact (subperm_of_subset with_device within).length_le

theorem TidyList.append :
    TidyList allowed (devices ++ [device]) := by
  refine ⟨?_, ?_⟩
  · rw [nodup_append]
    refine ⟨tidy.1, by simp, ?_⟩
    intro left listed right alone same
    rw [mem_singleton] at alone
    exact absent (alone ▸ same ▸ listed)
  · intro other mem
    rcases mem_append.mp mem with listed | alone
    · exact tidy.2 listed
    · rw [mem_singleton.mp alone]
      exact used

end

/-- The lists of an ack so far: those of the blobs there, and the acking device on the
lists of the ids it has been through. -/
structure AckLists (m : Mailbox) (box device : String) (allowed through : List String)
    (state : Mailbox × AckIndex) : Prop where
  disk : state.1.disk = m.disk
  tidy : ∀ id, m.blobAt box id ≠ none → TidyList allowed ((state.2.get id).getD [])
  listed : ∀ id, m.blobAt box id ≠ none → ∀ other, other ∈ (state.2.get id).getD [] ↔
    other ∈ devicesOf m box id ∨ (other = device ∧ id ∈ through)

theorem AckLists.step {device : String} {through : List String} {state : Mailbox × AckIndex}
    (lists : AckLists m box device allowed through state) (used : device ∈ allowed)
    (few : allowed.length ≤ mailboxMaxAckDevices) (id : String) :
    AckLists m box device allowed (through ++ [id]) (ackOne box device state id) := by
  have blob_at : state.1.blobAt box id = m.blobAt box id := by
    unfold Mailbox.blobAt
    rw [lists.disk]
  have untouched : ∀ name, m.blobAt box name ≠ none → name ≠ id → ∀ other,
      other ∈ (state.2.get name).getD [] ↔
        other ∈ devicesOf m box name ∨ (other = device ∧ name ∈ through ++ [id]) := by
    intro name there different other
    rw [lists.listed name there other, mem_append, mem_singleton, or_iff_left different]
  unfold ackOne
  rw [blob_at]
  cases there : m.blobAt box id with
  | none =>
    refine ⟨lists.disk, lists.tidy, ?_⟩
    intro name present other
    have different : name ≠ id := by
      intro same
      rw [same, there] at present
      exact present rfl
    exact untouched name present different other
  | some blob =>
    have present : m.blobAt box id ≠ none := by simp [there]
    dsimp only
    split
    · rename_i already
      refine ⟨lists.disk, lists.tidy, ?_⟩
      intro name here other
      by_cases same : name = id
      · subst same
        rw [lists.listed name here other]
        constructor
        · rintro (old | ⟨rfl, -⟩)
          · exact Or.inl old
          · exact Or.inr ⟨rfl, by simp⟩
        · rintro (old | ⟨rfl, -⟩)
          · exact Or.inl old
          · exact (lists.listed name here other).mp already
      · exact untouched name here same other
    · rename_i absent
      have tidy := lists.tidy id present
      have short := tidy.room used absent
      rw [if_neg (show ¬mailboxMaxAckDevices ≤ ((state.2.get id).getD []).length by omega)]
      refine ⟨?_, ?_, ?_⟩
      · dsimp only
        split
        · rw [(note_acked_disk _ _ _ _).1]
          exact lists.disk
        · exact lists.disk
      · intro name here
        dsimp only
        rw [get_set]
        split_ifs with same
        · exact tidy.append used absent
        · exact lists.tidy name here
      · intro name here other
        dsimp only
        by_cases same : name = id
        · subst same
          rw [get_set, if_pos rfl, getD_some, mem_append,
            mem_singleton, lists.listed name here other]
          constructor
          · rintro ((old | ⟨rfl, -⟩) | rfl)
            · exact Or.inl old
            · exact Or.inr ⟨rfl, by simp⟩
            · exact Or.inr ⟨rfl, by simp⟩
          · rintro (old | ⟨rfl, -⟩)
            · exact Or.inl (Or.inl old)
            · exact Or.inr rfl
        · rw [get_set, if_neg same]
          exact untouched name here same other

theorem acked_state_lists {device : String} (used : device ∈ allowed)
    (few : allowed.length ≤ mailboxMaxAckDevices)
    (tidy : ∀ id, m.blobAt box id ≠ none → TidyList allowed (devicesOf m box id))
    (names : List String) :
    AckLists m box device allowed names (ackedState m box device names) := by
  have start : AckLists m box device allowed []
      (m, pruneAckIndex (readAckIndex m box) (aliveBlobs m box)) := by
    refine ⟨rfl, ?_, ?_⟩
    · intro id there
      rw [pruned_devices there]
      exact tidy id there
    · intro id there other
      rw [pruned_devices there]
      simp
  have fold : ∀ (rest through : List String) (state : Mailbox × AckIndex),
      AckLists m box device allowed through state →
      AckLists m box device allowed (through ++ rest) (rest.foldl (ackOne box device) state) := by
    intro rest
    induction rest with
    | nil =>
      intro through state lists
      rw [append_nil]
      exact lists
    | cons id rest ih =>
      intro through state lists
      have next := ih (through ++ [id]) _ (lists.step used few id)
      rw [append_assoc, singleton_append] at next
      exact next
  exact fold names [] _ start

end Acking

section Delivery

variable {world next : MailboxWorld} {event : MailboxEvent} {box : String} {allowed : List String}

/-- The lists of a box tell who acked what is there. -/
structure Delivered (world : MailboxWorld) (box : String) (allowed : List String) : Prop where
  known : ∀ device id, (box, device, id) ∈ world.collected → (box, id) ∈ world.ids
  tidy : ∀ id, world.mailbox.blobAt box id ≠ none →
    TidyList allowed (devicesOf world.mailbox box id)
  listed : ∀ id, world.mailbox.blobAt box id ≠ none → ∀ device,
    device ∈ devicesOf world.mailbox box id ↔ (box, device, id) ∈ world.collected

theorem Delivered.keeps (delivered : Delivered world box allowed)
    (kept : KeepsLists world.mailbox next.mailbox) (ids : world.ids ⊆ next.ids)
    (collected : next.collected = world.collected) : Delivered next box allowed where
  known := by
    rw [collected]
    exact fun device id mem => ids (delivered.known device id mem)
  tidy := by
    intro id there
    obtain ⟨blob, devices⟩ := kept box id there
    rw [devices]
    exact delivered.tidy id (blob ▸ there)
  listed := by
    intro id there device
    obtain ⟨blob, devices⟩ := kept box id there
    rw [devices, collected]
    exact delivered.listed id (blob ▸ there) device

variable {arrival : DepositArrival}

theorem room_made_keeps {m : Mailbox} (sound : Accounted m) (target : String) (blob : Bytes)
    (clean : arrival.faults = noFaults) :
    KeepsLists m (roomBase m target arrival) ∧ KeepsLists m (roomMade m target blob arrival) := by
  have base : KeepsLists m (roomBase m target arrival) := by
    unfold roomBase
    rw [clean]
    split
    · exact evict_keeps sound arrival.now
    · exact KeepsLists.refl m
  refine ⟨base, base.trans ?_⟩
  unfold roomMade
  rw [clean]
  exact make_room_keeps (sound.room_base target clean) _ target

theorem accepted_keeps {m : Mailbox} {target : String} {blob : Bytes} {stored : List StoredBlob}
    (there : StoredThere m target stored) (clean : arrival.faults = noFaults)
    (absent : m.blobAt target arrival.id = none) :
    KeepsLists (storeBlob m target blob arrival)
      (acceptedDeposit m target blob stored arrival) := by
  have after_store : StoredThere (storeBlob m target blob arrival) target stored :=
    there.after_store absent
  obtain ⟨count, -, names, cuts, -⟩ := shed_overflow_cuts after_store blob.length []
  unfold acceptedDeposit
  rw [clean]
  dsimp only
  split
  · exact cuts.keeps_lists
  · apply cuts.keeps_lists.trans
    apply drop_acks_keeps
    intro name mem
    rw [names, nil_append] at mem
    rw [cuts.blob_at, if_pos ⟨rfl, mem⟩]

theorem Delivered.deposit (delivered : Delivered world box allowed) (sound : MailboxSound world)
    (clean : arrival.faults = noFaults)
    (fresh : freshId world arrival = true) : Delivered (depositStep world arrival) box allowed := by
  cases checked : arrival.checked with
  | error status =>
    unfold depositStep handleMailboxDeposit
    rw [checked]
    exact delivered.keeps (KeepsLists.refl _) (List.Subset.refl _) rfl
  | ok request =>
    obtain ⟨target, blob⟩ := request
    have unused := fresh_id_unused fresh checked
    obtain ⟨base, made⟩ := room_made_keeps sound.accounted target blob clean
    have left : IdsKnown (roomMade world.mailbox target blob arrival) world.ids :=
      sound.known.loses (loses_room_made world.mailbox target blob arrival)
    obtain ⟨absent, unlisted⟩ := left.fresh unused
    have ids : (depositStep world arrival).ids = (target, arrival.id) :: world.ids := by
      unfold depositStep
      rw [checked]
    have collected : (depositStep world arrival).collected = world.collected := by
      unfold depositStep
      rw [checked]
    have more : world.ids ⊆ (depositStep world arrival).ids := by
      rw [ids]
      exact subset_cons_self _ _
    have mailbox : (depositStep world arrival).mailbox =
        (depositLocked world.mailbox target blob arrival).2 := by
      rw [deposit_step_mailbox, handle_deposit_eq checked]
    have outcome := deposit_outcome world.mailbox target blob arrival
    generalize depositLocked world.mailbox target blob arrival = result at outcome mailbox
    cases outcome with
    | early status => exact delivered.keeps (mailbox ▸ base) more collected
    | late status => exact delivered.keeps (mailbox ▸ made) more collected
    | failed =>
      rw [failed_write_eq clean absent] at mailbox
      exact delivered.keeps (mailbox ▸ made) more collected
    | accepted fits =>
      have stored := (stored_left_all world.mailbox target blob clean).there
      have kept : KeepsLists (storeBlob (roomMade world.mailbox target blob arrival) target blob
          arrival) (depositStep world arrival).mailbox := by
        rw [mailbox]
        exact accepted_keeps stored clean absent
      have lists : ∀ id, (depositStep world arrival).mailbox.blobAt box id ≠ none →
          ((box, id) = (target, arrival.id) ∧
            devicesOf (depositStep world arrival).mailbox box id = []) ∨
          (world.mailbox.blobAt box id ≠ none ∧
            devicesOf (depositStep world arrival).mailbox box id =
              devicesOf world.mailbox box id) := by
        intro id there
        obtain ⟨here, devices⟩ := kept box id there
        have before : devicesOf (storeBlob (roomMade world.mailbox target blob arrival) target
            blob arrival) box id = devicesOf (roomMade world.mailbox target blob arrival) box id := by
          unfold devicesOf
          rw [store_blob_index]
        rw [here, store_blob_at] at there
        rw [devices, before]
        split_ifs at there with same
        · obtain ⟨rfl, rfl⟩ := Prod.mk.inj same
          exact Or.inl ⟨rfl, unlisted⟩
        · obtain ⟨earlier, lists⟩ := made box id there
          exact Or.inr ⟨earlier ▸ there, lists⟩
      refine ⟨?_, ?_, ?_⟩
      · intro device id mem
        rw [collected] at mem
        exact more (delivered.known device id mem)
      · intro id there
        rcases lists id there with ⟨-, none_listed⟩ | ⟨old, same⟩
        · rw [none_listed]
          exact TidyList.nil allowed
        · rw [same]
          exact delivered.tidy id old
      · intro id there device
        rcases lists id there with ⟨own, none_listed⟩ | ⟨old, same⟩
        · rw [none_listed, collected]
          refine ⟨fun mem => absurd mem not_mem_nil, ?_⟩
          intro mem
          exact absurd (own ▸ delivered.known device id mem) unused
        · rw [same, collected]
          exact delivered.listed id old device

/-- The devices that ack on the box are among these. -/
def UsedBy (box : String) (allowed : List String) : MailboxEvent → Prop
  | .ack arrival => ∀ device ids, arrival.checked = .ok (box, device, ids) →
      device = "" ∨ device ∈ allowed
  | _ => True

theorem Delivered.device_ack (delivered : Delivered world box allowed)
    (known : IdsKnown world.mailbox world.ids) (few : allowed.length ≤ mailboxMaxAckDevices)
    {target device : String} (names : List String) (used : target = box → device ∈ allowed)
    (mailbox : next.mailbox = deviceAck noFaults world.mailbox target device names)
    (ids : next.ids = world.ids)
    (collected : next.collected =
      (names.filter fun id => (world.mailbox.blobAt target id).isSome).map
        (fun id => (target, device, id)) ++ world.collected) : Delivered next box allowed := by
  have blob_at : ∀ id, next.mailbox.blobAt box id = world.mailbox.blobAt box id := by
    intro id
    rw [mailbox, device_ack_blob_at]
  have named : ∀ other id, (box, other, id) ∈ next.collected ↔
      (target = box ∧ other = device ∧ id ∈ names ∧ world.mailbox.blobAt box id ≠ none) ∨
        (box, other, id) ∈ world.collected := by
    intro other id
    rw [collected, mem_append, List.mem_map]
    apply or_congr_left
    constructor
    · rintro ⟨name, mem, same⟩
      obtain ⟨own, rest⟩ := Prod.mk.inj same
      obtain ⟨rfl, rfl⟩ := Prod.mk.inj rest
      obtain ⟨listed, there⟩ := mem_filter.mp mem
      rw [own] at there
      exact ⟨own, rfl, listed, isSome_iff_ne_none.mp there⟩
    · rintro ⟨rfl, rfl, listed, there⟩
      exact ⟨id, mem_filter.mpr ⟨listed, isSome_iff_ne_none.mpr there⟩, rfl⟩
  have lists : ∀ id, world.mailbox.blobAt box id ≠ none →
      TidyList allowed (devicesOf next.mailbox box id) ∧
        ∀ other, other ∈ devicesOf next.mailbox box id ↔
          other ∈ devicesOf world.mailbox box id ∨ (target = box ∧ other = device ∧ id ∈ names) := by
    intro id there
    by_cases own : target = box
    · subst own
      obtain ⟨blob, listed⟩ := ne_none_iff_exists'.mp there
      obtain ⟨dir, here, -⟩ := dir_of_blob_at listed
      have acked := acked_state_lists (used rfl) few delivered.tidy names
      have devices : devicesOf next.mailbox target id =
          ((ackedState world.mailbox target device names).2.get id).getD [] := by
        rw [mailbox]
        apply write_index_devices
        rw [acked.disk]
        exact here
      rw [devices]
      refine ⟨acked.tidy id there, ?_⟩
      intro other
      rw [acked.listed id there other]
      simp
    · have devices : devicesOf next.mailbox box id = devicesOf world.mailbox box id := by
        rw [mailbox]
        apply (write_index_devices_other _ noFaults (Ne.symm own) id).trans
        unfold devicesOf readAckIndex
        rw [acked_state_disk]
      rw [devices]
      refine ⟨delivered.tidy id there, ?_⟩
      intro other
      simp [own]
  refine ⟨?_, ?_, ?_⟩
  · intro other id mem
    rw [ids]
    rcases (named other id).mp mem with ⟨-, -, -, there⟩ | old
    · exact known.blobs box id there
    · exact delivered.known other id old
  · intro id there
    rw [blob_at] at there
    exact (lists id there).1
  · intro id there other
    rw [blob_at] at there
    rw [(lists id there).2 other, named, delivered.listed id there other]
    tauto

theorem Delivered.step (delivered : Delivered world box allowed) (sound : MailboxSound world)
    (few : allowed.length ≤ mailboxMaxAckDevices) (clean : event.faults = noFaults)
    (used : UsedBy box allowed event) (stepped : mailboxStep world event = some next) :
    Delivered next box allowed := by
  rcases mailbox_step_cases stepped with ⟨arrival, rfl, -, -, -, -, fresh, rfl⟩ |
    ⟨arrival, rfl, rfl⟩ | ⟨faults, now, target, rfl, rfl⟩ | ⟨faults, now, rfl, -, rfl⟩ |
    ⟨faults, charge, keepBox, rfl, rfl⟩
  · exact delivered.deposit sound clean fresh
  · change arrival.faults = noFaults at clean
    rcases ack_step_cases world arrival with ⟨-, -, same⟩ | ⟨target, names, -, same⟩ |
      ⟨target, device, names, checked, named, same⟩
    · rw [same]
      exact delivered
    · rw [same, clean]
      exact delivered.keeps (plain_ack_keeps sound.accounted target names) (List.Subset.refl _) rfl
    · rw [same, clean]
      refine delivered.device_ack sound.known few names ?_ rfl rfl rfl
      intro own
      exact (used device names (own ▸ checked)).resolve_left named
  · change faults = noFaults at clean
    rw [clean]
    exact delivered.keeps (sweep_keeps now target) (List.Subset.refl _) rfl
  · change faults = noFaults at clean
    rw [clean]
    exact delivered.keeps (evict_keeps sound.accounted now) (List.Subset.refl _) rfl
  · change faults = noFaults at clean
    rw [clean]
    exact delivered.keeps (make_room_keeps sound.accounted charge keepBox) (List.Subset.refl _) rfl

/-- The index boot finds in a box, as the relay writes it for these devices. -/
def TidyIndex (disk : MailboxDisk) (box : String) (allowed : List String) : Prop :=
  ∀ dir index id devices, disk.get box = some dir → dir.acks = some (.written index) →
    index.get id = some devices → TidyList allowed devices

theorem boot_devices (disk : MailboxDisk) (dirTime : String → Nat) (box id device : String) :
    device ∈ devicesOf (mailboxInitUsedBytes disk dirTime) box id ↔
      (box, device, id) ∈ collectedOf disk := by
  unfold devicesOf readAckIndex
  rw [boot_disk]
  constructor
  · intro mem
    cases here : disk.get box with
    | none => simp [here] at mem
    | some dir =>
      rw [here, bind_some] at mem
      refine mem_flatMap.mpr ⟨(box, dir), mem_of_get here, ?_⟩
      split at mem
      · rename_i index acks
        cases names : index.get id with
        | none => simp [names] at mem
        | some devices =>
          rw [names, getD_some] at mem
          dsimp only
          rw [acks]
          exact mem_flatMap.mpr ⟨(id, devices), mem_of_get names,
            mem_map.mpr ⟨device, mem, rfl⟩⟩
      · simp at mem
  · intro mem
    obtain ⟨⟨found, dir⟩, listed, inside⟩ := mem_flatMap.mp mem
    dsimp only at inside
    split at inside
    · rename_i index acks
      obtain ⟨⟨name, devices⟩, named, last⟩ := mem_flatMap.mp inside
      obtain ⟨other, known, same⟩ := mem_map.mp last
      obtain ⟨rfl, rest⟩ := Prod.mk.inj same
      obtain ⟨rfl, rfl⟩ := Prod.mk.inj rest
      rw [get_of_mem listed, bind_some, acks]
      dsimp only
      rw [get_of_mem named]
      exact known
    · cases inside

theorem collected_of_ids {disk : MailboxDisk} {box device id : String}
    (mem : (box, device, id) ∈ collectedOf disk) : (box, id) ∈ idsOf disk := by
  obtain ⟨entry, listed, inside⟩ := mem_flatMap.mp mem
  refine mem_flatMap.mpr ⟨entry, listed, mem_append_right _ ?_⟩
  split at inside
  · rename_i index acks
    obtain ⟨⟨name, devices⟩, named, last⟩ := mem_flatMap.mp inside
    obtain ⟨other, -, same⟩ := mem_map.mp last
    obtain ⟨rfl, rest⟩ := Prod.mk.inj same
    obtain ⟨rfl, rfl⟩ := Prod.mk.inj rest
    exact mem_map.mpr ⟨name, mem_map.mpr ⟨(name, devices), named, rfl⟩, rfl⟩
  · cases inside

theorem boot_delivered {disk : MailboxDisk} (tidy : TidyIndex disk box allowed)
    (dirTime : String → Nat) (clock : Nat) :
    Delivered (bootWorld disk dirTime clock) box allowed where
  known := fun _ _ mem => collected_of_ids mem
  tidy := by
    intro id _
    change TidyList allowed (devicesOf (mailboxInitUsedBytes disk dirTime) box id)
    unfold devicesOf readAckIndex
    rw [boot_disk]
    cases here : disk.get box with
    | none => exact TidyList.nil allowed
    | some dir =>
      rw [bind_some]
      split
      · rename_i index acks
        cases names : index.get id with
        | none => exact TidyList.nil allowed
        | some devices => exact tidy dir index id devices here acks names
      · exact TidyList.nil allowed
  listed := fun id _ device => boot_devices disk dirTime box id device

theorem run_delivered {events : List MailboxEvent} (delivered : Delivered world box allowed)
    (sound : MailboxSound world) (few : allowed.length ≤ mailboxMaxAckDevices)
    (clean : ∀ event ∈ events, event.faults = noFaults)
    (used : ∀ event ∈ events, UsedBy box allowed event)
    (ran : run mailboxStep world events = some next) :
    MailboxSound next ∧ Delivered next box allowed := by
  have keeps : ∀ (state : MailboxWorld) event after,
      MailboxSound state ∧ Delivered state box allowed →
      event.faults = noFaults ∧ UsedBy box allowed event →
      mailboxStep state event = some after → MailboxSound after ∧ Delivered after box allowed :=
    fun _ _ _ held allowed stepped => ⟨held.1.step allowed.1 stepped,
      held.2.step held.1 few allowed.1 allowed.2 stepped⟩
  exact run_keeps keeps ⟨sound, delivered⟩
    (meets_and (meets_of_events clean world) (meets_of_events used world)) ran

/-- The entry a collect returns for a blob. -/
def entryOf (stored : String × Blob) : MailboxEntry :=
  ⟨stored.1, stored.2.content, stored.2.mod / 1000000000⟩

theorem Delivered.collect (delivered : Delivered world box allowed) {device : String}
    (named : device ≠ "") :
    handleMailboxCollect world.mailbox box device =
      ((listedBlobs world.mailbox box).filter fun stored =>
        decide ((box, device, stored.1) ∉ world.collected)).map entryOf := by
  unfold handleMailboxCollect listedBlobs
  cases here : world.mailbox.disk.get box with
  | none => rfl
  | some dir =>
    simp only [named, map_some, getD_some, ne_eq, not_false_eq_true, if_true,
      decide_true, Bool.true_and]
    congr 1
    apply filter_congr
    rintro ⟨id, blob⟩ listed
    have there : world.mailbox.blobAt box id ≠ none := by
      rw [blob_at_of_dir here, get_of_mem listed]
      simp
    have same := delivered.listed id there device
    unfold devicesOf at same
    simp [same]

/-- The blob is among those a collect returns to the device. -/
def Returned (m : Mailbox) (box device id : String) : Prop :=
  id ∈ (handleMailboxCollect m box device).map MailboxEntry.id

instance (m : Mailbox) (box device id : String) : Decidable (Returned m box device id) :=
  inferInstanceAs (Decidable (_ ∈ _))

theorem Delivered.returned_iff (delivered : Delivered world box allowed) {device : String}
    (named : device ≠ "") (id : String) : Returned world.mailbox box device id ↔
      world.mailbox.blobAt box id ≠ none ∧ (box, device, id) ∉ world.collected := by
  unfold Returned
  rw [delivered.collect named, List.map_map]
  constructor
  · intro mem
    obtain ⟨stored, listed, rfl⟩ := mem_map.mp mem
    obtain ⟨there, unacked⟩ := mem_filter.mp listed
    exact ⟨mem_listed_iff.mp (mem_map.mpr ⟨stored, there, rfl⟩), of_decide_eq_true unacked⟩
  · rintro ⟨there, unacked⟩
    obtain ⟨stored, listed, same⟩ := mem_map.mp (mem_listed_iff.mpr there)
    refine mem_map.mpr ⟨stored, mem_filter.mpr ⟨listed, decide_eq_true ?_⟩, same⟩
    rw [same]
    exact unacked

def AckedIn (box device id : String) : MailboxEvent → Prop
  | .ack arrival => ∃ ids, arrival.checked = .ok (box, device, ids) ∧ id ∈ ids
  | _ => False

theorem collected_step {device id : String} (other : ¬AckedIn box device id event)
    (stepped : mailboxStep world event = some next) :
    (box, device, id) ∈ next.collected ↔ (box, device, id) ∈ world.collected := by
  rcases mailbox_step_cases stepped with ⟨arrival, rfl, -, -, -, -, -, rfl⟩ | ⟨arrival, rfl, rfl⟩ |
    ⟨faults, now, target, rfl, rfl⟩ | ⟨faults, now, rfl, -, rfl⟩ | ⟨faults, charge, keepBox, rfl, rfl⟩
  · unfold depositStep
    dsimp only
    split <;> rfl
  · rcases ack_step_cases world arrival with ⟨-, -, same⟩ | ⟨target, names, -, same⟩ |
      ⟨target, named, names, checked, -, same⟩
    · rw [same]
    · rw [same]
    · rw [same, mem_append]
      refine ⟨fun mem => mem.resolve_left ?_, Or.inr⟩
      intro added
      obtain ⟨name, listed, equal⟩ := mem_map.mp added
      obtain ⟨rfl, rest⟩ := Prod.mk.inj equal
      obtain ⟨rfl, rfl⟩ := Prod.mk.inj rest
      exact other ⟨names, checked, (mem_filter.mp listed).1⟩
  · rfl
  · rfl
  · rfl

theorem empty_index_tidy (box : String) (allowed : List String) :
    TidyIndex .empty box allowed := by
  intro dir index id devices found
  simp at found

end Delivery

end AwfulChat.Relay
