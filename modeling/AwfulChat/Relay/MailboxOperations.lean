import AwfulChat.Relay.MailboxLosses

/-!
# Mailbox accounting over whole runs

Every operation keeps the counters equal to the disk, so a run from any boot does.
-/

namespace AwfulChat.Relay

open Library Library.OrderedMap List Option

set_option autoImplicit false

section Ids

/-- Every id on disk or in an index has been used. -/
structure IdsKnown (m : Mailbox) (ids : List (String × String)) : Prop where
  blobs : ∀ box id, m.blobAt box id ≠ none → (box, id) ∈ ids
  index : ∀ box id, (readAckIndex m box).get id ≠ none → (box, id) ∈ ids

variable {m after : Mailbox} {ids : List (String × String)}

theorem IdsKnown.loses {Gone : String → String → Prop} (known : IdsKnown m ids)
    (loses : Loses Gone m after) : IdsKnown after ids where
  blobs := by
    intro box id found
    apply known.blobs
    rcases loses.blobs box id with kept | ⟨-, gone⟩
    · rwa [kept] at found
    · exact absurd gone found
  index := fun box id found => known.index box id (loses.index box id found)

theorem IdsKnown.more {others : List (String × String)} (known : IdsKnown m ids)
    (within : ids ⊆ others) : IdsKnown m others where
  blobs := fun box id found => within (known.blobs box id found)
  index := fun box id found => within (known.index box id found)

theorem IdsKnown.fresh (known : IdsKnown m ids) {box id : String} (unused : (box, id) ∉ ids) :
    m.blobAt box id = none ∧ devicesOf m box id = [] := by
  constructor
  · by_contra found
    exact unused (known.blobs box id found)
  · unfold devicesOf
    cases listed : (readAckIndex m box).get id with
    | none => rfl
    | some devices => exact absurd (known.index box id (by simp [listed])) unused

end Ids

section Deposits

variable {m : Mailbox} {box : String} {blob : Bytes} {arrival : DepositArrival}

def StoredThere (m : Mailbox) (box : String) (stored : List StoredBlob) : Prop :=
  (stored.map StoredBlob.name).Nodup ∧
    ∀ found ∈ stored, ∃ blob, m.blobAt box found.name = some blob ∧ found.size = blob.size

section

variable {first : StoredBlob} {rest : List StoredBlob} (there : StoredThere m box (first :: rest))
include there

theorem StoredThere.tail : StoredThere m box rest :=
  ⟨(nodup_cons.mp there.1).2, fun found mem => there.2 found (mem_cons_of_mem _ mem)⟩

theorem StoredThere.after_cut {after : Mailbox} {cutBlob : Blob}
    (cut : Cuts m after box first.name cutBlob) : StoredThere after box rest := by
  obtain ⟨distinct, listed⟩ := there.tail
  refine ⟨distinct, ?_⟩
  intro found mem
  have different : (box, found.name) ≠ (box, first.name) := by
    intro same
    apply (nodup_cons.mp there.1).1
    exact mem_map.mpr ⟨found, mem, (Prod.mk.inj same).2⟩
  obtain ⟨blob, stored, size⟩ := listed found mem
  exact ⟨blob, by rw [cut.blob_at, if_neg different, stored], size⟩

end

variable {stored : List StoredBlob} {ids : List (String × String)}

theorem shed_overflow_cuts (there : StoredThere m box stored) (extra : Nat)
    (evicted : List String) :
    ∃ count ≤ stored.length,
      (shedOverflow noFaults box stored (totalSize stored + extra) m evicted).2 =
        evicted ++ (stored.take count).map StoredBlob.name ∧
      CutsAll m (shedOverflow noFaults box stored (totalSize stored + extra) m evicted).1 box
        ((stored.take count).map StoredBlob.name) ∧
      (stored.drop count = [] ∨ ((stored.drop count).length + 1 ≤ mailboxMaxMsgs ∧
        totalSize (stored.drop count) + extra ≤ mailboxMaxBytes)) := by
  induction stored generalizing m evicted with
  | nil => exact ⟨0, Nat.le_refl 0, by simp [shedOverflow], CutsAll.none_cut m box, Or.inl rfl⟩
  | cons oldest rest ih =>
    obtain ⟨blob, listed, size⟩ := there.2 oldest (by simp)
    unfold shedOverflow
    by_cases past : mailboxMaxMsgs < rest.length + 1 + 1 ∨
        mailboxMaxBytes < totalSize (oldest :: rest) + extra
    · obtain ⟨removed, gone⟩ := no_faults_remove listed
      have cut := cuts_of_removed gone listed
      have less : totalSize (oldest :: rest) + extra - oldest.size = totalSize rest + extra := by
        simp only [totalSize, map_cons, sum_cons]
        omega
      obtain ⟨count, within, names, cuts, fits⟩ :=
        ih (there.after_cut cut) (evicted ++ [oldest.name])
      rw [if_pos past, gone]
      dsimp only
      rw [less, size]
      refine ⟨count + 1, by simpa using within, ?_, ?_, ?_⟩
      · rw [names]
        simp
      · rw [take_succ_cons, map_cons]
        exact CutsAll.cons cut cuts
      · simpa using fits
    · rw [if_neg past]
      refine ⟨0, Nat.zero_le _, by simp, CutsAll.none_cut m box, Or.inr ?_⟩
      simp only [drop_zero, length_cons]
      omega

theorem stored_blobs_there (m : Mailbox) (box : String) : StoredThere m box (storedBlobs m box) := by
  unfold storedBlobs
  cases found : m.disk.get box with
  | none => exact ⟨nodup_nil, by simp⟩
  | some dir =>
    dsimp only
    have perm := mergeSort_perm
      (dir.blobs.entries.map fun entry => (⟨entry.1, entry.2.size, entry.2.mod⟩ : StoredBlob))
      depositedFirst
    constructor
    · rw [(perm.map StoredBlob.name).nodup_iff, List.map_map]
      exact dir.blobs.distinct
    · intro stored mem
      obtain ⟨entry, listed, same⟩ := mem_map.mp (perm.mem_iff.mp mem)
      subst same
      refine ⟨entry.2, ?_, rfl⟩
      rw [blob_at_of_dir found]
      exact get_of_mem listed

theorem StoredThere.perm {stored others : List StoredBlob} (there : StoredThere m box stored)
    (perm : others.Perm stored) : StoredThere m box others := by
  refine ⟨(perm.map StoredBlob.name).nodup_iff.mpr there.1, ?_⟩
  intro found mem
  exact there.2 found (perm.mem_iff.mp mem)

theorem StoredThere.filter (there : StoredThere m box stored)
    (keep : StoredBlob → Bool) : StoredThere m box (stored.filter keep) := by
  refine ⟨there.1.sublist (filter_sublist.map StoredBlob.name), ?_⟩
  intro found mem
  exact there.2 found (mem_filter.mp mem).1

theorem StoredThere.of_kept {after : Mailbox} (there : StoredThere m box stored)
    (kept : ∀ found ∈ stored, after.blobAt box found.name = m.blobAt box found.name) :
    StoredThere after box stored := by
  refine ⟨there.1, ?_⟩
  intro found mem
  obtain ⟨blob, listed, size⟩ := there.2 found mem
  exact ⟨blob, by rw [kept found mem, listed], size⟩

theorem removed_box_blob_at {faults : Faults} (m : Mailbox) (box other name : String) :
    (removeEmptyBox faults m box).blobAt other name = m.blobAt other name := by
  have loses : Loses (fun _ _ => False) m (removeEmptyBox faults m box) :=
    loses_remove_empty_box box
  rcases loses.blobs other name with kept | ⟨never, -⟩
  · exact kept
  · exact never.elim

theorem drop_acks_blob_at {faults : Faults} (m : Mailbox) (box : String) (ids : List String)
    (other name : String) : (dropAcks faults m box ids).blobAt other name = m.blobAt other name := by
  have loses : Loses (fun _ _ => False) m (dropAcks faults m box ids) := loses_drop_acks ids
  rcases loses.blobs other name with kept | ⟨never, -⟩
  · exact kept
  · exact never.elim

theorem given_back_blob_at {faults : Faults} {id : String} {removed : Mailbox}
    (gone : m.removeBlob faults box id = some removed) (charge : Int) (other name : String) :
    ((mailboxForgetBlob removed box id).giveBack charge).blobAt other name =
      if (other, name) = (box, id) then none else m.blobAt other name := by
  obtain ⟨dir, here, listed, -, -⟩ := removed_eq gone
  obtain ⟨blob, there⟩ := ne_none_iff_exists'.mp listed
  have found : m.blobAt box id = some blob := by
    rw [blob_at_of_dir here]
    exact there
  exact (cuts_of_removed gone found).blob_at other name

theorem take_acked_blob_at (m : Mailbox) (keepBox box id other name : String) :
    (takeAcked noFaults m keepBox box id).1.blobAt other name =
      if (other, name) = (box, id) then none else m.blobAt other name := by
  unfold takeAcked
  cases there : m.blobAt box id with
  | none =>
    dsimp only
    rw [forget_acked_eq]
    split_ifs with same
    · obtain ⟨own, id_same⟩ := Prod.mk.inj same
      rw [own, id_same]
      exact there
    · rfl
  | some blob =>
    obtain ⟨removed, gone⟩ := no_faults_remove there
    have trimmed := given_back_blob_at gone (mailboxCharge blob.size) other name
    rw [← drop_acks_blob_at _ box [id]] at trimmed
    rw [gone]
    dsimp only
    by_cases own : box = keepBox
    · rw [if_pos own]
      exact trimmed
    · rw [if_neg own, removed_box_blob_at]
      exact trimmed

theorem take_acked_taken (m : Mailbox) (keepBox box id : String) :
    (takeAcked noFaults m keepBox box id).2 = (m.blobAt box id).isSome := by
  unfold takeAcked
  cases there : m.blobAt box id with
  | none => rfl
  | some blob =>
    obtain ⟨removed, gone⟩ := no_faults_remove there
    rw [gone]
    rfl

theorem make_room_gone (charge : Int) (keepBox : String) (fuel : Nat) (m : Mailbox)
    (gone : List String) :
    ∃ taken, (makeRoomLoop noFaults charge keepBox fuel m gone).2 = gone ++ taken ∧
      ∀ name, (makeRoomLoop noFaults charge keepBox fuel m gone).1.blobAt keepBox name =
        if name ∈ taken then none else m.blobAt keepBox name := by
  induction fuel generalizing m gone with
  | zero => exact ⟨[], by simp [makeRoomLoop], by simp [makeRoomLoop]⟩
  | succ fuel ih =>
    unfold makeRoomLoop
    split
    · split
      · exact ⟨[], by simp, by simp⟩
      · rename_i box id cost rest entries
        have blob_at := take_acked_blob_at m keepBox box id keepBox
        dsimp only
        rw [take_acked_taken]
        by_cases own : box = keepBox ∧ (m.blobAt box id).isSome = true
        · obtain ⟨rfl, there⟩ := own
          rw [if_pos (by simp [there])]
          obtain ⟨taken, names, kept⟩ :=
            ih (takeAcked noFaults m box box id).1 (gone ++ [id])
          refine ⟨id :: taken, by rw [names]; simp, ?_⟩
          intro name
          rw [kept, blob_at]
          by_cases same : name = id <;> simp [same]
        · rw [if_neg (by simpa [and_comm] using own)]
          obtain ⟨taken, names, kept⟩ := ih (takeAcked noFaults m keepBox box id).1 gone
          refine ⟨taken, names, ?_⟩
          intro name
          rw [kept, blob_at]
          split_ifs with listed same
          · rfl
          · obtain ⟨rfl, rfl⟩ := Prod.mk.inj same
            have missing : m.blobAt keepBox name = none := by simpa using own
            exact missing.symm
          · rfl
    · exact ⟨[], by simp, by simp⟩

theorem store_blob_at (other name : String) : (storeBlob m box blob arrival).blobAt other name =
    if (other, name) = (box, arrival.id) then some ⟨blob, arrival.writtenAt⟩
    else m.blobAt other name := by
  rw [store_blob_eq]
  split
  · rw [record_blob_blob_at]
    exact written_blob_at other name
  · exact written_blob_at other name

theorem store_blob_index (other : String) :
    readAckIndex (storeBlob m box blob arrival) other = readAckIndex m other := by
  rw [store_blob_eq]
  split
  · exact written_blob_index other
  · exact written_blob_index other

theorem StoredThere.after_store (there : StoredThere m box stored)
    (absent : m.blobAt box arrival.id = none) :
    StoredThere (storeBlob m box blob arrival) box stored := by
  apply there.of_kept
  intro found mem
  obtain ⟨known, listed, -⟩ := there.2 found mem
  rw [store_blob_at, if_neg]
  intro same
  rw [(Prod.mk.inj same).2, absent] at listed
  cases listed

theorem failed_write_eq (clean : arrival.faults = noFaults)
    (absent : m.blobAt box arrival.id = none) : failedWrite m box arrival = m := by
  unfold failedWrite
  rw [clean]
  cases found : m.disk.get box with
  | none => simp [noFaults]
  | some dir =>
    have unlisted : dir.blobs.get arrival.id = none := by
      rw [← blob_at_of_dir found]
      exact absent
    simp [noFaults, OrderedMap.has, unlisted]

theorem Accounted.deposit_with_room (sound : Accounted m) (there : StoredThere m box stored)
    (clean : arrival.faults = noFaults) (absent : m.blobAt box arrival.id = none)
    (unlisted : devicesOf m box arrival.id = []) :
    Accounted (depositWithRoom m box blob stored arrival).2 := by
  unfold depositWithRoom
  rw [clean]
  split_ifs
  · exact sound
  · exact sound
  · rw [failed_write_eq clean absent]
    exact sound
  · have stored_sound : Accounted (storeBlob m box blob arrival) :=
      sound.store_blob absent unlisted
    obtain ⟨count, -, names, cuts, -⟩ :=
      shed_overflow_cuts (there.after_store absent) blob.length []
    dsimp only
    split_ifs
    · exact cuts.accounted stored_sound
    · apply (cuts.accounted stored_sound).drop_acks
      intro name mem
      rw [names, nil_append] at mem
      rw [cuts.blob_at, if_pos ⟨rfl, mem⟩]

theorem own_first_perm (source : String) (stored : List StoredBlob) :
    (ownFirst m box source stored).Perm stored :=
  mergeSort_perm _ _

theorem shedding_order_there (source : String) :
    StoredThere m box (sheddingOrder m box source) := by
  unfold sheddingOrder
  split_ifs
  · exact (stored_blobs_there m box).perm (own_first_perm source _)
  · exact stored_blobs_there m box

theorem kept_after_room (charge : Int) (there : StoredThere m box stored) :
    StoredThere (mailboxMakeRoom noFaults m charge box).1 box
      (stored.filter fun found =>
        decide (found.name ∉ (mailboxMakeRoom noFaults m charge box).2)) := by
  obtain ⟨taken, names, kept⟩ := make_room_gone charge box m.acked.size m []
  apply (there.filter _).of_kept
  intro found mem
  have left := of_decide_eq_true (mem_filter.mp mem).2
  unfold mailboxMakeRoom at left ⊢
  rw [names, nil_append] at left
  rw [kept, if_neg left]

section

variable (sound : Accounted m) (known : IdsKnown m ids) (clean : arrival.faults = noFaults)
include sound known clean

theorem Accounted.deposit_into
    (unused : (box, arrival.id) ∉ ids) : Accounted (depositInto m box blob arrival).2 := by
  unfold depositInto
  rw [clean]
  dsimp only
  split
  · exact sound
  split
  · exact sound
  · have room : IdsKnown (mailboxMakeRoom noFaults m (mailboxCharge blob.length) box).1 ids :=
      known.loses (loses_make_room _ box)
    obtain ⟨absent, unlisted⟩ := room.fresh unused
    exact (sound.make_room _ box).deposit_with_room
      (kept_after_room _ (shedding_order_there arrival.source)) clean absent unlisted

theorem Accounted.deposit_locked
    (unused : (box, arrival.id) ∉ ids) : Accounted (depositLocked m box blob arrival).2 := by
  unfold depositLocked
  rw [clean]
  dsimp only
  split
  · have evicted := sound.evict arrival.now
    have left : IdsKnown (evictOldestStaleBox noFaults m arrival.now).2 ids :=
      known.loses (loses_evict arrival.now)
    split
    · exact evicted.deposit_into left clean unused
    · exact evicted
  · exact sound.deposit_into known clean unused

theorem Accounted.deposit
    (unused : ∀ box blob, arrival.checked = .ok (box, blob) → (box, arrival.id) ∉ ids) :
    Accounted (handleMailboxDeposit m arrival).2 := by
  unfold handleMailboxDeposit
  split
  · exact sound
  · rename_i box blob checked
    exact sound.deposit_locked known clean (unused box blob checked)

end

end Deposits

section Acks

variable {m : Mailbox} {box : String}

theorem ack_remove_cuts (sound : Accounted m) (box : String) (ids : List String) :
    CutsAll m (ids.foldl (ackRemoveOne noFaults box) m) box ids := by
  induction ids generalizing m with
  | nil => exact CutsAll.none_cut m box
  | cons id rest ih =>
    rw [foldl_cons]
    cases there : m.blobAt box id with
    | none =>
      have kept : ackRemoveOne noFaults box m id = m := by
        unfold ackRemoveOne
        rw [there]
      rw [kept]
      have later := ih sound
      refine ⟨later.accounted, ?_, later.index, later.order, later.less⟩
      intro other name
      rw [later.blob_at]
      by_cases own : other = box <;> by_cases same : name = id <;>
        simp [own, same, there]
    | some blob =>
      obtain ⟨removed, gone⟩ := no_faults_remove there
      obtain ⟨given, cut⟩ := sound.give_back gone there
      have taken : ackRemoveOne noFaults box m id =
          (mailboxForgetBlob removed box id).giveBack (mailboxCharge blob.size) := by
        unfold ackRemoveOne
        rw [there, gone]
      rw [taken]
      exact CutsAll.cons cut (ih given)

theorem Accounted.plain_ack (sound : Accounted m) (box : String) (ids : List String) :
    Accounted (plainAck noFaults m box ids) := by
  have cuts := ack_remove_cuts sound box ids
  unfold plainAck
  apply Accounted.remove_empty_box
  apply (cuts.accounted sound).drop_acks
  intro name mem
  rw [cuts.blob_at, if_pos ⟨rfl, mem⟩]

/-- The memory and the index of a device's ack agree before the index is written. -/
structure AckState (m : Mailbox) (box : String) (state : Mailbox × AckIndex) : Prop where
  disk : state.1.disk = m.disk
  order : state.1.boxOrder = m.boxOrder
  counted : Counted state.1
  own : ∀ id, state.1.acked.get (box, id) = (m.blobAt box id).bind fun blob =>
    if (state.2.get id).getD [] = [] then none else some (mailboxCharge blob.size)
  others : ∀ other id, other ≠ box → state.1.acked.get (other, id) = m.acked.get (other, id)

variable {state : Mailbox × AckIndex}

theorem AckState.blob_at (held : AckState m box state)
    (other name : String) : state.1.blobAt other name = m.blobAt other name := by
  unfold Mailbox.blobAt
  rw [held.disk]

theorem mem_alive_iff {name : String} : name ∈ aliveBlobs m box ↔ m.blobAt box name ≠ none := by
  unfold aliveBlobs Mailbox.blobAt
  cases found : m.disk.get box with
  | none => simp
  | some dir => exact mem_keys_iff

theorem pruned_devices {name : String} (there : m.blobAt box name ≠ none) :
    ((pruneAckIndex (readAckIndex m box) (aliveBlobs m box)).get name).getD [] =
      devicesOf m box name := by
  unfold pruneAckIndex
  rw [get_keep, if_pos (decide_eq_true (mem_alive_iff.mpr there))]
  rfl

theorem ack_state_start (sound : Accounted m) (box : String) :
    AckState m box (m, pruneAckIndex (readAckIndex m box) (aliveBlobs m box)) where
  disk := rfl
  order := rfl
  counted := sound.toCounted
  own := by
    intro id
    dsimp only
    rw [sound.acked]
    cases there : m.blobAt box id with
    | none => rfl
    | some blob => rw [pruned_devices (by simp [there])]
  others := fun _ _ _ => rfl

theorem Counted.note_acked (sound : Counted m) (id : String) (charge : Int) :
    Counted (mailboxNoteAcked m box id charge) := by
  unfold mailboxNoteAcked
  split
  · exact sound
  · rename_i absent
    have unlisted : m.acked.get (box, id) = none := by
      simpa [OrderedMap.has] using absent
    refine ⟨sound.used, sound.files, sound.boxes, sound.held, sound.origins, ?_, sound.order⟩
    dsimp only
    rw [total_set_of_absent _ _ unlisted, sound.ackedBytes]

theorem note_acked_get (m : Mailbox) (box id : String) (charge : Int) (key : String × String) :
    (mailboxNoteAcked m box id charge).acked.get key =
      if key = (box, id) then some ((m.acked.get (box, id)).getD charge) else m.acked.get key := by
  unfold mailboxNoteAcked
  cases known : m.acked.get (box, id) with
  | none =>
    have absent : m.acked.has (box, id) = false := by simp [OrderedMap.has, known]
    rw [absent]
    simp only [Bool.false_eq_true, if_false]
    rw [get_set]
    rfl
  | some old =>
    have present : m.acked.has (box, id) = true := by simp [OrderedMap.has, known]
    rw [present, if_pos rfl]
    split_ifs with same
    · rw [same, known]
      rfl
    · rfl

theorem note_acked_disk (m : Mailbox) (box id : String) (charge : Int) :
    (mailboxNoteAcked m box id charge).disk = m.disk ∧
      (mailboxNoteAcked m box id charge).boxOrder = m.boxOrder := by
  unfold mailboxNoteAcked
  split <;> exact ⟨rfl, rfl⟩

theorem AckState.listed (held : AckState m box state) {id : String}
    {blob : Blob} (there : m.blobAt box id = some blob) {noted : Mailbox}
    (disk : noted.disk = state.1.disk) (order : noted.boxOrder = state.1.boxOrder)
    (counted : Counted noted)
    (acked : ∀ key, noted.acked.get key = if key = (box, id) then some (mailboxCharge blob.size)
      else state.1.acked.get key) {devices : List String} (some_device : devices ≠ []) :
    AckState m box (noted, state.2.set id devices) where
  disk := disk.trans held.disk
  order := order.trans held.order
  counted := counted
  own := by
    intro name
    dsimp only
    rw [acked, get_set]
    by_cases same : name = id
    · subst same
      rw [if_pos rfl, if_pos rfl, there, bind_some, getD_some, if_neg some_device]
    · have different : (box, name) ≠ (box, id) := fun equal => same (Prod.mk.inj equal).2
      rw [if_neg different, if_neg same]
      exact held.own name
  others := by
    intro other name different
    have apart : (other, name) ≠ (box, id) := fun equal => different (Prod.mk.inj equal).1
    dsimp only
    rw [acked, if_neg apart]
    exact held.others other name different

theorem AckState.step (held : AckState m box state)
    (device id : String) : AckState m box (ackOne box device state id) := by
  unfold ackOne
  rw [held.blob_at]
  cases there : m.blobAt box id with
  | none => exact held
  | some blob =>
    dsimp only
    split
    · exact held
    · have own := held.own id
      rw [there, bind_some] at own
      by_cases first : (state.2.get id).getD [] = []
      · rw [if_pos first] at own
        rw [if_pos first]
        obtain ⟨disk, order⟩ := note_acked_disk state.1 box id (mailboxCharge blob.size)
        apply held.listed there disk order (held.counted.note_acked id _)
        · intro key
          rw [note_acked_get, own, getD_none]
        · simp
      · rw [if_neg first] at own
        rw [if_neg first]
        apply held.listed there rfl rfl held.counted
        · intro key
          split_ifs with same
          · rw [same, own]
          · rfl
        · simp

theorem acked_state_sound (sound : Accounted m) (box device : String) (ids : List String) :
    AckState m box (ackedState m box device ids) := by
  unfold ackedState
  have start := ack_state_start sound box
  generalize (m, pruneAckIndex (readAckIndex m box) (aliveBlobs m box)) = state at start
  induction ids generalizing state with
  | nil => exact start
  | cons id rest ih =>
    rw [foldl_cons]
    exact ih _ (start.step device id)

theorem Accounted.device_ack (sound : Accounted m) (box device : String) (ids : List String) :
    Accounted (deviceAck noFaults m box device ids) := by
  have held := acked_state_sound sound box device ids
  unfold deviceAck
  dsimp only
  generalize ackedState m box device ids = state at held
  refine ⟨held.counted.write_index _, ?_⟩
  intro other name
  rw [write_index_acked, write_index_blob_at, held.blob_at]
  by_cases same : other = box
  · subst same
    rw [held.own]
    cases found : state.1.disk.get other with
    | none =>
      have missing : m.blobAt other name = none := by
        rw [← held.blob_at]
        simp [Mailbox.blobAt, found]
      rw [missing]
      rfl
    | some dir => rw [write_index_devices found]
  · have devices : devicesOf state.1 other name = devicesOf m other name := by
      unfold devicesOf readAckIndex
      rw [held.disk]
    rw [write_index_devices_other _ _ same, held.others other name same, devices]
    exact sound.acked other name

theorem Accounted.ack (sound : Accounted m) {arrival : AckArrival}
    (clean : arrival.faults = noFaults) : Accounted (handleMailboxAck m arrival).2 := by
  unfold handleMailboxAck
  rw [clean]
  split
  · exact sound
  · split
    · exact sound.device_ack _ _ _
    · exact sound.plain_ack _ _

end Acks

section Known

variable {m : Mailbox} {ids : List (String × String)}

theorem deposit_dir_set (m : Mailbox) (box : String) (id : String) (blobs : OrderedMap String Blob)
    (kept : ∀ name, name ≠ id → blobs.get name = m.blobAt box name) :
    (∀ other name, (other, name) ≠ (box, id) →
      Mailbox.blobAt { m with disk := m.disk.set box (BoxDir.mk blobs (depositDir m box).acks) }
        other name = m.blobAt other name) ∧
    ∀ other, readAckIndex { m with disk := m.disk.set box (BoxDir.mk blobs (depositDir m box).acks) }
      other = readAckIndex m other := by
  constructor
  · intro other name different
    rw [blob_at_set]
    split_ifs with same
    · apply (kept name _).trans
      · rw [same]
      · intro own
        rw [same, own] at different
        exact different rfl
    · rfl
  · intro other
    unfold readAckIndex depositDir
    dsimp only
    rw [get_set]
    split_ifs with same
    · rw [same]
      cases m.disk.get box with
      | none | some dir => rfl
    · rfl

theorem failed_write_files (m : Mailbox) (box : String) (arrival : DepositArrival) :
    (∀ other name, (other, name) ≠ (box, arrival.id) →
      (failedWrite m box arrival).blobAt other name = m.blobAt other name) ∧
    ∀ other, readAckIndex (failedWrite m box arrival) other = readAckIndex m other := by
  have same : (∀ other name, (other, name) ≠ (box, arrival.id) →
      m.blobAt other name = m.blobAt other name) ∧
      ∀ other, readAckIndex m other = readAckIndex m other :=
    ⟨fun _ _ _ => rfl, fun _ => rfl⟩
  unfold failedWrite
  cases found : m.disk.get box with
  | some dir =>
    have acks : (depositDir m box).acks = dir.acks := by simp [depositDir, found]
    dsimp only
    split_ifs
    · rw [← acks]
      apply deposit_dir_set
      intro name different
      rw [get_set, if_neg different, blob_at_of_dir found]
    · rw [← acks]
      apply deposit_dir_set
      intro name different
      rw [get_delete, if_neg different, blob_at_of_dir found]
    · exact same
  | none =>
    have acks : (depositDir m box).acks = none := by simp [depositDir, found, BoxDir.empty]
    have absent : ∀ name, m.blobAt box name = none := by simp [Mailbox.blobAt, found]
    dsimp only
    split_ifs
    · have made := deposit_dir_set m box arrival.id
        (OrderedMap.empty.set arrival.id ⟨arrival.partialBlob, arrival.writtenAt⟩) (by
          intro name different
          rw [get_set, if_neg different, absent name]
          rfl)
      rw [acks] at made
      exact made
    · have made := deposit_dir_set m box arrival.id .empty
        (fun name _ => (absent name).symm)
      rw [acks] at made
      exact made
    · exact same

theorem IdsKnown.deposit_with_room (known : IdsKnown m ids) (box : String) (blob : Bytes)
    (stored : List StoredBlob) (arrival : DepositArrival) :
    IdsKnown (depositWithRoom m box blob stored arrival).2 ((box, arrival.id) :: ids) := by
  have more : IdsKnown m ((box, arrival.id) :: ids) := known.more (subset_cons_self _ _)
  unfold depositWithRoom
  split_ifs
  · exact more
  · exact more
  · obtain ⟨blobs, index⟩ := failed_write_files m box arrival
    constructor
    · intro other name found
      by_cases same : (other, name) = (box, arrival.id)
      · rw [same]
        exact mem_cons_self
      · rw [blobs other name same] at found
        exact more.blobs other name found
    · intro other name found
      rw [index] at found
      exact more.index other name found
  · have written : IdsKnown (storeBlob m box blob arrival) ((box, arrival.id) :: ids) := by
      constructor
      · intro other name found
        rw [store_blob_at] at found
        split_ifs at found with same
        · rw [same]
          exact mem_cons_self
        · exact more.blobs other name found
      · intro other name found
        rw [store_blob_index] at found
        exact more.index other name found
    have shed : IdsKnown (shedOverflow arrival.faults box stored (totalSize stored + blob.length)
        (storeBlob m box blob arrival) []).1 ((box, arrival.id) :: ids) :=
      written.loses (loses_shed_overflow _ _ _)
    have trims : ∀ (middle : Mailbox) names,
        Loses (fun _ _ => True) middle (dropAcks arrival.faults middle box names) :=
      fun _ names => loses_drop_acks names
    dsimp only
    split_ifs
    · exact shed
    · exact shed.loses (trims _ _)

theorem IdsKnown.deposit (known : IdsKnown m ids) {arrival : DepositArrival} {box : String}
    {blob : Bytes} (checked : arrival.checked = .ok (box, blob)) :
    IdsKnown (handleMailboxDeposit m arrival).2 ((box, arrival.id) :: ids) := by
  have into : ∀ middle : Mailbox, IdsKnown middle ids →
      IdsKnown (depositInto middle box blob arrival).2 ((box, arrival.id) :: ids) := by
    intro middle held
    have more : IdsKnown middle ((box, arrival.id) :: ids) := held.more (subset_cons_self _ _)
    unfold depositInto
    dsimp only
    split
    · exact more
    split
    · exact more
    · exact (held.loses (loses_make_room _ box)).deposit_with_room box blob _ arrival
  have evicted : IdsKnown (evictOldestStaleBox arrival.faults m arrival.now).2 ids :=
    known.loses (loses_evict arrival.now)
  unfold handleMailboxDeposit
  rw [checked]
  dsimp only
  unfold depositLocked
  split
  · dsimp only
    split
    · exact into _ evicted
    · exact evicted.more (subset_cons_self _ _)
  · exact into m known

theorem ack_one_keys (box device : String) (state : Mailbox × AckIndex) (id : String)
    (disk : state.1.disk = m.disk) : (ackOne box device state id).1.disk = m.disk ∧
      ∀ name, (ackOne box device state id).2.get name ≠ none →
        state.2.get name ≠ none ∨ m.blobAt box name ≠ none := by
  have blob_at : state.1.blobAt box id = m.blobAt box id := by
    unfold Mailbox.blobAt
    rw [disk]
  unfold ackOne
  rw [blob_at]
  cases there : m.blobAt box id with
  | none => exact ⟨disk, fun _ => Or.inl⟩
  | some blob =>
    dsimp only
    split
    · exact ⟨disk, fun _ => Or.inl⟩
    · dsimp only
      constructor
      · split
        · rw [(note_acked_disk _ _ _ _).1]
          exact disk
        · exact disk
      · intro name listed
        by_cases same : name = id
        · right
          rw [same, there]
          simp
        · rw [get_set, if_neg same] at listed
          exact Or.inl listed

theorem ack_fold_keys (box device : String) (names : List String) (state : Mailbox × AckIndex)
    (disk : state.1.disk = m.disk) (name : String)
    (listed : (names.foldl (ackOne box device) state).2.get name ≠ none) :
    state.2.get name ≠ none ∨ m.blobAt box name ≠ none := by
  induction names generalizing state with
  | nil => exact Or.inl listed
  | cons id rest ih =>
    rw [foldl_cons] at listed
    obtain ⟨same, back⟩ := ack_one_keys box device state id disk
    rcases ih _ same listed with old | there
    · exact back name old
    · exact Or.inr there

theorem acked_state_keys (box device : String) (names : List String) {name : String}
    (found : (ackedState m box device names).2.get name ≠ none) :
    (readAckIndex m box).get name ≠ none ∨ m.blobAt box name ≠ none := by
  rcases ack_fold_keys box device names _ rfl name found with old | there
  · exact Or.inl (prune_within old)
  · exact Or.inr there

end Known

end AwfulChat.Relay
