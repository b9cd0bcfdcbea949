import AwfulChat.Relay.MailboxAccounting

/-!
# What an operation can take from the mailbox

Apart from the blob of an accepted deposit and the index of a device's ack, the
operations of the mailbox only take away. `Loses` says which blobs may go; it holds
whatever removals the file system refuses.
-/

namespace AwfulChat.Relay

open Library Library.OrderedMap Option

set_option autoImplicit false

structure Loses (Gone : String → String → Prop) (before after : Mailbox) : Prop where
  blobs : ∀ box id, after.blobAt box id = before.blobAt box id ∨
    (Gone box id ∧ after.blobAt box id = none)
  index : ∀ box id, (readAckIndex after box).get id ≠ none →
    (readAckIndex before box).get id ≠ none
  acked : ∀ key, after.acked.get key ≠ none → before.acked.get key ≠ none
  order : ∀ box time, after.boxOrder.get box = some time → before.boxOrder.get box = some time

namespace Loses

variable {Gone : String → String → Prop} {before middle after : Mailbox}

theorem refl (m : Mailbox) : Loses Gone m m where
  blobs := fun _ _ => Or.inl rfl
  index := fun _ _ found => found
  acked := fun _ found => found
  order := fun _ _ found => found

theorem trans (first : Loses Gone before middle) (second : Loses Gone middle after) :
    Loses Gone before after where
  blobs := by
    intro box id
    rcases second.blobs box id with kept | gone
    · rw [kept]
      exact first.blobs box id
    · exact Or.inr gone
  index := fun box id found => first.index box id (second.index box id found)
  acked := fun key found => first.acked key (second.acked key found)
  order := fun box time found => first.order box time (second.order box time found)

theorem of_files (loses : Loses Gone before middle) (disk : after.disk = middle.disk)
    (acked : after.acked = middle.acked) (order : after.boxOrder = middle.boxOrder) :
    Loses Gone before after where
  blobs := by
    intro box id
    have same : after.blobAt box id = middle.blobAt box id := by
      unfold Mailbox.blobAt
      rw [disk]
    rw [same]
    exact loses.blobs box id
  index := by
    intro box id found
    have same : readAckIndex after box = readAckIndex middle box := by
      unfold readAckIndex
      rw [disk]
    rw [same] at found
    exact loses.index box id found
  acked := by
    intro key found
    rw [acked] at found
    exact loses.acked key found
  order := by
    intro box time found
    rw [order] at found
    exact loses.order box time found

theorem weaken {More : String → String → Prop} (loses : Loses Gone before after)
    (wider : ∀ box id, Gone box id → More box id) : Loses More before after where
  blobs := by
    intro box id
    rcases loses.blobs box id with kept | gone
    · exact Or.inl kept
    · exact Or.inr ⟨wider box id gone.1, gone.2⟩
  index := loses.index
  acked := loses.acked
  order := loses.order

end Loses

section Removals

variable {Gone : String → String → Prop} {m : Mailbox} {box id : String} {faults : Faults}

theorem loses_forget_acked (key : String × String) : Loses Gone m (mailboxForgetAcked m key) where
  blobs := by
    intro other name
    rw [forget_acked_eq]
    exact Or.inl rfl
  index := by
    intro other name found
    rw [forget_acked_eq] at found
    exact found
  acked := by
    intro other found
    rw [forget_acked_eq, get_delete] at found
    split_ifs at found
    · exact absurd rfl found
    · exact found
  order := by
    intro other time found
    rw [forget_acked_eq] at found
    exact found

theorem loses_forget_blob (box id : String) : Loses Gone m (mailboxForgetBlob m box id) := by
  have forgets := forget_blob_forgets m box id
  have first : Loses Gone m (mailboxForgetAcked m (box, id)) := loses_forget_acked (box, id)
  apply first.of_files
  · rw [forgets.disk, forget_acked_eq]
  · rw [forgets.acked, forget_acked_eq]
  · rw [forgets.boxOrder, forget_acked_eq]

section

variable {removed : Mailbox} (gone : m.removeBlob faults box id = some removed)
  (allowed : Gone box id)
include gone allowed

theorem loses_removed : Loses Gone m removed := by
  obtain ⟨dir, found, -, -, rfl⟩ := removed_eq gone
  refine ⟨?_, ?_, fun _ listed => listed, fun _ _ listed => listed⟩
  · intro other name
    rw [blob_at_set]
    split_ifs with same
    · subst same
      rw [get_delete, blob_at_of_dir found]
      split_ifs with own
      · subst own
        exact Or.inr ⟨allowed, rfl⟩
      · exact Or.inl rfl
    · exact Or.inl rfl
  · intro other name listed
    rw [read_index_set] at listed
    split_ifs at listed with same
    · subst same
      unfold readAckIndex
      rw [found]
      exact listed
    · exact listed

theorem loses_give_back (charge : Int) :
    Loses Gone m ((mailboxForgetBlob removed box id).giveBack charge) :=
  ((loses_removed gone allowed).trans (loses_forget_blob box id)).of_files rfl rfl rfl

theorem loses_subtract (charge : Int) :
    Loses Gone m ((mailboxForgetBlob removed box id).subtract charge) :=
  ((loses_removed gone allowed).trans (loses_forget_blob box id)).of_files rfl rfl rfl

end

theorem write_index_read (index : AckIndex) (faults : Faults) (other name : String)
    (found : (readAckIndex (writeAckIndex faults m box index) other).get name ≠ none) :
    (readAckIndex m other).get name ≠ none ∨ (other = box ∧ index.get name ≠ none) := by
  unfold writeAckIndex at found
  cases here : m.disk.get box with
  | none =>
    rw [here] at found
    exact Or.inl found
  | some dir =>
    rw [here] at found
    dsimp only at found
    by_cases same : other = box
    · subst same
      by_cases empty : index.size = 0
      · rw [if_pos empty] at found
        split at found
        · exfalso
          simp [readAckIndex, Mailbox.giveBack] at found
        · exact Or.inl found
      · rw [if_neg empty] at found
        simp only [readAckIndex, get_set_self, bind_some] at found
        exact Or.inr ⟨rfl, found⟩
    · left
      have kept : ∀ (next : Mailbox) (acks : Option AckFile),
          next.disk = m.disk.set box (BoxDir.mk dir.blobs acks) →
          readAckIndex next other = readAckIndex m other := by
        intro next acks disk
        unfold readAckIndex
        rw [disk, get_set, if_neg same]
      by_cases empty : index.size = 0
      · rw [if_pos empty] at found
        split at found
        · rwa [kept _ none rfl] at found
        · exact found
      · rw [if_neg empty, kept _ (some (.written index)) rfl] at found
        exact found

theorem loses_write_index {index : AckIndex}
    (within : ∀ name, index.get name ≠ none → (readAckIndex m box).get name ≠ none) :
    Loses Gone m (writeAckIndex faults m box index) where
  blobs := fun other name => Or.inl (write_index_blob_at index faults other name)
  index := by
    intro other name found
    rcases write_index_read index faults other name found with old | ⟨same, listed⟩
    · exact old
    · rw [same]
      exact within name listed
  acked := by
    intro key found
    rwa [write_index_acked] at found
  order := by
    intro other time found
    rwa [write_index_order] at found

theorem loses_drop_acks (ids : List String) : Loses Gone m (dropAcks faults m box ids) := by
  unfold dropAcks
  dsimp only
  split_ifs
  · apply loses_write_index
    intro name listed
    rw [get_keep] at listed
    split_ifs at listed
    · exact listed
    · exact absurd rfl listed
  · exact Loses.refl m

theorem loses_forget_order (box : String) : Loses Gone m (mailboxForgetBox m box) where
  blobs := fun _ _ => Or.inl rfl
  index := fun _ _ found => found
  acked := fun _ found => found
  order := by
    intro other time listed
    unfold mailboxForgetBox at listed
    dsimp only at listed
    rw [get_delete] at listed
    split_ifs at listed
    exact listed

theorem loses_forget_box {removed : Mailbox} (gone : m.removeBox faults box = some removed) :
    Loses Gone m (mailboxForgetBox removed box) := by
  obtain ⟨dir, found, blobs, acks, rfl⟩ := removed_box_eq gone
  have emptied : Loses Gone m { m with disk := m.disk.delete box } := by
    refine ⟨?_, ?_, fun _ listed => listed, fun _ _ listed => listed⟩
    · intro other name
      left
      unfold Mailbox.blobAt
      dsimp only
      rw [get_delete]
      split_ifs with same
      · rw [same, found, bind_some, blobs name, bind_none]
      · rfl
    · intro other name listed
      unfold readAckIndex at listed
      dsimp only at listed
      rw [get_delete] at listed
      split_ifs at listed
      · exact absurd rfl listed
      · exact listed
  exact emptied.trans (loses_forget_order box)

theorem loses_remove_empty_box (box : String) : Loses Gone m (removeEmptyBox faults m box) := by
  unfold removeEmptyBox
  cases gone : m.removeBox faults box with
  | none => exact Loses.refl m
  | some removed => exact (loses_forget_box gone).of_files rfl rfl rfl

end Removals

section Operations

variable {Gone : String → String → Prop} {m : Mailbox} {box id : String} {faults : Faults}

theorem loses_take_acked (keepBox : String) (allowed : Gone box id) :
    Loses Gone m (takeAcked faults m keepBox box id).1 := by
  unfold takeAcked
  split
  · rename_i blob removed there gone
    dsimp only
    have trimmed : Loses Gone m (dropAcks faults
        ((mailboxForgetBlob removed box id).giveBack (mailboxCharge blob.size)) box [id]) :=
      (loses_give_back gone allowed _).trans (loses_drop_acks [id])
    split_ifs
    · exact trimmed
    · exact trimmed.trans (loses_remove_empty_box box)
  · exact loses_forget_acked (box, id)

theorem loses_make_room_loop (charge : Int) (keepBox : String) (fuel : Nat)
    (allowed : ∀ box id, m.acked.get (box, id) ≠ none → Gone box id) (gone : List String) :
    Loses Gone m (makeRoomLoop faults charge keepBox fuel m gone).1 := by
  induction fuel generalizing m gone with
  | zero => exact Loses.refl m
  | succ fuel ih =>
    unfold makeRoomLoop
    split
    · split
      · exact Loses.refl m
      · rename_i box id cost rest entries
        have listed : m.acked.get (box, id) = some cost :=
          get_of_mem (by simp [entries])
        have taken : Loses Gone m (takeAcked faults m keepBox box id).1 :=
          loses_take_acked keepBox (allowed box id (by simp [listed]))
        apply taken.trans
        apply ih
        intro other name kept
        exact allowed other name (taken.acked (other, name) kept)
    · exact Loses.refl m

theorem loses_make_room (charge : Int) (keepBox : String) :
    Loses (fun box id => m.acked.get (box, id) ≠ none) m
      (mailboxMakeRoom faults m charge keepBox).1 :=
  loses_make_room_loop charge keepBox _ (fun _ _ listed => listed) []

theorem loses_evict_blobs (allowed : ∀ id, Gone box id) (entries : List (String × Blob)) :
    Loses Gone m (evictBlobs faults box entries m) := by
  induction entries generalizing m with
  | nil => exact Loses.refl m
  | cons entry rest ih =>
    obtain ⟨id, blob⟩ := entry
    unfold evictBlobs
    split
    · exact ih
    · rename_i removed gone
      exact (loses_give_back gone (allowed id) _).trans ih

theorem loses_evict_acks (box : String) : Loses Gone m (evictAcks faults m box) := by
  unfold evictAcks
  cases found : m.disk.get box with
  | none => exact Loses.refl m
  | some dir =>
    dsimp only
    split
    · exact Loses.refl m
    · split
      · exact Loses.refl m
      · have cleared : Loses Gone m { m with disk := m.disk.set box { dir with acks := none } } := by
          refine ⟨?_, ?_, fun _ listed => listed, fun _ _ listed => listed⟩
          · intro other name
            rw [blob_at_set]
            split_ifs with same
            · rw [same, blob_at_of_dir found]
              exact Or.inl rfl
            · exact Or.inl rfl
          · intro other name listed
            rw [read_index_set] at listed
            split_ifs at listed
            · exact absurd rfl listed
            · exact listed
        exact (cleared.trans (loses_forget_blob box ackIndexName)).of_files rfl rfl rfl

theorem loses_evict (now : Nat) :
    Loses (fun box _ => ∃ time, m.boxOrder.get box = some time ∧ time + mailboxTTL < now) m
      (evictOldestStaleBox faults m now).2 := by
  unfold evictOldestStaleBox
  split
  · exact Loses.refl m
  rename_i oldest lastDeposit rest entries
  split
  · rename_i stale
    have known : m.boxOrder.get oldest = some lastDeposit :=
      get_of_mem (by simp [entries])
    have cleared : Loses (fun box _ => ∃ time, m.boxOrder.get box = some time ∧
        time + mailboxTTL < now) m
        (evictAcks faults (evictBlobs faults oldest (listedBlobs m oldest) m) oldest) :=
      (loses_evict_blobs (fun _ => ⟨lastDeposit, known, stale⟩) _).trans (loses_evict_acks oldest)
    dsimp only
    split
    · exact (cleared.trans (loses_forget_order oldest)).of_files rfl rfl rfl
    · split
      · exact cleared
      · rename_i removed gone
        exact (cleared.trans (loses_forget_box gone)).of_files rfl rfl rfl
  · exact Loses.refl m

theorem loses_sweep_blobs (now : Nat) (entries : List (String × Blob)) (alive : List String) :
    Loses (fun _ _ => True) m (sweepBlobs faults now box entries m alive).1 := by
  induction entries generalizing m alive with
  | nil => exact Loses.refl m
  | cons entry rest ih =>
    obtain ⟨id, blob⟩ := entry
    unfold sweepBlobs
    split
    · split
      · exact ih alive
      · rename_i removed gone
        exact (loses_subtract gone trivial _).trans (ih alive)
    · exact ih _

theorem prune_within {index : AckIndex} {alive : List String} {name : String}
    (listed : (pruneAckIndex index alive).get name ≠ none) : index.get name ≠ none := by
  unfold pruneAckIndex at listed
  rw [get_keep] at listed
  split_ifs at listed
  · exact listed
  · exact absurd rfl listed

theorem loses_sweep (now : Nat) (box : String) :
    Loses (fun _ _ => True) m (sweepBox faults now m box) := by
  have swept : Loses (fun _ _ => True) m
      (sweepBlobs faults now box (listedBlobs m box) m []).1 := loses_sweep_blobs now _ []
  unfold sweepBox
  dsimp only
  split
  · split_ifs
    · exact swept.trans (loses_write_index fun name listed => prune_within listed)
    · exact swept
  · rename_i removed gone
    refine (Loses.trans ?_ (loses_forget_box gone)).of_files rfl rfl rfl
    split_ifs
    · exact swept.trans (loses_write_index fun name listed => prune_within listed)
    · exact swept

theorem loses_ack_remove (ids : List String) :
    Loses (fun _ _ => True) m (ids.foldl (ackRemoveOne faults box) m) := by
  induction ids generalizing m with
  | nil => exact Loses.refl m
  | cons id rest ih =>
    rw [List.foldl_cons]
    have first : Loses (fun _ _ => True) m (ackRemoveOne faults box m id) := by
      unfold ackRemoveOne
      split
      · rename_i blob removed there gone
        exact loses_give_back gone trivial _
      · exact Loses.refl m
    exact first.trans ih

theorem loses_plain_ack (box : String) (ids : List String) :
    Loses (fun _ _ => True) m (plainAck faults m box ids) :=
  ((loses_ack_remove ids).trans (loses_drop_acks ids)).trans (loses_remove_empty_box box)

theorem loses_shed_overflow (stored : List StoredBlob) (total : Nat) (evicted : List String) :
    Loses (fun _ _ => True) m (shedOverflow faults box stored total m evicted).1 := by
  induction stored generalizing m total evicted with
  | nil => exact Loses.refl m
  | cons oldest rest ih =>
    unfold shedOverflow
    split
    · split
      · exact ih _ _
      · rename_i removed gone
        exact (loses_subtract gone trivial _).trans (ih _ _)
    · exact Loses.refl m

end Operations

end AwfulChat.Relay
