import AwfulChat.Relay.MailboxRuns

/-!
# The room a deposit takes

A deposit that is refused takes nobody's pending mail: the one box it may evict is
past the TTL as a whole, and what makes room for it has been acked. What
`mailboxRoomPossible` promises, `mailboxMakeRoom` delivers while removals succeed, and
a deposit that is accepted leaves the ceilings and the caps of its box kept.
-/

namespace AwfulChat.Relay

open Library Library.OrderedMap
open List hiding get_of_mem
open Option hiding get_of_mem

set_option autoImplicit false

section Sizes

theorem mailbox_charge_mono {small large : Nat} (le : small ≤ large) :
    mailboxCharge small ≤ mailboxCharge large := by
  unfold mailboxCharge mailboxBlockSize
  split_ifs <;> omega

theorem comma_joined_sublist {few many : List Nat} (sub : few.Sublist many) :
    commaJoined few ≤ commaJoined many := by
  have sums : few.sum ≤ many.sum := by
    induction sub with
    | slnil => exact Nat.le_refl _
    | cons first _ ih =>
      rw [sum_cons]
      omega
    | cons_cons first _ ih =>
      rw [sum_cons, sum_cons]
      omega
  have lengths := sub.length_le
  unfold commaJoined
  omega

theorem json_size_keep (index : AckIndex) (stays : String → Bool) :
    AckIndex.jsonSize (index.keep stays) ≤ index.jsonSize := by
  have fewer := comma_joined_sublist ((filter_sublist (p := fun entry => stays entry.1)
    (l := index.entries)).map fun entry => quotedSize entry.1 + 1 + deviceListSize entry.2)
  unfold AckIndex.jsonSize
  exact Nat.add_le_add_left fewer 2

end Sizes

section Counters

variable {m : Mailbox} {box : String} {faults : Faults}

variable {charge : Int}

theorem give_back_less (m : Mailbox) (positive : 0 ≤ charge) :
    (m.giveBack charge).usedBytes ≤ m.usedBytes ∧ (m.giveBack charge).files ≤ m.files := by
  unfold Mailbox.giveBack
  constructor
  · dsimp only
    split_ifs <;> omega
  · dsimp only
    split_ifs <;> omega

theorem write_kept_less (faults : Faults) (m : Mailbox) (box : String) (stays : String → Bool)
    (listed : 0 < (readAckIndex m box).size) :
    (writeAckIndex faults m box ((readAckIndex m box).keep stays)).usedBytes ≤ max m.usedBytes 0 ∧
      (writeAckIndex faults m box ((readAckIndex m box).keep stays)).files ≤ m.files := by
  have kept : m.usedBytes ≤ max m.usedBytes 0 ∧ m.files ≤ m.files := by omega
  unfold writeAckIndex
  cases found : m.disk.get box with
  | none => exact kept
  | some dir =>
    have written : dir.acks = some (.written (readAckIndex m box)) := by
      unfold readAckIndex at listed ⊢
      rw [found, bind_some] at listed ⊢
      split at listed
      · assumption
      · simp [OrderedMap.size, OrderedMap.empty] at listed
    have cost : acksCharge dir.acks = mailboxCharge (readAckIndex m box).jsonSize := by
      rw [written]
      rfl
    have there : dir.acks.isSome = true := by simp [written]
    have fewer := mailbox_charge_mono (json_size_keep (readAckIndex m box) stays)
    dsimp only
    split
    · split
      · obtain ⟨used, files⟩ := give_back_less
          { m with disk := m.disk.set box { dir with acks := none } }
          (acks_charge_nonneg dir.acks)
        exact ⟨used.trans kept.1, files⟩
      · exact kept
    · rw [cost]
      refine ⟨?_, Int.le_refl _⟩
      dsimp only
      split <;> omega

theorem drop_acks_less (faults : Faults) (m : Mailbox) (box : String) (ids : List String) :
    (dropAcks faults m box ids).usedBytes ≤ max m.usedBytes 0 ∧
      (dropAcks faults m box ids).files ≤ m.files := by
  unfold dropAcks
  dsimp only
  split_ifs with listed
  · exact write_kept_less faults m box _ listed
  · omega

theorem remove_empty_box_counters (faults : Faults) (m : Mailbox) (box : String) :
    (removeEmptyBox faults m box).usedBytes = m.usedBytes ∧
      (removeEmptyBox faults m box).files = m.files ∧
      (removeEmptyBox faults m box).acked = m.acked ∧
      (removeEmptyBox faults m box).ackedBytes = m.ackedBytes := by
  unfold removeEmptyBox
  cases gone : m.removeBox faults box with
  | none => exact ⟨rfl, rfl, rfl, rfl⟩
  | some removed =>
    obtain ⟨dir, -, -, -, rfl⟩ := removed_box_eq gone
    exact ⟨rfl, rfl, rfl, rfl⟩

theorem write_index_acked_bytes (index : AckIndex) :
    (writeAckIndex faults m box index).ackedBytes = m.ackedBytes := by
  unfold writeAckIndex
  cases m.disk.get box with
  | none => rfl
  | some dir =>
    dsimp only
    split_ifs <;> rfl

theorem drop_acks_acked (faults : Faults) (m : Mailbox) (box : String) (ids : List String) :
    (dropAcks faults m box ids).acked = m.acked ∧
      (dropAcks faults m box ids).ackedBytes = m.ackedBytes := by
  unfold dropAcks
  dsimp only
  split_ifs
  · exact ⟨write_index_acked _ _, write_index_acked_bytes _⟩
  · exact ⟨rfl, rfl⟩

theorem Counted.used_nonneg (sound : Counted m) : 0 ≤ m.usedBytes := by
  rw [sound.used]
  exact total_nonneg (fun _ dir => dir_bytes_nonneg dir) _

theorem take_acked_frees (sound : Accounted m) (keepBox : String) {id : String} {cost : Int}
    (listed : m.acked.get (box, id) = some cost) :
    (takeAcked noFaults m keepBox box id).1.usedBytes ≤ m.usedBytes - cost ∧
      (takeAcked noFaults m keepBox box id).1.files ≤ m.files - 1 ∧
      (takeAcked noFaults m keepBox box id).1.acked = m.acked.delete (box, id) ∧
      (takeAcked noFaults m keepBox box id).1.ackedBytes = m.ackedBytes - cost := by
  obtain ⟨blob, there, charge⟩ := acked_there sound listed
  obtain ⟨removed, gone⟩ := no_faults_remove there
  obtain ⟨given, cut⟩ := sound.give_back gone there
  have positive := given.used_nonneg
  obtain ⟨used, files⟩ := drop_acks_less noFaults
    ((mailboxForgetBlob removed box id).giveBack (mailboxCharge blob.size)) box [id]
  obtain ⟨acked, bytes⟩ := drop_acks_acked noFaults
    ((mailboxForgetBlob removed box id).giveBack (mailboxCharge blob.size)) box [id]
  rw [cut.usedBytes] at positive used
  rw [cut.files] at files
  rw [cut.acked] at acked
  rw [cut.ackedBytes, listed, getD_some] at bytes
  rw [max_eq_left positive] at used
  have freed := used.trans (Int.sub_le_sub_left (Int.le_of_eq charge) m.usedBytes)
  unfold takeAcked
  rw [there, gone]
  dsimp only
  split
  · exact ⟨freed, files, acked, bytes⟩
  · obtain ⟨same_used, same_files, same_acked, same_bytes⟩ := remove_empty_box_counters noFaults
      (dropAcks noFaults ((mailboxForgetBlob removed box id).giveBack (mailboxCharge blob.size))
        box [id]) box
    rw [same_used, same_files, same_acked, same_bytes]
    exact ⟨freed, files, acked, bytes⟩

/-- The acked blobs cover what a deposit of this charge lacks. -/
def RoomCovered (m : Mailbox) (charge : Int) : Prop :=
  m.usedBytes + charge - mailboxGlobalMaxBytes ≤ m.ackedBytes ∧
    m.files + 1 - mailboxGlobalMaxFiles ≤ m.acked.size

theorem Accounted.acked_bytes_nonneg (sound : Accounted m) : 0 ≤ m.ackedBytes := by
  have positive : (m.acked.total fun _ charge => charge) =
      m.acked.total fun _ charge => max charge 0 := by
    apply total_congr
    rintro ⟨box, id⟩ charge listed
    obtain ⟨blob, -, cost⟩ := acked_there sound listed
    have more := mailbox_charge_pos blob.size
    omega
  rw [sound.ackedBytes, positive]
  exact total_nonneg (fun _ _ => le_max_right _ _) _

theorem room_covered (sound : Accounted m)
    (possible : mailboxRoomPossible m charge = true) : RoomCovered m charge := by
  have positive := sound.acked_bytes_nonneg
  unfold mailboxRoomPossible at possible
  simp only [Bool.and_eq_true, Bool.or_eq_true, decide_eq_true_eq] at possible
  unfold RoomCovered
  omega

theorem fits_of_none_acked (sound : Accounted m) (covered : RoomCovered m charge)
    (none_acked : m.acked.entries = []) : mailboxFull m charge = false := by
  obtain ⟨bytes, files⟩ := covered
  have no_bytes : m.ackedBytes = 0 := by
    rw [sound.ackedBytes]
    simp [OrderedMap.total, none_acked]
  have no_files : m.acked.size = 0 := by simp [OrderedMap.size, none_acked]
  unfold mailboxFull
  simp only [Bool.or_eq_false_iff, decide_eq_false_iff_not]
  omega

theorem make_room_loop_fits (charge : Int) (keepBox : String) (fuel : Nat) (sound : Accounted m)
    (enough : m.acked.size ≤ fuel) (covered : RoomCovered m charge) (gone : List String) :
    mailboxFull (makeRoomLoop noFaults charge keepBox fuel m gone).1 charge = false := by
  induction fuel generalizing m gone with
  | zero =>
    apply fits_of_none_acked sound covered
    exact length_eq_zero_iff.mp (Nat.le_zero.mp enough)
  | succ fuel ih =>
    unfold makeRoomLoop
    split
    · split
      · rename_i none_acked
        exact fits_of_none_acked sound covered none_acked
      · rename_i box id cost rest entries
        have listed : m.acked.get (box, id) = some cost :=
          get_of_mem (by simp [entries])
        obtain ⟨used, files, acked, bytes⟩ := take_acked_frees sound keepBox listed
        have fewer := size_delete_of_present listed
        apply ih (sound.take_acked keepBox listed)
        · rw [acked]
          omega
        · unfold RoomCovered at covered ⊢
          rw [acked, bytes]
          omega
    · rename_i fits
      simpa using fits

theorem make_room_fits (sound : Accounted m) (keepBox : String)
    (possible : mailboxRoomPossible m charge = true) :
    mailboxFull (mailboxMakeRoom noFaults m charge keepBox).1 charge = false :=
  make_room_loop_fits charge keepBox _ sound (Nat.le_refl _) (room_covered sound possible) []

end Counters

section Spending

variable {m : Mailbox} {box : String} {blob : Bytes} {arrival : DepositArrival}

/-- The mailbox a deposit looks for room in: one for a new box at the ceiling evicts
first. -/
def roomBase (m : Mailbox) (box : String) (arrival : DepositArrival) : Mailbox :=
  if (m.disk.get box).isNone = true ∧ mailboxGlobalMaxBoxes ≤ m.boxes then
    (evictOldestStaleBox arrival.faults m arrival.now).2
  else m

/-- The mailbox with the room made for a deposit. -/
def roomMade (m : Mailbox) (box : String) (blob : Bytes) (arrival : DepositArrival) : Mailbox :=
  (mailboxMakeRoom arrival.faults (roomBase m box arrival) (mailboxCharge blob.length) box).1

def storedLeft (m : Mailbox) (box : String) (blob : Bytes) (arrival : DepositArrival) :
    List StoredBlob :=
  (sheddingOrder (roomBase m box arrival) box arrival.source).filter fun found =>
    decide (found.name ∉
      (mailboxMakeRoom arrival.faults (roomBase m box arrival) (mailboxCharge blob.length) box).2)

/-- The blob stored and the overflow shed. -/
def acceptedDeposit (m : Mailbox) (box : String) (blob : Bytes) (stored : List StoredBlob)
    (arrival : DepositArrival) : Mailbox :=
  let shed := shedOverflow arrival.faults box stored (totalSize stored + blob.length)
    (storeBlob m box blob arrival) []
  if shed.2.isEmpty then shed.1 else dropAcks arrival.faults shed.1 box shed.2

/-- A deposit is refused before room is made for it, after that, or at the write; or
it is accepted. -/
inductive DepositOutcome (m : Mailbox) (box : String) (blob : Bytes) (arrival : DepositArrival) :
    Nat × Mailbox → Prop where
  | early (status : Nat) (refused : status ≠ 204) :
      DepositOutcome m box blob arrival (status, roomBase m box arrival)
  | late (status : Nat) (refused : status ≠ 204) :
      DepositOutcome m box blob arrival (status, roomMade m box blob arrival)
  | failed : DepositOutcome m box blob arrival
      (500, failedWrite (roomMade m box blob arrival) box arrival)
  | accepted (fits : mailboxFull (roomMade m box blob arrival) (mailboxCharge blob.length) = false) :
      DepositOutcome m box blob arrival (204, acceptedDeposit (roomMade m box blob arrival) box
        blob (storedLeft m box blob arrival) arrival)

theorem deposit_into_outcome (m : Mailbox) (box : String) (blob : Bytes)
    (arrival : DepositArrival) : DepositOutcome m box blob arrival
      (depositInto (roomBase m box arrival) box blob arrival) := by
  unfold depositInto
  dsimp only
  split
  · exact .early 507 (by decide)
  split
  · exact .early 429 (by decide)
  change DepositOutcome m box blob arrival (depositWithRoom (roomMade m box blob arrival) box blob
    (storedLeft m box blob arrival) arrival)
  unfold depositWithRoom
  split
  · exact .late 507 (by decide)
  rename_i fits
  split
  · exact .late 500 (by decide)
  split
  · exact .failed
  · exact .accepted (by simpa using fits)

theorem deposit_outcome (m : Mailbox) (box : String) (blob : Bytes) (arrival : DepositArrival) :
    DepositOutcome m box blob arrival (depositLocked m box blob arrival) := by
  have into := deposit_into_outcome m box blob arrival
  by_cases fresh : (m.disk.get box).isNone = true ∧ mailboxGlobalMaxBoxes ≤ m.boxes
  · have same : roomBase m box arrival = (evictOldestStaleBox arrival.faults m arrival.now).2 :=
      if_pos fresh
    unfold depositLocked
    rw [if_pos fresh]
    dsimp only
    rw [← same]
    split
    · exact into
    · exact .early 507 (by decide)
  · have same : roomBase m box arrival = m := if_neg fresh
    unfold depositLocked
    rw [if_neg fresh]
    rw [same] at into
    exact into

/-- What a deposit may cost others: a box past the TTL, or a blob that was acked. -/
def Expendable (m : Mailbox) (now : Nat) (box id : String) : Prop :=
  (∃ time, m.boxOrder.get box = some time ∧ time + mailboxTTL < now) ∨
    m.acked.get (box, id) ≠ none

theorem loses_room_base (m : Mailbox) (box : String) (arrival : DepositArrival) :
    Loses (Expendable m arrival.now) m (roomBase m box arrival) := by
  unfold roomBase
  split_ifs
  · exact (loses_evict arrival.now).weaken fun _ _ stale => Or.inl stale
  · exact Loses.refl m

theorem loses_room_made (m : Mailbox) (box : String) (blob : Bytes) (arrival : DepositArrival) :
    Loses (Expendable m arrival.now) m (roomMade m box blob arrival) := by
  have base := loses_room_base m box arrival
  apply base.trans
  unfold roomMade
  apply (loses_make_room _ box).weaken
  intro other id listed
  exact Or.inr (base.acked (other, id) listed)

end Spending

section Kept

variable {m after : Mailbox} {clock later : Nat} {ids mail : List (String × String)}
  {collected : List (String × String × String)}

/-- Mail is named by used ids and dated no later than the clock and its box, and what
is remembered as acked was acked. -/
structure MailKept (m : Mailbox) (clock : Nat) (ids mail : List (String × String))
    (collected : List (String × String × String)) : Prop where
  used : ∀ key ∈ mail, key ∈ ids
  acked : ∀ box id, m.acked.get (box, id) ≠ none → ∃ device, (box, device, id) ∈ collected
  dated : ∀ box id blob, (box, id) ∈ mail → m.blobAt box id = some blob → blob.mod ≤ clock
  fresh : ∀ box id blob time, (box, id) ∈ mail → m.blobAt box id = some blob →
    m.boxOrder.get box = some time → blob.mod ≤ time

variable {Gone : String → String → Prop}

theorem Loses.kept_blob (loses : Loses Gone m after) {box id : String} {blob : Blob}
    (there : after.blobAt box id = some blob) :
    m.blobAt box id = some blob := by
  rcases loses.blobs box id with same | ⟨-, gone⟩
  · rw [← same, there]
  · rw [gone] at there
    cases there

theorem MailKept.loses (kept : MailKept m clock ids mail collected) (loses : Loses Gone m after)
    (le : clock ≤ later) :
    MailKept after later ids mail collected where
  used := kept.used
  acked := fun box id listed => kept.acked box id (loses.acked (box, id) listed)
  dated := fun box id blob mem there =>
    (kept.dated box id blob mem (loses.kept_blob there)).trans le
  fresh := fun box id blob time mem there order =>
    kept.fresh box id blob time mem (loses.kept_blob there) (loses.order box time order)

theorem MailKept.more_ids {others : List (String × String)}
    (kept : MailKept m clock ids mail collected) (within : ids ⊆ others) :
    MailKept m clock others mail collected :=
  { kept with used := fun key mem => within (kept.used key mem) }

theorem failed_write_memory (m : Mailbox) (box : String) (arrival : DepositArrival) :
    (failedWrite m box arrival).acked = m.acked ∧
      (failedWrite m box arrival).boxOrder = m.boxOrder := by
  unfold failedWrite
  dsimp only
  split
  · split_ifs <;> exact ⟨rfl, rfl⟩
  · split_ifs <;> exact ⟨rfl, rfl⟩

theorem store_blob_memory (m : Mailbox) (box : String) (blob : Bytes) (arrival : DepositArrival) :
    (storeBlob m box blob arrival).acked = m.acked ∧
      (storeBlob m box blob arrival).boxOrder =
        (m.boxOrder.delete box).set box arrival.touchedAt := by
  rw [store_blob_eq]
  split <;> exact ⟨rfl, rfl⟩

section

variable {box : String} {arrival : DepositArrival} (kept : MailKept m clock ids mail collected)
include kept

theorem MailKept.failed_write (unused : (box, arrival.id) ∉ ids) :
    MailKept (failedWrite m box arrival) clock ids mail collected := by
  obtain ⟨acked, order⟩ := failed_write_memory m box arrival
  have blobs := (failed_write_files m box arrival).1
  have same : ∀ other id, (other, id) ∈ mail →
      (failedWrite m box arrival).blobAt other id = m.blobAt other id := by
    intro other id mem
    apply blobs
    intro equal
    exact unused (equal ▸ kept.used _ mem)
  refine ⟨kept.used, ?_, ?_, ?_⟩
  · rw [acked]
    exact kept.acked
  · intro other id blob mem there
    rw [same other id mem] at there
    exact kept.dated other id blob mem there
  · intro other id blob time mem there
    rw [order]
    rw [same other id mem] at there
    exact kept.fresh other id blob time mem there

theorem MailKept.store_blob (blob : Bytes) (started : clock ≤ arrival.touchedAt)
    (written : arrival.writtenAt ≤ arrival.touchedAt) :
    MailKept (storeBlob m box blob arrival) arrival.touchedAt ((box, arrival.id) :: ids)
      ((box, arrival.id) :: mail) collected := by
  obtain ⟨acked, order⟩ := store_blob_memory m box blob arrival
  have dated : ∀ other id found, (other, id) ∈ (box, arrival.id) :: mail →
      (storeBlob m box blob arrival).blobAt other id = some found →
      found.mod ≤ arrival.touchedAt ∧ (other ≠ box → (other, id) ∈ mail ∧
        m.blobAt other id = some found) := by
    intro other id found mem there
    rw [store_blob_at] at there
    split_ifs at there with own
    · cases there
      exact ⟨written, fun different => absurd (Prod.mk.inj own).1 different⟩
    · have old : (other, id) ∈ mail := (mem_cons.mp mem).resolve_left own
      exact ⟨(kept.dated other id found old there).trans started, fun _ => ⟨old, there⟩⟩
  refine ⟨?_, ?_, ?_, ?_⟩
  · intro key mem
    rcases mem_cons.mp mem with same | old
    · rw [same]
      exact mem_cons_self
    · exact mem_cons_of_mem _ (kept.used key old)
  · rw [acked]
    exact kept.acked
  · intro other id found mem there
    exact (dated other id found mem there).1
  · intro other id found time mem there listed
    obtain ⟨bounded, elsewhere⟩ := dated other id found mem there
    rw [order, get_set] at listed
    split_ifs at listed with same
    · cases listed
      exact bounded
    · obtain ⟨old, before⟩ := elsewhere same
      rw [get_delete, if_neg same] at listed
      exact kept.fresh other id found time old before listed

end

theorem loses_accepted_deposit (m : Mailbox) (box : String) (blob : Bytes)
    (stored : List StoredBlob) (arrival : DepositArrival) :
    Loses (fun _ _ => True) (storeBlob m box blob arrival)
      (acceptedDeposit m box blob stored arrival) := by
  unfold acceptedDeposit
  dsimp only
  split_ifs
  · exact loses_shed_overflow _ _ _
  · exact (loses_shed_overflow _ _ _).trans (loses_drop_acks _)

end Kept

section Histories

variable {world next : MailboxWorld} {event : MailboxEvent}

def MailboxWorld.Kept (world : MailboxWorld) : Prop :=
  MailKept world.mailbox world.clock world.ids world.mail world.collected

theorem handle_deposit_eq {m : Mailbox} {arrival : DepositArrival} {box : String} {blob : Bytes}
    (checked : arrival.checked = .ok (box, blob)) :
    handleMailboxDeposit m arrival = depositLocked m box blob arrival := by
  unfold handleMailboxDeposit
  rw [checked]

theorem MailboxWorld.Kept.deposit (kept : world.Kept) {arrival : DepositArrival}
    (started : world.clock ≤ arrival.touchedAt) (written : arrival.writtenAt ≤ arrival.touchedAt)
    (fresh : freshId world arrival = true) :
    (depositStep world arrival).Kept := by
  unfold depositStep
  dsimp only
  split
  · rename_i status checked
    have unchanged : Loses (fun _ _ => True) world.mailbox world.mailbox := Loses.refl _
    unfold handleMailboxDeposit
    rw [checked]
    exact kept.loses unchanged started
  · rename_i box blob checked
    have unused := fresh_id_unused fresh checked
    have made := loses_room_made world.mailbox box blob arrival
    have spent : MailKept (roomMade world.mailbox box blob arrival) arrival.touchedAt world.ids
        world.mail world.collected := kept.loses made started
    have more : world.ids ⊆ (box, arrival.id) :: world.ids := subset_cons_self _ _
    rw [handle_deposit_eq checked]
    have outcome := deposit_outcome world.mailbox box blob arrival
    unfold MailboxWorld.Kept
    dsimp only
    generalize depositLocked world.mailbox box blob arrival = result at outcome
    cases outcome with
    | early status refused =>
      rw [if_neg refused]
      exact (kept.loses (loses_room_base world.mailbox box arrival) started).more_ids more
    | late status refused =>
      rw [if_neg refused]
      exact spent.more_ids more
    | failed => exact (spent.failed_write unused).more_ids more
    | accepted fits =>
      rw [if_pos rfl]
      have stored : MailKept
          (storeBlob (roomMade world.mailbox box blob arrival) box blob arrival) arrival.touchedAt
          ((box, arrival.id) :: world.ids) ((box, arrival.id) :: world.mail) world.collected :=
        spent.store_blob blob (Nat.le_refl _) written
      exact stored.loses (loses_accepted_deposit _ box blob _ arrival) (Nat.le_refl _)

theorem ack_one_acked (m : Mailbox) (box device : String) (state : Mailbox × AckIndex) (id : String)
    (disk : state.1.disk = m.disk) (order : state.1.boxOrder = m.boxOrder) :
    (ackOne box device state id).1.boxOrder = m.boxOrder ∧
      ∀ key, (ackOne box device state id).1.acked.get key ≠ none →
        state.1.acked.get key ≠ none ∨ (key = (box, id) ∧ m.blobAt box id ≠ none) := by
  have blob_at : state.1.blobAt box id = m.blobAt box id := by
    unfold Mailbox.blobAt
    rw [disk]
  unfold ackOne
  rw [blob_at]
  cases there : m.blobAt box id with
  | none => exact ⟨order, fun _ => Or.inl⟩
  | some blob =>
    dsimp only
    split
    · exact ⟨order, fun _ => Or.inl⟩
    · dsimp only
      split
      · refine ⟨(note_acked_disk _ _ _ _).2.trans order, ?_⟩
        intro key listed
        rw [note_acked_get] at listed
        split_ifs at listed with same
        · exact Or.inr ⟨same, by simp⟩
        · exact Or.inl listed
      · exact ⟨order, fun _ => Or.inl⟩

theorem ack_fold_acked (m : Mailbox) (box device : String) (names : List String)
    (state : Mailbox × AckIndex) (disk : state.1.disk = m.disk)
    (order : state.1.boxOrder = m.boxOrder) :
    (names.foldl (ackOne box device) state).1.boxOrder = m.boxOrder ∧
      ∀ key, (names.foldl (ackOne box device) state).1.acked.get key ≠ none →
        state.1.acked.get key ≠ none ∨
          ∃ id ∈ names, key = (box, id) ∧ m.blobAt box id ≠ none := by
  induction names generalizing state with
  | nil => exact ⟨order, fun _ => Or.inl⟩
  | cons id rest ih =>
    obtain ⟨kept, back⟩ := ack_one_acked m box device state id disk order
    obtain ⟨later, earlier⟩ :=
      ih _ (ack_one_keys box device state id disk).1 kept
    refine ⟨later, ?_⟩
    intro key listed
    rcases earlier key listed with old | ⟨name, mem, same, there⟩
    · rcases back key old with before | ⟨same, there⟩
      · exact Or.inl before
      · exact Or.inr ⟨id, by simp, same, there⟩
    · exact Or.inr ⟨name, mem_cons_of_mem _ mem, same, there⟩

theorem device_ack_blob_at (faults : Faults) (m : Mailbox) (box device : String)
    (names : List String) (other name : String) :
    (deviceAck faults m box device names).blobAt other name = m.blobAt other name := by
  unfold deviceAck
  dsimp only
  rw [write_index_blob_at]
  unfold Mailbox.blobAt
  rw [acked_state_disk]

theorem MailKept.device_ack {m : Mailbox} {clock : Nat} {ids mail : List (String × String)}
    {collected : List (String × String × String)} (kept : MailKept m clock ids mail collected)
    (faults : Faults) (box device : String) (names : List String) :
    MailKept (deviceAck faults m box device names) clock ids mail
      ((names.filter fun id => (m.blobAt box id).isSome).map (fun id => (box, device, id)) ++
        collected) := by
  obtain ⟨order, acked⟩ := ack_fold_acked m box device names
    (m, pruneAckIndex (readAckIndex m box) (aliveBlobs m box)) rfl rfl
  refine ⟨kept.used, ?_, ?_, ?_⟩
  · intro other id listed
    unfold deviceAck at listed
    dsimp only at listed
    rw [write_index_acked] at listed
    rcases acked (other, id) listed with old | ⟨name, mem, same, there⟩
    · obtain ⟨by_device, found⟩ := kept.acked other id old
      exact ⟨by_device, mem_append_right _ found⟩
    · obtain ⟨rfl, rfl⟩ := Prod.mk.inj same
      refine ⟨device, mem_append_left _ (mem_map.mpr ⟨id, ?_, rfl⟩)⟩
      exact mem_filter.mpr ⟨mem, isSome_iff_ne_none.mpr there⟩
  · intro other id blob mem there
    rw [device_ack_blob_at] at there
    exact kept.dated other id blob mem there
  · intro other id blob time mem there listed
    rw [device_ack_blob_at] at there
    unfold deviceAck at listed
    dsimp only at listed
    rw [write_index_order] at listed
    unfold ackedState at listed
    rw [order] at listed
    exact kept.fresh other id blob time mem there listed

theorem MailboxWorld.Kept.ack (kept : world.Kept) (arrival : AckArrival) :
    (ackStep world arrival).Kept := by
  rcases ack_step_cases world arrival with ⟨-, -, same⟩ | ⟨box, names, -, same⟩ |
    ⟨box, device, names, -, -, same⟩
  · rw [same]
    exact kept
  · rw [same]
    exact kept.loses (loses_plain_ack box names) (Nat.le_refl _)
  · rw [same]
    exact MailKept.device_ack kept arrival.faults box device names

theorem MailboxWorld.Kept.step (kept : world.Kept)
    (stepped : mailboxStep world event = some next) : next.Kept := by
  rcases mailbox_step_cases stepped with ⟨arrival, -, started, stored, touched, written, fresh, rfl⟩ |
    ⟨arrival, -, rfl⟩ | ⟨faults, now, box, -, rfl⟩ | ⟨faults, now, -, later, rfl⟩ |
    ⟨faults, charge, keepBox, -, rfl⟩
  · exact kept.deposit ((started.trans stored).trans touched) written fresh
  · exact kept.ack arrival
  · exact kept.loses (loses_sweep now box) (Nat.le_refl _)
  · exact kept.loses (loses_evict now) later
  · exact kept.loses (loses_make_room charge keepBox) (Nat.le_refl _)

/-- A directory's time moves with every file created in it. -/
def DirTimes (disk : MailboxDisk) (dirTime : String → Nat) (clock : Nat) : Prop :=
  ∀ box dir, disk.get box = some dir → dirTime box ≤ clock ∧
    ∀ id blob, dir.blobs.get id = some blob → blob.mod ≤ dirTime box

variable {dirTime : String → Nat} {disk : MailboxDisk} {events : List MailboxEvent}

theorem boot_collected {box id : String}
    (listed : (mailboxInitUsedBytes disk dirTime).acked.get (box, id) ≠ none) :
    ∃ device, (box, device, id) ∈ collectedOf disk := by
  obtain ⟨charge, stored⟩ := ne_none_iff_exists'.mp listed
  rw [init_used_bytes_eq] at stored
  rcases note_all_get stored with never | ⟨found, mem, rfl, rfl, -⟩
  · simp [countedAtBoot] at never
  · obtain ⟨dir, here, acked⟩ := mem_acked_at_boot.mp mem
    obtain ⟨index, devices, blob, acks, names, -, some_device, -⟩ := mem_acked_in_box.mp acked
    obtain ⟨device, in_list⟩ := exists_mem_of_ne_nil devices some_device
    refine ⟨device, mem_flatMap.mpr ⟨(found.box, dir), mem_of_get here, ?_⟩⟩
    dsimp only
    rw [acks]
    refine mem_flatMap.mpr ⟨(found.id, devices), mem_of_get names, ?_⟩
    exact mem_map.mpr ⟨device, in_list, rfl⟩

theorem boot_order {box : String} {time : Nat}
    (listed : (mailboxInitUsedBytes disk dirTime).boxOrder.get box = some time) :
    time = dirTime box := by
  rw [init_used_bytes_eq, (note_all_disk _ _).2] at listed
  have mem := mem_mergeSort.mp (collect_get_mem listed)
  obtain ⟨other, -, same⟩ := mem_map.mp mem
  obtain ⟨rfl, rfl⟩ := Prod.mk.inj same
  rfl

theorem boot_blob_at (disk : MailboxDisk) (dirTime : String → Nat) (box id : String) :
    (mailboxInitUsedBytes disk dirTime).blobAt box id =
      (disk.get box).bind fun dir => dir.blobs.get id := by
  unfold Mailbox.blobAt
  rw [boot_disk]

theorem mail_of_ids (disk : MailboxDisk) : mailOf disk ⊆ idsOf disk := by
  intro key mem
  obtain ⟨entry, listed, named⟩ := mem_flatMap.mp mem
  exact mem_flatMap.mpr ⟨entry, listed, mem_append_left _ named⟩

theorem boot_kept {clock : Nat}
    (times : DirTimes disk dirTime clock) : (bootWorld disk dirTime clock).Kept where
  used := fun key mem => mail_of_ids disk mem
  acked := fun box id listed => boot_collected listed
  dated := by
    intro box id blob _ there
    obtain ⟨dir, here, listed⟩ :=
      bind_eq_some_iff.mp ((boot_blob_at disk dirTime box id).symm.trans there)
    obtain ⟨past, files⟩ := times box dir here
    exact (files id blob listed).trans past
  fresh := by
    intro box id blob time _ there order
    obtain ⟨dir, here, listed⟩ :=
      bind_eq_some_iff.mp ((boot_blob_at disk dirTime box id).symm.trans there)
    rw [boot_order order]
    exact (times box dir here).2 id blob listed

theorem run_kept (kept : world.Kept) (ran : run mailboxStep world events = some next) : next.Kept :=
  run_keeps (fun _ _ _ held (_ : True) stepped => held.step stepped) kept
    (meets_of_forall (fun _ _ => trivial) world events) ran

def MailboxWorld.Known (world : MailboxWorld) : Prop := IdsKnown world.mailbox world.ids

theorem run_known (known : world.Known)
    (ran : run mailboxStep world events = some next) : next.Known := by
  have keeps : ∀ (state : MailboxWorld) event after, state.Known → True →
      mailboxStep state event = some after → after.Known :=
    fun _ _ _ held _ stepped => IdsKnown.step held stepped
  exact run_keeps keeps known (meets_of_forall (fun _ _ => trivial) world events) ran

end Histories

section Accepted

variable {m : Mailbox} {box : String} {blob : Bytes} {arrival : DepositArrival}

theorem shed_overflow_less (m : Mailbox) (box : String) (faults : Faults) (stored : List StoredBlob)
    (total : Nat) (evicted : List String) :
    (shedOverflow faults box stored total m evicted).1.usedBytes ≤ m.usedBytes ∧
      (shedOverflow faults box stored total m evicted).1.files ≤ m.files := by
  induction stored generalizing m total evicted with
  | nil => exact ⟨Int.le_refl _, Int.le_refl _⟩
  | cons oldest rest ih =>
    unfold shedOverflow
    split
    · split
      · exact ih _ _ _
      · rename_i removed gone
        obtain ⟨dir, -, -, -, rfl⟩ := removed_eq gone
        have forgets := forget_blob_forgets
          { m with disk := m.disk.set box { dir with blobs := dir.blobs.delete oldest.name } }
          box oldest.name
        have charge := mailbox_charge_pos oldest.size
        have used := forgets.usedBytes
        have files := forgets.files
        refine ⟨(ih _ _ _).1.trans ?_, (ih _ _ _).2.trans ?_⟩
        · unfold Mailbox.subtract
          dsimp only at used ⊢
          omega
        · unfold Mailbox.subtract
          dsimp only at files ⊢
          omega
    · exact ⟨Int.le_refl _, Int.le_refl _⟩

theorem store_blob_counters (m : Mailbox) (box : String) (blob : Bytes) (arrival : DepositArrival) :
    (storeBlob m box blob arrival).usedBytes = m.usedBytes + mailboxCharge blob.length ∧
      (storeBlob m box blob arrival).files = m.files + 1 := by
  rw [store_blob_eq]
  split <;> exact ⟨rfl, rfl⟩

theorem accepted_within_ceilings (box : String) (arrival : DepositArrival)
    (stored : List StoredBlob) (fits : mailboxFull m (mailboxCharge blob.length) = false) :
    (acceptedDeposit m box blob stored arrival).usedBytes ≤ mailboxGlobalMaxBytes ∧
      (acceptedDeposit m box blob stored arrival).files ≤ mailboxGlobalMaxFiles := by
  obtain ⟨used, files⟩ := store_blob_counters m box blob arrival
  obtain ⟨shed_used, shed_files⟩ := shed_overflow_less (storeBlob m box blob arrival) box
    arrival.faults stored (totalSize stored + blob.length) []
  have positive : 0 ≤ mailboxGlobalMaxBytes := by decide
  unfold mailboxFull at fits
  simp only [Bool.or_eq_false_iff, decide_eq_false_iff_not] at fits
  unfold acceptedDeposit
  dsimp only
  split
  · omega
  · obtain ⟨less, fewer⟩ := drop_acks_less arrival.faults
      (shedOverflow arrival.faults box stored (totalSize stored + blob.length)
        (storeBlob m box blob arrival) []).1 box
      (shedOverflow arrival.faults box stored (totalSize stored + blob.length)
        (storeBlob m box blob arrival) []).2
    omega

structure StoredAll (m : Mailbox) (box : String) (stored : List StoredBlob) : Prop where
  there : StoredThere m box stored
  all : ∀ name, m.blobAt box name ≠ none → name ∈ stored.map StoredBlob.name

variable {stored : List StoredBlob}

theorem StoredAll.mem_iff (listed : StoredAll m box stored)
    (name : String) : name ∈ stored.map StoredBlob.name ↔ m.blobAt box name ≠ none := by
  refine ⟨?_, listed.all name⟩
  intro mem
  obtain ⟨found, stored_blob, rfl⟩ := mem_map.mp mem
  obtain ⟨blob, there, -⟩ := listed.there.2 found stored_blob
  simp [there]

theorem StoredThere.sizes (there : StoredThere m box stored) :
    totalSize stored = ((stored.map StoredBlob.name).map fun name =>
      ((m.blobAt box name).map Blob.size).getD 0).sum := by
  unfold totalSize
  rw [List.map_map]
  congr 1
  apply List.map_congr_left
  intro found mem
  obtain ⟨blob, listed, size⟩ := there.2 found mem
  simp [listed, size]

theorem StoredAll.same {left right : List StoredBlob} (one : StoredAll m box left)
    (other : StoredAll m box right) :
    left.length = right.length ∧ totalSize left = totalSize right := by
  have names : (left.map StoredBlob.name).Perm (right.map StoredBlob.name) := by
    rw [perm_ext_iff_of_nodup one.there.1 other.there.1]
    intro name
    rw [one.mem_iff, other.mem_iff]
  constructor
  · simpa using names.length_eq
  · rw [one.there.sizes, other.there.sizes]
    exact (names.map _).sum_eq

theorem stored_blobs_all (m : Mailbox) (box : String) : StoredAll m box (storedBlobs m box) := by
  refine ⟨stored_blobs_there m box, ?_⟩
  intro name found
  obtain ⟨blob, there⟩ := ne_none_iff_exists'.mp found
  obtain ⟨dir, here, listed⟩ := dir_of_blob_at there
  unfold storedBlobs
  rw [here]
  refine mem_map.mpr ⟨⟨name, blob.size, blob.mod⟩, ?_, rfl⟩
  exact mem_mergeSort.mpr (mem_map.mpr ⟨(name, blob), mem_of_get listed, rfl⟩)

theorem shedding_order_all (m : Mailbox) (box source : String) :
    StoredAll m box (sheddingOrder m box source) := by
  refine ⟨shedding_order_there source, ?_⟩
  intro name found
  have listed := (stored_blobs_all m box).all name found
  unfold sheddingOrder
  split_ifs
  · exact ((own_first_perm source _).map StoredBlob.name).mem_iff.mpr listed
  · exact listed

theorem stored_left_all (m : Mailbox) (box : String) (blob : Bytes)
    (clean : arrival.faults = noFaults) :
    StoredAll (roomMade m box blob arrival) box (storedLeft m box blob arrival) := by
  have before := shedding_order_all (roomBase m box arrival) box arrival.source
  unfold roomMade storedLeft
  rw [clean]
  refine ⟨kept_after_room _ before.there, ?_⟩
  intro name found
  obtain ⟨taken, names, kept⟩ := make_room_gone (mailboxCharge blob.length) box
    (roomBase m box arrival).acked.size (roomBase m box arrival) []
  unfold mailboxMakeRoom at found ⊢
  rw [kept] at found
  rw [names, nil_append]
  split_ifs at found with gone
  · exact absurd rfl found
  · obtain ⟨stored, mem, rfl⟩ := mem_map.mp (before.all name found)
    exact mem_map.mpr ⟨stored, mem_filter.mpr ⟨mem, decide_eq_true gone⟩, rfl⟩

theorem StoredAll.store_blob (listed : StoredAll m box stored)
    (absent : m.blobAt box arrival.id = none) :
    StoredAll (storeBlob m box blob arrival) box
      (⟨arrival.id, blob.length, arrival.writtenAt⟩ :: stored) := by
  have there : StoredThere (storeBlob m box blob arrival) box stored :=
    listed.there.after_store absent
  refine ⟨⟨?_, ?_⟩, ?_⟩
  · rw [map_cons, nodup_cons]
    exact ⟨fun mem => (listed.mem_iff _).mp mem absent, there.1⟩
  · intro found mem
    rcases mem_cons.mp mem with rfl | old
    · exact ⟨⟨blob, arrival.writtenAt⟩, by rw [store_blob_at, if_pos rfl], rfl⟩
    · exact there.2 found old
  · intro name found
    rw [store_blob_at] at found
    rw [map_cons, mem_cons]
    split_ifs at found with same
    · exact Or.inl (Prod.mk.inj same).2
    · exact Or.inr (listed.all name found)

theorem StoredAll.cut {after : Mailbox} {first : StoredBlob}
    (listed : StoredAll m box (first :: stored)) (count : Nat)
    (cuts : CutsAll m after box ((stored.take count).map StoredBlob.name)) :
    StoredAll after box (first :: stored.drop count) := by
  have names : (first :: stored).map StoredBlob.name =
      first.name :: ((stored.take count).map StoredBlob.name ++
        (stored.drop count).map StoredBlob.name) := by
    rw [← map_append, take_append_drop, map_cons]
  have distinct := listed.there.1
  rw [names, nodup_cons, nodup_append] at distinct
  obtain ⟨alone, -, -, apart⟩ := distinct
  have uncut : ∀ found ∈ first :: stored.drop count,
      found.name ∉ (stored.take count).map StoredBlob.name := by
    intro found mem taken
    rcases mem_cons.mp mem with rfl | left
    · exact alone (mem_append_left _ taken)
    · exact apart _ taken _ (mem_map.mpr ⟨found, left, rfl⟩) rfl
  have sub : (first :: stored.drop count).Sublist (first :: stored) :=
    (drop_sublist count stored).cons_cons first
  refine ⟨⟨listed.there.1.sublist (sub.map _), ?_⟩, ?_⟩
  · intro found mem
    obtain ⟨blob, there, size⟩ := listed.there.2 found (sub.subset mem)
    refine ⟨blob, ?_, size⟩
    rw [cuts.blob_at, if_neg (fun cut => uncut found mem cut.2)]
    exact there
  · intro name found
    rw [cuts.blob_at] at found
    split_ifs at found with cut
    · exact absurd rfl found
    · have old := listed.all name found
      rw [names, mem_cons, mem_append] at old
      rcases old with own | taken | left
      · rw [own]
        exact mem_cons_self
      · exact absurd ⟨rfl, taken⟩ cut
      · exact mem_cons_of_mem _ left

theorem StoredAll.of_blobs {after : Mailbox} (listed : StoredAll m box stored)
    (same : ∀ name, after.blobAt box name = m.blobAt box name) : StoredAll after box stored := by
  refine ⟨listed.there.of_kept fun found _ => same found.name, ?_⟩
  intro name found
  rw [same] at found
  exact listed.all name found

theorem accepted_within_caps (listed : StoredAll m box stored) (clean : arrival.faults = noFaults)
    (absent : m.blobAt box arrival.id = none) (small : blob.length ≤ mailboxMaxBlob) :
    (storedBlobs (acceptedDeposit m box blob stored arrival) box).length ≤ mailboxMaxMsgs ∧
      totalSize (storedBlobs (acceptedDeposit m box blob stored arrival) box) ≤
        mailboxMaxBytes := by
  have with_new : StoredAll (storeBlob m box blob arrival) box
      (⟨arrival.id, blob.length, arrival.writtenAt⟩ :: stored) := listed.store_blob absent
  have there : StoredThere (storeBlob m box blob arrival) box stored :=
    listed.there.after_store absent
  obtain ⟨count, -, -, cuts, fits⟩ := shed_overflow_cuts there blob.length []
  have shed := with_new.cut count cuts
  have left : StoredAll (acceptedDeposit m box blob stored arrival) box
      (⟨arrival.id, blob.length, arrival.writtenAt⟩ :: stored.drop count) := by
    unfold acceptedDeposit
    rw [clean]
    dsimp only
    split
    · exact shed
    · exact shed.of_blobs fun name => drop_acks_blob_at _ box _ box name
  obtain ⟨length, size⟩ := (stored_blobs_all _ box).same left
  rw [length, size]
  have whole : totalSize (⟨arrival.id, blob.length, arrival.writtenAt⟩ :: stored.drop count) =
      blob.length + totalSize (stored.drop count) := by
    simp [totalSize]
  rw [whole, length_cons]
  rcases fits with none_left | ⟨few, light⟩
  · have nothing : totalSize ([] : List StoredBlob) = 0 := rfl
    rw [none_left, nothing]
    unfold mailboxMaxMsgs mailboxMaxBytes
    unfold mailboxMaxBlob at small
    rw [length_nil]
    omega
  · omega

end Accepted

section Costs

variable {world next : MailboxWorld} {arrival : DepositArrival}

variable {box id : String}

theorem MailboxWorld.Kept.not_expendable (kept : world.Kept) {now : Nat} {blob : Blob}
    (mem : (box, id) ∈ world.mail) (there : world.mailbox.blobAt box id = some blob)
    (young : now ≤ blob.mod + mailboxTTL)
    (unacked : ∀ device, (box, device, id) ∉ world.collected) :
    ¬Expendable world.mailbox now box id := by
  rintro (⟨time, listed, stale⟩ | acked)
  · have dated := kept.fresh box id blob time mem there listed
    omega
  · obtain ⟨device, collected⟩ := kept.acked box id acked
    exact unacked device collected

theorem Loses.keeps {Gone : String → String → Prop} {m after : Mailbox} (loses : Loses Gone m after)
    (kept : ¬Gone box id) :
    after.blobAt box id = m.blobAt box id := by
  rcases loses.blobs box id with same | ⟨gone, -⟩
  · exact same
  · exact absurd gone kept

theorem refused_deposit_keeps (kept : world.Kept) (fresh : freshId world arrival = true)
    (refused : (handleMailboxDeposit world.mailbox arrival).1 ≠ 204)
    (mem : (box, id) ∈ world.mail) (spared : ¬Expendable world.mailbox arrival.now box id) :
    (handleMailboxDeposit world.mailbox arrival).2.blobAt box id =
      world.mailbox.blobAt box id := by
  cases checked : arrival.checked with
  | error status =>
    unfold handleMailboxDeposit
    rw [checked]
  | ok request =>
    obtain ⟨target, blob⟩ := request
    have made := loses_room_made world.mailbox target blob arrival
    have outcome := deposit_outcome world.mailbox target blob arrival
    rw [handle_deposit_eq checked] at refused ⊢
    generalize depositLocked world.mailbox target blob arrival = result at outcome refused
    cases outcome with
    | early status => exact (loses_room_base world.mailbox target arrival).keeps spared
    | late status => exact made.keeps spared
    | failed =>
      have other : (box, id) ≠ (target, arrival.id) := by
        intro same
        exact fresh_id_unused fresh checked (same ▸ kept.used _ mem)
      exact ((failed_write_files _ target arrival).1 box id other).trans (made.keeps spared)
    | accepted => exact absurd rfl refused

theorem room_taken_was_acked (kept : world.Kept) (target : String) (blob : Bytes)
    (there : (roomBase world.mailbox target arrival).blobAt box id ≠ none)
    (gone : (roomMade world.mailbox target blob arrival).blobAt box id = none) :
    ∃ device, (box, device, id) ∈ world.collected := by
  have taken : Loses
      (fun box id => (roomBase world.mailbox target arrival).acked.get (box, id) ≠ none)
      (roomBase world.mailbox target arrival) (roomMade world.mailbox target blob arrival) :=
    loses_make_room _ target
  rcases taken.blobs box id with same | ⟨acked, -⟩
  · rw [same] at gone
    exact absurd gone there
  · exact kept.acked box id ((loses_room_base world.mailbox target arrival).acked _ acked)

theorem Accounted.room_base {m : Mailbox} (sound : Accounted m) (box : String)
    (clean : arrival.faults = noFaults) : Accounted (roomBase m box arrival) := by
  unfold roomBase
  rw [clean]
  split_ifs
  · exact sound.evict arrival.now
  · exact sound

theorem checked_small {box : String} {blob : Bytes} (checked : arrival.checked = .ok (box, blob)) :
    blob.length ≤ mailboxMaxBlob := by
  unfold DepositArrival.checked at checked
  split at checked
  · cases checked
  split at checked
  · cases checked
  split at checked
  · cases checked
  split at checked
  · cases checked
  split at checked
  · cases checked
  split at checked
  · cases checked
  · rename_i fits
    cases checked
    omega

theorem deposit_stepped (stepped : mailboxStep world (.deposit arrival) = some next) :
    freshId world arrival = true ∧ next = depositStep world arrival := by
  simp only [mailboxStep] at stepped
  split_ifs at stepped with allowed
  exact ⟨allowed.2, (Option.some.inj stepped).symm⟩

theorem accepted_deposit_within (known : IdsKnown world.mailbox world.ids)
    (fresh : freshId world arrival = true) {target : String} {blob : Bytes}
    (checked : arrival.checked = .ok (target, blob))
    (accepted : (handleMailboxDeposit world.mailbox arrival).1 = 204) :
    (handleMailboxDeposit world.mailbox arrival).2.usedBytes ≤ mailboxGlobalMaxBytes ∧
      (handleMailboxDeposit world.mailbox arrival).2.files ≤ mailboxGlobalMaxFiles ∧
      (arrival.faults = noFaults →
        (storedBlobs (handleMailboxDeposit world.mailbox arrival).2 target).length ≤
            mailboxMaxMsgs ∧
          totalSize (storedBlobs (handleMailboxDeposit world.mailbox arrival).2 target) ≤
            mailboxMaxBytes) := by
  have outcome := deposit_outcome world.mailbox target blob arrival
  rw [handle_deposit_eq checked] at accepted ⊢
  generalize depositLocked world.mailbox target blob arrival = result at outcome accepted
  cases outcome with
  | early status refused => exact absurd accepted refused
  | late status refused => exact absurd accepted refused
  | failed => cases accepted
  | accepted fits =>
    obtain ⟨used, files⟩ := accepted_within_ceilings target arrival
      (storedLeft world.mailbox target blob arrival) fits
    refine ⟨used, files, ?_⟩
    intro clean
    have made : IdsKnown (roomMade world.mailbox target blob arrival) world.ids :=
      known.loses (loses_room_made world.mailbox target blob arrival)
    have absent := (made.fresh (fresh_id_unused fresh checked)).1
    exact accepted_within_caps (stored_left_all world.mailbox target blob clean) clean absent
      (checked_small checked)

end Costs

section Stuck

variable {m : Mailbox} {box : String} {blob : Bytes} {arrival : DepositArrival}

theorem shed_overflow_stuck {faults : Faults} (stuck : ∀ id, faults.file box id = true)
    (stored : List StoredBlob) (total : Nat) (evicted : List String) :
    shedOverflow faults box stored total m evicted = (m, evicted) := by
  have refused : ∀ id, m.removeBlob faults box id = none := by
    intro id
    unfold Mailbox.removeBlob
    cases m.disk.get box with
    | none => rfl
    | some dir => simp [stuck id]
  induction stored generalizing total with
  | nil => rfl
  | cons oldest rest ih =>
    unfold shedOverflow
    rw [refused]
    dsimp only
    split
    · exact ih total
    · rfl

theorem make_room_of_fits (faults : Faults) {charge : Int} (fits : mailboxFull m charge = false)
    (keepBox : String) : mailboxMakeRoom faults m charge keepBox = (m, []) := by
  unfold mailboxMakeRoom
  cases m.acked.size with
  | zero => rfl
  | succ fuel =>
    unfold makeRoomLoop
    rw [fits]
    rfl

theorem room_possible_of_fits {charge : Int} (fits : mailboxFull m charge = false) :
    mailboxRoomPossible m charge = true := by
  unfold mailboxFull at fits
  simp only [Bool.or_eq_false_iff, decide_eq_false_iff_not] at fits
  unfold mailboxRoomPossible
  simp only [Bool.and_eq_true, Bool.or_eq_true, decide_eq_true_eq]
  omega

theorem deposit_stores (place : m.disk.get box ≠ none ∨ m.boxes < mailboxGlobalMaxBoxes)
    (fits : mailboxFull m (mailboxCharge blob.length) = false) (unshared : arrival.source = "")
    (made : arrival.mkdirFails = false) (written : arrival.writeFails = false)
    (whole : shedOverflow arrival.faults box (storedBlobs m box)
      (totalSize (storedBlobs m box) + blob.length) (storeBlob m box blob arrival) [] =
        (storeBlob m box blob arrival, [])) :
    depositLocked m box blob arrival = (204, storeBlob m box blob arrival) := by
  have roomy : ¬((m.disk.get box).isNone = true ∧ mailboxGlobalMaxBoxes ≤ m.boxes) := by
    rintro ⟨missing, full⟩
    rcases place with there | few
    · exact there (isNone_iff_eq_none.mp missing)
    · omega
  have all : ((storedBlobs m box).filter fun found => decide (found.name ∉ ([] : List String))) =
      storedBlobs m box := by
    simp
  unfold depositLocked depositInto
  rw [if_neg roomy]
  dsimp only
  rw [room_possible_of_fits fits, make_room_of_fits _ fits]
  simp only [Bool.not_true, Bool.false_eq_true, if_false, unshared, ne_eq, not_true_eq_false,
    false_and, sheddingOrder]
  rw [all]
  unfold depositWithRoom
  rw [fits, made, written, whole]
  rfl

theorem stored_blobs_length {dir : BoxDir} (found : m.disk.get box = some dir) :
    (storedBlobs m box).length = dir.blobs.size := by
  unfold storedBlobs
  rw [found]
  simp [OrderedMap.size]

variable {left right : Nat}

theorem digit_char_injective (low : left < 16) (small : right < 16)
    (same : left.digitChar = right.digitChar) : left = right := by
  have all : ∀ one < 16, ∀ other < 16, Nat.digitChar one = Nat.digitChar other → one = other := by
    decide
  exact all left low right small same

theorem hex_digits_injective
    (same : Nat.toDigits 16 left = Nat.toDigits 16 right) : left = right := by
  induction left using Nat.strongRecOn generalizing right with
  | ind left ih =>
    have longer : ∀ value (digit other : Char), [digit] ≠ Nat.toDigits 16 value ++ [other] := by
      intro value digit other equal
      have lengths := congrArg List.length equal
      have positive : 0 < (Nat.toDigits 16 value).length := Nat.length_toDigits_pos
      rw [length_append, length_singleton, length_singleton] at lengths
      omega
    by_cases low : left < 16 <;> by_cases small : right < 16
    · rw [Nat.toDigits_of_lt_base low, Nat.toDigits_of_lt_base small] at same
      exact digit_char_injective low small (List.cons.inj same).1
    · rw [Nat.toDigits_of_lt_base low,
        Nat.toDigits_of_base_le (by decide) (Nat.le_of_not_lt small)] at same
      exact absurd same (longer _ _ _)
    · rw [Nat.toDigits_of_lt_base small,
        Nat.toDigits_of_base_le (by decide) (Nat.le_of_not_lt low)] at same
      exact absurd same.symm (longer _ _ _)
    · rw [Nat.toDigits_of_base_le (by decide) (Nat.le_of_not_lt low),
        Nat.toDigits_of_base_le (by decide) (Nat.le_of_not_lt small)] at same
      obtain ⟨front, last⟩ := append_inj' same rfl
      have higher : left / 16 = right / 16 := ih (left / 16) (by omega) front
      have lower : left % 16 = right % 16 :=
        digit_char_injective (by omega) (by omega) (List.cons.inj last).1
      omega

theorem hex_text_injective (same : hexText left = hexText right) :
    left = right := by
  apply hex_digits_injective
  have digits := congrArg String.toList same
  simpa [hexText] using digits

def fullBox : BoxDir where
  blobs :=
    { entries := (List.range 100).map fun number => (hexText (number + 1), ⟨[0], 1⟩)
      distinct := by
        rw [List.map_map]
        apply List.nodup_range.map
        intro left right same
        exact Nat.succ.inj (hex_text_injective same) }
  acks := none

def fullBoxDisk : MailboxDisk := .collect [(sampleBox, fullBox)]

theorem full_box_times : DirTimes fullBoxDisk (fun _ => 1) 1 := by
  intro box dir found
  refine ⟨Nat.le_refl 1, ?_⟩
  intro id blob listed
  have mem := collect_get_mem found
  rw [mem_singleton] at mem
  obtain ⟨-, rfl⟩ := Prod.mk.inj mem
  obtain ⟨number, -, same⟩ := mem_map.mp (mem_of_get listed)
  obtain ⟨-, rfl⟩ := Prod.mk.inj same
  exact Nat.le_refl 1

def stuckDeposit : DepositArrival :=
  { sampleDeposit sampleBox 1000 with
    source := ""
    faults := ⟨fun _ _ => true, fun _ => true⟩ }

end Stuck

end AwfulChat.Relay
