import AwfulChat.Relay.MailboxRoom

/-!
# The global ceilings of the mailbox

A deposit is refused at the ceilings; an ack index is written without looking at
them. Every other operation only gives back, so the ceilings hold as long as each
device's ack finds room for the index it writes.
-/

namespace AwfulChat.Relay

open Library Library.OrderedMap
open List hiding get_of_mem
open Option hiding get_of_mem

set_option autoImplicit false

section Less

variable {m : Mailbox} {box : String}

def NoMore (before after : Mailbox) : Prop :=
  after.usedBytes ≤ before.usedBytes ∧ after.files ≤ before.files

theorem NoMore.refl (m : Mailbox) : NoMore m m := ⟨Int.le_refl _, Int.le_refl _⟩

theorem NoMore.trans {middle after : Mailbox} (first : NoMore m middle)
    (second : NoMore middle after) : NoMore m after :=
  ⟨second.1.trans first.1, second.2.trans first.2⟩

theorem drop_acks_no_more (sound : Accounted m) (box : String) (ids : List String) :
    NoMore m (dropAcks noFaults m box ids) := by
  obtain ⟨used, files⟩ := drop_acks_less noFaults m box ids
  rw [max_eq_left sound.used_nonneg] at used
  exact ⟨used, files⟩

theorem make_room_loop_no_more (charge : Int) (keepBox : String) (fuel : Nat)
    (sound : Accounted m) (gone : List String) :
    NoMore m (makeRoomLoop noFaults charge keepBox fuel m gone).1 := by
  induction fuel generalizing m gone with
  | zero => exact NoMore.refl m
  | succ fuel ih =>
    unfold makeRoomLoop
    split
    · split
      · exact NoMore.refl m
      · rename_i box id cost rest entries
        have listed : m.acked.get (box, id) = some cost :=
          get_of_mem (by simp [entries])
        obtain ⟨blob, -, charged⟩ := acked_there sound listed
        have positive := mailbox_charge_pos blob.size
        obtain ⟨used, files, -, -⟩ := take_acked_frees sound keepBox listed
        have less : NoMore m (takeAcked noFaults m keepBox box id).1 := by
          unfold NoMore
          omega
        exact less.trans (ih (sound.take_acked keepBox listed) _)
    · exact NoMore.refl m

theorem make_room_no_more (sound : Accounted m) (charge : Int) (keepBox : String) :
    NoMore m (mailboxMakeRoom noFaults m charge keepBox).1 :=
  make_room_loop_no_more charge keepBox _ sound []

theorem evict_acks_no_more (m : Mailbox) (box : String) : NoMore m (evictAcks noFaults m box) := by
  unfold evictAcks
  cases m.disk.get box with
  | none => exact NoMore.refl m
  | some dir =>
    dsimp only
    split
    · exact NoMore.refl m
    · rename_i file acks
      split
      · exact NoMore.refl m
      · have forgets := forget_blob_forgets
          { m with disk := m.disk.set box { dir with acks := none } } box ackIndexName
        have less := give_back_less (mailboxForgetBlob
          { m with disk := m.disk.set box { dir with acks := none } } box ackIndexName)
          (Int.le_of_lt (mailbox_charge_pos file.size))
        rw [forgets.usedBytes, forgets.files] at less
        exact less

theorem evict_no_more (sound : Accounted m) (now : Nat) :
    NoMore m (evictOldestStaleBox noFaults m now).2 := by
  unfold evictOldestStaleBox
  split
  · exact NoMore.refl m
  rename_i oldest lastDeposit rest entries
  split
  · have cuts := evict_blobs_cuts sound (listed_there m oldest)
    have cleared : NoMore m (evictAcks noFaults
        (evictBlobs noFaults oldest (listedBlobs m oldest) m) oldest) :=
      NoMore.trans cuts.less (evict_acks_no_more _ oldest)
    dsimp only
    split
    · exact cleared
    · split
      · exact cleared
      · rename_i removed gone
        obtain ⟨dir, -, -, -, rfl⟩ := removed_box_eq gone
        exact cleared
  · exact NoMore.refl m

theorem sweep_no_more (sound : Accounted m) (now : Nat) (box : String) :
    NoMore m (sweepBox noFaults now m box) := by
  obtain ⟨cuts, -⟩ := sweep_blobs_cuts now (listed_there m box) []
  have swept := cuts.accounted sound
  unfold sweepBox
  dsimp only
  generalize sweepBlobs noFaults now box (listedBlobs m box) m [] = result at cuts swept
  have trimmed : NoMore m
      (if 0 < (readAckIndex result.1 box).size ∧
          (pruneAckIndex (readAckIndex result.1 box) result.2).size <
            (readAckIndex result.1 box).size then
        writeAckIndex noFaults result.1 box (pruneAckIndex (readAckIndex result.1 box) result.2)
      else result.1) := by
    split
    · rename_i listed
      obtain ⟨used, files⟩ := write_kept_less noFaults result.1 box
        (fun id => decide (id ∈ result.2)) listed.1
      rw [max_eq_left swept.used_nonneg] at used
      exact NoMore.trans cuts.less ⟨used, files⟩
    · exact cuts.less
  split
  · exact trimmed
  · rename_i removed gone
    obtain ⟨dir, -, -, -, shape⟩ := removed_box_eq gone
    rw [shape]
    exact trimmed

theorem plain_ack_no_more (sound : Accounted m) (box : String) (ids : List String) :
    NoMore m (plainAck noFaults m box ids) := by
  have cuts := ack_remove_cuts sound box ids
  have dropped := drop_acks_no_more (cuts.accounted sound) box ids
  unfold plainAck
  dsimp only
  obtain ⟨used, files, -, -⟩ := remove_empty_box_counters noFaults
    (dropAcks noFaults (ids.foldl (ackRemoveOne noFaults box) m) box ids) box
  unfold NoMore
  rw [used, files]
  exact NoMore.trans cuts.less dropped

end Less

section Ceilings

variable {m : Mailbox} {box : String} {world next : MailboxWorld} {event : MailboxEvent}

def WithinCeilings (m : Mailbox) : Prop :=
  m.usedBytes ≤ mailboxGlobalMaxBytes ∧ m.files ≤ mailboxGlobalMaxFiles

theorem NoMore.within {after : Mailbox} (less : NoMore m after) (within : WithinCeilings m) :
    WithinCeilings after :=
  ⟨less.1.trans within.1, less.2.trans within.2⟩

/-- The index a device's ack writes fits under the ceilings. -/
def indexFits (m : Mailbox) (box device : String) (ids : List String) : Bool :=
  match m.disk.get box with
  | none => true
  | some dir =>
    let index := (ackedState m box device ids).2
    decide (index.size = 0) ||
      (decide (m.usedBytes + (mailboxCharge index.jsonSize - acksCharge dir.acks) ≤
          mailboxGlobalMaxBytes) &&
        (dir.acks.isSome || decide (m.files < mailboxGlobalMaxFiles)))

/-- A device's ack finds room for the index it writes. -/
def AckHasRoom (world : MailboxWorld) : MailboxEvent → Prop
  | .ack arrival => ∀ box device ids, arrival.checked = .ok (box, device, ids) → device ≠ "" →
      indexFits world.mailbox box device ids = true
  | _ => True

theorem AckState.counters {state : Mailbox × AckIndex} (held : AckState m box state)
    (sound : Accounted m) : state.1.usedBytes = m.usedBytes ∧ state.1.files = m.files := by
  rw [held.counted.used, held.counted.files, sound.used, sound.files, held.disk]
  exact ⟨rfl, rfl⟩

theorem device_ack_within (sound : Accounted m) (within : WithinCeilings m) {device : String}
    {ids : List String} (fits : indexFits m box device ids = true) :
    WithinCeilings (deviceAck noFaults m box device ids) := by
  have held := acked_state_sound sound box device ids
  obtain ⟨used, files⟩ := held.counters sound
  unfold indexFits at fits
  unfold deviceAck
  dsimp only
  cases found : m.disk.get box with
  | none =>
    have missing : (ackedState m box device ids).1.disk.get box = none := by
      rw [held.disk, found]
    unfold writeAckIndex
    rw [missing]
    unfold WithinCeilings
    rw [used, files]
    exact within
  | some dir =>
    have there : (ackedState m box device ids).1.disk.get box = some dir := by
      rw [held.disk, found]
    have charged := acks_charge_nonneg dir.acks
    rw [found] at fits
    dsimp only at fits
    rw [write_index_eq there]
    unfold WithinCeilings at within ⊢
    split
    · split
      · obtain ⟨less, fewer⟩ := give_back_less
          { (ackedState m box device ids).1 with
            disk := (ackedState m box device ids).1.disk.set box { dir with acks := none } }
          charged
        dsimp only at less fewer
        omega
      · omega
    · rename_i some_listed
      simp only [some_listed, decide_false, Bool.false_or, Bool.and_eq_true, Bool.or_eq_true,
        decide_eq_true_eq] at fits
      obtain ⟨bytes, file⟩ := fits
      have positive : 0 ≤ mailboxGlobalMaxBytes := by decide
      dsimp only
      rw [used, files]
      constructor
      · split <;> omega
      · split
        · exact within.2
        · rename_i unwritten
          have below := file.resolve_left unwritten
          omega

theorem WithinCeilings.deposit (within : WithinCeilings m) (sound : Accounted m)
    {arrival : DepositArrival} (clean : arrival.faults = noFaults)
    {ids : List (String × String)} (known : IdsKnown m ids)
    (unused : ∀ box blob, arrival.checked = .ok (box, blob) → (box, arrival.id) ∉ ids) :
    WithinCeilings (handleMailboxDeposit m arrival).2 := by
  cases checked : arrival.checked with
  | error status =>
    unfold handleMailboxDeposit
    rw [checked]
    exact within
  | ok request =>
    obtain ⟨target, blob⟩ := request
    have base : NoMore m (roomBase m target arrival) := by
      unfold roomBase
      rw [clean]
      split
      · exact evict_no_more sound arrival.now
      · exact NoMore.refl m
    have made : NoMore m (roomMade m target blob arrival) := by
      apply base.trans
      unfold roomMade
      rw [clean]
      exact make_room_no_more (sound.room_base target clean) _ target
    have outcome := deposit_outcome m target blob arrival
    rw [handle_deposit_eq checked]
    generalize depositLocked m target blob arrival = result at outcome
    cases outcome with
    | early status => exact base.within within
    | late status => exact made.within within
    | failed =>
      have left : IdsKnown (roomMade m target blob arrival) ids :=
        known.loses (loses_room_made m target blob arrival)
      rw [failed_write_eq clean (left.fresh (unused target blob checked)).1]
      exact made.within within
    | accepted fits => exact accepted_within_ceilings target arrival _ fits

theorem WithinCeilings.step (within : WithinCeilings world.mailbox) (sound : MailboxSound world)
    (clean : event.faults = noFaults) (room : AckHasRoom world event)
    (stepped : mailboxStep world event = some next) : WithinCeilings next.mailbox := by
  rcases mailbox_step_cases stepped with ⟨arrival, rfl, -, -, -, -, fresh, rfl⟩ |
    ⟨arrival, rfl, rfl⟩ | ⟨faults, now, box, rfl, rfl⟩ | ⟨faults, now, rfl, -, rfl⟩ |
    ⟨faults, charge, keepBox, rfl, rfl⟩
  · rw [deposit_step_mailbox]
    apply within.deposit sound.accounted clean sound.known
    intro box blob checked
    exact fresh_id_unused fresh checked
  · change arrival.faults = noFaults at clean
    rw [(ack_step_mailbox world arrival).1]
    unfold handleMailboxAck
    rw [clean]
    split
    · exact within
    · rename_i box device ids checked
      split
      · rename_i named
        exact device_ack_within sound.accounted within (room box device ids checked named)
      · exact (plain_ack_no_more sound.accounted box ids).within within
  · change faults = noFaults at clean
    rw [clean]
    exact (sweep_no_more sound.accounted now box).within within
  · change faults = noFaults at clean
    rw [clean]
    exact (evict_no_more sound.accounted now).within within
  · change faults = noFaults at clean
    rw [clean]
    exact (make_room_no_more sound.accounted charge keepBox).within within

end Ceilings

section Flood

def hexPad : Nat → Nat → List Char
  | 0, _ => []
  | width + 1, value => Nat.digitChar (value % 16) :: hexPad width (value / 16)

def floodBox (number : Nat) : String := String.ofList (hexPad 64 (number / 64))

def floodDeposit (number : Nat) : DepositArrival :=
  { sampleDeposit (floodBox number) (number + 1) with source := "" }

def flood (count : Nat) : List MailboxEvent :=
  (List.range count).map fun number => .deposit (floodDeposit number)

theorem hex_pad_length (width value : Nat) : (hexPad width value).length = width := by
  induction width generalizing value with
  | zero => rfl
  | succ width ih => simp [hexPad, ih]

theorem hex_pad_hex (width value : Nat) : (hexPad width value).all isHex = true := by
  have digits : ∀ digit < 16, isHex (Nat.digitChar digit) = true := by decide
  induction width generalizing value with
  | zero => rfl
  | succ width ih =>
    rw [hexPad, all_cons, ih, digits _ (Nat.mod_lt _ (by decide))]
    rfl

theorem hex_pad_injective {width left right : Nat} (low : left < 16 ^ width)
    (small : right < 16 ^ width) (same : hexPad width left = hexPad width right) :
    left = right := by
  induction width generalizing left right with
  | zero => omega
  | succ width ih =>
    obtain ⟨digit, rest⟩ := List.cons.inj same
    have last := digit_char_injective (Nat.mod_lt _ (by decide)) (Nat.mod_lt _ (by decide)) digit
    have front : left / 16 = right / 16 := by
      apply ih _ _ rest <;> rw [Nat.div_lt_iff_lt_mul (by decide), ← Nat.pow_succ]
      · exact low
      · exact small
    omega

theorem flood_box_valid (number : Nat) : mailboxBox (floodBox number) = true := by
  simp [mailboxBox, floodBox, hex_pad_length, hex_pad_hex]

theorem flood_box_injective {left right : Nat} (low : left < 65536) (small : right < 65536)
    (same : floodBox left = floodBox right) : left / 64 = right / 64 := by
  have digits : hexPad 64 (left / 64) = hexPad 64 (right / 64) := by
    simpa [floodBox] using congrArg String.toList same
  have wide : (65536 : Nat) ≤ 16 ^ 64 := by decide
  exact hex_pad_injective (by omega) (by omega) digits

theorem flood_checked (number : Nat) :
    (floodDeposit number).checked = .ok (floodBox number, [1]) := by
  have decoded : decodeBase64 false "AQ==".toList = some [1] := by decide +kernel
  unfold DepositArrival.checked floodDeposit sampleDeposit
  simp only [Bool.not_true, Bool.false_eq_true, if_false]
  rw [flood_box_valid, decoded]
  rfl

structure Flooded (world : MailboxWorld) (count : Nat) : Prop where
  clock : world.clock ≤ count
  ids : ∀ box id, (box, id) ∈ world.ids → ∃ number < count, id = hexText (number + 1)
  used : world.mailbox.usedBytes = 4096 * count
  files : world.mailbox.files = count
  boxes : world.mailbox.boxes ≤ ((count + 63) / 64 : Nat)
  blobs : ∀ box id blob, world.mailbox.blobAt box id = some blob →
    ∃ number < count, box = floodBox number ∧ id = hexText (number + 1) ∧ blob.size = 1
  there : ∀ number < count, world.mailbox.blobAt (floodBox number) (hexText (number + 1)) ≠ none
  acks : ∀ box dir, world.mailbox.disk.get box = some dir → dir.acks = none

variable {world next : MailboxWorld} {count : Nat}

theorem total_size_ones {stored : List StoredBlob} (ones : ∀ found ∈ stored, found.size = 1) :
    totalSize stored = stored.length := by
  induction stored with
  | nil => rfl
  | cons first rest ih =>
    have later := ih fun found mem => ones found (mem_cons_of_mem _ mem)
    have one := ones first (by simp)
    simp only [totalSize, map_cons, sum_cons, length_cons] at later ⊢
    omega

theorem Flooded.few_stored (flooded : Flooded world count) (below : count < 65536) :
    (storedBlobs world.mailbox (floodBox count)).length ≤ 64 ∧
      totalSize (storedBlobs world.mailbox (floodBox count)) =
        (storedBlobs world.mailbox (floodBox count)).length := by
  have stored := stored_blobs_there world.mailbox (floodBox count)
  constructor
  · have within : (storedBlobs world.mailbox (floodBox count)).map StoredBlob.name ⊆
        (List.range 64).map fun place => hexText (64 * (count / 64) + place + 1) := by
      intro name mem
      obtain ⟨found, listed, rfl⟩ := mem_map.mp mem
      obtain ⟨blob, here, -⟩ := stored.2 found listed
      obtain ⟨number, earlier, same, named, -⟩ := flooded.blobs _ _ _ here
      have block := flood_box_injective below (by omega) same
      refine mem_map.mpr ⟨number % 64, mem_range.mpr (Nat.mod_lt _ (by decide)), ?_⟩
      rw [named, block, Nat.div_add_mod]
    have few := (subperm_of_subset stored.1 within).length_le
    simpa using few
  · apply total_size_ones
    intro found listed
    obtain ⟨blob, here, size⟩ := stored.2 found listed
    obtain ⟨number, -, -, -, one⟩ := flooded.blobs _ _ _ here
    rw [size, one]

theorem shed_overflow_small {m : Mailbox} {box : String} (faults : Faults)
    {stored : List StoredBlob} {total : Nat} (few : stored.length + 1 ≤ mailboxMaxMsgs)
    (light : total ≤ mailboxMaxBytes) :
    shedOverflow faults box stored total m [] = (m, []) := by
  cases stored with
  | nil => rfl
  | cons first rest =>
    unfold shedOverflow
    rw [if_neg]
    simp only [length_cons] at few
    omega

theorem Flooded.deposit (flooded : Flooded world count) (below : count < 65536) :
    handleMailboxDeposit world.mailbox (floodDeposit count) =
      (204, storeBlob world.mailbox (floodBox count) [1] (floodDeposit count)) := by
  obtain ⟨few, light⟩ := flooded.few_stored below
  have used := flooded.used
  have files := flooded.files
  have boxes := flooded.boxes
  rw [handle_deposit_eq (flood_checked count)]
  apply deposit_stores _ _ rfl rfl rfl
  · apply shed_overflow_small
    · unfold mailboxMaxMsgs
      omega
    · rw [light, length_singleton]
      unfold mailboxMaxBytes
      omega
  · right
    unfold mailboxGlobalMaxBoxes mailboxGlobalMaxFiles mailboxGlobalMaxBytes mailboxBlockSize
    omega
  · have charge : mailboxCharge ([1] : Bytes).length = 4096 := by decide
    unfold mailboxFull
    rw [charge, used, files]
    simp only [Bool.or_eq_false_iff, decide_eq_false_iff_not]
    unfold mailboxGlobalMaxFiles mailboxGlobalMaxBytes mailboxBlockSize
    omega

theorem store_blob_disk (m : Mailbox) (box : String) (blob : Bytes) (arrival : DepositArrival) :
    (storeBlob m box blob arrival).boxes =
        (if (m.disk.get box).isNone then m.boxes + 1 else m.boxes) ∧
      ∀ other dir, (storeBlob m box blob arrival).disk.get other = some dir →
        dir.acks = (depositDir m other).acks := by
  rw [store_blob_eq]
  have shape : ∀ other dir, (writtenBlob m box blob arrival).disk.get other = some dir →
      dir.acks = (depositDir m other).acks := by
    intro other dir found
    unfold writtenBlob at found
    dsimp only at found
    rw [get_set] at found
    split_ifs at found with same
    · cases found
      rw [same]
    · simp [depositDir, found]
  split <;> exact ⟨rfl, shape⟩

theorem Flooded.stored (flooded : Flooded world count) (below : count < 65536) :
    Flooded (depositStep world (floodDeposit count)) (count + 1) := by
  have stepped : depositStep world (floodDeposit count) =
      { world with
        mailbox := storeBlob world.mailbox (floodBox count) [1] (floodDeposit count)
        clock := count + 1
        ids := (floodBox count, hexText (count + 1)) :: world.ids
        mail := (floodBox count, hexText (count + 1)) :: world.mail } := by
    unfold depositStep
    rw [flooded.deposit below, flood_checked]
    rfl
  have id : (floodDeposit count).id = hexText (count + 1) := rfl
  obtain ⟨used, files⟩ := store_blob_counters world.mailbox (floodBox count) [1] (floodDeposit count)
  obtain ⟨boxes, acks⟩ := store_blob_disk world.mailbox (floodBox count) [1] (floodDeposit count)
  rw [stepped]
  refine ⟨Nat.le_refl _, ?_, ?_, ?_, ?_, ?_, ?_, ?_⟩
  · intro box id mem
    rcases mem_cons.mp mem with same | old
    · exact ⟨count, by omega, (Prod.mk.inj same).2⟩
    · obtain ⟨number, earlier, named⟩ := flooded.ids box id old
      exact ⟨number, by omega, named⟩
  · have charge : mailboxCharge ([1] : Bytes).length = 4096 := by decide
    dsimp only
    rw [used, charge, flooded.used]
    omega
  · dsimp only
    rw [files, flooded.files]
    omega
  · have before := flooded.boxes
    dsimp only
    rw [boxes]
    split
    · rename_i missing
      have start : count % 64 = 0 := by
        by_contra inside
        have same : floodBox (count - 1) = floodBox count := by
          have block : (count - 1) / 64 = count / 64 := by omega
          unfold floodBox
          rw [block]
        apply flooded.there (count - 1) (by omega)
        rw [same]
        simp [Mailbox.blobAt, isNone_iff_eq_none.mp missing]
      omega
    · omega
  · intro box name blob found
    dsimp only at found
    rw [store_blob_at, id] at found
    split_ifs at found with same
    · obtain ⟨rfl, rfl⟩ := Prod.mk.inj same
      cases found
      exact ⟨count, by omega, rfl, rfl, rfl⟩
    · obtain ⟨number, earlier, shape⟩ := flooded.blobs box name blob found
      exact ⟨number, by omega, shape⟩
  · intro number earlier
    dsimp only
    rw [store_blob_at, id]
    split_ifs with same
    · simp
    · apply flooded.there
      have other : number ≠ count := by
        intro equal
        exact same (by rw [equal])
      omega
  · intro box dir found
    rw [acks box dir found]
    unfold depositDir
    cases old : world.mailbox.disk.get box with
    | none => rfl
    | some dir => exact flooded.acks box dir old

theorem Flooded.step (flooded : Flooded world count) :
    mailboxStep world (.deposit (floodDeposit count)) =
      some (depositStep world (floodDeposit count)) := by
  have clock := flooded.clock
  have fresh : freshId world (floodDeposit count) = true := by
    unfold freshId
    rw [flood_checked]
    apply decide_eq_true
    intro mem
    obtain ⟨number, earlier, same⟩ := flooded.ids _ _ mem
    have equal := hex_text_injective same
    simp only [floodDeposit, sampleDeposit] at equal
    omega
  simp only [mailboxStep]
  rw [if_pos]
  refine ⟨?_, fresh⟩
  simp only [floodDeposit, sampleDeposit]
  omega

theorem flood_run (count : Nat) (within : count ≤ 65536) :
    ∃ world, run mailboxStep (bootWorld .empty (fun _ => 0) 0) (flood count) = some world ∧
      Flooded world count := by
  induction count with
  | zero =>
    refine ⟨bootWorld .empty (fun _ => 0) 0, rfl, Nat.le_refl 0, ?_, by decide +kernel,
      by decide +kernel, by decide +kernel, ?_, ?_, ?_⟩
    · nofun
    · intro box id blob found
      have missing := (boot_blob_at .empty (fun _ => 0) box id).symm.trans found
      simp at missing
    · intro number earlier
      omega
    · intro box dir found
      have missing := (congrArg (OrderedMap.get · box) (boot_disk .empty fun _ => 0)).symm.trans found
      simp at missing
  | succ count ih =>
    obtain ⟨world, ran, flooded⟩ := ih (by omega)
    refine ⟨depositStep world (floodDeposit count), ?_, flooded.stored (by omega)⟩
    unfold flood at ran ⊢
    rw [range_succ, map_append, run_append, ran, bind_some, map_singleton]
    simp only [run, flooded.step, bind_some]

theorem first_ack_adds_file {m : Mailbox} {box device id : String} {dir : BoxDir}
    (found : m.disk.get box = some dir) (unacked : dir.acks = none)
    (there : m.blobAt box id ≠ none) :
    (deviceAck noFaults m box device [id]).files = m.files + 1 := by
  obtain ⟨blob, listed⟩ := ne_none_iff_exists'.mp there
  have index : readAckIndex m box = .empty := by simp [readAckIndex, found, unacked]
  have none_yet : (pruneAckIndex (readAckIndex m box) (aliveBlobs m box)).get id = none := by
    rw [index]
    unfold pruneAckIndex
    rw [get_keep]
    simp
  have acked : ackedState m box device [id] =
      (mailboxNoteAcked m box id (mailboxCharge blob.size),
        (pruneAckIndex (readAckIndex m box) (aliveBlobs m box)).set id [device]) := by
    simp [ackedState, ackOne, listed, none_yet, mailboxMaxAckDevices]
  have files : (mailboxNoteAcked m box id (mailboxCharge blob.size)).files = m.files := by
    unfold mailboxNoteAcked
    split <;> rfl
  have dirs : (mailboxNoteAcked m box id (mailboxCharge blob.size)).disk.get box = some dir := by
    rw [(note_acked_disk m box id _).1, found]
  unfold deviceAck
  rw [acked]
  dsimp only
  rw [write_index_eq dirs, if_neg, unacked]
  · dsimp only
    rw [files]
    rfl
  · intro empty
    have gone := size_eq_zero.mp empty id
    rw [get_set, if_pos rfl] at gone
    cases gone

end Flood

end AwfulChat.Relay
