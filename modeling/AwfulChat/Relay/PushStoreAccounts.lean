import AwfulChat.Library.Totals
import AwfulChat.Relay.PushStoreBooks

/-!
# The push store's books and the disk

A file comes and goes together with its place in the order. A write that fails after a box was
shed for it, or that loses the file it was to replace, or a file that cannot be read, parts them.
-/

namespace AwfulChat.Relay

open Library Library.OrderedMap
open List hiding get_of_mem
open Option hiding get_of_mem

set_option autoImplicit false

namespace Push

variable {isProxyClassAddr : Address → Bool}

/-- What the store promises after every operation. -/
structure Accounted (isProxyClassAddr : Address → Bool) (s : PushStore) : Prop where
  ledger : Ledger isProxyClassAddr s
  counted : s.pushBoxes = s.disk.size
  onDisk : ∀ box, box ∈ s.listed ↔ s.disk.has box = true
  few : s.pushBoxes ≤ pushMaxBoxes
  devices : ∀ box file, s.disk.get box = some file →
    (file.devices.getD OrderedMap.empty).size ≤ pushMaxDevices

/-! ## Devices -/

theorem older_device_found (entries : List (Device × PushSubscription))
    (best : Device × PushSubscription) :
    ∃ found ∈ best :: entries, entries.foldl olderDevice (some best) = some found := by
  induction entries generalizing best with
  | nil => exact ⟨best, by simp, rfl⟩
  | cons entry rest ih =>
    rw [foldl_cons]
    by_cases older : entry.2.ts < best.2.ts
    · obtain ⟨found, place, folded⟩ := ih entry
      refine ⟨found, mem_cons_of_mem _ place, ?_⟩
      simpa only [olderDevice, if_pos older] using folded
    · obtain ⟨found, place, folded⟩ := ih best
      refine ⟨found, ?_, ?_⟩
      · rcases mem_cons.mp place with here | later
        · rw [here]
          exact mem_cons_self
        · exact mem_cons_of_mem _ (mem_cons_of_mem _ later)
      · simpa only [olderDevice, if_neg older] using folded

variable {s : PushStore} {devices : Devices} {sources : List PushSource} {box : Box}

theorem oldest_device_found (nonempty : devices.size ≠ 0) :
    ∃ device, oldestDevice devices = some device ∧ devices.get device ≠ none := by
  cases entries : devices.entries with
  | nil => exact absurd (by rw [OrderedMap.size, entries]; rfl) nonempty
  | cons first rest =>
    obtain ⟨found, place, folded⟩ := older_device_found rest first
    refine ⟨found.1, ?_, ?_⟩
    · unfold oldestDevice
      rw [entries]
      exact congrArg (Option.map Prod.fst) folded
    · have mem : (found.1, found.2) ∈ devices.entries := by
        rw [entries]
        exact place
      rw [get_of_mem mem]
      simp

theorem device_room (device : Device) (subscription : PushSubscription)
    (few : devices.size ≤ pushMaxDevices) :
    ((makeDeviceRoom devices device).set device subscription).size ≤ pushMaxDevices := by
  unfold makeDeviceRoom
  split_ifs with full
  · rw [Bool.and_eq_true, Bool.not_eq_true', decide_eq_true_eq] at full
    have nonempty : devices.size ≠ 0 := by
      have positive : 0 < pushMaxDevices := by decide
      omega
    obtain ⟨oldest, found, present⟩ := oldest_device_found nonempty
    obtain ⟨subscribed, stored⟩ := ne_none_iff_exists'.mp present
    have fewer := size_delete_of_present stored
    have absent : (devices.delete oldest).get device = none := by
      have missing : devices.get device = none := by
        simpa [OrderedMap.has] using full.1
      rw [get_delete, missing, ite_self]
    rw [found]
    show ((devices.delete oldest).set device subscription).size ≤ pushMaxDevices
    rw [size_set_of_absent _ absent]
    omega
  · by_cases present : devices.get device = none
    · have room : devices.size < pushMaxDevices := by
        simpa [OrderedMap.has, present] using full
      rw [size_set_of_absent _ present]
      exact room
    · rw [size_set_of_present _ present]
      exact few

theorem set_size_pos (devices : Devices) (device : Device) (subscription : PushSubscription) :
    (devices.set device subscription).size ≠ 0 := by
  intro none
  have missing := size_eq_zero.mp none device
  rw [get_set_self] at missing
  cases missing

theorem remove_all_size (removed : List Device) (devices : Devices) :
    (removed.foldl (fun subs device => subs.delete device) devices).size ≤ devices.size := by
  induction removed generalizing devices with
  | nil => exact le_refl _
  | cons device rest ih =>
    rw [foldl_cons]
    apply (ih _).trans
    exact length_filter_le _ _

theorem remove_all_get (removed : List Device) (devices : Devices) (device : Device) :
    (removed.foldl (fun subs device => subs.delete device) devices).get device =
      if device ∈ removed then none else devices.get device := by
  induction removed generalizing devices with
  | nil => simp
  | cons first rest ih =>
    rw [foldl_cons, ih, get_delete]
    by_cases same : device = first <;> simp [same]

/-! ## The disk -/

namespace PushStore

theorem has_get {s : PushStore} {box : Box} (present : s.disk.has box = true) :
    ∃ file, s.disk.get box = some file := isSome_iff_exists.mp present

theorem lacks_get {s : PushStore} {box : Box} (absent : s.disk.has box = false) :
    s.disk.get box = none := by
  simpa [OrderedMap.has] using absent

end PushStore

theorem read_few (accounted : Accounted isProxyClassAddr s) (box : Box)
    (readable : Bool) : (s.read box readable).1.size ≤ pushMaxDevices := by
  unfold PushStore.read
  split
  · exact Nat.zero_le _
  · rename_i file stored
    split_ifs
    · exact accounted.devices box file stored
    · exact Nat.zero_le _

/-- A file goes, and its place in the order with it. -/
def PushStore.forget (s : PushStore) (box : Box) : PushStore :=
  { s with disk := s.disk.delete box, pushBoxes := s.pushBoxes - 1 }.pushUntrack box

theorem untrack_disk (s : PushStore) (box : Box) :
    (s.pushUntrack box).disk = s.disk ∧ (s.pushUntrack box).pushBoxes = s.pushBoxes := by
  unfold PushStore.pushUntrack
  cases s.pushOrderAt.get box <;> exact ⟨rfl, rfl⟩

theorem track_disk (s : PushStore) (box : Box) (sources : List PushSource) (created : Bool) :
    (s.pushTrack box sources created).disk = s.disk ∧
      (s.pushTrack box sources created).pushBoxes = s.pushBoxes := by
  unfold PushStore.pushTrack
  cases s.pushOrderAt.get box <;> exact ⟨rfl, rfl⟩

theorem Accounted.forget (accounted : Accounted isProxyClassAddr s)
    (present : s.disk.has box = true) :
    Accounted isProxyClassAddr (s.forget box) ∧ (s.forget box).disk = s.disk.delete box ∧
      (s.forget box).pushBoxes + 1 = s.pushBoxes ∧
      ∀ source, (s.forget box).heldBy source ≤ s.heldBy source := by
  obtain ⟨file, stored⟩ := PushStore.has_get present
  have fewer := size_delete_of_present stored
  have counted := accounted.counted
  have books : Ledger isProxyClassAddr
      { s with disk := s.disk.delete box, pushBoxes := s.pushBoxes - 1 } :=
    accounted.ledger.of_books rfl rfl rfl rfl rfl rfl
  obtain ⟨ledger, listed, held⟩ := books.untrack box
  obtain ⟨disk, boxes⟩ := untrack_disk
    { s with disk := s.disk.delete box, pushBoxes := s.pushBoxes - 1 } box
  have left : (s.forget box).pushBoxes = s.pushBoxes - 1 := boxes
  refine ⟨?_, disk, by omega, held⟩
  constructor
  case ledger => exact ledger
  case counted =>
    rw [left, show (s.forget box).disk = s.disk.delete box from disk]
    omega
  case onDisk =>
    intro other
    rw [show (s.forget box).disk = s.disk.delete box from disk]
    rw [show other ∈ (s.forget box).listed ↔ other ≠ box ∧ other ∈ s.listed from listed other]
    rw [accounted.onDisk other]
    unfold OrderedMap.has
    rw [get_delete]
    split_ifs with same <;> simp [same]
  case few =>
    rw [left]
    exact (Nat.sub_le _ _).trans accounted.few
  case devices =>
    rw [show (s.forget box).disk = s.disk.delete box from disk]
    intro other kept placed
    rw [get_delete] at placed
    split_ifs at placed
    exact accounted.devices other kept placed

theorem Accounted.rewrite (now : Int) (accounted : Accounted isProxyClassAddr s)
    (present : s.disk.has box = true) (few : devices.size ≤ pushMaxDevices) :
    Accounted isProxyClassAddr { s with disk := s.disk.set box ⟨some devices, now⟩ } := by
  obtain ⟨old, stored⟩ := PushStore.has_get present
  have same : (s.disk.set box ⟨some devices, now⟩).size = s.disk.size :=
    size_set_of_present _ (by rw [stored]; simp)
  constructor
  case ledger => exact accounted.ledger.of_books rfl rfl rfl rfl rfl rfl
  case counted => exact accounted.counted.trans same.symm
  case onDisk =>
    intro other
    show other ∈ s.listed ↔ _
    rw [accounted.onDisk other]
    unfold OrderedMap.has
    rw [get_set]
    split_ifs with here
    · rw [here, stored]
      simp
    · rfl
  case few => exact accounted.few
  case devices =>
    intro other kept placed
    change (s.disk.set box ⟨some devices, now⟩).get other = some kept at placed
    rw [get_set] at placed
    split_ifs at placed with here
    · cases placed
      exact few
    · exact accounted.devices other kept placed

theorem Accounted.track_stored (accounted : Accounted isProxyClassAddr s)
    (present : s.disk.has box = true) (sources : List PushSource) (created : Bool) :
    Accounted isProxyClassAddr (s.pushTrack box sources created) := by
  obtain ⟨id, found⟩ := accounted.ledger.mem_listed.mp ((accounted.onDisk box).mpr present)
  obtain ⟨ledger, listed⟩ := accounted.ledger.track_again found sources created
  obtain ⟨disk, boxes⟩ := track_disk s box sources created
  constructor
  case ledger => exact ledger
  case counted =>
    rw [boxes, disk]
    exact accounted.counted
  case onDisk =>
    intro other
    rw [disk, listed other]
    exact accounted.onDisk other
  case few =>
    rw [boxes]
    exact accounted.few
  case devices =>
    rw [disk]
    exact accounted.devices

theorem Accounted.add (now : Int) (accounted : Accounted isProxyClassAddr s)
    (absent : s.disk.has box = false) (few : devices.size ≤ pushMaxDevices)
    (room : s.pushBoxes < pushMaxBoxes) (charge : Charge isProxyClassAddr sources)
    (free : ∀ source ∈ sources, s.heldBy source < sourceLimit source) :
    Accounted isProxyClassAddr
      ({ s with disk := s.disk.set box ⟨some devices, now⟩, pushBoxes := s.pushBoxes + 1 }.pushTrack box sources
        true) := by
  have missing := PushStore.lacks_get absent
  have more := size_set_of_absent (⟨some devices, now⟩ : BoxFile) missing
  have unlisted : s.pushOrderAt.get box = none := by
    cases found : s.pushOrderAt.get box with
    | none => rfl
    | some id =>
      have present := (accounted.onDisk box).mp (accounted.ledger.mem_listed.mpr ⟨id, found⟩)
      rw [absent] at present
      cases present
  have books : Ledger isProxyClassAddr
      { s with disk := s.disk.set box ⟨some devices, now⟩, pushBoxes := s.pushBoxes + 1 } :=
    accounted.ledger.of_books rfl rfl rfl rfl rfl rfl
  obtain ⟨ledger, listed⟩ := books.track_new unlisted charge (fun _ => free)
  obtain ⟨disk, boxes⟩ := track_disk
    { s with disk := s.disk.set box ⟨some devices, now⟩, pushBoxes := s.pushBoxes + 1 } box sources true
  constructor
  case ledger => exact ledger
  case counted =>
    rw [boxes, disk]
    show s.pushBoxes + 1 = (s.disk.set box ⟨some devices, now⟩).size
    rw [more, accounted.counted]
  case onDisk =>
    intro other
    rw [disk, listed]
    show other ∈ s.listed ++ [box] ↔ (s.disk.set box ⟨some devices, now⟩).has other = true
    rw [mem_append, mem_singleton, accounted.onDisk other]
    unfold OrderedMap.has
    rw [get_set]
    split_ifs with here <;> simp [here]
  case few =>
    rw [boxes]
    exact room
  case devices =>
    rw [disk]
    intro other kept placed
    change (s.disk.set box ⟨some devices, now⟩).get other = some kept at placed
    rw [get_set] at placed
    split_ifs at placed with here
    · cases placed
      exact few
    · exact accounted.devices other kept placed

/-! ## Steps -/

theorem read_known {readable : Bool} :
    (s.read box readable).2 = true ↔ s.disk.has box = true ∧ readable = true := by
  unfold PushStore.read OrderedMap.has
  cases s.disk.get box with
  | none => simp
  | some file => cases readable <;> simp

theorem write_some (s : PushStore) (box : Box) (nonempty : devices.size ≠ 0) (existed : Bool)
    (write : WriteOutcome) (now : Int) :
    s.writePushBox box devices existed write now =
      match write with
      | .kept => (s, true)
      | .lost => ({ s with disk := s.disk.delete box }, true)
      | .written =>
        ({ s with
          disk := s.disk.set box ⟨some devices, now⟩
          pushBoxes := if existed then s.pushBoxes else s.pushBoxes + 1 }, false) := by
  unfold PushStore.writePushBox
  cases write <;> exact if_neg nonempty

/-- A step keeps the books, and a subscribe that did not take leaves the store as it was. -/
structure Kept (isProxyClassAddr : Address → Bool) (s : PushStore) (out : PushStore × Answer) :
    Prop where
  accounted : Accounted isProxyClassAddr out.1
  refused : out.2 ≠ .noContent → out.1 = s

section

variable (accounted : Accounted isProxyClassAddr s)
include accounted

theorem subscribe_known {req : Subscribe} (present : s.disk.has req.box = true)
    (readable : req.readable = true) (write : req.write ≠ .lost) :
    Kept isProxyClassAddr s (s.handlePushSubscribe req sources) := by
  have known : (s.read req.box req.readable).2 = true := read_known.mpr ⟨present, readable⟩
  have few := device_room req.device req.subscription
    (read_few accounted req.box req.readable)
  simp only [PushStore.handlePushSubscribe, known, Bool.true_eq_false, false_and, if_false, if_true]
  rw [write_some _ _ (set_size_pos _ _ _)]
  cases outcome : req.write with
  | lost => exact absurd outcome write
  | kept =>
    constructor
    case accounted => simpa using accounted
    case refused => simp
  | written =>
    have stored := accounted.rewrite req.now present few
    have there : (s.disk.set req.box ⟨some ((makeDeviceRoom (s.read req.box req.readable).1
        req.device).set req.device req.subscription), req.now⟩).has req.box = true := by
      unfold OrderedMap.has
      rw [get_set_self]
      rfl
    constructor
    case accounted => exact stored.track_stored there sources false
    case refused => simp

theorem make_room :
    if s.pushBoxes < pushMaxBoxes then s.makeRoom = some s
    else ∃ element rest, s.pushOrder = element :: rest ∧ s.disk.has element.value.box = true ∧
      s.makeRoom = some (s.forget element.value.box) := by
  unfold PushStore.makeRoom
  split_ifs with room
  · rfl
  · cases order : s.pushOrder with
    | nil =>
      have none : s.disk.size = 0 := by
        rw [size_eq_zero]
        intro box
        cases stored : s.disk.get box with
        | none => rfl
        | some file =>
          have listed := (accounted.onDisk box).mpr (by simp [OrderedMap.has, stored])
          unfold PushStore.listed at listed
          rw [order] at listed
          simp at listed
      rw [← accounted.counted] at none
      rw [none] at room
      exact absurd (by decide) room
    | cons element rest =>
      have listed : element.value.box ∈ s.listed := by
        unfold PushStore.listed
        rw [order]
        simp
      refine ⟨element, rest, rfl, (accounted.onDisk _).mp listed, ?_⟩
      unfold PushStore.pushShedOldest PushStore.forget PushStore.pushUntrack
      rw [order]
      simp only
      cases s.pushOrderAt.get element.value.box <;> rfl

theorem subscribe_anew {req : Subscribe} {addr : Address}
    (unknown : ¬(s.disk.has req.box = true ∧ req.readable = true))
    (orderly : SubscribeAnew s req (pushSourceTags isProxyClassAddr addr)) :
    Kept isProxyClassAddr s
      (s.handlePushSubscribe req (pushSourceTags isProxyClassAddr addr)) := by
  have fresh : (s.read req.box req.readable).2 = false := by
    rw [← Bool.not_eq_true, read_known]
    exact unknown
  have few := device_room req.device req.subscription
    (read_few accounted req.box req.readable)
  cases share : s.pushShareFull (pushSourceTags isProxyClassAddr addr) with
  | true =>
    simp only [PushStore.handlePushSubscribe, fresh, share, and_self, if_true]
    exact ⟨accounted, fun _ => rfl⟩
  | false =>
    have charge : Charge isProxyClassAddr (pushSourceTags isProxyClassAddr addr) :=
      Or.inr ⟨addr, rfl⟩
    have free := share_room share
    have made := make_room accounted
    have ways := orderly.resolve_left (by rw [share]; simp)
    simp only [PushStore.handlePushSubscribe, fresh, share, Bool.false_eq_true, and_false,
      if_false, Bool.not_false]
    split_ifs at made ways with room
    · rw [made]
      simp only
      rw [write_some _ _ (set_size_pos _ _ _)]
      have failed : Kept isProxyClassAddr s (s, Answer.storageError) := ⟨accounted, fun _ => rfl⟩
      cases outcome : req.write with
      | kept => simpa using failed
      | lost =>
        have absent := ways.resolve_right (by rw [outcome]; simp)
        have same : s.disk.delete req.box = s.disk :=
          delete_of_absent (PushStore.lacks_get absent)
        simpa [same] using failed
      | written =>
        have absent := ways.resolve_right (by rw [outcome]; simp)
        constructor
        case accounted =>
          exact accounted.add req.now absent few room charge free
        case refused => simp
    · obtain ⟨element, rest, order, stored, shed⟩ := made
      obtain ⟨written, whose⟩ := ways
      obtain ⟨kept, disk, count, held⟩ := accounted.forget stored
      have absent : (s.forget element.value.box).disk.has req.box = false := by
        rw [disk]
        unfold OrderedMap.has
        rw [get_delete]
        rcases whose with missing | oldest
        · rw [PushStore.lacks_get missing, ite_self]
          rfl
        · obtain ⟨front, isFront, same⟩ := oldest
          rw [order, List.head?_cons, mem_some_iff] at isFront
          rw [if_pos (by rw [← same, isFront])]
          rfl
      have below : (s.forget element.value.box).pushBoxes < pushMaxBoxes := by
        have most := accounted.few
        omega
      rw [shed]
      simp only
      rw [write_some _ _ (set_size_pos _ _ _), written]
      constructor
      case accounted =>
        exact kept.add req.now absent few below charge
          (fun source mem => (held source).trans_lt (free source mem))
      case refused => simp

end

theorem remove_devices_kept {devices : List Device} {readable : Bool} {write : WriteOutcome}
    (now : Int) (accounted : Accounted isProxyClassAddr s)
    (orderly : write ≠ .lost ∨ ∀ device ∈ (s.read box readable).1.keys, device ∈ devices) :
    Accounted isProxyClassAddr (s.pushRemoveDevices box devices readable write now) := by
  unfold PushStore.pushRemoveDevices
  simp only
  split_ifs with missing
  · exact accounted
  · have present : s.disk.has box = true :=
      (read_known.mp (Bool.eq_true_of_not_eq_false missing)).1
    have few := (remove_all_size devices (s.read box readable).1).trans
      (read_few accounted box readable)
    by_cases none : (devices.foldl (fun subs device => subs.delete device)
        (s.read box readable).1).size = 0
    · unfold PushStore.writePushBox
      rw [if_pos none, present]
      exact (accounted.forget present).1
    · rw [write_some _ _ none]
      cases write with
      | kept => exact accounted
      | written => exact accounted.rewrite now present few
      | lost =>
        have all := orderly.resolve_left (by simp)
        apply absurd _ none
        rw [size_eq_zero]
        intro device
        rw [remove_all_get]
        split_ifs with removed
        · rfl
        · by_contra stored
          exact removed (all device (mem_keys_iff.mpr stored))

theorem Accounted.step {s next : PushStore} {event : PushEvent}
    (accounted : Accounted isProxyClassAddr s) (orderly : Orderly isProxyClassAddr s event)
    (stepped : pushStep isProxyClassAddr s event = some next) :
    Accounted isProxyClassAddr next := by
  cases event with
  | subscribe req =>
    cases stepped
    simp only [Orderly] at orderly
    split_ifs at orderly with known
    · exact (subscribe_known accounted known.1 known.2 orderly).accounted
    · exact (subscribe_anew accounted known orderly).accounted
  | removeDevices box devices readable write now =>
    cases stepped
    exact remove_devices_kept now accounted orderly

/-! ## Boot -/

structure Fits (disk : OrderedMap Box BoxFile) : Prop where
  boxes : disk.size ≤ pushMaxBoxes
  devices : ∀ entry ∈ disk.entries,
    (entry.2.devices.getD OrderedMap.empty).size ≤ pushMaxDevices

theorem line_up_eq (absent : s.pushOrderAt.get box = none) :
    lineUp s box = s.pushTrack box [] false := by
  unfold PushStore.pushTrack
  rw [absent]
  rfl

theorem Ledger.line_up_all {boxes : List Box} (ledger : Ledger isProxyClassAddr s)
    (distinct : boxes.Nodup) (absent : ∀ box ∈ boxes, box ∉ s.listed) :
    Ledger isProxyClassAddr (boxes.foldl lineUp s) ∧
      (boxes.foldl lineUp s).listed = s.listed ++ boxes := by
  induction boxes generalizing s with
  | nil => exact ⟨ledger, by simp⟩
  | cons box rest ih =>
    rw [nodup_cons] at distinct
    have unlisted : s.pushOrderAt.get box = none := by
      cases found : s.pushOrderAt.get box with
      | none => rfl
      | some id =>
        exact absurd (ledger.mem_listed.mpr ⟨id, found⟩) (absent box (by simp))
    have tracked : Ledger isProxyClassAddr (s.pushTrack box [] false) ∧
        (s.pushTrack box [] false).listed = s.listed ++ [box] :=
      ledger.track_new unlisted (Or.inl rfl) (by simp)
    obtain ⟨next, names⟩ := tracked
    rw [← line_up_eq unlisted] at next names
    have later : ∀ other ∈ rest, other ∉ (lineUp s box).listed := by
      intro other mem listed
      rw [names, mem_append, mem_singleton] at listed
      rcases listed with earlier | here
      · exact absent other (mem_cons_of_mem _ mem) earlier
      · exact distinct.1 (here ▸ mem)
    obtain ⟨final, all⟩ := ih next distinct.2 later
    rw [foldl_cons]
    refine ⟨final, ?_⟩
    rw [all, names, append_assoc, singleton_append]

theorem line_up_disk (boxes : List Box) (s : PushStore) :
    (boxes.foldl lineUp s).disk = s.disk := by
  induction boxes generalizing s with
  | nil => rfl
  | cons box rest ih => exact ih (lineUp s box)

theorem push_init_count_disk (disk : OrderedMap Box BoxFile) : (pushInitCount disk).disk = disk :=
  line_up_disk _ _

theorem push_init_count (disk : OrderedMap Box BoxFile) (fits : Fits disk) :
    Accounted isProxyClassAddr (pushInitCount disk) := by
  have sorted : (disk.entries.mergeSort olderFile).Perm disk.entries := mergeSort_perm _ _
  have start : Ledger isProxyClassAddr
      ⟨disk, 0, [], OrderedMap.empty, OrderedMap.empty, 0, OrderedMap.empty, 0⟩ := by
    constructor <;> simp [PushStore.listed, PushStore.heldBy, PushStore.chargedTo]
  have distinct : ((disk.entries.mergeSort olderFile).map Prod.fst).Nodup :=
    (sorted.map _).nodup_iff.mpr disk.distinct
  obtain ⟨ledger, listed⟩ := start.line_up_all distinct (fun box _ => by
    simp [PushStore.listed])
  have booted := push_init_count_disk disk
  have count : (pushInitCount disk).pushBoxes = disk.size := by
    show ((disk.entries.mergeSort olderFile).map Prod.fst).length = disk.entries.length
    rw [length_map, sorted.length_eq]
  constructor
  case ledger => exact ledger.of_books rfl rfl rfl rfl rfl rfl
  case counted => rw [count, booted]
  case onDisk =>
    intro box
    have names : (pushInitCount disk).listed = (disk.entries.mergeSort olderFile).map Prod.fst :=
      listed.trans (nil_append _)
    rw [names, (sorted.map _).mem_iff, booted]
    show box ∈ disk.keys ↔ _
    rw [mem_keys_iff, OrderedMap.has, isSome_iff_ne_none]
  case few =>
    rw [count]
    exact fits.boxes
  case devices =>
    rw [booted]
    intro box file stored
    exact fits.devices (box, file) (mem_of_get stored)

/-! ## Runs -/

/-- From a disk within the limits, for as long as no write loses a file, every stored file is
counted once and no box is shed for a write that fails: the books are those of the disk, and a
subscribe that is refused or fails removes no box. -/
theorem push_store_accounts_for_its_disk (isProxyClassAddr : Address → Bool)
    (disk : OrderedMap Box BoxFile) (fits : Fits disk) (events : List PushEvent) (s : PushStore)
    (meets : Meets (pushStep isProxyClassAddr) (Orderly isProxyClassAddr) (pushInitCount disk)
      events)
    (ran : run (pushStep isProxyClassAddr) (pushInitCount disk) events = some s) :
    Accounted isProxyClassAddr s ∧
      ∀ req, Orderly isProxyClassAddr s (.subscribe req) →
        (s.handlePushSubscribe req (pushSourceTags isProxyClassAddr req.addr)).2 ≠ .noContent →
        ∀ box, s.disk.has box = true →
          (s.handlePushSubscribe req
            (pushSourceTags isProxyClassAddr req.addr)).1.disk.has box = true := by
  have accounted : Accounted isProxyClassAddr s :=
    run_keeps (fun _ _ _ inv orderly stepped => inv.step orderly stepped)
      (push_init_count disk fits) meets ran
  refine ⟨accounted, ?_⟩
  intro req orderly failed box stored
  have kept : Kept isProxyClassAddr s
      (s.handlePushSubscribe req (pushSourceTags isProxyClassAddr req.addr)) := by
    simp only [Orderly] at orderly
    split_ifs at orderly with known
    · exact subscribe_known accounted known.1 known.2 orderly
    · exact subscribe_anew accounted known orderly
  rw [kept.refused failed]
  exact stored

/-! A phone subscribes, a second box comes and goes. -/

def samplePushSubscription : PushSubscription :=
  ⟨"https://fcm.googleapis.com/fcm/send/x", "k", "a", 5⟩

def samplePushDisk : OrderedMap Box BoxFile :=
  OrderedMap.collect [("b1", ⟨some (OrderedMap.collect [("d1", samplePushSubscription)]), 1⟩)]

def samplePushEvents : List PushEvent :=
  [.subscribe ⟨"b2", "d2", samplePushSubscription, .v4 7, true, .written, 2⟩,
    .subscribe ⟨"b1", "d3", samplePushSubscription, .v6 9, true, .written, 3⟩,
    .subscribe ⟨"b2", "d4", samplePushSubscription, .v4 7, true, .kept, 4⟩,
    .removeDevices "b2" ["d2"] true .written 5]

theorem sample_push_store_accounts :
    ∃ s, run (pushStep fun _ => false) (pushInitCount samplePushDisk) samplePushEvents = some s ∧
      Accounted (fun _ => false) s := by
  have fits : Fits samplePushDisk := ⟨by decide +kernel, by decide +kernel⟩
  have meets : Meets (pushStep fun _ => false) (Orderly fun _ => false)
      (pushInitCount samplePushDisk) samplePushEvents := by decide +kernel
  have ran : (run (pushStep fun _ => false) (pushInitCount samplePushDisk)
      samplePushEvents).isSome = true := by decide +kernel
  obtain ⟨s, reached⟩ := isSome_iff_exists.mp ran
  exact ⟨s, reached,
    (push_store_accounts_for_its_disk _ samplePushDisk fits samplePushEvents s meets reached).1⟩

/-! ## The box shed for nothing -/

def numberedBox (n : Nat) : Box :=
  String.ofList (List.replicate 60 '0' ++ [(n / 4096).digitChar, (n / 256 % 16).digitChar,
    (n / 16 % 16).digitChar, (n % 16).digitChar])

theorem digit_char_injective : ∀ first < 16, ∀ second < 16,
    Nat.digitChar first = Nat.digitChar second → first = second := by decide

theorem numbered_box_injective {first second : Nat} (firstBound : first < pushMaxBoxes)
    (secondBound : second < pushMaxBoxes) (same : numberedBox first = numberedBox second) :
    first = second := by
  have digits := append_cancel_left (String.ofList_injective same)
  simp only [List.cons.injEq] at digits
  obtain ⟨d3, d2, d1, d0, _⟩ := digits
  unfold pushMaxBoxes at firstBound secondBound
  have e3 := digit_char_injective _ (by omega) _ (by omega) d3
  have e2 := digit_char_injective _ (by omega) _ (by omega) d2
  have e1 := digit_char_injective _ (by omega) _ (by omega) d1
  have e0 := digit_char_injective _ (by omega) _ (by omega) d0
  omega

def sampleBoxFile : BoxFile := ⟨some (OrderedMap.collect [("d1", samplePushSubscription)]), 1⟩

def numberedDisk (count : Nat) (within : count ≤ pushMaxBoxes) : OrderedMap Box BoxFile where
  entries := (List.range count).map fun n => (numberedBox n, sampleBoxFile)
  distinct := by
    rw [List.map_map]
    apply List.Nodup.map_on _ List.nodup_range
    intro first isFirst second isSecond same
    exact numbered_box_injective ((mem_range.mp isFirst).trans_le within)
      ((mem_range.mp isSecond).trans_le within) same

theorem numbered_disk_size (count : Nat) (within : count ≤ pushMaxBoxes) :
    (numberedDisk count within).size = count := by
  unfold OrderedMap.size numberedDisk
  rw [length_map, length_range]

theorem numbered_disk_fits (count : Nat) (within : count ≤ pushMaxBoxes) :
    Fits (numberedDisk count within) := by
  constructor
  · rw [numbered_disk_size]
    exact within
  · intro entry mem
    obtain ⟨n, _, rfl⟩ := List.mem_map.mp mem
    have few : (sampleBoxFile.devices.getD OrderedMap.empty).size ≤ pushMaxDevices := by decide
    exact few

def fullPushDisk : OrderedMap Box BoxFile := numberedDisk pushMaxBoxes (le_refl _)

def newSubscribe : Subscribe :=
  ⟨String.ofList (List.replicate 64 'f'), "d2", samplePushSubscription, .v4 7, true, .kept, 2⟩

theorem numbered_disk_lacks (count : Nat) (within : count ≤ pushMaxBoxes) :
    (numberedDisk count within).get newSubscribe.box = none := by
  by_contra present
  have mem : newSubscribe.box ∈ (numberedDisk count within).keys :=
    mem_keys_iff.mpr present
  unfold OrderedMap.keys numberedDisk at mem
  rw [List.map_map] at mem
  obtain ⟨n, _, same⟩ := List.mem_map.mp mem
  have heads := congrArg List.head? (String.ofList_injective same)
  simp [replicate_succ] at heads

theorem line_up_held (boxes : List Box) (s : PushStore) :
    (boxes.foldl lineUp s).pushHeld = s.pushHeld := by
  induction boxes generalizing s with
  | nil => rfl
  | cons box rest ih => exact ih (lineUp s box)

theorem boot_share_room (disk : OrderedMap Box BoxFile) (sources : List PushSource) :
    (pushInitCount disk).pushShareFull sources = false := by
  have none : (pushInitCount disk).pushHeld = OrderedMap.empty := line_up_held _ _
  unfold PushStore.pushShareFull
  rw [List.any_eq_false]
  intro entry _
  rw [none, get_empty, Option.getD_none, decide_eq_true_eq]
  split_ifs <;> decide

theorem full_store_loses_a_box {req : Subscribe} (accounted : Accounted isProxyClassAddr s)
    (full : ¬s.pushBoxes < pushMaxBoxes) (absent : s.disk.get req.box = none)
    (write : req.write = .kept) (room : s.pushShareFull sources = false) :
    (s.handlePushSubscribe req sources).2 = .storageError ∧
      ∃ box, s.disk.has box = true ∧
        (s.handlePushSubscribe req sources).1.disk.has box = false := by
  have fresh : s.read req.box req.readable = (OrderedMap.empty, false) := by
    unfold PushStore.read
    rw [absent]
  have made := make_room accounted
  rw [if_neg full] at made
  obtain ⟨element, rest, order, stored, shed⟩ := made
  have gone : (s.forget element.value.box).disk.has element.value.box = false := by
    rw [(accounted.forget stored).2.1]
    unfold OrderedMap.has
    rw [get_delete_self]
    rfl
  have outcome : s.handlePushSubscribe req sources =
      (s.forget element.value.box, .storageError) := by
    simp only [PushStore.handlePushSubscribe, fresh, room, Bool.false_eq_true, and_false, if_false]
    rw [shed]
    simp only
    rw [write_some _ _ (set_size_pos _ _ _), write]
    rfl
  rw [outcome]
  exact ⟨rfl, element.value.box, stored, gone⟩

theorem failed_subscribe_removes_a_box :
    Fits fullPushDisk ∧
      ((pushInitCount fullPushDisk).handlePushSubscribe newSubscribe
        (pushSourceTags (fun _ => false) newSubscribe.addr)).2 = .storageError ∧
      ∃ box, (pushInitCount fullPushDisk).disk.has box = true ∧
        ((pushInitCount fullPushDisk).handlePushSubscribe newSubscribe
          (pushSourceTags (fun _ => false) newSubscribe.addr)).1.disk.has box = false := by
  have fits : Fits fullPushDisk := numbered_disk_fits _ _
  have accounted : Accounted (fun _ => false) (pushInitCount fullPushDisk) :=
    push_init_count fullPushDisk fits
  have booted : (pushInitCount fullPushDisk).disk = fullPushDisk := push_init_count_disk _
  have full : ¬(pushInitCount fullPushDisk).pushBoxes < pushMaxBoxes := by
    rw [accounted.counted, booted, show fullPushDisk.size = pushMaxBoxes from
      numbered_disk_size _ _]
    exact Nat.lt_irrefl _
  have absent : (pushInitCount fullPushDisk).disk.get newSubscribe.box = none := by
    rw [booted]
    exact numbered_disk_lacks _ _
  exact ⟨fits, full_store_loses_a_box accounted full absent rfl (boot_share_room _ _)⟩

end Push

end AwfulChat.Relay
