import AwfulChat.Relay.Telemetry

/-!
# The telemetry store's books and the disk

A bundle that goes is returned to its source at each of the places where one goes, and a bundle
that comes is counted once it is written. What a failed write leaves behind is in no book.
-/

namespace AwfulChat.Relay

open Library Library.OrderedMap List Option

set_option autoImplicit false

namespace Telemetry

open TelemetryStore

theorem source_files_nonneg (source : String) (bundleId : BundleId) (origin : TelemetryOrigin) :
    0 ≤ sourceFiles source bundleId origin := by
  unfold sourceFiles
  split_ifs <;> decide

theorem source_bytes_nonneg (source : String) (bundleId : BundleId) (origin : TelemetryOrigin) :
    0 ≤ sourceBytes source bundleId origin := by
  unfold sourceBytes
  split_ifs
  · exact Int.natCast_nonneg _
  · exact le_refl _

theorem peer_files_nonneg (peerId : PeerId) (key : BundleId) (file : BundleFile) :
    0 ≤ peerFiles peerId key file := by
  unfold peerFiles
  split_ifs <;> decide

theorem bundles_of_length (s : TelemetryStore) (peerId : PeerId) :
    ((s.bundlesOf peerId).length : Int) = s.disk.total (peerFiles peerId) := by
  unfold bundlesOf OrderedMap.total OrderedMap.keys
  rw [length_mergeSort, length_map, ← countP_eq_length_filter, countP_map]
  induction s.disk.entries with
  | nil => rfl
  | cons entry rest ih =>
    rw [countP_cons, map_cons, sum_cons, ← ih]
    by_cases same : entry.1.1 = peerId
    · simp [peerFiles, same]
      omega
    · simp [peerFiles, same]

variable {origins : OrderedMap BundleId TelemetryOrigin} {s : TelemetryStore} {bundleId : BundleId}
  {held : OrderedMap String TelemetryShare}

variable {disk : OrderedMap BundleId BundleFile} {peerId : PeerId}

theorem mem_bundles_of {name : String} :
    name ∈ s.bundlesOf peerId ↔ s.disk.get (peerId, name) ≠ none := by
  unfold bundlesOf
  rw [mem_mergeSort, ← mem_keys_iff]
  constructor
  · intro mem
    obtain ⟨key, listed, rfl⟩ := mem_map.mp mem
    obtain ⟨stored, whose⟩ := mem_filter.mp listed
    rw [← of_decide_eq_true whose]
    exact stored
  · intro stored
    exact mem_map.mpr ⟨(peerId, name), mem_filter.mpr ⟨stored, by simp⟩, rfl⟩

theorem bundles_of_nodup (s : TelemetryStore) (peerId : PeerId) : (s.bundlesOf peerId).Nodup := by
  unfold bundlesOf
  rw [(mergeSort_perm _ _).nodup_iff]
  apply List.Nodup.map_on
  · intro first isFirst second isSecond same
    have whose := of_decide_eq_true (mem_filter.mp isFirst).2
    have other := of_decide_eq_true (mem_filter.mp isSecond).2
    exact Prod.ext (whose.trans other.symm) same
  · exact s.disk.distinct.filter _

/-! ## Shares -/

theorem drop_share (held : OrderedMap String TelemetryShare) (source other : String) (size : Nat) :
    shareOf (dropShare held source size) other =
      if other = source then
        if (shareOf held source).files - 1 ≤ 0 then ⟨0, 0⟩
        else ⟨(shareOf held source).files - 1, (shareOf held source).bytes - size⟩
      else shareOf held other := by
  unfold dropShare
  by_cases same : other = source
  · subst same
    rw [if_pos rfl]
    split_ifs with last
    · rw [shareOf, get_delete_self, getD_none]
    · conv_lhs => rw [shareOf, get_set_self, getD_some]
  · rw [if_neg same]
    split_ifs
    · rw [shareOf, get_delete_other _ _ _ same, shareOf]
    · conv_lhs => rw [shareOf, get_set_other _ _ _ _ same]
      rfl

theorem add_share (held : OrderedMap String TelemetryShare) (source other : String) (size : Nat) :
    shareOf (addShare held source size) other =
      if other = source then ⟨(shareOf held source).files + 1, (shareOf held source).bytes + size⟩
      else shareOf held other := by
  unfold addShare
  by_cases same : other = source
  · subst same
    rw [if_pos rfl]
    conv_lhs => rw [shareOf, get_set_self, getD_some]
  · rw [if_neg same]
    conv_lhs => rw [shareOf, get_set_other _ _ _ _ same]
    rfl

/-- The shares are those of the recorded bundles. -/
def Shared (held : OrderedMap String TelemetryShare)
    (origins : OrderedMap BundleId TelemetryOrigin) : Prop :=
  ∀ source, shareOf held source =
    ⟨origins.total (sourceFiles source), origins.total (sourceBytes source)⟩

theorem bytes_of_no_files {source : String}
    (none : origins.total (sourceFiles source) = 0) : origins.total (sourceBytes source) = 0 := by
  apply total_zero_of_zero (source_files_nonneg source) none
  intro key origin unrecorded
  unfold sourceFiles at unrecorded
  unfold sourceBytes
  by_cases same : origin.source = source
  · rw [if_pos same] at unrecorded
    cases unrecorded
  · exact if_neg same

theorem Shared.drop {origin : TelemetryOrigin} (shared : Shared held origins)
    (recorded : origins.get bundleId = some origin) :
    Shared (dropShare held origin.source origin.size) (origins.delete bundleId) := by
  intro source
  have files := total_delete_of_present (sourceFiles source) recorded
  have bytes := total_delete_of_present (sourceBytes source) recorded
  rw [drop_share]
  by_cases same : source = origin.source
  · subst same
    have one : sourceFiles origin.source bundleId origin = 1 := if_pos rfl
    have size : sourceBytes origin.source bundleId origin = origin.size := if_pos rfl
    rw [one] at files
    rw [size] at bytes
    rw [if_pos rfl, shared origin.source]
    split_ifs with last
    · have positive := total_nonneg (source_files_nonneg origin.source)
        (origins.delete bundleId)
      have zero : (origins.delete bundleId).total (sourceFiles origin.source) = 0 := by
        simp only at last
        omega
      rw [zero, bytes_of_no_files zero]
    · rw [files, bytes]
  · have apart : ¬origin.source = source := fun equal => same equal.symm
    have noFile : sourceFiles source bundleId origin = 0 := if_neg apart
    have noBytes : sourceBytes source bundleId origin = 0 := if_neg apart
    rw [if_neg same, shared source, files, bytes, noFile, noBytes, Int.sub_zero, Int.sub_zero]

theorem Shared.add (shared : Shared held origins) (unrecorded : origins.get bundleId = none)
    (source : String) (size : Nat) :
    Shared (addShare held source size) (origins.set bundleId ⟨source, size⟩) := by
  intro other
  have files := total_set_of_absent (sourceFiles other)
    (⟨source, size⟩ : TelemetryOrigin) unrecorded
  have bytes := total_set_of_absent (sourceBytes other)
    (⟨source, size⟩ : TelemetryOrigin) unrecorded
  rw [add_share]
  by_cases same : other = source
  · have one : sourceFiles other bundleId ⟨source, size⟩ = 1 := if_pos same.symm
    have whole : sourceBytes other bundleId ⟨source, size⟩ = size := if_pos same.symm
    rw [if_pos same, files, bytes, one, whole, ← same, shared other]
  · have apart : ¬source = other := fun equal => same equal.symm
    have noFile : sourceFiles other bundleId ⟨source, size⟩ = 0 := if_neg apart
    have noBytes : sourceBytes other bundleId ⟨source, size⟩ = 0 := if_neg apart
    rw [if_neg same, files, bytes, noFile, noBytes, Int.add_zero, Int.add_zero, shared other]

theorem Shared.drop_le {origin : TelemetryOrigin} (shared : Shared held origins)
    (recorded : origins.get bundleId = some origin) (source : String) :
    (shareOf (dropShare held origin.source origin.size) source).files ≤
        (shareOf held source).files ∧
      (shareOf (dropShare held origin.source origin.size) source).bytes ≤
        (shareOf held source).bytes := by
  have files := total_delete_of_present (sourceFiles source) recorded
  have bytes := total_delete_of_present (sourceBytes source) recorded
  have oneFile := source_files_nonneg source bundleId origin
  have someBytes := source_bytes_nonneg source bundleId origin
  rw [shared.drop recorded source, shared source]
  simp only
  omega

/-! ## A bundle goes -/

/-- What the removal of one file comes to. -/
structure Removed (s next : TelemetryStore) (bundleId : BundleId) : Prop where
  books : Books next
  disk : next.disk = s.disk.delete bundleId
  used : next.telemetryUsedBytes ≤ s.telemetryUsedBytes
  files : next.telemetryFiles ≤ s.telemetryFiles
  heldFiles : ∀ source, (next.heldBy source).files ≤ (s.heldBy source).files
  heldBytes : ∀ source, (next.heldBy source).bytes ≤ (s.heldBy source).bytes

theorem forget_bundle_frame (s : TelemetryStore) (bundleId : BundleId) :
    (s.telemetryForgetBundle bundleId).disk = s.disk ∧
      (s.telemetryForgetBundle bundleId).telemetryFiles = s.telemetryFiles ∧
      (s.telemetryForgetBundle bundleId).telemetryUsedBytes = s.telemetryUsedBytes := by
  unfold telemetryForgetBundle
  cases s.telemetryBundleOrigin.get bundleId <;> exact ⟨rfl, rfl, rfl⟩

theorem forget_bundle_origin (s : TelemetryStore) (bundleId : BundleId) :
    (s.telemetryForgetBundle bundleId).telemetryBundleOrigin =
      s.telemetryBundleOrigin.delete bundleId := by
  unfold telemetryForgetBundle
  cases recorded : s.telemetryBundleOrigin.get bundleId with
  | none => exact (delete_of_absent recorded).symm
  | some origin => rfl

theorem forget_bundle_shared (shared : Shared s.telemetryHeld s.telemetryBundleOrigin) :
    Shared (s.telemetryForgetBundle bundleId).telemetryHeld
        (s.telemetryForgetBundle bundleId).telemetryBundleOrigin ∧
      ∀ source, ((s.telemetryForgetBundle bundleId).heldBy source).files ≤
          (s.heldBy source).files ∧
        ((s.telemetryForgetBundle bundleId).heldBy source).bytes ≤ (s.heldBy source).bytes := by
  cases recorded : s.telemetryBundleOrigin.get bundleId with
  | none =>
    have same : s.telemetryForgetBundle bundleId = s := by
      simp only [telemetryForgetBundle, recorded]
    rw [same]
    exact ⟨shared, fun _ => ⟨le_refl _, le_refl _⟩⟩
  | some origin =>
    have dropped : s.telemetryForgetBundle bundleId = { s with
        telemetryBundleOrigin := s.telemetryBundleOrigin.delete bundleId
        telemetryHeld := dropShare s.telemetryHeld origin.source origin.size } := by
      simp only [telemetryForgetBundle, recorded]
    rw [dropped]
    exact ⟨shared.drop recorded, fun source => shared.drop_le recorded source⟩

theorem remove_bundle (books : Books s) (bundleId : BundleId) :
    Removed s (s.removeBundle bundleId) bundleId := by
  unfold removeBundle
  cases stored : s.disk.get bundleId with
  | none =>
    exact ⟨books, (delete_of_absent stored).symm, le_refl _, le_refl _,
      fun _ => le_refl _, fun _ => le_refl _⟩
  | some file =>
    have fewer := size_delete_of_present stored
    have lighter := total_delete_of_present (fun _ file => (file.size : Int)) stored
    obtain ⟨disk, files, used⟩ :=
      forget_bundle_frame { s with disk := s.disk.delete bundleId } bundleId
    have origins := forget_bundle_origin { s with disk := s.disk.delete bundleId } bundleId
    have shared : Shared s.telemetryHeld s.telemetryBundleOrigin := books.held
    have shares : Shared _ _ ∧ _ := @forget_bundle_shared
      { s with disk := s.disk.delete bundleId } bundleId shared
    simp only
    constructor
    case books =>
      constructor
      case used =>
        show _ - (file.size : Int) = OrderedMap.total _ _
        rw [used, disk, lighter, books.used]
      case files =>
        show _ - (1 : Int) = _
        rw [files, disk, fewer, books.files]
      case held => exact shares.1
      case origins =>
        intro other origin found
        show _ ∧ ∃ kept, OrderedMap.get _ other = some kept ∧ _
        rw [disk]
        change OrderedMap.get _ other = some origin at found
        rw [origins, get_delete] at found
        split_ifs at found with same
        obtain ⟨named, kept, onDisk, size⟩ := books.origins other origin found
        refine ⟨named, kept, ?_, size⟩
        show (s.disk.delete bundleId).get other = some kept
        rw [get_delete_other _ _ _ same]
        exact onDisk
    case disk => exact disk
    case used =>
      show _ - (file.size : Int) ≤ _
      rw [used]
      have positive : (0 : Int) ≤ file.size := Int.natCast_nonneg _
      show s.telemetryUsedBytes - (file.size : Int) ≤ s.telemetryUsedBytes
      omega
    case files =>
      show _ - (1 : Int) ≤ _
      rw [files]
      show s.telemetryFiles - 1 ≤ s.telemetryFiles
      omega
    case heldFiles => exact fun source => (shares.2 source).1
    case heldBytes => exact fun source => (shares.2 source).2

theorem Removed.peer_files {s next : TelemetryStore} (removed : Removed s next bundleId)
    (peerId : PeerId) :
    next.disk.total (peerFiles peerId) ≤ s.disk.total (peerFiles peerId) := by
  rw [removed.disk]
  cases stored : s.disk.get bundleId with
  | none => rw [delete_of_absent stored]
  | some file =>
    rw [total_delete_of_present _ stored]
    have positive := peer_files_nonneg peerId bundleId file
    omega

/-- What any number of removals comes to. -/
structure Trimmed (s next : TelemetryStore) : Prop where
  books : Books next
  used : next.telemetryUsedBytes ≤ s.telemetryUsedBytes
  files : next.telemetryFiles ≤ s.telemetryFiles
  heldFiles : ∀ source, (next.heldBy source).files ≤ (s.heldBy source).files
  heldBytes : ∀ source, (next.heldBy source).bytes ≤ (s.heldBy source).bytes
  peers : ∀ peerId, next.disk.total (peerFiles peerId) ≤ s.disk.total (peerFiles peerId)

theorem Trimmed.same (books : Books s) : Trimmed s s :=
  ⟨books, le_refl _, le_refl _, fun _ => le_refl _, fun _ => le_refl _, fun _ => le_refl _⟩

theorem Trimmed.after {s middle next : TelemetryStore} (removed : Removed s middle bundleId)
    (trimmed : Trimmed middle next) : Trimmed s next :=
  ⟨trimmed.books, trimmed.used.trans removed.used, trimmed.files.trans removed.files,
    fun source => (trimmed.heldFiles source).trans (removed.heldFiles source),
    fun source => (trimmed.heldBytes source).trans (removed.heldBytes source),
    fun peerId => (trimmed.peers peerId).trans (removed.peer_files peerId)⟩

theorem evict_oldest (files : List String) (books : Books s) (distinct : files.Nodup)
    (stored : ∀ name ∈ files, s.disk.get (peerId, name) ≠ none)
    (all : s.disk.total (peerFiles peerId) = files.length) :
    Trimmed s (s.evictOldest peerId files) ∧
      (s.evictOldest peerId files).disk.total (peerFiles peerId) ≤ telemetryMaxPerPeer := by
  induction files generalizing s with
  | nil =>
    refine ⟨Trimmed.same books, ?_⟩
    show s.disk.total (peerFiles peerId) ≤ _
    rw [all]
    exact Int.natCast_nonneg _
  | cons oldest rest ih =>
    rw [nodup_cons] at distinct
    rw [evictOldest]
    split_ifs with many
    · have removed := remove_bundle books (peerId, oldest)
      obtain ⟨file, found⟩ := ne_none_iff_exists'.mp (stored oldest (by simp))
      have others : ∀ name ∈ rest,
          (s.removeBundle (peerId, oldest)).disk.get (peerId, name) ≠ none := by
        intro name mem
        have apart : (peerId, name) ≠ (peerId, oldest) := by
          intro same
          exact distinct.1 ((Prod.mk.inj same).2 ▸ mem)
        rw [removed.disk, get_delete_other _ _ _ apart]
        exact stored name (mem_cons_of_mem _ mem)
      have count : (s.removeBundle (peerId, oldest)).disk.total (peerFiles peerId) =
          rest.length := by
        have one : peerFiles peerId (peerId, oldest) file = 1 := if_pos rfl
        rw [removed.disk, total_delete_of_present _ found, all, one]
        simp
      obtain ⟨trimmed, few⟩ := ih removed.books distinct.2 others count
      exact ⟨trimmed.after removed, few⟩
    · refine ⟨Trimmed.same books, ?_⟩
      rw [all]
      exact Int.ofNat_le.mpr (not_lt.mp many)

theorem sweep_once (entries : List (BundleId × BundleFile)) (cutoff : Int)
    (books : Books s) : Trimmed s (entries.foldl (sweepEntry cutoff) s) := by
  induction entries generalizing s with
  | nil => exact Trimmed.same books
  | cons entry rest ih =>
    rw [foldl_cons]
    unfold sweepEntry
    split_ifs
    · have removed := remove_bundle books entry.1
      exact (ih removed.books).after removed
    · exact ih books

/-! ## Steps -/

theorem few_bundles :
    (s.bundlesOf peerId).length ≤ telemetryMaxPerPeer ↔
      s.disk.total (peerFiles peerId) ≤ telemetryMaxPerPeer := by
  rw [← bundles_of_length]
  exact Int.ofNat_le.symm

theorem Accounts.trim {s next : TelemetryStore} (accounts : Accounts s) (trimmed : Trimmed s next) :
    Accounts next := by
  constructor
  case toBooks => exact trimmed.books
  case perPeer =>
    intro peerId
    rw [few_bundles]
    exact (trimmed.peers peerId).trans (few_bundles.mp (accounts.perPeer peerId))
  case shareFiles => exact fun source => (trimmed.heldFiles source).trans (accounts.shareFiles source)
  case shareBytes => exact fun source => (trimmed.heldBytes source).trans (accounts.shareBytes source)
  case bytes => exact trimmed.used.trans accounts.bytes
  case count => exact trimmed.files.trans accounts.count

theorem held_record_bundle (s : TelemetryStore) (source other : String) (bundleId : BundleId)
    (size : Nat) : (s.recordBundle source bundleId size).heldBy other =
      if other = source ∧ source ≠ "" then
        ⟨(s.heldBy source).files + 1, (s.heldBy source).bytes + size⟩
      else s.heldBy other := by
  unfold recordBundle
  by_cases nobody : source = ""
  · simp [nobody]
  · rw [if_neg nobody]
    show shareOf (addShare s.telemetryHeld source size) other = _
    rw [add_share]
    by_cases same : other = source
    · rw [if_pos same, if_pos ⟨same, nobody⟩]
      rfl
    · rw [if_neg same, if_neg (fun both => same both.1)]
      rfl

theorem record_bundle_frame (s : TelemetryStore) (source : String) (bundleId : BundleId)
    (size : Nat) : (s.recordBundle source bundleId size).disk = s.disk ∧
      (s.recordBundle source bundleId size).telemetryFiles = s.telemetryFiles ∧
      (s.recordBundle source bundleId size).telemetryUsedBytes = s.telemetryUsedBytes := by
  unfold recordBundle
  split_ifs <;> exact ⟨rfl, rfl, rfl⟩

theorem Books.add (books : Books s) (absent : s.disk.get bundleId = none) (source : String)
    (size : Nat) (now : Int) :
    Books ({ s with
      disk := s.disk.set bundleId ⟨size, now⟩
      telemetryFiles := s.telemetryFiles + 1
      telemetryUsedBytes := s.telemetryUsedBytes + size }.recordBundle source bundleId size) := by
  have more := size_set_of_absent (⟨size, now⟩ : BundleFile) absent
  have heavier := total_set_of_absent (fun _ file => (file.size : Int))
    (⟨size, now⟩ : BundleFile) absent
  obtain ⟨disk, files, used⟩ := record_bundle_frame { s with
    disk := s.disk.set bundleId ⟨size, now⟩
    telemetryFiles := s.telemetryFiles + 1
    telemetryUsedBytes := s.telemetryUsedBytes + size } source bundleId size
  have unrecorded : s.telemetryBundleOrigin.get bundleId = none := by
    cases found : s.telemetryBundleOrigin.get bundleId with
    | none => rfl
    | some origin =>
      obtain ⟨_, file, stored, _⟩ := books.origins bundleId origin found
      rw [absent] at stored
      cases stored
  have older : ∀ other origin, s.telemetryBundleOrigin.get other = some origin →
      origin.source ≠ "" ∧ ∃ file, (s.disk.set bundleId ⟨size, now⟩).get other = some file ∧
        file.size = origin.size := by
    intro other origin found
    obtain ⟨named, file, stored, same⟩ := books.origins other origin found
    refine ⟨named, file, ?_, same⟩
    have apart : other ≠ bundleId := by
      intro equal
      rw [equal, absent] at stored
      cases stored
    rw [get_set_other _ _ _ _ apart]
    exact stored
  constructor
  case used =>
    rw [used, disk]
    show s.telemetryUsedBytes + size = _
    rw [heavier, books.used]
  case files =>
    rw [files, disk]
    show s.telemetryFiles + 1 = _
    rw [more, books.files]
    simp
  case held =>
    unfold recordBundle
    by_cases nobody : source = ""
    · rw [if_pos nobody]
      exact books.held
    · rw [if_neg nobody]
      exact Shared.add books.held unrecorded source size
  case origins =>
    unfold recordBundle
    by_cases nobody : source = ""
    · rw [if_pos nobody]
      exact older
    · rw [if_neg nobody]
      intro other origin found
      change (s.telemetryBundleOrigin.set bundleId ⟨source, size⟩).get other = some origin at found
      rw [get_set] at found
      split_ifs at found with same
      · cases found
        refine ⟨nobody, ⟨size, now⟩, ?_, rfl⟩
        rw [same]
        exact get_set_self _ _ _
      · exact older other origin found

theorem Accounts.store {source : String} {id : String} {size : Nat} {write : BundleWrite}
    {now : Int} (accounts : Accounts s) (absent : s.disk.get (peerId, id) = none)
    (clean : Clean s (.store source peerId id size write now)) :
    Accounts (s.storeTelemetryBundle source peerId id size write now).1 := by
  unfold storeTelemetryBundle
  split_ifs with full past
  · exact accounts
  · exact accounts
  · cases write with
    | failed left =>
      cases left with
      | some left => exact clean.elim
      | none => exact accounts
    | written =>
      have books := accounts.toBooks.add absent source size now
      obtain ⟨disk, files, used⟩ := record_bundle_frame { s with
        disk := s.disk.set (peerId, id) ⟨size, now⟩
        telemetryFiles := s.telemetryFiles + 1
        telemetryUsedBytes := s.telemetryUsedBytes + size } source (peerId, id) size
      have held := fun other => held_record_bundle { s with
        disk := s.disk.set (peerId, id) ⟨size, now⟩
        telemetryFiles := s.telemetryFiles + 1
        telemetryUsedBytes := s.telemetryUsedBytes + size } source other (peerId, id) size
      simp only
      obtain ⟨stored, isStored⟩ : ∃ stored, ({ s with
        disk := s.disk.set (peerId, id) ⟨size, now⟩
        telemetryFiles := s.telemetryFiles + 1
        telemetryUsedBytes := s.telemetryUsedBytes + size }.recordBundle source (peerId, id)
          size) = stored := ⟨_, rfl⟩
      rw [isStored] at books disk files used held ⊢
      have counted := bundles_of_length stored peerId
      obtain ⟨trimmed, few⟩ := evict_oldest (stored.bundlesOf peerId) books
        (bundles_of_nodup stored peerId) (fun name mem => mem_bundles_of.mp mem)
        counted.symm
      rw [not_or, not_lt, not_le] at full
      constructor
      case toBooks => exact trimmed.books
      case perPeer =>
        intro other
        rw [few_bundles]
        by_cases same : other = peerId
        · rw [same]
          exact few
        · have others := total_set_of_absent (peerFiles other)
            (⟨size, now⟩ : BundleFile) absent
          have none : peerFiles other (peerId, id) ⟨size, now⟩ = 0 :=
            if_neg fun equal => same equal.symm
          have before := few_bundles.mp (accounts.perPeer other)
          have kept := trimmed.peers other
          rw [disk] at kept
          change _ ≤ (s.disk.set (peerId, id) ⟨size, now⟩).total (peerFiles other) at kept
          omega
      case shareFiles =>
        intro other
        apply (trimmed.heldFiles other).trans
        rw [held]
        by_cases mine : other = source ∧ source ≠ ""
        · rw [if_pos mine]
          have room : ¬telemetryMaxFilesPerSource ≤ (s.heldBy source).files :=
            fun most => past ⟨mine.2, Or.inl most⟩
          show (s.heldBy source).files + 1 ≤ _
          omega
        · rw [if_neg mine]
          exact accounts.shareFiles other
      case shareBytes =>
        intro other
        apply (trimmed.heldBytes other).trans
        rw [held]
        by_cases mine : other = source ∧ source ≠ ""
        · rw [if_pos mine]
          have room : ¬telemetryMaxBytesPerSource < (s.heldBy source).bytes + size :=
            fun most => past ⟨mine.2, Or.inr most⟩
          show (s.heldBy source).bytes + size ≤ _
          omega
        · rw [if_neg mine]
          exact accounts.shareBytes other
      case bytes =>
        apply trimmed.used.trans
        rw [used]
        exact full.1
      case count =>
        apply trimmed.files.trans
        rw [files]
        show s.telemetryFiles + 1 ≤ _
        omega

structure FitsTelemetry (disk : OrderedMap BundleId BundleFile) : Prop where
  bytes : (disk.total fun _ file => (file.size : Int)) ≤ telemetryGlobalMaxBytes
  count : (disk.size : Int) ≤ telemetryGlobalMaxFiles
  perPeer : ∀ key ∈ disk.keys,
    (disk.keys.filter fun other => decide (other.1 = key.1)).length ≤ telemetryMaxPerPeer

theorem init_used_bytes
    (bytes : (disk.total fun _ file => (file.size : Int)) ≤ telemetryGlobalMaxBytes)
    (count : (disk.size : Int) ≤ telemetryGlobalMaxFiles)
    (perPeer : ∀ peerId, ((telemetryInitUsedBytes disk).bundlesOf peerId).length ≤
      telemetryMaxPerPeer) : Accounts (telemetryInitUsedBytes disk) := by
  constructor
  case toBooks =>
    refine ⟨rfl, rfl, fun source => rfl, ?_⟩
    nofun
  case perPeer => exact perPeer
  case shareFiles => exact fun source => (by decide : (0 : Int) ≤ telemetryMaxFilesPerSource)
  case shareBytes => exact fun source => (by decide : (0 : Int) ≤ telemetryMaxBytesPerSource)
  case bytes => exact bytes
  case count => exact count

theorem fits_start (fits : FitsTelemetry disk) :
    Accounts (telemetryInitUsedBytes disk) := by
  apply init_used_bytes fits.bytes fits.count
  intro peerId
  have length : ((telemetryInitUsedBytes disk).bundlesOf peerId).length =
      (disk.keys.filter fun other => decide (other.1 = peerId)).length := by
    unfold bundlesOf
    rw [length_mergeSort, length_map]
    rfl
  rw [length]
  cases listed : disk.keys.filter fun other => decide (other.1 = peerId) with
  | nil => exact Nat.zero_le _
  | cons key rest =>
    have mem : key ∈ disk.keys.filter fun other => decide (other.1 = peerId) := by
      rw [listed]
      simp
    obtain ⟨stored, whose⟩ := mem_filter.mp mem
    rw [← listed, ← of_decide_eq_true whose]
    exact fits.perPeer key stored

theorem Accounts.step {s next : TelemetryStore} {event : TelemetryEvent} (accounts : Accounts s)
    (clean : Clean s event) (stepped : telemetryStep s event = some next) : Accounts next := by
  cases event with
  | store source peerId id size write now =>
    simp only [telemetryStep] at stepped
    split_ifs at stepped with present
    cases stepped
    have absent : s.disk.get (peerId, id) = none := by
      simpa [OrderedMap.has] using present
    exact accounts.store absent clean
  | sweep now =>
    cases stepped
    exact accounts.trim (sweep_once s.disk.entries _ accounts.toBooks)
  | restart =>
    cases stepped
    apply init_used_bytes
    · rw [← accounts.used]
      exact accounts.bytes
    · rw [← accounts.files]
      exact accounts.count
    · exact accounts.perPeer

/-! ## Runs -/

theorem telemetry_books_are_the_disk (disk : OrderedMap BundleId BundleFile)
    (fits : FitsTelemetry disk) (events : List TelemetryEvent) (s : TelemetryStore)
    (meets : Meets telemetryStep Clean (telemetryInitUsedBytes disk) events)
    (ran : run telemetryStep (telemetryInitUsedBytes disk) events = some s) : Accounts s :=
  run_keeps (fun _ _ _ inv clean stepped => inv.step clean stepped) (fits_start fits) meets ran

def sampleUploads : List TelemetryEvent :=
  [.store "203.0.113.1" "p" "1a.json" 40 .written 5, .store "" "q" "1b.json" 60 .written 6,
    .store "203.0.113.1" "p" "1c.json" 70 (.failed none) 7, .sweep 8, .restart]

theorem sample_uploads_accounted : ∃ s,
    run telemetryStep (telemetryInitUsedBytes OrderedMap.empty) sampleUploads = some s ∧
      Accounts s := by
  have fits : FitsTelemetry OrderedMap.empty := ⟨by decide, by decide, by decide⟩
  have meets : Meets telemetryStep Clean (telemetryInitUsedBytes OrderedMap.empty)
      sampleUploads := by decide +kernel
  have ran : (run telemetryStep (telemetryInitUsedBytes OrderedMap.empty)
      sampleUploads).isSome = true := by decide +kernel
  obtain ⟨s, reached⟩ := isSome_iff_exists.mp ran
  exact ⟨s, reached,
    telemetry_books_are_the_disk OrderedMap.empty fits sampleUploads s meets reached⟩

theorem failed_upload_uncounted : ∃ s,
    run telemetryStep (telemetryInitUsedBytes OrderedMap.empty)
        [.store "203.0.113.1" "p" "1a.json" 40 (.failed (some 0)) 5] = some s ∧ ¬Accounts s := by
  refine ⟨_, rfl, ?_⟩
  intro accounts
  exact absurd accounts.files (by decide)

end Telemetry

end AwfulChat.Relay
