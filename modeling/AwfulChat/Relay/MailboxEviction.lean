import AwfulChat.Relay.MailboxRoom
import Mathlib.Algebra.Order.Group.Nat

/-!
# Whose blobs a full box sheds

A source's own blobs go first, oldest first, and the others after them. How many of the others one
source pushes out depends on how the sizes fall: those left have to make room for its blob.
-/

namespace AwfulChat.Relay

open Library Library.OrderedMap
open List hiding get_of_mem
open Option hiding get_of_mem

set_option autoImplicit false

section Order

theorem deposited_first_total (left right : StoredBlob) :
    (depositedFirst left right || depositedFirst right left) = true := by
  unfold depositedFirst
  simp only [Bool.or_eq_true, Bool.and_eq_true, decide_eq_true_eq]
  rcases Nat.lt_trichotomy left.mod right.mod with before | same | after
  · exact Or.inl (Or.inl before)
  · rcases String.le_total left.name right.name with first | second
    · exact Or.inl (Or.inr ⟨same, first⟩)
    · exact Or.inr (Or.inr ⟨same.symm, second⟩)
  · exact Or.inr (Or.inl after)

theorem deposited_first_trans (first second third : StoredBlob)
    (one : depositedFirst first second = true) (two : depositedFirst second third = true) :
    depositedFirst first third = true := by
  unfold depositedFirst at one two ⊢
  simp only [Bool.or_eq_true, Bool.and_eq_true, decide_eq_true_eq] at one two ⊢
  rcases one with before | ⟨same, earlier⟩
  · rcases two with later | ⟨equal, _⟩
    · exact Or.inl (Nat.lt_trans before later)
    · exact Or.inl (equal ▸ before)
  · rcases two with later | ⟨equal, name⟩
    · exact Or.inl (same ▸ later)
    · exact Or.inr ⟨same.trans equal, String.le_trans earlier name⟩

theorem deposited_first_antisymm {left right : StoredBlob} (one : depositedFirst left right = true)
    (two : depositedFirst right left = true) :
    left.name = right.name := by
  unfold depositedFirst at one two
  simp only [Bool.or_eq_true, Bool.and_eq_true, decide_eq_true_eq] at one two
  rcases one with before | ⟨same, earlier⟩
  · rcases two with later | ⟨equal, _⟩ <;> omega
  · rcases two with later | ⟨_, name⟩
    · omega
    · exact String.le_antisymm earlier name

theorem stored_blobs_ordered (m : Mailbox) (box : String) :
    (storedBlobs m box).Pairwise fun left right => depositedFirst left right = true := by
  unfold storedBlobs
  split
  · exact List.Pairwise.nil
  · exact pairwise_mergeSort deposited_first_trans deposited_first_total _

variable {Item : Type*}

theorem front_and_rest {front : Item → Bool} {list : List Item}
    (sorted : list.Pairwise fun left right => (front left || !front right) = true) :
    list = list.filter front ++ list.filter fun item => !front item := by
  induction list with
  | nil => rfl
  | cons head rest ih =>
    obtain ⟨first, later⟩ := pairwise_cons.mp sorted
    cases passes : front head with
    | true =>
      rw [filter_cons_of_pos passes, filter_cons_of_neg (by simp [passes]),
        cons_append, ← ih later]
    | false =>
      have none : rest.filter front = [] := by
        rw [filter_eq_nil_iff]
        intro item mem
        have behind := first item mem
        rw [passes] at behind
        simpa using behind
      have all : (rest.filter fun item => !front item) = rest := by
        rw [filter_eq_self]
        intro item mem
        simpa [passes] using first item mem
      rw [filter_cons_of_neg (by simp [passes]), filter_cons_of_pos (by simp [passes]),
        none, all, nil_append]

theorem front_sort_eq (front : Item → Bool) (list : List Item) :
    (list.mergeSort fun left right => front left || !front right) =
      list.filter front ++ list.filter fun item => !front item := by
  have trans : ∀ first second third : Item, (front first || !front second) = true →
      (front second || !front third) = true → (front first || !front third) = true := by
    intro first second third
    cases front first <;> cases front second <;> cases front third <;> simp
  have total : ∀ left right : Item,
      ((front left || !front right) || (front right || !front left)) = true := by
    intro left right
    cases front left <;> cases front right <;> simp
  have perm := mergeSort_perm list fun left right => front left || !front right
  have part : ∀ test : Item → Bool,
      (∀ left right, test left = true → test right = true → (front left || !front right) = true) →
        (list.mergeSort fun left right => front left || !front right).filter test =
          list.filter test := by
    intro test alike
    have stood : (list.filter test).Sublist
        (list.mergeSort fun left right => front left || !front right) := by
      refine sublist_mergeSort trans total ?_ filter_sublist
      rw [pairwise_iff_forall_sublist]
      intro left right pair
      exact alike left right (mem_filter.mp (pair.subset (by simp))).2
        (mem_filter.mp (pair.subset (by simp))).2
    have kept := stood.filter test
    have twice : (list.filter test).filter test = list.filter test := by
      simp
    rw [twice] at kept
    exact (kept.eq_of_length (perm.filter test).length_eq.symm).symm
  have sorted := pairwise_mergeSort trans total list
  rw [front_and_rest sorted, part front, part fun item => !front item]
  · intro left right one two
    simp_all
  · intro left right one two
    simp_all

end Order

section Origins

variable {m middle after : Mailbox} {box : String}

/-- What is left of a box was there before, recorded to the same source. -/
def KeepsOrigins (box : String) (before after : Mailbox) : Prop :=
  ∀ id, after.blobAt box id ≠ none → after.blobAt box id = before.blobAt box id ∧
    after.blobOrigin.get (box, id) = before.blobOrigin.get (box, id)

theorem KeepsOrigins.refl (box : String) (m : Mailbox) : KeepsOrigins box m m :=
  fun _ _ => ⟨rfl, rfl⟩

theorem KeepsOrigins.trans (first : KeepsOrigins box m middle)
    (second : KeepsOrigins box middle after) : KeepsOrigins box m after := by
  intro id there
  obtain ⟨blob, origin⟩ := second id there
  obtain ⟨earlier, before⟩ := first id (blob ▸ there)
  exact ⟨blob.trans earlier, origin.trans before⟩

theorem KeepsOrigins.of_same (blobs : ∀ id, after.blobAt box id = m.blobAt box id)
    (origins : after.blobOrigin = m.blobOrigin) : KeepsOrigins box m after := by
  intro id _
  exact ⟨blobs id, by rw [origins]⟩

theorem KeepsOrigins.of_removed {place id : String}
    (blobs : ∀ other name, after.blobAt other name =
      if (other, name) = (place, id) then none else m.blobAt other name)
    (origins : after.blobOrigin = m.blobOrigin.delete (place, id)) :
    KeepsOrigins box m after := by
  intro name there
  rw [blobs] at there ⊢
  split_ifs at there ⊢ with same
  · exact absurd rfl there
  · rw [origins, get_delete, if_neg same]
    exact ⟨rfl, rfl⟩

theorem write_index_origins (faults : Faults) (m : Mailbox) (box : String) (index : AckIndex) :
    (writeAckIndex faults m box index).blobOrigin = m.blobOrigin := by
  unfold writeAckIndex
  split
  · rfl
  · dsimp only
    split_ifs
    all_goals rfl

theorem drop_acks_origins (faults : Faults) (m : Mailbox) (box : String) (ids : List String) :
    (dropAcks faults m box ids).blobOrigin = m.blobOrigin := by
  unfold dropAcks
  dsimp only
  split_ifs
  · exact write_index_origins _ _ _ _
  · rfl

theorem remove_empty_box_origins (faults : Faults) (m : Mailbox) (box : String) :
    (removeEmptyBox faults m box).blobOrigin = m.blobOrigin := by
  unfold removeEmptyBox
  split
  · rfl
  · rename_i removed gone
    obtain ⟨-, -, -, -, rfl⟩ := removed_box_eq gone
    rfl

theorem take_acked_origins (m : Mailbox) (keepBox place id : String) :
    KeepsOrigins box m (takeAcked noFaults m keepBox place id).1 := by
  have blobs := take_acked_blob_at m keepBox place id
  cases there : m.blobAt place id with
  | none =>
    refine KeepsOrigins.of_same ?_ ?_
    · intro name
      rw [blobs]
      split_ifs with same
      · obtain ⟨rfl, rfl⟩ := Prod.mk.inj same
        exact there.symm
      · rfl
    · unfold takeAcked
      rw [there]
      dsimp only
      rw [forget_acked_eq]
  | some blob =>
    refine KeepsOrigins.of_removed blobs ?_
    obtain ⟨removed, gone⟩ := no_faults_remove there
    have origins := (cuts_of_removed gone there).origins
    unfold takeAcked
    rw [there, gone]
    dsimp only
    split_ifs
    · rw [drop_acks_origins]
      exact origins
    · rw [remove_empty_box_origins, drop_acks_origins]
      exact origins

theorem make_room_origins (charge : Int) (keepBox : String) (fuel : Nat) (m : Mailbox)
    (gone : List String) :
    KeepsOrigins box m (makeRoomLoop noFaults charge keepBox fuel m gone).1 := by
  induction fuel generalizing m gone with
  | zero => exact KeepsOrigins.refl box m
  | succ fuel ih =>
    unfold makeRoomLoop
    split
    · split
      · exact KeepsOrigins.refl box m
      · exact (take_acked_origins m keepBox _ _).trans (ih _ _)
    · exact KeepsOrigins.refl box m

section

variable {stored : List StoredBlob} (there : StoredThere m box stored) (extra : Nat)
  (evicted : List String)
include there extra evicted

theorem shed_overflow_origins :
    KeepsOrigins box m
      (shedOverflow noFaults box stored (totalSize stored + extra) m evicted).1 := by
  induction stored generalizing m evicted with
  | nil => exact KeepsOrigins.refl box m
  | cons oldest rest ih =>
    obtain ⟨blob, listed, size⟩ := there.2 oldest (by simp)
    unfold shedOverflow
    split
    · obtain ⟨removed, gone⟩ := no_faults_remove listed
      have cut := cuts_of_removed gone listed
      have less : totalSize (oldest :: rest) + extra - oldest.size = totalSize rest + extra := by
        simp only [totalSize, map_cons, sum_cons]
        omega
      rw [gone]
      dsimp only
      rw [less, size]
      exact (KeepsOrigins.of_removed cut.blob_at cut.origins).trans
        (ih (there.after_cut cut) _)
    · exact KeepsOrigins.refl box m

theorem shed_overflow_stops (count : Nat) (few : (stored.drop count).length + 1 ≤ mailboxMaxMsgs)
    (light : totalSize (stored.drop count) + extra ≤ mailboxMaxBytes) :
    ∃ shed ≤ count, (shedOverflow noFaults box stored (totalSize stored + extra) m evicted).2 =
      evicted ++ (stored.take shed).map StoredBlob.name := by
  induction stored generalizing m evicted count with
  | nil => exact ⟨0, Nat.zero_le _, by simp [shedOverflow]⟩
  | cons oldest rest ih =>
    obtain ⟨blob, listed, size⟩ := there.2 oldest (by simp)
    unfold shedOverflow
    by_cases past : mailboxMaxMsgs < rest.length + 1 + 1 ∨
        mailboxMaxBytes < totalSize (oldest :: rest) + extra
    · cases count with
      | zero =>
        rw [drop_zero] at few light
        rw [length_cons] at few
        omega
      | succ count =>
        obtain ⟨removed, gone⟩ := no_faults_remove listed
        have cut := cuts_of_removed gone listed
        have less : totalSize (oldest :: rest) + extra - oldest.size =
            totalSize rest + extra := by
          simp only [totalSize, map_cons, sum_cons]
          omega
        rw [if_pos past, gone]
        dsimp only
        rw [less, size]
        obtain ⟨shed, within, names⟩ :=
          ih (there.after_cut cut) (evicted ++ [oldest.name]) count few light
        refine ⟨shed + 1, Nat.succ_le_succ within, ?_⟩
        rw [names]
        simp
    · rw [if_neg past]
      exact ⟨0, Nat.zero_le _, by simp⟩

end

end Origins

section Deposits

variable {m : Mailbox} {box source : String} {blob : Bytes} {arrival : DepositArrival}

def recordedTo (m : Mailbox) (box source id : String) : Bool :=
  ((m.blobOrigin.get (box, id)).map MailboxOrigin.source).getD "" == source

/-- The blobs a deposit is accepted for are those the caps of its box make it shed. -/
def shedByDeposit (m : Mailbox) (arrival : DepositArrival) : List String :=
  match arrival.checked with
  | .error _ => []
  | .ok (box, blob) =>
    if (depositLocked m box blob arrival).1 = 204 then
      (shedOverflow arrival.faults box (storedLeft m box blob arrival)
        (totalSize (storedLeft m box blob arrival) + blob.length)
        (storeBlob (roomMade m box blob arrival) box blob arrival) []).2
    else []

/-- Those of them that are not recorded to the source that deposits. -/
def othersShed (m : Mailbox) (arrival : DepositArrival) : List String :=
  match arrival.checked with
  | .error _ => []
  | .ok (box, _) =>
    (shedByDeposit m arrival).filter fun id => !recordedTo m box arrival.source id

/-- What a sequence of deposits pushes out of the others' blobs. -/
def othersPushedOut : MailboxWorld → List DepositArrival → List String
  | _, [] => []
  | world, arrival :: rest =>
    othersShed world.mailbox arrival ++
      match mailboxStep world (.deposit arrival) with
      | none => []
      | some next => othersPushedOut next rest

/-- The blobs of a box not recorded to a source, oldest first. -/
def othersIn (m : Mailbox) (box source : String) : List StoredBlob :=
  (storedBlobs m box).filter fun found => !recordedTo m box source found.name

/-- The others' blobs but for the oldest leave room for one of this size. -/
def othersLeaveRoom (m : Mailbox) (box source : String) (size : Nat) : Bool :=
  let rest := (othersIn m box source).tail
  decide (rest.length + 1 ≤ mailboxMaxMsgs) && decide (totalSize rest + size ≤ mailboxMaxBytes)

theorem mem_stored_blobs {found : StoredBlob} : found ∈ storedBlobs m box ↔
    ∃ blob, m.blobAt box found.name = some blob ∧ found.size = blob.size ∧
      found.mod = blob.mod := by
  unfold storedBlobs
  cases here : m.disk.get box with
  | none =>
    have missing : m.blobAt box found.name = none := by
      unfold Mailbox.blobAt
      rw [here]
      rfl
    simp [missing]
  | some dir =>
    rw [blob_at_of_dir here]
    dsimp only
    rw [mem_mergeSort, List.mem_map]
    constructor
    · rintro ⟨⟨id, blob⟩, listed, rfl⟩
      exact ⟨blob, get_of_mem listed, rfl, rfl⟩
    · rintro ⟨blob, there, size, mod⟩
      refine ⟨(found.name, blob), mem_of_get there, ?_⟩
      dsimp only
      rw [← size, ← mod]

theorem recorded_of_kept {after : Mailbox} {id : String} (kept : KeepsOrigins box m after)
    (there : after.blobAt box id ≠ none) :
    recordedTo after box source id = recordedTo m box source id := by
  unfold recordedTo
  rw [(kept id there).2]

/-- What is left of the others' blobs while `out` of them were pushed out. -/
structure OneOut (others : List StoredBlob) (box source : String) (m : Mailbox) (out : Nat) :
    Prop where
  few : out ≤ 1
  left : ∀ id blob, m.blobAt box id = some blob → recordedTo m box source id = true ∨
    (⟨id, blob.size, blob.mod⟩ : StoredBlob) ∈ others.drop out

variable {others : List StoredBlob} {out : Nat}

theorem OneOut.kept {after : Mailbox} (held : OneOut others box source m out)
    (kept : KeepsOrigins box m after) :
    OneOut others box source after out := by
  refine ⟨held.few, ?_⟩
  intro id blob there
  have some_blob : after.blobAt box id ≠ none := by
    rw [there]
    nofun
  rw [recorded_of_kept kept some_blob]
  exact held.left id blob ((kept id some_blob).1.symm.trans there)

theorem total_size_le {part all : List StoredBlob} (distinct : part.Nodup)
    (among : ∀ found ∈ part, found ∈ all) :
    part.length ≤ all.length ∧ totalSize part ≤ totalSize all := by
  obtain ⟨middle, same, within⟩ := subperm_of_subset distinct among
  refine ⟨same.length_eq ▸ within.length_le, ?_⟩
  unfold totalSize
  rw [← (same.map StoredBlob.size).sum_eq]
  exact (within.map StoredBlob.size).sum_le_sum fun _ _ => Nat.zero_le _

theorem room_base_origins (m : Mailbox) (box : String) (arrival : DepositArrival) :
    KeepsOrigins box m (roomBase m box arrival) := by
  by_cases missing : m.disk.get box = none
  · intro id there
    have gone : m.blobAt box id = none := by
      unfold Mailbox.blobAt
      rw [missing]
      rfl
    rcases (loses_room_base m box arrival).blobs box id with kept | ⟨_, lost⟩
    · rw [kept] at there
      exact absurd gone there
    · exact absurd lost there
  · have same : roomBase m box arrival = m := by
      unfold roomBase
      rw [if_neg]
      rintro ⟨none, _⟩
      exact missing (isNone_iff_eq_none.mp none)
    rw [same]
    exact KeepsOrigins.refl box m

theorem room_made_origins (m : Mailbox) (box : String) (blob : Bytes)
    (clean : arrival.faults = noFaults) : KeepsOrigins box m (roomMade m box blob arrival) := by
  refine (room_base_origins m box arrival).trans ?_
  unfold roomMade mailboxMakeRoom
  rw [clean]
  exact make_room_origins _ _ _ _ _

/-- What a deposit may shed: the source's own blobs, then the others', oldest first. -/
structure ShedsFrom (m : Mailbox) (box : String) (blob : Bytes) (arrival : DepositArrival)
    (own foreign : List StoredBlob) : Prop where
  split : storedLeft m box blob arrival = own ++ foreign
  mine : ∀ found ∈ own, recordedTo m box arrival.source found.name = true
  theirs : ∀ found ∈ foreign, recordedTo m box arrival.source found.name = false
  there : ∀ found ∈ foreign, ∃ blob, m.blobAt box found.name = some blob ∧
    found.size = blob.size ∧ found.mod = blob.mod
  sorted : foreign.Pairwise fun left right => depositedFirst left right = true
  distinct : (foreign.map StoredBlob.name).Nodup

/-- The blobs of a source, or of the others, that are left when room is made. -/
def leftOf (m : Mailbox) (box : String) (blob : Bytes) (arrival : DepositArrival)
    (mine : Bool) : List StoredBlob :=
  ((storedBlobs (roomBase m box arrival) box).filter fun found =>
    recordedTo (roomBase m box arrival) box arrival.source found.name == mine).filter fun found =>
      decide (found.name ∉ (mailboxMakeRoom arrival.faults (roomBase m box arrival)
        (mailboxCharge blob.length) box).2)

theorem sheds_from (shared : arrival.source ≠ "") (clean : arrival.faults = noFaults) (m : Mailbox)
    (box : String) (blob : Bytes) :
    ShedsFrom m box blob arrival (leftOf m box blob arrival true)
      (leftOf m box blob arrival false) := by
  have base := room_base_origins m box arrival
  have order : sheddingOrder (roomBase m box arrival) box arrival.source =
      ((storedBlobs (roomBase m box arrival) box).filter fun found =>
        recordedTo (roomBase m box arrival) box arrival.source found.name) ++
        (storedBlobs (roomBase m box arrival) box).filter fun found =>
          !recordedTo (roomBase m box arrival) box arrival.source found.name := by
    unfold sheddingOrder
    rw [if_pos shared]
    exact front_sort_eq _ _
  have split : storedLeft m box blob arrival =
      leftOf m box blob arrival true ++ leftOf m box blob arrival false := by
    unfold storedLeft leftOf
    rw [order, filter_append]
    simp only [beq_true, beq_false]
  have listed : ∀ mine, ∀ found ∈ leftOf m box blob arrival mine,
      recordedTo m box arrival.source found.name = mine ∧
        ∃ blob, m.blobAt box found.name = some blob ∧ found.size = blob.size ∧
          found.mod = blob.mod := by
    intro mine found mem
    obtain ⟨inside, recorded⟩ := mem_filter.mp (mem_filter.mp mem).1
    obtain ⟨known, there, size, mod⟩ := mem_stored_blobs.mp inside
    have present : (roomBase m box arrival).blobAt box found.name ≠ none := by
      rw [there]
      nofun
    rw [recorded_of_kept base present] at recorded
    exact ⟨eq_of_beq recorded, known, (base _ present).1.symm.trans there, size, mod⟩
  have names := (stored_left_all m box blob clean).there.1
  rw [split, map_append, nodup_append] at names
  refine ⟨split, fun found mem => (listed true found mem).1,
    fun found mem => (listed false found mem).1,
    fun found mem => (listed false found mem).2, ?_, names.2.1⟩
  exact ((stored_blobs_ordered _ box).filter _).filter _

theorem behind_oldest {others all : List StoredBlob}
    (ordered : all.Pairwise fun left right => depositedFirst left right = true)
    (sorted : others.Pairwise fun left right => depositedFirst left right = true)
    (distinct : (others.map StoredBlob.name).Nodup) (among : ∀ found ∈ others, found ∈ all) :
    ∀ found ∈ others.tail, found ∈ all.tail := by
  intro found mem
  cases others with
  | nil => cases mem
  | cons first rest =>
    cases all with
    | nil => exact absurd (among first mem_cons_self) not_mem_nil
    | cons oldest later =>
      have apart : first.name ≠ found.name := by
        intro same
        exact (nodup_cons.mp distinct).1 (same ▸ mem_map.mpr ⟨found, mem, rfl⟩)
      rcases mem_cons.mp (among found (mem_cons_of_mem _ mem)) with same | behind
      · have front := (pairwise_cons.mp sorted).1 found mem
        rcases mem_cons.mp (among first mem_cons_self) with equal | after
        · rw [same, equal] at apart
          exact absurd rfl apart
        · have back := (pairwise_cons.mp ordered).1 first after
          rw [same] at front apart
          exact absurd (deposited_first_antisymm front back) apart
      · exact behind

theorem store_blob_origins (shared : arrival.source ≠ "") (m : Mailbox) (box : String)
    (blob : Bytes) : (storeBlob m box blob arrival).blobOrigin =
      m.blobOrigin.set (box, arrival.id) ⟨arrival.source, mailboxCharge blob.length⟩ := by
  rw [store_blob_eq, if_pos shared]
  rfl

theorem accepted_origins (m : Mailbox) {stored : List StoredBlob}
    (there : StoredThere (storeBlob m box blob arrival) box stored)
    (clean : arrival.faults = noFaults) :
    KeepsOrigins box (storeBlob m box blob arrival)
      (acceptedDeposit m box blob stored arrival) := by
  have shed := shed_overflow_origins there blob.length []
  unfold acceptedDeposit
  rw [clean]
  dsimp only
  split
  · exact shed
  · exact shed.trans (KeepsOrigins.of_same (drop_acks_blob_at _ box _ box)
      (drop_acks_origins _ _ _ _))

theorem accepted_gone (m : Mailbox) {stored : List StoredBlob}
    (there : StoredThere (storeBlob m box blob arrival) box stored)
    (clean : arrival.faults = noFaults) {id : String}
    (kept : (acceptedDeposit m box blob stored arrival).blobAt box id ≠ none) :
    id ∉ (shedOverflow arrival.faults box stored (totalSize stored + blob.length)
      (storeBlob m box blob arrival) []).2 := by
  intro shed
  obtain ⟨count, -, names, cuts, -⟩ := shed_overflow_cuts there blob.length []
  rw [clean, names, nil_append] at shed
  refine kept ?_
  have gone : (shedOverflow noFaults box stored (totalSize stored + blob.length)
      (storeBlob m box blob arrival) []).1.blobAt box id = none := by
    rw [cuts.blob_at, if_pos ⟨rfl, shed⟩]
  unfold acceptedDeposit
  rw [clean]
  dsimp only
  split
  · exact gone
  · rw [drop_acks_blob_at]
    exact gone

theorem OneOut.among {others own foreign : List StoredBlob}
    (held : OneOut others box arrival.source m out)
    (sheds : ShedsFrom m box blob arrival own foreign) :
    ∀ found ∈ foreign, found ∈ others.drop out := by
  intro found mem
  obtain ⟨known, there, size, mod⟩ := sheds.there found mem
  rcases held.left found.name known there with recorded | counted
  · rw [sheds.theirs found mem] at recorded
    cases recorded
  · rw [← size, ← mod] at counted
    exact counted

theorem OneOut.behind {others own foreign : List StoredBlob}
    (held : OneOut others box arrival.source m out)
    (sheds : ShedsFrom m box blob arrival own foreign)
    (ordered : others.Pairwise fun left right => depositedFirst left right = true) :
    ∀ found ∈ foreign.drop (1 - out), found ∈ others.tail := by
  have among := held.among sheds
  rcases Nat.le_one_iff_eq_zero_or_eq_one.mp held.few with zero | one
  · rw [zero] at among ⊢
    rw [Nat.sub_zero, drop_one]
    exact behind_oldest ordered sheds.sorted sheds.distinct among
  · rw [one] at among ⊢
    rw [Nat.sub_self, drop_zero]
    rw [drop_one] at among
    exact among

theorem ShedsFrom.pushed {own foreign : List StoredBlob}
    (sheds : ShedsFrom m box blob arrival own foreign) (shed : Nat) :
    ((((storedLeft m box blob arrival).take shed).map StoredBlob.name).filter fun id =>
        !recordedTo m box arrival.source id) =
      (foreign.take (shed - own.length)).map StoredBlob.name := by
  rw [sheds.split, take_append, map_append, filter_append]
  have none : (((own.take shed).map StoredBlob.name).filter fun id =>
      !recordedTo m box arrival.source id) = [] := by
    rw [filter_eq_nil_iff]
    intro id mem
    obtain ⟨found, taken, rfl⟩ := mem_map.mp mem
    simp [sheds.mine found (mem_of_mem_take taken)]
  have every : (((foreign.take (shed - own.length)).map StoredBlob.name).filter fun id =>
      !recordedTo m box arrival.source id) =
        (foreign.take (shed - own.length)).map StoredBlob.name := by
    rw [filter_eq_self]
    intro id mem
    obtain ⟨found, taken, rfl⟩ := mem_map.mp mem
    simp [sheds.theirs found (mem_of_mem_take taken)]
  rw [none, every, nil_append]

theorem accepted_left (shared : arrival.source ≠ "") (clean : arrival.faults = noFaults)
    (absent : (roomMade m box blob arrival).blobAt box arrival.id = none) {id : String}
    {found : Blob}
    (kept : (acceptedDeposit (roomMade m box blob arrival) box blob
      (storedLeft m box blob arrival) arrival).blobAt box id = some found) :
    recordedTo (acceptedDeposit (roomMade m box blob arrival) box blob
        (storedLeft m box blob arrival) arrival) box arrival.source id = true ∨
      recordedTo (acceptedDeposit (roomMade m box blob arrival) box blob
          (storedLeft m box blob arrival) arrival) box arrival.source id =
        recordedTo m box arrival.source id ∧ m.blobAt box id = some found ∧
          (roomMade m box blob arrival).blobAt box id = some found := by
  have there : StoredThere (storeBlob (roomMade m box blob arrival) box blob arrival) box
      (storedLeft m box blob arrival) :=
    (stored_left_all m box blob clean).there.after_store absent
  have present : (acceptedDeposit (roomMade m box blob arrival) box blob
      (storedLeft m box blob arrival) arrival).blobAt box id ≠ none := by
    rw [kept]
    nofun
  have later := accepted_origins (roomMade m box blob arrival) there clean
  rw [recorded_of_kept later present]
  have stored := (later id present).1.symm.trans kept
  rw [store_blob_at] at stored
  by_cases new : id = arrival.id
  · left
    rw [new]
    unfold recordedTo
    rw [store_blob_origins shared, get_set, if_pos rfl]
    simp
  · right
    have apart : (box, id) ≠ (box, arrival.id) := fun same => new (Prod.mk.inj same).2
    rw [if_neg apart] at stored
    have made := room_made_origins m box blob clean
    have there_made : (roomMade m box blob arrival).blobAt box id ≠ none := by
      rw [stored]
      nofun
    refine ⟨?_, (made id there_made).1.symm.trans stored, stored⟩
    rw [← recorded_of_kept made there_made]
    unfold recordedTo
    rw [store_blob_origins shared, get_set, if_neg apart]

section

variable (ordered : others.Pairwise fun left right => depositedFirst left right = true)
include ordered

theorem OneOut.accepted (held : OneOut others box arrival.source m out)
    (shared : arrival.source ≠ "") (clean : arrival.faults = noFaults)
    (absent : (roomMade m box blob arrival).blobAt box arrival.id = none)
    (few : others.tail.length + 1 ≤ mailboxMaxMsgs)
    (light : totalSize others.tail + blob.length ≤ mailboxMaxBytes) :
    OneOut others box arrival.source
      (acceptedDeposit (roomMade m box blob arrival) box blob (storedLeft m box blob arrival) arrival)
      (out + (((shedOverflow arrival.faults box (storedLeft m box blob arrival)
        (totalSize (storedLeft m box blob arrival) + blob.length)
        (storeBlob (roomMade m box blob arrival) box blob arrival) []).2).filter fun id =>
          !recordedTo m box arrival.source id).length) := by
  have sheds := sheds_from shared clean m box blob
  generalize leftOf m box blob arrival true = own at sheds
  generalize leftOf m box blob arrival false = foreign at sheds
  have all := stored_left_all m box blob clean
  have there : StoredThere (storeBlob (roomMade m box blob arrival) box blob arrival) box
      (storedLeft m box blob arrival) := all.there.after_store absent
  have behind := held.behind sheds ordered
  obtain ⟨fewer, lighter⟩ :=
    total_size_le ((sheds.distinct.of_map _).sublist (drop_sublist _ _)) behind
  have rest : (storedLeft m box blob arrival).drop (own.length + (1 - out)) =
      foreign.drop (1 - out) := by
    rw [sheds.split, drop_append]
    simp
  obtain ⟨shed, within, evicted⟩ := shed_overflow_stops there blob.length []
    (own.length + (1 - out)) (by rw [rest]; omega) (by rw [rest]; omega)
  rw [nil_append, ← clean] at evicted
  rw [evicted, sheds.pushed, length_map]
  have short : (foreign.take (shed - own.length)).length ≤ 1 - out := by
    rw [length_take]
    omega
  have one := held.few
  refine ⟨by omega, ?_⟩
  intro id found kept
  rcases accepted_left shared clean absent kept with recorded | ⟨same, before, made⟩
  · exact Or.inl recorded
  · rw [same]
    by_cases recorded : recordedTo m box arrival.source id = true
    · exact Or.inl recorded
    · right
      have counted := (held.left id found before).resolve_left recorded
      cases taken : (foreign.take (shed - own.length)).length with
      | zero => exact counted
      | succ more =>
        have zero : out = 0 := by omega
        have single : more = 0 := by omega
        rw [length_take] at taken
        have present : (roomMade m box blob arrival).blobAt box id ≠ none := by
          rw [made]
          nofun
        obtain ⟨listed, mem, name⟩ := mem_map.mp (all.all id present)
        have unshed : id ∉ ((storedLeft m box blob arrival).take shed).map StoredBlob.name := by
          rw [← evicted]
          refine accepted_gone (roomMade m box blob arrival) there clean ?_
          rw [kept]
          nofun
        rw [sheds.split] at mem unshed
        rcases mem_append.mp mem with mine | theirs
        · exact absurd (name ▸ sheds.mine listed mine) recorded
        · have whole : listed = ⟨id, found.size, found.mod⟩ := by
            obtain ⟨known, there, size, mod⟩ := sheds.there listed theirs
            rw [name, before] at there
            cases there
            rw [← name, ← size, ← mod]
          have after : listed ∈ foreign.drop 1 := by
            rw [← take_append_drop (shed - own.length) foreign] at theirs
            rcases mem_append.mp theirs with first | later
            · refine absurd ?_ unshed
              rw [take_append]
              exact mem_map.mpr ⟨listed, mem_append_right _ first, name⟩
            · exact (drop_sublist_drop_left foreign (by omega)).subset later
          rw [zero] at behind ⊢
          rw [single, drop_one, ← whole]
          exact behind listed after

theorem OneOut.deposit {world next : MailboxWorld}
    (held : OneOut others box arrival.source world.mailbox out) (shared : arrival.source ≠ "")
    (clean : arrival.faults = noFaults)
    (room : ∀ target blob, arrival.checked = .ok (target, blob) → target = box ∧
      others.tail.length + 1 ≤ mailboxMaxMsgs ∧
        totalSize others.tail + blob.length ≤ mailboxMaxBytes)
    (known : IdsKnown world.mailbox world.ids)
    (stepped : mailboxStep world (.deposit arrival) = some next) :
    OneOut others box arrival.source next.mailbox
      (out + (othersShed world.mailbox arrival).length) := by
  obtain ⟨fresh, rfl⟩ := deposit_stepped stepped
  rw [deposit_step_mailbox]
  cases checked : arrival.checked with
  | error status =>
    unfold othersShed handleMailboxDeposit
    rw [checked]
    exact held
  | ok request =>
    obtain ⟨target, blob⟩ := request
    obtain ⟨rfl, few, light⟩ := room target blob checked
    have made := held.kept (room_made_origins world.mailbox target blob clean)
    have left : IdsKnown (roomMade world.mailbox target blob arrival) world.ids :=
      known.loses (loses_room_made world.mailbox target blob arrival)
    have absent := (left.fresh (fresh_id_unused fresh checked)).1
    have outcome := deposit_outcome world.mailbox target blob arrival
    unfold othersShed shedByDeposit
    rw [handle_deposit_eq checked, checked]
    dsimp only
    generalize depositLocked world.mailbox target blob arrival = result at outcome
    cases outcome with
    | early status refused =>
      rw [if_neg refused]
      exact held.kept (room_base_origins world.mailbox target arrival)
    | late status refused =>
      rw [if_neg refused]
      exact made
    | failed =>
      have refused : (500 : Nat) ≠ 204 := by decide
      rw [if_neg refused, failed_write_eq clean absent]
      exact made
    | accepted fits =>
      rw [if_pos rfl]
      exact held.accepted ordered shared clean absent few light

theorem OneOut.run {world next : MailboxWorld}
    (shared : source ≠ "") {deposits : List DepositArrival}
    (held : OneOut others box source world.mailbox out)
    (asked : ∀ arrival ∈ deposits, arrival.source = source ∧ arrival.faults = noFaults ∧
      ∀ target blob, arrival.checked = .ok (target, blob) → target = box ∧
        others.tail.length + 1 ≤ mailboxMaxMsgs ∧
          totalSize others.tail + blob.length ≤ mailboxMaxBytes)
    (known : IdsKnown world.mailbox world.ids)
    (ran : Library.run mailboxStep world (deposits.map .deposit) = some next) :
    OneOut others box source next.mailbox (out + (othersPushedOut world deposits).length) := by
  induction deposits generalizing world out with
  | nil =>
    cases ran
    exact held
  | cons arrival rest ih =>
    obtain ⟨middle, stepped, later⟩ := run_cons ran
    obtain ⟨rfl, clean, room⟩ := asked arrival mem_cons_self
    have step := held.deposit ordered shared clean room known stepped
    have whole := ih step (fun other mem => asked other (mem_cons_of_mem _ mem))
      (known.step stepped) later
    unfold othersPushedOut
    rw [stepped, length_append, ← Nat.add_assoc]
    exact whole

end

theorem others_in_one_out (m : Mailbox) (box source : String) :
    OneOut (othersIn m box source) box source m 0 := by
  refine ⟨Nat.zero_le 1, ?_⟩
  intro id found there
  cases recorded : recordedTo m box source id with
  | true => exact Or.inl rfl
  | false =>
    right
    refine mem_filter.mpr ⟨mem_stored_blobs.mpr ⟨found, there, rfl, rfl⟩, ?_⟩
    rw [recorded]
    rfl

theorem pushes_out_two (shared : arrival.source ≠ "") (clean : arrival.faults = noFaults)
    (checked : arrival.checked = .ok (box, blob))
    (accepted : (depositLocked m box blob arrival).1 = 204)
    (absent : (roomMade m box blob arrival).blobAt box arrival.id = none)
    (several : 2 ≤ (leftOf m box blob arrival false).length)
    (heavy : mailboxMaxBytes < totalSize (leftOf m box blob arrival false).tail + blob.length) :
    2 ≤ (othersShed m arrival).length := by
  have sheds := sheds_from shared clean m box blob
  have there : StoredThere (storeBlob (roomMade m box blob arrival) box blob arrival) box
      (storedLeft m box blob arrival) :=
    (stored_left_all m box blob clean).there.after_store absent
  obtain ⟨count, -, names, -, fits⟩ := shed_overflow_cuts there blob.length []
  rw [nil_append, ← clean] at names
  unfold othersShed shedByDeposit
  rw [checked]
  dsimp only
  rw [if_pos accepted, names, sheds.pushed, length_map, length_take]
  rw [sheds.split] at fits
  generalize leftOf m box blob arrival false = foreign at several heavy fits
  generalize leftOf m box blob arrival true = own at fits
  by_contra few
  have early : count - own.length ≤ 1 := by omega
  have rest : foreign.tail.Sublist ((own ++ foreign).drop count) := by
    rw [← drop_one, drop_append]
    exact (drop_sublist_drop_left foreign early).trans (sublist_append_right _ _)
  have weight : totalSize foreign.tail ≤ totalSize ((own ++ foreign).drop count) :=
    (rest.map StoredBlob.size).sum_le_sum fun _ _ => Nat.zero_le _
  rcases fits with none_left | ⟨_, light⟩
  · rw [none_left, sublist_nil] at rest
    have short := congrArg List.length rest
    rw [length_tail, length_nil] at short
    omega
  · omega

theorem fitting_deposit_accepted (there : m.disk.get box ≠ none)
    (fits : mailboxFull m (mailboxCharge blob.length) = false)
    (within : overShare m box arrival.source (sheddingOrder m box arrival.source) blob.length =
      false) (made : arrival.mkdirFails = false) (written : arrival.writeFails = false) :
    (depositLocked m box blob arrival).1 = 204 := by
  have placed : ¬((m.disk.get box).isNone = true ∧ mailboxGlobalMaxBoxes ≤ m.boxes) :=
    fun full => there (isNone_iff_eq_none.mp full.1)
  unfold depositLocked depositInto
  rw [if_neg placed]
  dsimp only
  rw [room_possible_of_fits fits, make_room_of_fits _ fits, within]
  simp only [Bool.not_true, Bool.false_eq_true, if_false, and_false]
  unfold depositWithRoom
  rw [fits, made, written]
  rfl

end Deposits

section SmallBlobs

def mixedSize (number : Nat) : Nat :=
  if number < 2 then 1 else if number = 2 then 16382 else 16384

def mixedBox : BoxDir where
  blobs :=
    { entries := (List.range 34).map fun number =>
        (hexText (number + 1), ⟨List.replicate (mixedSize number) 0, number + 1⟩)
      distinct := by
        rw [List.map_map]
        apply List.nodup_range.map
        intro left right same
        exact Nat.succ.inj (hex_text_injective same) }
  acks := none

def mixedDisk : MailboxDisk := .collect [(sampleBox, mixedBox)]

def mixedWorld : MailboxWorld := bootWorld mixedDisk (fun _ => 34) 34

def smallDeposit : DepositArrival :=
  { sampleDeposit sampleBox 1000 with
    request := some (sampleBox, "AAAA") }

theorem mixed_box_times : DirTimes mixedDisk (fun _ => 34) 34 := by
  intro box dir found
  refine ⟨Nat.le_refl 34, ?_⟩
  intro id blob listed
  have mem := collect_get_mem found
  rw [mem_singleton] at mem
  obtain ⟨-, rfl⟩ := Prod.mk.inj mem
  obtain ⟨number, low, same⟩ := mem_map.mp (mem_of_get listed)
  obtain ⟨-, rfl⟩ := Prod.mk.inj same
  exact Nat.succ_le_of_lt (mem_range.mp low)

theorem mixed_mailbox : mixedWorld.mailbox = countedAtBoot mixedDisk fun _ => 34 := by
  have none : ackedAtBoot mixedDisk = [] := by
    unfold ackedAtBoot
    simp [mixedDisk, collect_entries, ackedInBox, mixedBox]
  change mailboxInitUsedBytes mixedDisk (fun _ => 34) = _
  rw [init_used_bytes_eq, none]
  rfl

theorem mixed_disk : mixedWorld.mailbox.disk.get sampleBox = some mixedBox := by
  rw [mixed_mailbox]
  exact get_of_mem (by simp [countedAtBoot, mixedDisk, collect_entries])

theorem mixed_stored : storedBlobs mixedWorld.mailbox sampleBox =
    (List.range 34).map fun number =>
      (⟨hexText (number + 1), mixedSize number, number + 1⟩ : StoredBlob) := by
  unfold storedBlobs
  rw [mixed_disk]
  have listed : (mixedBox.blobs.entries.map fun entry =>
      (⟨entry.1, entry.2.size, entry.2.mod⟩ : StoredBlob)) =
        (List.range 34).map fun number => ⟨hexText (number + 1), mixedSize number, number + 1⟩ := by
    simp [mixedBox, Blob.size, Function.comp_def]
  dsimp only
  rw [listed]
  apply mergeSort_of_pairwise
  rw [pairwise_map]
  refine pairwise_lt_range.imp ?_
  intro left right less
  unfold depositedFirst
  simp [less]

theorem mixed_used : mixedWorld.mailbox.usedBytes =
    ((List.range 34).map fun number => mailboxCharge (mixedSize number)).sum := by
  rw [mixed_mailbox]
  simp [countedAtBoot, mixedDisk, OrderedMap.total, collect_entries, BoxDir.bytes,
    mixedBox, acksCharge, Blob.size, Function.comp_def]

theorem mixed_files : mixedWorld.mailbox.files = 34 := by
  rw [mixed_mailbox]
  simp [countedAtBoot, mixedDisk, OrderedMap.total, collect_entries, BoxDir.files,
    mixedBox, OrderedMap.size]

end SmallBlobs

end AwfulChat.Relay
