import AwfulChat.OpenView.Writers

/-!
# Pages of a conversation and what a view covers

What a read of the stored messages returns, and what the pieces of the view's writers make
of an ascending list of a conversation's messages.
-/

namespace AwfulChat.OpenView

open Library Library.OrderedMap MessageOrder
open List hiding get_of_mem

set_option autoImplicit false

variable {content : String → Message}

/-- The message that this id stands for. -/
def Genuine (content : String → Message) (row : Message) : Prop := content row.id = row

instance (row : Message) : Decidable (Genuine content row) :=
  inferInstanceAs (Decidable (content row.id = row))

theorem Genuine.same {left right : Message} (one : Genuine content left)
    (other : Genuine content right) (ids : left.id = right.id) : left = right := by
  have first : content left.id = left := one
  have second : content right.id = right := other
  rw [← first, ids, second]

/-- At or above the first of these rows, which may stand in any order. -/
def Reaches (rows : List Message) (row : Message) : Prop :=
  rows = [] ∨ ∃ first ∈ rows, rowBefore first row

instance (rows : List Message) (row : Message) : Decidable (Reaches rows row) :=
  inferInstanceAs (Decidable (_ ∨ _))

def Ascending (rows : List Message) : Prop :=
  rows.Pairwise fun left right => compareMessages (Row.cursor left) (Row.cursor right) < 0

theorem row_before_refl (row : Message) : rowBefore row row := before_refl _

theorem Genuine.eq_of_before {left right : Message} (one : Genuine content left)
    (other : Genuine content right) (ahead : rowBefore left right) (back : rowBefore right left) :
    left = right := by
  have cursors := before_antisymm ahead back
  exact one.same other (congrArg MessageCursor.id cursors)

variable {rows : List Message} {row : Message} {store : Store}

theorem ascending_of_sorted (genuine : ∀ row ∈ rows, Genuine content row) (unique : rows.Nodup)
    (sorted : rows.Pairwise rowBefore) : Ascending rows := by
  have both := sorted.and unique
  refine both.imp_of_mem ?_
  intro left right one other pair
  rw [compare_neg_iff]
  exact fun back => pair.2 ((genuine left one).eq_of_before (genuine right other) pair.1 back)

theorem ascending_sort (genuine : ∀ row ∈ rows, Genuine content row)
    (unique : rows.Nodup) : Ascending (sortRows rows) := by
  apply @ascending_of_sorted content
  · exact fun row mem => genuine row (mem_sort_rows.mp mem)
  · exact (sort_rows_perm rows).nodup_iff.mpr unique
  · exact sort_rows_pairwise rows

section

variable (ascending : Ascending rows)
include ascending

theorem Ascending.sorted :
    rows.Pairwise rowBefore := by
  refine ascending.imp ?_
  intro left right less
  exact le_of_lt less

theorem Ascending.nodup : rows.Nodup := by
  refine ascending.imp ?_
  rintro left right less rfl
  rw [compare_neg_iff] at less
  exact less (row_before_refl left)

theorem Ascending.distinct
    (genuine : ∀ row ∈ rows, Genuine content row) : (rows.map Message.id).Nodup := by
  apply List.Nodup.map_on _ ascending.nodup
  intro left one right other ids
  exact (genuine left one).same (genuine right other) ids

theorem Ascending.reaches :
    Reaches rows row ↔ ∀ first ∈ rows.head?, rowBefore first row := by
  cases rows with
  | nil => simp [Reaches]
  | cons head rest =>
    have sorted := pairwise_cons.mp ascending.sorted
    simp only [Reaches, List.head?_cons, Option.mem_def, Option.some.injEq, forall_eq']
    constructor
    · rintro (impossible | ⟨first, mem, before⟩)
      · cases impossible
      · rcases mem_cons.mp mem with rfl | later
        · exact before
        · exact before_trans (sorted.1 first later) before
    · exact fun before => Or.inr ⟨head, mem_cons_self, before⟩

end

theorem reaches_congr {left right : List Message}
    (same : ∀ other, other ∈ left ↔ other ∈ right) : Reaches left row ↔ Reaches right row := by
  have empty : left = [] ↔ right = [] := by
    simp only [eq_nil_iff_forall_not_mem, same]
  simp only [Reaches, empty, same]

theorem in_rows_iff {id : String} :
    inRows rows id = true ↔ ∃ row ∈ rows, row.id = id := by
  simp [inRows]

theorem in_rows_genuine (genuine : ∀ row ∈ rows, Genuine content row) (here : Genuine content row) :
    inRows rows row.id = true ↔ row ∈ rows := by
  rw [in_rows_iff]
  constructor
  · rintro ⟨other, mem, ids⟩
    rw [← (genuine other mem).same here ids]
    exact mem
  · exact fun mem => ⟨row, mem, rfl⟩

def Sound (content : String → Message) (store : Store) : Prop :=
  ∀ id row, store.get id = some row → row.id = id ∧ Genuine content row

def Holds (store : Store) (row : Message) : Prop := store.get row.id = some row

theorem Sound.mem_values (sound : Sound content store) :
    row ∈ store.values ↔ Holds store row := by
  rw [mem_values_iff]
  constructor
  · rintro ⟨id, found⟩
    rw [Holds, (sound id row found).1]
    exact found
  · exact fun held => ⟨row.id, held⟩

theorem Sound.genuine (sound : Sound content store)
    (held : Holds store row) : Genuine content row := (sound row.id row held).2

theorem Sound.nodup_values (sound : Sound content store) :
    store.values.Nodup := by
  have keys : store.entries.map Prod.fst = store.values.map Message.id := by
    rw [OrderedMap.values, map_map]
    apply map_congr_left
    intro entry mem
    exact (sound entry.1 entry.2 (get_of_mem mem)).1.symm
  have distinct := store.distinct
  rw [keys] at distinct
  exact distinct.of_map

theorem Bound.below_of_before {bound : Bound} {first row : Message} (before : rowBefore first row)
    (below : bound.below row = true) : bound.below first = true := by
  cases bound with
  | lamport value =>
    have least := lamport_le_of_before before
    simp only [Bound.below, decide_eq_true_eq, Row.cursor] at below least ⊢
    omega
  | cursor value =>
    simp only [Bound.below, decide_eq_true_eq, compare_neg_iff] at below ⊢
    exact fun back => below (before_trans back before)

/-- A row of the conversation that a read up to this bound looks at. -/
structure Listed (store : Store) (room : Nat) (before : Option Bound) (row : Message) : Prop where
  held : Holds store row
  room : row.room = room
  type : row.type ≠ .pluginUpdate
  below : ∀ bound ∈ before, bound.below row = true

section

variable (sound : Sound content store)
include sound

theorem in_page_iff {room : Nat} {before : Option Bound} :
    row ∈ store.values.filter (inPage room before) ↔ Listed store room before row := by
  rw [mem_filter, sound.mem_values]
  cases before with
  | none =>
    simp only [inPage, Bool.and_true, Bool.and_eq_true, decide_eq_true_eq]
    exact ⟨fun ⟨held, same, type⟩ => ⟨held, same, type, nofun⟩,
      fun listed => ⟨listed.held, listed.room, listed.type⟩⟩
  | some bound =>
    simp only [inPage, Bool.and_eq_true, decide_eq_true_eq]
    constructor
    · rintro ⟨held, ⟨same, type⟩, below⟩
      refine ⟨held, same, type, ?_⟩
      intro other found
      cases found
      exact below
    · exact fun listed => ⟨listed.held, ⟨listed.room, listed.type⟩, listed.below bound rfl⟩

theorem get_messages_listed {room : Nat} {before : Option Bound}
    (mem : row ∈ getMessages store room before) :
    Listed store room before row :=
  (in_page_iff sound).mp (mem_sort_rows.mp (mem_of_mem_drop mem))

theorem get_messages_nodup (room : Nat)
    (before : Option Bound) : (getMessages store room before).Nodup := by
  apply (drop_sublist _ _).nodup
  exact (sort_rows_perm _).nodup_iff.mpr (sound.nodup_values.filter _)

theorem get_messages_covers {room : Nat} {before : Option Bound}
    (listed : Listed store room before row)
    (reached : Reaches (getMessages store room before) row) :
    row ∈ getMessages store room before := by
  have mem := mem_sort_rows.mpr ((in_page_iff sound).mpr listed)
  unfold getMessages at reached ⊢
  simp only at reached ⊢
  generalize cut : (sortRows (store.values.filter (inPage room before))).length - PAGE_SIZE = count
    at reached ⊢
  have halves := take_append_drop count (sortRows (store.values.filter (inPage room before)))
  have sorted := sort_rows_pairwise (store.values.filter (inPage room before))
  rw [← halves] at mem sorted
  rcases mem_append.mp mem with early | late
  · exfalso
    rcases reached with empty | ⟨first, there, ahead⟩
    · have short := drop_eq_nil_iff.mp empty
      have none : count = 0 := by
        rw [← cut, PAGE_SIZE] at *
        omega
      rw [none, take_zero] at early
      cases early
    · have back := (pairwise_append.mp sorted).2.2 row early first there
      have firstListed : Listed store room before first :=
        (in_page_iff sound).mp (mem_sort_rows.mp (mem_of_mem_drop there))
      have same := (sound.genuine firstListed.held).eq_of_before (sound.genuine listed.held)
        ahead back
      have unique : (sortRows (store.values.filter (inPage room before))).Nodup :=
        (sort_rows_perm _).nodup_iff.mpr (sound.nodup_values.filter _)
      rw [← halves] at unique
      exact (nodup_append.mp unique).2.2 row early first there same.symm
  · exact late

end

theorem append_sorted_perm (list : List Message) (message : Message) :
    (appendSorted list message).Perm (list ++ [message]) := by
  unfold appendSorted
  simp only
  split
  · exact List.Perm.refl _
  · split
    · exact sort_rows_perm _
    · exact List.Perm.refl _

theorem mem_append_sorted {list : List Message} {message row : Message} :
    row ∈ appendSorted list message ↔ row ∈ list ∨ row = message := by
  rw [(append_sorted_perm list message).mem_iff, mem_append, mem_singleton]

theorem append_sorted_ascending {list : List Message} {message : Message}
    (ascending : Ascending list) (genuine : ∀ row ∈ list, Genuine content row)
    (here : Genuine content message) (fresh : message ∉ list) :
    Ascending (appendSorted list message) := by
  have all : ∀ row ∈ list ++ [message], Genuine content row := by
    intro row mem
    rcases mem_append.mp mem with before | last
    · exact genuine row before
    · rw [mem_singleton.mp last]
      exact here
  have unique : (list ++ [message]).Nodup := by
    rw [nodup_append]
    refine ⟨ascending.nodup, nodup_singleton _, ?_⟩
    rintro row before other last rfl
    rw [mem_singleton.mp last] at before
    exact fresh before
  unfold appendSorted
  simp only
  split
  · rename_i empty
    rw [List.getLast?_eq_none_iff.mp empty]
    exact pairwise_singleton _ _
  · rename_i last found
    split
    · exact ascending_sort all unique
    · rename_i ordered
      apply ascending_of_sorted all unique
      rw [pairwise_append]
      refine ⟨ascending.sorted, pairwise_singleton _ _, ?_⟩
      intro row mem other tail
      rw [mem_singleton.mp tail]
      rw [not_lt] at ordered
      obtain ⟨front, rfl⟩ := List.getLast?_eq_some_iff.mp found
      rcases mem_append.mp mem with early | same
      · have before := (pairwise_append.mp ascending.sorted).2.2 row early last (by simp)
        exact before_trans before ordered
      · rw [mem_singleton.mp same]
        exact ordered

theorem above_floor_sublist (messages rows : List Message) :
    (aboveFloor messages rows).Sublist rows := by
  unfold aboveFloor
  split
  · exact nil_sublist _
  · exact filter_sublist

theorem mem_above_floor {messages rows : List Message} (ascending : Ascending messages) :
    row ∈ aboveFloor messages rows ↔ row ∈ rows ∧ messages ≠ [] ∧ Reaches messages row := by
  rw [ascending.reaches]
  unfold aboveFloor
  cases messages with
  | nil => simp
  | cons head rest =>
    simp [compare_nonneg_iff, rowBefore]

theorem Sound.put (sound : Sound content store) (genuine : ∀ row ∈ rows, Genuine content row) :
    Sound content (putMessages store rows) ∧
      ∀ row, Holds (putMessages store rows) row ↔ Holds store row ∨ row ∈ rows := by
  induction rows generalizing store with
  | nil => exact ⟨sound, fun row => by simp [putMessages]⟩
  | cons first rest ih =>
    have here := genuine first mem_cons_self
    have next : Sound content (store.set first.id first) := by
      intro id row found
      rw [get_set] at found
      split at found
      · rename_i same
        cases found
        exact ⟨same.symm, here⟩
      · exact sound id row found
    have one : ∀ row, Holds (store.set first.id first) row ↔ Holds store row ∨ row = first := by
      intro row
      unfold Holds
      rw [get_set]
      split
      · rename_i same
        constructor
        · intro found
          cases found
          exact Or.inr rfl
        · rintro (found | rfl)
          · rw [(sound.genuine found).same here same]
          · rfl
      · rename_i apart
        constructor
        · exact Or.inl
        · rintro (found | rfl)
          · exact found
          · exact absurd rfl apart
    obtain ⟨after, others⟩ :=
      ih next fun row mem => genuine row (mem_cons_of_mem _ mem)
    refine ⟨after, ?_⟩
    intro row
    have split_ : Holds (putMessages store (first :: rest)) row ↔
        Holds (store.set first.id first) row ∨ row ∈ rest := others row
    rw [split_, one, mem_cons, or_assoc]

theorem held_row {messages : List Message} (genuine : ∀ row ∈ messages, Genuine content row)
    (here : Genuine content row) :
    (OrderedMap.collect (messages.map fun row => (row.id, row))).get row.id =
      if row ∈ messages then some row else none := by
  split
  · rename_i mem
    cases found : (OrderedMap.collect (messages.map fun row => (row.id, row))).get row.id with
    | none =>
      have never := (collect_get_none _ _).mp found (row.id, row)
        (mem_map.mpr ⟨row, mem, rfl⟩)
      exact absurd rfl never
    | some other =>
      obtain ⟨listed, there, pair⟩ := mem_map.mp (collect_get_mem found)
      obtain ⟨ids, rfl⟩ := Prod.mk.inj pair
      rw [(genuine listed there).same here ids]
  · rename_i absent
    apply (collect_get_none _ _).mpr
    intro entry mem same
    obtain ⟨listed, there, rfl⟩ := mem_map.mp mem
    rw [← (genuine listed there).same here same] at absent
    exact absent there

section Refill

variable {messages above newest : List Message} {room : Nat}

theorem refill_parts (shown : ∀ row ∈ messages, Genuine content row ∧ row.room = room)
    (page : ∀ row ∈ newest, Genuine content row) (rest : ∀ row ∈ above, Genuine content row) :
    refill messages room above newest =
      sortRows (messages.filter (fun row => decide (row ∉ newest)) ++ newest ++
        above.filter fun row => decide (row ∉ newest) && decide (row ∉ messages)) := by
  have genuine : ∀ row ∈ messages, Genuine content row := fun row mem => (shown row mem).1
  have merged : newest.map (fun row =>
      ((OrderedMap.collect (messages.map fun row => (row.id, row))).get row.id).getD row) =
        newest := by
    conv_rhs => rw [← map_id newest]
    apply map_congr_left
    intro row mem
    rw [held_row genuine (page row mem)]
    split <;> rfl
  have kept : messages.filter (fun row => decide (row.room = room) && !inRows newest row.id) =
      messages.filter fun row => decide (row ∉ newest) := by
    apply filter_congr
    intro row mem
    obtain ⟨here, same⟩ := shown row mem
    have listed := in_rows_genuine page here
    by_cases inside : row ∈ newest <;> simp_all
  have extra : above.filter (fun row => !inRows newest row.id &&
      ((OrderedMap.collect (messages.map fun row => (row.id, row))).get row.id).isNone) =
        above.filter fun row => decide (row ∉ newest) && decide (row ∉ messages) := by
    apply filter_congr
    intro row mem
    have here := rest row mem
    have listed := in_rows_genuine page here
    rw [held_row genuine here]
    by_cases inside : row ∈ newest <;> by_cases there : row ∈ messages <;> simp_all
  unfold refill
  simp only
  rw [merged, kept, extra]

theorem mem_refill (shown : ∀ row ∈ messages, Genuine content row ∧ row.room = room)
    (page : ∀ row ∈ newest, Genuine content row) (rest : ∀ row ∈ above, Genuine content row)
    {row : Message} :
    row ∈ refill messages room above newest ↔ row ∈ messages ∨ row ∈ newest ∨ row ∈ above := by
  rw [refill_parts shown page rest, mem_sort_rows]
  simp only [mem_append, mem_filter, decide_eq_true_eq, Bool.and_eq_true]
  by_cases inside : row ∈ newest <;> by_cases there : row ∈ messages <;> simp [inside, there]

theorem refill_ascending (shown : ∀ row ∈ messages, Genuine content row ∧ row.room = room)
    (page : ∀ row ∈ newest, Genuine content row) (rest : ∀ row ∈ above, Genuine content row)
    (one : messages.Nodup) (two : newest.Nodup) (three : above.Nodup) :
    Ascending (refill messages room above newest) := by
  have members := fun {row} => @mem_refill content messages above newest room shown page rest row
  rw [refill_parts shown page rest] at members ⊢
  apply @ascending_sort content
  · intro row mem
    rcases members.mp (mem_sort_rows.mpr mem) with first | second | third
    · exact (shown row first).1
    · exact page row second
    · exact rest row third
  · rw [nodup_append, nodup_append]
    refine ⟨⟨one.filter _, two, ?_⟩, three.filter _, ?_⟩
    · rintro row kept other listed rfl
      exact of_decide_eq_true (mem_filter.mp kept).2 listed
    · rintro row before other extra rfl
      have outside := (mem_filter.mp extra).2
      simp only [Bool.and_eq_true, decide_eq_true_eq] at outside
      rcases mem_append.mp before with kept | listed
      · exact outside.2 (mem_filter.mp kept).1
      · exact outside.1 listed

end Refill

theorem park_mem {parked rows : List Message} (genuine : ∀ row ∈ parked, Genuine content row)
    (fresh : ∀ row ∈ rows, Genuine content row) (unique : parked.Nodup) :
    (park parked rows).Nodup ∧ ∀ row, row ∈ park parked rows ↔ row ∈ parked ∨ row ∈ rows := by
  induction rows generalizing parked with
  | nil => exact ⟨unique, fun row => by simp [park]⟩
  | cons first rest ih =>
    have here := fresh first mem_cons_self
    have later : ∀ row ∈ rest, Genuine content row :=
      fun row mem => fresh row (mem_cons_of_mem _ mem)
    have unfolded : park parked (first :: rest) =
        park (if inRows parked first.id then parked else parked ++ [first]) rest := rfl
    rw [unfolded]
    have listed := in_rows_genuine genuine here
    by_cases inside : first ∈ parked
    · rw [if_pos (listed.mpr inside)]
      obtain ⟨distinct, members⟩ := ih genuine later unique
      refine ⟨distinct, ?_⟩
      intro row
      rw [members, mem_cons]
      constructor
      · exact fun found => found.imp_right Or.inr
      · rintro (before | rfl | after)
        · exact Or.inl before
        · exact Or.inl inside
        · exact Or.inr after
    · rw [if_neg fun found => inside (listed.mp found)]
      have grown : ∀ row ∈ parked ++ [first], Genuine content row := by
        intro row mem
        rcases mem_append.mp mem with before | last
        · exact genuine row before
        · rw [mem_singleton.mp last]
          exact here
      have apart : (parked ++ [first]).Nodup := by
        rw [nodup_append]
        refine ⟨unique, nodup_singleton _, ?_⟩
        rintro row before other last rfl
        rw [mem_singleton.mp last] at before
        exact inside before
      obtain ⟨distinct, members⟩ := ih grown later apart
      refine ⟨distinct, ?_⟩
      intro row
      rw [members, mem_append, mem_singleton, mem_cons, or_assoc]

end AwfulChat.OpenView
