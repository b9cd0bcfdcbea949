import Mathlib.Data.List.Basic
import Mathlib.Data.List.Induction
import Mathlib.Data.List.Nodup
import Mathlib.Algebra.Order.Ring.Int

/-!
# Insertion-ordered maps

A finite map that remembers the order in which its keys were first written.
Overwriting a key keeps its place; deleting and rewriting it moves it to the
end. `AList` moves an inserted key to the front and `Finmap` forgets the order,
so neither shows what a walk over such a map visits first.
-/

namespace AwfulChat.Library

open List Option

set_option autoImplicit false

/-- Entries in insertion order. No key occurs twice, so a lookup, a walk and
the size all speak of the same finite map. -/
structure OrderedMap (Key Value : Type*) where
  entries : List (Key × Value)
  distinct : (entries.map Prod.fst).Nodup

namespace OrderedMap

variable {Key Value : Type*}

def empty : OrderedMap Key Value where
  entries := []
  distinct := by simp

instance : Inhabited (OrderedMap Key Value) := ⟨empty⟩

def keys (map : OrderedMap Key Value) : List Key := map.entries.map Prod.fst

def values (map : OrderedMap Key Value) : List Value := map.entries.map Prod.snd

def size (map : OrderedMap Key Value) : Nat := map.entries.length

variable [DecidableEq Key]

def get (map : OrderedMap Key Value) (key : Key) : Option Value :=
  (map.entries.find? fun entry => decide (entry.1 = key)).map Prod.snd

def has (map : OrderedMap Key Value) (key : Key) : Bool := (map.get key).isSome

private def writeEntries (entries : List (Key × Value)) (key : Key) (value : Value) :
    List (Key × Value) :=
  if key ∈ entries.map Prod.fst then
    entries.map fun entry => if entry.1 = key then (key, value) else entry
  else entries ++ [(key, value)]

variable (entries : List (Key × Value))

private theorem write_entries_distinct (key : Key) (value : Value)
    (distinct : (entries.map Prod.fst).Nodup) :
    ((writeEntries entries key value).map Prod.fst).Nodup := by
  unfold writeEntries
  split_ifs with present
  · have same : (entries.map fun entry => if entry.1 = key then (key, value) else entry).map
        Prod.fst = entries.map Prod.fst := by
      rw [List.map_map]
      apply List.map_congr_left
      intro entry _
      by_cases hit : entry.1 = key <;> simp [hit]
    rw [same]
    exact distinct
  · rw [map_append, nodup_append]
    refine ⟨distinct, by simp, ?_⟩
    intro left leftMember right rightMember equal
    simp only [map_cons, map_nil, mem_singleton] at rightMember
    exact present (rightMember ▸ equal ▸ leftMember)

def set (map : OrderedMap Key Value) (key : Key) (value : Value) : OrderedMap Key Value where
  entries := writeEntries map.entries key value
  distinct := write_entries_distinct map.entries key value map.distinct

def delete (map : OrderedMap Key Value) (key : Key) : OrderedMap Key Value where
  entries := map.entries.filter fun entry => decide (entry.1 ≠ key)
  distinct := map.distinct.sublist (filter_sublist.map Prod.fst)

@[simp] theorem get_empty (key : Key) : (empty : OrderedMap Key Value).get key = none := rfl

private theorem find_write_self (key : Key) (value : Value) :
    (writeEntries entries key value).find? (fun entry => decide (entry.1 = key)) =
      some (key, value) := by
  unfold writeEntries
  split_ifs with present
  · induction entries with
    | nil => simp at present
    | cons head tail ih =>
      by_cases hit : head.1 = key
      · simp [hit]
      · have later : key ∈ tail.map Prod.fst := by
          simp only [map_cons, mem_cons] at present
          exact present.resolve_left fun equal => hit equal.symm
        simp only [map_cons, if_neg hit, List.find?_cons, decide_eq_false hit]
        exact ih later
  · have absent : entries.find? (fun entry => decide (entry.1 = key)) = none := by
      rw [List.find?_eq_none]
      intro entry mem equal
      exact present (mem_map.mpr ⟨entry, mem, of_decide_eq_true equal⟩)
    simp [List.find?_append, absent]

private theorem find_write_other (key other : Key) (value : Value) (different : other ≠ key) :
    (writeEntries entries key value).find? (fun entry => decide (entry.1 = other)) =
      entries.find? (fun entry => decide (entry.1 = other)) := by
  unfold writeEntries
  split_ifs with present
  · clear present
    induction entries with
    | nil => rfl
    | cons head tail ih =>
      by_cases hit : head.1 = key
      · have miss : ¬key = other := fun equal => different equal.symm
        simp only [map_cons, List.find?_cons, hit, if_true, decide_eq_false miss]
        exact ih
      · simp only [map_cons, if_neg hit, List.find?_cons]
        rw [ih]
  · have miss : ¬key = other := fun equal => different equal.symm
    simp [List.find?_append, miss]

@[simp] theorem get_set_self (map : OrderedMap Key Value) (key : Key) (value : Value) :
    (map.set key value).get key = some value := by
  unfold get set
  rw [find_write_self]
  rfl

@[simp] theorem get_set_other (map : OrderedMap Key Value) (key other : Key) (value : Value)
    (different : other ≠ key) : (map.set key value).get other = map.get other := by
  unfold get set
  rw [find_write_other _ _ _ _ different]

theorem get_set (map : OrderedMap Key Value) (key other : Key) (value : Value) :
    (map.set key value).get other = if other = key then some value else map.get other := by
  by_cases same : other = key
  · subst other
    simp
  · simp [same]

@[simp] theorem get_delete_self (map : OrderedMap Key Value) (key : Key) :
    (map.delete key).get key = none := by
  unfold get delete
  rw [map_eq_none_iff, List.find?_eq_none]
  intro entry mem equal
  have kept := (mem_filter.mp mem).2
  exact of_decide_eq_true kept (of_decide_eq_true equal)

@[simp] theorem get_delete_other (map : OrderedMap Key Value) (key other : Key)
    (different : other ≠ key) : (map.delete key).get other = map.get other := by
  unfold get delete
  rw [List.find?_filter]
  congr 2
  funext entry
  by_cases hit : entry.1 = other
  · simp [hit, different]
  · simp [hit]

theorem get_delete (map : OrderedMap Key Value) (key other : Key) :
    (map.delete key).get other = if other = key then none else map.get other := by
  by_cases same : other = key
  · subst other
    simp
  · simp [same]

/-- The entries of the keys that stay. -/
def keep (map : OrderedMap Key Value) (stays : Key → Bool) : OrderedMap Key Value where
  entries := map.entries.filter fun entry => stays entry.1
  distinct := map.distinct.sublist (filter_sublist.map Prod.fst)

theorem get_keep (map : OrderedMap Key Value) (stays : Key → Bool) (key : Key) :
    (map.keep stays).get key = if stays key then map.get key else none := by
  unfold get keep
  rw [List.find?_filter]
  by_cases stay : stays key = true
  · rw [if_pos stay]
    congr 2
    funext entry
    by_cases hit : entry.1 = key <;> simp [hit, stay]
  · rw [if_neg stay, map_eq_none_iff, List.find?_eq_none]
    intro entry _ both
    simp only [decide_eq_true_eq] at both
    rw [both.2] at both
    exact stay both.1

/-- The same keys with other values. -/
def mapValues {Other : Type*} (map : OrderedMap Key Value) (change : Value → Other) :
    OrderedMap Key Other where
  entries := map.entries.map fun entry => (entry.1, change entry.2)
  distinct := by
    rw [List.map_map]
    exact map.distinct

theorem get_mapValues {Other : Type*} (map : OrderedMap Key Value) (change : Value → Other)
    (key : Key) : (map.mapValues change).get key = (map.get key).map change := by
  unfold get mapValues
  rw [List.find?_map, Option.map_map, Option.map_map]
  rfl

variable {map : OrderedMap Key Value} {key : Key} {value : Value}

theorem mem_of_get (found : map.get key = some value) : (key, value) ∈ map.entries := by
  unfold get at found
  rw [map_eq_some_iff] at found
  obtain ⟨entry, hit, rfl⟩ := found
  have sameKey : entry.1 = key := by simpa using List.find?_some hit
  have mem := mem_of_find?_eq_some hit
  rwa [← sameKey]

theorem get_of_mem (mem : (key, value) ∈ map.entries) : map.get key = some value := by
  obtain ⟨entries, distinct⟩ := map
  simp only [get]
  induction entries with
  | nil => simp at mem
  | cons head tail ih =>
    rw [map_cons, nodup_cons] at distinct
    by_cases hit : head.1 = key
    · rcases mem_cons.mp mem with equal | later
      · simp [← equal]
      · have occurs : head.1 ∈ tail.map Prod.fst :=
          mem_map.mpr ⟨(key, value), later, hit.symm⟩
        exact absurd occurs distinct.1
    · rcases mem_cons.mp mem with equal | later
      · exact absurd (congrArg Prod.fst equal).symm hit
      · rw [List.find?_cons, decide_eq_false hit]
        exact ih distinct.2 later

theorem size_eq_zero : map.size = 0 ↔ ∀ key, map.get key = none := by
  unfold size
  rw [length_eq_zero_iff]
  constructor
  · intro none key
    simp [get, none]
  · intro missing
    apply eq_nil_iff_forall_not_mem.mpr
    intro entry mem
    have found : map.get entry.1 = some entry.2 := get_of_mem mem
    rw [missing] at found
    cases found

theorem mem_values_iff :
    value ∈ map.values ↔ ∃ key, map.get key = some value := by
  simp only [values, List.mem_map]
  constructor
  · rintro ⟨⟨key, stored⟩, mem, rfl⟩
    exact ⟨key, get_of_mem mem⟩
  · rintro ⟨key, found⟩
    exact ⟨(key, value), mem_of_get found, rfl⟩

/-- Entries written one after the other: the last write of a key wins, at the
place of its first. -/
def collect (entries : List (Key × Value)) : OrderedMap Key Value :=
  entries.foldl (fun map entry => map.set entry.1 entry.2) empty

theorem collect_append_one (entry : Key × Value) :
    collect (entries ++ [entry]) = (collect entries).set entry.1 entry.2 := by
  simp [collect]

theorem set_entries_of_absent (map : OrderedMap Key Value) (key : Key) (value : Value)
    (absent : key ∉ map.keys) : (map.set key value).entries = map.entries ++ [(key, value)] := by
  unfold keys at absent
  simp only [set, writeEntries]
  rw [if_neg absent]

theorem mem_keys_iff :
    key ∈ map.keys ↔ map.get key ≠ none := by
  constructor
  · intro mem absent
    obtain ⟨entry, listed, same⟩ := mem_map.mp mem
    have found : map.get entry.1 = some entry.2 := get_of_mem listed
    rw [same, absent] at found
    cases found
  · intro present
    obtain ⟨value, found⟩ := ne_none_iff_exists'.mp present
    exact mem_map.mpr ⟨(key, value), mem_of_get found, rfl⟩

theorem size_set_of_absent (value : Value)
    (absent : map.get key = none) : (map.set key value).size = map.size + 1 := by
  have unlisted : key ∉ map.keys := fun mem => mem_keys_iff.mp mem absent
  unfold size
  rw [set_entries_of_absent map key value unlisted]
  simp

theorem size_set_of_present (value : Value)
    (present : map.get key ≠ none) : (map.set key value).size = map.size := by
  have listed : key ∈ map.entries.map Prod.fst := mem_keys_iff.mpr present
  simp only [size, set, writeEntries]
  rw [if_pos listed, length_map]

theorem size_set_le (map : OrderedMap Key Value) (key : Key) (value : Value) :
    (map.set key value).size ≤ map.size + 1 := by
  by_cases absent : map.get key = none
  · exact Nat.le_of_eq (size_set_of_absent value absent)
  · rw [size_set_of_present value absent]
    exact Nat.le_succ _

theorem size_delete_le (map : OrderedMap Key Value) (key : Key) :
    (map.delete key).size ≤ map.size :=
  length_filter_le _ _

theorem size_keep_le (map : OrderedMap Key Value) (stays : Key → Bool) :
    (map.keep stays).size ≤ map.size :=
  length_filter_le _ _

theorem size_mapValues {Other : Type*} (map : OrderedMap Key Value) (change : Value → Other) :
    (map.mapValues change).size = map.size :=
  length_map _

/-- Where a stored key stands. -/
structure Stands (map : OrderedMap Key Value) (key : Key) (value : Value)
    (before after : List (Key × Value)) : Prop where
  split : map.entries = before ++ (key, value) :: after
  front : ∀ entry ∈ before, entry.1 ≠ key
  back : ∀ entry ∈ after, entry.1 ≠ key

theorem stands_of_get
    (found : map.get key = some value) : ∃ before after, Stands map key value before after := by
  obtain ⟨before, after, split⟩ := append_of_mem (mem_of_get found)
  have distinct := map.distinct
  rw [split, map_append, map_cons, nodup_append, nodup_cons] at distinct
  refine ⟨before, after, split, ?_, ?_⟩
  · intro entry mem same
    exact distinct.2.2 entry.1 (mem_map_of_mem mem) key (by simp) same
  · intro entry mem same
    exact distinct.2.1.1 (mem_map.mpr ⟨entry, mem, same⟩)

section

variable {old : Value} {before after : List (Key × Value)}
  (stands : Stands map key old before after)
include stands

theorem Stands.set (value : Value) :
    (map.set key value).entries = before ++ (key, value) :: after := by
  have kept : ∀ entries : List (Key × Value), (∀ entry ∈ entries, entry.1 ≠ key) →
      (entries.map fun entry => if entry.1 = key then (key, value) else entry) = entries := by
    intro entries others
    conv_rhs => rw [← map_id entries]
    apply List.map_congr_left
    intro entry mem
    rw [if_neg (others entry mem), id]
  have listed : key ∈ map.entries.map Prod.fst := by
    rw [stands.split]
    simp
  simp only [OrderedMap.set, writeEntries]
  rw [if_pos listed, stands.split, map_append, map_cons, kept before stands.front,
    kept after stands.back, if_pos rfl]

theorem Stands.delete :
    (map.delete key).entries = before ++ after := by
  have kept : ∀ entries : List (Key × Value), (∀ entry ∈ entries, entry.1 ≠ key) →
      (entries.filter fun entry => decide (entry.1 ≠ key)) = entries := by
    intro entries others
    apply filter_eq_self.mpr
    intro entry mem
    exact decide_eq_true (others entry mem)
  simp only [OrderedMap.delete]
  rw [stands.split, filter_append, filter_cons, kept before stands.front,
    kept after stands.back]
  simp

end

theorem delete_of_absent (absent : map.get key = none) :
    map.delete key = map := by
  have kept : (map.entries.filter fun entry => decide (entry.1 ≠ key)) = map.entries := by
    apply filter_eq_self.mpr
    intro entry mem
    apply decide_eq_true
    intro same
    have found : map.get entry.1 = some entry.2 := get_of_mem mem
    rw [same, absent] at found
    cases found
  obtain ⟨entries, distinct⟩ := map
  simp only [OrderedMap.delete, OrderedMap.mk.injEq]
  exact kept

theorem collect_entries (distinct : (entries.map Prod.fst).Nodup) :
    (collect entries).entries = entries := by
  induction entries using List.reverseRecOn with
  | nil => rfl
  | append_singleton rest entry ih =>
    rw [map_append, nodup_append] at distinct
    have before := ih distinct.1
    rw [collect_append_one, set_entries_of_absent, before]
    rw [keys, before]
    intro mem
    exact distinct.2.2 entry.1 mem entry.1 (by simp) rfl

theorem collect_get_none (key : Key) :
    (collect entries).get key = none ↔ ∀ entry ∈ entries, entry.1 ≠ key := by
  induction entries using List.reverseRecOn with
  | nil => simp [collect]
  | append_singleton rest entry ih =>
    rw [collect_append_one, get_set]
    by_cases hit : key = entry.1
    · have never : ¬∀ other ∈ rest ++ [entry], other.1 ≠ key :=
        fun all => all entry (by simp) hit.symm
      rw [iff_false_right never, if_pos hit]
      simp
    · rw [if_neg hit, ih]
      constructor
      · intro others other mem
        rcases mem_append.mp mem with old | new
        · exact others other old
        · rw [mem_singleton.mp new]
          exact fun same => hit same.symm
      · intro all other mem
        exact all other (mem_append_left _ mem)

theorem collect_get_mem {entries : List (Key × Value)}
    (found : (collect entries).get key = some value) : (key, value) ∈ entries := by
  induction entries using List.reverseRecOn with
  | nil => simp [collect] at found
  | append_singleton rest entry ih =>
    rw [collect_append_one, get_set] at found
    split_ifs at found with hit
    · cases found
      rw [hit]
      simp
    · exact mem_append_left _ (ih found)

theorem collect_filter_get (keep : Key → Bool) (entries : List (Key × Value)) (key : Key) :
    (collect (entries.filter fun entry => keep entry.1)).get key =
      if keep key then (collect entries).get key else none := by
  induction entries using List.reverseRecOn with
  | nil => simp [collect]
  | append_singleton rest entry ih =>
    rw [filter_append, collect_append_one, get_set]
    by_cases kept : keep entry.1 = true
    · have single : [entry].filter (fun entry => keep entry.1) = [entry] := by simp [kept]
      rw [single, collect_append_one, get_set]
      by_cases hit : key = entry.1
      · rw [if_pos hit, if_pos hit, hit, if_pos kept]
      · rw [if_neg hit, if_neg hit, ih]
    · have none : [entry].filter (fun entry => keep entry.1) = [] := by simp [kept]
      rw [none, append_nil, ih]
      by_cases hit : key = entry.1
      · rw [hit, if_neg kept, if_neg kept]
      · rw [if_neg hit]

theorem collect_append_get (earlier later : List (Key × Value)) (key : Key) :
    (collect (earlier ++ later)).get key = ((collect later).get key).or ((collect earlier).get key) := by
  induction later using List.reverseRecOn with
  | nil => simp [collect]
  | append_singleton rest entry ih =>
    rw [← append_assoc, collect_append_one, collect_append_one, get_set, get_set, ih]
    split_ifs <;> simp

section Highest

variable {Item : Type*} (key : Item → Key) (value : Item → Int)

/-- For every key the first of the items with the highest value. -/
def raiseItem (best : OrderedMap Key Item) (item : Item) : OrderedMap Key Item :=
  match best.get (key item) with
  | some current => if value current < value item then best.set (key item) item else best
  | none => best.set (key item) item

def highestBy (items : List Item) : OrderedMap Key Item :=
  items.foldl (raiseItem key value) empty

/-- `item` is the entry of its key, and no other is higher. -/
structure Highest (items : List Item) (found : Key) (item : Item) : Prop where
  member : item ∈ items
  keyed : key item = found
  above : ∀ other ∈ items, key other = found → value other ≤ value item

theorem raise_item_get (best : OrderedMap Key Item) (item : Item) (other : Key) :
    (raiseItem key value best item).get other =
      if other = key item ∧ (∀ current, best.get (key item) = some current →
        value current < value item) then some item else best.get other := by
  unfold raiseItem
  cases found : best.get (key item) with
  | none =>
    dsimp only
    rw [get_set]
    by_cases hit : other = key item <;> simp [hit]
  | some current =>
    dsimp only
    by_cases higher : value current < value item
    · rw [if_pos higher, get_set]
      by_cases hit : other = key item <;> simp [hit, higher]
    · rw [if_neg higher, if_neg]
      rintro ⟨-, above⟩
      exact higher (above current rfl)

theorem highest_by_append_one (items : List Item) (item : Item) :
    highestBy key value (items ++ [item]) = raiseItem key value (highestBy key value items) item := by
  simp [highestBy]

theorem highest_by_get_none (items : List Item) (found : Key) :
    (highestBy key value items).get found = none ↔ ∀ item ∈ items, key item ≠ found := by
  induction items using List.reverseRecOn with
  | nil => simp [highestBy]
  | append_singleton rest item ih =>
    rw [highest_by_append_one, raise_item_get]
    by_cases hit : found = key item
    · subst hit
      have never : ¬∀ other ∈ rest ++ [item], key other ≠ key item :=
        fun all => all item (by simp) rfl
      rw [iff_false_right never]
      split_ifs with raised
      · simp
      · intro absent
        rw [absent] at raised
        exact raised ⟨rfl, by simp⟩
    · rw [if_neg fun both => hit both.1, ih]
      constructor
      · intro others other mem
        rcases mem_append.mp mem with old | new
        · exact others other old
        · rw [mem_singleton.mp new]
          exact fun same => hit same.symm
      · intro all other mem
        exact all other (mem_append_left _ mem)

theorem highest_by_get {items : List Item} {found : Key} {item : Item}
    (stored : (highestBy key value items).get found = some item) :
    Highest key value items found item := by
  induction items using List.reverseRecOn generalizing item with
  | nil => simp [highestBy] at stored
  | append_singleton rest last ih =>
    rw [highest_by_append_one, raise_item_get] at stored
    split_ifs at stored with raised
    · obtain ⟨rfl, higher⟩ := raised
      cases stored
      refine ⟨by simp, rfl, ?_⟩
      intro other mem keyed
      rcases mem_append.mp mem with old | new
      · cases before : (highestBy key value rest).get (key last) with
        | none => exact absurd keyed ((highest_by_get_none key value rest _).mp before other old)
        | some current =>
          have less := higher current before
          have most := (ih before).above other old keyed
          omega
      · exact Int.le_of_eq (congrArg value (mem_singleton.mp new))
    · have before := ih stored
      refine ⟨mem_append_left _ before.member, before.keyed, ?_⟩
      intro other mem keyed
      rcases mem_append.mp mem with old | new
      · exact before.above other old keyed
      · have same := mem_singleton.mp new
        subst same
        by_contra lower
        refine raised ⟨keyed.symm, ?_⟩
        intro current present
        rw [keyed, stored] at present
        cases present
        omega

theorem set_entries_append {front back : List (Key × Value)} {map tail : OrderedMap Key Value}
    {found : Key} {stored : Value} (split : map.entries = front ++ back)
    (tailEntries : tail.entries = back) (absent : found ∉ front.map Prod.fst) :
    (map.set found stored).entries = front ++ (tail.set found stored).entries := by
  simp only [set, writeEntries, split, tailEntries]
  by_cases present : found ∈ back.map Prod.fst
  · have somewhere : found ∈ (front ++ back).map Prod.fst := by
      rw [map_append, mem_append]
      exact Or.inr present
    rw [if_pos somewhere, if_pos present, map_append]
    congr 1
    conv_rhs => rw [← map_id front]
    apply List.map_congr_left
    intro entry mem
    rw [if_neg]
    · rfl
    · rintro rfl
      exact absent (mem_map_of_mem mem)
  · have nowhere : found ∉ (front ++ back).map Prod.fst := by
      rw [map_append, mem_append]
      exact fun either => either.elim absent present
    rw [if_neg nowhere, if_neg present, append_assoc]

theorem highest_by_append (front back : List Item)
    (apart : ∀ left ∈ front, ∀ right ∈ back, key left ≠ key right) :
    (highestBy key value (front ++ back)).entries =
      (highestBy key value front).entries ++ (highestBy key value back).entries := by
  induction back using List.reverseRecOn with
  | nil => simp [highestBy, empty]
  | append_singleton rest item ih =>
    have before := ih fun left mem right rightMember =>
      apart left mem right (mem_append_left _ rightMember)
    have absent : key item ∉ (highestBy key value front).entries.map Prod.fst := by
      intro mem
      obtain ⟨entry, entryMember, same⟩ := mem_map.mp mem
      have stored : (highestBy key value front).get entry.1 = some entry.2 :=
        get_of_mem entryMember
      have highest := highest_by_get key value stored
      exact apart entry.2 highest.member item (by simp) (highest.keyed.trans same)
    have sameGet : (highestBy key value (front ++ rest)).get (key item) =
        (highestBy key value rest).get (key item) := by
      have missed : (highestBy key value front).entries.find?
          (fun entry => decide (entry.1 = key item)) = none := by
        rw [List.find?_eq_none]
        intro entry mem same
        exact absent (mem_map.mpr ⟨entry, mem, of_decide_eq_true same⟩)
      unfold get
      rw [before, List.find?_append, missed, none_or]
    rw [← append_assoc, highest_by_append_one, highest_by_append_one]
    unfold raiseItem
    rw [sameGet]
    cases (highestBy key value rest).get (key item) with
    | none => exact set_entries_append before rfl absent
    | some current =>
      dsimp only
      split_ifs
      · exact set_entries_append before rfl absent
      · exact before

section Named

variable {Name : Type*} [DecidableEq Name] (name : Item → Name)

/-- The highest value under every key, told by the name of the item that has it. -/
def namedHighest (items : List Item) : OrderedMap Name Int :=
  collect ((highestBy key value items).values.map fun item => (name item, value item))

theorem named_highest_append (front back : List Item)
    (apart : ∀ left ∈ front, ∀ right ∈ back, key left ≠ key right) (found : Name) :
    (namedHighest key value name (front ++ back)).get found =
      ((namedHighest key value name back).get found).or
        ((namedHighest key value name front).get found) := by
  unfold namedHighest values
  rw [highest_by_append key value front back apart, map_append, map_append,
    collect_append_get]

variable {items : List Item}
  (faithful : ∀ left ∈ items, ∀ right ∈ items, key left = key right ↔ name left = name right)

include faithful

theorem named_highest_none {found : Name} :
    (namedHighest key value name items).get found = none ↔ ∀ item ∈ items, name item ≠ found := by
  unfold namedHighest
  rw [collect_get_none]
  constructor
  · intro absent item mem same
    cases stored : (highestBy key value items).get (key item) with
    | none => exact (highest_by_get_none key value items (key item)).mp stored item mem rfl
    | some best =>
      have highest := highest_by_get key value stored
      have sameName := (faithful best highest.member item mem).mp highest.keyed
      have listed : (name best, value best) ∈
          (highestBy key value items).values.map fun item => (name item, value item) :=
        mem_map.mpr ⟨best, mem_values_iff.mpr ⟨_, stored⟩, rfl⟩
      exact absent _ listed (sameName.trans same)
  · intro absent entry mem same
    obtain ⟨item, itemMember, rfl⟩ := mem_map.mp mem
    obtain ⟨other, stored⟩ := mem_values_iff.mp itemMember
    exact absent item (highest_by_get key value stored).member same

theorem named_highest_sound {found : Name} {highest : Int}
    (stored : (namedHighest key value name items).get found = some highest) :
    ∃ item, Highest name value items found item ∧ value item = highest := by
  obtain ⟨item, mem, same⟩ := mem_map.mp (collect_get_mem stored)
  obtain ⟨other, kept⟩ := mem_values_iff.mp mem
  have most := highest_by_get key value kept
  cases same
  refine ⟨item, ⟨most.member, rfl, ?_⟩, rfl⟩
  intro rival rivalMember sameName
  apply most.above rival rivalMember
  rw [(faithful rival rivalMember item most.member).mpr sameName, most.keyed]

theorem named_highest_some {found : Name} {item : Item}
    (highest : Highest name value items found item) :
    (namedHighest key value name items).get found = some (value item) := by
  cases stored : (namedHighest key value name items).get found with
  | none =>
    exact absurd highest.keyed
      ((named_highest_none key value name faithful).mp stored item highest.member)
  | some lamport =>
    obtain ⟨best, most, rfl⟩ := named_highest_sound key value name faithful stored
    have upper := highest.above best most.member most.keyed
    have lower := most.above item highest.member highest.keyed
    rw [Int.le_antisymm upper lower]

omit faithful in
theorem named_highest_split {front back all : List Item}
    (faithfulFront : ∀ left ∈ front, ∀ right ∈ front, key left = key right ↔ name left = name right)
    (faithfulBack : ∀ left ∈ back, ∀ right ∈ back, key left = key right ↔ name left = name right)
    (faithfulAll : ∀ left ∈ all, ∀ right ∈ all, key left = key right ↔ name left = name right)
    (apart : ∀ left ∈ front, ∀ right ∈ back, key left ≠ key right)
    (covers : ∀ found highest, (∃ item ∈ all, name item = found ∧ value item = highest) ↔
      ∃ item ∈ front ++ back, name item = found ∧ value item = highest) (found : Name) :
    (namedHighest key value name (front ++ back)).get found =
        (namedHighest key value name all).get found ↔
      ∀ left ∈ front, ∀ right ∈ back, name left = found → name right = found →
        ∃ other ∈ back, name other = found ∧ value left ≤ value other := by
  rw [named_highest_append key value name front back apart]
  cases inBack : (namedHighest key value name back).get found with
  | none =>
    have absent := (named_highest_none key value name faithfulBack).mp inBack
    rw [none_or]
    refine iff_of_true ?_ fun _ _ right mem _ same => absurd same (absent right mem)
    cases inFront : (namedHighest key value name front).get found with
    | none =>
      have missing := (named_highest_none key value name faithfulFront).mp inFront
      symm
      rw [named_highest_none key value name faithfulAll]
      intro item mem same
      obtain ⟨other, otherMember, sameOther, -⟩ := (covers found _).mp ⟨item, mem, same, rfl⟩
      rcases mem_append.mp otherMember with left | right
      · exact missing other left sameOther
      · exact absent other right sameOther
    | some highest =>
      obtain ⟨best, most, rfl⟩ := named_highest_sound key value name faithfulFront inFront
      obtain ⟨item, mem, sameName, sameValue⟩ := (covers found (value best)).mpr
        ⟨best, mem_append_left back most.member, most.keyed, rfl⟩
      have top : Highest name value all found item := by
        refine ⟨mem, sameName, ?_⟩
        intro rival rivalMember rivalName
        obtain ⟨other, otherMember, otherName, otherValue⟩ :=
          (covers found (value rival)).mp ⟨rival, rivalMember, rivalName, rfl⟩
        rw [sameValue, ← otherValue]
        rcases mem_append.mp otherMember with left | right
        · exact most.above other left otherName
        · exact absurd otherName (absent other right)
      rw [named_highest_some key value name faithfulAll top, sameValue]
  | some highest =>
    obtain ⟨best, most, rfl⟩ := named_highest_sound key value name faithfulBack inBack
    obtain ⟨item, mem, sameName, sameValue⟩ := (covers found (value best)).mpr
      ⟨best, mem_append_right front most.member, most.keyed, rfl⟩
    rw [some_or]
    constructor
    · intro same left leftMember right _ leftName _
      refine ⟨best, most.member, most.keyed, ?_⟩
      obtain ⟨top, topHighest, topValue⟩ :=
        named_highest_sound key value name faithfulAll same.symm
      obtain ⟨copy, copyMember, copyName, copyValue⟩ := (covers found (value left)).mpr
        ⟨left, mem_append_left back leftMember, leftName, rfl⟩
      have upper := topHighest.above copy copyMember copyName
      rw [topValue, copyValue] at upper
      exact upper
    · intro higher
      have top : Highest name value all found item := by
        refine ⟨mem, sameName, ?_⟩
        intro rival rivalMember rivalName
        obtain ⟨other, otherMember, otherName, otherValue⟩ :=
          (covers found (value rival)).mp ⟨rival, rivalMember, rivalName, rfl⟩
        rw [sameValue, ← otherValue]
        rcases mem_append.mp otherMember with left | right
        · obtain ⟨above, aboveMember, aboveName, less⟩ :=
            higher other left best most.member otherName most.keyed
          have upper := most.above above aboveMember aboveName
          omega
        · exact most.above other right otherName
      rw [named_highest_some key value name faithfulAll top, sameValue]

end Named

end Highest

end OrderedMap

end AwfulChat.Library
