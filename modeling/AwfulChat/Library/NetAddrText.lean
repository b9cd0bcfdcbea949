import AwfulChat.Library.NetAddr
import Mathlib.Data.List.TakeWhile
import Mathlib.Tactic.IntervalCases

/-!
# Addresses read back

The text of an address is read as that address, whichever run of zeros was left out of it.
-/

namespace AwfulChat.Library.NetAddr

open List Option

set_option autoImplicit false

section Octets

variable {value : Nat}

theorem digit_nat (low : value < 10) : (digit value).toNat = 48 + value := by
  interval_cases value <;> rfl

theorem read_digit {value digits found : Nat} {fields : List Nat} (rest : Bytes) (low : found < 10)
    (leading : ¬(digits = 1 ∧ value = 0)) (small : value * 10 + found ≤ 255) :
    readOctets (digit found :: rest) value digits fields =
      readOctets rest (value * 10 + found) (digits + 1) fields := by
  have shown := digit_nat low
  rw [readOctets]
  rw [if_pos (by omega), if_neg leading, shown, Nat.add_sub_cancel_left, if_neg (by omega)]

theorem read_field (small : value < 256) (fields : List Nat) (rest : Bytes) :
    ∃ digits, digits ≠ 0 ∧ readOctets (decimalText value ++ rest) 0 0 fields =
      readOctets rest value digits fields := by
  unfold decimalText
  by_cases hundreds : 100 ≤ value
  · refine ⟨3, by decide, ?_⟩
    rw [if_pos hundreds, if_pos (by omega)]
    simp only [cons_append, nil_append]
    rw [read_digit _ (by omega) (by omega) (by omega),
      read_digit _ (by omega) (by omega) (by omega), read_digit _ (by omega) (by omega) (by omega)]
    congr 1
    omega
  · rw [if_neg hundreds]
    by_cases tens : 10 ≤ value
    · refine ⟨2, by decide, ?_⟩
      rw [if_pos tens]
      simp only [cons_append, nil_append]
      rw [read_digit _ (by omega) (by omega) (by omega),
        read_digit _ (by omega) (by omega) (by omega)]
      congr 1
      omega
    · refine ⟨1, by decide, ?_⟩
      rw [if_neg tens]
      simp only [cons_append, nil_append]
      rw [read_digit _ (by omega) (by omega) (by omega)]
      congr 1
      omega

theorem decimal_text_cons (value : Nat) : ∃ unit rest, decimalText value = unit :: rest := by
  unfold decimalText
  split_ifs
  all_goals exact ⟨_, _, rfl⟩

theorem read_dot {value digits : Nat} {fields : List Nat} {rest : Bytes} (some_digits : digits ≠ 0)
    (more : rest ≠ []) (few : fields.length ≠ 3) :
    readOctets (46 :: rest) value digits fields = readOctets rest 0 0 (fields ++ [value]) := by
  have mark : ¬(48 ≤ (46 : UInt8).toNat ∧ (46 : UInt8).toNat ≤ 57) := by decide
  rw [readOctets, if_neg mark, if_pos rfl, if_neg (by simp [some_digits, more]), if_neg few]

theorem read_octets_text {first second third fourth : Nat} (one : first < 256) (two : second < 256)
    (three : third < 256) (four : fourth < 256) :
    readOctets (octetsText [first, second, third, fourth]) 0 0 [] =
      some [first, second, third, fourth] := by
  have filled : ∀ value rest, decimalText value ++ rest ≠ [] := by
    intro value rest empty
    obtain ⟨unit, others, shape⟩ := decimal_text_cons value
    rw [shape] at empty
    cases empty
  unfold octetsText
  simp only [map_cons, map_nil, joined]
  obtain ⟨digits, some_digits, read⟩ := read_field one []
    (46 :: (decimalText second ++ 46 :: (decimalText third ++ 46 :: decimalText fourth)))
  rw [read, read_dot some_digits (filled _ _) (by decide)]
  obtain ⟨digits, some_digits, read⟩ := read_field two [first]
    (46 :: (decimalText third ++ 46 :: decimalText fourth))
  rw [nil_append, read, read_dot some_digits (filled _ _) (by simp)]
  obtain ⟨digits, some_digits, read⟩ := read_field three [first, second] (46 :: decimalText fourth)
  have last := filled fourth []
  rw [append_nil] at last
  rw [cons_append, nil_append, read, read_dot some_digits last (by simp)]
  obtain ⟨digits, some_digits, read⟩ := read_field four [first, second, third] []
  rw [append_nil] at read
  rw [cons_append, cons_append, nil_append, read, readOctets]
  rfl

theorem of_octets (value : Fin (2 ^ 32)) : ofOctets (octets value) = value := by
  have small := value.isLt
  apply Fin.ext
  simp only [ofOctets, octets, foldl_cons, foldl_nil]
  omega

theorem digit_not_mark (low : value < 16) :
    digit value ≠ 58 ∧ digit value ≠ 37 ∧ digit value ≠ 46 ∧ digit value ≠ 44 := by
  interval_cases value <;> decide

theorem decimal_no_mark {unit : UInt8} (small : value < 256)
    (mem : unit ∈ decimalText value) : unit ≠ 58 ∧ unit ≠ 37 ∧ unit ≠ 46 ∧ unit ≠ 44 := by
  unfold decimalText at mem
  simp only [mem_append, mem_singleton] at mem
  rcases mem with first | second | last
  · split_ifs at first
    · rw [mem_singleton.mp first]
      exact digit_not_mark (by omega)
    · cases first
  · split_ifs at second
    · rw [mem_singleton.mp second]
      exact digit_not_mark (by omega)
    · cases second
  · rw [last]
    exact digit_not_mark (by omega)

theorem mem_joined {mark unit : UInt8} {pieces : List Bytes} (mem : unit ∈ joined mark pieces) :
    unit = mark ∨ ∃ piece ∈ pieces, unit ∈ piece := by
  induction pieces using joined.induct with
  | case1 => cases mem
  | case2 piece => exact Or.inr ⟨piece, mem_cons_self, mem⟩
  | case3 piece next rest ih =>
    rw [joined, mem_append, mem_cons] at mem
    rcases mem with first | equal | later
    · exact Or.inr ⟨piece, mem_cons_self, first⟩
    · exact Or.inl equal
    · rcases ih later with equal | ⟨other, listed, inside⟩
      · exact Or.inl equal
      · exact Or.inr ⟨other, mem_cons_of_mem _ listed, inside⟩

theorem octets_small (value : Fin (2 ^ 32)) : ∀ field ∈ octets value, field < 256 := by
  have small := value.isLt
  intro field mem
  simp only [octets, mem_cons, not_mem_nil, or_false] at mem
  rcases mem with rfl | rfl | rfl | rfl
  all_goals omega

theorem octets_text_units {value : Fin (2 ^ 32)} {unit : UInt8}
    (mem : unit ∈ octetsText (octets value)) : unit ≠ 58 ∧ unit ≠ 37 ∧ unit ≠ 44 := by
  unfold octetsText at mem
  rcases mem_joined mem with rfl | ⟨piece, listed, inside⟩
  · decide
  · obtain ⟨field, of, rfl⟩ := mem_map.mp listed
    obtain ⟨colon, percent, -, comma⟩ := decimal_no_mark (octets_small value field of) inside
    exact ⟨colon, percent, comma⟩

theorem first_mark {input : Bytes} {mark : UInt8} (mem : mark ∈ input)
    (marks : mark = 46 ∨ mark = 58 ∨ mark = 37)
    (only : ∀ unit ∈ input, unit = 46 ∨ unit = 58 ∨ unit = 37 → unit = mark) :
    input.find? (fun unit => decide (unit = 46 ∨ unit = 58 ∨ unit = 37)) = some mark := by
  cases found : input.find? fun unit => decide (unit = 46 ∨ unit = 58 ∨ unit = 37) with
  | none =>
    have never := List.find?_eq_none.mp found mark mem
    exact absurd (decide_eq_true marks) never
  | some unit =>
    have shown := List.find?_some found
    rw [only unit (mem_of_find?_eq_some found) (of_decide_eq_true shown)]

theorem parse_octets_text (value : Fin (2 ^ 32)) :
    parse (octetsText (octets value)) = some (.v4 value) := by
  have dotted : (46 : UInt8) ∈ octetsText (octets value) := by
    simp [octetsText, octets, joined]
  have mark := first_mark dotted (Or.inl rfl) (by
    rintro unit mem (dot | colon | percent)
    · exact dot
    · exact absurd colon (octets_text_units mem).1
    · exact absurd percent (octets_text_units mem).2.1)
  have small := octets_small value
  simp only [octets, mem_cons, not_mem_nil, or_false, forall_eq_or_imp, forall_eq]
    at small
  obtain ⟨one, two, three, four⟩ := small
  have read : readOctets (octetsText (octets value)) 0 0 [] = some (octets value) :=
    read_octets_text one two three four
  unfold parse
  rw [mark]
  dsimp only
  rw [if_pos rfl, parse4, read]
  simp only [map_some, Function.comp_apply, of_octets]

end Octets

section Groups

theorem hex_digit {value : Nat} (low : value < 16) : hexValue (digit value) = some value := by
  interval_cases value <;> rfl

variable {unit : UInt8} {found : List Nat}

theorem hex_text_units {value : Nat} (small : value < 65536)
    (mem : unit ∈ hexText value) : ∃ low < 16, unit = digit low := by
  unfold hexText at mem
  simp only [mem_append, mem_singleton] at mem
  rcases mem with first | second | third | last
  · split_ifs at first
    · exact ⟨_, by omega, mem_singleton.mp first⟩
    · cases first
  · split_ifs at second
    · exact ⟨_, by omega, mem_singleton.mp second⟩
    · cases second
  · split_ifs at third
    · exact ⟨_, by omega, mem_singleton.mp third⟩
    · cases third
  · exact ⟨_, by omega, last⟩

theorem hex_text_length (value : Nat) : hexText value ≠ [] ∧ (hexText value).length ≤ 4 := by
  unfold hexText
  constructor
  · simp
  · split_ifs <;> simp

theorem hex_number_text {value : Nat} (small : value < 65536) :
    hexNumber (hexText value) = value := by
  have thousands : (hexValue (digit (value / 0x1000))).getD 0 = value / 0x1000 := by
    rw [hex_digit (by omega)]
    rfl
  have hundreds : (hexValue (digit (value / 0x100 % 16))).getD 0 = value / 0x100 % 16 := by
    rw [hex_digit (by omega)]
    rfl
  have tens : (hexValue (digit (value / 0x10 % 16))).getD 0 = value / 0x10 % 16 := by
    rw [hex_digit (by omega)]
    rfl
  have ones : (hexValue (digit (value % 16))).getD 0 = value % 16 := by
    rw [hex_digit (by omega)]
    rfl
  unfold hexNumber hexText
  split_ifs
  all_goals
    simp only [cons_append, nil_append, foldl_cons, foldl_nil, thousands,
      hundreds, tens, ones]
    omega

theorem take_hex {value : Nat} (small : value < 65536) {rest : Bytes}
    (ends : ∀ unit, rest.head? = some unit → isHex unit = false) :
    (hexText value ++ rest).takeWhile isHex = hexText value ∧
      (hexText value ++ rest).dropWhile isHex = rest := by
  have all : ∀ unit ∈ hexText value, isHex unit = true := by
    intro unit mem
    obtain ⟨low, bound, rfl⟩ := hex_text_units small mem
    unfold isHex
    rw [hex_digit bound]
    rfl
  rw [takeWhile_append_of_pos all, dropWhile_append_of_pos all]
  cases rest with
  | nil => simp
  | cons unit tail =>
    have none := ends unit rfl
    rw [takeWhile_cons_of_neg (by simp [none]), dropWhile_cons_of_neg (by simp [none])]
    exact ⟨append_nil _, rfl⟩

theorem joined_cons (value : Nat) (rest : List Nat) :
    ∃ unit tail, joined 58 ((value :: rest).map hexText) = unit :: tail ∧
      unit ∈ hexText value := by
  obtain ⟨filled, -⟩ := hex_text_length value
  obtain ⟨unit, tail, shape⟩ := exists_cons_of_ne_nil filled
  cases rest with
  | nil => exact ⟨unit, tail, shape, by rw [shape]; exact mem_cons_self⟩
  | cons next others =>
    refine ⟨unit, tail ++ 58 :: joined 58 ((next :: others).map hexText), ?_,
      by rw [shape]; exact mem_cons_self⟩
    rw [map_cons, map_cons, joined, shape]
    rfl

theorem joined_more (value next : Nat) (rest : List Nat) :
    joined 58 ((value :: next :: rest).map hexText) =
      hexText value ++ 58 :: joined 58 ((next :: rest).map hexText) := by
  rw [map_cons, map_cons, joined]

theorem hex_not_colon {value : Nat} (small : value < 65536)
    (mem : unit ∈ hexText value) : unit ≠ 58 := by
  obtain ⟨low, bound, rfl⟩ := hex_text_units small mem
  exact (digit_not_mark bound).1

/-- What `readGroups` makes of the text behind a group. -/
def afterGroup (room : Nat) (more : List Nat) (ellipsis : Option Nat) :
    Bytes → Option (List Nat × Option Nat)
  | [] => some (more, ellipsis)
  | [_] => none
  | unit :: next :: tail =>
    if unit ≠ 58 then none
    else if next = 58 then
      if ellipsis.isSome then none
      else if tail = [] then some (more, some more.length)
      else readGroups room tail more (some more.length)
    else readGroups room (next :: tail) more ellipsis

theorem read_group {value : Nat} (small : value < 65536) {rest : Bytes}
    (ends : ∀ unit, rest.head? = some unit → isHex unit = false ∧ unit ≠ 46) (room : Nat)
    (found : List Nat) (ellipsis : Option Nat) :
    readGroups (room + 1) (hexText value ++ rest) found ellipsis =
      afterGroup room (found ++ [value]) ellipsis rest := by
  obtain ⟨filled, short⟩ := hex_text_length value
  obtain ⟨taken, left⟩ := take_hex small fun unit head => (ends unit head).1
  have plain : ¬(rest.head? = some 46) := fun dot => (ends 46 dot).2 rfl
  rw [readGroups]
  simp only [taken, left, if_neg plain, hex_number_text small]
  rw [if_neg (by simp [filled, short])]
  unfold afterGroup
  split <;> rfl

theorem colon_ends (tail : Bytes) :
    ∀ unit, (58 :: tail : Bytes).head? = some unit → isHex unit = false ∧ unit ≠ 46 := by
  intro unit head
  cases head
  decide

theorem read_groups_joined {room value : Nat} {rest found : List Nat} {ellipsis : Option Nat}
    (fits : rest.length + 1 ≤ room) (small : ∀ group ∈ value :: rest, group < 65536) :
    readGroups room (joined 58 ((value :: rest).map hexText)) found ellipsis =
      some (found ++ value :: rest, ellipsis) := by
  induction rest generalizing room value found with
  | nil =>
    obtain ⟨left, rfl⟩ := Nat.exists_eq_add_of_lt fits
    have read := @read_group value (small value mem_cons_self) []
      (by intro unit never; cases never) (0 + left) found ellipsis
    rw [append_nil] at read
    exact read
  | cons next others ih =>
    obtain ⟨left, rfl⟩ := Nat.exists_eq_add_of_lt fits
    obtain ⟨unit, tail, shape, mem⟩ := joined_cons next others
    have low : next < 65536 := small next (by simp)
    have later : ∀ group ∈ next :: others, group < 65536 :=
      fun group listed => small group (mem_cons_of_mem _ listed)
    rw [joined_more, shape, read_group (small value mem_cons_self) (colon_ends _), afterGroup]
    rw [if_neg (by simp), if_neg (hex_not_colon low mem), ← shape,
      ih (by simp) later, append_assoc]
    rfl

theorem read_groups_run {room value : Nat} {rest after found : List Nat}
    (fits : rest.length + after.length + 1 ≤ room) (small : ∀ group ∈ value :: rest, group < 65536)
    (smallToo : ∀ group ∈ after, group < 65536) :
    readGroups room (joined 58 ((value :: rest).map hexText) ++ 58 :: 58 ::
        joined 58 (after.map hexText)) found none =
      some (found ++ value :: rest ++ after, some (found.length + (rest.length + 1))) := by
  induction rest generalizing room value found with
  | nil =>
    obtain ⟨left, rfl⟩ := Nat.exists_eq_add_of_lt fits
    rw [map_cons, map_nil, joined,
      read_group (small value mem_cons_self) (colon_ends _), afterGroup]
    rw [if_neg (by simp), if_pos rfl, if_neg (by simp)]
    cases after with
    | nil =>
      rw [map_nil, joined, if_pos rfl]
      simp
    | cons next others =>
      obtain ⟨unit, tail, shape, -⟩ := joined_cons next others
      have filled : joined 58 ((next :: others).map hexText) ≠ [] := by
        rw [shape]
        nofun
      rw [if_neg filled, read_groups_joined (by simp) smallToo]
      simp
  | cons next others ih =>
    obtain ⟨left, rfl⟩ := Nat.exists_eq_add_of_lt fits
    obtain ⟨unit, tail, shape, mem⟩ := joined_cons next others
    have low : next < 65536 := small next (by simp)
    have later : ∀ group ∈ next :: others, group < 65536 :=
      fun group listed => small group (mem_cons_of_mem _ listed)
    rw [joined_more, append_assoc, cons_append, shape, cons_append,
      read_group (small value mem_cons_self) (colon_ends _), afterGroup]
    rw [if_neg (by simp), if_neg (hex_not_colon low mem), ← cons_append, ← shape,
      ih (by simp [Nat.add_assoc]; omega) later]
    simp
    omega

theorem longest_run_there {start length : Nat}
    (run : longestRun found = some (start, length)) : 2 ≤ length ∧ zeroRun found start = length := by
  have every : ∀ places : List Nat, ∀ best : Option (Nat × Nat),
      (∀ start length, best = some (start, length) →
        2 ≤ length ∧ zeroRun found start = length) →
      ∀ start length, places.foldl (fun best place =>
        let length := zeroRun found place
        if 2 ≤ length ∧ (best.map Prod.snd).getD 0 < length then some (place, length)
        else best) best = some (start, length) → 2 ≤ length ∧ zeroRun found start = length := by
    intro places
    induction places with
    | nil => exact fun best held => held
    | cons place rest ih =>
      intro best held
      rw [foldl_cons]
      apply ih
      intro start length shown
      dsimp only at shown
      split_ifs at shown with longer
      · cases shown
        exact ⟨longer.1, rfl⟩
      · exact held start length shown
  exact every (List.range 8) none (by intro start length never; cases never) start length run

theorem zero_run_parts (found : List Nat) (start : Nat) :
    found = found.take start ++ (List.replicate (zeroRun found start) 0 ++
      found.drop (start + zeroRun found start)) := by
  have zeros : (found.drop start).takeWhile (fun group => decide (group = 0)) =
      List.replicate (zeroRun found start) 0 := by
    rw [eq_replicate_iff]
    refine ⟨rfl, ?_⟩
    intro group mem
    have zero := mem_takeWhile_imp mem
    exact of_decide_eq_true zero
  have whole : found.drop start = List.replicate (zeroRun found start) 0 ++
      (found.drop start).dropWhile fun group => decide (group = 0) := by
    rw [← zeros, takeWhile_append_dropWhile]
  have rest : found.drop (start + zeroRun found start) =
      (found.drop start).dropWhile fun group => decide (group = 0) := by
    rw [← drop_drop]
    conv_lhs => rw [whole]
    exact drop_left' length_replicate
  rw [rest, ← whole, take_append_drop]

theorem fill_run (before after : List Nat) (length : Nat)
    (eight : before.length + (length + after.length) = 8) (some_zero : length ≠ 0) :
    fillGroups (before ++ after, some before.length) =
      some (before ++ (List.replicate length 0 ++ after)) := by
  unfold fillGroups
  dsimp only
  rw [length_append, if_neg (by omega), take_left, drop_left]
  have left : 8 - (before.length + after.length) = length := by omega
  rw [left]

theorem parse_run_text {before after : List Nat} {length : Nat}
    (eight : before.length + (length + after.length) = 8) (some_zero : length ≠ 0)
    (small : ∀ group ∈ before, group < 65536) (smallToo : ∀ group ∈ after, group < 65536) :
    parseGroups (joined 58 (before.map hexText) ++ 58 :: 58 :: joined 58 (after.map hexText)) =
      some (before ++ (List.replicate length 0 ++ after)) := by
  cases before with
  | nil =>
    rw [map_nil, joined, nil_append, parseGroups]
    cases after with
    | nil =>
      rw [map_nil, joined, if_pos rfl]
      simp only [length_nil, Nat.zero_add, Nat.add_zero] at eight
      rw [eight]
      rfl
    | cons next others =>
      obtain ⟨unit, tail, shape, -⟩ := joined_cons next others
      have filled : joined 58 ((next :: others).map hexText) ≠ [] := by
        rw [shape]
        nofun
      simp only [length_nil, length_cons, Nat.zero_add] at eight
      rw [if_neg filled, read_groups_joined (by omega) smallToo, bind_some]
      exact fill_run [] (next :: others) length (by simpa using eight) some_zero
  | cons value rest =>
    obtain ⟨unit, tail, shape, mem⟩ := joined_cons value rest
    have colon := hex_not_colon (small value mem_cons_self) mem
    simp only [length_cons] at eight
    have read : readGroups 8 (joined 58 ((value :: rest).map hexText) ++ 58 :: 58 ::
        joined 58 (after.map hexText)) [] none =
          some ([] ++ value :: rest ++ after, some (0 + (rest.length + 1))) :=
      read_groups_run (by omega) small smallToo
    rw [nil_append, Nat.zero_add] at read
    unfold parseGroups
    rw [shape] at read ⊢
    rw [cons_append] at read ⊢
    split
    · rename_i never
      exact absurd (List.cons.inj never).1 colon
    · rw [read, bind_some]
      exact fill_run (value :: rest) after length (by simpa using eight) some_zero

theorem parse_groups_text (eight : found.length = 8)
    (small : ∀ group ∈ found, group < 65536) : parseGroups (groupsText found) = some found := by
  unfold groupsText
  cases run : longestRun found with
  | none =>
    dsimp only
    obtain ⟨value, rest, rfl⟩ := exists_cons_of_length_pos (by omega : 0 < found.length)
    obtain ⟨unit, tail, shape, mem⟩ := joined_cons value rest
    have read : readGroups 8 (joined 58 ((value :: rest).map hexText)) [] none =
        some ([] ++ value :: rest, none) :=
      read_groups_joined (Nat.le_of_eq eight) small
    have colon := hex_not_colon (small value mem_cons_self) mem
    rw [nil_append] at read
    unfold parseGroups
    rw [shape] at read ⊢
    split
    · rename_i never
      exact absurd (List.cons.inj never).1 colon
    · rw [read, bind_some, fillGroups, if_pos eight]
  | some place =>
    obtain ⟨start, length⟩ := place
    obtain ⟨long, there⟩ := longest_run_there run
    have parts := zero_run_parts found start
    rw [there] at parts
    dsimp only
    have total := congrArg List.length parts
    rw [eight, length_append, length_append, length_replicate] at total
    conv_rhs => rw [parts]
    exact parse_run_text total.symm (by omega)
      (fun group mem => small group (mem_of_mem_take mem))
      (fun group mem => small group (mem_of_mem_drop mem))

variable (value : Fin (2 ^ 128))

theorem of_groups : ofGroups (groups value) = value := by
  have small := value.isLt
  apply Fin.ext
  simp only [ofGroups, groups, foldl_cons, foldl_nil]
  omega

theorem groups_small : ∀ group ∈ groups value, group < 65536 := by
  have small := value.isLt
  intro group mem
  simp only [groups, mem_cons, not_mem_nil, or_false] at mem
  rcases mem with rfl | rfl | rfl | rfl | rfl | rfl | rfl | rfl
  all_goals omega

theorem joined_groups_units (small : ∀ group ∈ found, group < 65536)
    (mem : unit ∈ joined 58 (found.map hexText)) :
    unit ≠ 37 ∧ unit ≠ 46 ∧ unit ≠ 44 := by
  rcases mem_joined mem with rfl | ⟨piece, listed, inside⟩
  · decide
  · obtain ⟨group, of, rfl⟩ := mem_map.mp listed
    obtain ⟨low, bound, rfl⟩ := hex_text_units (small group of) inside
    exact (digit_not_mark bound).2

theorem groups_text_units
    (mem : unit ∈ groupsText (groups value)) : unit ≠ 37 ∧ unit ≠ 46 ∧ unit ≠ 44 := by
  have small := groups_small value
  unfold groupsText at mem
  split at mem
  · exact joined_groups_units small mem
  · rename_i start length _
    rw [mem_append, mem_cons, mem_cons] at mem
    rcases mem with first | rfl | rfl | last
    · exact joined_groups_units (fun group listed => small group (mem_of_mem_take listed)) first
    · decide
    · decide
    · exact joined_groups_units (fun group listed => small group (mem_of_mem_drop listed)) last

theorem groups_text_colon : (58 : UInt8) ∈ groupsText (groups value) := by
  unfold groupsText
  split
  · simp [groups, joined]
  · simp

theorem parse_groups_address :
    parse (groupsText (groups value)) = some (.v6 value []) := by
  have mark := first_mark (groups_text_colon value) (Or.inr (Or.inl rfl)) (by
    rintro unit mem (dot | colon | percent)
    · exact absurd dot (groups_text_units value mem).2.1
    · exact colon
    · exact absurd percent (groups_text_units value mem).1)
  have plain : ∀ unit ∈ groupsText (groups value), decide (unit ≠ 37) = true :=
    fun unit mem => decide_eq_true (groups_text_units value mem).1
  have whole := takeWhile_eq_self_iff.mpr plain
  have nothing := dropWhile_eq_nil_iff.mpr plain
  unfold parse
  rw [mark]
  dsimp only
  rw [if_neg (by decide), if_pos rfl, parse6]
  simp only [whole, nothing, parse_groups_text rfl (groups_small value), map_some, of_groups]
  rw [if_neg (by simp), tail_nil]

theorem groups_text_injective {left right : Fin (2 ^ 128)}
    (same : groupsText (groups left) = groupsText (groups right)) : left = right := by
  have read := parse_groups_address left
  rw [same, parse_groups_address right] at read
  exact (NetAddr.v6.inj (Option.some.inj read)).1.symm

theorem parse_ip_string :
    parse (ipString value) = some (unmap (.v6 value [])) := by
  unfold ipString unmap
  dsimp only
  split_ifs
  · exact parse_octets_text _
  · exact parse_groups_address value

theorem parse_ip_ip_string : parseIP (ipString value) = some value := by
  unfold parseIP
  rw [parse_ip_string]
  unfold unmap
  dsimp only
  split_ifs with mapped
  · have high := of_decide_eq_true mapped
    dsimp only
    congr 1
    apply Fin.ext
    simp only [low32]
    omega
  · rfl

end Groups

end AwfulChat.Library.NetAddr
