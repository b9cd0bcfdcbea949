import AwfulChat.Storage.MigrationReads

/-!
# Pages of a room

`getMessages` walks the rows under both room keys newest first, and fills a page with those that
are no plugin updates. Asked again below the first row of each page it reads the room once over.
-/

namespace AwfulChat.Storage

open Library MessageOrder Inbound List

set_option autoImplicit false

/-- Where a page ends: nowhere, below a lamport, or before a row. -/
inductive PageBound
  | newest
  | lamport (top : Int)
  | before (row : MessageCursor)

def PAGE_SIZE : Nat := 50

section Pages

variable (key : IndexKey) (complete : Bool) (store : MessageStore) (room : Plain)

/-- The highest lamport of the range; a bound that is a lamport is not in it. `IDBKeyRange` refuses
the empty range of one below 1. -/
def PageBound.high : PageBound → Int
  | .newest => maxSafeInteger
  | .lamport top => top - 1
  | .before row => row.lamport

/-- A cursor that stands on the row itself goes on behind it. -/
def passRow (before : MessageCursor) : List StoredMessage → List StoredMessage
  | first :: rest =>
    if first.lamport = before.lamport ∧ first.message.id = before.id then rest
    else first :: rest
  | [] => []

/-- A cursor over rows of a range, newest first, is moved to the rows before one. -/
def seekBefore (before : MessageCursor) (rows : List StoredMessage) : List StoredMessage :=
  match rows with
  | first :: _ =>
    if first.lamport = before.lamport ∧ utf16Units before.id < utf16Units first.message.id then
      passRow before
        (rows.dropWhile fun row => decide (0 < compareMessages (Row.cursor row) before))
    else passRow before rows
  | [] => []

def openCursor (bound : PageBound) (code : String) : List StoredMessage :=
  let rows := (roomRange key store code 0 bound.high).reverse
  match bound with
  | .before row => seekBefore row rows
  | _ => rows

/-- The rows in the order the loop takes them: of its two cursors the one on the newer row. -/
def pageWalk (bound : PageBound) : List StoredMessage :=
  (openCursor key store bound (room.blind key)).merge
    (if complete then [] else openCursor key store bound room.value)
    fun left right => decide (compareMessages (Row.cursor right) (Row.cursor left) ≤ 0)

def fillPage (size : Nat) : List StoredMessage → List StoredMessage → List StoredMessage
  | [], results => results
  | row :: rest, results =>
    if row.message.type ≠ .pluginUpdate ∧ row.message.id ∉ results.map (·.message.id) then
      if size ≤ (results ++ [row]).length then results ++ [row]
      else fillPage size rest (results ++ [row])
    else fillPage size rest results

/-- The page, and whether it hit the cap. -/
def getMessages (bound : PageBound) : List Message × Bool :=
  let results := fillPage PAGE_SIZE (pageWalk key complete store room bound) []
  (results.reverse.filterMap (openMessage complete), decide (PAGE_SIZE ≤ results.length))

/-- Pages asked for below the first row of the one before, until one is not capped; the oldest
first. -/
def readPages : Nat → PageBound → List (List Message)
  | 0, _ => []
  | fuel + 1, bound =>
    let page := getMessages key complete store room bound
    match page.2, page.1.head? with
    | true, some first => readPages fuel (.before ⟨first.lamport, first.id⟩) ++ [page.1]
    | _, _ => [page.1]

def roomRows : List StoredMessage :=
  sortRows (store.rows.filter fun row =>
    inRange room 0 maxSafeInteger row && (!complete || row.migrated))

def shown (row : StoredMessage) : Bool := decide (row.message.type ≠ .pluginUpdate)

def PageBound.admits : PageBound → StoredMessage → Bool
  | .newest, _ => true
  | .lamport top, row => decide (row.lamport < top)
  | .before bound, row => !decide (Before bound (Row.cursor row))

variable {key complete store room}

theorem mem_room_rows {row : StoredMessage} : row ∈ roomRows complete store room ↔
    row ∈ store.rows ∧ row.message.roomCode = room ∧ (complete = true → row.migrated = true) ∧
      0 ≤ row.lamport ∧ row.lamport ≤ maxSafeInteger := by
  unfold roomRows inRange
  rw [mem_sort_rows, mem_filter]
  cases complete <;> simp [and_assoc, and_comm, and_left_comm]

theorem before_self (row : MessageCursor) : Before row row :=
  (before_total row row).elim id id

theorem drop_to_before {rows : List StoredMessage} (before : MessageCursor)
    (sorted : rows.Pairwise fun newer older => rowBefore older newer)
    (distinct : (rows.map fun row => row.message.id).Nodup) :
    passRow before
        (rows.dropWhile fun row => decide (0 < compareMessages (Row.cursor row) before)) =
      rows.filter (PageBound.before before).admits := by
  induction rows with
  | nil => rfl
  | cons first rest ih =>
    obtain ⟨above, others⟩ := pairwise_cons.mp sorted
    obtain ⟨fresh, apart⟩ := nodup_cons.mp distinct
    by_cases late : 0 < compareMessages (Row.cursor first) before
    · have after : Before before (Row.cursor first) :=
        (before_total _ _).resolve_right (not_le.mpr late)
      rw [dropWhile_cons_of_pos (by simp [late]),
        filter_cons_of_neg (by simp [PageBound.admits, after])]
      exact ih others apart
    · have early : Before (Row.cursor first) before := not_lt.mp late
      rw [dropWhile_cons_of_neg (by simp [late]), passRow]
      split_ifs with here
      · have same : Row.cursor first = before := by
          cases before
          exact congrArg₂ MessageCursor.mk here.1 here.2
        rw [filter_cons_of_neg (by simp [PageBound.admits, same, before_self])]
        symm
        rw [filter_eq_self]
        intro row mem
        have not_after : ¬Before before (Row.cursor row) := by
          intro after
          have equal := before_antisymm (above row mem) (same ▸ after)
          exact fresh (mem_map.mpr ⟨row, mem, congrArg MessageCursor.id equal⟩)
        simp [PageBound.admits, not_after]
      · symm
        rw [filter_eq_self]
        intro row mem
        have not_after : ¬Before before (Row.cursor row) := by
          intro after
          have below : Before (Row.cursor row) (Row.cursor first) := by
            rcases mem_cons.mp mem with rfl | later
            · exact before_self _
            · exact above row later
          have equal := before_antisymm early (before_trans after below)
          exact here ⟨congrArg MessageCursor.lamport equal, congrArg MessageCursor.id equal⟩
        simp [PageBound.admits, not_after]

theorem seek_before_eq {rows : List StoredMessage} {before : MessageCursor}
    (sorted : rows.Pairwise fun newer older => rowBefore older newer)
    (low : ∀ row ∈ rows, row.lamport ≤ before.lamport)
    (distinct : (rows.map fun row => row.message.id).Nodup) :
    seekBefore before rows = rows.filter (PageBound.before before).admits := by
  rw [← drop_to_before before sorted distinct]
  unfold seekBefore
  cases rows with
  | nil => rfl
  | cons first rest =>
    dsimp only
    split_ifs with ahead
    · rfl
    · have early : Before (Row.cursor first) before := by
        rw [before_iff]
        have bound := low first mem_cons_self
        rcases lt_or_eq_of_le bound with less | same
        · exact Or.inl less
        · exact Or.inr ⟨same, not_lt.mp fun greater => ahead ⟨same, greater⟩⟩
      rw [dropWhile_cons_of_neg (by simpa using not_lt.mpr early)]

section

variable {bound : PageBound} (inside : bound.high ≤ maxSafeInteger)
include inside

theorem open_cursor_eq (code : String) :
    openCursor key store bound code =
      (roomRange key store code 0 bound.high).reverse.filter bound.admits := by
  have sorted : (roomRange key store code 0 bound.high).reverse.Pairwise
      fun newer older => rowBefore older newer := by
    rw [pairwise_reverse]
    exact sort_rows_pairwise _
  have low : ∀ row ∈ (roomRange key store code 0 bound.high).reverse, row.lamport ≤ bound.high := by
    intro row mem
    exact ((mem_room_range key store).mp (mem_reverse.mp mem)).2.2.2
  unfold openCursor
  cases bound with
  | newest => exact (filter_eq_self.mpr fun _ _ => rfl).symm
  | lamport top =>
    symm
    rw [filter_eq_self]
    intro row mem
    have below := low row mem
    exact decide_eq_true (Int.lt_of_le_sub_one below)
  | before row =>
    apply seek_before_eq sorted low
    rw [map_reverse, nodup_reverse]
    exact room_range_nodup key store code 0 _

theorem mem_open_cursor {code : String}
    {row : StoredMessage} : row ∈ openCursor key store bound code ↔
      row ∈ roomRange key store code 0 maxSafeInteger ∧ bound.admits row = true := by
  rw [open_cursor_eq inside, mem_filter, mem_reverse, mem_room_range, mem_room_range]
  constructor
  · rintro ⟨⟨stored, here, low, high⟩, admitted⟩
    exact ⟨⟨stored, here, low, high.trans inside⟩, admitted⟩
  · rintro ⟨⟨stored, here, low, high⟩, admitted⟩
    refine ⟨⟨stored, here, low, ?_⟩, admitted⟩
    cases bound with
    | newest => exact high
    | lamport top => exact Int.le_sub_one_of_lt (of_decide_eq_true admitted)
    | before bound =>
      have strict : ¬Before bound (Row.cursor row) := by simpa [PageBound.admits] using admitted
      exact lamport_le_of_before ((before_total _ _).resolve_right strict)

theorem mem_page_walk {row : StoredMessage} : row ∈ pageWalk key complete store room bound ↔
      row ∈ (roomRows complete store room).filter bound.admits := by
  unfold pageWalk
  rw [mem_merge, mem_open_cursor inside, mem_sealed_range, mem_filter, mem_room_rows]
  cases complete with
  | true => simp [and_assoc, and_left_comm]
  | false =>
    rw [if_neg (by decide), mem_open_cursor inside, mem_legacy_range]
    cases row.migrated <;> simp [and_assoc]

end

theorem newer_first_trans (first second third : StoredMessage)
    (one : decide (compareMessages (Row.cursor second) (Row.cursor first) ≤ 0) = true)
    (two : decide (compareMessages (Row.cursor third) (Row.cursor second) ≤ 0) = true) :
    decide (compareMessages (Row.cursor third) (Row.cursor first) ≤ 0) = true :=
  decide_eq_true (before_trans (of_decide_eq_true two) (of_decide_eq_true one))

theorem newer_first_total (left right : StoredMessage) :
    (decide (compareMessages (Row.cursor right) (Row.cursor left) ≤ 0) ||
      decide (compareMessages (Row.cursor left) (Row.cursor right) ≤ 0)) = true := by
  rw [Bool.or_eq_true]
  exact (before_total _ _).imp decide_eq_true decide_eq_true

variable {bound : PageBound}

theorem page_walk_nodup (inside : bound.high ≤ maxSafeInteger) :
    (pageWalk key complete store room bound).Nodup := by
  have both := (both_ranges_nodup key store room complete 0 bound.high).filter bound.admits
  have turned : ∀ code, (openCursor key store bound code).Perm
      ((roomRange key store code 0 bound.high).filter bound.admits) := by
    intro code
    rw [open_cursor_eq inside]
    exact (reverse_perm _).filter _
  unfold pageWalk
  refine (merge_perm_append _).nodup_iff.mpr ?_
  rw [both_ranges_eq] at both
  cases complete with
  | true =>
    rw [if_pos rfl, append_nil]
    exact (turned _).nodup_iff.mpr both
  | false =>
    rw [if_neg (by decide)] at both ⊢
    rw [filter_append] at both
    exact ((turned _).append (turned _)).nodup_iff.mpr both

theorem room_rows_nodup : ((roomRows complete store room).map fun row => row.message.id).Nodup :=
  ((sort_rows_perm _).map _).nodup_iff.mpr (store.keyed.sublist (filter_sublist.map _))

theorem page_walk_eq (inside : bound.high ≤ maxSafeInteger) :
    pageWalk key complete store room bound =
      ((roomRows complete store room).filter bound.admits).reverse := by
  have listed : ∀ code, (openCursor key store bound code).Pairwise fun left right =>
      decide (compareMessages (Row.cursor right) (Row.cursor left) ≤ 0) = true := by
    intro code
    rw [open_cursor_eq inside]
    refine List.Pairwise.filter _ ?_
    rw [pairwise_reverse]
    exact (sort_rows_pairwise _).imp fun before => decide_eq_true before
  have walked : (pageWalk key complete store room bound).Pairwise fun left right =>
      decide (compareMessages (Row.cursor right) (Row.cursor left) ≤ 0) = true := by
    refine pairwise_merge newer_first_trans newer_first_total _ _ (listed _) ?_
    split_ifs
    · exact List.Pairwise.nil
    · exact listed _
  have ordered : ((roomRows complete store room).filter bound.admits).reverse.Pairwise
      fun left right =>
        decide (compareMessages (Row.cursor right) (Row.cursor left) ≤ 0) = true := by
    rw [pairwise_reverse]
    exact ((sort_rows_pairwise _).filter _).imp fun before => decide_eq_true before
  have perm : (pageWalk key complete store room bound).Perm
      ((roomRows complete store room).filter bound.admits).reverse := by
    have distinct := (@room_rows_nodup complete store room).of_map
    refine (perm_ext_iff_of_nodup (page_walk_nodup inside)
      (nodup_reverse.mpr (distinct.filter _))).mpr ?_
    intro row
    rw [mem_page_walk inside, mem_reverse]
  refine perm.eq_of_pairwise ?_ walked ordered
  intro left right mem other first second
  have same := before_antisymm (of_decide_eq_true second) (of_decide_eq_true first)
  have stored := (mem_room_rows.mp (mem_filter.mp ((mem_page_walk inside).mp mem)).1).1
  have kept := (mem_room_rows.mp (mem_filter.mp (mem_reverse.mp other)).1).1
  exact inj_on_of_nodup_map store.keyed stored kept (congrArg MessageCursor.id same)

theorem fill_page_eq {size : Nat} {rows results : List StoredMessage}
    (room_left : results.length < size)
    (distinct : ((results ++ rows).map fun row => row.message.id).Nodup) :
    fillPage size rows results = results ++ (rows.filter shown).take (size - results.length) := by
  induction rows generalizing results with
  | nil => simp [fillPage]
  | cons row rest ih =>
    have more : (((results ++ [row]) ++ rest).map fun row => row.message.id).Nodup := by
      rw [append_assoc]
      exact distinct
    have fewer : ((results ++ rest).map fun row => row.message.id).Nodup :=
      distinct.sublist (((sublist_cons_self row rest).append_left results).map _)
    have fresh : row.message.id ∉ results.map (·.message.id) := by
      rw [map_append, nodup_append] at distinct
      intro before
      exact distinct.2.2 _ before _ (by simp) rfl
    unfold fillPage
    by_cases update : row.message.type = .pluginUpdate
    · rw [if_neg (by simp [update]), filter_cons_of_neg (by simp [shown, update])]
      exact ih room_left fewer
    · rw [if_pos ⟨update, fresh⟩, filter_cons_of_pos (by simp [shown, update])]
      obtain ⟨left, some_left⟩ : ∃ left, size - results.length = left + 1 :=
        ⟨size - results.length - 1, by omega⟩
      rw [some_left, take_succ_cons, length_append, length_singleton]
      split_ifs with full
      · have none_left : left = 0 := by omega
        rw [none_left, take_zero]
      · have next : results.length + 1 < size := Nat.lt_of_not_le full
        rw [ih (by simpa using next) more, append_assoc, singleton_append,
          length_append, length_singleton]
        congr 3
        omega

/-- The rows a page is filled from. -/
def pageRows (complete : Bool) (store : MessageStore) (room : Plain) (bound : PageBound) :
    List StoredMessage :=
  ((roomRows complete store room).filter bound.admits).filter shown

theorem page_rows_readable {row : StoredMessage}
    (mem : row ∈ pageRows complete store room bound) :
    openMessage complete row = some row.message := by
  have listed := (mem_filter.mp (mem_filter.mp mem).1).1
  have migrated := (mem_room_rows.mp listed).2.2.1
  unfold openMessage
  rw [if_neg fun refused => refused.2 (migrated refused.1)]

theorem get_messages_eq (inside : bound.high ≤ maxSafeInteger) :
    getMessages key complete store room bound =
      (((pageRows complete store room bound).drop
          ((pageRows complete store room bound).length - PAGE_SIZE)).map StoredMessage.message,
        decide (PAGE_SIZE ≤ (pageRows complete store room bound).length)) := by
  have ids : ((pageWalk key complete store room bound).map fun row => row.message.id).Nodup := by
    rw [page_walk_eq inside, map_reverse, nodup_reverse]
    exact room_rows_nodup.sublist (filter_sublist.map _)
  have filled : fillPage PAGE_SIZE (pageWalk key complete store room bound) [] =
      ((pageRows complete store room bound).drop
        ((pageRows complete store room bound).length - PAGE_SIZE)).reverse := by
    rw [fill_page_eq (by decide) ids, page_walk_eq inside, filter_reverse, nil_append,
      length_nil, Nat.sub_zero, take_reverse]
    rfl
  unfold getMessages
  dsimp only
  rw [filled, reverse_reverse, length_reverse, length_drop]
  congr 1
  · rw [filterMap_eq_map_iff_forall_eq_some]
    intro row mem
    exact page_rows_readable (mem_of_mem_drop mem)
  · exact decide_eq_decide.mpr (by omega)

theorem admits_below {first row : StoredMessage} (admitted : bound.admits first = true)
    (below : ¬rowBefore first row) :
    bound.admits row = true := by
  have order : rowBefore row first := (before_total _ _).resolve_left below
  cases bound with
  | newest => rfl
  | lamport top =>
    exact decide_eq_true ((lamport_le_of_before order).trans_lt (of_decide_eq_true admitted))
  | before bound =>
    have strict : ¬Before bound (Row.cursor first) := by simpa [PageBound.admits] using admitted
    have low : ¬Before bound (Row.cursor row) := fun held => strict (before_trans held order)
    simp [PageBound.admits, low]

theorem page_rows_before {older page : List StoredMessage} {first : StoredMessage}
    (split : pageRows complete store room bound = older ++ first :: page) :
    pageRows complete store room (.before (Row.cursor first)) = older := by
  have mem : first ∈ pageRows complete store room bound := by simp [split]
  have admitted := (mem_filter.mp (mem_filter.mp mem).1).2
  have narrowed : pageRows complete store room (.before (Row.cursor first)) =
      (pageRows complete store room bound).filter (PageBound.before (Row.cursor first)).admits := by
    unfold pageRows
    rw [filter_filter, filter_filter, filter_filter]
    apply filter_congr
    intro row _
    by_cases after : rowBefore first row
    · simp [PageBound.admits, show Before (Row.cursor first) (Row.cursor row) from after]
    · rw [admits_below admitted after]
      cases shown row <;> simp
  have sorted : (pageRows complete store room bound).Pairwise rowBefore :=
    ((sort_rows_pairwise _).filter _).filter _
  have ids : ((pageRows complete store room bound).map fun row => row.message.id).Nodup :=
    room_rows_nodup.sublist ((filter_sublist.trans filter_sublist).map _)
  rw [split, pairwise_append] at sorted
  rw [split, map_append, nodup_append] at ids
  rw [narrowed, split, filter_append]
  have front : older.filter (PageBound.before (Row.cursor first)).admits = older := by
    rw [filter_eq_self]
    intro row listed
    have strict : ¬Before (Row.cursor first) (Row.cursor row) := by
      intro after
      have same := before_antisymm (sorted.2.2 row listed first mem_cons_self) after
      exact ids.2.2 _ (mem_map_of_mem listed) _ mem_cons_self
        (congrArg MessageCursor.id same)
    simp [PageBound.admits, strict]
  have back : (first :: page).filter (PageBound.before (Row.cursor first)).admits = [] := by
    rw [filter_eq_nil_iff]
    intro row listed
    have after : Before (Row.cursor first) (Row.cursor row) := by
      rcases mem_cons.mp listed with rfl | later
      · exact before_self _
      · exact (pairwise_cons.mp sorted.2.1).1 row later
    simp [PageBound.admits, after]
  rw [front, back, append_nil]

theorem read_pages_eq {fuel : Nat} (inside : bound.high ≤ maxSafeInteger)
    (enough : (pageRows complete store room bound).length < fuel) :
    (readPages key complete store room fuel bound).flatten =
      (pageRows complete store room bound).map StoredMessage.message := by
  induction fuel generalizing bound with
  | zero => cases enough
  | succ fuel ih =>
    unfold readPages
    rw [get_messages_eq inside]
    dsimp only
    by_cases capped : PAGE_SIZE ≤ (pageRows complete store room bound).length
    · have cut := take_append_drop
        ((pageRows complete store room bound).length - PAGE_SIZE)
        (pageRows complete store room bound)
      cases page : (pageRows complete store room bound).drop
          ((pageRows complete store room bound).length - PAGE_SIZE) with
      | nil =>
        have count := congrArg List.length page
        rw [length_drop, length_nil] at count
        unfold PAGE_SIZE at count capped
        omega
      | cons first rest =>
        rw [page] at cut
        have left := page_rows_before cut.symm
        have high : first.lamport ≤ maxSafeInteger := by
          have mem : first ∈ pageRows complete store room bound := by
            rw [← cut]
            simp
          exact (mem_room_rows.mp
            (mem_filter.mp (mem_filter.mp mem).1).1).2.2.2.2
        have fewer := congrArg List.length left
        rw [length_take] at fewer
        have next := @ih (.before (Row.cursor first)) high (by
          unfold PAGE_SIZE at fewer capped
          omega)
        rw [decide_eq_true capped, map_cons, List.head?_cons]
        dsimp only
        rw [flatten_append, flatten_singleton]
        have same : (⟨first.message.lamport, first.message.id⟩ : MessageCursor) =
          Row.cursor first := rfl
        rw [same, next, left, ← map_cons, ← map_append, cut]
    · have whole : (pageRows complete store room bound).length - PAGE_SIZE = 0 := by omega
      rw [decide_eq_false capped, whole, drop_zero]
      dsimp only
      rw [flatten_singleton]

theorem pages_read_room_once (key : IndexKey) (complete : Bool) (store : MessageStore)
    (room : Plain) (more : Nat) :
    (readPages key complete store room (store.rows.length + 1 + more) .newest).flatten =
        ((roomRows complete store room).filter shown).map StoredMessage.message ∧
      ((roomRows complete store room).filter shown).Pairwise rowBefore ∧
      ((roomRows complete store room).filter shown).Nodup ∧
      ∀ row, row ∈ (roomRows complete store room).filter shown ↔
        row ∈ store.rows ∧ row.message.roomCode = room ∧
          (complete = true → row.migrated = true) ∧ 0 ≤ row.lamport ∧
          row.lamport ≤ maxSafeInteger ∧ row.message.type ≠ .pluginUpdate := by
  have every : pageRows complete store room .newest = (roomRows complete store room).filter shown :=
    congrArg (List.filter shown) (filter_eq_self.mpr fun _ _ => rfl)
  have count : ((roomRows complete store room).filter shown).length ≤ store.rows.length := by
    refine (length_filter_le _ _).trans ?_
    rw [roomRows, (sort_rows_perm _).length_eq]
    exact length_filter_le _ _
  refine ⟨?_, (sort_rows_pairwise _).filter _, room_rows_nodup.of_map.filter _, ?_⟩
  · rw [read_pages_eq (le_refl _) (by rw [every]; omega), every]
  · intro row
    rw [mem_filter, mem_room_rows]
    simp [shown, and_assoc]

end Pages

end AwfulChat.Storage
