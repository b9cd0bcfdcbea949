import AwfulChat.Library.JsonSize
import Mathlib.Data.List.Induction

/-!
# Frames of the device sync

The source cuts each section of its export into batches, by count and by the bytes of the
records as JSON text. A record over the budget goes without its `data` field; one that is still
over it makes a frame of its own, however long.
-/

namespace AwfulChat.DeviceSync

open Library List

set_option autoImplicit false

def BATCH_SIZE : Nat := 50

def MAX_BATCH_BYTES : Nat := 2500000

def MAX_DIRECT_FRAME_BYTES : Nat := 4 * 1024 * 1024

def utf8Length : Text → Nat
  | [] => 0
  | [code] => if code.toNat < 0x80 then 1 else if code.toNat < 0x800 then 2 else 3
  | code :: next :: rest =>
    if code.toNat < 0x80 then 1 + utf8Length (next :: rest)
    else if code.toNat < 0x800 then 2 + utf8Length (next :: rest)
    else if Text.isHigh code && Text.isLow next then 4 + utf8Length rest
    else 3 + utf8Length (next :: rest)

theorem utf8_length_size (value : Text) : utf8Length value = Text.size value := by
  unfold Text.size Text.encodeUtf8
  induction value using Text.scalars.induct with
  | case1 => rfl
  | case2 unit => rw [utf8Length, Text.scalars, flatMap_singleton, Text.scalar_size]
  | case3 unit next rest paired ih =>
    have both := paired
    simp only [Text.isHigh, Text.isLow, Bool.and_eq_true, decide_eq_true_eq] at both
    have value : (Text.pairScalar unit next).toNat =
        0x10000 + (unit.toNat - 0xD800) * 0x400 + (next.toNat - 0xDC00) := by
      apply Text.char_value
      unfold Nat.isValidChar
      omega
    rw [utf8Length, if_neg (by omega), if_neg (by omega), if_pos paired, Text.scalars,
      if_pos paired, flatMap_cons, length_append, Text.char_size, value, if_neg (by omega),
      if_neg (by omega), if_neg (by omega), ih]
  | case4 unit next rest apart ih =>
    rw [utf8Length, if_neg apart, Text.scalars, if_neg apart, flatMap_cons, length_append,
      Text.scalar_size, ih]
    split_ifs <;> rfl

/-- The fields of an exported record. -/
abbrev Record := List (Text × Json)

def weight (record : Record) : Nat := utf8Length (Json.stringify (.object record))

/-- What travels of a record: over the budget it goes without its bytes. -/
def carried (item : Record) : Record :=
  if MAX_BATCH_BYTES < weight item then
    item.filter fun field => decide (field.1 ≠ text "data")
  else item

structure Batching where
  batches : List (List Record)
  cur : List Record
  curBytes : Nat

def Batching.add (state : Batching) (item : Record) : Batching :=
  let entry := carried item
  let sz := weight entry
  if state.cur ≠ [] ∧ (BATCH_SIZE ≤ state.cur.length ∨ MAX_BATCH_BYTES < state.curBytes + sz) then
    ⟨state.batches ++ [state.cur], [entry], sz⟩
  else ⟨state.batches, state.cur ++ [entry], state.curBytes + sz⟩

def Batching.close (state : Batching) : List (List Record) :=
  if state.cur ≠ [] then state.batches ++ [state.cur] else state.batches

def batches (items : List Record) : List (List Record) :=
  (items.foldl Batching.add ⟨[], [], 0⟩).close

def total (batch : List Record) : Nat := (batch.map weight).sum

theorem cur_bytes (items : List Record) :
    (items.foldl Batching.add ⟨[], [], 0⟩).curBytes =
      total (items.foldl Batching.add ⟨[], [], 0⟩).cur := by
  induction items using List.reverseRecOn with
  | nil => rfl
  | append_singleton items item ih =>
    rw [foldl_append, foldl_cons, foldl_nil, Batching.add]
    split
    · simp [total]
    · simp [total, ih]

theorem batches_snoc (items : List Record) (item : Record) :
    batches (items ++ [item]) = batches items ++ [[carried item]] ∨
      ∃ full cur, batches items = full ++ [cur] ∧
        batches (items ++ [item]) = full ++ [cur ++ [carried item]] ∧
        cur.length < BATCH_SIZE ∧ total (cur ++ [carried item]) ≤ MAX_BATCH_BYTES := by
  have bytes := cur_bytes items
  unfold batches
  rw [foldl_append, foldl_cons, foldl_nil]
  generalize items.foldl Batching.add ⟨[], [], 0⟩ = state at bytes ⊢
  unfold Batching.add Batching.close
  by_cases empty : state.cur = []
  · simp [empty]
  · by_cases close : BATCH_SIZE ≤ state.cur.length ∨
        MAX_BATCH_BYTES < state.curBytes + weight (carried item)
    · simp [empty, close]
    · obtain ⟨short, light⟩ := not_or.mp close
      refine Or.inr ⟨state.batches, state.cur, by simp [empty], by simp [empty, close],
        Nat.lt_of_not_le short, ?_⟩
      rw [bytes] at light
      simpa [total] using light

structure Cut (items : List Record) (list : List (List Record)) : Prop where
  flat : list.flatten = items.map carried
  whole : ∀ batch ∈ list, batch ≠ [] ∧ batch.length ≤ BATCH_SIZE ∧
    (total batch ≤ MAX_BATCH_BYTES ∨ batch.length = 1)
  few : list.length ≤ items.length

theorem batches_cut (items : List Record) : Cut items (batches items) := by
  induction items using List.reverseRecOn with
  | nil => exact ⟨rfl, nofun, Nat.le_refl _⟩
  | append_singleton items item cut =>
    rcases batches_snoc items item with next | ⟨full, cur, last, next, short, light⟩
    · rw [next]
      refine ⟨by simp [cut.flat], ?_, by simpa using cut.few⟩
      intro batch mem
      rcases mem_append.mp mem with old | new
      · exact cut.whole batch old
      · cases mem_singleton.mp new
        exact ⟨cons_ne_nil _ _, by simp [BATCH_SIZE], Or.inr rfl⟩
    · obtain ⟨flat, whole, few⟩ := last ▸ cut
      rw [next]
      refine ⟨by simp [← flat], ?_, by simpa using Nat.le_succ_of_le few⟩
      intro batch mem
      rcases mem_append.mp mem with old | new
      · exact whole batch (mem_append_left _ old)
      · cases mem_singleton.mp new
        exact ⟨by simp, by simpa using Nat.succ_le_of_lt short, Or.inl light⟩

theorem alone_stays (before after : List Record) {item : Record}
    (past : MAX_BATCH_BYTES < weight (carried item)) :
    ∃ rest, batches (before ++ item :: after) = batches before ++ [carried item] :: rest := by
  induction after using List.reverseRecOn with
  | nil =>
    rcases batches_snoc before item with next | ⟨_, _, _, _, _, light⟩
    · exact ⟨[], next⟩
    · simp only [total, map_append, sum_append, map_cons, map_nil, sum_cons, sum_nil] at light
      omega
  | append_singleton after other ih =>
    obtain ⟨rest, known⟩ := ih
    rw [← cons_append, ← append_assoc]
    rcases batches_snoc (before ++ item :: after) other with next | ⟨full, cur, last, next, _, light⟩
    · exact ⟨rest ++ [[carried other]], by rw [next, known]; simp⟩
    · rw [known] at last
      rcases List.eq_nil_or_concat rest with rfl | ⟨init, tail, rfl⟩
      · obtain ⟨rfl, same⟩ := append_inj' last rfl
        cases same
        simp only [total, map_append, sum_append, map_cons, map_nil, sum_cons, sum_nil] at light
        omega
      · rw [concat_eq_append, ← cons_append, ← append_assoc] at last
        obtain ⟨rfl, -⟩ := append_inj' last rfl
        exact ⟨init ++ [cur ++ [carried other]], by rw [next]; simp⟩

theorem prefix_level {short long : List (List Record)} (shorter : short <+: long)
    (whole : ∀ batch ∈ long, batch ≠ []) (level : short.flatten = long.flatten) :
    short = long := by
  obtain ⟨middle, rfl⟩ := shorter
  cases middle with
  | nil => rw [append_nil]
  | cons batch others =>
    rw [flatten_append, self_eq_append_right, flatten_cons, append_eq_nil_iff] at level
    exact absurd level.1 (whole batch (by simp))

theorem heavy_alone {items batch : List Record} {front back : List (List Record)}
    (cut : batches items = front ++ batch :: back) (heavy : MAX_BATCH_BYTES < total batch) :
    ∃ before item after, items = before ++ item :: after ∧ batch = [carried item] ∧
      front = batches before := by
  have sound := batches_cut items
  obtain ⟨_, _, light | one⟩ := sound.whole batch (by simp [cut])
  · omega
  obtain ⟨entry, rfl⟩ := length_eq_one_iff.mp one
  have flat := sound.flat
  rw [cut, flatten_append, flatten_cons, singleton_append] at flat
  obtain ⟨before, others, rfl, same, tail⟩ := map_eq_append_iff.mp flat.symm
  obtain ⟨item, after, rfl, rfl, -⟩ := map_eq_cons_iff.mp tail
  obtain ⟨rest, again⟩ := alone_stays before after (by simpa [total] using heavy)
  refine ⟨before, item, after, rfl, rfl, ?_⟩
  have level := (batches_cut before).flat.trans same
  have here : front <+: batches (before ++ item :: after) := ⟨_, cut.symm⟩
  rcases prefix_or_prefix_of_prefix here ⟨_, again.symm⟩ with first | second
  · exact prefix_level first (fun batch mem => ((batches_cut before).whole batch mem).1)
      level.symm
  · exact (prefix_level second (fun batch mem => (sound.whole batch (here.subset mem)).1)
      level).symm

def EXPORT_SECTIONS : List Text :=
  ["messages", "attachments", "rooms", "profiles", "roomProfiles", "roomDeletions", "watermarks",
    "yjsDocs", "savedGifs", "pending"].map text

/-- An array has fewer than `2 ^ 32` items. -/
structure DatabaseExport where
  identity : Option Json
  records : Text → List Record
  few : ∀ name, (records name).length < 2 ^ 32

def generateToken (array : Fin 16 → UInt8) : Text :=
  (List.ofFn array).flatMap fun byte =>
    [Json.hexDigit (byte.toNat / 16), Json.hexDigit (byte.toNat % 16)]

def count (value : Nat) : Json := .number (.finite false value 0)

def encode (payload : List (Text × Json)) : Bytes :=
  Text.encodeUtf8 (Json.stringify (.object [(text "type", .string (text "sync_export_data")),
    (text "payload", .object payload)]))

def identityFrame (identity : Option Json) (token : Text) : Bytes :=
  encode ((text "section", .string (text "identity")) ::
    (identity.toList.map fun data => (text "data", data)) ++ [(text "token", .string token)])

def batchFrame (name : Text) (batchIndex totalBatches : Nat) (batch : List Record)
    (token : Text) : Bytes :=
  encode [(text "section", .string name), (text "batchIndex", count batchIndex),
    (text "totalBatches", count totalBatches), (text "data", .array (batch.map .object)),
    (text "token", .string token)]

def exportFrames (exportData : DatabaseExport) (token : Text) : List Bytes :=
  identityFrame exportData.identity token :: EXPORT_SECTIONS.flatMap fun name =>
    let parts := batches (exportData.records name)
    parts.mapIdx fun i batch => batchFrame name i parts.length batch token

theorem name_sizes : Text.size (Json.quote (text "type")) = 6 ∧
    Text.size (Json.quote (text "sync_export_data")) = 18 ∧
    Text.size (Json.quote (text "payload")) = 9 ∧ Text.size (Json.quote (text "section")) = 9 ∧
    Text.size (Json.quote (text "batchIndex")) = 12 ∧
    Text.size (Json.quote (text "totalBatches")) = 14 ∧
    Text.size (Json.quote (text "data")) = 6 ∧ Text.size (Json.quote (text "token")) = 7 ∧
    Text.size (Json.quote (text "identity")) = 10 := by
  decide +kernel

theorem token_size (array : Fin 16 → UInt8) :
    Text.size (Json.quote (generateToken array)) = 34 := by
  rw [Json.quote_plain_size]
  · simp [generateToken]
  · intro unit mem
    obtain ⟨byte, -, digit⟩ := mem_flatMap.mp mem
    have plain : ∀ value < 16, Json.Plain (Json.hexDigit value) := by
      intro value small
      unfold Json.Plain
      interval_cases value <;> decide
    have bound := byte.toNat_lt
    simp only [mem_cons, not_mem_nil, or_false] at digit
    rcases digit with rfl | rfl
    · exact plain _ (by omega)
    · exact plain _ (by omega)

theorem items_total (batch : List Record) :
    ((batch.map Json.object).map fun item => Text.size (Json.stringify item) + 1).sum =
      total batch + batch.length := by
  induction batch with
  | nil => rfl
  | cons first rest ih =>
    simp only [total, map_cons, sum_cons, length_cons, weight, utf8_length_size] at ih ⊢
    omega

theorem string_entry (name value : Text) : Json.entrySize (name, .string value) =
    Text.size (Json.quote name) + Text.size (Json.quote value) + 2 := rfl

theorem encode_size (first : Text × Json) (rest : List (Text × Json)) :
    (encode (first :: rest)).length = 39 + ((first :: rest).map Json.entrySize).sum := by
  obtain ⟨type, kind, payload, -⟩ := name_sizes
  show Text.size _ = _
  rw [Json.object_size, map_cons, sum_cons, string_entry, map_cons, map_nil, sum_cons, sum_nil,
    Json.entrySize, Json.object_size, type, kind, payload]
  omega

theorem batch_frame_size (name token : Text) (index whole : Nat) {batch : List Record}
    (filled : batch ≠ []) : (batchFrame name index whole batch token).length =
      98 + Text.size (Json.quote name) + Text.size (Json.stringify (count index)) +
        Text.size (Json.stringify (count whole)) + total batch + batch.length +
        Text.size (Json.quote token) := by
  obtain ⟨-, -, -, part, place, many, data, proof, -⟩ := name_sizes
  cases batch with
  | nil => exact absurd rfl filled
  | cons first rest =>
    have list := items_total (first :: rest)
    rw [batchFrame, encode_size]
    simp only [map_cons, map_nil, sum_cons, sum_nil, string_entry] at list ⊢
    simp only [Json.entrySize, Json.array_size, map_cons, sum_cons, part, place, many, data, proof]
    omega

theorem identity_frame_size (identity : Option Json) (token : Text) :
    (identityFrame identity token).length = 69 + Text.size (Json.quote token) +
      (identity.map fun data => 8 + Text.size (Json.stringify data)).getD 0 := by
  obtain ⟨-, -, -, part, -, -, data, proof, name⟩ := name_sizes
  rw [identityFrame, cons_append, encode_size]
  cases identity with
  | none =>
    simp [string_entry, part, proof, name]
    omega
  | some value =>
    simp [string_entry, part, proof, name]
    simp [Json.entrySize, data]
    omega

/-- The identity fits a frame, and so does each record that is over the budget without its
`data`, alone in the batch whose number it gets. -/
structure Fits (exportData : DatabaseExport) : Prop where
  identity : ∀ data, exportData.identity = some data →
    111 + Text.size (Json.stringify data) ≤ MAX_DIRECT_FRAME_BYTES
  alone : ∀ name ∈ EXPORT_SECTIONS, ∀ before item after,
    exportData.records name = before ++ item :: after → MAX_BATCH_BYTES < weight (carried item) →
      133 + Text.size (Json.quote name) + Text.size (Json.stringify (count (batches before).length)) +
        Text.size (Json.stringify (count (batches (exportData.records name)).length)) +
        weight (carried item) ≤ MAX_DIRECT_FRAME_BYTES

variable {exportData : DatabaseExport} {name : Text}

theorem count_size {value : Nat} (small : value < 2 ^ 32) :
    Text.size (Json.stringify (count value)) ≤ 16 :=
  Json.nat_size_le ⟨value, by omega⟩

theorem batch_fits (fits : Fits exportData) (listed : name ∈ EXPORT_SECTIONS)
    {front back : List (List Record)} {batch : List Record}
    (cut : batches (exportData.records name) = front ++ batch :: back)
    (array : Fin 16 → UInt8) :
    (batchFrame name front.length (batches (exportData.records name)).length batch
      (generateToken array)).length ≤ MAX_DIRECT_FRAME_BYTES := by
  have sound := batches_cut (exportData.records name)
  obtain ⟨filled, short, _⟩ := sound.whole batch (by simp [cut])
  rw [batch_frame_size _ _ _ _ filled, token_size]
  rcases Nat.lt_or_ge MAX_BATCH_BYTES (total batch) with heavy | light
  · obtain ⟨before, item, after, split, rfl, rfl⟩ := heavy_alone cut heavy
    have alone := fits.alone name listed before item after split (by simpa [total] using heavy)
    simp only [total, map_cons, map_nil, sum_cons, sum_nil, length_cons, length_nil]
    omega
  · have few := Nat.lt_of_le_of_lt sound.few (exportData.few name)
    have names : ∀ name ∈ EXPORT_SECTIONS, Text.size (Json.quote name) ≤ 15 := by decide +kernel
    have named := names name listed
    have many := count_size few
    have place : front.length < 2 ^ 32 := by
      rw [cut, length_append] at few
      omega
    have placed := count_size place
    have budget : MAX_BATCH_BYTES = 2500000 := rfl
    have most : BATCH_SIZE = 50 := rfl
    have cap : MAX_DIRECT_FRAME_BYTES = 4194304 := rfl
    omega

theorem frame_sent (listed : name ∈ EXPORT_SECTIONS) {front back : List (List Record)}
    {batch : List Record} (cut : batches (exportData.records name) = front ++ batch :: back)
    (token : Text) :
    batchFrame name front.length (batches (exportData.records name)).length batch token ∈
      exportFrames exportData token := by
  refine mem_cons_of_mem _ (mem_flatMap.mpr ⟨name, listed, mem_mapIdx.mpr ⟨front.length, ?_, ?_⟩⟩)
  · simp [cut]
  · simp [cut]

theorem export_frames_fit_iff (array : Fin 16 → UInt8) (exportData : DatabaseExport) :
    ((∀ frame ∈ exportFrames exportData (generateToken array),
        frame.length ≤ MAX_DIRECT_FRAME_BYTES) ∧
      (∀ s, utf8Length s = (Text.encodeUtf8 s).length) ∧
      ∀ name, (batches (exportData.records name)).flatten =
          (exportData.records name).map carried ∧
        ∀ batch ∈ batches (exportData.records name), batch ≠ [] ∧ batch.length ≤ BATCH_SIZE) ↔
      Fits exportData := by
  constructor
  · rintro ⟨fits, -, -⟩
    refine ⟨?_, ?_⟩
    · intro data found
      have frame := fits _ mem_cons_self
      rw [identity_frame_size, token_size, found] at frame
      simp only [Option.map_some, Option.getD_some] at frame
      omega
    · intro name listed before item after split past
      obtain ⟨rest, cut⟩ := alone_stays before after past
      rw [← split] at cut
      have frame := fits _ (frame_sent listed cut (generateToken array))
      rw [batch_frame_size _ _ _ _ (cons_ne_nil _ _), token_size] at frame
      simp only [total, map_cons, map_nil, sum_cons, sum_nil, length_cons, length_nil] at frame
      omega
  · intro fits
    refine ⟨?_, utf8_length_size, fun name => ⟨(batches_cut _).flat, fun batch mem => ?_⟩⟩
    · intro frame mem
      rcases mem_cons.mp mem with rfl | mem
      · rw [identity_frame_size, token_size]
        have cap : MAX_DIRECT_FRAME_BYTES = 4194304 := rfl
        cases found : exportData.identity with
        | none => simp [cap]
        | some data =>
          have room := fits.identity data found
          simp only [Option.map_some, Option.getD_some]
          omega
      · obtain ⟨name, listed, mem⟩ := mem_flatMap.mp mem
        obtain ⟨index, bound, rfl⟩ := mem_mapIdx.mp mem
        have cut := take_append_drop index (batches (exportData.records name))
        rw [drop_eq_getElem_cons bound] at cut
        have frame := batch_fits fits listed cut.symm array
        rwa [length_take_of_le (Nat.le_of_lt bound)] at frame
    · obtain ⟨filled, short, -⟩ := (batches_cut _).whole batch mem
      exact ⟨filled, short⟩

def doc (bytes : Nat) : Record :=
  [(text "id", .string (text "doc")), (text "update", .array (replicate bytes (count 255)))]

theorem doc_carried (bytes : Nat) : carried (doc bytes) = doc bytes := by
  have names : text "id" ≠ text "data" ∧ text "update" ≠ text "data" := by decide +kernel
  unfold carried
  split
  · simp [doc, names]
  · rfl

theorem doc_weight {bytes least : Nat} (long : least ≤ 4 * bytes) : least ≤ weight (doc bytes) := by
  have three : Text.size (Json.stringify (count 255)) = 3 := by decide +kernel
  rw [weight, utf8_length_size, doc, Json.object_size]
  cases bytes with
  | zero => omega
  | succ bytes =>
    simp only [map_cons, map_nil, sum_cons, sum_nil, Json.entrySize, replicate_succ,
      Json.array_size, map_replicate, sum_replicate_nat, three]
    omega

def docExport (bytes : Nat) : DatabaseExport where
  identity := none
  records name := if name = text "yjsDocs" then [doc bytes] else []
  few name := by split <;> simp

theorem doc_overflows {bytes : Nat} (long : MAX_DIRECT_FRAME_BYTES < 4 * bytes) (token : Text) :
    ¬∀ frame ∈ exportFrames (docExport bytes) token, frame.length ≤ MAX_DIRECT_FRAME_BYTES := by
  intro fits
  have one : batches ((docExport bytes).records (text "yjsDocs")) = [] ++ [doc bytes] :: [] := by
    simp [docExport, batches, Batching.add, Batching.close, doc_carried]
  have frame := fits _ (frame_sent (by decide +kernel) one token)
  rw [batch_frame_size _ _ _ _ (cons_ne_nil _ _)] at frame
  have heavy := doc_weight (Nat.le_of_lt long)
  simp only [total, map_cons, map_nil, sum_cons, sum_nil] at frame
  omega

theorem long_doc_overflows :
    ¬∀ frame ∈ exportFrames (docExport 1100000) (generateToken fun _ => 0),
      frame.length ≤ MAX_DIRECT_FRAME_BYTES := by
  have long : MAX_DIRECT_FRAME_BYTES < 4 * 1100000 := by
    unfold MAX_DIRECT_FRAME_BYTES
    omega
  exact doc_overflows long _

end AwfulChat.DeviceSync
