import AwfulChat.Storage.Messages

/-!
# Reads while the migration is under way

Each of these readers merges the rows it finds under the blinded and under the
plaintext room by hand. `migrate` is the store with every row in migrated form;
for every reader the split store reads the same as that one exactly when a
condition on its rows holds.
-/

namespace AwfulChat.Storage

open Library MessageOrder Inbound Library.OrderedMap List

set_option autoImplicit false

def StoredMessage.migrate (row : StoredMessage) : StoredMessage :=
  { row with migrated := true }

def MessageStore.migrate (store : MessageStore) : MessageStore where
  rows := store.rows.map StoredMessage.migrate
  keyed := by
    rw [map_map]
    exact store.keyed

structure WatermarkRecord where
  roomCode : Plain
  senderId : Plain
  maxLamport : Int
  deriving DecidableEq

def watermarkId (room sender : Plain) : String := room.value ++ ":" ++ sender.value

structure StoredWatermark where
  record : WatermarkRecord
  migrated : Bool
  deriving DecidableEq

namespace StoredWatermark

def id (key : IndexKey) (row : StoredWatermark) : String :=
  if row.migrated then blindValue key (watermarkId row.record.roomCode row.record.senderId)
  else watermarkId row.record.roomCode row.record.senderId

def roomCode (key : IndexKey) (row : StoredWatermark) : String :=
  if row.migrated then row.record.roomCode.blind key else row.record.roomCode.value

def senderId (key : IndexKey) (row : StoredWatermark) : String :=
  if row.migrated then row.record.senderId.blind key else row.record.senderId.value

def maxLamport (row : StoredWatermark) : Int := row.record.maxLamport

def migrate (row : StoredWatermark) : StoredWatermark := { row with migrated := true }

end StoredWatermark

section Readers

variable (key : IndexKey) (complete : Bool) (store : MessageStore) (room : Plain)

/-- Reactions and plugin updates are not new messages. -/
def countsAsUnread (row : StoredMessage) : Bool :=
  decide (row.message.type ≠ .reaction) && decide (row.message.type ≠ .pluginUpdate)

/-- The sender to leave out, as the rows show it. -/
def blindedExclude (excluded : Option Plain) : Option String :=
  excluded.bind fun sender => if sender.value = "" then none else some (sender.blind key)

def getUnreadCount (lastSeenLamport : Int) (excluded : Option Plain) : Nat :=
  ((bothRanges key complete store room (lastSeenLamport + 1) maxSafeInteger).filter fun row =>
    countsAsUnread row && decide (blindedExclude key excluded ≠ some (row.senderId key))).length

/-- The cursor on the newer row is the next to look at; at one lamport the one
over the blinded rows. -/
def walkNewest (excluded : String) : List StoredMessage → List StoredMessage → Option StoredMessage
  | [], [] => none
  | blinded :: rest, [] =>
    if blinded.senderId key ≠ excluded then some blinded else walkNewest excluded rest []
  | [], plain :: rest =>
    if plain.senderId key ≠ excluded then some plain else walkNewest excluded [] rest
  | blinded :: blindedRest, plain :: plainRest =>
    if blinded.lamport < plain.lamport then
      if plain.senderId key ≠ excluded then some plain
      else walkNewest excluded (blinded :: blindedRest) plainRest
    else if blinded.senderId key ≠ excluded then some blinded
    else walkNewest excluded blindedRest (plain :: plainRest)
termination_by blinded plain => blinded.length + plain.length

def getLastMessageFrom (notSender : Plain) : Option Message :=
  (walkNewest key (notSender.blind key)
    (roomRange key store (room.blind key) 0 maxSafeInteger).reverse
    (if complete then [] else (roomRange key store room.value 0 maxSafeInteger).reverse)).bind
      (openMessage complete)

def unread (status : Option MessageStatus) : Bool :=
  match status with
  | some known => decide (known.rank < MessageStatus.read.rank)
  | none => true

/-- Ids in the order the cascade writes them. No row is deleted meanwhile. -/
def markOwnMessagesReadUpTo (sender : Plain) (lamport after : Int) : List String :=
  if lamport ≤ after then []
  else
    (((bothRanges key complete store room (after + 1) lamport).filter fun row =>
      decide (row.senderId key = sender.blind key) && unread row.message.status).filterMap
        (openMessage complete)).filterMap fun message =>
          if unread message.status then some message.id else none

end Readers

/-- The store of watermarks, keyed by id. -/
structure MarkStore (key : IndexKey) where
  rows : List StoredWatermark
  keyed : (rows.map (StoredWatermark.id key)).Nodup

section Marks

variable (key : IndexKey) (complete : Bool)

def byRoom (rows : List StoredWatermark) (code : String) : List StoredWatermark :=
  rows.filter fun row => decide (row.roomCode key = code)

def roomWatermarks (rows : List StoredWatermark) (room : Plain) : List StoredWatermark :=
  if complete then byRoom key rows (room.blind key)
  else (OrderedMap.collect
    ((byRoom key rows (room.blind key) ++ byRoom key rows room.value).map fun row =>
      (row.id key, row))).values

def openWatermark (row : StoredWatermark) : Option WatermarkRecord :=
  if complete ∧ ¬row.migrated then none else some row.record

def getWatermarksForRoom (rows : List StoredWatermark) (room : Plain) : OrderedMap Sender Int :=
  OrderedMap.collect
    ((((OrderedMap.highestBy (StoredWatermark.senderId key) StoredWatermark.maxLamport
      (roomWatermarks key complete rows room)).values.filterMap (openWatermark complete)).filter
        fun record => decide (record.senderId.value ≠ "")).map fun record =>
          (record.senderId.value, record.maxLamport))

end Marks

section SenderMax

variable (key : IndexKey) (store : MessageStore) (room : Plain)

/-- The room's rows a read by room can find. -/
def Visible (row : StoredMessage) : Prop :=
  row ∈ store.rows ∧ row.message.roomCode = room ∧ 0 ≤ row.lamport ∧ row.lamport ≤ maxSafeInteger

/-- No named sender has a migrated row above all its legacy ones, if it has any. -/
def MaxInLegacy : Prop :=
  ∀ sealed legacy, Visible store room sealed → Visible store room legacy →
    sealed.migrated = true → legacy.migrated = false →
      sealed.message.senderId.value ≠ "" → sealed.message.senderId = legacy.message.senderId →
        ∃ other, Visible store room other ∧ other.migrated = false ∧
          other.message.senderId = sealed.message.senderId ∧ sealed.lamport ≤ other.lamport

theorem mem_migrate {row : StoredMessage} :
    row ∈ store.migrate.rows ↔ ∃ source ∈ store.rows, source.migrate = row := by
  simp [MessageStore.migrate]

theorem name_senders_collect (complete : Bool) (rows : List StoredMessage)
    (readable : ∀ row ∈ rows, complete = true → row.migrated = true) (sender : Sender) :
    (rows.foldl (nameSender complete) .empty).get sender =
      if sender = "" then none
      else (OrderedMap.collect (rows.map fun row =>
        (row.message.senderId.value, row.lamport))).get sender := by
  induction rows using List.reverseRecOn with
  | nil => simp [OrderedMap.collect]
  | append_singleton rest row ih =>
    have before := ih fun other mem => readable other (mem_append_left _ mem)
    rw [foldl_append, foldl_cons, foldl_nil, map_append, map_singleton,
      collect_append_one, get_set]
    by_cases named : sender = ""
    · rw [if_pos named] at before ⊢
      unfold nameSender
      split
      · split_ifs with present
        · rw [get_set, if_neg fun same => present (same.symm.trans named)]
          exact before
        · exact before
      · exact before
    · rw [if_neg named] at before ⊢
      rw [name_sender_get complete _ row (readable row (by simp)) sender named, before]
      by_cases hit : row.message.senderId.value = sender
      · rw [if_pos hit, if_pos hit.symm]
      · rw [if_neg hit, if_neg fun same => hit same.symm]

theorem sender_max_named (complete : Bool) (sender : Sender) :
    (getSenderMaxLamports key complete store room).get sender =
      if sender = "" then none
      else (OrderedMap.namedHighest (StoredMessage.senderId key) StoredMessage.lamport
        (fun row => row.message.senderId.value)
          (rawRoomMessages key complete store room 0)).get sender := by
  unfold getSenderMaxLamports
  rw [name_senders_collect]
  · rfl
  · intro row mem unsealed
    have highest := mem_highest_values key mem
    exact ((mem_both_ranges key complete store room).mp highest.member).2.2.1 unsealed

theorem shown_sender_iff {left right : StoredMessage} (sameForm : left.migrated = right.migrated) :
    left.senderId key = right.senderId key ↔
      left.message.senderId.value = right.message.senderId.value := by
  unfold StoredMessage.senderId
  rw [sameForm]
  split_ifs
  · rw [blind_inj, plain_value_inj]
  · rfl

theorem shown_sender_apart {sealed legacy : StoredMessage} (migrated : sealed.migrated = true)
    (left : legacy.migrated = false) : sealed.senderId key ≠ legacy.senderId key := by
  unfold StoredMessage.senderId
  rw [migrated, left]
  exact blind_ne_value key _ _

theorem mem_sealed_range {low high : Int} {row : StoredMessage} :
    row ∈ roomRange key store (room.blind key) low high ↔
      row ∈ store.rows ∧ row.migrated = true ∧ row.message.roomCode = room ∧
        low ≤ row.lamport ∧ row.lamport ≤ high := by
  rw [mem_room_range, room_code_eq_blind, and_assoc]

theorem mem_legacy_range {low high : Int} {row : StoredMessage} :
    row ∈ roomRange key store room.value low high ↔
      row ∈ store.rows ∧ row.migrated = false ∧ row.message.roomCode = room ∧
        low ≤ row.lamport ∧ row.lamport ≤ high := by
  rw [mem_room_range, room_code_eq_value, and_assoc]

theorem sender_max_split_iff :
    (∀ sender, (getSenderMaxLamports key false store room).get sender =
      (getSenderMaxLamports key true store.migrate room).get sender) ↔ MaxInLegacy store room := by
  have split : ∀ sender, (OrderedMap.namedHighest (StoredMessage.senderId key) StoredMessage.lamport
      (fun row => row.message.senderId.value) (rawRoomMessages key false store room 0)).get sender =
        (OrderedMap.namedHighest (StoredMessage.senderId key) StoredMessage.lamport
          (fun row => row.message.senderId.value)
            (rawRoomMessages key true store.migrate room 0)).get sender ↔
      ∀ left ∈ roomRange key store (room.blind key) 0 maxSafeInteger,
        ∀ right ∈ roomRange key store room.value 0 maxSafeInteger,
          left.message.senderId.value = sender → right.message.senderId.value = sender →
            ∃ other ∈ roomRange key store room.value 0 maxSafeInteger,
              other.message.senderId.value = sender ∧ left.lamport ≤ other.lamport := by
    intro sender
    have parts : rawRoomMessages key false store room 0 =
        roomRange key store (room.blind key) 0 maxSafeInteger ++
          roomRange key store room.value 0 maxSafeInteger := by
      unfold rawRoomMessages
      rw [both_ranges_eq, if_neg (by decide)]
    rw [parts]
    apply named_highest_split
    · intro left leftMember right rightMember
      apply shown_sender_iff
      rw [((mem_sealed_range key store room).mp leftMember).2.1,
        ((mem_sealed_range key store room).mp rightMember).2.1]
    · intro left leftMember right rightMember
      apply shown_sender_iff
      rw [((mem_legacy_range key store room).mp leftMember).2.1,
        ((mem_legacy_range key store room).mp rightMember).2.1]
    · intro left leftMember right rightMember
      apply shown_sender_iff
      rw [((mem_both_ranges key true store.migrate room).mp leftMember).2.2.1 rfl,
        ((mem_both_ranges key true store.migrate room).mp rightMember).2.2.1 rfl]
    · intro left leftMember right rightMember
      exact shown_sender_apart key ((mem_sealed_range key store room).mp leftMember).2.1
        ((mem_legacy_range key store room).mp rightMember).2.1
    · intro found highest
      rw [← parts]
      constructor
      · rintro ⟨item, mem, named, valued⟩
        obtain ⟨stored, here, -, bounds⟩ := (mem_both_ranges key true store.migrate room).mp mem
        obtain ⟨source, sourceMember, rfl⟩ := (mem_migrate store).mp stored
        exact ⟨source, (mem_both_ranges key false store room).mpr
          ⟨sourceMember, here, by simp, bounds⟩, named, valued⟩
      · rintro ⟨item, mem, named, valued⟩
        obtain ⟨stored, here, -, bounds⟩ := (mem_both_ranges key false store room).mp mem
        exact ⟨item.migrate, (mem_both_ranges key true store.migrate room).mpr
          ⟨(mem_migrate store).mpr ⟨item, stored, rfl⟩, here, fun _ => rfl, bounds⟩, named, valued⟩
  constructor
  · intro same sealed legacy sealedSeen legacySeen migrated unmigrated named sameSender
    have here := same sealed.message.senderId.value
    rw [sender_max_named, sender_max_named, if_neg named, if_neg named] at here
    obtain ⟨other, otherMember, otherSender, above⟩ := (split _).mp here sealed
      ((mem_sealed_range key store room).mpr
        ⟨sealedSeen.1, migrated, sealedSeen.2.1, sealedSeen.2.2⟩) legacy
      ((mem_legacy_range key store room).mpr
        ⟨legacySeen.1, unmigrated, legacySeen.2.1, legacySeen.2.2⟩) rfl (by rw [sameSender])
    obtain ⟨stored, left, otherHere, bounds⟩ := (mem_legacy_range key store room).mp otherMember
    exact ⟨other, ⟨stored, otherHere, bounds⟩, left, (plain_value_inj _ _).mp otherSender, above⟩
  · intro fair sender
    rw [sender_max_named, sender_max_named]
    split_ifs with named
    · rfl
    · apply (split sender).mpr
      intro sealed sealedMember legacy legacyMember sealedSender legacySender
      obtain ⟨stored, migrated, sealedHere, bounds⟩ := (mem_sealed_range key store room).mp sealedMember
      obtain ⟨legacyStored, unmigrated, legacyHere, legacyBounds⟩ :=
        (mem_legacy_range key store room).mp legacyMember
      obtain ⟨other, seen, left, otherSender, above⟩ := fair sealed legacy
        ⟨stored, sealedHere, bounds⟩ ⟨legacyStored, legacyHere, legacyBounds⟩ migrated unmigrated
        (by rw [sealedSender]; exact named)
        ((plain_value_inj _ _).mp (sealedSender.trans legacySender.symm))
      refine ⟨other, (mem_legacy_range key store room).mpr
        ⟨seen.1, left, seen.2.1, seen.2.2⟩, ?_, above⟩
      rw [otherSender, sealedSender]

end SenderMax

section RoomMarks

variable (key : IndexKey) (room : Plain)

/-- No named sender has a migrated mark above all its legacy ones, if it has any. -/
def MarksInLegacy (rows : List StoredWatermark) : Prop :=
  ∀ sealed ∈ rows, ∀ legacy ∈ rows, sealed.record.roomCode = room →
    legacy.record.roomCode = room → sealed.migrated = true → legacy.migrated = false →
      sealed.record.senderId.value ≠ "" → sealed.record.senderId = legacy.record.senderId →
        ∃ other ∈ rows, other.record.roomCode = room ∧ other.migrated = false ∧
          other.record.senderId = sealed.record.senderId ∧ sealed.maxLamport ≤ other.maxLamport

theorem mem_sealed_marks {rows : List StoredWatermark} {row : StoredWatermark} :
    row ∈ byRoom key rows (room.blind key) ↔
      row ∈ rows ∧ row.migrated = true ∧ row.record.roomCode = room := by
  unfold byRoom StoredWatermark.roomCode
  rw [mem_filter, decide_eq_true_eq]
  by_cases migrated : row.migrated = true <;> simp [migrated]

theorem mem_legacy_marks {rows : List StoredWatermark} {row : StoredWatermark} :
    row ∈ byRoom key rows room.value ↔
      row ∈ rows ∧ row.migrated = false ∧ row.record.roomCode = room := by
  unfold byRoom StoredWatermark.roomCode
  rw [mem_filter, decide_eq_true_eq]
  by_cases migrated : row.migrated = true <;> simp [migrated, plain_value_inj]

theorem shown_mark_iff {left right : StoredWatermark} (sameForm : left.migrated = right.migrated) :
    left.senderId key = right.senderId key ↔
      left.record.senderId.value = right.record.senderId.value := by
  unfold StoredWatermark.senderId
  rw [sameForm]
  split_ifs
  · rw [blind_inj, plain_value_inj]
  · rfl

theorem room_watermarks_eq (store : MarkStore key) :
    roomWatermarks key false store.rows room =
      byRoom key store.rows (room.blind key) ++ byRoom key store.rows room.value := by
  unfold roomWatermarks OrderedMap.values
  rw [if_neg (by decide), collect_entries]
  · rw [map_map]
    exact map_id _
  · rw [map_map]
    have names : (Prod.fst ∘ fun row : StoredWatermark => (row.id key, row)) =
        StoredWatermark.id key := rfl
    rw [names, map_append, nodup_append]
    refine ⟨store.keyed.sublist (filter_sublist.map _),
      store.keyed.sublist (filter_sublist.map _), ?_⟩
    intro left leftMember right rightMember same
    obtain ⟨sealed, sealedMember, rfl⟩ := mem_map.mp leftMember
    obtain ⟨legacy, legacyMember, rfl⟩ := mem_map.mp rightMember
    have sealedRow := (mem_sealed_marks key room).mp sealedMember
    have legacyRow := (mem_legacy_marks key room).mp legacyMember
    have equal := inj_on_of_nodup_map store.keyed sealedRow.1 legacyRow.1 same
    rw [equal, legacyRow.2.1] at sealedRow
    exact absurd sealedRow.2.1 (by decide)

theorem room_marks_named (complete : Bool) (rows : List StoredWatermark)
    (readable : ∀ row ∈ roomWatermarks key complete rows room, complete = true → row.migrated = true)
    (sender : Sender) :
    (getWatermarksForRoom key complete rows room).get sender =
      if sender = "" then none
      else (OrderedMap.namedHighest (StoredWatermark.senderId key) StoredWatermark.maxLamport
        (fun row => row.record.senderId.value) (roomWatermarks key complete rows room)).get sender := by
  have opened : ∀ row ∈ (OrderedMap.highestBy (StoredWatermark.senderId key)
      StoredWatermark.maxLamport (roomWatermarks key complete rows room)).values,
        openWatermark complete row = some row.record := by
    intro row mem
    obtain ⟨name, stored⟩ := mem_values_iff.mp mem
    have highest := highest_by_get _ _ stored
    unfold openWatermark
    rw [if_neg]
    intro refused
    exact refused.2 (readable row highest.member refused.1)
  have renamed : (((OrderedMap.highestBy (StoredWatermark.senderId key) StoredWatermark.maxLamport
      (roomWatermarks key complete rows room)).values.filterMap (openWatermark complete)).filter
        fun record => decide (record.senderId.value ≠ "")).map
          (fun record => (record.senderId.value, record.maxLamport)) =
      (((OrderedMap.highestBy (StoredWatermark.senderId key) StoredWatermark.maxLamport
        (roomWatermarks key complete rows room)).values.map fun row =>
          (row.record.senderId.value, row.maxLamport)).filter fun entry => decide (entry.1 ≠ "")) := by
    rw [filterMap_congr opened, filterMap_eq_map', filter_map, map_map,
      filter_map]
    rfl
  unfold getWatermarksForRoom
  rw [renamed, collect_filter_get (fun name => decide (name ≠ ""))]
  by_cases named : sender = ""
  · simp [named]
  · simp only [named, ne_eq, not_false_eq_true, decide_true, if_true, if_false]
    rfl

theorem room_marks_split_iff (store : MarkStore key) :
    (∀ sender, (getWatermarksForRoom key false store.rows room).get sender =
      (getWatermarksForRoom key true (store.rows.map StoredWatermark.migrate) room).get sender) ↔
        MarksInLegacy room store.rows := by
  have migratedRows : ∀ row ∈ roomWatermarks key true (store.rows.map StoredWatermark.migrate) room,
      row.migrated = true := by
    intro row mem
    have listed : row ∈ byRoom key (store.rows.map StoredWatermark.migrate) (room.blind key) := mem
    exact ((mem_sealed_marks key room).mp listed).2.1
  have split : ∀ sender, (OrderedMap.namedHighest (StoredWatermark.senderId key)
      StoredWatermark.maxLamport (fun row => row.record.senderId.value)
        (roomWatermarks key false store.rows room)).get sender =
      (OrderedMap.namedHighest (StoredWatermark.senderId key) StoredWatermark.maxLamport
        (fun row => row.record.senderId.value)
          (roomWatermarks key true (store.rows.map StoredWatermark.migrate) room)).get sender ↔
      ∀ left ∈ byRoom key store.rows (room.blind key), ∀ right ∈ byRoom key store.rows room.value,
        left.record.senderId.value = sender → right.record.senderId.value = sender →
          ∃ other ∈ byRoom key store.rows room.value,
            other.record.senderId.value = sender ∧ left.maxLamport ≤ other.maxLamport := by
    intro sender
    rw [room_watermarks_eq]
    apply named_highest_split
    · intro left leftMember right rightMember
      apply shown_mark_iff
      rw [((mem_sealed_marks key room).mp leftMember).2.1,
        ((mem_sealed_marks key room).mp rightMember).2.1]
    · intro left leftMember right rightMember
      apply shown_mark_iff
      rw [((mem_legacy_marks key room).mp leftMember).2.1,
        ((mem_legacy_marks key room).mp rightMember).2.1]
    · intro left leftMember right rightMember
      apply shown_mark_iff
      rw [migratedRows left leftMember, migratedRows right rightMember]
    · intro left leftMember right rightMember
      unfold StoredWatermark.senderId
      rw [((mem_sealed_marks key room).mp leftMember).2.1,
        ((mem_legacy_marks key room).mp rightMember).2.1]
      exact blind_ne_value key _ _
    · intro found highest
      constructor
      · rintro ⟨item, mem, named, valued⟩
        have listed : item ∈ byRoom key (store.rows.map StoredWatermark.migrate) (room.blind key) :=
          mem
        obtain ⟨stored, -, here⟩ := (mem_sealed_marks key room).mp listed
        obtain ⟨source, sourceMember, rfl⟩ := mem_map.mp stored
        refine ⟨source, ?_, named, valued⟩
        rw [mem_append, mem_sealed_marks, mem_legacy_marks]
        cases form : source.migrated with
        | true => exact Or.inl ⟨sourceMember, rfl, here⟩
        | false => exact Or.inr ⟨sourceMember, rfl, here⟩
      · rintro ⟨item, mem, named, valued⟩
        rw [mem_append, mem_sealed_marks, mem_legacy_marks] at mem
        have stored : item ∈ store.rows ∧ item.record.roomCode = room := by
          rcases mem with ⟨stored, -, here⟩ | ⟨stored, -, here⟩ <;> exact ⟨stored, here⟩
        refine ⟨item.migrate, ?_, named, valued⟩
        exact (mem_sealed_marks key room).mpr
          ⟨mem_map_of_mem stored.1, rfl, stored.2⟩
  have unsealed : ∀ sender, _ := fun sender =>
    room_marks_named key room false store.rows (by simp) sender
  have resealed : ∀ sender, _ := fun sender =>
    room_marks_named key room true (store.rows.map StoredWatermark.migrate)
      (fun row mem _ => migratedRows row mem) sender
  constructor
  · intro same sealed sealedMember legacy legacyMember sealedHere legacyHere migrated unmigrated
      named sameSender
    have here := same sealed.record.senderId.value
    rw [unsealed, resealed, if_neg named, if_neg named] at here
    obtain ⟨other, otherMember, otherSender, above⟩ := (split _).mp here sealed
      ((mem_sealed_marks key room).mpr ⟨sealedMember, migrated, sealedHere⟩) legacy
      ((mem_legacy_marks key room).mpr ⟨legacyMember, unmigrated, legacyHere⟩) rfl
      (by rw [sameSender])
    obtain ⟨stored, left, otherHere⟩ := (mem_legacy_marks key room).mp otherMember
    exact ⟨other, stored, otherHere, left, (plain_value_inj _ _).mp otherSender, above⟩
  · intro fair sender
    rw [unsealed, resealed]
    split_ifs with named
    · rfl
    · apply (split sender).mpr
      intro sealed sealedMember legacy legacyMember sealedSender legacySender
      obtain ⟨stored, migrated, sealedHere⟩ := (mem_sealed_marks key room).mp sealedMember
      obtain ⟨legacyStored, unmigrated, legacyHere⟩ := (mem_legacy_marks key room).mp legacyMember
      obtain ⟨other, otherStored, otherHere, left, otherSender, above⟩ :=
        fair sealed stored legacy legacyStored sealedHere legacyHere migrated unmigrated
          (by rw [sealedSender]; exact named)
          ((plain_value_inj _ _).mp (sealedSender.trans legacySender.symm))
      refine ⟨other, (mem_legacy_marks key room).mpr ⟨otherStored, left, otherHere⟩, ?_, above⟩
      rw [otherSender, sealedSender]

end RoomMarks

section Counts

variable (key : IndexKey) (store : MessageStore) (room : Plain)

def inRange (low high : Int) (row : StoredMessage) : Bool :=
  decide (row.message.roomCode = room) && decide (low ≤ row.lamport) && decide (row.lamport ≤ high)

theorem both_ranges_nodup (complete : Bool) (low high : Int) :
    (bothRanges key complete store room low high).Nodup := by
  rw [both_ranges_eq]
  have sealed := (room_range_nodup key store (room.blind key) low high).of_map
  split_ifs
  · exact sealed
  · refine nodup_append.mpr
      ⟨sealed, (room_range_nodup key store room.value low high).of_map, ?_⟩
    intro left leftMember right rightMember same
    subst same
    have migrated := ((mem_sealed_range key store room).mp leftMember).2.1
    rw [((mem_legacy_range key store room).mp rightMember).2.1] at migrated
    cases migrated

theorem store_rows_nodup : store.rows.Nodup := store.keyed.of_map

theorem split_ranges_perm (low high : Int) :
    (bothRanges key false store room low high).Perm (store.rows.filter (inRange room low high)) := by
  apply (perm_ext_iff_of_nodup (both_ranges_nodup key store room false low high)
    ((store_rows_nodup store).filter _)).mpr
  intro row
  rw [mem_both_ranges, mem_filter]
  simp [inRange, and_assoc]

theorem migrated_ranges_perm (low high : Int) :
    (bothRanges key true store.migrate room low high).Perm
      ((store.rows.filter (inRange room low high)).map StoredMessage.migrate) := by
  have distinct : ((store.rows.filter (inRange room low high)).map StoredMessage.migrate).Nodup := by
    have ids : (((store.rows.filter (inRange room low high)).map StoredMessage.migrate).map
        fun row => row.message.id).Nodup := by
      rw [map_map]
      exact store.keyed.sublist (filter_sublist.map _)
    exact ids.of_map
  apply (perm_ext_iff_of_nodup (both_ranges_nodup key store.migrate room true low high)
    distinct).mpr
  intro row
  rw [mem_both_ranges, mem_map]
  constructor
  · rintro ⟨stored, here, -, bounds⟩
    obtain ⟨source, mem, rfl⟩ := (mem_migrate store).mp stored
    refine ⟨source, mem_filter.mpr ⟨mem, ?_⟩, rfl⟩
    have sourceHere : source.message.roomCode = room := here
    have sourceBounds : low ≤ source.lamport ∧ source.lamport ≤ high := bounds
    simp [inRange, sourceHere, sourceBounds]
  · rintro ⟨source, mem, rfl⟩
    obtain ⟨stored, visible⟩ := mem_filter.mp mem
    simp only [inRange, Bool.and_eq_true, decide_eq_true_eq] at visible
    exact ⟨(mem_migrate store).mpr ⟨source, stored, rfl⟩, visible.1.1, fun _ => rfl,
      visible.1.2, visible.2⟩

theorem count_eq_iff {T : Type} {wide narrow : T → Bool} (rows : List T)
    (stricter : ∀ row, narrow row = true → wide row = true) :
    rows.countP wide = rows.countP narrow ↔ ∀ row ∈ rows, wide row = true → narrow row = true := by
  induction rows with
  | nil => simp
  | cons row rest ih =>
    have fewer : rest.countP narrow ≤ rest.countP wide :=
      countP_mono_left fun other _ => stricter other
    rw [countP_cons, countP_cons, forall_mem_cons, ← ih]
    by_cases accepted : wide row = true
    · by_cases kept : narrow row = true
      · simp [accepted, kept]
      · simp only [accepted, kept, if_true, forall_const]
        simp only [Bool.false_eq_true, if_false, false_and, iff_false]
        omega
    · have refused : ¬narrow row = true := fun kept => accepted (stricter row kept)
      simp [accepted, refused]

/-- No legacy row counts that is from the sender to leave out. -/
def NoneExcludedInLegacy (lastSeenLamport : Int) (excluded : Option Plain) : Prop :=
  ∀ sender, excluded = some sender → sender.value ≠ "" → ∀ row ∈ store.rows,
    inRange room (lastSeenLamport + 1) maxSafeInteger row = true → countsAsUnread row = true →
      row.message.senderId = sender → row.migrated = true

theorem shown_migrated (row : StoredMessage) :
    row.migrate.senderId key = row.message.senderId.blind key := by
  simp [StoredMessage.senderId, StoredMessage.migrate]

theorem unread_count_split_iff (lastSeenLamport : Int) (excluded : Option Plain) :
    getUnreadCount key false store room lastSeenLamport excluded =
        getUnreadCount key true store.migrate room lastSeenLamport excluded ↔
      NoneExcludedInLegacy store room lastSeenLamport excluded := by
  unfold getUnreadCount
  rw [← countP_eq_length_filter, ← countP_eq_length_filter,
    (split_ranges_perm key store room _ _).countP_eq,
    (migrated_ranges_perm key store room _ _).countP_eq, countP_map, count_eq_iff]
  · constructor
    · intro same sender given named row stored visible counts ours
      by_contra legacy
      have shown : row.senderId key = sender.value := by
        simp [StoredMessage.senderId, legacy, ours]
      have blinded : blindedExclude key excluded = some (sender.blind key) := by
        simp [blindedExclude, given, named]
      have kept := same row (mem_filter.mpr ⟨stored, visible⟩) (by
        rw [blinded, shown]
        simp [counts])
      simp only [Function.comp, Bool.and_eq_true, decide_eq_true_eq] at kept
      apply kept.2
      rw [blinded, shown_migrated, ours]
    · intro fair row mem wide
      obtain ⟨stored, visible⟩ := mem_filter.mp mem
      simp only [Bool.and_eq_true, decide_eq_true_eq] at wide
      simp only [Function.comp, Bool.and_eq_true, decide_eq_true_eq]
      refine ⟨wide.1, ?_⟩
      rw [shown_migrated]
      intro same
      obtain ⟨sender, given, kept⟩ := Option.bind_eq_some_iff.mp same
      split_ifs at kept with nameless
      have ours : sender = row.message.senderId := by simpa using kept
      have migrated := fair sender given nameless row stored visible wide.1 ours.symm
      apply wide.2
      rw [same]
      simp [StoredMessage.senderId, migrated]
  · intro row narrow
    simp only [Function.comp, Bool.and_eq_true, decide_eq_true_eq] at narrow ⊢
    refine ⟨narrow.1, ?_⟩
    intro same
    apply narrow.2
    rw [shown_migrated, same]
    obtain ⟨sender, given, kept⟩ := Option.bind_eq_some_iff.mp same
    split_ifs at kept
    have shown := Option.some.inj kept
    unfold StoredMessage.senderId at shown ⊢
    split_ifs at shown ⊢
    · rfl
    · exact absurd shown (blind_ne_value key _ _)

/-- No legacy row of the sender is left to mark. -/
def NoneUnreadInLegacy (sender : Plain) (lamport after : Int) : Prop :=
  ∀ row ∈ store.rows, inRange room (after + 1) lamport row = true →
    row.message.senderId = sender → unread row.message.status = true → row.migrated = true

theorem mem_marked {complete : Bool} {sender : Plain} {lamport after : Int} {id : String} :
    id ∈ markOwnMessagesReadUpTo key complete store room sender lamport after ↔
      ∃ row ∈ store.rows, inRange room (after + 1) lamport row = true ∧ row.migrated = true ∧
        row.message.senderId = sender ∧ unread row.message.status = true ∧ row.message.id = id := by
  unfold markOwnMessagesReadUpTo
  split_ifs with empty
  · simp only [not_mem_nil, false_iff, not_exists, not_and]
    intro row _ visible
    simp only [inRange, Bool.and_eq_true, decide_eq_true_eq] at visible
    omega
  · rw [mem_filterMap]
    constructor
    · rintro ⟨message, opened, marked⟩
      obtain ⟨row, chosen, same⟩ := mem_filterMap.mp opened
      obtain ⟨read, ours⟩ := mem_filter.mp chosen
      obtain ⟨stored, here, -, bounds⟩ := (mem_both_ranges key complete store room).mp read
      simp only [Bool.and_eq_true, decide_eq_true_eq] at ours
      have sameMessage : row.message = message := by
        unfold openMessage at same
        split_ifs at same
        exact Option.some.inj same
      split_ifs at marked with left
      have migrated : row.migrated = true := by
        by_contra legacy
        have shown := ours.1
        unfold StoredMessage.senderId at shown
        rw [if_neg legacy] at shown
        exact value_ne_blind key _ _ shown
      refine ⟨row, stored, ?_, migrated, ?_, ours.2, ?_⟩
      · simp [inRange, here, bounds]
      · have shown := ours.1
        unfold StoredMessage.senderId at shown
        rw [if_pos migrated, blind_inj] at shown
        exact shown
      · rw [sameMessage]
        exact Option.some.inj marked
    · rintro ⟨row, stored, visible, migrated, ours, left, rfl⟩
      simp only [inRange, Bool.and_eq_true, decide_eq_true_eq] at visible
      refine ⟨row.message, mem_filterMap.mpr ⟨row, mem_filter.mpr ⟨?_, ?_⟩, ?_⟩, ?_⟩
      · exact (mem_both_ranges key complete store room).mpr
          ⟨stored, visible.1.1, fun _ => migrated, visible.1.2, visible.2⟩
      · simp [StoredMessage.senderId, migrated, ours, left]
      · simp [openMessage, migrated]
      · rw [if_pos left]

theorem marked_split_iff (sender : Plain) (lamport after : Int) :
    (∀ id, id ∈ markOwnMessagesReadUpTo key false store room sender lamport after ↔
      id ∈ markOwnMessagesReadUpTo key true store.migrate room sender lamport after) ↔
        NoneUnreadInLegacy store room sender lamport after := by
  constructor
  · intro same row stored visible ours left
    have marked := (same row.message.id).mpr ((mem_marked key store.migrate room).mpr
      ⟨row.migrate, (mem_migrate store).mpr ⟨row, stored, rfl⟩, visible, rfl, ours, left, rfl⟩)
    obtain ⟨other, otherStored, -, migrated, -, -, sameId⟩ := (mem_marked key store room).mp marked
    rw [← inj_on_of_nodup_map store.keyed otherStored stored sameId]
    exact migrated
  · intro fair id
    rw [mem_marked, mem_marked]
    constructor
    · rintro ⟨row, stored, visible, -, ours, left, sameId⟩
      exact ⟨row.migrate, (mem_migrate store).mpr ⟨row, stored, rfl⟩, visible, rfl, ours, left,
        sameId⟩
    · rintro ⟨row, stored, visible, -, ours, left, sameId⟩
      obtain ⟨source, mem, rfl⟩ := (mem_migrate store).mp stored
      exact ⟨source, mem, visible, fair source mem visible ours left, ours, left, sameId⟩

end Counts

section Newest

variable (key : IndexKey) (store : MessageStore) (room notSender : Plain)

/-- The newest of some rows, in conversation order. -/
structure Newest (among : StoredMessage → Prop) (row : StoredMessage) : Prop where
  member : among row
  last : ∀ other, among other → rowBefore other row

def Legacy (row : StoredMessage) : Prop := Visible store room row ∧ row.migrated = false

def Others (row : StoredMessage) : Prop :=
  Visible store room row ∧ row.message.senderId ≠ notSender

def OthersSealed (row : StoredMessage) : Prop :=
  Others store room notSender row ∧ row.migrated = true

/-- The newest legacy row is not from the sender to leave out, unless a migrated
row of someone else has at least its lamport; and where the newest such row has
at least the lamport of every legacy row, no legacy row of someone else comes
after it. -/
structure NewestFair : Prop where
  left : ∀ plain, Newest (Legacy store room) plain → plain.message.senderId = notSender →
    ∃ sealed, OthersSealed store room notSender sealed ∧ plain.lamport ≤ sealed.lamport
  tied : ∀ sealed plain, Newest (OthersSealed store room notSender) sealed →
    Newest (Legacy store room) plain → plain.lamport ≤ sealed.lamport →
      ∀ other, Legacy store room other → other.message.senderId ≠ notSender →
        rowBefore other sealed

variable {row : StoredMessage}

theorem find_newest {rows : List StoredMessage}
    (sorted : rows.Pairwise fun newer older => rowBefore older newer) {test : StoredMessage → Bool}
    (found : rows.find? test = some row) :
    row ∈ rows ∧ test row = true ∧ ∀ other ∈ rows, test other = true → rowBefore other row := by
  obtain ⟨passes, before, after, split, refused⟩ := List.find?_eq_some_iff_append.mp found
  subst split
  refine ⟨by simp, passes, ?_⟩
  intro other mem accepted
  rcases mem_append.mp mem with earlier | later
  · have no := refused other earlier
    rw [accepted] at no
    cases no
  · rcases mem_cons.mp later with rfl | rest
    · rcases before_total (Row.cursor other) (Row.cursor other) with same | same <;> exact same
    · exact (pairwise_cons.mp (pairwise_append.mp sorted).2.1).1 other rest

theorem newest_first_sorted (code : String) :
    (roomRange key store code 0 maxSafeInteger).reverse.Pairwise
      fun newer older => rowBefore older newer := by
  rw [pairwise_reverse]
  exact sort_rows_pairwise _

theorem walk_blinded (excluded : String) (rows : List StoredMessage) :
    walkNewest key excluded rows [] =
      rows.find? fun row => decide (row.senderId key ≠ excluded) := by
  induction rows with
  | nil => simp [walkNewest]
  | cons row rest ih =>
    rw [walkNewest, List.find?_cons, ih]
    by_cases shown : row.senderId key = excluded <;> simp [shown]

theorem walk_plain (excluded : String) (rows rest : List StoredMessage) {plain : StoredMessage}
    (shown : plain.senderId key ≠ excluded) :
    walkNewest key excluded rows (plain :: rest) =
      match rows.find? fun row =>
        decide (row.lamport < plain.lamport) || decide (row.senderId key ≠ excluded) with
      | some row => if row.lamport < plain.lamport then some plain else some row
      | none => some plain := by
  induction rows with
  | nil =>
    rw [walkNewest, if_pos shown]
    rfl
  | cons row others ih =>
    rw [walkNewest, List.find?_cons]
    by_cases below : row.lamport < plain.lamport
    · simp [below, shown]
    · by_cases out : row.senderId key = excluded
      · simp only [below, out, if_false, ne_eq, not_true_eq_false, decide_false, Bool.or_false,
          ih]
      · simp [below, out]

theorem newest_unique {among : StoredMessage → Prop} (stored : ∀ row, among row → row ∈ store.rows)
    {left right : StoredMessage} (first : Newest among left)
    (second : Newest among right) : left = right := by
  have same := before_antisymm (second.last left first.member) (first.last right second.member)
  exact inj_on_of_nodup_map store.keyed (stored left first.member) (stored right second.member)
    (congrArg MessageCursor.id same)

theorem last_message_migrated :
    (∃ row, Newest (Others store room notSender) row ∧
      getLastMessageFrom key true store.migrate room notSender = some row.message) ∨
    ((∀ row, ¬Others store room notSender row) ∧
      getLastMessageFrom key true store.migrate room notSender = none) := by
  unfold getLastMessageFrom
  rw [if_pos rfl, walk_blinded]
  have listed : ∀ row, Others store room notSender row →
      row.migrate ∈ (roomRange key store.migrate (room.blind key) 0 maxSafeInteger).reverse ∧
        decide (row.migrate.senderId key ≠ notSender.blind key) = true := by
    rintro row ⟨⟨stored, here, bounds⟩, other⟩
    refine ⟨mem_reverse.mpr ((mem_sealed_range key store.migrate room).mpr
      ⟨(mem_migrate store).mpr ⟨row, stored, rfl⟩, rfl, here, bounds⟩), ?_⟩
    rw [shown_migrated]
    simpa using other
  cases found : (roomRange key store.migrate (room.blind key) 0 maxSafeInteger).reverse.find?
      (fun row => decide (row.senderId key ≠ notSender.blind key)) with
  | none =>
    refine Or.inr ⟨?_, rfl⟩
    intro row other
    obtain ⟨mem, shown⟩ := listed row other
    exact List.find?_eq_none.mp found row.migrate mem shown
  | some row =>
    obtain ⟨mem, shown, newest⟩ :=
      find_newest (newest_first_sorted key store.migrate (room.blind key)) found
    obtain ⟨stored, -, here, bounds⟩ :=
      (mem_sealed_range key store.migrate room).mp (mem_reverse.mp mem)
    obtain ⟨source, sourceMember, rfl⟩ := (mem_migrate store).mp stored
    rw [shown_migrated] at shown
    refine Or.inl ⟨source, ⟨⟨⟨sourceMember, here, bounds⟩, by simpa using shown⟩, ?_⟩, ?_⟩
    · intro other among
      obtain ⟨otherMember, otherShown⟩ := listed other among
      exact newest other.migrate otherMember otherShown
    · simp [openMessage, StoredMessage.migrate]

theorem last_message_split :
    (∃ plain, Newest (Legacy store room) plain ∧
      ((∃ sealed, Newest (OthersSealed store room notSender) sealed ∧
          plain.lamport ≤ sealed.lamport ∧
            getLastMessageFrom key false store room notSender = some sealed.message) ∨
        ((∀ sealed, OthersSealed store room notSender sealed → sealed.lamport < plain.lamport) ∧
          getLastMessageFrom key false store room notSender = some plain.message))) ∨
    ((∀ row, ¬Legacy store room row) ∧
      ((∃ sealed, Newest (OthersSealed store room notSender) sealed ∧
          getLastMessageFrom key false store room notSender = some sealed.message) ∨
        ((∀ row, ¬OthersSealed store room notSender row) ∧
          getLastMessageFrom key false store room notSender = none))) := by
  have opened : ∀ row, openMessage false row = some row.message := fun _ => rfl
  have sealedRows : ∀ row, OthersSealed store room notSender row ↔
      row ∈ (roomRange key store (room.blind key) 0 maxSafeInteger).reverse ∧
        row.senderId key ≠ notSender.blind key := by
    intro row
    rw [mem_reverse, mem_sealed_range]
    constructor
    · rintro ⟨⟨⟨stored, here, bounds⟩, other⟩, migrated⟩
      refine ⟨⟨stored, migrated, here, bounds⟩, ?_⟩
      simpa [StoredMessage.senderId, migrated] using other
    · rintro ⟨⟨stored, migrated, here, bounds⟩, shown⟩
      refine ⟨⟨⟨stored, here, bounds⟩, ?_⟩, migrated⟩
      simpa [StoredMessage.senderId, migrated] using shown
  have legacyRows : ∀ row, Legacy store room row ↔
      row ∈ (roomRange key store room.value 0 maxSafeInteger).reverse := by
    intro row
    rw [mem_reverse, mem_legacy_range]
    constructor
    · rintro ⟨⟨stored, here, bounds⟩, left⟩
      exact ⟨stored, left, here, bounds⟩
    · rintro ⟨stored, left, here, bounds⟩
      exact ⟨⟨stored, here, bounds⟩, left⟩
  have sealedSorted := newest_first_sorted key store (room.blind key)
  have legacySorted := newest_first_sorted key store room.value
  unfold getLastMessageFrom
  rw [if_neg (by decide)]
  cases plains : (roomRange key store room.value 0 maxSafeInteger).reverse with
  | nil =>
    right
    have none : ∀ row, ¬Legacy store room row := by
      intro row legacy
      have mem := (legacyRows row).mp legacy
      rw [plains] at mem
      cases mem
    refine ⟨none, ?_⟩
    rw [walk_blinded]
    cases found : (roomRange key store (room.blind key) 0 maxSafeInteger).reverse.find?
        (fun row => decide (row.senderId key ≠ notSender.blind key)) with
    | none =>
      refine Or.inr ⟨?_, rfl⟩
      intro row other
      obtain ⟨mem, shown⟩ := (sealedRows row).mp other
      exact List.find?_eq_none.mp found row mem (by simpa using shown)
    | some row =>
      obtain ⟨mem, shown, newest⟩ := find_newest sealedSorted found
      refine Or.inl ⟨row, ⟨(sealedRows row).mpr ⟨mem, by simpa using shown⟩, ?_⟩, opened row⟩
      intro other among
      obtain ⟨otherMember, otherShown⟩ := (sealedRows other).mp among
      exact newest other otherMember (by simpa using otherShown)
  | cons plain rest =>
    left
    rw [plains] at legacySorted
    have isLegacy : Legacy store room plain := by
      apply (legacyRows plain).mpr
      rw [plains]
      exact mem_cons_self
    have newestPlain : Newest (Legacy store room) plain := by
      refine ⟨isLegacy, ?_⟩
      intro other legacy
      have mem := (legacyRows other).mp legacy
      rw [plains] at mem
      rcases mem_cons.mp mem with rfl | later
      · rcases before_total (Row.cursor other) (Row.cursor other) with same | same <;> exact same
      · exact (pairwise_cons.mp legacySorted).1 other later
    have shown : plain.senderId key ≠ notSender.blind key := by
      unfold StoredMessage.senderId
      rw [isLegacy.2]
      exact value_ne_blind key _ _
    refine ⟨plain, newestPlain, ?_⟩
    rw [walk_plain key _ _ _ shown]
    cases found : (roomRange key store (room.blind key) 0 maxSafeInteger).reverse.find?
        (fun row => decide (row.lamport < plain.lamport) ||
          decide (row.senderId key ≠ notSender.blind key)) with
    | none =>
      refine Or.inr ⟨?_, opened plain⟩
      intro sealed other
      obtain ⟨mem, otherShown⟩ := (sealedRows sealed).mp other
      exact absurd (by simp [otherShown]) (List.find?_eq_none.mp found sealed mem)
    | some row =>
      obtain ⟨mem, accepted, newest⟩ := find_newest sealedSorted found
      have upTo : ∀ sealed, OthersSealed store room notSender sealed → rowBefore sealed row := by
        intro sealed other
        obtain ⟨otherMember, otherShown⟩ := (sealedRows sealed).mp other
        exact newest sealed otherMember (by simp [otherShown])
      dsimp only
      by_cases below : row.lamport < plain.lamport
      · rw [if_pos below]
        refine Or.inr ⟨?_, opened plain⟩
        intro sealed other
        exact lt_of_le_of_lt (lamport_le_of_before (upTo sealed other)) below
      · rw [if_neg below]
        have isOther : OthersSealed store room notSender row := by
          apply (sealedRows row).mpr
          refine ⟨mem, ?_⟩
          simpa [below] using accepted
        exact Or.inl ⟨row, ⟨isOther, upTo⟩, not_lt.mp below, opened row⟩

theorem others_split (other : Others store room notSender row) :
    OthersSealed store room notSender row ∨ Legacy store room row := by
  cases form : row.migrated with
  | true => exact Or.inl ⟨other, form⟩
  | false => exact Or.inr ⟨other.1, form⟩

theorem last_message_migrated_eq (newest : Newest (Others store room notSender) row) :
    getLastMessageFrom key true store.migrate room notSender = some row.message := by
  rcases last_message_migrated key store room notSender with ⟨found, same, result⟩ | ⟨nobody, -⟩
  · rw [result, newest_unique store (fun _ other => other.1.1) newest same]
  · exact absurd newest.member (nobody row)

theorem newest_of_eq (stored : row ∈ store.rows)
    (same : some row.message = getLastMessageFrom key true store.migrate room notSender) :
    Newest (Others store room notSender) row := by
  rcases last_message_migrated key store room notSender with ⟨found, newest, result⟩ | ⟨-, result⟩
  · rw [result] at same
    have equal := inj_on_of_nodup_map store.keyed stored newest.member.1.1
      (congrArg Message.id (Option.some.inj same))
    rw [equal]
    exact newest
  · rw [result] at same
    cases same

theorem last_message_split_iff :
    getLastMessageFrom key false store room notSender =
        getLastMessageFrom key true store.migrate room notSender ↔
      NewestFair store room notSender := by
  have oneLegacy : ∀ left right, Newest (Legacy store room) left → Newest (Legacy store room) right →
      left = right := fun left right => newest_unique store fun _ legacy => legacy.1.1
  rcases last_message_split key store room notSender with
    ⟨plain, newestPlain, ⟨sealed, newestSealed, covers, result⟩ | ⟨below, result⟩⟩ |
      ⟨none, ⟨sealed, newestSealed, result⟩ | ⟨nobody, result⟩⟩
  · rw [result]
    constructor
    · intro same
      have newest := newest_of_eq key store room notSender newestSealed.member.1.1.1 same
      constructor
      · intro other newestOther _
        rw [oneLegacy other plain newestOther newestPlain]
        exact ⟨sealed, newestSealed.member, covers⟩
      · intro top _ newestTop _ _ other legacy ours
        rw [newest_unique store (fun _ among => among.1.1.1) newestTop newestSealed]
        exact newest.last other ⟨legacy.1, ours⟩
    · intro fair
      symm
      apply last_message_migrated_eq
      refine ⟨newestSealed.member.1, ?_⟩
      intro other among
      rcases others_split store room notSender among with inSealed | legacy
      · exact newestSealed.last other inSealed
      · exact fair.tied sealed plain newestSealed newestPlain covers other legacy among.2
  · rw [result]
    constructor
    · intro same
      have newest := newest_of_eq key store room notSender newestPlain.member.1.1 same
      constructor
      · intro other newestOther left
        rw [oneLegacy other plain newestOther newestPlain] at left
        exact absurd left newest.member.2
      · intro top other newestTop newestOther above
        rw [oneLegacy other plain newestOther newestPlain] at above
        exact absurd (below top newestTop.member) (not_lt.mpr above)
    · intro fair
      symm
      apply last_message_migrated_eq
      have ours : plain.message.senderId ≠ notSender := by
        intro left
        obtain ⟨top, inSealed, above⟩ := fair.left plain newestPlain left
        exact absurd (below top inSealed) (not_lt.mpr above)
      refine ⟨⟨newestPlain.member.1, ours⟩, ?_⟩
      intro other among
      rcases others_split store room notSender among with inSealed | legacy
      · exact (before_iff _ _).mpr (Or.inl (below other inSealed))
      · exact newestPlain.last other legacy
  · refine iff_of_true ?_ ⟨fun plain newest => absurd newest.member (none plain),
      fun _ plain _ newest => absurd newest.member (none plain)⟩
    rw [result]
    symm
    apply last_message_migrated_eq
    refine ⟨newestSealed.member.1, ?_⟩
    intro other among
    exact newestSealed.last other
      ((others_split store room notSender among).resolve_right (none other))
  · refine iff_of_true ?_ ⟨fun plain newest => absurd newest.member (none plain),
      fun _ plain _ newest => absurd newest.member (none plain)⟩
    rw [result]
    rcases last_message_migrated key store room notSender with ⟨found, newest, -⟩ | ⟨-, empty⟩
    · rcases others_split store room notSender newest.member with inSealed | legacy
      · exact absurd inSealed (nobody found)
      · exact absurd legacy (none found)
    · exact empty.symm

end Newest

/-- Every reader of an unfinished migration answers as over a migrated store
exactly when the rows it merges meet its condition. -/
theorem split_reads_transparent_iff (key : IndexKey) (store : MessageStore) (marks : MarkStore key)
    (room sender : Plain) (lastSeenLamport lamport after : Int) (excluded : Option Plain) :
    ((∀ name, (getSenderMaxLamports key false store room).get name =
        (getSenderMaxLamports key true store.migrate room).get name) ↔ MaxInLegacy store room) ∧
    ((∀ name, (getWatermarksForRoom key false marks.rows room).get name =
        (getWatermarksForRoom key true (marks.rows.map StoredWatermark.migrate) room).get name) ↔
          MarksInLegacy room marks.rows) ∧
    (getUnreadCount key false store room lastSeenLamport excluded =
        getUnreadCount key true store.migrate room lastSeenLamport excluded ↔
          NoneExcludedInLegacy store room lastSeenLamport excluded) ∧
    (getLastMessageFrom key false store room sender =
        getLastMessageFrom key true store.migrate room sender ↔ NewestFair store room sender) ∧
    ((∀ id, id ∈ markOwnMessagesReadUpTo key false store room sender lamport after ↔
        id ∈ markOwnMessagesReadUpTo key true store.migrate room sender lamport after) ↔
          NoneUnreadInLegacy store room sender lamport after) :=
  ⟨sender_max_split_iff key store room, room_marks_split_iff key room marks,
    unread_count_split_iff key store room lastSeenLamport excluded,
    last_message_split_iff key store room sender,
    marked_split_iff key store room sender lamport after⟩

section HalfMigrated

def halfStore : MessageStore where
  rows :=
    [⟨⟨"a", den, alice, 3, .text, some .sent⟩, false⟩,
      ⟨⟨"b", den, alice, 5, .text, some .sent⟩, true⟩]
  keyed := by decide

def halfMarks : MarkStore plainKey where
  rows := [⟨⟨den, alice, 3⟩, false⟩, ⟨⟨den, alice, 5⟩, true⟩]
  keyed := by decide

theorem half_store_last_message :
    getLastMessageFrom plainKey false halfStore den alice =
        some ⟨"a", den, alice, 3, .text, some .sent⟩ ∧
      getLastMessageFrom plainKey true halfStore.migrate den alice = none := by
  have sealed : (roomRange plainKey halfStore (den.blind plainKey) 0 maxSafeInteger).reverse =
      [⟨⟨"b", den, alice, 5, .text, some .sent⟩, true⟩] := by decide
  have legacy : (roomRange plainKey halfStore den.value 0 maxSafeInteger).reverse =
      [⟨⟨"a", den, alice, 3, .text, some .sent⟩, false⟩] := by decide
  constructor
  · unfold getLastMessageFrom
    rw [if_neg (by decide), sealed, legacy, walk_plain]
    · decide
    · decide
  · unfold getLastMessageFrom
    rw [if_pos rfl, walk_blinded]
    decide

/-- With one row of alice's in each form none of the readers answers as it would
once both are migrated. -/
theorem half_migrated_reads_differ :
    ((getSenderMaxLamports plainKey false halfStore den).get "alice" = some 3 ∧
      (getSenderMaxLamports plainKey true halfStore.migrate den).get "alice" = some 5) ∧
    ((getWatermarksForRoom plainKey false halfMarks.rows den).get "alice" = some 3 ∧
      (getWatermarksForRoom plainKey true (halfMarks.rows.map StoredWatermark.migrate) den).get
        "alice" = some 5) ∧
    (getUnreadCount plainKey false halfStore den 0 (some alice) = 1 ∧
      getUnreadCount plainKey true halfStore.migrate den 0 (some alice) = 0) ∧
    (getLastMessageFrom plainKey false halfStore den alice =
        some ⟨"a", den, alice, 3, .text, some .sent⟩ ∧
      getLastMessageFrom plainKey true halfStore.migrate den alice = none) ∧
    (markOwnMessagesReadUpTo plainKey false halfStore den alice 9 (-1) = ["b"] ∧
      markOwnMessagesReadUpTo plainKey true halfStore.migrate den alice 9 (-1) = ["a", "b"]) := by
  refine ⟨⟨?_, ?_⟩, ⟨?_, ?_⟩, ⟨?_, ?_⟩, half_store_last_message, ⟨?_, ?_⟩⟩ <;> decide

end HalfMigrated

end AwfulChat.Storage
