import AwfulChat.Library.Runs
import AwfulChat.Storage.MigrationReads
import AwfulChat.Storage.SearchIndex

/-!
# Sender maxima in memory

`senderMaxLamports` reads a room once and keeps the highest lamport of each of its senders, which
every stored row raises from then on. `getMessagesAboveWatermarks` starts its read at the lowest
mark of a sender these show a peer to be behind on.
-/

namespace AwfulChat.Storage.SenderMax

open Library MessageOrder Inbound Library.OrderedMap
open List hiding get_of_mem

set_option autoImplicit false

/-- A number as `>` compares with it. -/
inductive MarkNumber
  | finite (value : ℚ)
  | infinite (negative : Bool)
  | nan
  deriving DecidableEq

/-- A mark off the wire. What is neither a number nor null is compared as the number it converts
to. -/
inductive WireMark
  | number (value : MarkNumber)
  | null
  | other (converted : MarkNumber)
  deriving DecidableEq

def MarkNumber.below : MarkNumber → Int → Bool
  | .finite value, lamport => decide (value < lamport)
  | .infinite negative, _ => negative
  | .nan, _ => false

def WireMark.below : WireMark → Int → Bool
  | .number value, lamport => value.below lamport
  | .null, lamport => decide (0 < lamport)
  | .other converted, lamport => converted.below lamport

/-- `theirs`: a mark that is no safe integer is that of a peer with nothing. -/
def WireMark.theirs : WireMark → Int
  | .number (.finite value) => if value.den = 1 ∧ isSafeInteger value.num then value.num else -1
  | _ => -1

def above (mark : Option WireMark) (lamport : Int) : Bool :=
  match mark with
  | some mark => mark.below lamport
  | none => decide (-1 < lamport)

/-- How far `ready` is: before the read of the room, before its result is raised in, done. -/
inductive Filling
  | reading
  | raising (read : OrderedMap Sender Int)
  | ready

structure Entry where
  map : OrderedMap Sender Int
  phase : Filling

/-- The store, the rows in it whose listeners were not called yet, and the room's entry. -/
structure Session where
  store : MessageStore
  pending : List Message
  entry : Option Entry

/-- `drop` is a lock, a deletion of the room, or a read that failed. -/
inductive Event
  | put (message : Message)
  | notify (message : Message)
  | ask
  | read
  | fill
  | drop

def raiseSenderMax (map : OrderedMap Sender Int) (sender : Sender) (lamport : Int) :
    OrderedMap Sender Int :=
  if sender = "" then map
  else match map.get sender with
    | some highest => if highest < lamport then map.set sender lamport else map
    | none => map.set sender lamport

def raiseAll (map : OrderedMap Sender Int) (entries : List (Sender × Int)) :
    OrderedMap Sender Int :=
  entries.foldl (fun map entry => raiseSenderMax map entry.1 entry.2) map

section Cache

variable (key : IndexKey) (complete : Bool) (room : Plain)

def step (session : Session) : Event → Option Session
  | .put message =>
    some { session with
      store := session.store.put message
      pending := message :: session.pending }
  | .notify message =>
    if message ∈ session.pending then
      some { session with
        pending := session.pending.erase message
        entry := session.entry.map fun entry =>
          if message.roomCode = room then
            { entry with map := raiseSenderMax entry.map message.senderId.value message.lamport }
          else entry }
    else none
  | .ask =>
    match session.entry with
    | none => some { session with entry := some ⟨.empty, .reading⟩ }
    | some _ => some session
  | .read =>
    match session.entry with
    | some ⟨map, .reading⟩ =>
      some { session with
        entry := some
          ⟨map, .raising (getSenderMaxLamports key complete session.store room)⟩ }
    | _ => none
  | .fill =>
    match session.entry with
    | some ⟨map, .raising read⟩ =>
      some { session with entry := some ⟨raiseAll map read.entries, .ready⟩ }
    | _ => none
  | .drop => some { session with entry := none }

/-- The mark a stored row is compared with: by its blinded sender, else by its plaintext one, where
null is as good as absent. -/
def markOf (watermarks : OrderedMap Sender WireMark) (row : StoredMessage) : Option WireMark :=
  match (OrderedMap.collect (watermarks.entries.map fun entry =>
      (blindValue key entry.1, entry.2))).get (row.senderId key) with
  | some blinded => some blinded
  | none => (watermarks.get (row.senderId key)).filter fun mark => decide (mark ≠ .null)

def getMessagesAboveWatermarks (store : MessageStore) (held : OrderedMap Sender Int)
    (watermarks : OrderedMap Sender WireMark) : List Message :=
  match held.entries.foldl (lowerFloor (watermarks.mapValues WireMark.theirs)) none with
  | none => []
  | some floor =>
    ((rawRoomMessages key complete store room (max 0 (floor + 1))).filter fun row =>
      above (markOf key watermarks row) row.lamport).filterMap (openMessage complete)

def named (message : Message) : Prop :=
  validRow ⟨message.senderId.value, message.lamport⟩ = true

/-- Stored rows have a sender and a lamport in range, and while the migration runs the room is read
with no sender's highest row among the migrated ones alone. -/
def Fair (session : Session) : Event → Prop
  | .put message => named message
  | .read => complete = false → MaxInLegacy session.store room
  | _ => True

/-- No mark is under a blinded name, and none is null for a sender with a legacy row at 0. -/
structure FairMarks (store : MessageStore) (watermarks : OrderedMap Sender WireMark) : Prop where
  unblinded : ∀ row ∈ store.rows, watermarks.get (row.message.senderId.blind key) = none
  number : ∀ row ∈ store.rows, row.migrated = false → row.lamport = 0 →
    watermarks.get row.message.senderId.value ≠ some .null

/-- The map has the sender at the lamport or above. -/
def Has (map : OrderedMap Sender Int) (sender : Sender) (lamport : Int) : Prop :=
  ∃ highest, map.get sender = some highest ∧ lamport ≤ highest

def Entry.Has (entry : Entry) (sender : Sender) (lamport : Int) : Prop :=
  match entry.phase with
  | .reading => True
  | .raising read => SenderMax.Has entry.map sender lamport ∨ SenderMax.Has read sender lamport
  | .ready => SenderMax.Has entry.map sender lamport

structure Covers (session : Session) : Prop where
  valid : ∀ row ∈ session.store.rows, named row.message
  covered : ∀ entry ∈ session.entry,
    ∀ row ∈ rawRoomMessages key complete session.store room 0, row.message ∉ session.pending →
      entry.Has row.message.senderId.value row.lamport

variable {key complete room}

variable {watermarks : OrderedMap Sender WireMark} {sender : Sender} {store : MessageStore}
  {row : StoredMessage} {map : OrderedMap Sender Int}

theorem raise_has (map : OrderedMap Sender Int) (lamport : Int)
    (present : sender ≠ "") : Has (raiseSenderMax map sender lamport) sender lamport := by
  unfold raiseSenderMax
  rw [if_neg present]
  cases stored : map.get sender with
  | none => exact ⟨lamport, get_set_self _ _ _, le_refl _⟩
  | some highest =>
    dsimp only
    split_ifs with lower
    · exact ⟨lamport, get_set_self _ _ _, le_refl _⟩
    · exact ⟨highest, stored, not_lt.mp lower⟩

theorem raise_keeps {lamport : Int} (has : Has map sender lamport) (other : Sender) (value : Int) :
    Has (raiseSenderMax map other value) sender lamport := by
  obtain ⟨highest, stored, most⟩ := has
  by_cases same : sender = other
  · subst same
    unfold raiseSenderMax
    split_ifs with nameless
    · exact ⟨highest, stored, most⟩
    · rw [stored]
      dsimp only
      split_ifs with lower
      · exact ⟨value, get_set_self _ _ _, most.trans lower.le⟩
      · exact ⟨highest, stored, most⟩
  · refine ⟨highest, ?_, most⟩
    unfold raiseSenderMax
    split_ifs
    · exact stored
    · split
      · split_ifs
        · rw [get_set_other _ _ _ _ same]
          exact stored
        · exact stored
      · rw [get_set_other _ _ _ _ same]
        exact stored

theorem raise_all_has {entries : List (Sender × Int)} {lamport highest : Int}
    (present : sender ≠ "") (most : lamport ≤ highest)
    (has : Has map sender lamport ∨ (sender, highest) ∈ entries) :
    Has (raiseAll map entries) sender lamport := by
  induction entries generalizing map with
  | nil => exact has.resolve_right not_mem_nil
  | cons entry rest ih =>
    apply @ih (raiseSenderMax map entry.1 entry.2)
    rcases has with before | mem
    · exact Or.inl (raise_keeps before _ _)
    · rcases mem_cons.mp mem with here | later
      · left
        subst here
        obtain ⟨value, stored, above⟩ := raise_has map highest present
        exact ⟨value, stored, most.trans above⟩
      · exact Or.inr later

theorem read_has (fair : complete = false → MaxInLegacy store room)
    (present : row.message.senderId.value ≠ "")
    (mem : row ∈ rawRoomMessages key complete store room 0) :
    Has (getSenderMaxLamports key complete store room) row.message.senderId.value row.lamport := by
  cases complete with
  | true =>
    obtain ⟨highest, most, stored⟩ := sender_max_covers key store room mem present
    exact ⟨highest, stored, most⟩
  | false =>
    obtain ⟨stored, here, -, bounds⟩ := (mem_both_ranges key false store room).mp mem
    have moved : row.migrate ∈ rawRoomMessages key true store.migrate room 0 :=
      (mem_both_ranges key true store.migrate room).mpr
        ⟨(mem_migrate store).mpr ⟨row, stored, rfl⟩, here, fun _ => rfl, bounds⟩
    obtain ⟨highest, most, found⟩ := sender_max_covers key store.migrate room moved present
    refine ⟨highest, ?_, most⟩
    rw [(sender_max_split_iff key store room).mpr (fair rfl)]
    exact found

theorem put_rows {message : Message}
    (mem : row ∈ (store.put message).rows) : row ∈ store.rows ∨ row.message = message := by
  rcases mem_append.mp mem with kept | last
  · exact Or.inl (mem_filter.mp kept).1
  · exact Or.inr (by rw [mem_singleton.mp last])

theorem sender_named {message : Message} (valid : named message) :
    message.senderId.value ≠ "" := by
  simp only [named, validRow, Bool.and_eq_true, decide_eq_true_eq] at valid
  exact valid.1.1

theorem step_covers (session : Session) (event : Event) (next : Session)
    (covers : Covers key complete room session) (fair : Fair complete room session event)
    (stepped : step key complete room session event = some next) :
    Covers key complete room next := by
  have members : ∀ row ∈ rawRoomMessages key complete session.store room 0,
      row ∈ session.store.rows ∧ row.message.roomCode = room := fun row mem =>
    let read := (mem_both_ranges key complete session.store room).mp mem
    ⟨read.1, read.2.1⟩
  cases event with
  | put message =>
    cases stepped
    refine ⟨?_, ?_⟩
    · intro row mem
      rcases put_rows mem with before | rfl
      · exact covers.valid row before
      · exact fair
    · intro entry held row mem told
      obtain ⟨stored, rest⟩ := (mem_both_ranges key complete _ room).mp mem
      rcases put_rows stored with before | same
      · exact covers.covered entry held row
          ((mem_both_ranges key complete session.store room).mpr ⟨before, rest⟩)
          fun waiting => told (mem_cons_of_mem _ waiting)
      · exact absurd (same ▸ mem_cons_self) told
  | notify message =>
    by_cases waiting : message ∈ session.pending
    case neg => simp [step, waiting] at stepped
    dsimp only [step] at stepped
    rw [if_pos waiting] at stepped
    cases stepped
    refine ⟨covers.valid, ?_⟩
    intro entry held row mem told
    obtain ⟨source, found, rfl⟩ := Option.map_eq_some_iff.mp held
    have present := sender_named (covers.valid row (members row mem).1)
    by_cases same : row.message = message
    · subst same
      rw [if_pos (members row mem).2]
      unfold Entry.Has
      cases source.phase with
      | reading => trivial
      | raising read => exact Or.inl (raise_has _ _ present)
      | ready => exact raise_has _ _ present
    · have before := covers.covered source found row mem
        fun waiting => told ((mem_erase_of_ne same).mpr waiting)
      split_ifs
      · unfold Entry.Has at before ⊢
        cases phase : source.phase with
        | reading => trivial
        | raising read =>
          rw [phase] at before
          exact before.imp (fun has => raise_keeps has _ _) id
        | ready =>
          rw [phase] at before
          exact raise_keeps before _ _
      · exact before
  | ask =>
    dsimp only [step] at stepped
    split at stepped
    · cases stepped
      refine ⟨covers.valid, ?_⟩
      rintro entry ⟨⟩ row mem told
      trivial
    · cases stepped
      exact covers
  | read =>
    dsimp only [step] at stepped
    split at stepped
    · cases stepped
      refine ⟨covers.valid, ?_⟩
      rintro entry ⟨⟩ row mem told
      exact Or.inr (read_has fair
        (sender_named (covers.valid row (members row mem).1)) mem)
    · cases stepped
  | fill =>
    dsimp only [step] at stepped
    split at stepped
    · rename_i map read found
      cases stepped
      refine ⟨covers.valid, ?_⟩
      rintro entry ⟨⟩ row mem told
      have present := sender_named (covers.valid row (members row mem).1)
      rcases covers.covered _ found row mem told with has | ⟨highest, stored, most⟩
      · exact raise_all_has present (le_refl row.lamport) (Or.inl has)
      · exact raise_all_has present most (Or.inr (mem_of_get stored))
    · cases stepped
  | drop =>
    cases stepped
    exact ⟨covers.valid, nofun⟩

theorem their_mark_below {lamport : Int} (positive : 0 ≤ lamport)
    (behind : above (watermarks.get sender) lamport = true) :
    theirMark (watermarks.mapValues WireMark.theirs) sender < lamport := by
  unfold theirMark
  rw [get_mapValues]
  cases stored : watermarks.get sender with
  | none => exact Int.lt_of_lt_of_le (by decide) positive
  | some mark =>
    rw [stored] at behind
    dsimp only [Option.map_some]
    have below : mark.theirs < lamport := by
      unfold WireMark.theirs
      split
      · rename_i value
        split_ifs with whole
        · have less : value < lamport := of_decide_eq_true behind
          rw [← Rat.coe_int_num_of_den_eq_one whole.1] at less
          exact_mod_cast less
        · omega
      · omega
    split_ifs
    · exact below
    · omega

theorem mark_of_row (marks : FairMarks key store watermarks) (mem : row ∈ store.rows)
    (positive : 0 ≤ row.lamport) :
    above (markOf key watermarks row) row.lamport =
      above (watermarks.get row.message.senderId.value) row.lamport := by
  have blinded : ∀ name mark, (name, mark) ∈ watermarks.entries →
      blindValue key name = row.message.senderId.blind key →
        name = row.message.senderId.value := by
    intro name mark listed same
    by_cases already : isBlinded name = true
    · rw [blindValue, if_pos already] at same
      have found := get_of_mem listed
      rw [same, marks.unblinded row mem] at found
      cases found
    · have plain : isBlinded name = false := by simpa using already
      have equal : Plain.blind key ⟨name, plain⟩ = row.message.senderId.blind key := same
      rw [blind_inj] at equal
      exact congrArg Plain.value equal
  unfold markOf
  cases migrated : row.migrated with
  | true =>
    have shown : row.senderId key = row.message.senderId.blind key := by
      simp [StoredMessage.senderId, migrated]
    rw [shown]
    cases found : (OrderedMap.collect (watermarks.entries.map fun entry =>
        (blindValue key entry.1, entry.2))).get (row.message.senderId.blind key) with
    | some mark =>
      obtain ⟨⟨name, value⟩, listed, same⟩ := mem_map.mp (collect_get_mem found)
      have sameName : blindValue key name = row.message.senderId.blind key :=
        congrArg Prod.fst same
      have sameValue : value = mark := congrArg Prod.snd same
      have stored := get_of_mem listed
      rw [blinded name value listed sameName, sameValue] at stored
      rw [stored]
    | none =>
      have absent : watermarks.get row.message.senderId.value = none := by
        cases stored : watermarks.get row.message.senderId.value with
        | none => rfl
        | some mark =>
          have hit := (collect_get_none _ _).mp found
            (blindValue key row.message.senderId.value, mark)
            (mem_map.mpr ⟨_, mem_of_get stored, rfl⟩)
          exact absurd rfl hit
      rw [marks.unblinded row mem, absent]
      rfl
  | false =>
    have shown : row.senderId key = row.message.senderId.value := by
      simp [StoredMessage.senderId, migrated]
    have missed : (OrderedMap.collect (watermarks.entries.map fun entry =>
        (blindValue key entry.1, entry.2))).get row.message.senderId.value = none := by
      rw [collect_get_none]
      intro entry listed same
      obtain ⟨source, -, rfl⟩ := mem_map.mp listed
      have plain := row.message.senderId.plain
      rw [← same] at plain
      by_cases already : isBlinded source.1 = true
      · simp [blindValue, already] at plain
      · have image := is_blinded_blind key ⟨source.1, by simpa using already⟩
        exact absurd (image.symm.trans plain) (by decide)
    rw [shown, missed]
    dsimp only
    cases stored : watermarks.get row.message.senderId.value with
    | none => rfl
    | some mark =>
      by_cases null : mark = .null
      · subst null
        have nonzero : row.lamport ≠ 0 :=
          fun zero => marks.number row mem migrated zero stored
        change decide (-1 < row.lamport) = decide (0 < row.lamport)
        exact decide_eq_decide.mpr (by omega)
      · simp [Option.filter, null]

/-- Where the room was never read with a sender's highest row among the migrated rows alone, a push
selects exactly the room's rows above the peer's marks, of all whose listeners were called. -/
theorem push_matches_filter {store : MessageStore} {events : List Event} {final : Session}
    {held : OrderedMap Sender Int} {watermarks : OrderedMap Sender WireMark} {message : Message}
    (valid : ∀ row ∈ store.rows, named row.message)
    (fair : Meets (step key complete room) (Fair complete room) ⟨store, [], none⟩ events)
    (ran : run (step key complete room) ⟨store, [], none⟩ events = some final)
    (ready : final.entry = some ⟨held, .ready⟩) (marks : FairMarks key final.store watermarks)
    (told : message ∉ final.pending) :
    message ∈ getMessagesAboveWatermarks key complete room final.store held watermarks ↔
      (∃ row ∈ final.store.rows, row.message = message ∧
        (complete = true → row.migrated = true)) ∧
      message.roomCode = room ∧
      above (watermarks.get message.senderId.value) message.lamport = true := by
  have covers : Covers key complete room final :=
    run_keeps step_covers ⟨valid, fun _ held => absurd held (by simp)⟩ fair ran
  unfold getMessagesAboveWatermarks
  constructor
  · intro selected
    split at selected
    · cases selected
    · obtain ⟨row, mem, opened⟩ := mem_filterMap.mp selected
      obtain ⟨read, past⟩ := mem_filter.mp mem
      obtain ⟨stored, here, migrated, low, -⟩ :=
        (mem_both_ranges key complete final.store room).mp read
      have same : row.message = message := by
        unfold openMessage at opened
        split_ifs at opened
        exact Option.some.inj opened
      rw [mark_of_row marks stored ((le_max_left _ _).trans low)] at past
      subst same
      exact ⟨⟨row, stored, rfl, migrated⟩, here, past⟩
  · rintro ⟨⟨row, stored, rfl, migrated⟩, here, past⟩
    have known := covers.valid row stored
    have present := sender_named known
    simp only [named, validRow, Bool.and_eq_true, decide_eq_true_eq, isSafeInteger] at known
    obtain ⟨⟨-, -, small⟩, positive⟩ := known
    obtain ⟨highest, found, most⟩ : Has held row.message.senderId.value row.lamport :=
      covers.covered _ ready row
        ((mem_both_ranges key complete final.store room).mpr
          ⟨stored, here, migrated, positive, small⟩) told
    have behind := their_mark_below positive past
    obtain ⟨floor, lowered, low⟩ := lower_floor_covers (watermarks.mapValues WireMark.theirs)
      held.entries none (behind.trans_le most) (Or.inl (mem_of_get found))
    rw [lowered]
    refine mem_filterMap.mpr ⟨row, mem_filter.mpr ⟨?_, ?_⟩, ?_⟩
    · have reached : max 0 (floor + 1) ≤ row.lamport := max_le positive (by
        change row.message.lamport > _ at behind
        exact Int.add_one_le_of_lt (low.trans_lt behind))
      exact (mem_both_ranges key complete final.store room).mpr
        ⟨stored, here, migrated, reached, small⟩
    · rw [mark_of_row marks stored positive]
      exact past
    · unfold openMessage
      rw [if_neg fun refused => refused.2 (migrated refused.1)]

end Cache

section Samples

def sampleMarks : OrderedMap Sender WireMark :=
  OrderedMap.collect [("alice", .number (.finite 3)), ("bob", .null)]

theorem half_migrated_push_loses :
    run (step plainKey false den) ⟨halfStore, [], none⟩ [.ask, .read, .fill] =
        some ⟨halfStore, [], some
          ⟨raiseAll .empty (getSenderMaxLamports plainKey false halfStore den).entries, .ready⟩⟩ ∧
      getMessagesAboveWatermarks plainKey false den halfStore
        (raiseAll .empty (getSenderMaxLamports plainKey false halfStore den).entries)
        sampleMarks = [] ∧
      (∃ row ∈ halfStore.rows, row.message = ⟨"b", den, alice, 5, .text, some .sent⟩) ∧
      above (sampleMarks.get "alice") 5 = true :=
  ⟨rfl, by decide, ⟨_, mem_cons_of_mem _ mem_cons_self, rfl⟩, by decide⟩

def legacyStore : MessageStore where
  rows := [⟨⟨"a", den, alice, 3, .text, some .sent⟩, false⟩]
  keyed := by decide

def laterMessage : Message := ⟨"b", den, alice, 5, .text, some .sent⟩

def sampleHeld : OrderedMap Sender Int :=
  raiseAll (raiseSenderMax .empty "alice" 5)
    (getSenderMaxLamports plainKey false legacyStore den).entries

theorem later_push_selected :
    laterMessage ∈ getMessagesAboveWatermarks plainKey false den (legacyStore.put laterMessage)
      sampleHeld sampleMarks := by
  have fair : Meets (step plainKey false den) (Fair false den) ⟨legacyStore, [], none⟩
      [.ask, .read, .put laterMessage, .notify laterMessage, .fill] := by
    refine Meets.cons trivial rfl (Meets.cons (fun _ => ?_) rfl (Meets.cons ?_ rfl
      (Meets.cons trivial rfl (Meets.cons trivial rfl trivial))))
    · intro sealed _ seen _ migrated
      rw [mem_singleton.mp seen.1] at migrated
      cases migrated
    · unfold Fair named
      decide
  have marks : FairMarks plainKey (legacyStore.put laterMessage) sampleMarks :=
    ⟨by decide, by decide⟩
  refine (push_matches_filter (by unfold named; decide) fair rfl rfl marks (by decide)).mpr ?_
  exact ⟨⟨⟨laterMessage, true⟩, by decide, rfl, fun _ => rfl⟩, rfl, by decide⟩

end Samples

end AwfulChat.Storage.SenderMax
