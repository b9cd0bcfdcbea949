import AwfulChat.Inbound.Delivery
import AwfulChat.Storage.Messages
import AwfulChat.Storage.Watermarks

/-!
# A cut push and the one that follows it

The pusher selects what lies above the receiver's watermarks and sends it as a
paced push; the push is cut; the receiver's claims moved its watermarks, and the
next push is selected against those. The second push brings back everything the
first one left out, except a row that shares its sender and its lamport with a
row of an oldest-first batch that did arrive: that batch claimed the lamport, and
a selection strictly above it never offers the other row again.
-/

namespace AwfulChat.HistoryRepair

open Library MessageOrder SyncPush Inbound List Option
open AwfulChat.Storage

set_option autoImplicit false

instance : SentRow Message where
  cursor := fun message => ⟨message.lamport, message.id⟩
  type := Message.type
  senderId := fun message => message.senderId.value

def commitCall (name : Room) (call : Call Nat) (marks : OrderedMap Sender Int) :
    OrderedMap Sender Int :=
  match call with
  | .commit _ room sender lamport => if room = name then commitMark marks sender lamport else marks
  | _ => marks

/-- The watermarks of a room once the commits of a history are written, the
oldest first. -/
def marksAfter (name : Room) (marks : OrderedMap Sender Int) (log : List (Call Nat)) :
    OrderedMap Sender Int :=
  log.foldr (commitCall name) marks

/-- A receiver: its watermarks for the room, by DID, and the rows it holds. -/
structure Receiver where
  marks : OrderedMap Sender Int
  plain : PlainMarks marks
  rows : List Message

section Marks

variable {name : Room} {marks : OrderedMap Sender Int}

theorem marks_after_from {log : List (Call Nat)} {sender : Sender} {mark : Int}
    (found : (marksAfter name marks log).get sender = some mark) :
    marks.get sender = some mark ∨ ∃ push, .commit push name sender mark ∈ log := by
  induction log generalizing mark with
  | nil => exact Or.inl found
  | cons call rest ih =>
    have later : (marksAfter name marks rest).get sender = some mark →
        marks.get sender = some mark ∨ ∃ push, .commit push name sender mark ∈ call :: rest := by
      intro before
      rcases ih before with old | ⟨push, mem⟩
      · exact Or.inl old
      · exact Or.inr ⟨push, mem_cons_of_mem _ mem⟩
    have unfolded : (commitCall name call (marksAfter name marks rest)).get sender = some mark :=
      found
    cases call with
    | commit push room other lamport =>
      simp only [commitCall] at unfolded
      split_ifs at unfolded with here
      · rw [commit_mark_get] at unfolded
        split_ifs at unfolded with raised
        · cases unfolded
          refine Or.inr ⟨push, ?_⟩
          rw [raised.1, here]
          exact mem_cons_self
        · exact later unfolded
      · exact later unfolded
    | _ => exact later unfolded

theorem marks_after_reach (marks : OrderedMap Sender Int) {log : List (Call Nat)} {push : Nat}
    {sender : Sender} {lamport : Int} (committed : .commit push name sender lamport ∈ log) :
    ∃ mark, lamport ≤ mark ∧ (marksAfter name marks log).get sender = some mark := by
  induction log with
  | nil => cases committed
  | cons call rest ih =>
    have kept : ∀ mark, (marksAfter name marks rest).get sender = some mark →
        ∃ higher, mark ≤ higher ∧
          (commitCall name call (marksAfter name marks rest)).get sender = some higher := by
      intro mark before
      cases call with
      | commit other room otherSender otherLamport =>
        simp only [commitCall]
        split_ifs
        · rw [commit_mark_get]
          split_ifs with raised
          · rw [raised.1] at before
            exact ⟨otherLamport, le_of_lt (raised.2 mark before), rfl⟩
          · exact ⟨mark, le_refl _, before⟩
        · exact ⟨mark, le_refl _, before⟩
      | _ => exact ⟨mark, le_refl _, before⟩
    rcases mem_cons.mp committed with now | earlier
    · subst now
      have unfolded : marksAfter name marks (.commit push name sender lamport :: rest) =
          commitMark (marksAfter name marks rest) sender lamport := by
        simp [marksAfter, commitCall]
      rw [unfolded, commit_mark_get]
      split_ifs with raised
      · exact ⟨lamport, le_refl _, rfl⟩
      · have notBelow : ¬∀ mark, (marksAfter name marks rest).get sender = some mark →
            mark < lamport := fun below => raised ⟨rfl, below⟩
        simp only [not_forall, not_lt] at notBelow
        obtain ⟨mark, found, above⟩ := notBelow
        exact ⟨mark, above, found⟩
    · obtain ⟨mark, above, found⟩ := ih earlier
      obtain ⟨higher, highest, final⟩ := kept mark found
      exact ⟨higher, above.trans highest, final⟩

theorem marks_after_plain {log : List (Call Nat)} (plain : PlainMarks marks)
    (named : ∀ push sender lamport, .commit push name sender lamport ∈ log →
      isBlinded sender = false) : PlainMarks (marksAfter name marks log) := by
  rintro ⟨sender, mark⟩ mem
  rcases marks_after_from (OrderedMap.get_of_mem mem) with old | ⟨push, committed⟩
  · exact plain _ (OrderedMap.mem_of_get old)
  · exact named push sender mark committed

end Marks

section Claims

variable {batches : List (PushBatch Message)} {room : Plain} {cut : Nat} {peer : Peer}
variable {final : State Nat}

theorem commit_from_arrived
    (held : Prefix batches (peer, room.value) cut cut final)
    (tracked : Tracked (frameSent batches) (fun _ => True) (peer, room.value) none final) {push : Nat} {sender : Sender} {lamport : Int}
    (committed : .commit push room.value sender lamport ∈ final.log) :
    batches.length ≤ cut ∨
      ∃ index < cut, ∃ batch, batches[index]? = some batch ∧
        batch.order = .asc ∧ ∃ row ∈ batch.rows, row.senderId.value = sender ∧
          row.lamport = lamport := by
  obtain ⟨newer, older, split⟩ := append_of_mem committed
  obtain ⟨⟨origin, opener, opened⟩, proved⟩ := tracked.sound.at_commit split
  have openedNow : .opened push origin opener ∈ final.log := by
    rw [split]
    exact mem_append_right _ (mem_cons_of_mem _ opened)
  obtain ⟨known, sameKey⟩ := tracked.keyed push origin opener openedNow
  have reported : ∀ index, Reported (frameSent batches) older push
      (sentBatches batches) index → index < cut := by
    rintro index ⟨process, outcome, told, source⟩
    have sameIndex : process = index := congrArg Sent.index source
    rw [← sameIndex]
    refine held.heard push process outcome ?_
    rw [split]
    exact mem_append_right _ (mem_cons_of_mem _ told)
  have only : push = 0 ∧ 0 < cut := by
    rw [held.pushCount] at known
    split_ifs at known <;> omega
  have origins : origin = (peer, room.value) := by
    rw [← sameKey, only.1]
    exact (held.record only.2).key
  subst origins
  rcases (proved opener opened).2.reach with ⟨index, sentBatch, found, marked, carried, earlier⟩ | whole
  · right
    have sentAt : (sentBatches batches)[index]? = some sentBatch := found
    obtain ⟨batch, placed, rfl⟩ := sent_batch_at sentAt
    obtain ⟨row, mem, same⟩ := mem_map.mp carried
    refine ⟨index, reported index (earlier index (le_refl _)), batch, placed,
      Option.some.inj marked, row, mem, ?_, ?_⟩
    · exact congrArg HeldRow.senderId same
    · exact congrArg HeldRow.lamport same
  · left
    by_contra short
    have all := reported cut (whole cut (by simpa [frameSent, sentBatches] using short))
    exact absurd all (Nat.lt_irrefl cut)

theorem arrived_claimed (held : Prefix batches (peer, room.value) cut cut final)
    (past : ∀ job < final.jobCount, (final.job job).stage = .done) {index : Nat}
    {batch : PushBatch Message} (within : index < cut) (placed : batches[index]? = some batch)
    (asc : batch.order = .asc) {row : Message} (mem : row ∈ batch.rows)
    (valid : validRow (heldRow row) = true) :
    Claimed final.log room.value (heldRow row) := by
  obtain ⟨job, bound, order, task⟩ := held.present index within
  obtain ⟨same, samePlaced, marked, -⟩ := held.placed job bound order index task
  rw [placed] at samePlaced
  cases samePlaced
  rw [marked, asc] at task
  have owed := held.progress job bound index batch task placed row mem valid
  rw [past job bound] at owed
  rcases owed with impossible | impossible | claimed | ⟨_, _, impossible, -⟩
  · cases impossible
  · cases impossible
  · exact claimed
  · cases impossible

end Claims

section Repair

variable (key : IndexKey) (store : MessageStore) (room : Plain) (receiver : Receiver)
variable (plan : PushPlan Message) (cut : Nat)

def firstPush : List (PushBatch Message) :=
  planPush (getMessagesAboveWatermarks key true store room receiver.marks) plan

def arrivedRows : List Message := batchRows ((firstPush key store room receiver plan).take cut)

def secondSelection (log : List (Call Nat)) : List Message :=
  getMessagesAboveWatermarks key true store room (marksAfter room.value receiver.marks log)

/-- The receiver ends up with every row the pusher had above its first marks. -/
def NothingLost (log : List (Call Nat)) : Prop :=
  ∀ row ∈ store.rows, row.message.roomCode = room →
    (receiver.marks.get row.message.senderId.value).getD (-1) < row.lamport →
      row.message ∈ receiver.rows ∨ row.message ∈ arrivedRows key store room receiver plan cut ∨
        row.message ∈ secondSelection key store room receiver log

/-- The cut falls between two rows of one sender with one lamport: one came in
an oldest-first batch, and the other, which the receiver lacks, did not. -/
def TieCut : Prop :=
  ∃ missed ∈ getMessagesAboveWatermarks key true store room receiver.marks,
    missed ∉ receiver.rows ∧ missed ∉ arrivedRows key store room receiver plan cut ∧
      ∃ batch ∈ (firstPush key store room receiver plan).take cut, batch.order = .asc ∧
        ∃ row ∈ batch.rows, row.senderId = missed.senderId ∧ row.lamport = missed.lamport

variable {key store room receiver plan cut}

theorem mem_arrived {index : Nat} {batch : PushBatch Message} {message : Message}
    (placed : (firstPush key store room receiver plan)[index]? = some batch) (within : index < cut)
    (mem : message ∈ batch.rows) : message ∈ arrivedRows key store room receiver plan cut := by
  refine mem_batch_rows.mpr ⟨batch, ?_, mem⟩
  rw [mem_take_iff_getElem]
  obtain ⟨bound, found⟩ := List.getElem?_eq_some_iff.mp placed
  exact ⟨index, by omega, found⟩

section

variable {message : Message}
  (selected : message ∈ getMessagesAboveWatermarks key true store room receiver.marks)
include selected

theorem selected_placed :
    ∃ (index : Nat) (batch : PushBatch Message),
      (firstPush key store room receiver plan)[index]? = some batch ∧ message ∈ batch.rows := by
  have planned := (mem_plan_push_rows _ plan message).mpr selected
  obtain ⟨batch, batchMember, mem⟩ := mem_batch_rows.mp planned
  obtain ⟨index, bound, found⟩ := getElem_of_mem batchMember
  refine ⟨index, batch, ?_, mem⟩
  rw [firstPush, List.getElem?_eq_getElem bound, found]

theorem short_of_missed (missed : message ∉ arrivedRows key store room receiver plan cut) :
    ¬(firstPush key store room receiver plan).length ≤ cut := by
  intro whole
  obtain ⟨index, batch, placed, mem⟩ := selected_placed selected
  have bound := (List.getElem?_eq_some_iff.mp placed).1
  exact missed (mem_arrived placed (by omega) mem)

end

theorem cut_marks_plain {peer : Peer} {final : State Nat}
    (held : Prefix (firstPush key store room receiver plan) (peer, room.value) cut cut final)
    (tracked : Tracked (frameSent (firstPush key store room receiver plan)) (fun _ => True)
      (peer, room.value) none final) (short : ¬(firstPush key store room receiver plan).length ≤ cut) :
    PlainMarks (marksAfter room.value receiver.marks final.log) := by
  refine marks_after_plain receiver.plain ?_
  intro push sender lamport committed
  obtain whole | ⟨_, _, _, _, _, claimed, _, rfl, _⟩ := commit_from_arrived held tracked committed
  · exact absurd whole short
  · exact claimed.senderId.plain

theorem second_selects (settled : Migrated store) {peer : Peer} {final : State Nat}
    (held : Prefix (firstPush key store room receiver plan) (peer, room.value) cut cut final)
    (tracked : Tracked (frameSent (firstPush key store room receiver plan)) (fun _ => True)
      (peer, room.value) none final) (short : ¬(firstPush key store room receiver plan).length ≤ cut)
    (untied : ¬TieCut key store room receiver plan cut) {row : StoredMessage}
    (stored : row ∈ store.rows) (here : row.message.roomCode = room)
    (above : (receiver.marks.get row.message.senderId.value).getD (-1) < row.lamport)
    (lacking : row.message ∉ receiver.rows)
    (missed : row.message ∉ arrivedRows key store room receiver plan cut) :
    row.message ∈ secondSelection key store room receiver final.log := by
  have selected : row.message ∈ getMessagesAboveWatermarks key true store room receiver.marks :=
    (mem_messages_above key store room settled receiver.plain).mpr ⟨⟨row, stored, rfl⟩, here, above⟩
  have plain := cut_marks_plain held tracked short
  refine (mem_messages_above key store room settled plain).mpr ⟨⟨row, stored, rfl⟩, here, ?_⟩
  cases found : (marksAfter room.value receiver.marks final.log).get row.message.senderId.value with
  | none =>
    have valid := settled.valid row stored
    simp only [validRow, Bool.and_eq_true, decide_eq_true_eq] at valid
    have positive : 0 ≤ row.message.lamport := valid.2
    simp only [getD_none]
    omega
  | some mark =>
    simp only [getD_some]
    rcases marks_after_from found with old | ⟨push, committed⟩
    · rw [old] at above
      exact above
    · obtain whole | ⟨index, within, batch, placed, asc, claimed, mem, sameSender, rfl⟩ :=
        commit_from_arrived held tracked committed
      · exact absurd whole short
      · rcases lt_trichotomy claimed.lamport row.message.lamport with less | tied | greater
        · exact less
        · exfalso
          refine untied ⟨row.message, selected, lacking, missed, batch, ?_, asc, claimed, mem,
            (plain_value_inj _ _).mp sameSender, tied⟩
          rw [mem_take_iff_getElem]
          obtain ⟨bound, same⟩ := List.getElem?_eq_some_iff.mp placed
          exact ⟨index, by omega, same⟩
        · exfalso
          obtain ⟨earlier, upTo, source, sourcePlaced, covered⟩ :=
            asc_batch_covers_below placed asc mem selected greater
          exact missed (mem_arrived sourcePlaced (by omega) covered)

/-- What the cut leaves behind comes back with the next push, exactly when no
tie was cut. -/
theorem cut_push_repaired_iff (settled : Migrated store)
    (small : ((firstPush key store room receiver plan).length : Int) ≤ maxSafeInteger)
    (peer : Peer) (events : List (Event Nat)) (arrived : arrivals events = List.range cut)
    (intact : Meets step (Intact (firstPush key store room receiver plan) (peer, room.value) cut)
      (State.init Nat) events) (final : State Nat)
    (ran : run step (State.init Nat) events = some final)
    (past : ∀ job < final.jobCount, (final.job job).stage = .done) :
    NothingLost key store room receiver plan cut final.log ↔
      ¬TieCut key store room receiver plan cut := by
  obtain ⟨held, tracked⟩ := intact_run (plan_push_heads_first _ plan) small events (Nat.zero_le cut)
    (by rw [arrived, range_eq_range', Nat.sub_zero]) prefix_init (tracked_init none) intact ran
  constructor
  · rintro nothing ⟨missed, selected, lacking, notArrived, batch, taken, asc, row, mem,
      sameSender, sameLamport⟩
    obtain ⟨⟨stored, storedMember, same⟩, here, above⟩ :=
      (mem_messages_above key store room settled receiver.plain).mp selected
    obtain ⟨index, within, placed⟩ := mem_take_iff_getElem.mp taken
    have found : (firstPush key store room receiver plan)[index]? = some batch := by
      rw [List.getElem?_eq_getElem (by omega), placed]
    have valid : validRow (heldRow row) = true := by
      have validMissed := settled.valid stored storedMember
      have sameRow : heldRow row = ⟨stored.message.senderId.value, stored.lamport⟩ := by
        subst same
        simp only [heldRow, SentRow.senderId, Row.cursor, sameSender, sameLamport]
        rfl
      rw [sameRow]
      exact validMissed
    obtain ⟨lamport, reached, committed⟩ :=
      arrived_claimed held past (by omega) found asc mem valid
    obtain ⟨mark, highest, marked⟩ := marks_after_reach receiver.marks committed
    have plain := cut_marks_plain held tracked (short_of_missed selected notArrived)
    subst same
    rcases nothing stored storedMember here above with holds | came | offered
    · exact lacking holds
    · exact notArrived came
    · obtain ⟨-, -, offeredAbove⟩ := (mem_messages_above key store room settled plain).mp offered
      have sameMark : (marksAfter room.value receiver.marks final.log).get
          stored.message.senderId.value = some mark := by
        rw [← sameSender]
        exact marked
      rw [sameMark, getD_some, ← sameLamport] at offeredAbove
      have above : row.lamport ≤ lamport := reached
      omega
  · intro untied row stored here above
    by_cases lacking : row.message ∈ receiver.rows
    · exact Or.inl lacking
    · by_cases missed : row.message ∈ arrivedRows key store room receiver plan cut
      · exact Or.inr (Or.inl missed)
      · have selected : row.message ∈ getMessagesAboveWatermarks key true store room
            receiver.marks :=
          (mem_messages_above key store room settled receiver.plain).mpr
            ⟨⟨row, stored, rfl⟩, here, above⟩
        have short := short_of_missed selected missed
        exact Or.inr (Or.inr (second_selects settled held tracked short untied stored here above
          lacking missed))

end Repair

section Schedules

def pairStore (second : Int) : MessageStore where
  rows :=
    [⟨⟨"a", den, alice, 5, .text, none⟩, true⟩, ⟨⟨"b", den, alice, second, .text, none⟩, true⟩]
  keyed := by simp

def newcomer : Receiver where
  marks := .empty
  plain := nofun
  rows := []

def rowByRow : PushPlan Message where
  batchSize := 1
  pageSize := 30
  maxBatchBytes := 1000
  sizeOf := fun _ => 1

def cutRun (second : Int) : List (Event Nat) :=
  [.batch "bob" "den" (frameAt (firstPush plainKey (pairStore second) den newcomer rowByRow) 0) 0,
    .startJob 0,
    .processed 0
      (some (wholeReport (firstPush plainKey (pairStore second) den newcomer rowByRow) 0)),
    .committed 0 true, .stallTimer 0, .startJob 1]

theorem cut_run_intact (second : Int) (placed : second = 5 ∨ second = 6) :
    Meets step (Intact (firstPush plainKey (pairStore second) den newcomer rowByRow)
      ("bob", den.value) 1) (State.init Nat) (cutRun second) := by
  rcases placed with rfl | rfl
  · exact Meets.cons ⟨rfl, rfl, by decide⟩ rfl (Meets.cons trivial rfl
      (Meets.cons ⟨_, _, rfl, rfl⟩ rfl (Meets.cons rfl rfl (Meets.cons rfl rfl
        (Meets.cons trivial rfl trivial)))))
  · exact Meets.cons ⟨rfl, rfl, by decide⟩ rfl (Meets.cons trivial rfl
      (Meets.cons ⟨_, _, rfl, rfl⟩ rfl (Meets.cons rfl rfl (Meets.cons rfl rfl
        (Meets.cons trivial rfl trivial)))))

theorem pair_store_migrated (second : Int) (placed : second = 5 ∨ second = 6) :
    Migrated (pairStore second) := by
  rcases placed with rfl | rfl <;> exact ⟨by decide, by decide⟩

theorem cut_pair_repaired :
    ∃ final, run step (State.init Nat) (cutRun 6) = some final ∧
      (NothingLost plainKey (pairStore 6) den newcomer rowByRow 1 final.log ↔
        ¬TieCut plainKey (pairStore 6) den newcomer rowByRow 1) := by
  refine ⟨_, rfl, ?_⟩
  exact cut_push_repaired_iff (pair_store_migrated 6 (Or.inr rfl)) (by decide) "bob" (cutRun 6) rfl
    (cut_run_intact 6 (Or.inr rfl)) _ rfl (by decide)

theorem tied_row_lost :
    ∃ final, run step (State.init Nat) (cutRun 5) = some final ∧
      arrivals (cutRun 5) = List.range 1 ∧
      Meets step (Intact (firstPush plainKey (pairStore 5) den newcomer rowByRow)
        ("bob", den.value) 1) (State.init Nat) (cutRun 5) ∧
      (∀ job < final.jobCount, (final.job job).stage = .done) ∧
      ¬NothingLost plainKey (pairStore 5) den newcomer rowByRow 1 final.log := by
  refine ⟨_, rfl, rfl, cut_run_intact 5 (Or.inl rfl), by decide, ?_⟩
  intro nothing
  have second := nothing ⟨⟨"b", den, alice, 5, .text, none⟩, true⟩ (by decide) rfl (by decide)
  exact absurd second (by decide)

end Schedules

end AwfulChat.HistoryRepair
