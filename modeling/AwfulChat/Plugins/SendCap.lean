import AwfulChat.Library.Runs
import AwfulChat.Plugins.FloodCap
import Mathlib.Data.List.TakeWhile

/-!
# An honest sender under the caps

The sending side of `flood-cap.ts` keeps the times of its last slots and refuses one more while
they all lie within the receiver's window and the slack. Whatever moment a window of a receiver
starts at, no more messages than the limit can then arrive in it, as long as no message is held up
longer than another by more than the slack.
-/

namespace AwfulChat.Plugins

open Library List Option

set_option autoImplicit false

def SEND_SLACK_MS : ℚ := 5000

/-- The times of the slots taken, by key. -/
structure SendCap (Key : Type) where
  taken : OrderedMap Key (List ℚ)

/-- A slot, or how long to wait for one; there is nothing to wait for at a limit of zero. -/
inductive SendSlot
  | granted
  | refused (waitMs : Option ℚ)

section Cap

variable {Key : Type} [DecidableEq Key] (limit : Nat) (windowMs : ℚ)

def sendSpan : ℚ := windowMs + SEND_SLACK_MS

def SendCap.times (cap : SendCap Key) (key : Key) : List ℚ := (cap.taken.get key).getD []

def SendCap.counting (cap : SendCap Key) (now : ℚ) (key : Key) : List ℚ :=
  (cap.times key).dropWhile fun time => decide (sendSpan windowMs ≤ now - time)

def SendCap.take (cap : SendCap Key) (now : ℚ) (key : Key) : SendSlot × SendCap Key :=
  let times := cap.counting windowMs now key
  if limit ≤ times.length then
    (.refused (times.head?.map fun first => first + sendSpan windowMs - now),
      ⟨cap.taken.set key times⟩)
  else (.granted, ⟨cap.taken.set key (times ++ [now])⟩)

/-- `lastIndexOf` and `splice`. -/
def SendCap.giveBack (cap : SendCap Key) (key : Key) (time : ℚ) : SendCap Key :=
  ⟨cap.taken.set key ((cap.times key).reverse.erase time).reverse⟩

end Cap

/-- A slot that was granted; one given back carried no message. -/
structure Slot (Key : Type) where
  key : Key
  time : ℚ
  released : Bool
  deriving DecidableEq

structure Sender (Key : Type) where
  cap : SendCap Key
  slots : List (Slot Key)
  clock : ℚ

inductive SendEvent (Key : Type)
  | take (now : ℚ) (key : Key)
  | release (number : Nat)

section Runs

variable {Key : Type} [DecidableEq Key] (limit : Nat) (windowMs : ℚ)

def createSendCap (clock : ℚ) : Sender Key := ⟨⟨.empty⟩, [], clock⟩

/-- One call; the clock does not go back. -/
def sendStep (sender : Sender Key) : SendEvent Key → Option (Sender Key)
  | .take now key =>
    if sender.clock ≤ now then
      match sender.cap.take limit windowMs now key with
      | (.granted, cap) => some ⟨cap, sender.slots ++ [⟨key, now, false⟩], now⟩
      | (.refused _, cap) => some ⟨cap, sender.slots, now⟩
    else none
  | .release number =>
    match sender.slots[number]? with
    | none => none
    | some slot =>
      if slot.released then some sender
      else some { sender with
        cap := sender.cap.giveBack slot.key slot.time
        slots := sender.slots.set number { slot with released := true } }

def Slot.sent (key : Key) (slot : Slot Key) : Bool := decide (slot.key = key) && !slot.released

def Sender.sentTimes (sender : Sender Key) (key : Key) : List ℚ :=
  (sender.slots.filter (Slot.sent key)).map Slot.time

end Runs

section Rate

variable {limit : Nat} {windowMs : ℚ}

/-- In no stretch as long as the span are there more of these times than the limit. -/
def WithinRate (limit : Nat) (span : ℚ) (times : List ℚ) : Prop :=
  ∀ start, (times.filter fun time => decide (start ≤ time ∧ time < start + span)).length ≤ limit

theorem WithinRate.sublist {span : ℚ} {times fewer : List ℚ} (within : WithinRate limit span times)
    (among : fewer.Sublist times) : WithinRate limit span fewer :=
  fun start => (among.filter _).length_le.trans (within start)

theorem WithinRate.append {span now : ℚ} {times counting : List ℚ}
    (within : WithinRate limit span times) (few : counting.length < limit)
    (counted : ∀ time, now - time < span → times.count time ≤ counting.count time) :
    WithinRate limit span (times ++ [now]) := by
  intro start
  rw [filter_append, length_append]
  by_cases inside : start ≤ now ∧ now < start + span
  · have among : (times.filter fun time => decide (start ≤ time ∧ time < start + span)).Subperm
        counting := by
      rw [subperm_ext_iff]
      intro time mem
      obtain ⟨-, stretch⟩ := mem_filter.mp mem
      have recent : now - time < span := by
        have bounds := of_decide_eq_true stretch
        linarith [bounds.1, inside.2]
      exact (filter_sublist.count_le time).trans (counted time recent)
    have one : ([now].filter fun time => decide (start ≤ time ∧ time < start + span)).length ≤ 1 :=
      length_filter_le _ _
    have most := among.length_le
    omega
  · have none : ([now].filter fun time => decide (start ≤ time ∧ time < start + span)) = [] := by
      simpa using inside
    rw [none, length_nil, Nat.add_zero]
    exact within start

theorem drop_while_count {times : List ℚ} {gone : ℚ → Bool} {time : ℚ} (stays : gone time = false) :
    (times.dropWhile gone).count time = times.count time := by
  have whole := takeWhile_append_dropWhile (p := gone) (l := times)
  have none : (times.takeWhile gone).count time = 0 := by
    rw [count_eq_zero]
    intro mem
    rw [mem_takeWhile_imp mem] at stays
    cases stays
  conv_rhs => rw [← whole]
  rw [count_append, none, Nat.zero_add]

theorem reverse_erase_count (times : List ℚ) (gone time : ℚ) :
    (times.reverse.erase gone).reverse.count time =
      times.count time - if gone = time then 1 else 0 := by
  rw [count_reverse, count_erase, count_reverse]
  simp only [beq_iff_eq]

end Rate

section Sender

variable {Key : Type} [DecidableEq Key] {limit : Nat} {windowMs : ℚ} {sender next : Sender Key}

theorem times_set (taken : OrderedMap Key (List ℚ)) (key other : Key) (times : List ℚ) :
    (⟨taken.set key times⟩ : SendCap Key).times other =
      if other = key then times else (⟨taken⟩ : SendCap Key).times other := by
  unfold SendCap.times
  dsimp only
  rw [OrderedMap.get_set]
  split_ifs <;> rfl

theorem counting_count (cap : SendCap Key) {now time : ℚ} (key : Key)
    (recent : now - time < sendSpan windowMs) :
    (cap.counting windowMs now key).count time = (cap.times key).count time := by
  unfold SendCap.counting
  exact drop_while_count (decide_eq_false (not_le.mpr recent))

/-- The times that messages left at keep the rate; those that still count are all held. -/
structure SenderInv (limit : Nat) (windowMs : ℚ) (sender : Sender Key) : Prop where
  rate : ∀ key, WithinRate limit (sendSpan windowMs) (sender.sentTimes key)
  counted : ∀ key time, sender.clock - time < sendSpan windowMs →
    (sender.sentTimes key).count time ≤ (sender.cap.times key).count time
  positive : sender.slots ≠ [] → 0 < limit

theorem SenderInv.initial (limit : Nat) (windowMs clock : ℚ) :
    SenderInv limit windowMs (createSendCap clock : Sender Key) := by
  refine ⟨?_, ?_, fun filled => absurd rfl filled⟩
  · intro key start
    exact Nat.zero_le limit
  · intro key time _
    exact Nat.zero_le _

theorem sent_times_append (sender : Sender Key) (cap : SendCap Key) (now clock : ℚ)
    (key other : Key) :
    (⟨cap, sender.slots ++ [⟨key, now, false⟩], clock⟩ : Sender Key).sentTimes other =
      sender.sentTimes other ++ if other = key then [now] else [] := by
  unfold Sender.sentTimes
  dsimp only
  rw [filter_append, map_append]
  congr 1
  by_cases same : other = key
  · rw [if_pos same, same]
    simp [Slot.sent]
  · rw [if_neg same]
    simp [Slot.sent, Ne.symm same]

theorem sent_times_released {number : Nat} {slot : Slot Key}
    (found : sender.slots[number]? = some slot) (held : slot.released = false) (cap : SendCap Key)
    (clock : ℚ) (key : Key) :
    ∃ before after, sender.sentTimes key =
        before ++ (if key = slot.key then [slot.time] else []) ++ after ∧
      (⟨cap, sender.slots.set number { slot with released := true }, clock⟩ :
        Sender Key).sentTimes key = before ++ after := by
  obtain ⟨inside, stands⟩ := List.getElem?_eq_some_iff.mp found
  refine ⟨((sender.slots.take number).filter (Slot.sent key)).map Slot.time,
    ((sender.slots.drop (number + 1)).filter (Slot.sent key)).map Slot.time, ?_, ?_⟩
  · have whole : sender.slots = sender.slots.take number ++
        (slot :: sender.slots.drop (number + 1)) := by
      rw [← stands, getElem_cons_drop, take_append_drop]
    unfold Sender.sentTimes
    conv_lhs => rw [whole]
    rw [filter_append, map_append, append_assoc]
    congr 1
    by_cases same : slot.key = key
    · rw [if_pos same.symm, filter_cons_of_pos (by simp [Slot.sent, same, held])]
      rfl
    · rw [if_neg (Ne.symm same), filter_cons_of_neg (by simp [Slot.sent, same])]
      rfl
  · unfold Sender.sentTimes
    dsimp only
    rw [set_eq_take_append_cons_drop, if_pos inside, filter_append, map_append,
      filter_cons_of_neg (by simp [Slot.sent])]

section

variable (held : SenderInv limit windowMs sender)
include held

theorem SenderInv.take {now : ℚ} {key : Key} (later : sender.clock ≤ now)
    (stepped : sendStep limit windowMs sender (.take now key) = some next) :
    SenderInv limit windowMs next := by
  have counting : ∀ time, now - time < sendSpan windowMs →
      (sender.sentTimes key).count time ≤ (sender.cap.counting windowMs now key).count time := by
    intro time recent
    rw [counting_count _ _ recent]
    exact held.counted key time (by linarith)
  have others : ∀ other time, now - time < sendSpan windowMs →
      (sender.sentTimes other).count time ≤ (sender.cap.times other).count time :=
    fun other time recent => held.counted other time (by linarith)
  simp only [sendStep, if_pos later, SendCap.take] at stepped
  split_ifs at stepped with full
  · cases stepped
    refine ⟨held.rate, ?_, held.positive⟩
    intro other time recent
    dsimp only
    rw [times_set]
    split_ifs with same
    · rw [same]
      exact counting time recent
    · exact others other time recent
  · cases stepped
    have few : (sender.cap.counting windowMs now key).length < limit := Nat.lt_of_not_le full
    refine ⟨?_, ?_, fun _ => Nat.zero_lt_of_lt few⟩
    · intro other
      rw [sent_times_append]
      split_ifs with same
      · rw [same]
        exact (held.rate key).append few counting
      · rw [append_nil]
        exact held.rate other
    · intro other time recent
      rw [sent_times_append, times_set]
      split_ifs with same
      · rw [count_append, count_append, same]
        exact Nat.add_le_add_right (counting time recent) _
      · rw [append_nil]
        exact others other time recent

theorem SenderInv.release {number : Nat}
    (stepped : sendStep limit windowMs sender (.release number) = some next) :
    SenderInv limit windowMs next := by
  unfold sendStep at stepped
  dsimp only at stepped
  cases found : sender.slots[number]? with
  | none =>
    rw [found] at stepped
    cases stepped
  | some slot =>
    rw [found] at stepped
    dsimp only at stepped
    split_ifs at stepped with released
    · cases stepped
      exact held
    · cases stepped
      rw [Bool.not_eq_true] at released
      have parts := sent_times_released found released
        (sender.cap.giveBack slot.key slot.time) sender.clock
      have some_slot : sender.slots ≠ [] := by
        intro empty
        rw [empty] at found
        cases found
      refine ⟨?_, ?_, fun _ => held.positive some_slot⟩
      · intro key
        obtain ⟨before, after, whole, left⟩ := parts key
        rw [left]
        refine (held.rate key).sublist ?_
        rw [whole, append_assoc]
        exact (List.Sublist.refl before).append (sublist_append_right _ _)
      · intro key time recent
        obtain ⟨before, after, whole, left⟩ := parts key
        have counted := held.counted key time recent
        rw [whole] at counted
        rw [left]
        unfold SendCap.giveBack
        dsimp only
        rw [times_set]
        by_cases same : key = slot.key
        · rw [if_pos same, reverse_erase_count, ← same]
          rw [if_pos same, count_append, count_append, count_singleton] at counted
          rw [count_append]
          simp only [beq_iff_eq] at counted
          omega
        · rw [if_neg same]
          rw [if_neg same, append_nil] at counted
          exact counted

theorem SenderInv.step {event : SendEvent Key}
    (stepped : sendStep limit windowMs sender event = some next) :
    SenderInv limit windowMs next := by
  cases event with
  | take now key =>
    by_cases later : sender.clock ≤ now
    · exact held.take later stepped
    · simp only [sendStep, if_neg later] at stepped
      cases stepped
  | release number => exact held.release stepped

end

theorem sender_run_inv {clock : ℚ} {events : List (SendEvent Key)}
    (ran : Library.run (sendStep limit windowMs) (createSendCap clock) events = some sender) :
    SenderInv limit windowMs sender :=
  run_keeps (fun _ _ _ held _ stepped => held.step stepped) (SenderInv.initial limit windowMs clock)
    (meets_of_forall (fun _ _ => trivial) _ _ : Meets _ (fun _ _ => True) _ _) ran

end Sender

section Receiver

theorem numbers_length_le {Key : Type} {slots : List (Slot Key)} {test : Slot Key → Bool}
    {numbers : List Nat} (distinct : numbers.Nodup)
    (listed : ∀ number ∈ numbers, ∃ slot, slots[number]? = some slot ∧ test slot = true) :
    numbers.length ≤ (slots.filter test).length := by
  induction slots using List.reverseRecOn generalizing numbers with
  | nil =>
    cases numbers with
    | nil => exact Nat.le_refl 0
    | cons number rest =>
      obtain ⟨slot, found, -⟩ := listed number mem_cons_self
      cases found
  | append_singleton before slot ih =>
    have earlier : (numbers.erase before.length).length ≤ (before.filter test).length := by
      refine ih (distinct.erase _) ?_
      intro number mem
      obtain ⟨apart, inside⟩ := (List.Nodup.mem_erase_iff distinct).mp mem
      obtain ⟨found, there, tested⟩ := listed number inside
      have below : number < before.length + 1 := by
        have bound := (List.getElem?_eq_some_iff.mp there).1
        simpa using bound
      refine ⟨found, ?_, tested⟩
      rw [← there, List.getElem?_append_left (by omega)]
    rw [filter_append, length_append]
    by_cases last : before.length ∈ numbers
    · obtain ⟨found, there, tested⟩ := listed _ last
      rw [List.getElem?_concat_length] at there
      cases there
      rw [length_erase_of_mem last] at earlier
      rw [filter_cons_of_pos tested, filter_nil, length_singleton]
      omega
    · rw [erase_of_not_mem last] at earlier
      omega

variable {Key Id : Type} [DecidableEq Key] {limit : Nat} {windowMs delay : ℚ}
  {sender : Sender Key} {key : Key} {name : Nat → Id}

/-- Calls in the order of their times, those of one key being copies of messages a sender sent,
each of them held up by the common delay and at most the slack more. -/
structure Delivered (sender : Sender Key) (key : Key) (name : Nat → Id) (delay : ℚ)
    (arrivals : List (Arrival Key Id)) : Prop where
  ordered : arrivals.Pairwise fun earlier later => earlier.time ≤ later.time
  copies : ∀ arrival ∈ arrivals, arrival.key = key → ∃ number slot,
    sender.slots[number]? = some slot ∧ slot.sent key = true ∧ arrival.id = some (name number) ∧
      slot.time + delay ≤ arrival.time ∧ arrival.time ≤ slot.time + delay + SEND_SLACK_MS

theorem SenderInv.few (held : SenderInv limit windowMs sender) {start : ℚ} {numbers : List Nat}
    (distinct : numbers.Nodup)
    (stretch : ∀ number ∈ numbers, ∃ slot, sender.slots[number]? = some slot ∧
      slot.sent key = true ∧ start ≤ slot.time ∧ slot.time < start + sendSpan windowMs) :
    numbers.length ≤ limit := by
  have listed : ∀ number ∈ numbers, ∃ slot, sender.slots[number]? = some slot ∧
      (decide (start ≤ slot.time ∧ slot.time < start + sendSpan windowMs) && slot.sent key) =
        true := by
    intro number mem
    obtain ⟨slot, there, left, inside⟩ := stretch number mem
    exact ⟨slot, there, by rw [left, decide_eq_true inside]; rfl⟩
  have few := held.rate key start
  unfold Sender.sentTimes at few
  rw [List.filter_map, List.length_map, List.filter_filter] at few
  exact (numbers_length_le distinct listed).trans few

def Holds (sender : Sender Key) (key : Key) (name : Nat → Id) (delay windowMs : ℚ)
    (rest : List (Arrival Key Id)) (window : FloodWindow Id) : Prop :=
  ∃ start, window.resetAt = start + windowMs ∧ (∀ arrival ∈ rest, start ≤ arrival.time) ∧
    ∃ numbers : List Nat, numbers.Nodup ∧ window.ids = numbers.map name ∧
      window.count = numbers.length ∧ ∀ number ∈ numbers, ∃ slot,
        sender.slots[number]? = some slot ∧ slot.sent key = true ∧
          start - delay - SEND_SLACK_MS ≤ slot.time ∧ slot.time < start - delay + windowMs

/-- The window of the key, if one is open for a call to come, holds what the sender sent. -/
def Receiving (sender : Sender Key) (key : Key) (name : Nat → Id) (delay windowMs : ℚ)
    (cap : FloodCap Key Id) (rest : List (Arrival Key Id)) : Prop :=
  ∀ window, cap.windows.get key = some window →
    Holds sender key name delay windowMs rest window ∨
      ∀ arrival ∈ rest, window.resetAt ≤ arrival.time

variable {rest : List (Arrival Key Id)} {arrival : Arrival Key Id}

theorem Delivered.tail (delivered : Delivered sender key name delay (arrival :: rest)) :
    Delivered sender key name delay rest :=
  ⟨(pairwise_cons.mp delivered.ordered).2,
    fun other mem => delivered.copies other (mem_cons_of_mem _ mem)⟩

theorem Receiving.tail {cap : FloodCap Key Id}
    (receiving : Receiving sender key name delay windowMs cap (arrival :: rest)) :
    Receiving sender key name delay windowMs cap rest := by
  intro window found
  rcases receiving window found with ⟨start, ends, started, holds⟩ | closed
  · exact Or.inl ⟨start, ends, fun other mem => started other (mem_cons_of_mem _ mem),
      holds⟩
  · exact Or.inr fun other mem => closed other (mem_cons_of_mem _ mem)

variable [DecidableEq Id]

section

variable (honest : SenderInv limit windowMs sender)
include honest

theorem Holds.admitted {window : FloodWindow Id}
    (holds : Holds sender key name delay windowMs (arrival :: rest) window)
    (open_still : arrival.time < window.resetAt) {number : Nat} {slot : Slot Key}
    (there : sender.slots[number]? = some slot) (left : slot.sent key = true)
    (named : arrival.id = some (name number)) (early : slot.time + delay ≤ arrival.time)
    (late : arrival.time ≤ slot.time + delay + SEND_SLACK_MS) :
    (window.admitMessage limit arrival.id).1 = true ∧
      Holds sender key name delay windowMs rest (window.admitMessage limit arrival.id).2 := by
  obtain ⟨start, ends, started, numbers, apart, ids, count, sent⟩ := holds
  have begun := started arrival mem_cons_self
  have later : ∀ other ∈ rest, start ≤ other.time :=
    fun other mem => started other (mem_cons_of_mem _ mem)
  rw [ends] at open_still
  unfold FloodWindow.admitMessage
  rw [named, any_some]
  by_cases known : name number ∈ window.ids
  · rw [if_pos (decide_eq_true known)]
    exact ⟨rfl, start, ends, later, numbers, apart, ids, count, sent⟩
  · rw [if_neg (by simpa using known)]
    have new : number ∉ numbers := by
      intro mem
      rw [ids] at known
      exact known (mem_map_of_mem mem)
    have more : (number :: numbers).Nodup := nodup_cons.mpr ⟨new, apart⟩
    have all : ∀ other ∈ number :: numbers, ∃ slot, sender.slots[other]? = some slot ∧
        slot.sent key = true ∧ start - delay - SEND_SLACK_MS ≤ slot.time ∧
          slot.time < start - delay + windowMs := by
      intro other mem
      rcases mem_cons.mp mem with rfl | before
      · exact ⟨slot, there, left, by linarith, by linarith⟩
      · exact sent other before
    have stretch : ∀ other ∈ number :: numbers, ∃ slot, sender.slots[other]? = some slot ∧
        slot.sent key = true ∧ start - delay - SEND_SLACK_MS ≤ slot.time ∧
          slot.time < start - delay - SEND_SLACK_MS + sendSpan windowMs := by
      intro other mem
      obtain ⟨found, there, left, from_start, before_end⟩ := all other mem
      refine ⟨found, there, left, from_start, ?_⟩
      unfold sendSpan
      linarith
    have few := honest.few more stretch
    rw [length_cons] at few
    rw [if_neg (by rw [count]; omega)]
    refine ⟨rfl, start, ends, later, numbers ++ [number], ?_, ?_, ?_, ?_⟩
    · exact nodup_append.mpr ⟨apart, nodup_singleton _, by
        rintro found mem other single rfl
        rw [mem_singleton.mp single] at mem
        exact new mem⟩
    · rw [ids, map_append]
      rfl
    · rw [count, length_append, length_singleton]
    · intro other mem
      apply all
      rcases mem_append.mp mem with before | single
      · exact mem_cons_of_mem _ before
      · rw [mem_singleton.mp single]
        exact mem_cons_self

theorem opens_window (ordered : ∀ other ∈ rest, arrival.time ≤ other.time) {number : Nat}
    {slot : Slot Key} (there : sender.slots[number]? = some slot) (left : slot.sent key = true)
    (named : arrival.id = some (name number)) (early : slot.time + delay ≤ arrival.time)
    (late : arrival.time ≤ slot.time + delay + SEND_SLACK_MS) :
    let answer := (⟨arrival.time + windowMs, 0, []⟩ : FloodWindow Id).admitMessage limit arrival.id
    answer.1 = true ∧ (Holds sender key name delay windowMs rest answer.2 ∨
      ∀ other ∈ rest, answer.2.resetAt ≤ other.time) := by
  by_cases long : 0 < windowMs
  · have fresh : Holds sender key name delay windowMs (arrival :: rest)
        (⟨arrival.time + windowMs, 0, []⟩ : FloodWindow Id) := by
      refine ⟨arrival.time, rfl, ?_, [], nodup_nil, rfl, rfl, ?_⟩
      · intro other mem
        rcases mem_cons.mp mem with rfl | later
        · exact le_refl _
        · exact ordered other later
      · nofun
    have open_still : arrival.time <
        (⟨arrival.time + windowMs, 0, []⟩ : FloodWindow Id).resetAt := by
      dsimp only
      linarith
    obtain ⟨passed, holds⟩ := fresh.admitted honest open_still there left named early late
    exact ⟨passed, Or.inl holds⟩
  · have some_slot : sender.slots ≠ [] := by
      intro empty
      rw [empty] at there
      cases there
    have positive := honest.positive some_slot
    unfold FloodWindow.admitMessage
    rw [named, any_some, if_neg (by simp), if_neg (Nat.not_le_of_lt positive)]
    refine ⟨rfl, Or.inr ?_⟩
    intro other mem
    have later := ordered other mem
    dsimp only
    linarith

theorem Receiving.call {cap : FloodCap Key Id}
    (delivered : Delivered sender key name delay (arrival :: rest))
    (receiving : Receiving sender key name delay windowMs cap (arrival :: rest)) :
    (arrival.key = key → (cap.call limit windowMs arrival).1 = true) ∧
      Receiving sender key name delay windowMs (cap.call limit windowMs arrival).2 rest := by
  by_cases own : arrival.key = key
  · obtain ⟨number, slot, there, left, named, early, late⟩ :=
      delivered.copies arrival mem_cons_self own
    have ordered := (pairwise_cons.mp delivered.ordered).1
    rw [call_answer]
    have after : (cap.call limit windowMs arrival).2.windows.get arrival.key = some _ :=
      call_get cap arrival
    rw [own] at after ⊢
    cases shown : cap.live arrival.time key with
    | none =>
      rw [shown] at after
      obtain ⟨passed, holds⟩ :=
        opens_window honest ordered there left named early late
      refine ⟨fun _ => passed, ?_⟩
      intro window found
      rw [← Option.some.inj (after.symm.trans found)]
      exact holds
    | some window =>
      rw [shown] at after
      obtain ⟨found, open_still⟩ := live_some.mp shown
      have holds := (receiving window found).resolve_right fun closed =>
        absurd open_still (not_lt.mpr (closed arrival mem_cons_self))
      obtain ⟨passed, later⟩ := holds.admitted honest open_still there left named early late
      refine ⟨fun _ => passed, ?_⟩
      intro window found
      rw [← Option.some.inj (after.symm.trans found)]
      exact Or.inl later
  · refine ⟨fun same => absurd same own, ?_⟩
    intro window found
    exact receiving.tail window (call_get_other arrival own found)

theorem delivered_pass {arrivals : List (Arrival Key Id)}
    (delivered : Delivered sender key name delay arrivals) {cap : FloodCap Key Id}
    (receiving : Receiving sender key name delay windowMs cap arrivals) :
    ∀ pair ∈ arrivals.zip (verdicts limit windowMs cap arrivals), pair.1.key = key →
      pair.2 = true := by
  induction arrivals generalizing cap with
  | nil =>
    nofun
  | cons arrival rest ih =>
    obtain ⟨passed, later⟩ := receiving.call honest delivered
    intro pair mem own
    rw [verdicts, zip_cons_cons] at mem
    rcases mem_cons.mp mem with rfl | behind
    · exact passed own
    · exact ih delivered.tail later pair behind own

end

def sampleSends : List (SendEvent String) := [.take 0 "k", .take 15000 "k"]

def sampleName (number : Nat) : Nat := number

theorem sample_sent : ∃ sender,
    Library.run (sendStep 1 10000) (createSendCap 0) sampleSends = some sender ∧
      sender.slots = [⟨"k", 0, false⟩, ⟨"k", 15000, false⟩] := by
  have ran : (Library.run (sendStep 1 10000) (createSendCap 0) sampleSends).map Sender.slots =
      some [⟨"k", 0, false⟩, ⟨"k", 15000, false⟩] := by
    decide +kernel
  exact map_eq_some_iff.mp ran

def sampleArrivals : List (Arrival String Nat) :=
  [⟨"k", some 0, 1000⟩, ⟨"other", none, 2000⟩, ⟨"k", some 0, 6000⟩, ⟨"k", some 1, 16000⟩]

def spreadArrivals : List (Arrival String Nat) :=
  [⟨"k", some 0, 10000⟩, ⟨"k", some 1, 15000⟩]

end Receiver

end AwfulChat.Plugins
