import AwfulChat.Library.Runs
import AwfulChat.Relay.PushDelivery

/-!
# One wake-up per look

What holds of the told devices and of the deliveries under way, whatever comes between a
delivery's check, its send and its mark: a device that is told was woken since it looked, and a
device woken since it looked is told, or is about to be, or was woken an hour ago.
-/

namespace AwfulChat.Relay

open Library Library.OrderedMap List Option

set_option autoImplicit false

namespace Push

open PushState

/-! ## The told devices -/

theorem told_mark (s : PushState) (box : Box) (device : Device) (now : Int) (other : Box)
    (who : Device) :
    (s.pushMarkTold box device now).toldAt other who =
      if other = box ∧ who = device then some now else s.toldAt other who := by
  simp only [toldAt, pushMarkTold, get_set]
  by_cases same : other = box
  · subst same
    rw [if_pos rfl, bind_some, get_set]
    by_cases this : who = device
    · simp [this]
    · rw [if_neg this, if_neg (fun both => this both.2)]
      cases s.pushTold.get other <;> rfl
  · rw [if_neg same, if_neg (fun both => same both.1)]

theorem told_collected (s : PushState) (box : Box) (device : Device) (other : Box) (who : Device) :
    (s.pushCollected box device).toldAt other who =
      if other = box ∧ (device = who ∨ device = "") then none else s.toldAt other who := by
  have emptied : ∀ devices : OrderedMap Device Int, (devices.delete device).size = 0 →
      who ≠ device → devices.get who = none := by
    intro devices none apart
    have missing := size_eq_zero.mp none who
    rwa [get_delete, if_neg apart] at missing
  unfold pushCollected
  by_cases unnamed : device = ""
  · rw [if_pos unnamed]
    simp only [toldAt, get_delete]
    by_cases same : other = box
    · simp [same, unnamed]
    · simp [same]
  · rw [if_neg unnamed]
    cases found : s.pushTold.get box with
    | none =>
      by_cases same : other = box
      · subst same
        simp [toldAt, found]
      · simp [same]
    | some devices =>
      simp only
      by_cases same : other = box
      · subst same
        have before : s.toldAt other who = devices.get who := by simp [toldAt, found]
        rw [before]
        split_ifs with empty this this
        · simp [toldAt]
        · have apart : who ≠ device := fun equal => this ⟨rfl, Or.inl equal.symm⟩
          simp [toldAt, emptied devices empty apart]
        · obtain ⟨_, equal | blank⟩ := this
          · subst equal
            simp [toldAt]
          · exact absurd blank unnamed
        · have apart : who ≠ device := fun equal => this ⟨rfl, Or.inl equal.symm⟩
          simp only [toldAt, get_set_self, bind_some]
          rw [get_delete, if_neg apart]
      · have elsewhere : ¬(other = box ∧ (device = who ∨ device = "")) := fun both => same both.1
        rw [if_neg elsewhere]
        by_cases empty : (devices.delete device).size = 0
        · rw [if_pos empty]
          simp only [toldAt]
          rw [get_delete, if_neg same]
        · rw [if_neg empty]
          simp only [toldAt]
          rw [get_set, if_neg same]

/-- What a sweep leaves of one entry. -/
structure Swept (now : Int) (before after : Option Int) : Prop where
  kept : ∀ told, after = some told → before = some told
  late : ∀ told, before = some told → after = some told ∨ pushRearmAfter ≤ now - told

theorem Swept.same (now : Int) (entry : Option Int) : Swept now entry entry :=
  ⟨fun _ found => found, fun _ found => Or.inl found⟩

theorem Swept.trans {now : Int} {first second third : Option Int} (earlier : Swept now first second)
    (later : Swept now second third) : Swept now first third := by
  constructor
  · intro told found
    exact earlier.kept told (later.kept told found)
  · intro told found
    rcases earlier.late told found with still | old
    · exact later.late told still
    · exact Or.inr old

theorem sweep_box (now : Int) (told : OrderedMap Box (OrderedMap Device Int)) (box other : Box)
    (who : Device) :
    Swept now ((told.get other).bind fun devices => devices.get who)
      (((PushState.sweepBox now told box).get other).bind fun devices => devices.get who) := by
  unfold PushState.sweepBox
  cases found : told.get box with
  | none => exact Swept.same _ _
  | some devices =>
    by_cases same : other = box
    · subst same
      have left : (sweptDevices now devices).get who =
          if decide (now - (devices.get who).getD 0 < pushRearmAfter) then devices.get who
          else none := get_keep _ _ _
      have swept : Swept now (devices.get who) ((sweptDevices now devices).get who) := by
        rw [left]
        constructor
        · intro time stored
          split_ifs at stored
          exact stored
        · intro time stored
          rw [stored, getD_some]
          by_cases recent : now - time < pushRearmAfter
          · simp [recent]
          · exact Or.inr (not_lt.mp recent)
      simp only [found, bind_some]
      by_cases empty : (sweptDevices now devices).size = 0
      · rw [if_pos empty, get_delete_self, bind_none]
        rw [size_eq_zero.mp empty who] at swept
        exact swept
      · rw [if_neg empty, get_set_self, bind_some]
        exact swept
    · simp only
      split_ifs
      · rw [get_delete, if_neg same]
        exact Swept.same _ _
      · rw [get_set, if_neg same]
        exact Swept.same _ _

theorem sweep_boxes (now : Int) (boxes : List Box) (told : OrderedMap Box (OrderedMap Device Int))
    (other : Box) (who : Device) :
    Swept now ((told.get other).bind fun devices => devices.get who)
      (((boxes.foldl (PushState.sweepBox now) told).get other).bind fun devices => devices.get who) := by
  induction boxes generalizing told with
  | nil => exact Swept.same _ _
  | cons box rest ih =>
    rw [foldl_cons]
    exact (sweep_box now told box other who).trans (ih _)

theorem told_sweep (s : PushState) (now : Int) (box : Box) (device : Device) :
    Swept now (s.toldAt box device) ((s.pushSweepTold now).toldAt box device) := by
  have swept : Swept now (s.toldAt box device)
      (((s.pushTold.keys.foldl (PushState.sweepBox now) s.pushTold).get box).bind
        fun devices => devices.get device) := sweep_boxes now _ _ box device
  unfold pushSweepTold
  cases s.pushToldSwept with
  | none => exact swept
  | some last =>
    simp only
    split_ifs
    · exact Swept.same _ _
    · exact swept

/-! ## Histories -/

variable {device : Device} {worker : Worker} {s : PushState} {box : Box} {history : List Seen}

theorem mem_wakes_since {earlier : Int} {between older : List Seen}
    (unseen : ∀ seen ∈ between, ¬seen.LooksAt box device) :
    earlier ∈ wakesSince box device (between ++ .woke box device earlier :: older) := by
  induction between with
  | nil => simp [wakesSince]
  | cons seen rest ih =>
    have later := ih fun other mem => unseen other (mem_cons_of_mem _ mem)
    have first := unseen seen (by simp)
    rw [cons_append]
    cases seen with
    | woke place who time =>
      simp only [wakesSince]
      split_ifs
      · exact mem_cons_of_mem _ later
      · exact later
    | looked place who =>
      have hides : ¬(place = box ∧ (who = device ∨ who = "")) := first
      simp only [wakesSince]
      rw [if_neg hides]
      exact later
    | skipped place who time => exact later

theorem wakes_since_head {woken : Int}
    (latest : (wakesSince box device history).head? = some woken) :
    ∃ between rest, history = between ++ .woke box device woken :: rest ∧
      ∀ seen ∈ between, ¬seen.LooksAt box device := by
  have further : ∀ (seen : Seen) (rest : List Seen), ¬seen.LooksAt box device →
      (∃ between older, rest = between ++ .woke box device woken :: older ∧
        ∀ seen ∈ between, ¬seen.LooksAt box device) →
      ∃ between older, seen :: rest = between ++ .woke box device woken :: older ∧
        ∀ seen ∈ between, ¬seen.LooksAt box device := by
    intro seen rest first ⟨between, older, split, unseen⟩
    refine ⟨seen :: between, older, by rw [split, cons_append], ?_⟩
    intro other mem
    rcases mem_cons.mp mem with here | later
    · rw [here]
      exact first
    · exact unseen other later
  induction history with
  | nil => simp [wakesSince] at latest
  | cons seen rest ih =>
    cases seen with
    | woke place who time =>
      simp only [wakesSince] at latest
      split_ifs at latest with this
      · rw [List.head?_cons, Option.some.injEq] at latest
        rw [← this.1, ← this.2, latest]
        exact ⟨[], rest, rfl, by simp⟩
      · exact further _ rest id (ih latest)
    | looked place who =>
      simp only [wakesSince] at latest
      split_ifs at latest with this
      · simp at latest
      · exact further _ rest this (ih latest)
    | skipped place who time => exact further _ rest id (ih latest)

theorem OneWakePerLook.looked (once : OneWakePerLook history) (box : Box)
    (device : Device) : OneWakePerLook (.looked box device :: history) := by
  constructor
  · intro other who later earlier newer between older split
    cases newer with
    | nil => cases split
    | cons first rest =>
      rw [cons_append, cons_append, List.cons.injEq] at split
      exact once.apart other who later earlier rest between older split.2
  · intro other who time newer older split
    cases newer with
    | nil => cases split
    | cons first rest =>
      rw [cons_append, List.cons.injEq] at split
      exact once.told other who time rest older split.2

theorem OneWakePerLook.woke {time : Int} (once : OneWakePerLook history)
    (apart : ∀ woken ∈ wakesSince box device history, pushRearmAfter ≤ time - woken) :
    OneWakePerLook (.woke box device time :: history) := by
  constructor
  · intro other who later earlier newer between older split
    cases newer with
    | nil =>
      rw [nil_append, cons_append, List.cons.injEq] at split
      obtain ⟨same, rest⟩ := split
      cases same
      by_cases seen : ∃ seen ∈ between, seen.LooksAt box device
      · exact Or.inl seen
      · right
        apply apart
        rw [rest]
        apply mem_wakes_since
        intro observed mem looks
        exact seen ⟨observed, mem, looks⟩
    | cons first rest =>
      rw [cons_append, cons_append, List.cons.injEq] at split
      exact once.apart other who later earlier rest between older split.2
  · intro other who passed newer older split
    cases newer with
    | nil => cases split
    | cons first rest =>
      rw [cons_append, List.cons.injEq] at split
      exact once.told other who passed rest older split.2

theorem OneWakePerLook.skipped {time : Int}
    (once : OneWakePerLook history)
    (told : ∃ woken, (wakesSince box device history).head? = some woken ∧
      time - woken < pushRearmAfter) :
    OneWakePerLook (.skipped box device time :: history) := by
  constructor
  · intro other who later earlier newer between older split
    cases newer with
    | nil => cases split
    | cons first rest =>
      rw [cons_append, cons_append, List.cons.injEq] at split
      exact once.apart other who later earlier rest between older split.2
  · intro other who passed newer older split
    cases newer with
    | nil =>
      rw [nil_append, List.cons.injEq] at split
      obtain ⟨same, rest⟩ := split
      cases same
      obtain ⟨woken, latest, recent⟩ := told
      obtain ⟨between, oldest, parts, unseen⟩ := wakes_since_head latest
      exact ⟨between, woken, oldest, rest ▸ parts, unseen, recent⟩
    | cons first rest =>
      rw [cons_append, List.cons.injEq] at split
      exact once.told other who passed rest older split.2

/-! ## What every step keeps -/

structure Awake (s : PushState) : Prop where
  told : ∀ box device time, s.toldAt box device = some time →
    wakesSince box device s.history ≠ []
  unheard : ∀ box device, s.Unheard box device → wakesSince box device s.history ≠ []
  past : ∀ box device, ∀ woken ∈ wakesSince box device s.history, woken ≤ s.clock
  marked : ∀ box device, ∀ woken ∈ wakesSince box device s.history,
    s.Unheard box device ∨ (∃ time, s.toldAt box device = some time ∧ woken ≤ time) ∨
      pushRearmAfter ≤ s.clock - woken
  readings : ∀ worker delivery, s.workers.get worker = some delivery →
    ∀ now ∈ delivery.stage.reading, now ≤ s.clock
  sent : ∀ worker delivery, s.workers.get worker = some delivery →
    ∀ sent ∈ delivery.stage.sent, sent.2 ≤ s.clock ∧
      ∀ time, s.toldAt delivery.box sent.1 = some time → time < sent.2 →
        pushRearmAfter ≤ sent.2 - time
  once : OneWakePerLook s.history

theorem unheard_iff :
    s.Unheard box device ↔ ∃ worker delivery, s.workers.get worker = some delivery ∧
      delivery.box = box ∧ delivery.stage.unheard = some device := by
  unfold PushState.Unheard
  simp only [mem_values_iff]
  constructor
  · rintro ⟨delivery, ⟨worker, found⟩, here, reached⟩
    exact ⟨worker, delivery, found, here, reached⟩
  · rintro ⟨worker, delivery, found, here, reached⟩
    exact ⟨delivery, ⟨worker, found⟩, here, reached⟩

theorem unheard_same {s next : PushState}
    (others : ∀ other, other ≠ worker → next.workers.get other = s.workers.get other)
    (before : ∀ delivery, s.workers.get worker = some delivery → delivery.stage.unheard = none)
    (after : ∀ delivery, next.workers.get worker = some delivery → delivery.stage.unheard = none)
    (box : Box) (device : Device) : next.Unheard box device ↔ s.Unheard box device := by
  rw [unheard_iff, unheard_iff]
  constructor
  · rintro ⟨other, delivery, found, here, reached⟩
    by_cases same : other = worker
    · rw [same] at found
      rw [after delivery found] at reached
      cases reached
    · exact ⟨other, delivery, (others other same) ▸ found, here, reached⟩
  · rintro ⟨other, delivery, found, here, reached⟩
    by_cases same : other = worker
    · rw [same] at found
      rw [before delivery found] at reached
      cases reached
    · exact ⟨other, delivery, (others other same).trans found, here, reached⟩

theorem Awake.keep {s next : PushState} (awake : Awake s) (history : next.history = s.history)
    (clock : s.clock ≤ next.clock)
    (told : ∀ box device, Swept next.clock (s.toldAt box device) (next.toldAt box device))
    (workers : next.workers = s.workers) : Awake next := by
  have unheard : ∀ box device, next.Unheard box device ↔ s.Unheard box device := by
    intro box device
    unfold PushState.Unheard
    rw [workers]
  constructor
  case told =>
    intro box device time found
    rw [history]
    exact awake.told box device time ((told box device).kept time found)
  case unheard =>
    intro box device reached
    rw [history]
    exact awake.unheard box device ((unheard box device).mp reached)
  case past =>
    intro box device woken mem
    rw [history] at mem
    exact (awake.past box device woken mem).trans clock
  case marked =>
    intro box device woken mem
    rw [history] at mem
    rcases awake.marked box device woken mem with reached | ⟨time, found, after⟩ | long
    · exact Or.inl ((unheard box device).mpr reached)
    · rcases (told box device).late time found with still | old
      · exact Or.inr (Or.inl ⟨time, still, after⟩)
      · right
        right
        omega
    · right
      right
      omega
  case readings =>
    intro worker delivery found now reading
    rw [workers] at found
    exact (awake.readings worker delivery found now reading).trans clock
  case sent =>
    intro worker delivery found sent sending
    rw [workers] at found
    obtain ⟨past, clear⟩ := awake.sent worker delivery found sent sending
    refine ⟨past.trans clock, ?_⟩
    intro time stored before
    exact clear time ((told delivery.box sent.1).kept time stored) before
  case once =>
    rw [history]
    exact awake.once

theorem Awake.move {s next : PushState} (awake : Awake s)
    (history : next.history = s.history) (clock : next.clock = s.clock)
    (told : next.pushTold = s.pushTold)
    (others : ∀ other, other ≠ worker → next.workers.get other = s.workers.get other)
    (before : ∀ delivery, s.workers.get worker = some delivery → delivery.stage.unheard = none)
    (after : ∀ delivery, next.workers.get worker = some delivery →
      delivery.stage.unheard = none ∧ (∀ now ∈ delivery.stage.reading, now ≤ s.clock) ∧
        ∀ sent ∈ delivery.stage.sent, sent.2 ≤ s.clock ∧
          ∀ time, s.toldAt delivery.box sent.1 = some time → time < sent.2 →
            pushRearmAfter ≤ sent.2 - time) : Awake next := by
  have unheard := unheard_same others before (fun delivery found => (after delivery found).1)
  have same : ∀ box device, next.toldAt box device = s.toldAt box device := by
    intro box device
    unfold toldAt
    rw [told]
  constructor
  case told =>
    intro box device time found
    rw [history]
    exact awake.told box device time ((same box device) ▸ found)
  case unheard =>
    intro box device reached
    rw [history]
    exact awake.unheard box device ((unheard box device).mp reached)
  case past =>
    rw [history, clock]
    exact awake.past
  case marked =>
    intro box device woken mem
    rw [history] at mem
    rw [same box device, clock, unheard box device]
    exact awake.marked box device woken mem
  case readings =>
    intro other delivery found
    rw [clock]
    by_cases this : other = worker
    · rw [this] at found
      exact (after delivery found).2.1
    · rw [others other this] at found
      exact awake.readings other delivery found
  case sent =>
    intro other delivery found sent sending
    rw [clock, same delivery.box sent.1]
    by_cases this : other = worker
    · rw [this] at found
      exact (after delivery found).2.2 sent sending
    · rw [others other this] at found
      exact awake.sent other delivery found sent sending
  case once =>
    rw [history]
    exact awake.once

theorem set_stage_others (s : PushState) (worker : Worker) (box : Box) (stage : Stage)
    (other : Worker) (apart : other ≠ worker) :
    (s.setStage worker box stage).workers.get other = s.workers.get other :=
  get_set_other _ _ _ _ apart

theorem set_stage_self {stage : Stage} {delivery : Delivery}
    (found : (s.setStage worker box stage).workers.get worker = some delivery) :
    delivery = ⟨box, stage⟩ := by
  unfold PushState.setStage at found
  rw [get_set_self] at found
  exact (Option.some.inj found).symm

theorem Awake.set_stage {stage : Stage}
    (awake : Awake s)
    (before : ∀ delivery, s.workers.get worker = some delivery → delivery.stage.unheard = none)
    (hears : stage.unheard = none) (reading : ∀ now ∈ stage.reading, now ≤ s.clock)
    (sends : ∀ sent ∈ stage.sent, sent.2 ≤ s.clock ∧
      ∀ time, s.toldAt box sent.1 = some time → time < sent.2 → pushRearmAfter ≤ sent.2 - time) :
    Awake (s.setStage worker box stage) := by
  have after : ∀ delivery, (s.setStage worker box stage).workers.get worker = some delivery →
      delivery.stage.unheard = none ∧ (∀ now ∈ delivery.stage.reading, now ≤ s.clock) ∧
        ∀ sent ∈ delivery.stage.sent, sent.2 ≤ s.clock ∧
          ∀ time, s.toldAt delivery.box sent.1 = some time → time < sent.2 →
            pushRearmAfter ≤ sent.2 - time := by
    intro delivery found
    rw [set_stage_self found]
    exact ⟨hears, reading, sends⟩
  exact awake.move rfl rfl rfl (set_stage_others s worker box stage) before after

theorem Awake.dismiss {s next : PushState} (awake : Awake s) (history : next.history = s.history)
    (clock : next.clock = s.clock) (told : next.pushTold = s.pushTold)
    (workers : next.workers = s.workers.delete worker)
    (before : ∀ delivery, s.workers.get worker = some delivery → delivery.stage.unheard = none) :
    Awake next := by
  apply awake.move history clock told _ before
  · intro delivery found
    rw [workers, get_delete_self] at found
    cases found
  · intro other apart
    rw [workers, get_delete_other _ _ _ apart]

theorem Awake.skip {now : Int} (awake : Awake s)
    (waiting : s.pushWaiting box device now = true)
    (recent : ∀ woken ∈ (wakesSince box device s.history).head?,
      s.clock - woken < pushRearmAfter) :
    Awake (s.see (.skipped box device s.clock)) := by
  have told : ∃ time, s.toldAt box device = some time := by
    unfold PushState.pushWaiting at waiting
    cases found : s.toldAt box device with
    | none =>
      rw [found] at waiting
      cases waiting
    | some time => exact ⟨time, rfl⟩
  obtain ⟨time, found⟩ := told
  have latest : ∃ woken, (wakesSince box device s.history).head? = some woken := by
    cases wakes : wakesSince box device s.history with
    | nil => exact absurd wakes (awake.told box device time found)
    | cons woken rest => exact ⟨woken, rfl⟩
  obtain ⟨woken, first⟩ := latest
  exact ⟨awake.told, awake.unheard, awake.past, awake.marked, awake.readings, awake.sent,
    awake.once.skipped ⟨woken, first, recent woken first⟩⟩

theorem wakes_since_woke (box other : Box) (device who : Device) (time : Int)
    (history : List Seen) :
    wakesSince other who (.woke box device time :: history) =
      if box = other ∧ device = who then time :: wakesSince other who history
      else wakesSince other who history := rfl

theorem Awake.reach {now checked : Int} {left dead : List Device} (awake : Awake s)
    (sending : s.workers.get worker = some ⟨box, .sending now left dead device checked⟩)
    (alone : ¬s.Unheard box device) (earlier : ∀ told ∈ s.toldAt box device, told < checked) :
    Awake ((s.see (.woke box device s.clock)).setStage worker box
      (.reached now left dead device)) := by
  have apart : ∀ woken ∈ wakesSince box device s.history, pushRearmAfter ≤ s.clock - woken := by
    intro woken mem
    rcases awake.marked box device woken mem with reached | ⟨time, found, after⟩ | long
    · exact absurd reached alone
    · obtain ⟨past, clear⟩ := awake.sent worker _ sending (device, checked) rfl
      have gap := clear time found (earlier time found)
      simp only at past gap
      omega
    · exact long
  have others := set_stage_others (s.see (.woke box device s.clock)) worker box
    (.reached now left dead device)
  have here : ((s.see (.woke box device s.clock)).setStage worker box
      (.reached now left dead device)).Unheard box device := by
    rw [unheard_iff]
    exact ⟨worker, _, get_set_self _ _ _, rfl, rfl⟩
  have still : ∀ other who, s.Unheard other who → ((s.see (.woke box device s.clock)).setStage
      worker box (.reached now left dead device)).Unheard other who := by
    intro other who reached
    rw [unheard_iff] at reached ⊢
    obtain ⟨reacher, delivery, found, place, heard⟩ := reached
    have another : reacher ≠ worker := by
      intro same
      rw [same, sending] at found
      cases found
      cases heard
    exact ⟨reacher, delivery, (others reacher another).trans found, place, heard⟩
  constructor
  case told =>
    intro other who time found
    show wakesSince other who (.woke box device s.clock :: s.history) ≠ []
    rw [wakes_since_woke]
    split_ifs
    · simp
    · exact awake.told other who time found
  case unheard =>
    intro other who reached
    show wakesSince other who (.woke box device s.clock :: s.history) ≠ []
    rw [wakes_since_woke]
    split_ifs with this
    · simp
    · apply awake.unheard
      rw [unheard_iff] at reached ⊢
      obtain ⟨reacher, delivery, found, place, heard⟩ := reached
      by_cases same : reacher = worker
      · rw [same] at found
        rw [set_stage_self found] at place heard
        exact absurd ⟨place, Option.some.inj heard⟩ this
      · exact ⟨reacher, delivery, (others reacher same).symm.trans found, place, heard⟩
  case past =>
    intro other who woken mem
    change woken ∈ wakesSince other who (.woke box device s.clock :: s.history) at mem
    rw [wakes_since_woke] at mem
    split_ifs at mem
    · rcases mem_cons.mp mem with new | old
      · exact le_of_eq new
      · exact awake.past other who woken old
    · exact awake.past other who woken mem
  case marked =>
    intro other who woken mem
    change woken ∈ wakesSince other who (.woke box device s.clock :: s.history) at mem
    rw [wakes_since_woke] at mem
    split_ifs at mem with this
    · left
      rw [← this.1, ← this.2]
      exact here
    · rcases awake.marked other who woken mem with reached | rest
      · exact Or.inl (still other who reached)
      · exact Or.inr rest
  case readings =>
    intro other delivery found time reading
    by_cases same : other = worker
    · rw [same] at found
      rw [set_stage_self found] at reading
      exact awake.readings worker _ sending time reading
    · exact awake.readings other delivery ((others other same).symm.trans found) time reading
  case sent =>
    intro other delivery found sent sends
    by_cases same : other = worker
    · rw [same] at found
      rw [set_stage_self found] at sends
      cases sends
    · exact awake.sent other delivery ((others other same).symm.trans found) sent sends
  case once => exact awake.once.woke apart

theorem Awake.mark {now : Int} {left dead : List Device} (awake : Awake s)
    (reached : s.workers.get worker = some ⟨box, .reached now left dead device⟩) :
    Awake ((s.pushMarkTold box device s.clock).setStage worker box (.looking now left dead)) := by
  have others := set_stage_others (s.pushMarkTold box device s.clock) worker box
    (.looking now left dead)
  have unheard : s.Unheard box device := by
    rw [unheard_iff]
    exact ⟨worker, _, reached, rfl, rfl⟩
  have told : ∀ other who, ((s.pushMarkTold box device s.clock).setStage worker box
      (.looking now left dead)).toldAt other who =
        if other = box ∧ who = device then some s.clock else s.toldAt other who :=
    told_mark s box device s.clock
  constructor
  case told =>
    intro other who time found
    show wakesSince other who s.history ≠ []
    rw [told] at found
    split_ifs at found with this
    · rw [this.1, this.2]
      exact awake.unheard box device unheard
    · exact awake.told other who time found
  case unheard =>
    intro other who still
    apply awake.unheard
    rw [unheard_iff] at still ⊢
    obtain ⟨reacher, delivery, found, place, heard⟩ := still
    by_cases same : reacher = worker
    · rw [same] at found
      rw [set_stage_self found] at heard
      cases heard
    · exact ⟨reacher, delivery, (others reacher same).symm.trans found, place, heard⟩
  case past => exact awake.past
  case marked =>
    intro other who woken mem
    rw [told]
    have past := awake.past other who woken mem
    split_ifs with this
    · exact Or.inr (Or.inl ⟨s.clock, rfl, past⟩)
    · rcases awake.marked other who woken mem with still | rest
      · left
        rw [unheard_iff] at still ⊢
        obtain ⟨reacher, delivery, found, place, heard⟩ := still
        have another : reacher ≠ worker := by
          intro same
          rw [same, reached] at found
          cases found
          exact this ⟨place.symm, (Option.some.inj heard).symm⟩
        exact ⟨reacher, delivery, (others reacher another).trans found, place, heard⟩
      · exact Or.inr rest
  case readings =>
    intro other delivery found time reading
    by_cases same : other = worker
    · rw [same] at found
      rw [set_stage_self found] at reading
      exact awake.readings worker _ reached time reading
    · exact awake.readings other delivery ((others other same).symm.trans found) time reading
  case sent =>
    intro other delivery found sent sends
    by_cases same : other = worker
    · rw [same] at found
      rw [set_stage_self found] at sends
      cases sends
    · obtain ⟨past, clear⟩ :=
        awake.sent other delivery ((others other same).symm.trans found) sent sends
      refine ⟨past, ?_⟩
      intro time marked before
      rw [told] at marked
      split_ifs at marked
      · cases marked
        exact absurd past (not_le.mpr before)
      · exact clear time marked before
  case once => exact awake.once

theorem collected_frame (s : PushState) (box : Box) (device : Device) :
    (s.pushCollected box device).history = s.history ∧
      (s.pushCollected box device).clock = s.clock ∧
      (s.pushCollected box device).workers = s.workers := by
  unfold PushState.pushCollected
  split
  · exact ⟨rfl, rfl, rfl⟩
  · split
    · exact ⟨rfl, rfl, rfl⟩
    · split
      · exact ⟨rfl, rfl, rfl⟩
      · exact ⟨rfl, rfl, rfl⟩

theorem Awake.collected (awake : Awake s)
    (heard : ∀ delivery ∈ s.workers.values, delivery.box = box →
      ∀ reached ∈ delivery.stage.unheard, ¬(device = reached ∨ device = "")) :
    Awake ((s.pushCollected box device).see (.looked box device)) := by
  obtain ⟨history, clock, workers⟩ := collected_frame s box device
  have wakes : ∀ other who, wakesSince other who
      ((s.pushCollected box device).see (.looked box device)).history =
        if box = other ∧ (device = who ∨ device = "") then []
        else wakesSince other who s.history := by
    intro other who
    show wakesSince other who (.looked box device :: (s.pushCollected box device).history) = _
    rw [history]
    rfl
  have told : ∀ other who,
      ((s.pushCollected box device).see (.looked box device)).toldAt other who =
        if other = box ∧ (device = who ∨ device = "") then none else s.toldAt other who :=
    told_collected s box device
  have unheard : ∀ other who,
      ((s.pushCollected box device).see (.looked box device)).Unheard other who ↔
        s.Unheard other who := by
    intro other who
    unfold PushState.Unheard PushState.see
    rw [workers]
  constructor
  case told =>
    intro other who time found
    rw [told] at found
    split_ifs at found with covered
    have uncovered : ¬(box = other ∧ (device = who ∨ device = "")) :=
      fun both => covered ⟨both.1.symm, both.2⟩
    rw [wakes, if_neg uncovered]
    exact awake.told other who time found
  case unheard =>
    intro other who reached
    have still := (unheard other who).mp reached
    have uncovered : ¬(box = other ∧ (device = who ∨ device = "")) := by
      intro both
      obtain ⟨delivery, mem, place, hears⟩ := still
      exact heard delivery mem (place.trans both.1.symm) who hears both.2
    rw [wakes, if_neg uncovered]
    exact awake.unheard other who still
  case past =>
    intro other who woken mem
    show woken ≤ (s.pushCollected box device).clock
    rw [wakes] at mem
    split_ifs at mem
    · simp at mem
    · rw [clock]
      exact awake.past other who woken mem
  case marked =>
    intro other who woken mem
    rw [wakes] at mem
    split_ifs at mem with covered
    · simp at mem
    · have uncovered : ¬(other = box ∧ (device = who ∨ device = "")) :=
        fun both => covered ⟨both.1.symm, both.2⟩
      rw [unheard, told, if_neg uncovered]
      show _ ∨ _ ∨ pushRearmAfter ≤ (s.pushCollected box device).clock - woken
      rw [clock]
      exact awake.marked other who woken mem
  case readings =>
    intro worker delivery found now reading
    show now ≤ (s.pushCollected box device).clock
    change (s.pushCollected box device).workers.get worker = some delivery at found
    rw [workers] at found
    rw [clock]
    exact awake.readings worker delivery found now reading
  case sent =>
    intro worker delivery found sent sends
    change (s.pushCollected box device).workers.get worker = some delivery at found
    rw [workers] at found
    obtain ⟨past, clear⟩ := awake.sent worker delivery found sent sends
    refine ⟨?_, ?_⟩
    · show sent.2 ≤ (s.pushCollected box device).clock
      rw [clock]
      exact past
    · intro time marked before
      rw [told] at marked
      split_ifs at marked
      exact clear time marked before
  case once =>
    show OneWakePerLook (.looked box device :: (s.pushCollected box device).history)
    rw [history]
    exact awake.once.looked box device

theorem not_waiting {now : Int} (awake : s.pushWaiting box device now = false) :
    ∀ time, s.toldAt box device = some time → pushRearmAfter ≤ now - time := by
  intro time found
  unfold PushState.pushWaiting at awake
  rw [found] at awake
  simpa using awake

theorem sweep_frame (s : PushState) (now : Int) :
    (s.pushSweepTold now).history = s.history ∧ (s.pushSweepTold now).clock = s.clock ∧
      (s.pushSweepTold now).workers = s.workers := by
  unfold PushState.pushSweepTold
  cases s.pushToldSwept with
  | none => exact ⟨rfl, rfl, rfl⟩
  | some swept =>
    simp only
    split_ifs
    · exact ⟨rfl, rfl, rfl⟩
    · exact ⟨rfl, rfl, rfl⟩

theorem Awake.sweep (awake : Awake s) : Awake (s.pushSweepTold s.clock) := by
  obtain ⟨history, clock, workers⟩ := sweep_frame s s.clock
  apply awake.keep history (le_of_eq clock.symm) _ workers
  intro box device
  rw [clock]
  exact told_sweep s s.clock box device

theorem Awake.deliver {s next : PushState} {delivery : Delivery} {event : DeliveryEvent}
    (awake : Awake s) (inTurn : InTurn s event) (working : s.workers.get worker = some delivery)
    (whose : deliveryWorker event = some worker)
    (stepped : deliverStep s worker delivery.box delivery.stage event = some next) :
    Awake next := by
  obtain ⟨box, stage⟩ := delivery
  have reading := awake.readings worker _ working
  have nothing : stage.unheard = none → ∀ delivery, s.workers.get worker = some delivery →
      delivery.stage.unheard = none := by
    intro hears delivery found
    rw [working] at found
    cases found
    exact hears
  -- A stage that is back at looking, with the reading it had.
  have looking : ∀ now left dead, stage.unheard = none → now ∈ stage.reading →
      Awake (s.setStage worker box (.looking now left dead)) := by
    intro now left dead hears read
    apply awake.set_stage (nothing hears) rfl
    · intro time same
      cases same
      exact reading now read
    · simp [Stage.sent]
  cases stage with
  | taken =>
    cases event with
    | sweep _ =>
      cases stepped
      apply awake.sweep.set_stage _ rfl
      · simp [Stage.reading]
      · simp [Stage.sent]
      · rw [(sweep_frame s s.clock).2.2]
        exact nothing rfl
    | _ => cases stepped
  | swept =>
    cases event with
    | load _ readable =>
      cases stepped
      apply awake.set_stage (nothing rfl) rfl
      · simp [Stage.reading]
      · simp [Stage.sent]
    | _ => cases stepped
  | loaded subs =>
    cases event with
    | giveUp _ =>
      cases stepped
      exact awake.dismiss rfl rfl rfl rfl (nothing rfl)
    | start _ =>
      simp only [deliverStep] at stepped
      split_ifs at stepped
      cases stepped
      apply awake.set_stage (nothing rfl) rfl
      · intro time same
        cases same
        exact le_refl _
      · simp [Stage.sent]
    | _ => cases stepped
  | looking now left dead =>
    cases event with
    | check _ device =>
      cases whose
      simp only [deliverStep] at stepped
      split_ifs at stepped with listed waiting
      · cases stepped
        have recent := inTurn _ working now rfl waiting
        have seen : Awake (s.see (.skipped box device s.clock)) := awake.skip waiting recent
        apply seen.set_stage (nothing rfl) rfl
        · intro time same
          cases same
          exact reading now rfl
        · simp [Stage.sent]
      · cases stepped
        apply awake.set_stage (nothing rfl) rfl
        · intro time same
          cases same
          exact reading now rfl
        · intro sent sends
          cases sends
          refine ⟨le_refl _, ?_⟩
          intro time found _
          have gap := not_waiting (Bool.eq_false_of_not_eq_true waiting) time found
          have past : now ≤ s.clock := reading now rfl
          simp only
          omega
    | finish _ readable write =>
      cases left with
      | nil =>
        cases stepped
        exact awake.dismiss rfl rfl rfl rfl (nothing rfl)
      | cons device rest => cases stepped
    | _ => cases left <;> cases stepped
  | sending now left dead device checked =>
    cases event with
    | unsent _ =>
      cases stepped
      exact looking now left dead rfl rfl
    | gone _ =>
      cases stepped
      exact looking now left (dead ++ [device]) rfl rfl
    | reach _ =>
      cases whose
      cases stepped
      obtain ⟨alone, earlier⟩ := inTurn _ working (device, checked) rfl
      exact awake.reach working alone earlier
    | _ => cases stepped
  | reached now left dead device =>
    cases event with
    | mark _ =>
      cases stepped
      exact awake.mark working
    | _ => cases stepped

theorem notify_frame (s : PushState) (box : Box) :
    (s.pushNotifyBox box).history = s.history ∧ (s.pushNotifyBox box).clock = s.clock ∧
      (s.pushNotifyBox box).pushTold = s.pushTold ∧
      (s.pushNotifyBox box).workers = s.workers := by
  unfold PushState.pushNotifyBox PushState.enqueue
  simp only
  split_ifs <;> exact ⟨rfl, rfl, rfl, rfl⟩

theorem Awake.step {s next : PushState} {event : DeliveryEvent} (awake : Awake s)
    (inTurn : InTurn s event) (stepped : deliveryStep s event = some next) : Awake next := by
  have working : ∀ worker, deliveryWorker event = some worker →
      ((s.workers.get worker).bind fun delivery =>
        deliverStep s worker delivery.box delivery.stage event) = some next → Awake next := by
    intro worker whose moved
    rw [bind_eq_some_iff] at moved
    obtain ⟨delivery, found, moved⟩ := moved
    exact awake.deliver inTurn found whose moved
  have aside : ∀ other : PushState, other.history = s.history → s.clock ≤ other.clock →
      other.pushTold = s.pushTold → other.workers = s.workers → Awake other := by
    intro other history clock told workers
    apply awake.keep history clock _ workers
    intro box device
    have same : other.toldAt box device = s.toldAt box device := by
      unfold toldAt
      rw [told]
    rw [same]
    exact Swept.same _ _
  cases event with
  | tick elapsed =>
    cases stepped
    have onward : s.clock ≤ s.clock + elapsed := by omega
    exact aside _ rfl onward rfl rfl
  | deposit box =>
    cases stepped
    obtain ⟨history, clock, told, workers⟩ := notify_frame s box
    exact aside _ history (le_of_eq clock.symm) told workers
  | subscribe req sources | unsubscribe box device readable write =>
    cases stepped
    exact aside _ rfl (le_refl _) rfl rfl
  | collected box device =>
    cases stepped
    exact awake.collected inTurn
  | take worker =>
    simp only [deliveryStep] at stepped
    split at stepped
    · rename_i box rest idle queued
      cases stepped
      have dequeued : Awake { s with pushQueue := rest } := aside _ rfl (le_refl _) rfl rfl
      apply dequeued.set_stage
      · intro delivery found
        change s.workers.get worker = some delivery at found
        rw [idle] at found
        cases found
      · rfl
      · simp [Stage.reading]
      · simp [Stage.sent]
    · cases stepped
  | sweep worker => exact working worker rfl stepped
  | load worker readable => exact working worker rfl stepped
  | giveUp worker => exact working worker rfl stepped
  | start worker => exact working worker rfl stepped
  | check worker device => exact working worker rfl stepped
  | unsent worker => exact working worker rfl stepped
  | gone worker => exact working worker rfl stepped
  | reach worker => exact working worker rfl stepped
  | mark worker => exact working worker rfl stepped
  | finish worker readable write => exact working worker rfl stepped

theorem push_start_awake (disk : OrderedMap Box BoxFile) (clock : Int) :
    Awake (pushStart disk clock) := by
  have idle : ∀ worker delivery, (pushStart disk clock).workers.get worker = some delivery →
      False := by
    nofun
  constructor
  case told =>
    nofun
  case unheard =>
    intro box device reached
    obtain ⟨worker, delivery, found, _⟩ := unheard_iff.mp reached
    exact (idle worker delivery found).elim
  case past =>
    nofun
  case marked =>
    nofun
  case readings =>
    intro worker delivery found
    exact (idle worker delivery found).elim
  case sent =>
    intro worker delivery found
    exact (idle worker delivery found).elim
  case once =>
    constructor
    · intro box device later earlier newer between older split
      cases newer <;> cases split
    · intro box device time newer older split
      cases newer <;> cases split

/-! ## Runs -/

/-- However deposits, workers, collects, subscribes and the clock come in between one another, as
long as no wake-up overtakes the mark of another, no device looks between a wake-up and its mark,
and no check comes after the hour that was not over when its delivery read the clock. -/
theorem one_wake_per_look (disk : OrderedMap Box BoxFile) (clock : Int)
    (events : List DeliveryEvent) (s : PushState)
    (meets : Meets deliveryStep InTurn (pushStart disk clock) events)
    (ran : run deliveryStep (pushStart disk clock) events = some s) :
    OneWakePerLook s.history :=
  (run_keeps (fun _ _ _ inv inTurn stepped => Awake.step inv inTurn stepped)
    (push_start_awake disk clock) meets ran).once

/-! A phone is woken, told again within the hour and skipped, looks, and is woken again. -/

def wakeSubscription : PushSubscription := ⟨"https://fcm.googleapis.com/fcm/send/x", "k", "a", 5⟩

def wakeDisk : OrderedMap Box BoxFile :=
  OrderedMap.collect [("b1", ⟨some (OrderedMap.collect [("d1", wakeSubscription)]), 1⟩)]

def minuteLater : DeliveryEvent := .tick 60000000000

def deliverTo (worker : Worker) : List DeliveryEvent :=
  [.deposit "b1", .take worker, .sweep worker, .load worker true, .start worker]

def sampleWakes : List DeliveryEvent :=
  deliverTo 0 ++ [.check 0 "d1", .reach 0, .mark 0, .finish 0 true .written, minuteLater] ++
    deliverTo 1 ++ [.check 1 "d1", .finish 1 true .written, .collected "b1" "d1", minuteLater] ++
    deliverTo 0 ++ [.check 0 "d1", .reach 0, .mark 0]

theorem sample_wakes_once :
    ∃ s, run deliveryStep (pushStart wakeDisk 0) sampleWakes = some s ∧
      OneWakePerLook s.history := by
  have meets : Meets deliveryStep InTurn (pushStart wakeDisk 0) sampleWakes := by decide +kernel
  have ran : (run deliveryStep (pushStart wakeDisk 0) sampleWakes).isSome = true := by
    decide +kernel
  obtain ⟨s, reached⟩ := isSome_iff_exists.mp ran
  exact ⟨s, reached, one_wake_per_look wakeDisk 0 sampleWakes s meets reached⟩

/-! ## The other orders -/

def collectBeforeMark : List DeliveryEvent :=
  deliverTo 0 ++ [.check 0 "d1", .reach 0, .collected "b1" "d1", .mark 0, minuteLater] ++
    deliverTo 1 ++ [.check 1 "d1"]

def overlappingDeliveries : List DeliveryEvent :=
  deliverTo 0 ++ [minuteLater] ++ deliverTo 1 ++
    [.check 0 "d1", .check 1 "d1", .reach 0, .reach 1, .mark 0, .mark 1]

theorem wake_ups_in_other_orders :
    (∃ s, run deliveryStep (pushStart wakeDisk 0) collectBeforeMark = some s ∧
      ¬OneWakePerLook s.history) ∧
    ∃ s, run deliveryStep (pushStart wakeDisk 0) overlappingDeliveries = some s ∧
      ¬OneWakePerLook s.history := by
  constructor
  · have ran : (run deliveryStep (pushStart wakeDisk 0) collectBeforeMark).map
        (fun s => decide (s.history = [.skipped "b1" "d1" 60000000000, .looked "b1" "d1",
          .woke "b1" "d1" 0])) = some true := by decide +kernel
    obtain ⟨s, reached, history⟩ := map_eq_some_iff.mp ran
    refine ⟨s, reached, ?_⟩
    intro once
    obtain ⟨between, woken, rest, split, unseen, _⟩ :=
      once.told "b1" "d1" _ [] _ (of_decide_eq_true history)
    cases between with
    | nil => cases split
    | cons first others =>
      rw [cons_append, List.cons.injEq] at split
      apply unseen first (by simp)
      rw [← split.1]
      decide
  · have ran : (run deliveryStep (pushStart wakeDisk 0) overlappingDeliveries).map
        (fun s => decide (s.history = [.woke "b1" "d1" 60000000000,
          .woke "b1" "d1" 60000000000])) = some true := by decide +kernel
    obtain ⟨s, reached, history⟩ := map_eq_some_iff.mp ran
    refine ⟨s, reached, ?_⟩
    intro once
    rcases once.apart "b1" "d1" _ _ [] [] [] (of_decide_eq_true history) with looked | long
    · obtain ⟨seen, mem, _⟩ := looked
      cases mem
    · exact absurd long (by decide)

end Push

end AwfulChat.Relay
