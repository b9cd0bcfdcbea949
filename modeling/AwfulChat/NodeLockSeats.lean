import AwfulChat.NodeLock

/-!
# What holds of the seat in every run

For each tab, the seat it believes to have, read through the notices it has not read yet, is
what the Lock Manager says. Everything else is kept relative to that seat.
-/

namespace AwfulChat.NodeLock

open Library List
open Library.LockManager

set_option autoImplicit false

structure Sits (locks : LockManager TabId) (id : TabId) (tab : Tab)
    (live : Option (Lock TabId)) : Prop where
  replay : Replay live (locks.notices id) (locks.seatOf id)
  known : ∀ lock, live = some lock → locks.Known id lock
  hold : ∀ lock, live = some lock → tab.releaseHold = some lock ∨ locks.seatOf id ≠ some lock
  held : tab.held = true → ∃ lock, live = some lock ∧ tab.releaseHold = some lock ∧
    lock.request ∉ tab.withdrawn ∧ tab.teardowns = []
  gone : tab.held = false → ∀ lock, live = some lock →
    lock ∈ tab.torn ∨ lock.request ∈ tab.withdrawn

/-- A tab that has not asked for the seat since it last gave it up. -/
def Away (tab : Tab) : Prop :=
  tab.released = true ∨ tab.closed = true ∨ tab.events = false

structure TabInv (locks : LockManager TabId) (id : TabId) (tab : Tab) : Prop where
  sits : ∃ live, Sits locks id tab live
  numbered : locks.Numbered id
  hold : ∀ lock, tab.releaseHold = some lock → locks.Known id lock ∧ lock.request.owner = id
  flag : tab.dropQueued = false
  queued : ∀ request, tab.queuedAbort = some request → request.steal = false
  withdrawn : ∀ request ∈ tab.withdrawn, request.steal = false
  teardowns : ∀ seat ∈ tab.teardowns, tab.releaseHold = none ∨ tab.releaseHold = seat
  ends : ∀ finish ∈ tab.ends, finish.2 = none ∨ finish.2 = finish.1
  away : Away tab → locks.Absent id ∧ tab.claims = 0 ∧ tab.held = false
  stolen : tab.closed = false → ∀ lock ∈ locks.stolen, lock.request.owner = id →
    lock ∈ tab.torn ∨ .aborted lock ∈ locks.notices id ∨ lock.request ∈ tab.withdrawn

def Inv (state : State) : Prop := ∀ id, TabInv state.locks id (state.tabs id)

variable {locks : LockManager TabId} {id : TabId} {tab : Tab} {lock : Lock TabId}

variable {notice : Notice TabId} {live : Option (Lock TabId)} {state : State}

theorem Sits.reaches {locks later : LockManager TabId} (sits : Sits locks id tab live)
    (reaches : Reaches locks later id) :
    Sits later id tab live := by
  refine ⟨replay_reaches sits.replay reaches, ?_, ?_, sits.held, sits.gone⟩
  · intro lock here
    exact (sits.known lock here).reaches reaches
  · intro lock here
    rcases sits.hold lock here with holds | lost
    · exact Or.inl holds
    · exact Or.inr (lost_reaches (sits.known lock here) lost reaches)

theorem TabInv.reaches {locks later : LockManager TabId} (inv : TabInv locks id tab)
    (reaches : Reaches locks later id)
    (absent : Away tab → locks.Absent id → later.Absent id) : TabInv later id tab := by
  obtain ⟨live, sits⟩ := inv.sits
  refine ⟨⟨live, sits.reaches reaches⟩, inv.numbered.reaches reaches, ?_, inv.flag, inv.queued,
    inv.withdrawn, inv.teardowns, inv.ends, ?_, ?_⟩
  · intro lock holds
    exact ⟨(inv.hold lock holds).1.reaches reaches, (inv.hold lock holds).2⟩
  · intro idle
    have apart := inv.away idle
    exact ⟨absent idle apart.1, apart.2⟩
  · intro isOpen lock mem owns
    obtain ⟨news, reaches⟩ := reaches
    rw [reaches.notices, mem_append]
    rcases reaches.stolen lock mem with old | told
    · rcases inv.stolen isOpen lock old owns with torn | untold | withdrawn
      · exact Or.inl torn
      · exact Or.inr (Or.inl (Or.inl untold))
      · exact Or.inr (Or.inr withdrawn)
    · exact Or.inr (Or.inl (Or.inr (told owns)))

theorem Inv.start : Inv State.start := by
  intro id
  exact ⟨⟨none, rfl, nofun, nofun, nofun, nofun⟩, ⟨nodup_nil, nofun⟩, nofun, rfl, nofun,
    nofun, nofun, nofun, fun _ => ⟨⟨rfl, nofun, nofun⟩, rfl, rfl⟩, nofun⟩

theorem Inv.set
    (serial : Nat) (inv : Inv state) (own : TabInv locks id tab)
    (others : ∀ other, id ≠ other → Reaches state.locks locks other ∧
      (state.locks.Absent other → locks.Absent other)) :
    Inv (State.setTab { state with locks := locks, serial := serial } id tab) := by
  intro other
  by_cases same : id = other
  · subst same
    simpa only [State.setTab, Function.update_self] using own
  · have reached := others other same
    simp only [State.setTab, Function.update_of_ne (Ne.symm same)]
    exact (inv other).reaches reached.1 fun _ => reached.2

theorem others_same (other : TabId) (_ : id ≠ other) :
    Reaches locks locks other ∧ (locks.Absent other → locks.Absent other) :=
  ⟨Reaches.refl, fun absent => absent⟩

theorem others_release {hold : Option (Lock TabId)}
    (owns : ∀ lock, hold = some lock → lock.request.owner = id) (other : TabId)
    (apart : id ≠ other) :
    Reaches locks (locks.releaseAny hold) other ∧
      (locks.Absent other → (locks.releaseAny hold).Absent other) := by
  cases hold with
  | none => exact others_same other apart
  | some lock =>
    refine ⟨reaches_release_other ?_, fun absent => absent.release lock⟩
    rw [owns lock rfl]
    exact apart

/-- A manager after the tab's own release, before it serves the next in line. -/
structure Released (locks : LockManager TabId) (id : TabId) (tab : Tab)
    (middle : LockManager TabId) (live : Option (Lock TabId)) : Prop where
  same : middle = locks ∨ middle = locks.freed
  reaches : Reaches middle (locks.releaseAny tab.releaseHold) id
  absent : middle.Absent id → (locks.releaseAny tab.releaseHold).Absent id
  replay : Replay live (middle.notices id) (middle.seatOf id)
  lost : ∀ lock, live = some lock → locks.Known id lock ∧ middle.seatOf id ≠ some lock ∧
    (tab.held = false → lock ∈ tab.torn ∨ lock.request ∈ tab.withdrawn)

theorem Released.kept {locks middle : LockManager TabId}
    (released : Released locks id tab middle live) :
    middle.notices = locks.notices ∧ middle.queue = locks.queue ∧
      middle.nextLock = locks.nextLock ∧ middle.stolen = locks.stolen := by
  rcases released.same with same | same
  · rw [same]
    exact ⟨rfl, rfl, rfl, rfl⟩
  · rw [same]
    exact ⟨rfl, rfl, rfl, rfl⟩

section

variable (inv : TabInv locks id tab)
include inv

theorem TabInv.releases : ∃ middle live, Released locks id tab middle live := by
  obtain ⟨live, sits⟩ := inv.sits
  cases hold : tab.releaseHold with
  | none =>
    refine ⟨locks, live, Or.inl rfl, ?_, ?_, sits.replay, ?_⟩
    · rw [hold]
      exact Reaches.refl
    · rw [hold]
      exact fun absent => absent
    · intro lock here
      refine ⟨sits.known lock here, ?_, fun free => sits.gone free lock here⟩
      rcases sits.hold lock here with holds | lost
      · rw [hold] at holds
        cases holds
      · exact lost
  | some mine =>
    have knows := inv.hold mine hold
    rcases release_own sits.replay knows.2 knows.1.2 with ⟨release, replay⟩ | ⟨release, lost⟩
    · refine ⟨locks.freed, none, Or.inr rfl, ?_, ?_, replay, nofun⟩
      · rw [hold, releaseAny, release]
        exact reaches_next
      · rw [hold, releaseAny, release]
        exact Absent.next
    · refine ⟨locks, live, Or.inl rfl, ?_, ?_, sits.replay, ?_⟩
      · rw [hold, releaseAny, release]
        exact Reaches.refl
      · rw [hold, releaseAny, release]
        exact fun absent => absent
      · intro lock here
        refine ⟨sits.known lock here, ?_, fun free => sits.gone free lock here⟩
        rcases sits.hold lock here with holds | gone
        · rw [hold] at holds
          cases holds
          exact lost
        · exact gone

theorem TabInv.acquire (isOpen : tab.closed = false) (waits channel : Bool) :
    TabInv locks id { tab with
      events := true, released := false, channel := channel, acquiring := waits } := by
  obtain ⟨live, sits⟩ := inv.sits
  refine ⟨⟨live, sits.replay, sits.known, sits.hold, sits.held, sits.gone⟩, inv.numbered, inv.hold,
    inv.flag, inv.queued, inv.withdrawn, inv.teardowns, inv.ends, ?_, inv.stolen⟩
  rintro (released | closed | unused)
  · cases released
  · rw [show tab.closed = true from closed] at isOpen
    cases isOpen
  · cases unused

theorem TabInv.claim (isOpen : tab.closed = false) (used : tab.events = true)
    (claims : Nat) : TabInv locks id { tab with released := false, claims := claims } := by
  obtain ⟨live, sits⟩ := inv.sits
  refine ⟨⟨live, sits.replay, sits.known, sits.hold, sits.held, sits.gone⟩, inv.numbered, inv.hold,
    inv.flag, inv.queued, inv.withdrawn, inv.teardowns, inv.ends, ?_, inv.stolen⟩
  rintro (released | closed | unused)
  · cases released
  · rw [show tab.closed = true from closed] at isOpen
    cases isOpen
  · rw [show tab.events = false from unused] at used
    cases used

theorem TabInv.claimed (claims : 0 < tab.claims) (left : Nat) :
    TabInv locks id { tab with claims := left } ∧
      ¬Away tab := by
  have present : ¬Away tab := by
    intro idle
    have := (inv.away idle).2.1
    omega
  obtain ⟨live, sits⟩ := inv.sits
  refine ⟨⟨⟨live, sits.replay, sits.known, sits.hold, sits.held, sits.gone⟩, inv.numbered,
    inv.hold, inv.flag, inv.queued, inv.withdrawn, inv.teardowns, inv.ends, ?_, inv.stolen⟩,
    present⟩
  intro idle
  exact absurd idle present

theorem TabInv.asked (asks : Nat) : TabInv locks id { tab with asks := asks } := by
  obtain ⟨live, sits⟩ := inv.sits
  exact ⟨⟨live, sits.replay, sits.known, sits.hold, sits.held, sits.gone⟩, inv.numbered,
    inv.hold, inv.flag, inv.queued, inv.withdrawn, inv.teardowns, inv.ends, inv.away, inv.stolen⟩

theorem TabInv.release (notices : locks.notices id = []) (claims : tab.claims = 0)
    (queue : ∀ request ∈ locks.queue, request.owner ≠ id) (isOpen : tab.closed = false) :
    TabInv (locks.releaseAny tab.releaseHold) id
      { tab with held := false, releaseHold := none, released := true } := by
  obtain ⟨middle, live, released⟩ := inv.releases
  obtain ⟨sameLines, sameQueue, -, stolen⟩ := released.kept
  have line : middle.notices id = [] := by
    rw [sameLines]
    exact notices
  have seat : middle.seatOf id = none := by
    have replay := released.replay
    rw [line] at replay
    cases found : middle.seatOf id with
    | none => rfl
    | some lock => exact absurd found (released.lost lock (replay.trans found)).2.1
  have absent : middle.Absent id := by
    refine ⟨line, ?_, ?_⟩
    · rw [sameQueue]
      exact queue
    · intro lock held owns
      rw [seatOf_some held, if_pos owns] at seat
      cases seat
  have settledInv : TabInv middle id
      { tab with held := false, releaseHold := none, released := true } := by
    refine ⟨⟨none, ?_, nofun, nofun, nofun, nofun⟩, ⟨?_, ?_⟩, nofun, inv.flag, inv.queued,
      inv.withdrawn, ?_, inv.ends, fun _ => ⟨absent, claims, rfl⟩, ?_⟩
    · rw [line, seat]
      exact rfl
    · rw [line]
      exact nodup_nil
    · rw [line]
      nofun
    · intro seat mem
      exact Or.inl rfl
    · intro _ lock mem owns
      rw [stolen] at mem
      rcases inv.stolen isOpen lock mem owns with torn | untold | withdrawn
      · exact Or.inl torn
      · rw [notices] at untold
        cases untold
      · exact Or.inr (Or.inr withdrawn)
  exact settledInv.reaches released.reaches fun _ => released.absent

theorem TabInv.settled {seat : Option (Lock TabId)} (mem : seat ∈ tab.teardowns) :
    TabInv (locks.releaseAny tab.releaseHold) id
      { tab with
        releaseHold := none
        teardowns := tab.teardowns.erase seat
        ends := (seat, tab.releaseHold) :: tab.ends } := by
  have free : tab.held = false := by
    cases held : tab.held with
    | false => rfl
    | true =>
      obtain ⟨live, sits⟩ := inv.sits
      obtain ⟨lock, here, holds, kept, none⟩ := sits.held held
      rw [none] at mem
      cases mem
  obtain ⟨middle, live, released⟩ := inv.releases
  obtain ⟨line, -, numbers, stolen⟩ := released.kept
  have settledInv : TabInv middle id
      { tab with
        releaseHold := none
        teardowns := tab.teardowns.erase seat
        ends := (seat, tab.releaseHold) :: tab.ends } := by
    refine ⟨⟨live, released.replay, ?_, ?_, ?_, ?_⟩, ⟨?_, ?_⟩, nofun, inv.flag, inv.queued,
      inv.withdrawn, ?_, ?_, ?_, ?_⟩
    · intro lock here
      have knows := (released.lost lock here).1
      exact ⟨by rw [numbers]; exact knows.1, by rw [line]; exact knows.2⟩
    · intro lock here
      exact Or.inr (released.lost lock here).2.1
    · intro held
      rw [show tab.held = true from held] at free
      cases free
    · intro _ lock here
      exact (released.lost lock here).2.2 free
    · rw [line]
      exact inv.numbered.once
    · rw [line, numbers]
      exact inv.numbered.below
    · intro other _
      exact Or.inl rfl
    · intro finish found
      rcases mem_cons.mp found with same | old
      · rw [same]
        exact inv.teardowns seat mem
      · exact inv.ends finish old
    · intro idle
      have apart := inv.away idle
      refine ⟨?_, apart.2⟩
      rcases released.same with same | same
      · rw [same]
        exact apart.1
      · rw [same]
        exact ⟨apart.1.notices, apart.1.queue, nofun⟩
    · rw [line, stolen]
      exact inv.stolen
  exact settledInv.reaches released.reaches fun _ => released.absent

theorem TabInv.onmessage (held : tab.held = true) :
    TabInv locks id { tab with
      held := false
      teardowns := tab.releaseHold :: tab.teardowns
      torn := tab.releaseHold.toList ++ tab.torn } := by
  obtain ⟨live, sits⟩ := inv.sits
  obtain ⟨mine, here, holds, kept, noTeardown⟩ := sits.held held
  refine ⟨⟨live, sits.replay, sits.known, sits.hold, nofun, ?_⟩, inv.numbered, inv.hold, inv.flag,
    inv.queued, inv.withdrawn, ?_, inv.ends, ?_, ?_⟩
  · intro _ lock found
    rw [here] at found
    cases found
    simp [holds]
  · intro seat mem
    rcases mem_cons.mp mem with same | old
    · exact Or.inr same.symm
    · exact inv.teardowns seat old
  · intro idle
    have apart := inv.away idle
    exact ⟨apart.1, apart.2.1, rfl⟩
  · intro isOpen lock mem owns
    rcases inv.stolen isOpen lock mem owns with torn | rest
    · exact Or.inl (mem_append_right _ torn)
    · exact Or.inr rest

end

/-- What the tab is left with once it has read a notice, before it acts on it. -/
structure Hears (locks rest : LockManager TabId) (id : TabId) (tab : Tab)
    (live after : Option (Lock TabId)) : Prop where
  replay : Replay after (rest.notices id) (rest.seatOf id)
  seat : rest.seatOf id = locks.seatOf id
  known : ∀ lock, locks.Known id lock → rest.Known id lock
  numbered : rest.Numbered id
  stolen : rest.stolen = locks.stolen
  sits : Sits locks id tab live

theorem grants_tail {rest : List (Notice TabId)}
    (mem : lock ∈ grants rest) : lock ∈ grants (notice :: rest) := by
  rw [mem_grants] at mem ⊢
  exact mem_cons_of_mem _ mem

theorem TabInv.reads {locks rest : LockManager TabId} (inv : TabInv locks id tab)
    (found : locks.read id = some (notice, rest)) :
    (∃ live after, Hears locks rest id tab live after ∧ Replay live [notice] after) ∧
      ¬Away tab ∧
      ∀ lock, notice ≠ .aborted lock → .aborted lock ∈ locks.notices id →
        .aborted lock ∈ rest.notices id := by
  obtain ⟨live, sits⟩ := inv.sits
  obtain ⟨line, seat, numbers, stolen⟩ := read_kept found
  have numbered := inv.numbered
  have replay := sits.replay
  have hears : ∀ after, Replay after (rest.notices id) (locks.seatOf id) →
      Hears locks rest id tab live after := by
    intro after left
    refine ⟨?_, seat, ?_, ⟨?_, ?_⟩, stolen, sits⟩
    · rw [seat]
      exact left
    · intro lock knows
      refine ⟨by rw [numbers]; exact knows.1, ?_⟩
      intro mem
      apply knows.2
      rw [line]
      exact grants_tail mem
    · have once := numbered.once
      rw [line] at once
      cases notice with
      | granted lock => exact (nodup_cons.mp once).2
      | unavailable request | aborted lock => exact once
    · rw [numbers]
      intro lock mem
      apply numbered.below
      rw [line]
      exact grants_tail mem
  rw [line] at replay
  refine ⟨?_, ?_, ?_⟩
  · cases notice with
    | granted lock => exact ⟨live, some lock, hears _ replay.2, replay.1, rfl⟩
    | unavailable request => exact ⟨live, live, hears _ replay, rfl⟩
    | aborted lock => exact ⟨live, none, hears _ replay.2, replay.1, rfl⟩
  · intro idle
    have quiet := (inv.away idle).1.notices
    rw [line] at quiet
    cases quiet
  · intro lock other mem
    rw [line] at mem
    rcases mem_cons.mp mem with same | later
    · exact absurd same.symm other
    · exact later

theorem TabInv.granted {locks rest : LockManager TabId} {tab next : Tab}
    (inv : TabInv locks id tab)
    (found : locks.read id = some (.granted lock, rest)) (idle : tab.teardowns = [])
    (kept : next = { tab with
      queuedAbort := next.queuedAbort, dropQueued := next.dropQueued,
      withdrawn := next.withdrawn })
    (flag : next.dropQueued = false)
    (queued : ∀ request, next.queuedAbort = some request → request.steal = false)
    (withdrawn : ∀ request ∈ next.withdrawn, request.steal = false)
    (more : ∀ request ∈ tab.withdrawn, request ∈ next.withdrawn)
    (wanted : lock.request ∉ next.withdrawn) :
    TabInv rest id (State.grant next lock) := by
  obtain ⟨⟨live, after, hears, replay, same⟩, present, untold⟩ := inv.reads found
  cases same
  obtain ⟨line, seat, numbers, stolen⟩ := read_kept found
  have mem : lock ∈ grants (locks.notices id) := by
    rw [line]
    exact mem_cons_self
  have first : lock ∉ grants (rest.notices id) := by
    have once := inv.numbered.once
    rw [line] at once
    exact (nodup_cons.mp once).1
  have below := inv.numbered.below lock mem
  have knows : rest.Known id lock := ⟨by rw [numbers]; exact below.1, first⟩
  have noTeardown : next.teardowns = [] := by
    rw [kept]
    exact idle
  refine ⟨⟨some lock, hears.replay, ?_, ?_, ?_, nofun⟩, hears.numbered, ?_, flag, queued,
    withdrawn, ?_, ?_, ?_, ?_⟩
  · intro other here
    cases here
    exact knows
  · intro other here
    exact Or.inl here
  · intro _
    exact ⟨lock, rfl, rfl, wanted, noTeardown⟩
  · intro other here
    cases here
    exact ⟨knows, below.2⟩
  · intro other found
    rw [show (State.grant next lock).teardowns = [] from noTeardown] at found
    cases found
  · intro finish found
    apply inv.ends
    rw [kept] at found
    exact found
  · intro away
    rw [kept] at away
    exact absurd away present
  · intro isOpen other taken owns
    rw [hears.stolen] at taken
    rw [kept] at isOpen
    rcases inv.stolen isOpen other taken owns with torn | told | dropped
    · refine Or.inl ?_
      rw [kept]
      exact torn
    · exact Or.inr (Or.inl (untold other nofun told))
    · exact Or.inr (Or.inr (more _ dropped))

theorem TabInv.refused {locks rest : LockManager TabId} (inv : TabInv locks id tab)
    (found : locks.read id = some (.granted lock, rest)) (dropped : lock.request ∈ tab.withdrawn) :
    TabInv (rest.release lock) id tab := by
  obtain ⟨⟨live, after, hears, replay, same⟩, present, untold⟩ := inv.reads found
  cases same
  obtain ⟨line, seat, numbers, stolen⟩ := read_kept found
  have mem : lock ∈ grants (locks.notices id) := by
    rw [line]
    exact mem_cons_self
  have first : lock ∉ grants (rest.notices id) := by
    have once := inv.numbered.once
    rw [line] at once
    exact (nodup_cons.mp once).1
  have below := inv.numbered.below lock mem
  have free : tab.held = false := by
    cases held : tab.held with
    | false => rfl
    | true =>
      obtain ⟨mine, here, rest⟩ := hears.sits.held held
      rw [replay] at here
      cases here
  have settledInv : ∀ middle : LockManager TabId, ∀ live, middle.notices = rest.notices →
      middle.nextLock = rest.nextLock → middle.stolen = rest.stolen →
      Replay live (middle.notices id) (middle.seatOf id) →
      (∀ other, live = some other → other = lock ∧ middle.seatOf id ≠ some lock) →
      TabInv middle id tab := by
    intro middle live sameLine sameNumbers sameStolen replayed lost
    refine ⟨⟨live, replayed, ?_, ?_, ?_, ?_⟩, ⟨?_, ?_⟩, ?_, inv.flag, inv.queued, inv.withdrawn,
      inv.teardowns, inv.ends, fun away => absurd away present, ?_⟩
    · intro other here
      rw [(lost other here).1]
      exact ⟨by rw [sameNumbers, numbers]; exact below.1, by rw [sameLine]; exact first⟩
    · intro other here
      rw [(lost other here).1]
      exact Or.inr (lost other here).2
    · intro held
      rw [free] at held
      cases held
    · intro _ other here
      rw [(lost other here).1]
      exact Or.inr dropped
    · rw [sameLine]
      exact hears.numbered.once
    · rw [sameLine, sameNumbers]
      exact hears.numbered.below
    · intro other holds
      have knows := hears.known other (inv.hold other holds).1
      exact ⟨⟨by rw [sameNumbers]; exact knows.1, by rw [sameLine]; exact knows.2⟩,
        (inv.hold other holds).2⟩
    · intro isOpen other taken owns
      rw [sameStolen, hears.stolen] at taken
      rw [sameLine]
      rcases inv.stolen isOpen other taken owns with torn | told | kept
      · exact Or.inl torn
      · exact Or.inr (Or.inl (untold other nofun told))
      · exact Or.inr (Or.inr kept)
  rcases release_own hears.replay below.2 first with ⟨release, replayed⟩ | ⟨release, lost⟩
  · rw [release]
    have freed : TabInv rest.freed id tab :=
      settledInv rest.freed none rfl rfl rfl replayed nofun
    exact freed.reaches reaches_next fun _ => Absent.next
  · rw [release]
    apply settledInv rest (some lock) rfl rfl rfl hears.replay
    intro other here
    cases here
    exact ⟨rfl, lost⟩

theorem TabInv.queues {locks rest : LockManager TabId} {request queued : Request TabId}
    (inv : TabInv locks id tab) (found : locks.read id = some (.unavailable request, rest))
    (patient : queued.steal = false) :
    TabInv (rest.enqueue queued) id { tab with queuedAbort := some queued } := by
  obtain ⟨⟨live, after, hears, same⟩, present, untold⟩ := inv.reads found
  cases same
  have sits := hears.sits
  have resting : TabInv rest id { tab with queuedAbort := some queued } := by
    refine ⟨⟨live, hears.replay, ?_, ?_, sits.held, sits.gone⟩, hears.numbered, ?_, inv.flag, ?_,
      inv.withdrawn, inv.teardowns, inv.ends, fun away => absurd away present, ?_⟩
    · intro lock here
      exact hears.known lock (sits.known lock here)
    · intro lock here
      rw [hears.seat]
      exact sits.hold lock here
    · intro lock holds
      exact ⟨hears.known lock (inv.hold lock holds).1, (inv.hold lock holds).2⟩
    · intro other here
      cases here
      exact patient
    · intro isOpen lock taken owns
      rw [hears.stolen] at taken
      rcases inv.stolen isOpen lock taken owns with torn | told | kept
      · exact Or.inl torn
      · exact Or.inr (Or.inl (untold lock nofun told))
      · exact Or.inr (Or.inr kept)
  exact resting.reaches (reaches_enqueue queued) fun away => absurd away present

theorem TabInv.robbed {locks rest : LockManager TabId} (inv : TabInv locks id tab)
    (found : locks.read id = some (.aborted lock, rest)) :
    (tab.held = false → TabInv rest id tab) ∧
      (lock.request ∈ tab.withdrawn → tab.held = false) ∧
      TabInv rest id
        { tab with held := false, releaseHold := none, torn := lock :: tab.torn } := by
  obtain ⟨⟨live, after, hears, here, same⟩, present, untold⟩ := inv.reads found
  cases same
  have sits := hears.sits
  have hold : ∀ other, tab.releaseHold = some other →
      rest.Known id other ∧ other.request.owner = id := by
    intro other holds
    exact ⟨hears.known other (inv.hold other holds).1, (inv.hold other holds).2⟩
  refine ⟨?_, ?_, ?_⟩
  · intro free
    refine ⟨⟨none, hears.replay, nofun, nofun, ?_, nofun⟩, hears.numbered, hold, inv.flag,
      inv.queued, inv.withdrawn, inv.teardowns, inv.ends, fun away => absurd away present, ?_⟩
    · intro held
      rw [free] at held
      cases held
    · intro isOpen other taken owns
      rw [hears.stolen] at taken
      rcases inv.stolen isOpen other taken owns with torn | told | kept
      · exact Or.inl torn
      · by_cases same : other = lock
        · rw [same]
          rcases sits.gone free lock here with torn | kept
          · exact Or.inl torn
          · exact Or.inr (Or.inr kept)
        · refine Or.inr (Or.inl (untold other ?_ told))
          intro equal
          cases equal
          exact same rfl
      · exact Or.inr (Or.inr kept)
  · intro dropped
    cases held : tab.held with
    | false => rfl
    | true =>
      obtain ⟨mine, mineHere, holds, wanted, idle⟩ := sits.held held
      rw [here] at mineHere
      cases mineHere
      exact absurd dropped wanted
  · refine ⟨⟨none, hears.replay, nofun, nofun, nofun, nofun⟩, hears.numbered, nofun, inv.flag,
      inv.queued, inv.withdrawn, fun seat _ => Or.inl rfl, inv.ends,
      fun away => absurd away present, ?_⟩
    intro isOpen other taken owns
    rw [hears.stolen] at taken
    rcases inv.stolen isOpen other taken owns with torn | told | kept
    · exact Or.inl (mem_cons_of_mem _ torn)
    · by_cases same : other = lock
      · rw [same]
        exact Or.inl mem_cons_self
      · refine Or.inr (Or.inl (untold other ?_ told))
        intro equal
        cases equal
        exact same rfl
    · exact Or.inr (Or.inr kept)

theorem TabInv.hear {locks rest : LockManager TabId}
    (serial : Nat) (inv : TabInv locks id tab)
    (found : locks.read id = some (notice, rest))
    (orderly : ∀ lock, notice = .granted lock → lock.request ∉ tab.withdrawn →
      tab.teardowns = [] ∧ (lock.request.steal = true →
        ∀ queued ∈ tab.queuedAbort, rest.Pending queued)) :
    TabInv (State.hear rest serial id tab notice).1 id (State.hear rest serial id tab notice).2 ∧
      ∀ other, id ≠ other → Reaches rest (State.hear rest serial id tab notice).1 other ∧
        (rest.Absent other → (State.hear rest serial id tab notice).1.Absent other) := by
  cases notice with
  | granted lock =>
    simp only [State.hear]
    have below : lock.request.owner = id := by
      apply (inv.numbered.below lock _).2
      rw [(read_kept found).1]
      exact mem_cons_self
    by_cases dropped : lock.request ∈ tab.withdrawn
    · simp only [if_pos dropped]
      refine ⟨inv.refused found dropped, ?_⟩
      intro other apart
      refine ⟨reaches_release_other ?_, fun absent => absent.release lock⟩
      rw [below]
      exact apart
    · obtain ⟨idle, pending⟩ := orderly lock rfl dropped
      simp only [if_neg dropped]
      by_cases steals : lock.request.steal = true
      · simp only [if_pos steals, State.grantStolen]
        cases queued : tab.queuedAbort with
        | none =>
          refine ⟨inv.granted found idle rfl inv.flag inv.queued inv.withdrawn ?_ dropped,
            others_same⟩
          exact fun request mem => mem
        | some request =>
          have waits := pending steals request queued
          have patient := inv.queued request queued
          simp only [if_pos waits]
          refine ⟨?_, fun other apart =>
            ⟨reaches_withdraw request, fun absent => absent.withdraw request⟩⟩
          have grantedInv : TabInv rest id (State.grant { tab with
              dropQueued := false, queuedAbort := none,
              withdrawn := request :: tab.withdrawn } lock) := by
            refine inv.granted found idle rfl rfl (by intros; contradiction) ?_ ?_ ?_
            · intro other mem
              rcases mem_cons.mp mem with same | old
              · rw [same]
                exact patient
              · exact inv.withdrawn other old
            · intro other mem
              exact mem_cons_of_mem _ mem
            · intro mem
              rcases mem_cons.mp mem with same | old
              · rw [same, patient] at steals
                cases steals
              · exact dropped old
          exact grantedInv.reaches (reaches_withdraw request) fun _ absent =>
            absent.withdraw request
      · simp only [if_neg steals]
        refine ⟨inv.granted found idle rfl inv.flag inv.queued inv.withdrawn ?_ dropped,
          others_same⟩
        exact fun request mem => mem
  | unavailable request =>
    refine ⟨inv.queues found rfl, ?_⟩
    intro other apart
    exact ⟨reaches_enqueue _, fun absent => absent.enqueue apart⟩
  | aborted lock =>
    obtain ⟨free, dropped, torn⟩ := inv.robbed found
    have used : tab.events = true := by
      by_contra unused
      apply (inv.reads found).2.1
      simpa [Away] using Or.inr (Or.inr unused)
    have unflagged : (!lock.request.steal && tab.dropQueued) = false := by
      rw [inv.flag, Bool.and_false]
    have calls : (!lock.request.steal || tab.events) = true := by
      rw [used, Bool.or_true]
    simp only [State.hear, unflagged, calls, Bool.false_eq_true, if_false, if_true]
    split_ifs with drops held
    · exact ⟨free (dropped drops), others_same⟩
    · exact ⟨torn, others_same⟩
    · exact ⟨free (by simpa using held), others_same⟩

theorem TabInv.closed (absent : locks.Absent id) :
    TabInv locks id { Tab.fresh with closed := true } := by
  have line := absent.notices
  refine ⟨⟨none, ?_, nofun, nofun, nofun, nofun⟩, ⟨?_, ?_⟩, nofun, rfl, nofun, nofun, nofun, nofun,
    fun _ => ⟨absent, rfl, rfl⟩, nofun⟩
  · rw [line, absent.seat]
    exact rfl
  · rw [line]
    exact nodup_nil
  · rw [line]
    nofun

theorem Inv.postRelease (inv : Inv state) (id : TabId) :
    Inv (state.postRelease id) := by
  intro other
  simp only [State.postRelease]
  split_ifs
  · exact (inv other).asked _
  · exact inv other

theorem Inv.step {state next : State} {event : Event} (inv : Inv state)
    (orderly : Orderly state event) (stepped : step state event = some next) : Inv next := by
  unfold NodeLock.step at stepped
  split_ifs at stepped with ended
  have isOpen : (state.tabs event.tab).closed = false := by simpa using ended
  cases event with
  | acquireNodeLock id =>
    cases stepped
    have own := inv id
    unfold State.acquireNodeLock
    dsimp only
    split_ifs
    · exact inv.set state.serial (own.acquire isOpen _ _) others_same
    · refine inv.set _ ?_ ?_
      · refine (own.acquire isOpen _ _).reaches (reaches_ifAvailable _) fun away => ?_
        have asks : (state.tabs id).closed = true := by simpa [Away] using away
        rw [show (state.tabs id).closed = false from isOpen] at asks
        cases asks
      · intro other apart
        exact ⟨reaches_ifAvailable _, fun absent => absent.ifAvailable apart⟩
  | releaseNodeLock id =>
    cases stepped
    have own := inv id
    exact inv.set state.serial (own.release orderly.1 orderly.2.1 orderly.2.2 isOpen)
      (others_release fun lock holds => (own.hold lock holds).2)
  | claimNodeLock id =>
    cases stepped
    have own := inv id
    unfold State.claimNodeLock
    dsimp only
    split_ifs
    · exact inv.set state.serial (own.claim isOpen orderly _) others_same
    · exact (inv.postRelease id).set state.serial (own.claim isOpen orderly _) others_same
    · exact inv.set state.serial (own.claim isOpen orderly _) others_same
  | stealAfter id =>
    simp only [react] at stepped
    split_ifs at stepped with claims
    cases stepped
    obtain ⟨own, present⟩ := (inv id).claimed claims ((state.tabs id).claims - 1)
    unfold State.stealAfter
    dsimp only
    split_ifs
    · exact inv.set state.serial own others_same
    · refine inv.set _ ?_ ?_
      · exact own.reaches (reaches_steal _) fun away => absurd away present
      · intro other apart
        exact ⟨reaches_steal _, fun absent => absent.steal apart⟩
  | deliver id =>
    simp only [react, State.deliver] at stepped
    cases found : state.locks.read id with
    | none =>
      rw [found] at stepped
      cases stepped
    | some line =>
      obtain ⟨notice, rest⟩ := line
      rw [found] at stepped
      cases stepped
      have heard := (inv id).hear state.serial found (by
        intro lock granted
        subst granted
        simpa only [Orderly, found] using orderly)
      refine inv.set _ heard.1 ?_
      intro other apart
      have later := heard.2 other apart
      exact ⟨(reaches_read found apart).trans later.1,
        fun absent => later.2 (absent.read found)⟩
  | onmessage id =>
    simp only [react] at stepped
    split_ifs at stepped with asks
    cases stepped
    have own := (inv id).asked ((state.tabs id).asks - 1)
    unfold State.onmessage
    dsimp only
    split_ifs with both
    · simp only [Bool.and_eq_true] at both
      exact inv.set state.serial (own.onmessage both.1) others_same
    · exact inv.set state.serial own others_same
  | settled id seat =>
    simp only [react] at stepped
    split_ifs at stepped with mem
    cases stepped
    have own := inv id
    exact inv.set state.serial (own.settled mem)
      (others_release fun lock holds => (own.hold lock holds).2)
  | die id =>
    cases stepped
    refine inv.set state.serial (TabInv.closed absent_leave) ?_
    intro other apart
    exact ⟨reaches_leave_other apart, fun absent => absent.leave id⟩

theorem Inv.one_seat (inv : Inv state) : OneSeat state := by
  constructor
  · intro id held
    obtain ⟨live, sits⟩ := (inv id).sits
    obtain ⟨lock, here, holds, -, -⟩ := sits.held held
    refine ⟨lock, holds, ((inv id).hold lock holds).2, ?_⟩
    have replay := sits.replay
    rw [here] at replay
    rcases replay.seated with seat | told
    · exact Or.inl (holder_of_seatOf seat).1
    · exact Or.inr told
  · intro id released
    have away := (inv id).away (Or.inl released)
    exact ⟨away.2.2, away.1.seat⟩
  · intro id finish mem
    exact (inv id).ends finish mem
  · intro id isOpen lock mem owns
    exact (inv id).stolen isOpen lock mem owns

local instance : LawfulBEq (Request TabId) := inferInstance

instance (state : State) (event : Event) : Decidable (Orderly state event) :=
  match event with
  | .releaseNodeLock _ => inferInstanceAs (Decidable (_ ∧ _ ∧ _))
  | .claimNodeLock _ => inferInstanceAs (Decidable (_ = _))
  | .deliver id =>
    match found : state.locks.read id with
    | some (.granted lock, rest) =>
      decidable_of_iff (lock.request ∉ (state.tabs id).withdrawn →
          (state.tabs id).teardowns = [] ∧ (lock.request.steal = true →
            ∀ queued ∈ (state.tabs id).queuedAbort, rest.Pending queued))
        (by simp only [Orderly, found])
    | some (.unavailable _, _) => isTrue (by simp only [Orderly, found])
    | some (.aborted _, _) => isTrue (by simp only [Orderly, found])
    | none => isTrue (by simp only [Orderly, found])
  | .acquireNodeLock _ | .stealAfter _ | .onmessage _ | .settled _ _ | .die _ => isTrue trivial

theorem orderly_runs_keep_one_seat (events : List Event) (final : State)
    (orderly : Meets step Orderly State.start events)
    (ran : run step State.start events = some final) : OneSeat final :=
  (run_keeps (fun _ _ _ inv meets stepped => Inv.step inv meets stepped) Inv.start orderly
    ran).one_seat

def sampleEvents : List Event :=
  [.acquireNodeLock 0, .deliver 0, .acquireNodeLock 1, .deliver 1, .claimNodeLock 1,
    .stealAfter 1, .deliver 1, .deliver 0, .onmessage 0, .acquireNodeLock 0, .deliver 0,
    .releaseNodeLock 1, .deliver 0]

theorem sample_one_seat : ∃ final, run step State.start sampleEvents = some final ∧
    (final.tabs 0).holdsNodeLock = true ∧ (final.tabs 0).torn ≠ [] ∧ OneSeat final := by
  have sampled : ((run step State.start sampleEvents).map fun final =>
      decide ((final.tabs 0).holdsNodeLock = true ∧ (final.tabs 0).torn ≠ [])) = some true := by
    decide +kernel
  obtain ⟨final, ran, shape⟩ := Option.map_eq_some_iff.mp sampled
  have shape := of_decide_eq_true shape
  have orderly : Meets step Orderly State.start sampleEvents := by decide +kernel
  exact ⟨final, ran, shape.1, shape.2, orderly_runs_keep_one_seat sampleEvents final orderly ran⟩

def loggedOutEvents : List Event :=
  [.acquireNodeLock 0, .deliver 0, .acquireNodeLock 1, .deliver 1, .releaseNodeLock 1,
    .releaseNodeLock 0, .deliver 1]

def lateClaimEvents : List Event :=
  [.acquireNodeLock 0, .deliver 0, .acquireNodeLock 1, .claimNodeLock 1, .deliver 1,
    .releaseNodeLock 1, .stealAfter 1, .deliver 1]

def slowTeardownEvents : List Event :=
  [.acquireNodeLock 0, .deliver 0, .acquireNodeLock 1, .deliver 1, .claimNodeLock 1,
    .onmessage 0, .acquireNodeLock 0, .deliver 0, .stealAfter 1, .deliver 1, .deliver 0,
    .releaseNodeLock 1, .deliver 0, .settled 0 (some ⟨0, ⟨0, 0, false⟩⟩)]

def staleAbortEvents : List Event :=
  [.acquireNodeLock 0, .deliver 0, .acquireNodeLock 1, .deliver 1, .releaseNodeLock 0,
    .deliver 1, .releaseNodeLock 1, .claimNodeLock 1, .stealAfter 1, .deliver 1,
    .releaseNodeLock 1, .acquireNodeLock 1, .deliver 1, .acquireNodeLock 0, .deliver 0,
    .claimNodeLock 0, .stealAfter 0, .deliver 0, .deliver 1]

def unheardClaimEvents : List Event :=
  [.claimNodeLock 0, .stealAfter 0, .deliver 0, .acquireNodeLock 1, .deliver 1, .claimNodeLock 1,
    .stealAfter 1, .deliver 0]

theorem reaches_wrong_seat {events : List Event} (wrong : State → Bool)
    (reached : (run step State.start events).map wrong = some true)
    (breaks : ∀ final, wrong final = true → ¬OneSeat final) :
    ∃ final, run step State.start events = some final ∧ ¬OneSeat final := by
  obtain ⟨final, ran, shows⟩ := Option.map_eq_some_iff.mp reached
  exact ⟨final, ran, breaks final shows⟩

def seatedAfterRelease (state : State) : Bool :=
  decide ((state.tabs 1).released = true ∧ (state.tabs 1).holdsNodeLock = true)

theorem not_one_seat_of_released (state : State) (shows : seatedAfterRelease state = true) :
    ¬OneSeat state := by
  have shows := of_decide_eq_true shows
  intro one
  rw [(one.released 1 shows.1).1] at shows
  exact absurd shows.2 nofun

theorem runs_reach_wrong_seats :
    [loggedOutEvents, lateClaimEvents, slowTeardownEvents, staleAbortEvents,
      unheardClaimEvents].Forall fun events =>
        ∃ final, run step State.start events = some final ∧ ¬OneSeat final := by
  refine ⟨?_, ?_, ?_, ?_, ?_⟩
  · exact reaches_wrong_seat seatedAfterRelease (by decide +kernel) not_one_seat_of_released
  · exact reaches_wrong_seat seatedAfterRelease (by decide +kernel) not_one_seat_of_released
  · refine reaches_wrong_seat (fun state => decide (∃ finish ∈ (state.tabs 0).ends,
      finish.2 ≠ none ∧ finish.2 ≠ finish.1)) (by decide +kernel) ?_
    intro final shows one
    obtain ⟨finish, mem, given, other⟩ := of_decide_eq_true shows
    rcases one.ends 0 finish mem with none | same
    · exact given none
    · exact other same
  · refine reaches_wrong_seat (fun state => decide ((state.tabs 1).holdsNodeLock = true ∧
      state.locks.seatOf 1 = none ∧ state.locks.notices 1 = [])) (by decide +kernel) ?_
    intro final shows one
    obtain ⟨held, seat, quiet⟩ := of_decide_eq_true shows
    obtain ⟨lock, -, owns, stands | told⟩ := one.held 1 held
    · rw [seatOf_some stands, if_pos owns] at seat
      cases seat
    · rw [quiet] at told
      cases told
  · refine reaches_wrong_seat (fun state => decide ((state.tabs 0).closed = false ∧
      (∃ lock ∈ state.locks.stolen, lock.request.owner = 0) ∧ (state.tabs 0).torn = [] ∧
        state.locks.notices 0 = [] ∧ (state.tabs 0).withdrawn = [])) (by decide +kernel) ?_
    intro final shows one
    obtain ⟨isOpen, ⟨lock, stolen, owns⟩, torn, quiet, kept⟩ := of_decide_eq_true shows
    have told := one.stolen 0 isOpen lock stolen owns
    simp [torn, quiet, kept] at told

end AwfulChat.NodeLock
