import Mathlib.Data.List.Nodup

/-!
# A lock manager with one lock

One named lock, granted in the order of the requests, that a request may ask for only if it is
free and may take by force. What the manager tells an owner waits in that owner's own line of
notices until the owner reads it. `Replay` says what an owner has lived through once it has read
a line; `Extends` says what one call of the manager adds to it.
-/

namespace AwfulChat.Library

open List Option Function

set_option autoImplicit false

variable {Owner : Type*}

structure Request (Owner : Type*) where
  owner : Owner
  serial : Nat
  steal : Bool
  deriving DecidableEq

/-- A granted request. No two grants share a number. -/
structure Lock (Owner : Type*) where
  id : Nat
  request : Request Owner
  deriving DecidableEq

inductive Notice (Owner : Type*)
  | granted (lock : Lock Owner)
  | unavailable (request : Request Owner)
  | aborted (lock : Lock Owner)
  deriving DecidableEq

def grants : List (Notice Owner) → List (Lock Owner)
  | [] => []
  | .granted lock :: rest => lock :: grants rest
  | _ :: rest => grants rest

theorem grants_append (first second : List (Notice Owner)) :
    grants (first ++ second) = grants first ++ grants second := by
  induction first with
  | nil => rfl
  | cons notice rest ih =>
    cases notice <;> simp [grants, ih]

variable {notices : List (Notice Owner)}

theorem mem_grants {lock : Lock Owner} :
    lock ∈ grants notices ↔ .granted lock ∈ notices := by
  induction notices with
  | nil => simp [grants]
  | cons notice rest ih =>
    cases notice <;> simp [grants, ih]

/-- Reading the notices turns a seat `live` into the seat `final`. -/
def Replay : Option (Lock Owner) → List (Notice Owner) → Option (Lock Owner) → Prop
  | live, [], final => live = final
  | live, .unavailable _ :: rest, final => Replay live rest final
  | live, .granted lock :: rest, final => live = none ∧ Replay (some lock) rest final
  | live, .aborted lock :: rest, final => live = some lock ∧ Replay none rest final

theorem Replay.append {live middle final : Option (Lock Owner)} {first second : List (Notice Owner)}
    (left : Replay live first middle)
    (right : Replay middle second final) : Replay live (first ++ second) final := by
  induction first generalizing live with
  | nil =>
    cases left
    exact right
  | cons notice rest ih =>
    cases notice with
    | granted lock => exact ⟨left.1, ih left.2⟩
    | unavailable request => exact @ih live left
    | aborted lock => exact ⟨left.1, ih left.2⟩

theorem Replay.stood {live : Option (Lock Owner)} {lock : Lock Owner}
    (replay : Replay live notices (some lock))
    (old : lock ∉ grants notices) : live = some lock ∧ Replay none notices none := by
  induction notices generalizing live with
  | nil => exact ⟨replay, rfl⟩
  | cons notice rest ih =>
    cases notice with
    | granted other =>
      have later := ih replay.2 fun mem => old (mem_cons_of_mem _ mem)
      have same : other = lock := Option.some.inj later.1
      exact absurd (by rw [same]; exact mem_cons_self) old
    | unavailable request => exact @ih live replay old
    | aborted other => exact absurd (ih replay.2 old).1 nofun

theorem Replay.seated {lock : Lock Owner} {final : Option (Lock Owner)}
    (replay : Replay (some lock) notices final) :
    final = some lock ∨ .aborted lock ∈ notices := by
  induction notices with
  | nil => exact Or.inl replay.symm
  | cons notice rest ih =>
    cases notice with
    | granted other => exact absurd replay.1 nofun
    | unavailable request =>
      rcases ih replay with stands | aborted
      · exact Or.inl stands
      · exact Or.inr (mem_cons_of_mem _ aborted)
    | aborted other =>
      cases replay.1
      exact Or.inr mem_cons_self

structure LockManager (Owner : Type*) where
  holder : Option (Lock Owner)
  queue : List (Request Owner)
  nextLock : Nat
  notices : Owner → List (Notice Owner)
  /-- The locks taken from their holders by force, for the statements only. -/
  stolen : List (Lock Owner)

namespace LockManager

variable [DecidableEq Owner]

def fresh : LockManager Owner := ⟨none, [], 0, fun _ => [], []⟩

def post (manager : LockManager Owner) (owner : Owner) (notice : Notice Owner) :
    LockManager Owner :=
  { manager with
    notices := Function.update manager.notices owner (manager.notices owner ++ [notice]) }

/-- Give the free lock to a request. -/
def grantTo (manager : LockManager Owner) (request : Request Owner) : LockManager Owner :=
  let lock : Lock Owner := ⟨manager.nextLock, request⟩
  { manager.post request.owner (.granted lock) with
    holder := some lock, nextLock := manager.nextLock + 1 }

/-- The first of the queue gets a lock that is free. -/
def next (manager : LockManager Owner) : LockManager Owner :=
  match manager.holder, manager.queue with
  | none, request :: rest => { manager with queue := rest }.grantTo request
  | _, _ => manager

def ifAvailable (manager : LockManager Owner) (request : Request Owner) : LockManager Owner :=
  if manager.holder.isNone && manager.queue.isEmpty then manager.grantTo request
  else manager.post request.owner (.unavailable request)

def enqueue (manager : LockManager Owner) (request : Request Owner) : LockManager Owner :=
  { manager with queue := manager.queue ++ [request] }.next

def abortHolder (manager : LockManager Owner) : LockManager Owner :=
  match manager.holder with
  | none => manager
  | some lock =>
    { manager.post lock.request.owner (.aborted lock) with
      holder := none, stolen := lock :: manager.stolen }

def steal (manager : LockManager Owner) (request : Request Owner) : LockManager Owner :=
  manager.abortHolder.grantTo request

def freed (manager : LockManager Owner) : LockManager Owner := { manager with holder := none }

/-- The holder's callback settled. A lock that is gone already stays gone. -/
def release (manager : LockManager Owner) (lock : Lock Owner) : LockManager Owner :=
  if manager.holder = some lock then manager.freed.next else manager

def releaseAny (manager : LockManager Owner) : Option (Lock Owner) → LockManager Owner
  | none => manager
  | some lock => manager.release lock

def withdraw (manager : LockManager Owner) (request : Request Owner) : LockManager Owner :=
  { manager with queue := manager.queue.filter fun other => decide (other ≠ request) }

/-- Whether the owner has not been told yet what became of its request. -/
def Pending (manager : LockManager Owner) (request : Request Owner) : Prop :=
  request ∈ manager.queue ∨
    ∃ lock ∈ grants (manager.notices request.owner), lock.request = request

instance (manager : LockManager Owner) (request : Request Owner) :
    Decidable (manager.Pending request) :=
  inferInstanceAs (Decidable (_ ∨ _))

def read (manager : LockManager Owner) (owner : Owner) :
    Option (Notice Owner × LockManager Owner) :=
  match manager.notices owner with
  | [] => none
  | notice :: rest =>
    some (notice, { manager with notices := Function.update manager.notices owner rest })

def seatOf (manager : LockManager Owner) (owner : Owner) : Option (Lock Owner) :=
  manager.holder.filter fun lock => decide (lock.request.owner = owner)

/-- An owner that ends loses its requests, its lock and its notices. -/
def leave (manager : LockManager Owner) (owner : Owner) : LockManager Owner :=
  { manager with
    queue := manager.queue.filter fun request => decide (request.owner ≠ owner)
    holder := if (manager.seatOf owner).isSome then none else manager.holder
    notices := Function.update manager.notices owner [] }.next

/-- What the manager did to one owner: the notices it sent it, which tell of every change of
its seat, of every lock stolen from it, and of grants to it under new numbers only. -/
structure Extends (manager later : LockManager Owner) (owner : Owner)
    (news : List (Notice Owner)) : Prop where
  notices : later.notices owner = manager.notices owner ++ news
  seat : Replay (manager.seatOf owner) news (later.seatOf owner)
  numbers : manager.nextLock ≤ later.nextLock
  once : (grants news).Nodup
  new : ∀ lock ∈ grants news,
    manager.nextLock ≤ lock.id ∧ lock.id < later.nextLock ∧ lock.request.owner = owner
  stolen : ∀ lock ∈ later.stolen,
    lock ∈ manager.stolen ∨ (lock.request.owner = owner → .aborted lock ∈ news)

def Reaches (manager later : LockManager Owner) (owner : Owner) : Prop :=
  ∃ news, Extends manager later owner news

/-- The owner waits for nothing, has nothing to read and does not hold the lock. -/
structure Absent (manager : LockManager Owner) (owner : Owner) : Prop where
  notices : manager.notices owner = []
  queue : ∀ request ∈ manager.queue, request.owner ≠ owner
  holder : ∀ lock, manager.holder = some lock → lock.request.owner ≠ owner

structure Numbered (manager : LockManager Owner) (owner : Owner) : Prop where
  once : (grants (manager.notices owner)).Nodup
  below : ∀ lock ∈ grants (manager.notices owner),
    lock.id < manager.nextLock ∧ lock.request.owner = owner

/-- A lock whose grant the owner has read. -/
def Known (manager : LockManager Owner) (owner : Owner) (lock : Lock Owner) : Prop :=
  lock.id < manager.nextLock ∧ lock ∉ grants (manager.notices owner)

variable {manager later : LockManager Owner} {owner : Owner}

theorem seatOf_none (free : manager.holder = none) : manager.seatOf owner = none := by
  simp [seatOf, free]

variable {lock : Lock Owner} {notice : Notice Owner}

theorem seatOf_some (held : manager.holder = some lock) :
    manager.seatOf owner = if lock.request.owner = owner then some lock else none := by
  simp [seatOf, held, Option.filter]

theorem holder_of_seatOf (seat : manager.seatOf owner = some lock) :
    manager.holder = some lock ∧ lock.request.owner = owner := by
  simpa [seatOf, filter_eq_some_iff] using seat

theorem Reaches.refl : Reaches manager manager owner := by
  refine ⟨[], ?_⟩
  constructor
  · simp
  · exact rfl
  · exact Nat.le_refl _
  · exact nodup_nil
  · simp [grants]
  · intro lock mem
    exact Or.inl mem

theorem Reaches.trans {last : LockManager Owner} (first : Reaches manager later owner)
    (second : Reaches later last owner) : Reaches manager last owner := by
  obtain ⟨news, first⟩ := first
  obtain ⟨more, second⟩ := second
  have numbers := first.numbers
  have further := second.numbers
  refine ⟨news ++ more, ?_⟩
  constructor
  · rw [second.notices, first.notices, append_assoc]
  · exact first.seat.append second.seat
  · omega
  · rw [grants_append, nodup_append]
    refine ⟨first.once, second.once, ?_⟩
    intro lock mem other found same
    have low := (first.new lock mem).2.1
    have high := (second.new other found).1
    rw [same] at low
    omega
  · intro lock mem
    rw [grants_append, mem_append] at mem
    rcases mem with mem | mem
    · obtain ⟨low, high, owns⟩ := first.new lock mem
      exact ⟨low, by omega, owns⟩
    · obtain ⟨low, high, owns⟩ := second.new lock mem
      exact ⟨by omega, high, owns⟩
  · intro lock mem
    rcases second.stolen lock mem with known | told
    · rcases first.stolen lock known with old | told
      · exact Or.inl old
      · exact Or.inr fun owns => mem_append_left _ (told owns)
    · exact Or.inr fun owns => mem_append_right _ (told owns)

theorem reaches_queue (queue : List (Request Owner)) :
    Reaches manager { manager with queue := queue } owner := by
  exact ⟨[], by simp, rfl, Nat.le_refl _, nodup_nil, by simp [grants],
    fun lock mem => Or.inl mem⟩

theorem notices_post (manager : LockManager Owner) (owner receiver : Owner)
    (notice : Notice Owner) :
    (manager.post receiver notice).notices owner =
      if owner = receiver then manager.notices owner ++ [notice] else manager.notices owner := by
  by_cases same : owner = receiver
  · subst same
    simp [post]
  · simp [post, same]

theorem reaches_grantTo (free : manager.holder = none) (request : Request Owner) :
    Reaches manager (manager.grantTo request) owner := by
  have before : manager.seatOf owner = none := seatOf_none free
  have after : (manager.grantTo request).seatOf owner =
      if request.owner = owner then some ⟨manager.nextLock, request⟩ else none := by
    have held : (manager.grantTo request).holder = some ⟨manager.nextLock, request⟩ := rfl
    exact seatOf_some held
  have told : (manager.grantTo request).notices owner =
      if owner = request.owner then
        manager.notices owner ++ [.granted ⟨manager.nextLock, request⟩]
      else manager.notices owner :=
    notices_post _ _ _ _
  by_cases own : request.owner = owner
  · rw [if_pos own] at after
    rw [if_pos own.symm] at told
    refine ⟨[.granted ⟨manager.nextLock, request⟩], told, ?_, Nat.le_succ _, ?_, ?_, ?_⟩
    · rw [before, after]
      exact ⟨rfl, rfl⟩
    · exact nodup_singleton _
    · intro lock mem
      cases mem_singleton.mp mem
      exact ⟨Nat.le_refl _, Nat.lt_succ_self _, own⟩
    · intro lock mem
      exact Or.inl mem
  · rw [if_neg own] at after
    rw [if_neg (Ne.symm own)] at told
    refine ⟨[], by rw [told, append_nil], ?_, Nat.le_succ _, nodup_nil, by simp [grants],
      fun lock mem => Or.inl mem⟩
    rw [before, after]
    exact rfl

theorem reaches_post_unavailable (receiver : Owner) (request : Request Owner) :
    Reaches manager (manager.post receiver (.unavailable request)) owner := by
  have told := notices_post manager owner receiver (.unavailable request)
  by_cases own : owner = receiver
  · rw [if_pos own] at told
    exact ⟨[.unavailable request], told, rfl, Nat.le_refl _, nodup_nil, by simp [grants],
      fun lock mem => Or.inl mem⟩
  · rw [if_neg own] at told
    exact ⟨[], by rw [told, append_nil], rfl, Nat.le_refl _, nodup_nil,
      by simp [grants], fun lock mem => Or.inl mem⟩

theorem reaches_next : Reaches manager manager.next owner := by
  unfold next
  split
  case h_1 request rest free waits =>
    have freed : { manager with queue := rest }.holder = none := free
    exact (reaches_queue rest).trans (reaches_grantTo freed request)
  case h_2 => exact Reaches.refl

variable (request : Request Owner)

theorem reaches_ifAvailable :
    Reaches manager (manager.ifAvailable request) owner := by
  unfold ifAvailable
  split_ifs with free
  · simp only [Bool.and_eq_true, isNone_iff_eq_none] at free
    exact reaches_grantTo free.1 request
  · exact reaches_post_unavailable _ _

theorem reaches_enqueue :
    Reaches manager (manager.enqueue request) owner :=
  (reaches_queue _).trans reaches_next

theorem holder_abortHolder : manager.abortHolder.holder = none := by
  unfold abortHolder
  split
  · assumption
  · rfl

theorem reaches_abortHolder : Reaches manager manager.abortHolder owner := by
  have after : manager.abortHolder.seatOf owner = none := seatOf_none holder_abortHolder
  unfold abortHolder at after ⊢
  split at after
  case h_1 => exact Reaches.refl
  case h_2 lock held =>
    have before : manager.seatOf owner = if lock.request.owner = owner then some lock else none :=
      seatOf_some held
    have told := notices_post manager owner lock.request.owner (.aborted lock)
    by_cases own : lock.request.owner = owner
    · rw [if_pos own] at before
      rw [if_pos own.symm] at told
      refine ⟨[.aborted lock], told, ?_, Nat.le_refl _, nodup_nil, by simp [grants], ?_⟩
      · rw [before, after]
        exact ⟨rfl, rfl⟩
      · intro other mem
        rcases mem_cons.mp mem with same | old
        · rw [same]
          exact Or.inr fun _ => mem_singleton.mpr rfl
        · exact Or.inl old
    · rw [if_neg own] at before
      rw [if_neg (Ne.symm own)] at told
      refine ⟨[], by rw [told, append_nil], ?_, Nat.le_refl _, nodup_nil,
        by simp [grants], ?_⟩
      · rw [before, after]
        exact rfl
      · intro other mem
        rcases mem_cons.mp mem with same | old
        · rw [same]
          exact Or.inr fun owns => absurd owns own
        · exact Or.inl old

theorem reaches_steal :
    Reaches manager (manager.steal request) owner :=
  reaches_abortHolder.trans (reaches_grantTo holder_abortHolder request)

theorem reaches_withdraw :
    Reaches manager (manager.withdraw request) owner :=
  reaches_queue _

theorem reaches_freed (other : manager.seatOf owner = none) :
    Reaches manager manager.freed owner := by
  refine ⟨[], by simp [freed], ?_, Nat.le_refl _, nodup_nil, by simp [grants],
    fun lock mem => Or.inl mem⟩
  rw [other]
  exact (seatOf_none rfl).symm

theorem reaches_release_other (other : lock.request.owner ≠ owner) :
    Reaches manager (manager.release lock) owner := by
  unfold release
  split_ifs with held
  · have away : manager.seatOf owner = none := by
      rw [seatOf_some held, if_neg other]
    exact (reaches_freed away).trans reaches_next
  · exact Reaches.refl

theorem release_own {live : Option (Lock Owner)}
    (replay : Replay live (manager.notices owner) (manager.seatOf owner))
    (owns : lock.request.owner = owner) (known : lock ∉ grants (manager.notices owner)) :
    (manager.release lock = manager.freed.next ∧
        Replay none (manager.freed.notices owner) (manager.freed.seatOf owner)) ∨
      (manager.release lock = manager ∧ manager.seatOf owner ≠ some lock) := by
  unfold release
  split_ifs with held
  · rw [seatOf_some held, if_pos owns] at replay
    refine Or.inl ⟨rfl, ?_⟩
    rw [seatOf_none (show manager.freed.holder = none from rfl)]
    exact (replay.stood known).2
  · refine Or.inr ⟨rfl, ?_⟩
    intro seat
    exact held (holder_of_seatOf seat).1

theorem reaches_leave_other {leaver : Owner} (other : leaver ≠ owner) :
    Reaches manager (manager.leave leaver) owner := by
  refine Reaches.trans ?_ reaches_next
  have same : Function.update manager.notices leaver [] owner = manager.notices owner :=
    update_of_ne other.symm _ _
  cases seat : manager.seatOf leaver with
  | none =>
    refine ⟨[], by simp [same], rfl, Nat.le_refl _, nodup_nil, by simp [grants],
      fun lock mem => Or.inl mem⟩
  | some lock =>
    have held := holder_of_seatOf seat
    refine ⟨[], by simp [same], ?_, Nat.le_refl _, nodup_nil, by simp [grants],
      fun lock mem => Or.inl mem⟩
    rw [seatOf_some held.1, held.2, if_neg other]
    exact (seatOf_none rfl).symm

namespace Absent

theorem seat (absent : manager.Absent owner) : manager.seatOf owner = none := by
  cases held : manager.holder with
  | none => exact seatOf_none held
  | some lock => rw [seatOf_some held, if_neg (absent.holder lock held)]

theorem post {receiver : Owner} (absent : manager.Absent owner) (other : receiver ≠ owner)
    (notice : Notice Owner) : (manager.post receiver notice).Absent owner := by
  refine ⟨?_, absent.queue, absent.holder⟩
  rw [notices_post, if_neg other.symm]
  exact absent.notices

variable {request : Request Owner}

section

variable (absent : manager.Absent owner)
include absent

theorem grantTo (other : request.owner ≠ owner) : (manager.grantTo request).Absent owner := by
  have posted := absent.post other (.granted ⟨manager.nextLock, request⟩)
  refine ⟨posted.notices, posted.queue, ?_⟩
  intro lock held
  cases held
  exact other

theorem next : manager.next.Absent owner := by
  unfold LockManager.next
  split
  case h_1 request rest free waits =>
    have first : request.owner ≠ owner := by
      apply absent.queue
      rw [waits]
      exact mem_cons_self
    apply Absent.grantTo _ first
    refine ⟨absent.notices, ?_, absent.holder⟩
    intro other mem
    apply absent.queue
    rw [waits]
    exact mem_cons_of_mem _ mem
  case h_2 => exact absent

theorem ifAvailable
    (other : request.owner ≠ owner) : (manager.ifAvailable request).Absent owner := by
  unfold LockManager.ifAvailable
  split_ifs
  · exact absent.grantTo other
  · exact absent.post other _

theorem enqueue (other : request.owner ≠ owner) : (manager.enqueue request).Absent owner := by
  apply Absent.next
  refine ⟨absent.notices, ?_, absent.holder⟩
  intro found mem
  rcases mem_append.mp mem with old | new
  · exact absent.queue found old
  · rw [mem_singleton.mp new]
    exact other

theorem abortHolder : manager.abortHolder.Absent owner := by
  unfold LockManager.abortHolder
  split
  case h_1 => exact absent
  case h_2 lock held =>
    have posted := absent.post (absent.holder lock held) (.aborted lock)
    exact ⟨posted.notices, posted.queue, nofun⟩

theorem steal (other : request.owner ≠ owner) : (manager.steal request).Absent owner :=
  absent.abortHolder.grantTo other

theorem release (lock : Lock Owner) :
    (manager.release lock).Absent owner := by
  unfold LockManager.release
  split_ifs
  · apply Absent.next
    exact ⟨absent.notices, absent.queue, nofun⟩
  · exact absent

theorem withdraw (request : Request Owner) :
    (manager.withdraw request).Absent owner := by
  refine ⟨absent.notices, ?_, absent.holder⟩
  intro other mem
  exact absent.queue other (mem_of_mem_filter mem)

theorem leave (leaver : Owner) :
    (manager.leave leaver).Absent owner := by
  apply Absent.next
  refine ⟨?_, ?_, ?_⟩
  · by_cases same : owner = leaver
    · subst same
      exact update_self _ _ _
    · exact (update_of_ne same _ _).trans absent.notices
  · intro request mem
    exact absent.queue request (mem_of_mem_filter mem)
  · intro lock held
    apply absent.holder
    revert held
    split_ifs
    · nofun
    · exact id

end

end Absent

theorem absent_leave : (manager.leave owner).Absent owner := by
  apply Absent.next
  refine ⟨update_self _ _ _, ?_, ?_⟩
  · intro request mem
    simpa using (mem_filter.mp mem).2
  · intro lock held owns
    cases seat : manager.seatOf owner with
    | some other => simp [seat] at held
    | none =>
      simp only [seat, isSome_none, Bool.false_eq_true, if_false] at held
      rw [seatOf_some held, if_pos owns] at seat
      cases seat

theorem Numbered.reaches (numbered : manager.Numbered owner)
    (reaches : Reaches manager later owner) : later.Numbered owner := by
  obtain ⟨news, reaches⟩ := reaches
  have numbers := reaches.numbers
  constructor
  · rw [reaches.notices, grants_append, nodup_append]
    refine ⟨numbered.once, reaches.once, ?_⟩
    intro lock mem other found same
    have low := (numbered.below lock mem).1
    have high := (reaches.new other found).1
    rw [same] at low
    omega
  · intro lock mem
    rw [reaches.notices, grants_append, mem_append] at mem
    rcases mem with mem | mem
    · obtain ⟨low, owns⟩ := numbered.below lock mem
      exact ⟨by omega, owns⟩
    · exact (reaches.new lock mem).2

theorem Known.reaches (known : manager.Known owner lock)
    (reaches : Reaches manager later owner) : later.Known owner lock := by
  obtain ⟨news, reaches⟩ := reaches
  refine ⟨Nat.lt_of_lt_of_le known.1 reaches.numbers, ?_⟩
  rw [reaches.notices, grants_append, mem_append]
  rintro (mem | mem)
  · exact known.2 mem
  · have := (reaches.new lock mem).1
    have := known.1
    omega

theorem replay_reaches {live : Option (Lock Owner)}
    (replay : Replay live (manager.notices owner) (manager.seatOf owner))
    (reaches : Reaches manager later owner) :
    Replay live (later.notices owner) (later.seatOf owner) := by
  obtain ⟨news, reaches⟩ := reaches
  rw [reaches.notices]
  exact replay.append reaches.seat

theorem lost_reaches (known : manager.Known owner lock) (lost : manager.seatOf owner ≠ some lock)
    (reaches : Reaches manager later owner) :
    later.seatOf owner ≠ some lock := by
  obtain ⟨news, reaches⟩ := reaches
  intro seat
  have replay := reaches.seat
  rw [seat] at replay
  apply lost
  apply (replay.stood _).1
  intro mem
  have := (reaches.new lock mem).1
  have := known.1
  omega

theorem read_eq (found : manager.read owner = some (notice, later)) :
    ∃ rest, manager.notices owner = notice :: rest ∧
      later = { manager with notices := Function.update manager.notices owner rest } := by
  unfold read at found
  split at found
  case h_1 => cases found
  case h_2 head rest line =>
    cases found
    exact ⟨rest, line, rfl⟩

theorem read_kept (found : manager.read owner = some (notice, later)) :
    manager.notices owner = notice :: later.notices owner ∧
      later.seatOf owner = manager.seatOf owner ∧ later.nextLock = manager.nextLock ∧ later.stolen = manager.stolen := by
  obtain ⟨rest, line, rfl⟩ := read_eq found
  refine ⟨?_, rfl, rfl, rfl⟩
  rw [line]
  simp

theorem reaches_read {reader : Owner} (found : manager.read reader = some (notice, later))
    (other : reader ≠ owner) :
    Reaches manager later owner := by
  obtain ⟨rest, line, rfl⟩ := read_eq found
  exact ⟨[], by simp [update_of_ne other.symm], rfl, Nat.le_refl _, nodup_nil,
    by simp [grants], fun lock mem => Or.inl mem⟩

theorem Absent.read {reader : Owner} (absent : manager.Absent owner)
    (found : manager.read reader = some (notice, later)) : later.Absent owner := by
  obtain ⟨rest, line, rfl⟩ := read_eq found
  refine ⟨?_, absent.queue, absent.holder⟩
  by_cases same : owner = reader
  · subst same
    rw [absent.notices] at line
    cases line
  · exact (update_of_ne same _ _).trans absent.notices

end LockManager

end AwfulChat.Library
