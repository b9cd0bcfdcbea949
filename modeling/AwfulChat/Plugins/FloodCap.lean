import AwfulChat.Library.OrderedMap
import Mathlib.Algebra.Order.Field.Rat
import Mathlib.Data.List.Dedup
import Mathlib.Data.List.Perm.Subperm
import Mathlib.Tactic.Linarith

/-!
# The caps on plugin traffic

The receiving side of `flood-cap.ts`: a window of fixed length by key, started by whichever message
finds none open, in which a message counts once. Times are in milliseconds.
-/

namespace AwfulChat.Plugins

open Library Library.OrderedMap List Option

set_option autoImplicit false

def FLOOD_MAX_KEYS : Nat := 256

structure FloodWindow (Id : Type) where
  resetAt : ℚ
  count : Nat
  ids : List Id

structure FloodCap (Key Id : Type) where
  windows : OrderedMap Key (FloodWindow Id)
  sweepAt : ℚ

/-- One call of the cap. -/
structure Arrival (Key Id : Type) where
  key : Key
  id : Option Id
  time : ℚ

section Cap

variable {Key Id : Type} [DecidableEq Key] [DecidableEq Id] (limit : Nat) (windowMs : ℚ)

def createFloodCap : FloodCap Key Id := ⟨.empty, 0⟩

/-- The windows that have ended are dropped once there are many, at most once a window. -/
def FloodCap.sweep (cap : FloodCap Key Id) (now : ℚ) : FloodCap Key Id :=
  if FLOOD_MAX_KEYS < cap.windows.size ∧ cap.sweepAt ≤ now then
    { windows := cap.windows.keep fun key =>
        (cap.windows.get key).any fun window => decide (now < window.resetAt)
      sweepAt := now + windowMs }
  else cap

/-- The window of a key that has not ended. -/
def FloodCap.live (cap : FloodCap Key Id) (now : ℚ) (key : Key) : Option (FloodWindow Id) :=
  (cap.windows.get key).filter fun window => decide (now < window.resetAt)

/-- Whether a window lets a message through, and what it is after that. -/
def FloodWindow.admitMessage (window : FloodWindow Id) (id : Option Id) : Bool × FloodWindow Id :=
  if id.any fun found => decide (found ∈ window.ids) then (true, window)
  else if limit ≤ window.count then (false, window)
  else (true, { window with
    count := window.count + 1
    ids := window.ids ++ id.toList })

def FloodCap.call (cap : FloodCap Key Id) (arrival : Arrival Key Id) : Bool × FloodCap Key Id :=
  let swept := cap.sweep windowMs arrival.time
  let window := (swept.live arrival.time arrival.key).getD ⟨arrival.time + windowMs, 0, []⟩
  let answer := window.admitMessage limit arrival.id
  (answer.1, { swept with windows := swept.windows.set arrival.key answer.2 })

def verdicts : FloodCap Key Id → List (Arrival Key Id) → List Bool
  | _, [] => []
  | cap, arrival :: rest =>
    let called := cap.call limit windowMs arrival
    called.1 :: verdicts called.2 rest

/-- The ids let through in each window of one key, the newest first. -/
structure Watched (Key Id : Type) where
  cap : FloodCap Key Id
  passed : List (List Id)

def Watched.call (key : Key) (watched : Watched Key Id) (arrival : Arrival Key Id) :
    Watched Key Id :=
  let called := watched.cap.call limit windowMs arrival
  if arrival.key = key then
    let through := if called.1 then arrival.id.toList else []
    match (watched.cap.sweep windowMs arrival.time).live arrival.time key, watched.passed with
    | some _, current :: earlier => ⟨called.2, (current ++ through) :: earlier⟩
    | _, passed => ⟨called.2, through :: passed⟩
  else ⟨called.2, watched.passed⟩

def passedIn (key : Key) (traffic : List (Arrival Key Id)) : List (List Id) :=
  (traffic.foldl (Watched.call limit windowMs key) ⟨createFloodCap, []⟩).passed

end Cap

section Windows

variable {Key Id : Type} [DecidableEq Key] {limit : Nat} {windowMs : ℚ} {cap : FloodCap Key Id}
  {now : ℚ} {key : Key}

theorem sweep_live (cap : FloodCap Key Id) (now : ℚ) (key : Key) :
    (cap.sweep windowMs now).live now key = cap.live now key := by
  unfold FloodCap.sweep
  split_ifs
  · unfold FloodCap.live
    dsimp only
    rw [get_keep]
    cases cap.windows.get key with
    | none => simp
    | some window =>
      by_cases open_still : now < window.resetAt <;> simp [open_still, Option.filter]
  · rfl

variable {window : FloodWindow Id}

theorem sweep_get (found : (cap.sweep windowMs now).windows.get key = some window) :
    cap.windows.get key = some window := by
  unfold FloodCap.sweep at found
  split_ifs at found
  · dsimp only at found
    rw [get_keep] at found
    split_ifs at found
    exact found
  · exact found

theorem live_some :
    cap.live now key = some window ↔ cap.windows.get key = some window ∧ now < window.resetAt := by
  unfold FloodCap.live
  rw [filter_eq_some_iff, decide_eq_true_iff]

/-- A window has let through no more than it counted, and counted no more than its limit. -/
structure FloodWindow.Bounded (limit : Nat) (window : FloodWindow Id) : Prop where
  listed : window.ids.length ≤ window.count
  few : window.count ≤ limit

theorem bounded_fresh (resetAt : ℚ) : (⟨resetAt, 0, []⟩ : FloodWindow Id).Bounded limit :=
  ⟨Nat.le_refl 0, Nat.zero_le limit⟩

variable [DecidableEq Id]

theorem call_get (cap : FloodCap Key Id) (arrival : Arrival Key Id) :
    (cap.call limit windowMs arrival).2.windows.get arrival.key =
      some (((cap.live arrival.time arrival.key).getD ⟨arrival.time + windowMs, 0, []⟩).admitMessage
        limit arrival.id).2 := by
  unfold FloodCap.call
  dsimp only
  rw [get_set_self, sweep_live]

theorem call_answer (cap : FloodCap Key Id) (arrival : Arrival Key Id) :
    (cap.call limit windowMs arrival).1 =
      (((cap.live arrival.time arrival.key).getD ⟨arrival.time + windowMs, 0, []⟩).admitMessage
        limit arrival.id).1 := by
  unfold FloodCap.call
  dsimp only
  rw [sweep_live]

theorem call_get_other (arrival : Arrival Key Id) (other : arrival.key ≠ key)
    (found : (cap.call limit windowMs arrival).2.windows.get key = some window) :
    cap.windows.get key = some window := by
  unfold FloodCap.call at found
  dsimp only at found
  rw [get_set_other _ _ _ _ other.symm] at found
  exact sweep_get found

theorem FloodWindow.Bounded.admitted (bounded : window.Bounded limit)
    (id : Option Id) : (window.admitMessage limit id).2.Bounded limit := by
  unfold FloodWindow.admitMessage
  split_ifs with known full
  · exact bounded
  · exact bounded
  · refine ⟨?_, Nat.lt_of_not_le full⟩
    dsimp only
    rw [length_append]
    have one : id.toList.length ≤ 1 := by cases id <;> simp
    exact Nat.add_le_add bounded.listed one

theorem ids_kept (limit : Nat) (window : FloodWindow Id) (id : Option Id) :
    window.ids ⊆ (window.admitMessage limit id).2.ids := by
  unfold FloodWindow.admitMessage
  split_ifs
  · exact fun _ listed => listed
  · exact fun _ listed => listed
  · exact subset_append_left _ _

theorem through_listed (limit : Nat) (window : FloodWindow Id) (id : Option Id) :
    (if (window.admitMessage limit id).1 = true then id.toList else []) ⊆
      (window.admitMessage limit id).2.ids := by
  unfold FloodWindow.admitMessage
  by_cases known : (id.any fun found => decide (found ∈ window.ids)) = true
  · rw [if_pos known]
    intro found new
    cases id with
    | none => cases new
    | some other =>
      have same : found = other := mem_singleton.mp new
      rw [same]
      simpa using known
  · rw [if_neg known]
    by_cases full : limit ≤ window.count
    · rw [if_pos full]
      exact nil_subset _
    · rw [if_neg full]
      exact subset_append_right _ _

/-- Every window of the cap is bounded, and holds what the newest window of the watched key let
through; no window of that key let through more than the limit. -/
structure WatchInv (limit : Nat) (key : Key) (watched : Watched Key Id) : Prop where
  bounded : ∀ window, watched.cap.windows.get key = some window → window.Bounded limit
  current : ∀ window, watched.cap.windows.get key = some window →
    ∃ newest earlier, watched.passed = newest :: earlier ∧ newest ⊆ window.ids
  few : ∀ ids ∈ watched.passed, ids.dedup.length ≤ limit

theorem dedup_length_le {ids among : List Id} (within : ids ⊆ among) :
    ids.dedup.length ≤ among.length := by
  have inside : ids.dedup ⊆ among := fun id mem => within (mem_dedup.mp mem)
  exact (subperm_of_subset (nodup_dedup ids) inside).length_le

theorem WatchInv.call {watched : Watched Key Id} (held : WatchInv limit key watched)
    (arrival : Arrival Key Id) : WatchInv limit key (watched.call limit windowMs key arrival) := by
  unfold Watched.call
  dsimp only
  by_cases own : arrival.key = key
  · rw [if_pos own]
    subst own
    rw [sweep_live, call_answer]
    have after : (watched.cap.call limit windowMs arrival).2.windows.get arrival.key = some _ :=
      call_get watched.cap arrival
    cases shown : watched.cap.live arrival.time arrival.key with
    | none =>
      rw [shown, getD_none] at after
      have fresh : FloodWindow.Bounded limit
          (⟨arrival.time + windowMs, 0, []⟩ : FloodWindow Id) := bounded_fresh _
      have bounded := fresh.admitted arrival.id
      have through := through_listed limit
        (⟨arrival.time + windowMs, 0, []⟩ : FloodWindow Id) arrival.id
      refine ⟨?_, ?_, ?_⟩
      · intro window found
        rw [Option.some.inj (after.symm.trans found)] at bounded
        exact bounded
      · intro window found
        rw [Option.some.inj (after.symm.trans found)] at through
        exact ⟨_, _, rfl, through⟩
      · intro ids mem
        rcases mem_cons.mp mem with rfl | earlier
        · exact (dedup_length_le through).trans (bounded.listed.trans bounded.few)
        · exact held.few ids earlier
    | some open_window =>
      rw [shown, getD_some] at after
      obtain ⟨there, -⟩ := live_some.mp shown
      have bounded := (held.bounded open_window there).admitted arrival.id
      have through := through_listed limit open_window arrival.id
      have kept := ids_kept limit open_window arrival.id
      obtain ⟨newest, earlier, passed, inside⟩ := held.current open_window there
      rw [passed]
      dsimp only [getD_some]
      have all : newest ++ (if (open_window.admitMessage limit arrival.id).1 = true then
          arrival.id.toList else []) ⊆ (open_window.admitMessage limit arrival.id).2.ids :=
        append_subset.mpr ⟨fun _ mem => kept (inside mem), through⟩
      refine ⟨?_, ?_, ?_⟩
      · intro window found
        rw [Option.some.inj (after.symm.trans found)] at bounded
        exact bounded
      · intro window found
        rw [Option.some.inj (after.symm.trans found)] at all
        exact ⟨_, _, rfl, all⟩
      · intro ids mem
        rcases mem_cons.mp mem with rfl | before
        · exact (dedup_length_le all).trans (bounded.listed.trans bounded.few)
        · refine held.few ids ?_
          rw [passed]
          exact mem_cons_of_mem _ before
  · rw [if_neg own]
    refine ⟨?_, ?_, held.few⟩
    · intro window found
      exact held.bounded window (call_get_other arrival own found)
    · intro window found
      exact held.current window (call_get_other arrival own found)

theorem few_ids_pass (limit : Nat) (windowMs : ℚ) (key : Key) (traffic : List (Arrival Key Id)) :
    ∀ ids ∈ passedIn limit windowMs key traffic, ids.dedup.length ≤ limit := by
  have held : WatchInv limit key
      (traffic.foldl (Watched.call limit windowMs key) ⟨createFloodCap, []⟩) := by
    induction traffic using List.reverseRecOn with
    | nil =>
      refine ⟨?_, ?_, ?_⟩
      · nofun
      · nofun
      · nofun
    | append_singleton before arrival ih =>
      rw [foldl_append]
      exact ih.call arrival
  exact held.few

end Windows

end AwfulChat.Plugins
