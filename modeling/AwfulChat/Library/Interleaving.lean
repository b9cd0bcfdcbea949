import AwfulChat.Library.Runs
import Mathlib.Tactic.Common

/-!
# Interleaved calls over shared data

A program is a set of calls that run side by side over shared data. Between two
of its awaits a call acts alone; at an await any other call, or an event from
outside, may act. What a call relies on is a property of the shared data and of
the call alone that every move of the others keeps, so one lemma per act and one
stability lemma carry it through every interleaving.
-/

namespace AwfulChat.Library

open List Option

set_option autoImplicit false

variable {Shared Call Job Outside : Type*}

structure Program (Shared Call Job Outside : Type*) where
  /-- What a call does before its first await. -/
  start : Shared → Call → Shared × Job
  /-- One act of a call, refused once the call has returned. -/
  act : Shared → Job → Option (Shared × Job)
  outside : Shared → Outside → Option Shared

structure Pool (Shared Job : Type*) where
  shared : Shared
  jobs : List Job

inductive Turn (Call Outside : Type*) where
  | start (call : Call)
  | advance (index : Nat)
  | outside (event : Outside)

def Turn.advances (index : Nat) : Turn Call Outside → Bool
  | .advance other => decide (other = index)
  | _ => false

def Program.step (program : Program Shared Call Job Outside) (pool : Pool Shared Job) :
    Turn Call Outside → Option (Pool Shared Job)
  | .start call =>
    let started := program.start pool.shared call
    some ⟨started.1, pool.jobs ++ [started.2]⟩
  | .advance index =>
    pool.jobs[index]?.bind fun job =>
      (program.act pool.shared job).map fun acted => ⟨acted.1, pool.jobs.set index acted.2⟩
  | .outside event => (program.outside pool.shared event).map fun shared => { pool with shared }

section Step

variable {program : Program Shared Call Job Outside} {pool next : Pool Shared Job}

theorem advance_some {index : Nat} (stepped : program.step pool (.advance index) = some next) :
    ∃ job shared after, pool.jobs[index]? = some job ∧
      program.act pool.shared job = some (shared, after) ∧
      next = ⟨shared, pool.jobs.set index after⟩ := by
  simp only [Program.step, bind_eq_some_iff, map_eq_some_iff] at stepped
  obtain ⟨job, found, ⟨shared, after⟩, acted, same⟩ := stepped
  exact ⟨job, shared, after, found, acted, same.symm⟩

theorem outside_some {event : Outside} (stepped : program.step pool (.outside event) = some next) :
    ∃ shared, program.outside pool.shared event = some shared ∧ next = ⟨shared, pool.jobs⟩ := by
  simp only [Program.step, map_eq_some_iff] at stepped
  obtain ⟨shared, happened, same⟩ := stepped
  exact ⟨shared, happened, same.symm⟩

end Step

/-- `Inv` of the shared data and `Held` of each call are kept by every turn that
meets `condition`, and every such turn moves the shared data along `Moves`. -/
structure Keeps (program : Program Shared Call Job Outside)
    (condition : Pool Shared Job → Turn Call Outside → Prop)
    (Inv : Shared → Prop) (Held : Shared → Job → Prop) (Moves : Shared → Shared → Prop) : Prop where
  refl : ∀ shared, Moves shared shared
  trans : ∀ {first second third}, Moves first second → Moves second third → Moves first third
  start : ∀ {pool : Pool Shared Job} {call shared job}, condition pool (.start call) →
    Inv pool.shared → program.start pool.shared call = (shared, job) →
    Inv shared ∧ Held shared job ∧ Moves pool.shared shared
  act : ∀ {pool : Pool Shared Job} {index job shared after}, pool.jobs[index]? = some job →
    condition pool (.advance index) → Inv pool.shared → Held pool.shared job →
    program.act pool.shared job = some (shared, after) →
    Inv shared ∧ Held shared after ∧ Moves pool.shared shared
  outside : ∀ {pool : Pool Shared Job} {event shared}, condition pool (.outside event) →
    Inv pool.shared → program.outside pool.shared event = some shared →
    Inv shared ∧ Moves pool.shared shared
  stable : ∀ {before after job}, Inv before → Moves before after → Held before job → Held after job

/-- The shared data and every call of the pool are as they should be. -/
structure Pool.Good (Inv : Shared → Prop) (Held : Shared → Job → Prop) (pool : Pool Shared Job) :
    Prop where
  inv : Inv pool.shared
  held : ∀ job ∈ pool.jobs, Held pool.shared job

section Rules

variable {program : Program Shared Call Job Outside}
  {condition : Pool Shared Job → Turn Call Outside → Prop}
  {Inv : Shared → Prop} {Held : Shared → Job → Prop} {Moves : Shared → Shared → Prop}
  (keeps : Keeps program condition Inv Held Moves)

include keeps

theorem Keeps.step {pool next : Pool Shared Job} {turn : Turn Call Outside}
    (good : pool.Good Inv Held) (meets : condition pool turn)
    (stepped : program.step pool turn = some next) :
    next.Good Inv Held ∧ Moves pool.shared next.shared := by
  cases turn with
  | start call =>
    cases stepped
    obtain ⟨inv, held, moves⟩ := keeps.start meets good.inv rfl
    refine ⟨⟨inv, ?_⟩, moves⟩
    intro job mem
    rcases mem_append.mp mem with old | new
    · exact keeps.stable good.inv moves (good.held job old)
    · rw [mem_singleton.mp new]
      exact held
  | advance index =>
    obtain ⟨job, shared, after, found, acted, same⟩ := advance_some stepped
    subst same
    obtain ⟨inv, held, moves⟩ :=
      keeps.act found meets good.inv (good.held job (mem_of_getElem? found)) acted
    refine ⟨⟨inv, ?_⟩, moves⟩
    intro other mem
    rcases mem_or_eq_of_mem_set mem with old | new
    · exact keeps.stable good.inv moves (good.held other old)
    · rw [new]
      exact held
  | outside event =>
    obtain ⟨shared, happened, same⟩ := outside_some stepped
    subst same
    obtain ⟨inv, moves⟩ := keeps.outside meets good.inv happened
    exact ⟨⟨inv, fun job mem => keeps.stable good.inv moves (good.held job mem)⟩, moves⟩

theorem Keeps.run {pool final : Pool Shared Job} {turns : List (Turn Call Outside)}
    (good : pool.Good Inv Held) (meets : Meets program.step condition pool turns)
    (ran : run program.step pool turns = some final) :
    final.Good Inv Held ∧ Moves pool.shared final.shared := by
  induction turns generalizing pool with
  | nil =>
    cases ran
    exact ⟨good, keeps.refl _⟩
  | cons turn rest ih =>
    obtain ⟨next, stepped, later⟩ := run_cons ran
    obtain ⟨kept, moved⟩ := keeps.step good meets.1 stepped
    obtain ⟨final_good, moves⟩ := ih kept (meets.2 next stepped) later
    exact ⟨final_good, keeps.trans moved moves⟩

theorem Keeps.turns_bounded (left : Job → Nat) (bound : Nat)
    (fresh : ∀ shared call, left (program.start shared call).2 ≤ bound)
    (less : ∀ {shared job shared' after}, Inv shared → Held shared job →
      program.act shared job = some (shared', after) → left after < left job)
    {pool final : Pool Shared Job} {turns : List (Turn Call Outside)}
    (good : pool.Good Inv Held) (meets : Meets program.step condition pool turns)
    (ran : Library.run program.step pool turns = some final) (index : Nat) :
    turns.countP (Turn.advances index) ≤ ((pool.jobs[index]?).map left).getD bound := by
  induction turns generalizing pool with
  | nil => exact Nat.zero_le _
  | cons turn rest ih =>
    obtain ⟨next, stepped, later⟩ := run_cons ran
    have rest_le := ih (keeps.step good meets.1 stepped).1 (meets.2 next stepped) later
    cases turn with
    | start call =>
      cases stepped
      rw [countP_cons_of_neg (by simp [Turn.advances])]
      refine Nat.le_trans rest_le ?_
      rw [List.getElem?_append]
      split_ifs with inside
      · exact Nat.le_refl _
      · rw [List.getElem?_eq_none (l := pool.jobs) (by omega)]
        cases index - pool.jobs.length with
        | zero => exact fresh pool.shared call
        | succ _ => exact Nat.le_refl _
    | outside event =>
      obtain ⟨shared, -, same⟩ := outside_some stepped
      subst same
      rw [countP_cons_of_neg (by simp [Turn.advances])]
      exact rest_le
    | advance other =>
      obtain ⟨job, shared, after, found, acted, same⟩ := advance_some stepped
      subst same
      have smaller := less good.inv (good.held job (mem_of_getElem? found)) acted
      have inside := (List.getElem?_eq_some_iff.mp found).1
      by_cases here : other = index
      · subst here
        rw [countP_cons_of_pos (by simp [Turn.advances]), found]
        rw [List.getElem?_set_self inside] at rest_le
        simp only [map_some, getD_some] at rest_le ⊢
        omega
      · rw [countP_cons_of_neg (by simpa [Turn.advances] using here)]
        rwa [List.getElem?_set_ne here] at rest_le

end Rules

end AwfulChat.Library
