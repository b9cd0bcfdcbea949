import Mathlib.Data.List.Basic

/-!
# Runs of a partial step function

A component is a state type, an event type and a step function that refuses
an event it is not ready for. A run is a list of events none of which was
refused. What one step keeps, a whole run keeps; where a step keeps it only
under a condition on the state it starts from, the rule asks that condition of
every step of the run.
-/

namespace AwfulChat.Library

open List Option

set_option autoImplicit false

variable {State Event : Type*}

def run (step : State → Event → Option State) : State → List Event → Option State
  | state, [] => some state
  | state, event :: rest => (step state event).bind fun next => run step next rest

/-- Every step of the run starts from a state that meets `condition`. -/
def Meets (step : State → Event → Option State) (condition : State → Event → Prop) :
    State → List Event → Prop
  | _, [] => True
  | state, event :: rest =>
    condition state event ∧ ∀ next ∈ step state event, Meets step condition next rest

instance decidableMeets (step : State → Event → Option State) (condition : State → Event → Prop)
    [∀ state event, Decidable (condition state event)] :
    ∀ state events, Decidable (Meets step condition state events)
  | _, [] => isTrue trivial
  | state, event :: rest =>
    have later : Decidable (∀ next ∈ step state event, Meets step condition next rest) :=
      match found : step state event with
      | none => isTrue (by simp)
      | some next =>
        match decidableMeets step condition next rest with
        | isTrue holds => isTrue (by simpa using holds)
        | isFalse fails => isFalse (by simpa using fails)
    instDecidableAnd

section Rules

variable {step : State → Event → Option State} {condition : State → Event → Prop}

theorem run_cons {state final : State} {event : Event} {rest : List Event}
    (ran : run step state (event :: rest) = some final) :
    ∃ next, step state event = some next ∧ run step next rest = some final := by
  simpa only [run, bind_eq_some_iff] using ran

theorem run_append (state : State) (before after : List Event) :
    run step state (before ++ after) =
      (run step state before).bind fun middle => run step middle after := by
  induction before generalizing state with
  | nil => rfl
  | cons event rest ih =>
    simp only [cons_append, run]
    cases step state event with
    | none => rfl
    | some next => exact ih next

theorem Meets.cons {state next : State} {event : Event} {rest : List Event}
    (holds : condition state event) (stepped : step state event = some next)
    (later : Meets step condition next rest) : Meets step condition state (event :: rest) := by
  refine ⟨holds, ?_⟩
  intro other found
  rw [stepped] at found
  cases found
  exact later

variable {events : List Event}

theorem run_keeps {Inv : State → Prop}
    (keeps : ∀ state event next, Inv state → condition state event →
      step state event = some next → Inv next)
    {state final : State}
    (holds : Inv state) (meets : Meets step condition state events)
    (ran : run step state events = some final) : Inv final := by
  induction events generalizing state with
  | nil =>
    cases ran
    exact holds
  | cons event rest ih =>
    obtain ⟨next, stepped, later⟩ := run_cons ran
    exact ih (keeps state event next holds meets.1 stepped)
      (meets.2 next stepped) later

theorem meets_of_forall (always : ∀ state event, condition state event) (state : State)
    (events : List Event) : Meets step condition state events := by
  induction events generalizing state with
  | nil => trivial
  | cons event rest ih => exact ⟨always state event, fun next _ => ih next⟩

theorem meets_of_events {allowed : Event → Prop} (all : ∀ event ∈ events, allowed event)
    (state : State) :
    Meets step (fun _ event => allowed event) state events := by
  induction events generalizing state with
  | nil => trivial
  | cons event rest ih =>
    refine ⟨all event (by simp), ?_⟩
    intro next _
    apply ih
    intro other mem
    exact all other (mem_cons_of_mem _ mem)

theorem meets_mono {weaker : State → Event → Prop}
    (weaken : ∀ state event, condition state event → weaker state event) {state : State}
    (meets : Meets step condition state events) :
    Meets step weaker state events := by
  induction events generalizing state with
  | nil => trivial
  | cons event rest ih =>
    exact ⟨weaken state event meets.1, fun next stepped => ih (meets.2 next stepped)⟩

theorem meets_and {other : State → Event → Prop} {state : State}
    (left : Meets step condition state events) (right : Meets step other state events) :
    Meets step (fun state event => condition state event ∧ other state event) state events := by
  induction events generalizing state with
  | nil => trivial
  | cons event rest ih =>
    exact ⟨⟨left.1, right.1⟩,
      fun next stepped => ih (left.2 next stepped) (right.2 next stepped)⟩

theorem meets_append {state : State} {before after : List Event} :
    Meets step condition state (before ++ after) ↔
      Meets step condition state before ∧
        ∀ middle, run step state before = some middle → Meets step condition middle after := by
  induction before generalizing state with
  | nil => simp [Meets, run]
  | cons event rest ih =>
    simp only [cons_append, Meets, run, mem_def]
    cases step state event with
    | none => simp
    | some next => simp [ih, and_assoc]

theorem exists_of_not_meets {state final : State} (ran : run step state events = some final)
    (fails : ¬Meets step condition state events) :
    ∃ before event after middle next, events = before ++ event :: after ∧
      run step state before = some middle ∧ step middle event = some next ∧
      ¬condition middle event := by
  induction events generalizing state with
  | nil => exact absurd trivial fails
  | cons event rest ih =>
    obtain ⟨next, stepped, later⟩ := run_cons ran
    by_cases here : condition state event
    · have further : ¬Meets step condition next rest := by
        intro meets
        exact fails (Meets.cons here stepped meets)
      obtain ⟨before, found, after, middle, beyond, split, reached, taken, broken⟩ :=
        ih later further
      refine ⟨event :: before, found, after, middle, beyond, ?_, ?_, taken, broken⟩
      · rw [split, cons_append]
      · rw [run, stepped, bind_some, reached]
    · exact ⟨[], event, rest, state, next, rfl, rfl, stepped, here⟩

end Rules

end AwfulChat.Library
