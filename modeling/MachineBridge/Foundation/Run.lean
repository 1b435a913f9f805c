import Mathlib.Data.List.Basic

/-!
# Runs of a total step function

A system is a total step function on states.  A run is a list of events, and
an event that is not enabled leaves the state as it is.  Properties of every
run are proved by one induction, with or without a condition that each event
of the run has to meet at the state where it happens.
-/

namespace Foundation

variable {State Event : Type*}

section

variable (step : State → Event → State)

def run (initial : State) (events : List Event) : State :=
  events.foldl step initial

@[simp] theorem run_nil (initial : State) :
    run step initial [] = initial := rfl

@[simp] theorem run_cons (initial : State)
    (event : Event) (events : List Event) :
    run step initial (event :: events) =
      run step (step initial event) events := rfl

@[simp] theorem run_append (initial : State) (before after : List Event) :
    run step initial (before ++ after) =
    run step (run step initial before) after := by
  simp [run, List.foldl_append]

end

variable {initial : State} {step : State → Event → State}
  {Condition : State → Event → Prop}

theorem run_induction {Invariant : State → Prop}
    (preserved : ∀ state event, Invariant state → Invariant (step state event))
    (holds : Invariant initial) (events : List Event) :
    Invariant (run step initial events) := by
  induction events generalizing initial with
  | nil => exact holds
  | cons event events induction =>
    exact induction (preserved initial event holds)

/-- Every event of a run meets a condition at the state where it happens. -/
def Meets (step : State → Event → State) (Condition : State → Event → Prop) :
    State → List Event → Prop
  | _, [] => True
  | state, event :: events =>
    Condition state event ∧ Meets step Condition (step state event) events

@[simp] theorem meets_nil (step : State → Event → State)
    (Condition : State → Event → Prop) (state : State) :
    Meets step Condition state [] := trivial

@[simp] theorem meets_cons {state : State} {event : Event}
    {events : List Event} :
    Meets step Condition state (event :: events) ↔
      Condition state event ∧
        Meets step Condition (step state event) events := Iff.rfl

theorem meets_append {state : State} {before after : List Event} :
    Meets step Condition state (before ++ after) ↔
    Meets step Condition state before ∧
    Meets step Condition (run step state before) after := by
  induction before generalizing state with
  | nil => simp
  | cons event before induction =>
    rw [List.cons_append, meets_cons, meets_cons, induction, run_cons,
      and_assoc]

instance decidableMeets {step : State → Event → State}
    {Condition : State → Event → Prop}
    [decidable : ∀ state event, Decidable (Condition state event)] :
    (state : State) → (events : List Event) →
      Decidable (Meets step Condition state events)
  | _, [] => .isTrue trivial
  | state, event :: events =>
    @instDecidableAnd _ _ (decidable state event)
      (decidableMeets (step state event) events)

/-- A property which every event preserves under the run's condition holds
after every run that meets the condition. -/
theorem run_induction_of_meets {Invariant : State → Prop}
    (preserved : ∀ state event, Condition state event → Invariant state →
      Invariant (step state event)) (holds : Invariant initial)
    {events : List Event} (meets : Meets step Condition initial events) :
    Invariant (run step initial events) := by
  induction events generalizing initial with
  | nil => exact holds
  | cons event events induction =>
    obtain ⟨condition, rest⟩ := meets
    exact induction (preserved initial event condition holds) rest

/-- The condition is exact: it holds along a run just when the property holds
in every state of the run.  `Strong` is what the condition preserves, and the
property needs the condition wherever it holds. -/
theorem holds_throughout_iff {Strong Property : State → Prop}
    (kept : ∀ state event, Strong state → Condition state event →
      Strong (step state event)) (needed : ∀ state event, Strong state →
      Property (step state event) → Condition state event)
    (weaker : ∀ state, Strong state → Property state) (strong : Strong initial)
    (events : List Event) :
    (∀ count, Property (run step initial (events.take count))) ↔
    Meets step Condition initial events := by
  induction events generalizing initial with
  | nil =>
    constructor
    · intro _
      trivial
    · intro _ count
      rw [List.take_nil]
      exact weaker initial strong
  | cons event events induction =>
    constructor
    · intro throughout
      have condition := needed initial event strong (by
        simpa using throughout 1)
      refine ⟨condition, (induction (kept _ _ strong condition)).mp ?_⟩
      intro count
      simpa using throughout (count + 1)
    · rintro ⟨condition, rest⟩ count
      cases count with
      | zero => exact weaker initial strong
      | succ count =>
        exact (induction (kept _ _ strong condition)).mpr rest count

end Foundation
