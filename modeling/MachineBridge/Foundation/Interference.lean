import Mathlib.Data.List.Basic

/-!
# Processes under interference

A process changes a shared state by calls.  Before each call the environment
may act on the state, and any call may fail without an effect; a schedule of
turns decides both.  An assertion about a process holds for every schedule.  It
is proved with one rule for each way to build a process, and the rule for a call
asks that the assertion before the call is stable under the environment.
-/

namespace Foundation

open List

universe u v w x

/-- What happens at one call: actions of the environment before it, and whether
the call fails. -/
structure Turn (Action : Type u) where
  actions : List Action := []
  fails : Bool := false

/-- The shared state, with the turns that are still to come.  When they are used
up, the environment is quiet. -/
structure Scheduled (State : Type v) (Action : Type u) where
  state : State
  turns : List (Turn Action)

def Process (State : Type v) (Action : Type u) (Error : Type w) (α : Type x) :=
  Scheduled State Action → Except Error α × Scheduled State Action

namespace Process

variable {State : Type v} {Action : Type u} {Error : Type w}

/-- Two processes, the second one with the result of the first. -/
def andThen {α β : Type x} (process : Process State Action Error α)
    (next : α → Process State Action Error β) :
    Process State Action Error β := fun shared =>
  match process shared with
  | (.ok value, after) => next value after
  | (.error error, after) => (.error error, after)

instance : Monad (Process.{u, v, w, x} State Action Error) where
  pure value := fun shared => (.ok value, shared)
  bind := andThen

def fail {α : Type x} (error : Error) : Process State Action Error α :=
  fun shared => (.error error, shared)

/-- Catch an error and go on. -/
def attempt {α : Type x} (process : Process State Action Error α) :
    Process State Action Error (Except Error α) := fun shared =>
  match process shared with
  | (result, after) => (.ok result, after)

/-- A change of the process's own part of the state. -/
def modify (change : State → State) :
    Process State Action Error PUnit := fun shared =>
  (.ok ⟨⟩, { shared with state := change shared.state })

/-- Read the process's own part of the state. -/
def inspect {α : Type x} (observe : State → α) :
    Process State Action Error α := fun shared =>
  (.ok (observe shared.state), shared)

/-- The environment takes its turn. -/
def disturb (act : Action → State → State) (state : State)
    (actions : List Action) : State :=
  actions.foldl (fun state action => act action state) state

/-- A call: the turn of the environment first, then the operation. -/
def call {α : Type x} (act : Action → State → State) (failure : Error)
    (operation : State → Except Error (α × State)) :
    Process State Action Error α := fun shared =>
  let turn := shared.turns.head?.getD {}
  let state := disturb act shared.state turn.actions
  let turns := shared.turns.tail
  if turn.fails then (.error failure, { state, turns })
  else match operation state with
  | .ok (value, after) => (.ok value, { state := after, turns })
  | .error error => (.error error, { state, turns })

/-- An operation whose outcome the state decides.  Unlike a call it may fail
with an effect. -/
def perform {α : Type x} (operation : State → Except Error α × State) :
    Process State Action Error α := fun shared =>
  match operation shared.state with
  | (result, state) => (result, { shared with state })

def forEach {ι : Type*} (body : ι → Process State Action Error PUnit) :
    List ι → Process State Action Error PUnit
  | [] => pure ⟨⟩
  | item :: items => body item >>= fun _ => forEach body items

/-- From a state with the first assertion, every schedule leads to a result
with the second one or to an error with the third one. -/
def Ensures {α : Type x} (Before : State → Prop)
    (process : Process State Action Error α) (After : α → State → Prop)
    (Failed : Error → State → Prop) : Prop :=
  ∀ shared : Scheduled State Action, Before shared.state →
    match process shared with
    | (.ok value, next) => After value next.state
    | (.error error, next) => Failed error next.state

/-- The environment keeps an assertion. -/
def Stable (act : Action → State → State) (Assertion : State → Prop) : Prop :=
  ∀ action state, Assertion state → Assertion (act action state)

theorem Stable.disturb {act : Action → State → State}
    {Assertion : State → Prop} (stable : Stable act Assertion) {state : State}
    (holds : Assertion state) (actions : List Action) :
    Assertion (disturb act state actions) := by
  induction actions generalizing state with
  | nil => exact holds
  | cons action actions induction => exact induction (stable action state holds)

theorem Stable.and {act : Action → State → State} {left right : State → Prop}
    (first : Stable act left) (second : Stable act right) :
    Stable act (fun state => left state ∧ right state) :=
  fun action state holds =>
    ⟨first action state holds.1, second action state holds.2⟩

section Rules

variable {α β : Type x} {Before : State → Prop}
  {Failed : Error → State → Prop}

variable {After : α → State → Prop} {process : Process State Action Error α}

theorem ensures_pure {value : α}
    (holds : ∀ state, Before state → After value state) :
    Ensures Before (pure value : Process State Action Error α) After Failed :=
  fun shared before => holds shared.state before

theorem ensures_fail {error : Error}
    (holds : ∀ state, Before state → Failed error state) :
    Ensures Before (fail error : Process State Action Error α) After Failed :=
  fun shared before => holds shared.state before

theorem ensures_modify {After : PUnit → State → Prop} {change : State → State}
    (holds : ∀ state, Before state → After ⟨⟩ (change state)) : Ensures Before
    (modify change : Process State Action Error PUnit) After Failed :=
  fun shared before => holds shared.state before

theorem ensures_inspect {observe : State → α}
    (holds : ∀ state, Before state → After (observe state) state) : Ensures
    Before (inspect observe : Process State Action Error α) After Failed :=
  fun shared before => holds shared.state before

theorem ensures_call {act : Action → State → State} {failure : Error}
    {operation : State → Except Error (α × State)} (stable : Stable act Before)
    (failed : ∀ state, Before state → Failed failure state)
    (succeeded : ∀ state value after, Before state →
      operation state = .ok (value, after) → After value after)
    (refused : ∀ state error, Before state → operation state = .error error →
      Failed error state) :
    Ensures Before (call act failure operation) After Failed := by
  intro shared before
  have disturbed := stable.disturb before (shared.turns.head?.getD {}).actions
  unfold call
  cases fails : (shared.turns.head?.getD {}).fails with
  | true =>
    simp only [fails, if_true]
    exact failed _ disturbed
  | false =>
    simp only [fails, Bool.false_eq_true, if_false]
    cases outcome : operation (disturb act shared.state
      (shared.turns.head?.getD {}).actions) with
    | ok result =>
      obtain ⟨value, after⟩ := result
      exact succeeded _ value after disturbed outcome
    | error error => exact refused _ error disturbed outcome

theorem ensures_perform {operation : State → Except Error α × State}
    (succeeded : ∀ state value after, Before state →
      operation state = (.ok value, after) → After value after)
    (failed : ∀ state error after, Before state →
      operation state = (.error error, after) → Failed error after) : Ensures
    Before (perform operation : Process State Action Error α) After Failed :=
    by
  intro shared before
  unfold perform
  cases outcome : operation shared.state with
  | mk result state =>
    cases result with
    | ok value => exact succeeded _ value state before outcome
    | error error => exact failed _ error state before outcome

theorem ensures_bind {next : α → Process State Action Error β}
    {Between : α → State → Prop} {After : β → State → Prop}
    (first : Ensures Before process Between Failed)
    (second : ∀ value, Ensures (Between value) (next value) After Failed) :
    Ensures Before (process >>= next) After Failed := by
  intro shared before
  have between := first shared before
  show match andThen process next shared with
    | (.ok value, next) => After value next.state
    | (.error error, next) => Failed error next.state
  unfold andThen
  cases result : process shared with
  | mk outcome middle =>
    rw [result] at between
    cases outcome with
    | ok value => exact second value middle between
    | error error => exact between

theorem ensures_seq {next : α → Process State Action Error β}
    {Between : State → Prop} {After : β → State → Prop}
    (first : Ensures Before process (fun _ => Between) Failed)
    (second : ∀ value, Ensures Between (next value) After Failed) :
    Ensures Before (process >>= next) After Failed :=
  ensures_bind first second

theorem ensures_attempt {After : Except Error α → State → Prop}
    {Other : Error → State → Prop} (holds : Ensures Before process (fun value
    => After (.ok value)) (fun error => After (.error error))) : Ensures Before
    (attempt process) After Other := by
  intro shared before
  have after := holds shared before
  unfold attempt
  cases result : process shared with
  | mk outcome next =>
    rw [result] at after
    cases outcome with
    | ok value => exact after
    | error error => exact after

theorem Ensures.weaken {Stronger : State → Prop} {Weaker : α → State → Prop}
    {Other : Error → State → Prop}
    (holds : Ensures Before process After Failed)
    (before : ∀ state, Stronger state → Before state)
    (after : ∀ value state, After value state → Weaker value state)
    (failed : ∀ error state, Failed error state → Other error state) :
    Ensures Stronger process Weaker Other := by
  intro shared stronger
  have outcome := holds shared (before _ stronger)
  cases result : process shared with
  | mk value next =>
    rw [result] at outcome
    cases value with
    | ok value => exact after value _ outcome
    | error error => exact failed error _ outcome

theorem Ensures.result (holds : Ensures Before process After Failed)
    (shared : Scheduled State Action) (before : Before shared.state) :
    (∀ value, (process shared).1 = .ok value →
      After value (process shared).2.state) ∧ ∀ error,
    (process shared).1 = .error error →
    Failed error (process shared).2.state := by
  have outcome := holds shared before
  cases result : process shared with
  | mk value next =>
    rw [result] at outcome
    constructor
    · rintro _ rfl
      exact outcome
    · rintro _ rfl
      exact outcome

theorem ensures_of_fact {Fact : Prop} (known : ∀ state, Before state → Fact)
    (holds : Fact → Ensures Before process After Failed) :
    Ensures Before process After Failed :=
  fun shared before => holds (known shared.state before) shared before

theorem ensures_forEach {ι : Type*}
    {body : ι → Process State Action Error PUnit}
    {Invariant : List ι → State → Prop} {items : List ι} (step : ∀ item rest,
      item :: rest <:+ items → Ensures (Invariant (item :: rest)) (body item)
      (fun _ => Invariant rest) Failed) : Ensures (Invariant items)
    (forEach body items) (fun _ => Invariant []) Failed := by
  induction items with
  | nil => exact ensures_pure fun _ holds => holds
  | cons item items induction =>
    apply ensures_seq (step item items suffix_rfl)
    intro _
    exact induction fun other rest suffix =>
      step other rest (suffix.trans (suffix_cons item items))

theorem ensures_forEach_same {ι : Type*}
    {body : ι → Process State Action Error PUnit} {items : List ι}
    (step : ∀ item ∈ items,
      Ensures Before (body item) (fun _ => Before) Failed) :
    Ensures Before (forEach body items) (fun _ => Before) Failed := by
  induction items with
  | nil => exact ensures_pure fun _ holds => holds
  | cons item items induction =>
    apply ensures_seq (step item mem_cons_self)
    intro _
    exact induction fun other member =>
      step other (mem_cons_of_mem item member)

end Rules

end Process

end Foundation
