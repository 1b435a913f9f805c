import Mathlib.Data.List.Forall2

/-!
# Checks within a budget

A check collects issues and spends a budget of steps.  When the budget is
exhausted it stops with the issues which it has found so far.  No more issues
than a limit are collected.
-/

namespace Foundation

open List

section

variable {σ ε α β : Type}

def Yields (computation : StateT σ (Except ε) α) (property : α → Prop) :
    Prop :=
  ∀ state result done, computation state = .ok (result, done) → property result

theorem bind_ok {first : StateT σ (Except ε) α}
    {next : α → StateT σ (Except ε) β} {state done : σ} {result : β}
    (ran : (first >>= next) state = .ok (result, done)) : ∃ answer middle,
    first state = .ok (answer, middle) ∧
    next answer middle = .ok (result, done) := by
  change (first state).bind (fun pair => next pair.1 pair.2) = _ at ran
  cases started : first state with
  | error failure =>
    rw [started] at ran
    cases ran
  | ok pair =>
    rw [started] at ran
    exact ⟨pair.1, pair.2, rfl, ran⟩

namespace Yields

variable {property : α → Prop}

theorem pure {result : α} (holds : property result) :
    Yields (Pure.pure result : StateT σ (Except ε) α) property := by
  intro state answer done ran
  cases ran
  exact holds

theorem fail {failure : ε} :
    Yields (throw failure : StateT σ (Except ε) α) property := by
  intro state answer done ran
  cases ran

theorem bind {first : StateT σ (Except ε) α} {next : α → StateT σ (Except ε) β}
    {later : β → Prop} (yields : Yields first property)
    (follows : ∀ result, property result → Yields (next result) later) :
    Yields (first >>= next) later := by
  intro state result done ran
  obtain ⟨answer, middle, started, finished⟩ := bind_ok ran
  exact follows answer (yields state answer middle started) middle result done
    finished

theorem after {first : StateT σ (Except ε) α}
    {next : α → StateT σ (Except ε) β} {later : β → Prop}
    (follows : ∀ result, Yields (next result) later) :
    Yields (first >>= next) later := by
  intro state result done ran
  obtain ⟨answer, middle, _, finished⟩ := bind_ok ran
  exact follows answer middle result done finished

theorem map {computation : StateT σ (Except ε) α} {change : α → β}
    {property : β → Prop}
    (yields : Yields computation fun result => property (change result)) :
    Yields (do let result ← computation; Pure.pure (change result))
      property :=
  bind yields fun _ holds => pure holds

end Yields

end

structure CheckState (ι : Type) where
  issues : List ι
  remaining : Nat

/-- A computation which may stop with the issues found so far. -/
abbrev Check (ι α : Type) := StateT (CheckState ι) (Except (List ι)) α

namespace Check

variable {ι α β : Type}

/-- One step of the budget. -/
def spend : Check ι Unit := fun state =>
  if state.remaining = 0 then .error state.issues
  else .ok ((), { state with remaining := state.remaining - 1 })

section

variable (limit : Nat)

def report (issue : ι) : Check ι Unit := fun state =>
  if limit ≤ state.issues.length then .ok ((), state)
  else .ok ((), { state with issues := state.issues ++ [issue] })

def require (condition : Bool) (issue : ι) : Check ι Unit :=
  if condition then pure () else report limit issue

/-- Nothing once the issues have reached the limit. -/
def whileRoom (check : Check ι Unit) : Check ι Unit :=
  fun state =>
    if limit ≤ state.issues.length then .ok ((), state) else check state

end

/-- Whether a check finds no issue.  It collects issues of its own and spends
the common budget. -/
def passes (check : Check ι Unit) : Check ι Bool := fun state =>
  match check { issues := [], remaining := state.remaining } with
  | .ok (_, done) =>
    .ok (done.issues.isEmpty, { state with remaining := done.remaining })
  | .error _ => .error state.issues

def each (check : α → Check ι Unit) : List α → Check ι Unit
  | [] => pure ()
  | item :: items => do
    check item
    each check items

def someYes (query : α → Check ι Bool) : List α → Check ι Bool
  | [] => pure false
  | item :: items => do
    if ← query item then pure true else someYes query items

def countYes (query : α → Check ι Bool) : List α → Check ι Nat
  | [] => pure 0
  | item :: items => do
    let answer ← query item
    let count ← countYes query items
    pure (answer.toNat + count)

/-- A property holds of one place of a list and of no other. -/
inductive ExactlyOne (holds : α → Prop) : List α → Prop
  | here {item : α} {items : List α} (first : holds item)
      (alone : ∀ other ∈ items, ¬ holds other) :
      ExactlyOne holds (item :: items)
  | later {item : α} {items : List α} (fails : ¬ holds item)
      (rest : ExactlyOne holds items) : ExactlyOne holds (item :: items)

theorem ExactlyOne.cons_iff {holds : α → Prop} {item : α} {items : List α} :
    ExactlyOne holds (item :: items) ↔
    (holds item ∧ ∀ other ∈ items, ¬ holds other) ∨
    (¬ holds item ∧ ExactlyOne holds items) := by
  constructor
  · intro one
    cases one with
    | here first alone => exact .inl ⟨first, alone⟩
    | later fails rest => exact .inr ⟨fails, rest⟩
  · intro either
    rcases either with ⟨first, alone⟩ | ⟨fails, rest⟩
    · exact .here first alone
    · exact .later fails rest

/-- A check which runs to its end keeps the issues found before, and as long
as there is room for an issue it finds one unless a property holds. -/
def Decides (limit : Nat) (check : Check ι Unit) (holds : Prop) : Prop :=
  ∀ state done, check state = .ok ((), done) →
    state.issues <+: done.issues ∧
      (state.issues.length < limit → (done.issues = state.issues ↔ holds))

/-- A query which runs to its end changes no issues, and its answer has a
property. -/
def Answers (query : Check ι α) (property : α → Prop) : Prop :=
  ∀ state answer done, query state = .ok (answer, done) →
    done.issues = state.issues ∧ property answer

namespace Answers

variable {property : α → Prop}

theorem pure (answer : α) (holds : property answer) :
    Answers (Pure.pure answer : Check ι α) property := by
  intro state result done ran
  cases ran
  exact ⟨rfl, holds⟩

theorem bind {query : Check ι α} {next : α → Check ι β} {later : β → Prop}
    (first : Answers query property)
    (second : ∀ answer, property answer → Answers (next answer) later) :
    Answers (query >>= next) later := by
  intro state result done ran
  obtain ⟨answer, middle, started, finished⟩ := bind_ok ran
  obtain ⟨same, holds⟩ := first state answer middle started
  obtain ⟨unchanged, holdsLater⟩ :=
    second answer holds middle result done finished
  exact ⟨unchanged.trans same, holdsLater⟩

theorem weaken {query : Check ι α} {later : α → Prop}
    (answers : Answers query property)
    (implies : ∀ answer, property answer → later answer) :
    Answers query later := by
  intro state answer done ran
  obtain ⟨same, holds⟩ := answers state answer done ran
  exact ⟨same, implies answer holds⟩

theorem spend : Answers (spend : Check ι Unit) fun _ => True := by
  intro state result done ran
  rw [Check.spend] at ran
  split at ran
  case isTrue => cases ran
  case isFalse =>
      cases ran
      exact ⟨rfl, trivial⟩

theorem passes {check : Check ι Unit} {holds : Prop}
    (decides : Decides 1 check holds) :
    Answers (passes check) fun answer => answer = true ↔ holds := by
  intro state answer done ran
  rw [Check.passes] at ran
  split at ran
  case h_1 result inner checked =>
      cases ran
      exact ⟨rfl, List.isEmpty_iff.trans
        ((decides _ inner checked).2 Nat.one_pos)⟩
  case h_2 => cases ran

theorem someYes {query : α → Check ι Bool} {holds : α → Prop} {items : List α}
    (answers : ∀ item ∈ items,
      Answers (query item) fun answer => answer = true ↔ holds item) :
    Answers (someYes query items) fun answer => answer = true ↔ ∃ item ∈ items,
    holds item := by
  induction items with
  | nil =>
    apply pure
    exact iff_of_false Bool.false_ne_true (by simp)
  | cons item items induction =>
    apply bind (answers item mem_cons_self)
    intro answer known
    split
    case isTrue yes =>
        apply pure
        exact iff_of_true rfl ⟨item, mem_cons_self, known.mp yes⟩
    case isFalse no =>
        apply weaken (induction fun other inside =>
          answers other (mem_cons_of_mem item inside))
        intro result found
        rw [found, exists_mem_cons_iff]
        exact (or_iff_right fun here => no (known.mpr here)).symm

theorem countYes {query : α → Check ι Bool} {holds : α → Prop} {items : List α}
    (answers : ∀ item ∈ items,
      Answers (query item) fun answer => answer = true ↔ holds item) : Answers
    (countYes query items) fun count =>
    (count = 0 ↔ ∀ item ∈ items, ¬ holds item) ∧
    (count = 1 ↔ ExactlyOne holds items) := by
  induction items with
  | nil =>
    apply pure
    refine ⟨iff_of_true rfl (forall_mem_nil _), ?_⟩
    exact iff_of_false Nat.zero_ne_one fun one => nomatch one
  | cons item items induction =>
    apply bind (answers item mem_cons_self)
    intro answer known
    apply bind (induction fun other inside =>
      answers other (mem_cons_of_mem item inside))
    intro count counted
    obtain ⟨nowhere, once⟩ := counted
    apply pure
    rw [ExactlyOne.cons_iff, forall_mem_cons, ← nowhere, ← once, ← known]
    cases answer with
    | false | true => exact ⟨by simp, by simp⟩

end Answers

namespace Decides

variable {limit : Nat} {check next : Check ι Unit} {first second : Prop}

theorem congr (decides : Decides limit check first) (same : first ↔ second) :
    Decides limit check second := by
  intro state done ran
  obtain ⟨keeps, found⟩ := decides state done ran
  exact ⟨keeps, fun room => (found room).trans same⟩

variable {holds : Prop}

theorem nothing (always : holds) :
    Decides limit (Pure.pure () : Check ι Unit) holds := by
  intro state done ran
  cases ran
  exact ⟨prefix_rfl, fun _ => iff_of_true rfl always⟩

theorem report {issue : ι} (never : ¬ holds) :
    Decides limit (report limit issue) holds := by
  intro state done ran
  rw [Check.report] at ran
  split at ran
  case isTrue full =>
      cases ran
      exact ⟨prefix_rfl, fun room => absurd full (Nat.not_le.mpr room)⟩
  case isFalse =>
      cases ran
      refine ⟨prefix_append _ _, fun _ => iff_of_false ?_ never⟩
      exact fun same => cons_ne_nil _ _ (append_right_eq_self.mp same)

theorem require {condition : Bool} {issue : ι}
    (means : condition = true ↔ holds) :
    Decides limit (require limit condition issue) holds := by
  rw [Check.require]
  split
  case isTrue yes => exact nothing (means.mp yes)
  case isFalse no => exact report fun here => no (means.mpr here)

theorem whileRoom (decides : Decides limit check first) :
    Decides limit (whileRoom limit check) first := by
  intro state done ran
  rw [Check.whileRoom] at ran
  split at ran
  case isTrue full =>
      cases ran
      exact ⟨prefix_rfl, fun room => absurd full (Nat.not_le.mpr room)⟩
  case isFalse => exact decides state done ran

/-- Two checks after each other decide the conjunction: an issue of the first
is still there after the second. -/
theorem both (one : Decides limit check first)
    (other : Decides limit next second) :
    Decides limit (check >>= fun _ => next) (first ∧ second) := by
  intro state done ran
  obtain ⟨_, middle, started, finished⟩ := bind_ok ran
  obtain ⟨keeps, found⟩ := one state middle started
  obtain ⟨keepsLater, foundLater⟩ := other middle done finished
  refine ⟨keeps.trans keepsLater, fun room => ?_⟩
  constructor
  · intro same
    have unchanged : middle.issues = state.issues := by
      apply (keeps.eq_of_length_le ?_).symm
      rw [← same]
      exact keepsLater.length_le
    have after := foundLater (unchanged ▸ room)
    exact ⟨(found room).mp unchanged, after.mp (same.trans unchanged.symm)⟩
  · intro holds
    have unchanged := (found room).mpr holds.1
    exact ((foundLater (unchanged ▸ room)).mpr holds.2).trans unchanged

theorem after {query : Check ι α} {check : α → Check ι Unit}
    {property : α → Prop} (answers : Answers query property)
    (decides : ∀ answer, property answer → Decides limit (check answer) holds)
    : Decides limit (query >>= check) holds := by
  intro state done ran
  obtain ⟨answer, middle, started, finished⟩ := bind_ok ran
  obtain ⟨same, known⟩ := answers state answer middle started
  rw [← same]
  exact decides answer known middle done finished

theorem each {check : α → Check ι Unit} {holds : α → Prop} {items : List α}
    (decides : ∀ item ∈ items, Decides limit (check item) (holds item)) :
    Decides limit (each check items) (∀ item ∈ items, holds item) := by
  induction items with
  | nil => exact nothing (forall_mem_nil _)
  | cons item items induction =>
    apply congr (both (decides item mem_cons_self)
      (induction fun other inside =>
        decides other (mem_cons_of_mem item inside)))
    exact forall_mem_cons.symm

end Decides

end Check

end Foundation
