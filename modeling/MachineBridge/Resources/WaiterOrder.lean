import MachineBridge.Resources.Lease
import Mathlib.Data.List.Pairwise

/-!
# The order of waiters

Waiters are ranked by priority and age, then by the time at which they came, and
last by their identifiers.  A waiter which is protected has the best rank and
keeps it, and whoever comes later stays behind it.
-/

namespace MachineBridge.Resources

variable {Host Request Reservation : Type}
  (policy : AdmissionPolicy Host Request Reservation) (now : Nat)

/-- Negative where `left` is first; identifiers have the same length. -/
def compareWaiters (left right : Waiter Request) : Int :=
  let rank := (resourceWaiterRank policy now left : Int) -
    resourceWaiterRank policy now right
  if rank ≠ 0 then rank
  else
    let time := (left.enqueuedAt : Int) - right.enqueuedAt
    if time ≠ 0 then time
    else (left.waiterId : Int) - right.waiterId

/-- `left` is ahead of `right`. -/
def RanksAhead (left right : Waiter Request) : Prop :=
  compareWaiters policy now left right < 0

instance (left right : Waiter Request) :
    Decidable (RanksAhead policy now left right) :=
  inferInstanceAs (Decidable (_ < _))

variable {policy now}

variable (policy now) in
theorem compareWaiters_cases (left right : Waiter Request) :
    (resourceWaiterRank policy now left ≠ resourceWaiterRank policy now right ∧
      compareWaiters policy now left right =
      (resourceWaiterRank policy now left : Int) - resourceWaiterRank policy
      now right) ∨
    (resourceWaiterRank policy now left = resourceWaiterRank policy now right ∧
      left.enqueuedAt ≠ right.enqueuedAt ∧
      compareWaiters policy now left right =
      (left.enqueuedAt : Int) - right.enqueuedAt) ∨
    (resourceWaiterRank policy now left = resourceWaiterRank policy now right ∧
      left.enqueuedAt = right.enqueuedAt ∧
      compareWaiters policy now left right =
      (left.waiterId : Int) - right.waiterId) := by
  unfold compareWaiters
  dsimp only
  split
  case isTrue => left; omega
  case isFalse =>
    right
    split
    case isTrue => left; omega
    case isFalse => right; omega

variable {left right after before : Waiter Request} {later : Nat}

theorem ranksAhead_iff : RanksAhead policy now left right ↔
    resourceWaiterRank policy now left < resourceWaiterRank policy now right ∨
    (resourceWaiterRank policy now left = resourceWaiterRank policy now right ∧
      (left.enqueuedAt < right.enqueuedAt ∨
        (left.enqueuedAt = right.enqueuedAt ∧ left.waiterId < right.waiterId)))
    := by
  have cases := compareWaiters_cases policy now left right
  unfold RanksAhead
  omega

theorem compareWaiters_swap (left right : Waiter Request) :
    compareWaiters policy now right left =
    -compareWaiters policy now left right := by
  rcases compareWaiters_cases policy now left right with
    one | one | one <;>
  rcases compareWaiters_cases policy now right left with
    two | two | two <;>
  omega

theorem waiterPrecedes_iff : waiterPrecedes policy now left right = true ↔
    compareWaiters policy now left right ≤ 0 := by
  have ahead : RanksAhead policy now right left ↔ _ := ranksAhead_iff
  rw [RanksAhead, compareWaiters_swap] at ahead
  unfold waiterPrecedes
  dsimp only
  split
  case isTrue => rw [decide_eq_true_eq]; omega
  case isFalse =>
    split
    case isTrue | isFalse => rw [decide_eq_true_eq]; omega

theorem ranksAhead_irrefl (waiter : Waiter Request) :
    ¬ RanksAhead policy now waiter waiter := by
  rw [ranksAhead_iff]
  omega

theorem RanksAhead.trans {first second third : Waiter Request}
    (one : RanksAhead policy now first second)
    (two : RanksAhead policy now second third) :
    RanksAhead policy now first third := by
  rw [ranksAhead_iff] at *
  omega

theorem ranksAhead_total (other : left.waiterId ≠ right.waiterId) :
    (RanksAhead policy now left right ∧ ¬ RanksAhead policy now right left) ∨
    (RanksAhead policy now right left ∧ ¬ RanksAhead policy now left right) :=
    by
  rw [ranksAhead_iff, ranksAhead_iff]
  omega

theorem precedes_iff_not_behind : waiterPrecedes policy now left right = true ↔
    ¬ RanksAhead policy now right left := by
  rw [waiterPrecedes_iff, RanksAhead, compareWaiters_swap]
  omega

/-- Two records of the same waiter: its request may have been fitted, which does
not change its priority. -/
structure SameWaiter (policy : AdmissionPolicy Host Request Reservation)
    (before after : Waiter Request) : Prop where
  waiterId : after.waiterId = before.waiterId
  enqueuedAt : after.enqueuedAt = before.enqueuedAt
  priority : policy.priority after.request = policy.priority before.request

theorem SameWaiter.refl (waiter : Waiter Request) :
    SameWaiter policy waiter waiter := ⟨rfl, rfl, rfl⟩

theorem SameWaiter.symm (same : SameWaiter policy before after) :
    SameWaiter policy after before :=
  ⟨same.waiterId.symm, same.enqueuedAt.symm, same.priority.symm⟩

theorem SameWaiter.trans {first second third : Waiter Request}
    (one : SameWaiter policy first second)
    (two : SameWaiter policy second third) : SameWaiter policy first third :=
  ⟨two.waiterId.trans one.waiterId, two.enqueuedAt.trans one.enqueuedAt,
    two.priority.trans one.priority⟩

theorem SameWaiter.rank (same : SameWaiter policy before after) :
    resourceWaiterRank policy now after =
    resourceWaiterRank policy now before := by
  rw [resourceWaiterRank, resourceWaiterRank, waiterBaseRank, waiterBaseRank,
    same.priority, same.enqueuedAt]

theorem protected_iff {waiter : Waiter Request} :
    resourceWaiterProtected policy now waiter = true ↔
    resourceWaiterRank policy now waiter = 0 ∧
    max agingMs (waiterBaseRank policy waiter * agingMs) ≤
    now - waiter.enqueuedAt := by
  rw [resourceWaiterProtected, Bool.and_eq_true, beq_iff_eq, decide_eq_true_eq]

theorem rank_antitone (passes : now ≤ later) (waiter : Waiter Request) :
    resourceWaiterRank policy later waiter ≤
    resourceWaiterRank policy now waiter := by
  have older : (now - waiter.enqueuedAt) / agingMs ≤
      (later - waiter.enqueuedAt) / agingMs :=
    Nat.div_le_div_right (by omega)
  unfold resourceWaiterRank
  omega

theorem protected_later
    (guarded : resourceWaiterProtected policy now before = true)
    (same : SameWaiter policy before after) (passes : now ≤ later) :
    resourceWaiterProtected policy later after = true := by
  obtain ⟨best, waited⟩ := protected_iff.mp guarded
  apply protected_iff.mpr
  have kept : resourceWaiterRank policy later before ≤
      resourceWaiterRank policy now before := rank_antitone passes before
  constructor
  · rw [same.rank]
    omega
  · have base : waiterBaseRank policy after = waiterBaseRank policy before := by
      rw [waiterBaseRank, waiterBaseRank, same.priority]
    rw [base, same.enqueuedAt]
    omega

theorem ranksAhead_newcomer {newcomer : Waiter Request}
    (guarded : resourceWaiterProtected policy now before = true)
    (same : SameWaiter policy before after) (passes : now ≤ later)
    (comes : now ≤ newcomer.enqueuedAt) :
    RanksAhead policy later after newcomer := by
  obtain ⟨best, waited⟩ :=
    protected_iff.mp (protected_later guarded same passes)
  have before := (protected_iff.mp guarded).2
  have aging : agingMs = 120000 := rfl
  rw [ranksAhead_iff, same.enqueuedAt]
  omega

end MachineBridge.Resources
