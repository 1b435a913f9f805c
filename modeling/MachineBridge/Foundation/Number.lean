import Mathlib.Data.Nat.Basic

/-!
# Safe integers

Counters of the program are double-precision numbers.  Increments are exact up
to the largest safe integer; the first unsafe integer no longer moves.
-/

namespace Foundation

/-- The largest integer whose successor is still exact. -/
def maxSafeInteger : Nat := 9007199254740991

def isSafeInteger (number : Nat) : Bool := decide (number ≤ maxSafeInteger)

def isSafeInt (number : Int) : Bool :=
  -(maxSafeInteger : Int) ≤ number && number ≤ (maxSafeInteger : Int)

def increment (number : Nat) : Nat := min (number + 1) (maxSafeInteger + 1)

variable {number : Nat}

@[simp] theorem isSafeInteger_iff :
    isSafeInteger number = true ↔ number ≤ maxSafeInteger := by
  simp [isSafeInteger]

theorem increment_pos (number : Nat) : 0 < increment number := by
  simp [increment]

theorem increment_increment (number : Nat) :
    increment (increment number) = increment (number + 1) := by
  unfold increment
  omega

theorem increment_eq_of_safe (safe : increment number ≤ maxSafeInteger) :
    increment number = number + 1 := by
  unfold increment at *
  omega

theorem increment_le_iff {bound : Nat} (safe : bound ≤ maxSafeInteger) :
    increment number ≤ bound ↔ number < bound := by
  unfold increment
  omega

theorem lt_increment_iff {bound : Nat} (safe : bound ≤ maxSafeInteger) :
    bound < increment number ↔ bound ≤ number := by
  unfold increment
  omega

end Foundation
