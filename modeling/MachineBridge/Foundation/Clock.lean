import Mathlib.Data.Rat.Floor

/-!
# Clocks

A clock is read from time to time, and a later reading is never smaller.
Readings are exact rationals, so they may lie between two ticks.
-/

namespace Foundation

structure Clock where
  reading : Nat → Rat
  monotone : Monotone reading

namespace Clock

theorem reading_le (clock : Clock) {earlier later : Nat}
    (order : earlier ≤ later) : clock.reading earlier ≤ clock.reading later :=
  clock.monotone order

def stepwise (length step : Nat) : Clock where
  reading := fun count => ((count / length * step : Nat) : Rat)
  monotone := by
    intro earlier later order
    have quotient := Nat.div_le_div_right (c := length) order
    exact Nat.cast_le.mpr (Nat.mul_le_mul_right step quotient)

end Clock

section

variable (duration : Rat)

/-- The whole number of steps, at least one, which covers a duration. -/
def roundedUp : Int := max 1 ⌈duration⌉

theorem one_le_roundedUp : 1 ≤ roundedUp duration :=
  le_max_left _ _

theorem le_roundedUp : duration ≤ (roundedUp duration : Rat) := by
  have above : ⌈duration⌉ ≤ roundedUp duration := le_max_right _ _
  exact (Int.le_ceil duration).trans (Int.cast_le.mpr above)

end

theorem roundedUp_le {duration : Rat} {bound : Int} (positive : 1 ≤ bound)
    (within : duration ≤ (bound : Rat)) : roundedUp duration ≤ bound :=
  max_le positive (Int.ceil_le.mpr within)

theorem roundedUp_eq_iff {duration : Rat} :
    (roundedUp duration : Rat) = duration ↔ 1 ≤ duration ∧
    (⌈duration⌉ : Rat) = duration := by
  constructor
  · intro equal
    have positive : (1 : Rat) ≤ duration := by
      rw [← equal]
      exact_mod_cast one_le_roundedUp duration
    have whole : roundedUp duration = ⌈duration⌉ := by
      apply max_eq_right
      exact Int.one_le_ceil_iff.mpr (by linarith)
    exact ⟨positive, by rw [← whole, equal]⟩
  · rintro ⟨positive, whole⟩
    have ceiling : (1 : Int) ≤ ⌈duration⌉ := by
      have cast : ((1 : Int) : Rat) ≤ (⌈duration⌉ : Rat) := by
        rw [whole]
        exact_mod_cast positive
      exact Int.cast_le.mp cast
    rw [roundedUp, max_eq_right ceiling, whole]

end Foundation
