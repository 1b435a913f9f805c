import Mathlib.Algebra.GroupWithZero.Nat
import Mathlib.Data.List.Basic

/-!
# Items laid end to end

Items of a size of at least one lie one behind the other, and a place is counted
from where the first one begins.
-/

namespace Foundation

open List

universe u

variable {α : Type u}

def endingBefore (size : α → Nat) : Nat → List α → List α
  | _, [] => []
  | place, item :: rest =>
    if size item ≤ place then
      item :: endingBefore size (place - size item) rest
    else []

def startingBefore (size : α → Nat) : Nat → List α → List α
  | _, [] => []
  | place, item :: rest =>
    if 0 < place then
      item :: startingBefore size (place - size item) rest
    else []

def extent (size : α → Nat) (items : List α) : Nat := (items.map size).sum

section Extent

variable {size : α → Nat}

@[simp] theorem extent_cons (item : α) (items : List α) :
    extent size (item :: items) = size item + extent size items := by
  simp [extent]

@[simp] theorem extent_append (first second : List α) :
    extent size (first ++ second) = extent size first +
    extent size second := by
  simp [extent]

variable {items : List α} {place : Nat}

variable (size) in
theorem extent_le_of_prefix {first : List α} (within : first <+: items) :
    extent size first ≤ extent size items := by
  obtain ⟨rest, rfl⟩ := within
  rw [extent_append]
  exact Nat.le_add_right _ _

variable (size) in
theorem endingBefore_isPrefix (place : Nat) (items : List α) :
    endingBefore size place items <+: items := by
  induction items generalizing place with
  | nil => exact nil_prefix
  | cons item items induction =>
    rw [endingBefore]
    split
    case isTrue => exact prefix_cons_inj item |>.mpr (induction _)
    case isFalse => exact nil_prefix

variable (size) in
theorem startingBefore_isPrefix (place : Nat) (items : List α) :
    startingBefore size place items <+: items := by
  induction items generalizing place with
  | nil => exact nil_prefix
  | cons item items induction =>
    rw [startingBefore]
    split
    case isTrue => exact prefix_cons_inj item |>.mpr (induction _)
    case isFalse => exact nil_prefix

variable (size) in
theorem extent_endingBefore_le (place : Nat) (items : List α) :
    extent size (endingBefore size place items) ≤ place := by
  induction items generalizing place with
  | nil => exact Nat.zero_le _
  | cons item items induction =>
    rw [endingBefore]
    split
    case isTrue fits =>
      have rest := induction (place - size item)
      rw [extent_cons]
      omega
    case isFalse => exact Nat.zero_le _

theorem le_extent_startingBefore (inside : place ≤ extent size items) :
    place ≤ extent size (startingBefore size place items) := by
  induction items generalizing place with
  | nil => exact inside
  | cons item items induction =>
    rw [extent_cons] at inside
    rw [startingBefore]
    split
    case isTrue =>
      have rest : place - size item ≤
          extent size (startingBefore size (place - size item) items) := by
        apply induction
        omega
      rw [extent_cons]
      omega
    case isFalse => omega

theorem startingBefore_isPrefix_of {first : List α} (within : first <+: items)
    (reaches : place ≤ extent size first) :
    startingBefore size place items <+: first := by
  induction first generalizing place items with
  | nil =>
    have start : place = 0 := Nat.le_zero.mp reaches
    cases items with
    | nil => exact nil_prefix
    | cons item items =>
      have none : startingBefore size place (item :: items) = [] :=
        if_neg (start.symm ▸ Nat.lt_irrefl 0)
      exact none ▸ nil_prefix
  | cons item first induction =>
    obtain ⟨rest, rfl⟩ := within
    rw [extent_cons] at reaches
    rw [cons_append, startingBefore]
    split
    case isTrue =>
      apply (prefix_cons_inj item).mpr
      apply induction (prefix_append first rest)
      omega
    case isFalse => exact nil_prefix

theorem endingBefore_isPrefix_startingBefore {later : Nat}
    (positive : ∀ item ∈ items, 0 < size item) (order : place ≤ later) :
    endingBefore size place items <+: startingBefore size later items := by
  induction items generalizing place later with
  | nil => exact nil_prefix
  | cons item items induction =>
    obtain ⟨some, others⟩ := forall_mem_cons.mp positive
    rw [endingBefore]
    split
    case isTrue fits =>
      rw [startingBefore, if_pos (by omega)]
      apply (prefix_cons_inj item).mpr
      apply induction others
      omega
    case isFalse => exact nil_prefix

end Extent

end Foundation
