import Mathlib.Data.List.Basic

/-!
# Sequences with delimiters

A delimiter ends an item.  What comes after the last delimiter is not ended yet,
and grows at its end.
-/

namespace Foundation

open List

variable {α : Type*} [DecidableEq α] (delimiter : α)

/-- The items which are ended, and the rest. -/
def splitDelimited : List α → List (List α) × List α
  | [] => ([], [])
  | symbol :: symbols =>
    if symbol = delimiter then
      ([] :: (splitDelimited symbols).1, (splitDelimited symbols).2)
    else
      match (splitDelimited symbols).1 with
      | [] => ([], symbol :: (splitDelimited symbols).2)
      | item :: items =>
        ((symbol :: item) :: items, (splitDelimited symbols).2)

theorem splitDelimited_cons (symbol : α) (symbols : List α) :
    splitDelimited delimiter (symbol :: symbols) =
      if symbol = delimiter then
        ([] :: (splitDelimited delimiter symbols).1,
          (splitDelimited delimiter symbols).2)
      else
        match (splitDelimited delimiter symbols).1 with
        | [] => ([], symbol :: (splitDelimited delimiter symbols).2)
        | item :: items =>
          ((symbol :: item) :: items,
            (splitDelimited delimiter symbols).2) := rfl

variable {delimiter}

section

variable (symbols : List α)

theorem splitDelimited_append_plain {plain : List α}
    (none : delimiter ∉ plain) : splitDelimited delimiter (symbols ++ plain) =
    ((splitDelimited delimiter symbols).1,
      (splitDelimited delimiter symbols).2 ++ plain) := by
  induction symbols with
  | nil =>
    induction plain with
    | nil => rfl
    | cons symbol plain induction =>
      have other : symbol ≠ delimiter := Ne.symm (ne_of_not_mem_cons none)
      have rest := induction (not_mem_of_not_mem_cons none)
      rw [nil_append] at rest ⊢
      rw [splitDelimited_cons, if_neg other, rest]
      rfl
  | cons symbol symbols induction =>
    rw [cons_append, splitDelimited_cons, splitDelimited_cons, induction]
    split
    case isTrue => rfl
    case isFalse =>
      cases (splitDelimited delimiter symbols).1 with
      | nil => rfl
      | cons item items => rfl

theorem splitDelimited_append_delimiter : splitDelimited delimiter
    (symbols ++ [delimiter]) = ((splitDelimited delimiter symbols).1 ++
    [(splitDelimited delimiter symbols).2], []) := by
  induction symbols with
  | nil =>
    rw [nil_append, splitDelimited_cons, if_pos rfl]
    rfl
  | cons symbol symbols induction =>
    rw [cons_append, splitDelimited_cons, splitDelimited_cons, induction]
    split
    case isTrue => rfl
    case isFalse =>
      cases (splitDelimited delimiter symbols).1 with
      | nil => rfl
      | cons item items => rfl

theorem splitDelimited_join :
    (splitDelimited delimiter symbols).1.flatMap (· ++ [delimiter]) ++
    (splitDelimited delimiter symbols).2 = symbols := by
  induction symbols with
  | nil => rfl
  | cons symbol symbols induction =>
    rw [splitDelimited_cons]
    split
    case isTrue same =>
      rw [flatMap_cons, nil_append, append_assoc, induction, same]
      rfl
    case isFalse =>
      cases ended : (splitDelimited delimiter symbols).1 with
      | nil | cons item items =>
        rw [ended] at induction
        exact congrArg (symbol :: ·) induction

theorem not_mem_splitDelimited :
    (∀ item ∈ (splitDelimited delimiter symbols).1, delimiter ∉ item) ∧
    delimiter ∉ (splitDelimited delimiter symbols).2 := by
  induction symbols with
  | nil =>
    constructor
    · intro item member
      cases member
    · exact not_mem_nil
  | cons symbol symbols induction =>
    obtain ⟨items, rest⟩ := induction
    rw [splitDelimited_cons]
    split
    case isTrue =>
      refine ⟨?_, rest⟩
      intro item member
      rcases mem_cons.mp member with empty | later
      · rw [empty]
        exact not_mem_nil
      · exact items item later
    case isFalse other =>
      cases ended : (splitDelimited delimiter symbols).1 with
      | nil =>
        constructor
        · intro item member
          cases member
        · exact not_mem_cons_of_ne_of_not_mem (Ne.symm other) rest
      | cons first items' =>
        rw [ended] at items
        refine ⟨?_, rest⟩
        intro item member
        rcases mem_cons.mp member with same | later
        · rw [same]
          exact not_mem_cons_of_ne_of_not_mem (Ne.symm other)
            (items first mem_cons_self)
        · exact items item (mem_cons_of_mem _ later)

end

end Foundation
