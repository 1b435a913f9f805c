import MachineBridge.Foundation.Text

/-!
# Searching a text

The first occurrence of a text in another one, at or after a position.
Occurrences may overlap: a position is an occurrence when the text stands there.
-/

namespace Foundation

open List

/-- `needle` stands in `content` at `position`. -/
def OccursAt (content needle : Text) (position : Nat) : Prop :=
  needle <+: content.drop position ∧ position ≤ content.length

instance (content needle : Text) : DecidablePred (OccursAt content needle) :=
  fun _ => inferInstanceAs (Decidable (_ ∧ _))

/-- The first occurrence in what remains from `offset` on. -/
def searchFrom (needle : Text) : Nat → Text → Option Nat
  | offset, [] => if needle.isEmpty then some offset else none
  | offset, unit :: rest =>
    if needle.isPrefixOf (unit :: rest) then some offset
    else searchFrom needle (offset + 1) rest

/-- `content.indexOf(needle, offset)`, where −1 is none. -/
def indexOf (content needle : Text) (offset : Nat) : Option Nat :=
  searchFrom needle (min offset content.length) (content.drop offset)

def includes (content needle : Text) : Bool :=
  (indexOf content needle 0).isSome

/-- `content.replace(target, () => replacement)`. -/
def replaceFirst (content target replacement : Text) : Text :=
  match indexOf content target 0 with
  | none => content
  | some position =>
    content.take position ++ replacement ++
      content.drop (position + target.length)

variable {needle content : Text} {offset position : Nat}

theorem searchFrom_eq_some {rest : Text}
    (found : searchFrom needle offset rest = some position) :
    offset ≤ position ∧ needle <+: rest.drop (position - offset) ∧
    position - offset ≤ rest.length ∧ ∀ earlier, offset ≤ earlier →
    earlier < position → ¬ needle <+: rest.drop (earlier - offset) := by
  induction rest generalizing offset with
  | nil =>
    rw [searchFrom] at found
    split at found
    case isTrue empty =>
      obtain rfl := Option.some.inj found
      rw [List.isEmpty_iff.mp empty]
      refine ⟨Nat.le_refl _, nil_prefix, by omega, ?_⟩
      omega
    case isFalse => cases found
  | cons unit rest induction =>
    rw [searchFrom] at found
    split at found
    case isTrue here =>
      obtain rfl := Option.some.inj found
      rw [Nat.sub_self]
      refine ⟨Nat.le_refl _, isPrefixOf_iff_prefix.mp here, Nat.zero_le _, ?_⟩
      omega
    case isFalse other =>
      obtain ⟨after, stands, inside, first⟩ := induction found
      have step : position - offset = position - (offset + 1) + 1 := by omega
      refine ⟨by omega, ?_, ?_, ?_⟩
      · rw [step, drop_succ_cons]
        exact stands
      · rw [length_cons]
        omega
      · intro earlier low high
        by_cases start : earlier = offset
        · rw [start, Nat.sub_self, drop_zero]
          exact fun stands => other (List.isPrefixOf_iff_prefix.mpr stands)
        · have later : earlier - offset = earlier - (offset + 1) + 1 := by
            omega
          rw [later, drop_succ_cons]
          exact first earlier (by omega) high

theorem searchFrom_eq_none {rest : Text}
    (missing : searchFrom needle offset rest = none) (place : Nat) :
    ¬ needle <+: rest.drop place := by
  induction rest generalizing offset place with
  | nil =>
    rw [searchFrom] at missing
    split at missing
    case isTrue => cases missing
    case isFalse filled =>
      rw [drop_nil]
      intro stands
      rw [prefix_nil.mp stands] at filled
      exact filled rfl
  | cons unit rest induction =>
    rw [searchFrom] at missing
    split at missing
    case isTrue => cases missing
    case isFalse other =>
      cases place with
      | zero => exact fun stands => other (List.isPrefixOf_iff_prefix.mpr stands)
      | succ place => exact induction missing place

theorem indexOf_eq_some (inside : offset ≤ content.length)
    (found : indexOf content needle offset = some position) :
    offset ≤ position ∧ OccursAt content needle position ∧ ∀ earlier,
    offset ≤ earlier → earlier < position →
    ¬ OccursAt content needle earlier := by
  rw [indexOf, Nat.min_eq_left inside] at found
  obtain ⟨after, stands, fit, first⟩ := searchFrom_eq_some found
  rw [length_drop] at fit
  rw [drop_drop, Nat.add_sub_cancel' after] at stands
  refine ⟨after, ⟨stands, by omega⟩, ?_⟩
  intro earlier low high occurs
  apply first earlier low high
  rw [drop_drop, Nat.add_sub_cancel' low]
  exact occurs.1

theorem indexOf_eq_none (missing : indexOf content needle offset = none)
    (after : offset ≤ position) : ¬ OccursAt content needle position := by
  rintro ⟨stands, -⟩
  apply searchFrom_eq_none missing (position - offset)
  rw [drop_drop, Nat.add_sub_cancel' after]
  exact stands

theorem includes_iff : includes content needle = true ↔ ∃ position,
    OccursAt content needle position := by
  rw [includes, Option.isSome_iff_exists]
  constructor
  · rintro ⟨position, found⟩
    exact ⟨position, (indexOf_eq_some (Nat.zero_le _) found).2.1⟩
  · rintro ⟨position, occurs⟩
    cases found : indexOf content needle 0 with
    | none => exact absurd occurs (indexOf_eq_none found (Nat.zero_le _))
    | some first => exact ⟨first, rfl⟩

theorem OccursAt.split (occurs : OccursAt content needle position) : content =
    content.take position ++ needle ++
    content.drop (position + needle.length) ∧
    (content.take position).length = position := by
  obtain ⟨⟨after, rest⟩, inside⟩ := occurs
  have behind : content.drop (position + needle.length) = after := by
    rw [← drop_drop, ← rest, drop_left]
  refine ⟨?_, ?_⟩
  · rw [behind, append_assoc, rest, take_append_drop]
  · rw [length_take, Nat.min_eq_left inside]

theorem occursAt_append (before needle after : Text) :
    OccursAt (before ++ needle ++ after) needle before.length := by
  constructor
  · rw [append_assoc, drop_left]
    exact prefix_append _ _
  · rw [append_assoc, length_append]
    exact Nat.le_add_right _ _

theorem replaceFirst_of_unique {target before after : Text}
    (parts : content = before ++ target ++ after) (unique : ∀ position,
      OccursAt content target position → position = before.length)
    (replacement : Text) : replaceFirst content target replacement = before ++
    replacement ++ after := by
  subst parts
  have occurs := occursAt_append before target after
  cases search : indexOf (before ++ target ++ after) target 0 with
  | none => exact absurd occurs (indexOf_eq_none search (Nat.zero_le _))
  | some position =>
    have first := (indexOf_eq_some (Nat.zero_le _) search).2.1
    rw [replaceFirst, search]
    dsimp only
    rw [unique position first, ← length_append, drop_left,
      append_assoc before target after, take_left]

end Foundation
