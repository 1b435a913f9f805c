import MachineBridge.Schemas.Keywords
import Mathlib.Data.Rat.Floor

/-!
# Comparing values

The functions of the validator which look at one value, or at two.
-/

namespace MachineBridge.Schemas

open Foundation List

mutual

def jsonEqual : Json → Json → Bool
  | .null, .null => true
  | .boolean left, .boolean right => left == right
  | .number left, .number right => left == right
  | .string left, .string right => left == right
  | .array left, .array right =>
    left.length == right.length && itemsEqual left right
  | .object left, .object right =>
    left.length == right.length && fieldsEqual left right
  | _, _ => false

def itemsEqual : List Json → List Json → Bool
  | [], _ => true
  | _ :: _, [] => false
  | left :: lefts, right :: rights =>
    jsonEqual left right && itemsEqual lefts rights

def fieldsEqual : List (Text × Json) → List (Text × Json) → Bool
  | [], _ => true
  | (key, left) :: fields, others =>
    (match others.lookup key with
    | some right => jsonEqual left right
    | none => false) && fieldsEqual fields others

end

theorem length_eq_iff_of_subset {left right : List Text} (one : left.Nodup)
    (other : right.Nodup) (inside : left ⊆ right) :
    left.length = right.length ↔ right ⊆ left := by
  have within : List.Subperm left right := subperm_of_subset one inside
  constructor
  · intro same
    exact (within.perm_of_length_le same.ge).symm.subset
  · intro back
    exact Nat.le_antisymm within.length_le
      (subperm_of_subset other back).length_le

theorem names_subset_of_sameFields {fields others : List (Text × Json)}
    (same : Json.SameFields fields others) :
    fields.map Prod.fst ⊆ others.map Prod.fst := by
  induction fields with
  | nil => exact nil_subset _
  | cons field fields induction =>
    obtain ⟨⟨right, found, _⟩, later⟩ := same
    rw [map_cons, cons_subset]
    refine ⟨?_, induction later⟩
    rw [← Json.lookup_isSome_iff, found]
    rfl

mutual

theorem jsonEqual_iff (left right : Json) (one : left.Distinct)
    (other : right.Distinct) :
    jsonEqual left right = true ↔ Json.Same left right := by
  cases left with
  | array lefts =>
    cases right with
    | array rights =>
      rw [jsonEqual, Json.Same, Bool.and_eq_true, beq_iff_eq]
      exact itemsEqual_iff lefts rights
        (fun item inside => one.of_subset (Json.parts_subset_item inside))
        (fun item inside => other.of_subset (Json.parts_subset_item inside))
    | null | boolean _ | number _ | string _ | object _ =>
      exact iff_of_false Bool.false_ne_true not_false
  | object lefts =>
    cases right with
    | object rights =>
      rw [jsonEqual, Json.Same, Bool.and_eq_true, beq_iff_eq, and_comm,
        fieldsEqual_iff lefts rights
          (fun field inside => one.of_subset (Json.parts_subset_field inside))
          (fun field inside =>
            other.of_subset (Json.parts_subset_field inside))]
      apply and_congr_right
      intro same
      have counted := length_eq_iff_of_subset one.names other.names
        (names_subset_of_sameFields same)
      rw [length_map, length_map] at counted
      rw [counted]
      simp only [Json.lookup_isSome_iff]
      rfl
    | null | boolean _ | number _ | string _ | array _ =>
      exact iff_of_false Bool.false_ne_true not_false
  | null =>
    cases right with
    | null => exact iff_of_true rfl trivial
    | boolean _ | number _ | string _ | array _ | object _ =>
      exact iff_of_false Bool.false_ne_true not_false
  | boolean first =>
    cases right with
    | boolean second => exact beq_iff_eq
    | null | number _ | string _ | array _ | object _ =>
      exact iff_of_false Bool.false_ne_true not_false
  | number first =>
    cases right with
    | number second => exact beq_iff_eq
    | null | boolean _ | string _ | array _ | object _ =>
      exact iff_of_false Bool.false_ne_true not_false
  | string first =>
    cases right with
    | string second => exact beq_iff_eq
    | null | boolean _ | number _ | array _ | object _ =>
      exact iff_of_false Bool.false_ne_true not_false

theorem itemsEqual_iff (lefts rights : List Json)
    (one : ∀ item ∈ lefts, item.Distinct)
    (other : ∀ item ∈ rights, item.Distinct) : lefts.length = rights.length ∧
    itemsEqual lefts rights = true ↔ Json.SameItems lefts rights := by
  cases lefts with
  | nil =>
    cases rights with
    | nil => exact iff_of_true ⟨rfl, rfl⟩ trivial
    | cons right rights =>
      exact iff_of_false (fun both => Nat.zero_ne_add_one _ both.1) not_false
  | cons left lefts =>
    cases rights with
    | nil =>
      exact iff_of_false (fun both => Nat.succ_ne_zero _ both.1) not_false
    | cons right rights =>
      obtain ⟨here, later⟩ := forall_mem_cons.mp one
      obtain ⟨there, after⟩ := forall_mem_cons.mp other
      rw [itemsEqual, Json.SameItems, Bool.and_eq_true, jsonEqual_iff left
        right here there, ← itemsEqual_iff lefts rights later after,
        length_cons, length_cons, Nat.succ_inj]
      exact and_left_comm

theorem fieldsEqual_iff (fields others : List (Text × Json))
    (one : ∀ field ∈ fields, field.2.Distinct)
    (other : ∀ field ∈ others, field.2.Distinct) :
    fieldsEqual fields others = true ↔ Json.SameFields fields others := by
  cases fields with
  | nil => exact iff_of_true rfl trivial
  | cons field fields =>
    obtain ⟨key, left⟩ := field
    obtain ⟨here, later⟩ := forall_mem_cons.mp one
    rw [fieldsEqual, Json.SameFields, Bool.and_eq_true,
      fieldsEqual_iff fields others later other]
    apply and_congr_left
    intro _
    cases found : others.lookup key with
    | none =>
      apply iff_of_false Bool.false_ne_true
      intro same
      obtain ⟨right, is, _⟩ := same
      cases is
    | some right =>
      have there := other _ (Json.mem_of_lookup found)
      constructor
      · intro equal
        exact ⟨right, rfl, (jsonEqual_iff left right here there).mp equal⟩
      · intro same
        obtain ⟨second, is, equal⟩ := same
        cases is
        exact (jsonEqual_iff left right here there).mpr equal

end

def matchesType (value : Json) : SchemaType → Bool
  | .null => match value with
      | .null => true
      | _ => false
  | .boolean => match value with
      | .boolean _ => true
      | _ => false
  | .object => value.isObject
  | .array => match value with
      | .array _ => true
      | _ => false
  | .number => match value with
      | .number _ => true
      | _ => false
  | .integer => match value with
      | .number number => number.den == 1
      | _ => false
  | .string => match value with
      | .string _ => true
      | _ => false

theorem matchesType_iff (value : Json) (type : SchemaType) :
    matchesType value type = true ↔ HasType type value := by
  cases type <;> cases value <;>
    simp [matchesType, HasType, Json.isObject]
  case integer.number number =>
    constructor
    · exact fun whole => ⟨number.num, ((Rat.den_eq_one_iff _).mp whole).symm⟩
    · intro found
      obtain ⟨integer, same⟩ := found
      rw [same]
      exact Rat.den_intCast integer

def belowStop (stopAt : Option Nat) (length : Nat) : Bool :=
  stopAt.all fun bound => length < bound

/-- The loop of `boundedCodePointLength`: it stops at a bound. -/
def countCodePoints (stopAt : Option Nat) : Text → Nat → Nat
  | [], length => length
  | [_], length => if belowStop stopAt length then length + 1 else length
  | unit :: next :: rest, length =>
    if belowStop stopAt length then
      if isLeading unit && isTrailing next then
        countCodePoints stopAt rest (length + 1)
      else countCodePoints stopAt (next :: rest) (length + 1)
    else length

def boundedCodePointLength (value : Text) (minimum maximum : Option Nat) :
    Nat :=
  let stopAt := match maximum with
    | some bound => some (bound + 1)
    | none => minimum
  countCodePoints stopAt value 0

variable {bound length : Nat}

theorem belowStop_some :
    belowStop (some bound) length = true ↔ length < bound := decide_eq_true_iff

section

variable (value : Text)

theorem countCodePoints_full (full : bound ≤ length) :
    countCodePoints (some bound) value length = length := by
  have stopped : ¬ belowStop (some bound) length = true :=
    fun below => Nat.not_lt.mpr full (belowStop_some.mp below)
  rw [countCodePoints.eq_def]
  split
  · rfl
  · exact if_neg stopped
  · exact if_neg stopped

theorem countCodePoints_some (room : length ≤ bound) :
    countCodePoints (some bound) value length =
    min bound (length + (scalarValues value).length) := by
  induction value using scalarValues.induct generalizing length with
  | case1 => exact (Nat.min_eq_right room).symm
  | case2 unit =>
    rcases Nat.lt_or_eq_of_le room with more | full
    · rw [countCodePoints, if_pos (belowStop_some.mpr more)]
      exact (Nat.min_eq_right more).symm
    · rw [countCodePoints_full _ full.ge]
      omega
  | case3 unit next rest pair induction =>
    rcases Nat.lt_or_eq_of_le room with more | full
    · rw [countCodePoints, if_pos (belowStop_some.mpr more), if_pos pair,
        induction more, scalarValues, if_pos pair, length_cons]
      omega
    · rw [countCodePoints_full _ full.ge]
      omega
  | case4 unit next rest single induction =>
    rcases Nat.lt_or_eq_of_le room with more | full
    · rw [countCodePoints, if_pos (belowStop_some.mpr more), if_neg single,
        induction more, scalarValues, if_neg single, length_cons]
      omega
    · rw [countCodePoints_full _ full.ge]
      omega

theorem boundedCodePointLength_maximum (minimum : Option Nat) (most : Nat) :
    boundedCodePointLength value minimum (some most) =
    min (most + 1) (scalarValues value).length := by
  have counted := countCodePoints_some value (Nat.zero_le (most + 1))
  rw [Nat.zero_add] at counted
  exact counted

theorem boundedCodePointLength_minimum (least : Nat) :
    boundedCodePointLength value (some least) none =
    min least (scalarValues value).length := by
  have counted := countCodePoints_some value (Nat.zero_le least)
  rw [Nat.zero_add] at counted
  exact counted

theorem between_boundedCodePointLength (minimum maximum : Option Nat) :
    Between minimum maximum (boundedCodePointLength value minimum maximum) ↔
    Between minimum maximum (scalarValues value).length := by
  cases maximum with
  | some most =>
    rw [boundedCodePointLength_maximum, Between, Between]
    by_cases small : (scalarValues value).length ≤ most
    · rw [Nat.min_eq_right (by omega)]
    · rw [Nat.min_eq_left (by omega)]
      apply iff_of_false
      · exact fun both => Nat.not_succ_le_self most (both.2 most rfl)
      · exact fun both => small (both.2 most rfl)
  | none =>
    cases minimum with
    | none => simp [Between]
    | some least =>
      rw [boundedCodePointLength_minimum, Between, Between]
      simp

end

/-- `Number.EPSILON`. -/
def epsilon : ℚ := 1 / 2 ^ 52

/-- `Math.round`: the nearest integer, and the greater one of two. -/
def round (value : ℚ) : ℤ := (value + 1 / 2).floor

def isMultipleOf (value divisor : ℚ) : Bool :=
  let quotient := value / divisor
  decide (|quotient - round quotient| ≤ epsilon * max 1 |quotient| * 4)

theorem isMultipleOf_iff {value divisor : ℚ} :
    isMultipleOf value divisor = true ↔
      |value / divisor - round (value / divisor)| ≤
        epsilon * max 1 |value / divisor| * 4 := decide_eq_true_iff

theorem round_intCast (integer : ℤ) : round integer = integer := by
  change ⌊(integer : ℚ) + 1 / 2⌋ = integer
  rw [Int.floor_intCast_add, Int.floor_eq_zero_iff.mpr (by norm_num), add_zero]

theorem isMultipleOf_of_multiple {value divisor : ℚ} (positive : 0 < divisor)
    (multiple : Reading.exact.multiple value divisor) :
    isMultipleOf value divisor = true := by
  obtain ⟨quotient, same⟩ := multiple
  have whole : value / divisor = quotient := by
    rw [same, mul_div_assoc, div_self positive.ne', mul_one]
  rw [isMultipleOf_iff, whole, round_intCast, sub_self, abs_zero, epsilon]
  positivity

theorem isMultipleOf_iff_of_small {value divisor : ℤ} (positive : 0 < divisor)
    (small : divisor < 2 ^ 50) (below : |value| < 2 ^ 50) :
    isMultipleOf value divisor = true ↔
    Reading.exact.multiple value divisor := by
  have above : (0 : ℚ) < divisor := Int.cast_pos.mpr positive
  constructor
  · intro close
    rw [isMultipleOf_iff] at close
    set nearest := round ((value : ℚ) / divisor)
    have distance : |(value : ℚ) - nearest * divisor| < 1 := by
      have scaled : (value : ℚ) - nearest * divisor =
          ((value : ℚ) / divisor - nearest) * divisor := by
        field_simp
      have most : max 1 |(value : ℚ) / divisor| * divisor < 2 ^ 50 := by
        rw [max_mul_of_nonneg _ _ above.le, one_mul, abs_div,
          abs_of_pos above, div_mul_cancel₀ _ above.ne']
        exact max_lt (by exact_mod_cast small) (by exact_mod_cast below)
      calc |(value : ℚ) - nearest * divisor|
          = |(value : ℚ) / divisor - nearest| * divisor := by
            rw [scaled, abs_mul, abs_of_pos above]
        _ ≤ epsilon * max 1 |(value : ℚ) / divisor| * 4 * divisor :=
            mul_le_mul_of_nonneg_right close above.le
        _ = 1 / 2 ^ 50 * (max 1 |(value : ℚ) / divisor| * divisor) := by
            rw [epsilon]
            ring
        _ < 1 / 2 ^ 50 * 2 ^ 50 :=
            mul_lt_mul_of_pos_left most (by norm_num)
        _ = 1 := by norm_num
    have zero : value - nearest * divisor = 0 := by
      rw [← Int.abs_lt_one_iff]
      exact_mod_cast distance
    refine ⟨nearest, ?_⟩
    exact_mod_cast sub_eq_zero.mp zero
  · exact isMultipleOf_of_multiple above

def Reading.code : Reading where
  equal left right := jsonEqual left right = true
  multiple value divisor := isMultipleOf value divisor = true

/-- `~` is written `~0`, and `/` is written `~1`. -/
def escapePointer (key : Text) : Text :=
  key.flatMap fun unit =>
    if unit = 0x7E then text "~0"
    else if unit = 0x2F then text "~1"
    else [unit]

end MachineBridge.Schemas
