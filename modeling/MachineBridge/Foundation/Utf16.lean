import MachineBridge.Foundation.Utf8

/-!
# Texts and octets

A scalar value above U+FFFF is a pair of surrogate units.  A text is written
as the UTF-8 encoding of its scalar values, where a surrogate without its other
half counts as U+FFFD; what is read from octets has no such surrogate.
-/

namespace Foundation

open List

section

variable (unit : UInt16)

def isLeading : Bool := 0xD800 ≤ unit && unit < 0xDC00

def isTrailing : Bool := 0xDC00 ≤ unit && unit < 0xE000

def replacementCharacter : Nat := 0xFFFD

def scalarOfUnit : Nat :=
  if isLeading unit || isTrailing unit then replacementCharacter
  else unit.toNat

end

def scalarOfPair (leading trailing : UInt16) : Nat :=
  0x10000 + (leading.toNat - 0xD800) * 0x400 + (trailing.toNat - 0xDC00)

def scalarValues : Text → List Nat
  | [] => []
  | [unit] => [scalarOfUnit unit]
  | unit :: next :: rest =>
    if isLeading unit && isTrailing next then
      scalarOfPair unit next :: scalarValues rest
    else scalarOfUnit unit :: scalarValues (next :: rest)

def scalarUnits (point : Nat) : Text :=
  if point < 0x10000 then [point.toUInt16]
  else [(0xD800 + (point - 0x10000) / 0x400).toUInt16,
    (0xDC00 + (point - 0x10000) % 0x400).toUInt16]

def ofScalarValues (points : List Nat) : Text := points.flatMap scalarUnits

/-- The octets of a text which is written. -/
def toUtf8 (content : Text) : List UInt8 := utf8Encode (scalarValues content)

def ofUtf8 (octets : List UInt8) : Option Text :=
  (utf8Decode octets).map ofScalarValues

def byteLength (content : Text) : Nat := (toUtf8 content).length

variable {value point : Nat} {unit : UInt16} {after before : Text}

theorem toNat_toUInt16 (small : value < 65536) :
    value.toUInt16.toNat = value := by
  exact Nat.mod_eq_of_lt small

theorem isLeading_iff :
    isLeading unit = true ↔ 0xD800 ≤ unit.toNat ∧ unit.toNat < 0xDC00 := by
  simp [isLeading, UInt16.le_iff_toNat_le, UInt16.lt_iff_toNat_lt]

theorem isTrailing_iff :
    isTrailing unit = true ↔ 0xDC00 ≤ unit.toNat ∧ unit.toNat < 0xE000 := by
  simp [isTrailing, UInt16.le_iff_toNat_le, UInt16.lt_iff_toNat_lt]

theorem not_isTrailing_of_isLeading (leading : isLeading unit = true) :
    isTrailing unit = false := by
  rw [← Bool.not_eq_true, isTrailing_iff]
  have bounds := isLeading_iff.mp leading
  omega

theorem scalarUnits_cases (scalar : IsScalar point) : (∃ unit,
      scalarUnits point = [unit] ∧ isLeading unit = false ∧
      isTrailing unit = false ∧ unit.toNat = point) ∨ ∃ leading trailing,
    scalarUnits point = [leading, trailing] ∧ isLeading leading = true ∧
    isTrailing trailing = true ∧ scalarOfPair leading trailing = point := by
  rw [IsScalar] at scalar
  by_cases small : point < 0x10000
  · left
    have value := toNat_toUInt16 small
    refine ⟨point.toUInt16, if_pos small, ?_, ?_, value⟩
    · rw [← Bool.not_eq_true, isLeading_iff, value]
      omega
    · rw [← Bool.not_eq_true, isTrailing_iff, value]
      omega
  · right
    have high : 0xD800 + (point - 0x10000) / 0x400 < 0xDC00 := by omega
    have low : 0xDC00 + (point - 0x10000) % 0x400 < 0xE000 := by omega
    have first := toNat_toUInt16 (Nat.lt_trans high (by decide))
    have second := toNat_toUInt16 (Nat.lt_trans low (by decide))
    refine ⟨_, _, if_neg small, isLeading_iff.mpr ?_,
      isTrailing_iff.mpr ?_, ?_⟩
    · rw [first]
      exact ⟨Nat.le_add_right _ _, high⟩
    · rw [second]
      exact ⟨Nat.le_add_right _ _, low⟩
    · unfold scalarOfPair
      omega

theorem scalarOfUnit_of_plain (first : isLeading unit = false)
    (second : isTrailing unit = false) : scalarOfUnit unit = unit.toNat := by
  simp [scalarOfUnit, first, second]

theorem scalarValues_cons_of_not_isLeading (rest : Text)
    (plain : isLeading unit = false) :
    scalarValues (unit :: rest) = scalarOfUnit unit :: scalarValues rest := by
  cases rest with
  | nil => rfl
  | cons next rest => simp [scalarValues, plain]

theorem scalarValues_pair {leading trailing : UInt16} (rest : Text)
    (first : isLeading leading = true) (second : isTrailing trailing = true) :
    scalarValues (leading :: trailing :: rest) =
    scalarOfPair leading trailing :: scalarValues rest := by
  simp [scalarValues, first, second]

@[simp] theorem ofScalarValues_cons (point : Nat) (points : List Nat) :
    ofScalarValues (point :: points) =
      scalarUnits point ++ ofScalarValues points := rfl

theorem scalarValues_ofScalarValues {points : List Nat}
    (scalars : ∀ point ∈ points, IsScalar point) :
    scalarValues (ofScalarValues points) = points := by
  induction points with
  | nil => rfl
  | cons point points induction =>
    have rest := induction fun other member =>
      scalars other (mem_cons_of_mem point member)
    rw [ofScalarValues_cons]
    rcases scalarUnits_cases (scalars point mem_cons_self) with
      ⟨unit, units, plain, other, value⟩ |
        ⟨leading, trailing, units, first, second, value⟩
    · rw [units, singleton_append, scalarValues_cons_of_not_isLeading _ plain,
        scalarOfUnit_of_plain plain other, value, rest]
    · rw [units, cons_append, singleton_append,
        scalarValues_pair _ first second, value, rest]

theorem toUtf8_of_ofUtf8 {octets : List UInt8} {content : Text}
    (found : ofUtf8 octets = some content) : toUtf8 content = octets := by
  obtain ⟨points, decoded, rfl⟩ := Option.map_eq_some_iff.mp found
  obtain ⟨scalars, encoded⟩ := utf8Encode_utf8Decode decoded
  rw [toUtf8, scalarValues_ofScalarValues scalars, encoded]

theorem length_le_byteLength (content : Text) :
    content.length ≤ byteLength content := by
  rw [byteLength, toUtf8]
  induction content using scalarValues.induct with
  | case1 => exact Nat.le_refl 0
  | case2 unit =>
    have one := utf8Octets_length_pos (scalarOfUnit unit)
    rw [scalarValues, utf8Encode_cons, length_append]
    exact Nat.le_add_right_of_le one
  | case3 unit next rest pair induction =>
    have wide : 2 ≤ (utf8Octets (scalarOfPair unit next)).length := by
      have high : 0x10000 ≤ scalarOfPair unit next := by
        unfold scalarOfPair
        omega
      unfold utf8Octets
      rw [if_neg (by omega), if_neg (by omega), if_neg (by omega)]
      exact Nat.le_add_left 2 2
    simp only [scalarValues, pair, if_true, utf8Encode_cons,
      length_append, length_cons]
    omega
  | case4 unit next rest single induction =>
    have narrow := utf8Octets_length_pos (scalarOfUnit unit)
    rw [scalarValues, if_neg single, utf8Encode_cons, length_append,
      length_cons]
    omega

theorem le_toNat_toUInt8_add {base : Nat} (low : 0x80 ≤ base)
    (high : base + value < 0x100) : 0x80 ≤ (base + value).toUInt8.toNat := by
  rw [toNat_toUInt8 high]
  exact Nat.le_add_right_of_le low

theorem utf8Octets_high (wide : 0x80 ≤ point) (bound : point < 0x110000) :
    ∀ octet ∈ utf8Octets point, 0x80 ≤ octet.toNat := by
  intro octet member
  unfold utf8Octets at member
  rw [if_neg (Nat.not_lt.mpr wide)] at member
  split at member
  case isTrue =>
    rcases mem_pair.mp member with rfl | rfl <;>
      exact le_toNat_toUInt8_add (by decide) (by omega)
  case isFalse =>
    split at member
    case isTrue =>
      simp only [mem_cons, not_mem_nil, or_false] at member
      rcases member with rfl | rfl | rfl <;>
        exact le_toNat_toUInt8_add (by decide) (by omega)
    case isFalse =>
      simp only [mem_cons, not_mem_nil, or_false] at member
      rcases member with rfl | rfl | rfl | rfl <;>
        exact le_toNat_toUInt8_add (by decide) (by omega)

theorem count_utf8Octets {octet : UInt8} (small : octet.toNat < 0x80)
    (bound : point < 0x110000) :
    (utf8Octets point).count octet = if point = octet.toNat then 1 else 0 := by
  by_cases ascii : point < 0x80
  · have single : utf8Octets point = [point.toUInt8] := if_pos ascii
    have value := toNat_toUInt8 (Nat.lt_trans ascii (by decide))
    rw [single, count_singleton]
    by_cases same : point = octet.toNat
    · rw [if_pos same, if_pos]
      rw [beq_iff_eq, ← UInt8.toNat_inj, value, same]
    · rw [if_neg same, if_neg]
      rw [beq_iff_eq, ← UInt8.toNat_inj, value]
      exact same
  · have wide := Nat.le_of_not_lt ascii
    rw [if_neg (by omega), count_eq_zero]
    intro member
    exact absurd small (Nat.not_lt.mpr (utf8Octets_high wide bound _ member))

theorem scalarOfUnit_eq_iff (small : value < 0x80) :
    scalarOfUnit unit = value ↔ unit.toNat = value := by
  rw [scalarOfUnit]
  split
  case isTrue surrogate =>
    rw [Bool.or_eq_true, isLeading_iff, isTrailing_iff] at surrogate
    rw [replacementCharacter]
    omega
  case isFalse => rfl

theorem scalarOfUnit_lt (unit : UInt16) : scalarOfUnit unit < 0x110000 := by
  have small := unit.toNat_lt
  rw [scalarOfUnit]
  split
  · decide
  · omega

theorem count_toUtf8 {octet : UInt8} (same : unit.toNat = octet.toNat)
    (small : octet.toNat < 0x80) (content : Text) :
    (toUtf8 content).count octet = content.count unit := by
  have single : ∀ other : UInt16,
      (utf8Octets (scalarOfUnit other)).count octet = if other ==
      unit then 1 else 0 := by
    intro other
    rw [count_utf8Octets small (scalarOfUnit_lt other)]
    congr 1
    rw [scalarOfUnit_eq_iff small, beq_iff_eq, ← UInt16.toNat_inj, same]
  rw [toUtf8]
  induction content using scalarValues.induct with
  | case1 => rfl
  | case2 other =>
    rw [scalarValues, utf8Encode_cons, count_append, single, count_cons]
    exact Nat.add_comm _ _
  | case3 first second rest pair induction =>
    have both := pair
    rw [Bool.and_eq_true, isLeading_iff, isTrailing_iff] at both
    have bound : scalarOfPair first second < 0x110000 := by
      unfold scalarOfPair
      omega
    have apart : scalarOfPair first second ≠ octet.toNat := by
      unfold scalarOfPair
      omega
    have one : first ≠ unit := by
      rintro rfl
      omega
    have two : second ≠ unit := by
      rintro rfl
      omega
    rw [scalarValues, if_pos pair, utf8Encode_cons, count_append,
      count_utf8Octets small bound, if_neg apart, Nat.zero_add, induction,
      count_cons_of_ne one, count_cons_of_ne two]
  | case4 first second rest lone induction =>
    rw [scalarValues, if_neg lone, utf8Encode_cons, count_append,
      single, induction, count_cons (l := second :: rest)]
    exact Nat.add_comm _ _

def EndsInPair (content : Text) : Prop :=
  ∃ unit, content.getLast? = some unit ∧ isLeading unit = true

def StartsInPair (content : Text) : Prop :=
  ∃ unit, content.head? = some unit ∧ isTrailing unit = true

section

variable (whole : ¬ (EndsInPair before ∧ StartsInPair after))
include whole

theorem scalarValues_append :
    scalarValues (before ++ after) = scalarValues before ++
    scalarValues after := by
  induction before using scalarValues.induct with
  | case1 => rfl
  | case2 unit =>
    cases after with
    | nil => rfl
    | cons next rest =>
      have single : (isLeading unit && isTrailing next) = false := by
        rw [← Bool.not_eq_true, Bool.and_eq_true]
        intro both
        exact whole ⟨⟨unit, rfl, both.1⟩, ⟨next, rfl, both.2⟩⟩
      simp [scalarValues, single]
  | case3 unit next rest pair induction =>
    have inner : ¬ (EndsInPair rest ∧ StartsInPair after) := by
      rintro ⟨⟨last, ends, leading⟩, starts⟩
      apply whole
      refine ⟨⟨last, ?_, leading⟩, starts⟩
      rw [getLast?_cons, getLast?_cons, ends]
      rfl
    have rest := induction inner
    simp [scalarValues, pair, rest]
  | case4 unit next rest single induction =>
    have inner : ¬ (EndsInPair (next :: rest) ∧ StartsInPair after) := by
      rintro ⟨⟨last, ends, leading⟩, starts⟩
      apply whole
      refine ⟨⟨last, ?_, leading⟩, starts⟩
      rw [getLast?_cons, ends]
      rfl
    have rest := induction inner
    rw [cons_append] at rest
    simp [scalarValues, single, rest]

theorem toUtf8_append :
    toUtf8 (before ++ after) = toUtf8 before ++ toUtf8 after := by
  rw [toUtf8, scalarValues_append whole, utf8Encode_append]
  rfl

end

theorem byteLength_append_lt (cut : EndsInPair before)
    (starts : StartsInPair after) :
    byteLength (before ++ after) < byteLength before + byteLength after := by
  obtain ⟨trailing, head, second⟩ := starts
  cases after with
  | nil => cases head
  | cons unit rest =>
    obtain rfl := Option.some.inj head
    obtain ⟨leading, last, first⟩ := cut
    obtain ⟨start, rfl⟩ := getLast?_eq_some_iff.mp last
    have plain : isLeading unit = false := by
      rw [← Bool.not_eq_true]
      intro other
      rw [not_isTrailing_of_isLeading other] at second
      exact Bool.false_ne_true second
    have inner : ∀ tail : Text,
        ¬ (EndsInPair start ∧ StartsInPair (leading :: tail)) := by
      rintro tail ⟨_, next, found, trail⟩
      obtain rfl := Option.some.inj found
      rw [not_isTrailing_of_isLeading first] at trail
      exact Bool.false_ne_true trail
    have halves : (utf8Octets replacementCharacter).length = 3 := by decide
    have pair := utf8Octets_length_le (scalarOfPair leading unit)
    have lone : scalarOfUnit leading = replacementCharacter := by
      simp [scalarOfUnit, first]
    have other : scalarOfUnit unit = replacementCharacter := by
      simp [scalarOfUnit, second]
    have joined : start ++ [leading] ++ unit :: rest =
        start ++ leading :: unit :: rest := by simp
    simp only [byteLength, toUtf8]
    rw [joined, scalarValues_append (inner (unit :: rest)),
      scalarValues_append (inner []), scalarValues_pair rest first second,
      scalarValues_cons_of_not_isLeading rest plain, other]
    simp only [scalarValues, lone, utf8Encode_append, utf8Encode_cons,
      utf8Encode_nil, length_append, length_nil, halves]
    omega

theorem endsInPair_cons_cons {next : UInt16} {rest : Text} :
    EndsInPair (unit :: next :: rest) ↔ EndsInPair (next :: rest) := by
  simp [EndsInPair]

theorem endsInPair_cons_of_not_isLeading {rest : Text}
    (plain : isLeading unit = false) :
    EndsInPair (unit :: rest) ↔ EndsInPair rest := by
  cases rest with
  | nil => simp [EndsInPair, plain]
  | cons next rest => exact endsInPair_cons_cons

theorem endsInPair_iff_startsInPair {octets : List UInt8}
    (found : ofUtf8 octets = some (before ++ after)) :
    EndsInPair before ↔ StartsInPair after := by
  obtain ⟨points, decoded, same⟩ := Option.map_eq_some_iff.mp found
  obtain ⟨scalars, -⟩ := utf8Encode_utf8Decode decoded
  clear found decoded
  induction points generalizing before with
  | nil =>
    obtain ⟨rfl, rfl⟩ := append_eq_nil_iff.mp same.symm
    simp [EndsInPair, StartsInPair]
  | cons point points induction =>
    have valid : ∀ other ∈ points, IsScalar other := fun other member =>
      scalars other (mem_cons_of_mem point member)
    rw [ofScalarValues_cons] at same
    rcases scalarUnits_cases (scalars point mem_cons_self) with
      ⟨unit, units, plain, whole, -⟩ |
        ⟨leading, trailing, units, first, second, -⟩
    · rw [units, singleton_append] at same
      cases before with
      | nil =>
        rw [nil_append] at same
        simp [← same, EndsInPair, StartsInPair, whole]
      | cons head before =>
        obtain ⟨rfl, rest⟩ := List.cons.inj same
        rw [endsInPair_cons_of_not_isLeading plain]
        exact induction rest valid
    · rw [units, cons_append, singleton_append] at same
      have other := not_isTrailing_of_isLeading first
      cases before with
      | nil =>
        rw [nil_append] at same
        simp [← same, EndsInPair, StartsInPair, other]
      | cons head before =>
        obtain ⟨rfl, rest⟩ := List.cons.inj same
        cases before with
        | nil =>
          change trailing :: ofScalarValues points = after at rest
          simp [← rest, EndsInPair, StartsInPair, first, second]
        | cons middle before =>
          have below : trailing :: ofScalarValues points =
              middle :: (before ++ after) := rest
          obtain ⟨rfl, others⟩ := List.cons.inj below
          have plain : isLeading trailing = false := by
            rw [← Bool.not_eq_true]
            intro leading
            rw [not_isTrailing_of_isLeading leading] at second
            exact Bool.false_ne_true second
          rw [endsInPair_cons_cons, endsInPair_cons_of_not_isLeading plain]
          exact induction others valid

end Foundation
