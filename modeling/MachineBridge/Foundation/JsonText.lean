import MachineBridge.Foundation.Json
import MachineBridge.Foundation.Utf16
import Mathlib.Data.Nat.Digits.Lemmas

/-!
# JSON texts

What `JSON.stringify` writes, and how many octets it takes.  How a number is
written is left open, except that a natural number which a counter can reach is
written in decimal digits.
-/

namespace Foundation

open List

structure NumberFormat where
  format : ℚ → Text
  natural : ∀ number : Nat, number ≤ maxSafeInteger + 1 →
    format number = decimal number
  ascii : ∀ number, ∀ unit ∈ format number, unit.toNat < 0x80

theorem decimal_ascii (number : Nat) :
    ∀ unit ∈ decimal number, unit.toNat < 0x80 := by
  intro unit member
  rw [decimal] at member
  split at member
  · rw [mem_singleton.mp member]
    decide
  · obtain ⟨digit, inside, rfl⟩ := List.mem_map.mp member
    have small := Nat.digits_lt_base (by decide : 1 < 10)
      (mem_reverse.mp inside)
    rw [toNat_toUInt16 (by omega)]
    omega

/-- Naturals as they are, and nothing else told apart. -/
def NumberFormat.naturals : NumberFormat where
  format := fun number => decimal number.num.natAbs
  natural := fun _ _ => rfl
  ascii := fun number => decimal_ascii number.num.natAbs

def hexDigit (value : Nat) : UInt16 :=
  if value < 10 then (0x30 + value).toUInt16 else (0x57 + value).toUInt16

/-- A unit as `\u` and four hexadecimal digits. -/
def unicodeEscape (unit : UInt16) : Text :=
  let value := unit.toNat
  [0x5C, 0x75, hexDigit (value / 4096), hexDigit (value / 256 % 16),
    hexDigit (value / 16 % 16), hexDigit (value % 16)]

def escapeUnit (unit : UInt16) : Text :=
  if unit == 0x22 then [0x5C, 0x22]
  else if unit == 0x5C then [0x5C, 0x5C]
  else if unit == 0x08 then [0x5C, 0x62]
  else if unit == 0x09 then [0x5C, 0x74]
  else if unit == 0x0A then [0x5C, 0x6E]
  else if unit == 0x0C then [0x5C, 0x66]
  else if unit == 0x0D then [0x5C, 0x72]
  else if unit < 0x20 || isLeading unit || isTrailing unit then
    unicodeEscape unit
  else [unit]

def escapeUnits : Text → Text
  | [] => []
  | [unit] => escapeUnit unit
  | unit :: next :: rest =>
    if isLeading unit && isTrailing next then
      unit :: next :: escapeUnits rest
    else escapeUnit unit ++ escapeUnits (next :: rest)

def quoted (content : Text) : Text := 0x22 :: (escapeUnits content ++ [0x22])

def commaSeparated : List Text → Text
  | [] => []
  | [part] => part
  | part :: next :: rest => part ++ 0x2C :: commaSeparated (next :: rest)

namespace Json

variable (numbers : NumberFormat)

mutual

def stringify : Json → Text
  | null => text "null"
  | boolean value => if value then text "true" else text "false"
  | number value => numbers.format value
  | string content => quoted content
  | array items => 0x5B :: (commaSeparated (stringifyItems items) ++ [0x5D])
  | object fields =>
    0x7B :: (commaSeparated (stringifyFields fields) ++ [0x7D])

def stringifyItems : List Json → List Text
  | [] => []
  | item :: items => stringify item :: stringifyItems items

def stringifyFields : List (Text × Json) → List Text
  | [] => []
  | (key, value) :: fields =>
    (quoted key ++ 0x3A :: stringify value) :: stringifyFields fields

end

theorem stringifyItems_eq (items : List Json) :
    stringifyItems numbers items = items.map (stringify numbers) := by
  induction items with
  | nil => rfl
  | cons item items induction => rw [stringifyItems, induction, map_cons]

theorem stringifyFields_eq (fields : List (Text × Json)) :
    stringifyFields numbers fields = fields.map fun field => quoted field.1 ++
    0x3A :: stringify numbers field.2 := by
  induction fields with
  | nil => rfl
  | cons field fields induction => rw [stringifyFields, induction, map_cons]

end Json

variable {unit : UInt16} {content : Text}

section

variable (ascii : unit.toNat < 0x80)
include ascii

theorem isLeading_of_ascii : isLeading unit = false := by
  rw [← Bool.not_eq_true, isLeading_iff]
  omega

theorem isTrailing_of_ascii : isTrailing unit = false := by
  rw [← Bool.not_eq_true, isTrailing_iff]
  omega

theorem byteLength_cons_of_ascii (rest : Text) :
    byteLength (unit :: rest) = 1 + byteLength rest := by
  have plain := isLeading_of_ascii ascii
  have value := scalarOfUnit_of_plain plain (isTrailing_of_ascii ascii)
  have single : utf8Octets (scalarOfUnit unit) = [unit.toNat.toUInt8] := by
    rw [value, utf8Octets, if_pos ascii]
  rw [byteLength, toUtf8, scalarValues_cons_of_not_isLeading rest plain,
    utf8Encode_cons, single, length_append]
  rfl

end

theorem byteLength_append {before after : Text}
    (starts : ¬ StartsInPair after) :
    byteLength (before ++ after) = byteLength before + byteLength after := by
  rw [byteLength, toUtf8, scalarValues_append fun both => starts both.2,
    utf8Encode_append, length_append]
  rfl

theorem not_startsInPair_cons (ascii : unit.toNat < 0x80) (rest : Text) :
    ¬ StartsInPair (unit :: rest) := by
  intro starts
  obtain ⟨other, here, trailing⟩ := starts
  cases here
  rw [isTrailing_of_ascii ascii] at trailing
  cases trailing

theorem byteLength_of_ascii (ascii : ∀ unit ∈ content, unit.toNat < 0x80) :
    byteLength content = content.length := by
  induction content with
  | nil => rfl
  | cons unit content induction =>
    rw [byteLength_cons_of_ascii (ascii unit mem_cons_self),
      induction fun other member => ascii other (.tail unit member),
      length_cons]
    exact Nat.add_comm _ _

theorem byteLength_commaSeparated (parts : List Text) (present : parts ≠ [])
    (starts : ∀ part ∈ parts, ¬ StartsInPair part) :
    byteLength (commaSeparated parts) + 1 =
    (parts.map fun part => byteLength part + 1).sum := by
  induction parts using commaSeparated.induct with
  | case1 => exact absurd rfl present
  | case2 part => simp [commaSeparated]
  | case3 part next rest induction =>
    have later := induction (cons_ne_nil _ _) fun other member =>
      starts other (.tail part member)
    have comma : (0x2C : UInt16).toNat < 0x80 := by decide
    rw [commaSeparated, byteLength_append (not_startsInPair_cons comma _),
      byteLength_cons_of_ascii comma, map_cons, sum_cons]
    omega

theorem byteLength_bracketed {opening closing : UInt16}
    (first : opening.toNat < 0x80) (last : closing.toNat < 0x80)
    {parts : List Text} (starts : ∀ part ∈ parts, ¬ StartsInPair part) :
    byteLength (opening :: (commaSeparated parts ++ [closing])) = if parts =
    [] then 2 else 1 + (parts.map fun part => byteLength part + 1).sum := by
  have single : byteLength [closing] = 1 := byteLength_cons_of_ascii last []
  rw [byteLength_cons_of_ascii first,
    byteLength_append (not_startsInPair_cons last []), single]
  split
  case isTrue none =>
    rw [none]
    rfl
  case isFalse present => rw [← byteLength_commaSeparated parts present starts]

def isPlain (unit : UInt16) : Bool :=
  0x20 ≤ unit && unit < 0x80 && unit != 0x22 && unit != 0x5C

theorem toNat_lt_of_isPlain (plain : isPlain unit = true) :
    unit.toNat < 0x80 := by
  simp only [isPlain, Bool.and_eq_true, decide_eq_true_eq] at plain
  exact plain.1.1.2

theorem isPlain_of_isBase64Url (word : isBase64Url unit = true) :
    isPlain unit = true := by
  simp only [isBase64Url, isUpper, isLower, isDigit, isPlain, Bool.or_eq_true,
    Bool.and_eq_true, decide_eq_true_eq, beq_iff_eq, bne_iff_ne, ne_eq,
    UInt16.le_iff_toNat_le, UInt16.lt_iff_toNat_lt, ← UInt16.toNat_inj,
    UInt16.reduceToNat] at *
  omega

theorem escapeUnit_of_isPlain (plain : isPlain unit = true) :
    escapeUnit unit = [unit] := by
  have ascii := toNat_lt_of_isPlain plain
  simp only [isPlain, Bool.and_eq_true, decide_eq_true_eq, bne_iff_ne,
    UInt16.le_iff_toNat_le] at plain
  obtain ⟨⟨⟨low, -⟩, quote⟩, backslash⟩ := plain
  have control : ∀ other : UInt16, other.toNat < 0x20 →
      (unit == other) = false := by
    intro other small
    rw [beq_eq_false_iff_ne]
    rintro rfl
    exact absurd low (Nat.not_le.mpr small)
  have visible : ¬ unit < 0x20 := by
    rw [UInt16.lt_iff_toNat_lt]
    exact Nat.not_lt.mpr low
  simp [escapeUnit, quote, backslash, control, visible,
    isLeading_of_ascii ascii, isTrailing_of_ascii ascii]

theorem escapeUnits_of_isPlain (plain : content.all isPlain = true) :
    escapeUnits content = content := by
  induction content using escapeUnits.induct with
  | case1 => rfl
  | case2 unit =>
    rw [escapeUnits]
    exact escapeUnit_of_isPlain (all_eq_true.mp plain unit (by simp))
  | case3 unit next rest pair induction =>
    have ascii := toNat_lt_of_isPlain
      (all_eq_true.mp plain unit (by simp))
    rw [isLeading_of_ascii ascii] at pair
    cases pair
  | case4 unit next rest single induction =>
    rw [all_cons, Bool.and_eq_true] at plain
    rw [escapeUnits, if_neg single, induction plain.2,
      escapeUnit_of_isPlain plain.1]
    rfl

theorem byteLength_quoted (plain : content.all isPlain = true) :
    byteLength (quoted content) = content.length + 2 := by
  rw [quoted, escapeUnits_of_isPlain plain]
  have ascii : ∀ unit ∈ (0x22 :: (content ++ [0x22]) : Text),
      unit.toNat < 0x80 := by
    intro unit member
    simp only [mem_cons, mem_append, not_mem_nil, or_false]
      at member
    rcases member with rfl | inside | rfl
    · decide
    · exact toNat_lt_of_isPlain (all_eq_true.mp plain unit inside)
    · decide
  rw [byteLength_of_ascii ascii]
  simp

namespace Json

variable (numbers : NumberFormat)

/-- The octets of the text of a value. -/
def byteSize (value : Json) : Nat := byteLength (stringify numbers value)

theorem stringify_starts (value : Json) :
    ¬ StartsInPair (stringify numbers value) := by
  cases value with
  | null =>
    rw [stringify]
    exact not_startsInPair_cons (by decide) _
  | boolean value =>
    rw [stringify]
    cases value with
    | false | true => exact not_startsInPair_cons (by decide) _
  | number value =>
    rw [stringify]
    intro starts
    obtain ⟨unit, here, trailing⟩ := starts
    have ascii := numbers.ascii value unit (mem_of_mem_head? here)
    rw [isTrailing_of_ascii ascii] at trailing
    cases trailing
  | string content | array items | object fields =>
    rw [stringify]
    exact not_startsInPair_cons (by decide) _

theorem byteSize_array (items : List Json) : byteSize numbers (array items) =
    if items = [] then 2 else 1 +
    (items.map fun item => byteSize numbers item + 1).sum := by
  have starts : ∀ part ∈ items.map (stringify numbers),
      ¬ StartsInPair part := by
    intro part member
    obtain ⟨item, -, rfl⟩ := List.mem_map.mp member
    exact stringify_starts numbers item
  rw [byteSize, stringify, stringifyItems_eq,
    byteLength_bracketed (by decide) (by decide) starts, map_map]
  simp only [map_eq_nil_iff]
  rfl

def fieldSize (field : Text × Json) : Nat :=
  byteLength (quoted field.1) + 1 + byteSize numbers field.2

theorem byteSize_object (fields : List (Text × Json)) :
    byteSize numbers (object fields) = if fields = [] then 2 else 1 +
    (fields.map fun field => fieldSize numbers field + 1).sum := by
  have colon : (0x3A : UInt16).toNat < 0x80 := by decide
  have starts : ∀ part ∈ fields.map (fun field =>
      quoted field.1 ++ 0x3A :: stringify numbers field.2),
      ¬ StartsInPair part := by
    intro part member
    obtain ⟨field, -, rfl⟩ := List.mem_map.mp member
    exact not_startsInPair_cons (by decide) _
  have sizes : ∀ field : Text × Json,
      byteLength (quoted field.1 ++ 0x3A :: stringify numbers field.2) =
      fieldSize numbers field := by
    intro field
    rw [byteLength_append (not_startsInPair_cons colon _),
      byteLength_cons_of_ascii colon, fieldSize, byteSize]
    exact (Nat.add_assoc _ _ _).symm
  rw [byteSize, stringify, stringifyFields_eq,
    byteLength_bracketed (by decide) (by decide) starts, map_map]
  simp only [map_eq_nil_iff, Function.comp_def, sizes]

theorem byteSize_string {content : Text} (plain : content.all isPlain = true) :
    byteSize numbers (string content) = content.length + 2 := by
  rw [byteSize, stringify, byteLength_quoted plain]

theorem byteSize_natural {number : Nat} (small : number ≤ maxSafeInteger + 1) :
    byteSize numbers (natural number) = (decimal number).length := by
  have written : stringify numbers (natural number) = decimal number := by
    rw [natural, stringify, numbers.natural number small]
  have ascii : ∀ unit ∈ decimal number, unit.toNat < 0x80 := by
    rw [← numbers.natural number small]
    exact numbers.ascii number
  rw [byteSize, written, byteLength_of_ascii ascii]

end Json

theorem decimal_length_le {number digits : Nat} (some : 0 < digits)
    (small : number < 10 ^ digits) : (decimal number).length ≤ digits := by
  rw [decimal]
  split
  · exact some
  case isFalse positive =>
    rw [length_map, length_reverse]
    exact (Nat.digits_length_le_iff (by decide) number).mpr small

end Foundation
