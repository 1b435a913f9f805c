import Mathlib.Data.List.Basic
import Mathlib.Data.Nat.Digits.Defs

/-!
# Texts

A string of the program is a sequence of UTF-16 code units, and its length is
the number of units.  The patterns which the program tests are anchored at both
ends: a label followed by a bounded run of characters of one class.
-/

namespace Foundation

open List

abbrev Text := List UInt16

def codeUnits (character : Char) : List UInt16 :=
  let code := character.toNat
  if code < 0x10000 then [code.toUInt16]
  else [(0xD800 + (code - 0x10000) / 0x400).toUInt16,
    (0xDC00 + (code - 0x10000) % 0x400).toUInt16]

def text (literal : String) : Text := literal.toList.flatMap codeUnits

section

variable (unit : UInt16)

def isDigit : Bool := 0x30 ≤ unit && unit ≤ 0x39

def isUpper : Bool := 0x41 ≤ unit && unit ≤ 0x5A

def isLower : Bool := 0x61 ≤ unit && unit ≤ 0x7A

/-- The class `[A-Za-z0-9_-]`. -/
def isBase64Url : Bool :=
  isUpper unit || isLower unit || isDigit unit || unit == 0x5F || unit == 0x2D

/-- The class `[a-f0-9]`. -/
def isHex : Bool :=
  isDigit unit || (0x61 ≤ unit && unit ≤ 0x66)

/-- The class `\s`, which is also what trimming removes. -/
def isWhitespace : Bool :=
  (0x09 ≤ unit && unit ≤ 0x0D) || unit == 0x20 || unit == 0xA0 ||
    unit == 0x1680 || (0x2000 ≤ unit && unit ≤ 0x200A) || unit == 0x2028 ||
    unit == 0x2029 || unit == 0x202F || unit == 0x205F || unit == 0x3000 ||
    unit == 0xFEFF

end

def trim (content : Text) : Text :=
  ((content.dropWhile isWhitespace).reverse.dropWhile isWhitespace).reverse

/-- Lower case, as far as a comparison with an ASCII text can see it: the
Kelvin sign is the one other unit whose lower case is an ASCII letter. -/
def toLowerCase (content : Text) : Text :=
  content.map fun unit =>
    if isUpper unit then unit + 0x20
    else if unit == 0x212A then 0x6B
    else unit

/-- The first choice which is not empty. -/
def orElse (content fallback : Text) : Text :=
  if content.isEmpty then fallback else content

def decimal (number : Nat) : Text :=
  if number = 0 then [0x30]
  else (Nat.digits 10 number).reverse.map fun digit => (0x30 + digit).toUInt16

def ofDecimal (content : Text) : Nat :=
  Nat.ofDigits 10 (content.reverse.map fun unit => unit.toNat - 0x30)

@[simp] theorem ofDecimal_decimal (number : Nat) :
    ofDecimal (decimal number) = number := by
  by_cases zero : number = 0
  · simp [zero, decimal, ofDecimal]
  · have digits : (Nat.digits 10 number).map (fun digit =>
        (0x30 + digit).toUInt16.toNat - 0x30) = Nat.digits 10 number := by
      have same : ∀ digit ∈ Nat.digits 10 number,
          (0x30 + digit).toUInt16.toNat - 0x30 = digit := by
        intro digit member
        have small := Nat.digits_lt_base (by decide : 1 < 10) member
        rw [Nat.toUInt16, UInt16.toNat_ofNat']
        omega
      rw [map_congr_left same, map_id']
    rw [ofDecimal, decimal, if_neg zero, ← map_reverse,
      reverse_reverse, map_map]
    simp only [Function.comp_def, digits, Nat.ofDigits_digits]

theorem decimal_injective : Function.Injective decimal := by
  intro first second same
  rw [← ofDecimal_decimal first, same, ofDecimal_decimal]

theorem append_separator_inj {separator : UInt16}
    {first second firstRest secondRest : Text} (one : separator ∉ first)
    (other : separator ∉ second)
    (same : first ++ separator :: firstRest = second ++ separator :: secondRest)
    : first = second ∧ firstRest = secondRest := by
  induction first generalizing second with
  | nil =>
    cases second with
    | nil => exact ⟨rfl, (List.cons.inj same).2⟩
    | cons unit second =>
      have equal := (List.cons.inj same).1
      exact absurd (by simp [equal]) other
  | cons unit first induction =>
    cases second with
    | nil =>
      have equal := (List.cons.inj same).1
      exact absurd (by simp [equal]) one
    | cons unit' second =>
      obtain ⟨head, tail⟩ := List.cons.inj same
      obtain ⟨rest, ends⟩ := induction (fun member => one (mem_cons_of_mem _
        member)) (fun member => other (mem_cons_of_mem _ member)) tail
      exact ⟨by rw [head, rest], ends⟩

/-- Between `low` and `high` units of one class. -/
def fits (allowed : UInt16 → Bool) (low high : Nat) (content : Text) : Bool :=
  low ≤ content.length && content.length ≤ high && content.all allowed

def labelled (label : Text) (body : Text → Bool) (content : Text) : Bool :=
  label.isPrefixOf content && body (content.drop label.length)

@[simp] theorem labelled_append (label : Text) (body : Text → Bool)
    (content : Text) :
    labelled label body (label ++ content) = body content := by
  simp [labelled]

theorem fits_iff {allowed : UInt16 → Bool} {low high : Nat} {content : Text} :
    fits allowed low high content = true ↔ low ≤ content.length ∧
    content.length ≤ high ∧ content.all allowed = true := by
  simp [fits, and_assoc]

/-- A digest or random value in unpadded base64url. -/
abbrev Base64Url (length : Nat) :=
  { content : Text // fits isBase64Url length length content = true }

/-- A digest in lower-case hexadecimal. -/
abbrev HexText (length : Nat) :=
  { content : Text // fits isHex length length content = true }

end Foundation
