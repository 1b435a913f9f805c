import MachineBridge.Foundation.Text

/-!
# Base64

The two functions of the language between octets and a text over 64
characters.  Three octets become four characters, and one or two pads complete
the last group.  Decoding skips the whitespace of ASCII, takes the pads off a
text of whole groups, and drops the bits which complete no octet.
-/

namespace Foundation

open List

def sextetUnit (value : Nat) : UInt16 :=
  if value < 26 then (0x41 + value).toUInt16
  else if value < 52 then (0x61 + (value - 26)).toUInt16
  else if value < 62 then (0x30 + (value - 52)).toUInt16
  else if value = 62 then 0x2B
  else 0x2F

def sextet (unit : UInt16) : Option Nat :=
  if isUpper unit then some (unit.toNat - 0x41)
  else if isLower unit then some (unit.toNat - 0x61 + 26)
  else if isDigit unit then some (unit.toNat - 0x30 + 52)
  else if unit = 0x2B then some 62
  else if unit = 0x2F then some 63
  else none

def pad : UInt16 := 0x3D

def isAsciiWhitespace (unit : UInt16) : Bool :=
  unit == 0x09 || unit == 0x0A || unit == 0x0C || unit == 0x0D || unit == 0x20

theorem sextet_sextetUnit :
    ∀ value < 64, sextet (sextetUnit value) = some value := by
  decide

theorem sextetUnit_ne_pad : ∀ value < 64, sextetUnit value ≠ pad := by decide

theorem isAsciiWhitespace_sextetUnit :
    ∀ value < 64, isAsciiWhitespace (sextetUnit value) = false := by
  decide

def sextets : List UInt8 → List Nat
  | first :: second :: third :: rest =>
    first.toNat / 4 :: (first.toNat % 4 * 16 + second.toNat / 16) ::
      (second.toNat % 16 * 4 + third.toNat / 64) :: third.toNat % 64 ::
      sextets rest
  | [first, second] =>
    [first.toNat / 4, first.toNat % 4 * 16 + second.toNat / 16,
      second.toNat % 16 * 4]
  | [first] => [first.toNat / 4, first.toNat % 4 * 16]
  | [] => []

def octets : List Nat → List UInt8
  | first :: second :: third :: fourth :: rest =>
    (first * 4 + second / 16).toUInt8 ::
      (second % 16 * 16 + third / 4).toUInt8 ::
      (third % 4 * 64 + fourth).toUInt8 :: octets rest
  | [first, second, third] =>
    [(first * 4 + second / 16).toUInt8, (second % 16 * 16 + third / 4).toUInt8]
  | [first, second] => [(first * 4 + second / 16).toUInt8]
  | _ => []

section

variable (bytes : List UInt8)

def pads : Text :=
  if bytes.length % 3 = 1 then [pad, pad]
  else if bytes.length % 3 = 2 then [pad]
  else []

def btoa : Text :=
  (sextets bytes).map sextetUnit ++ pads bytes

def dropPad (content : Text) : Text :=
  if content.getLast? = some pad then content.dropLast else content

def unpadded (content : Text) : Text :=
  if content.length % 4 = 0 then dropPad (dropPad content) else content

def atob (content : Text) : Option (List UInt8) :=
  let units := unpadded (content.filter fun unit => !isAsciiWhitespace unit)
  if units.length % 4 = 1 then none else (units.mapM sextet).map octets

theorem toUInt8_eq {value : Nat} {byte : UInt8} (same : value = byte.toNat) :
    value.toUInt8 = byte := by
  rw [same]
  simp

theorem octets_sextets : octets (sextets bytes) = bytes := by
  induction bytes using sextets.induct with
  | case1 first second third rest induction =>
    have two := second.toNat_lt
    have three := third.toNat_lt
    rw [sextets, octets, induction, toUInt8_eq, toUInt8_eq, toUInt8_eq]
    · omega
    · omega
    · omega
  | case2 first second =>
    have two := second.toNat_lt
    rw [sextets, octets, toUInt8_eq, toUInt8_eq]
    · omega
    · omega
  | case3 first =>
    rw [sextets, octets, toUInt8_eq]
    omega
  | case4 => rfl

end

theorem lt_of_mem_sextets {bytes : List UInt8} {value : Nat}
    (member : value ∈ sextets bytes) : value < 64 := by
  induction bytes using sextets.induct with
  | case1 first second third rest induction =>
    have one := first.toNat_lt
    have two := second.toNat_lt
    have three := third.toNat_lt
    simp only [sextets, mem_cons] at member
    rcases member with same | same | same | same | rest
    · omega
    · omega
    · omega
    · omega
    · exact induction rest
  | case2 first second =>
    have one := first.toNat_lt
    have two := second.toNat_lt
    simp only [sextets, mem_cons, not_mem_nil, or_false] at member
    omega
  | case3 first =>
    have one := first.toNat_lt
    simp only [sextets, mem_cons, not_mem_nil, or_false] at member
    omega
  | case4 => cases member

section

variable (bytes : List UInt8)

theorem length_sextets :
    (sextets bytes).length = bytes.length + (bytes.length + 2) / 3 := by
  induction bytes using sextets.induct with
  | case1 first second third rest induction =>
    simp only [sextets, length_cons, induction]
    omega
  | case2 first second => simp [sextets]
  | case3 first => simp [sextets]
  | case4 => rfl

@[simp] theorem dropPad_append_pad (content : Text) :
    dropPad (content ++ [pad]) = content := by
  simp [dropPad]

theorem dropPad_eq_self {content : Text} (clean : pad ∉ content) :
    dropPad content = content := by
  apply if_neg
  intro last
  exact clean (mem_of_getLast? last)

theorem length_btoa : (btoa bytes).length = (bytes.length + 2) / 3 * 4 := by
  simp only [btoa, length_append, length_map, length_sextets, pads]
  split
  case isTrue one =>
    simp only [length_cons, length_nil]
    omega
  case isFalse notOne =>
    split
    case isTrue two =>
      simp only [length_cons, length_nil]
      omega
    case isFalse notTwo =>
      simp only [length_nil]
      omega

theorem unpadded_btoa :
    unpadded (btoa bytes) = (sextets bytes).map sextetUnit := by
  have whole : (btoa bytes).length % 4 = 0 := by
    rw [length_btoa]
    exact Nat.mul_mod_left _ _
  have clean : pad ∉ (sextets bytes).map sextetUnit := by
    intro member
    obtain ⟨value, inside, same⟩ := List.mem_map.mp member
    exact sextetUnit_ne_pad value (lt_of_mem_sextets inside) same
  rw [unpadded, if_pos whole, btoa, pads]
  split
  case isTrue =>
    have two : [pad, pad] = [pad] ++ [pad] := rfl
    rw [two, ← append_assoc, dropPad_append_pad, dropPad_append_pad]
  case isFalse =>
    split
    case isTrue => rw [dropPad_append_pad, dropPad_eq_self clean]
    case isFalse =>
      rw [append_nil, dropPad_eq_self clean, dropPad_eq_self clean]

theorem filter_btoa :
    (btoa bytes).filter (fun unit => !isAsciiWhitespace unit) =
    btoa bytes := by
  apply filter_eq_self.mpr
  intro unit member
  rcases mem_append.mp member with body | padding
  · obtain ⟨value, inside, same⟩ := List.mem_map.mp body
    rw [← same, isAsciiWhitespace_sextetUnit value (lt_of_mem_sextets inside)]
    rfl
  · have same : unit = pad := by
      simp only [pads] at padding
      split at padding
      case isTrue => simpa using padding
      case isFalse =>
        split at padding
        case isTrue => simpa using padding
        case isFalse => cases padding
    rw [same]
    rfl

theorem mapM_sextet {values : List Nat}
    (small : ∀ value ∈ values, value < 64) :
    (values.map sextetUnit).mapM sextet = some values := by
  induction values with
  | nil => rfl
  | cons value values induction =>
    have first := sextet_sextetUnit value (small value mem_cons_self)
    have rest := induction fun other member =>
      small other (mem_cons_of_mem _ member)
    simp [first, rest]

theorem atob_btoa : atob (btoa bytes) = some bytes := by
  have proper : ((sextets bytes).map sextetUnit).length % 4 ≠ 1 := by
    rw [length_map, length_sextets]
    omega
  rw [atob, filter_btoa, unpadded_btoa, if_neg proper,
    mapM_sextet fun _ => lt_of_mem_sextets, Option.map_some, octets_sextets]

end

end Foundation
