import MachineBridge.Foundation.Base64

/-!
# UTF-8

Octets and the scalar values which they encode.  The decoder reads one
character after the other; a sequence which is not well formed is an error,
and the octet which broke it begins the next character.
-/

namespace Foundation

open List

def IsScalar (point : Nat) : Prop :=
  point < 0xD800 ∨ 0xE000 ≤ point ∧ point < 0x110000

instance : DecidablePred IsScalar := fun point =>
  inferInstanceAs (Decidable (point < 0xD800 ∨ _))

def utf8Octets (point : Nat) : List UInt8 :=
  if point < 0x80 then [point.toUInt8]
  else if point < 0x800 then
    [(0xC0 + point / 64).toUInt8, (0x80 + point % 64).toUInt8]
  else if point < 0x10000 then
    [(0xE0 + point / 4096).toUInt8, (0x80 + point / 64 % 64).toUInt8,
      (0x80 + point % 64).toUInt8]
  else
    [(0xF0 + point / 262144).toUInt8, (0x80 + point / 4096 % 64).toUInt8,
      (0x80 + point / 64 % 64).toUInt8, (0x80 + point % 64).toUInt8]

def utf8Encode (points : List Nat) : List UInt8 := points.flatMap utf8Octets

/-- What the first octet of a character asks for. -/
structure Utf8Lead where
  (point needed : Nat)
  lower : Nat := 0x80
  upper : Nat := 0xBF

def utf8Lead (octet : Nat) : Option Utf8Lead :=
  if octet < 0x80 then some { point := octet, needed := 0 }
  else if octet < 0xC2 then none
  else if octet < 0xE0 then some { point := octet - 0xC0, needed := 1 }
  else if octet < 0xF0 then
    some {
      point := octet - 0xE0
      needed := 2
      lower := if octet = 0xE0 then 0xA0 else 0x80
      upper := if octet = 0xED then 0x9F else 0xBF }
  else if octet < 0xF5 then
    some {
      point := octet - 0xF0
      needed := 3
      lower := if octet = 0xF0 then 0x90 else 0x80
      upper := if octet = 0xF4 then 0x8F else 0xBF }
  else none

/-- The further octets of a character: the scalar value, if there is one, and
the number of octets which belong to it. -/
def utf8Tail (lower upper : Nat) : Nat → Nat → List UInt8 → Option Nat × Nat
  | 0, point, _ => (some point, 0)
  | _ + 1, _, [] => (none, 0)
  | needed + 1, point, octet :: rest =>
    if lower ≤ octet.toNat ∧ octet.toNat ≤ upper then
      let tail := utf8Tail 0x80 0xBF needed
        (point * 64 + (octet.toNat - 0x80)) rest
      (tail.1, tail.2 + 1)
    else (none, 0)

/-- The first character, or an error, and the number of its octets. -/
def utf8Step : List UInt8 → Option Nat × Nat
  | [] => (none, 0)
  | octet :: rest =>
    match utf8Lead octet.toNat with
    | none => (none, 1)
    | some lead =>
      let tail := utf8Tail lead.lower lead.upper lead.needed lead.point rest
      (tail.1, tail.2 + 1)

def utf8Items : Nat → List UInt8 → List (Option Nat)
  | 0, _ => []
  | _, [] => []
  | fuel + 1, octets =>
    (utf8Step octets).1 :: utf8Items fuel (octets.drop (utf8Step octets).2)

section

variable (octets : List UInt8)

def utf8Characters : List (Option Nat) :=
  utf8Items octets.length octets

/-- The scalar values of a sequence without errors. -/
def utf8Decode : Option (List Nat) :=
  (utf8Characters octets).mapM id

/-- U+FFFD takes the place of every error. -/
def utf8DecodeLossy : List Nat :=
  (utf8Characters octets).map fun character => character.getD 0xFFFD

end

def byteOrderMark : Nat := 0xFEFF

def dropByteOrderMark : List Nat → List Nat
  | [] => []
  | point :: rest => if point = byteOrderMark then rest else point :: rest

variable {value lower point upper count : Nat} {octets : List UInt8}
  {first second : UInt8} {points : List Nat}

theorem toNat_toUInt8 (small : value < 256) : value.toUInt8.toNat = value := by
  exact Nat.mod_eq_of_lt small

theorem utf8Octets_length_pos (point : Nat) :
    0 < (utf8Octets point).length := by
  unfold utf8Octets
  split
  · exact Nat.one_pos
  · split
    · exact Nat.two_pos
    · split
      · exact Nat.succ_pos 2
      · exact Nat.succ_pos 3

theorem utf8Octets_length_le (point : Nat) :
    (utf8Octets point).length ≤ 4 := by
  unfold utf8Octets
  split
  · exact Nat.le_add_left 1 3
  · split
    · exact Nat.le_add_left 2 2
    · split
      · exact Nat.le_add_left 3 1
      · exact Nat.le_refl 4

theorem utf8Tail_octet {needed : Nat} {octet : Nat} (small : octet < 256)
    (above : lower ≤ octet) (below : octet ≤ upper) (rest : List UInt8) :
    utf8Tail lower upper (needed + 1) point (octet.toUInt8 :: rest) =
    ((utf8Tail 0x80 0xBF needed (point * 64 + (octet - 0x80)) rest).1,
      (utf8Tail 0x80 0xBF needed (point * 64 + (octet - 0x80)) rest).2 + 1) :=
    by
  rw [utf8Tail, toNat_toUInt8 small, if_pos ⟨above, below⟩]

theorem utf8Step_utf8Octets (scalar : IsScalar point) (rest : List UInt8) :
    utf8Step (utf8Octets point ++ rest) =
    (some point, (utf8Octets point).length) := by
  rw [IsScalar] at scalar
  unfold utf8Octets
  split
  case isTrue one =>
    have small : point < 256 := by omega
    simp only [cons_append, nil_append, utf8Step, toNat_toUInt8 small,
      utf8Lead, if_pos one, utf8Tail, length_cons, length_nil]
  case isFalse one =>
    split
    case isTrue two =>
      have small : 0xC0 + point / 64 < 256 := by omega
      have lead : utf8Lead (0xC0 + point / 64) =
          some { point := point / 64, needed := 1 } := by
        rw [utf8Lead, if_neg (by omega), if_neg (by omega), if_pos (by omega),
          Nat.add_sub_cancel_left]
      have value : point / 64 * 64 + (0x80 + point % 64 - 0x80) = point := by
        omega
      simp only [cons_append, nil_append, utf8Step, toNat_toUInt8 small, lead]
      rw [utf8Tail_octet (by omega) (by omega) (by omega)]
      simp only [utf8Tail, value, length_cons, length_nil]
    case isFalse two =>
      split
      case isTrue three =>
        have small : 0xE0 + point / 4096 < 256 := by omega
        have lead : utf8Lead (0xE0 + point / 4096) =
            some {
              point := point / 4096
              needed := 2
              lower := if 0xE0 + point / 4096 = 0xE0 then 0xA0 else 0x80
              upper := if 0xE0 + point / 4096 = 0xED then 0x9F else 0xBF } := by
          rw [utf8Lead, if_neg (by omega), if_neg (by omega),
            if_neg (by omega), if_pos (by omega),
            Nat.add_sub_cancel_left]
        have value :
            (point / 4096 * 64 + (0x80 + point / 64 % 64 - 0x80)) * 64 +
            (0x80 + point % 64 - 0x80) = point := by
          omega
        simp only [cons_append, nil_append, utf8Step,
          toNat_toUInt8 small, lead]
        rw [utf8Tail_octet (by omega) (by split <;> omega)
          (by split <;> omega)]
        rw [utf8Tail_octet (by omega) (by omega) (by omega)]
        simp only [utf8Tail, value, length_cons, length_nil]
      case isFalse three =>
        have small : 0xF0 + point / 262144 < 256 := by omega
        have lead : utf8Lead (0xF0 + point / 262144) =
            some {
              point := point / 262144
              needed := 3
              lower := if 0xF0 + point / 262144 = 0xF0 then 0x90 else 0x80
              upper :=
                if 0xF0 + point / 262144 = 0xF4 then 0x8F else 0xBF } := by
          rw [utf8Lead, if_neg (by omega), if_neg (by omega),
            if_neg (by omega), if_neg (by omega), if_pos (by omega),
            Nat.add_sub_cancel_left]
        have value : ((point / 262144 * 64 + (0x80 + point / 4096 % 64 - 0x80))
            * 64 + (0x80 + point / 64 % 64 - 0x80)) * 64 + (0x80 + point % 64 -
            0x80) = point := by
          omega
        simp only [cons_append, nil_append, utf8Step,
          toNat_toUInt8 small, lead]
        rw [utf8Tail_octet (by omega) (by split <;> omega)
          (by split <;> omega)]
        rw [utf8Tail_octet (by omega) (by omega) (by omega)]
        rw [utf8Tail_octet (by omega) (by omega) (by omega)]
        simp only [utf8Tail, value, length_cons, length_nil]

theorem utf8Tail_eq_some {needed : Nat} (found : utf8Tail lower upper (needed +
    1) point octets = (some value, count)) : ∃ octet rest, octets = octet ::
    rest ∧ lower ≤ octet.toNat ∧ octet.toNat ≤ upper ∧ ∃ further, count =
    further + 1 ∧ utf8Tail 0x80 0xBF needed (point * 64 + (octet.toNat - 0x80))
    rest = (some value, further) := by
  cases octets with
  | nil => cases found
  | cons octet rest =>
    rw [utf8Tail] at found
    split at found
    case isTrue range =>
      obtain ⟨same, size⟩ := Prod.mk.inj found
      exact ⟨octet, rest, rfl, range.1, range.2, _, size.symm,
        Prod.ext same rfl⟩
    case isFalse => cases found

theorem utf8Tail_zero
    (found : utf8Tail lower upper 0 point octets = (some value, count)) :
    value = point ∧ count = 0 := by
  obtain ⟨same, size⟩ := Prod.mk.inj found
  exact ⟨(Option.some.inj same).symm, size.symm⟩

theorem toUInt8_add {base : Nat} (octet : UInt8)
    (same : base + value = octet.toNat) : (base + value).toUInt8 = octet :=
  toUInt8_eq same

theorem utf8Octets_two (lead : 0xC2 ≤ first.toNat) (below : first.toNat < 0xE0)
    (lower : 0x80 ≤ second.toNat) (upper : second.toNat ≤ 0xBF)
    (value : point = (first.toNat - 0xC0) * 64 + (second.toNat - 0x80)) :
    IsScalar point ∧ utf8Octets point = [first, second] := by
  refine ⟨Or.inl (by omega), ?_⟩
  rw [utf8Octets, if_neg (by omega), if_pos (by omega),
    toUInt8_add first (by omega), toUInt8_add second (by omega)]

theorem utf8Octets_three {third : UInt8} (lead : 0xE0 ≤ first.toNat)
    (below : first.toNat < 0xF0)
    (lower : (if first.toNat = 0xE0 then 0xA0 else 0x80) ≤ second.toNat)
    (upper : second.toNat ≤ if first.toNat = 0xED then 0x9F else 0xBF)
    (low : 0x80 ≤ third.toNat) (high : third.toNat ≤ 0xBF) (value : point =
    ((first.toNat - 0xE0) * 64 + (second.toNat - 0x80)) * 64 + (third.toNat -
    0x80)) : IsScalar point ∧ utf8Octets point = [first, second, third] := by
  have above : 0x80 ≤ second.toNat ∧ second.toNat ≤ 0xBF ∧
      (first.toNat = 0xE0 → 0xA0 ≤ second.toNat) ∧
      (first.toNat = 0xED → second.toNat ≤ 0x9F) := by
    split at lower <;> split at upper <;> omega
  refine ⟨?_, ?_⟩
  · rw [IsScalar]
    omega
  · rw [utf8Octets, if_neg (by omega), if_neg (by omega), if_pos (by omega),
      toUInt8_add first (by omega), toUInt8_add second (by omega),
      toUInt8_add third (by omega)]

theorem utf8Octets_four {third fourth : UInt8} (lead : 0xF0 ≤ first.toNat)
    (below : first.toNat < 0xF5) (lower : (if first.toNat = 0xF0 then 0x90 else
    0x80) ≤ second.toNat) (upper : second.toNat ≤ if first.toNat = 0xF4 then
    0x8F else 0xBF) (low : 0x80 ≤ third.toNat) (high : third.toNat ≤ 0xBF)
    (least : 0x80 ≤ fourth.toNat) (most : fourth.toNat ≤ 0xBF) (value : point =
    (((first.toNat - 0xF0) * 64 + (second.toNat - 0x80)) * 64 + (third.toNat -
    0x80)) * 64 + (fourth.toNat - 0x80)) : IsScalar point ∧ utf8Octets point =
    [first, second, third, fourth] := by
  have above : 0x80 ≤ second.toNat ∧ second.toNat ≤ 0xBF ∧
      (first.toNat = 0xF0 → 0x90 ≤ second.toNat) ∧
      (first.toNat = 0xF4 → second.toNat ≤ 0x8F) := by
    split at lower <;> split at upper <;> omega
  refine ⟨?_, ?_⟩
  · rw [IsScalar]
    omega
  · rw [utf8Octets, if_neg (by omega), if_neg (by omega), if_neg (by omega),
      toUInt8_add first (by omega), toUInt8_add second (by omega),
      toUInt8_add third (by omega), toUInt8_add fourth (by omega)]

theorem utf8Octets_of_utf8Step
    (found : utf8Step octets = (some point, count)) : IsScalar point ∧ ∃ rest,
    octets = utf8Octets point ++ rest ∧ count = (utf8Octets point).length := by
  cases octets with
  | nil => cases found
  | cons first octets =>
    rw [utf8Step] at found
    split at found
    case h_1 => cases found
    case h_2 lead asked =>
      obtain ⟨value, further, tail⟩ : ∃ value further,
          utf8Tail lead.lower lead.upper lead.needed lead.point octets =
            (value, further) := ⟨_, _, rfl⟩
      rw [tail] at found
      obtain ⟨rfl, rfl⟩ := Prod.mk.inj found
      rw [utf8Lead] at asked
      split at asked
      case isTrue one =>
        obtain rfl := Option.some.inj asked
        dsimp only at tail
        obtain ⟨rfl, rfl⟩ := utf8Tail_zero tail
        refine ⟨Or.inl (by omega), octets, ?_, ?_⟩
        · rw [utf8Octets, if_pos one, toUInt8_eq rfl]
          rfl
        · rw [utf8Octets, if_pos one]
          rfl
      case isFalse one =>
        split at asked
        case isTrue => cases asked
        case isFalse bound =>
          split at asked
          case isTrue two =>
            obtain rfl := Option.some.inj asked
            obtain ⟨second, rest, rfl, lower, upper, last, rfl, ended⟩ :=
              utf8Tail_eq_some tail
            obtain ⟨value, rfl⟩ := utf8Tail_zero ended
            obtain ⟨scalar, same⟩ := utf8Octets_two (by omega) two lower
              upper value
            refine ⟨scalar, rest, ?_, ?_⟩
            · rw [same]
              rfl
            · rw [same]
              rfl
          case isFalse two =>
            split at asked
            case isTrue three =>
              obtain rfl := Option.some.inj asked
              obtain ⟨second, after, rfl, lower, upper, last, rfl, more⟩ :=
                utf8Tail_eq_some tail
              obtain ⟨third, rest, rfl, low, high, width, rfl, ended⟩ :=
                utf8Tail_eq_some more
              obtain ⟨value, rfl⟩ := utf8Tail_zero ended
              obtain ⟨scalar, same⟩ := utf8Octets_three (by omega) three
                lower upper low high value
              refine ⟨scalar, rest, ?_, ?_⟩
              · rw [same]
                rfl
              · rw [same]
                rfl
            case isFalse three =>
              split at asked
              case isTrue four =>
                obtain rfl := Option.some.inj asked
                obtain ⟨second, after, rfl, lower, upper, last, rfl,
                  more⟩ := utf8Tail_eq_some tail
                obtain ⟨third, behind, rfl, low, high, next, rfl, further⟩ :=
                  utf8Tail_eq_some more
                obtain ⟨fourth, rest, rfl, least, most, width, rfl, ended⟩ :=
                  utf8Tail_eq_some further
                obtain ⟨value, rfl⟩ := utf8Tail_zero ended
                obtain ⟨scalar, same⟩ := utf8Octets_four (by omega) four
                  lower upper low high least most value
                refine ⟨scalar, rest, ?_, ?_⟩
                · rw [same]
                  rfl
                · rw [same]
                  rfl
              case isFalse => cases asked

@[simp] theorem utf8Encode_nil : utf8Encode [] = [] := rfl

@[simp] theorem utf8Encode_cons (point : Nat) (points : List Nat) :
    utf8Encode (point :: points) = utf8Octets point ++ utf8Encode points := rfl

@[simp] theorem utf8Items_nil (fuel : Nat) : utf8Items fuel [] = [] := by
  cases fuel <;> rfl

theorem utf8Items_succ (fuel : Nat) (filled : octets ≠ []) :
    utf8Items (fuel + 1) octets = (utf8Step octets).1 ::
    utf8Items fuel (octets.drop (utf8Step octets).2) := by
  cases octets with
  | nil => exact absurd rfl filled
  | cons octet rest => rfl

section

variable (scalars : ∀ point ∈ points, IsScalar point)
include scalars

theorem utf8Items_utf8Encode
    {fuel : Nat} (enough : (utf8Encode points).length ≤ fuel) :
    utf8Items fuel (utf8Encode points) = points.map some := by
  induction points generalizing fuel with
  | nil => exact utf8Items_nil fuel
  | cons point points induction =>
    have positive := utf8Octets_length_pos point
    rw [utf8Encode_cons, length_append] at enough
    have filled : utf8Octets point ++ utf8Encode points ≠ [] := by
      apply append_ne_nil_of_left_ne_nil
      exact ne_nil_of_length_pos positive
    obtain ⟨rest, rfl⟩ := Nat.exists_eq_add_of_lt
      (Nat.lt_of_lt_of_le positive (Nat.le_trans (Nat.le_add_right _ _) enough))
    rw [Nat.zero_add] at enough ⊢
    rw [utf8Encode_cons, utf8Items_succ rest filled, utf8Step_utf8Octets
      (scalars point mem_cons_self), drop_left, map_cons]
    congr 1
    apply induction
    · intro other member
      exact scalars other (mem_cons_of_mem point member)
    · omega

theorem utf8Decode_utf8Encode :
    utf8Decode (utf8Encode points) = some points := by
  rw [utf8Decode, utf8Characters, utf8Items_utf8Encode scalars (Nat.le_refl _)]
  induction points with
  | nil => rfl
  | cons point points induction =>
    have rest := induction fun other member =>
      scalars other (mem_cons_of_mem point member)
    rw [map_cons, mapM_cons, rest]
    rfl

end

theorem utf8Items_decoded {fuel : Nat} (enough : octets.length ≤ fuel)
    (found : (utf8Items fuel octets).mapM id = some points) :
    (∀ point ∈ points, IsScalar point) ∧ utf8Encode points = octets := by
  induction fuel generalizing octets points with
  | zero =>
    have empty := eq_nil_of_length_eq_zero (Nat.le_zero.mp enough)
    subst empty
    cases found
    exact ⟨nofun, rfl⟩
  | succ fuel induction =>
    cases octets with
    | nil =>
      cases found
      exact ⟨nofun, rfl⟩
    | cons octet rest =>
      rw [utf8Items_succ fuel (cons_ne_nil _ _), mapM_cons] at found
      cases first : (utf8Step (octet :: rest)).1 with
      | none =>
        rw [first] at found
        cases found
      | some point =>
        have step : utf8Step (octet :: rest) =
            (some point, (utf8Step (octet :: rest)).2) :=
          Prod.ext first rfl
        obtain ⟨scalar, after, whole, size⟩ := utf8Octets_of_utf8Step step
        rw [first, size, whole, drop_left] at found
        have shorter : after.length ≤ fuel := by
          have positive := utf8Octets_length_pos point
          have total := congrArg List.length whole
          rw [length_append] at total
          omega
        cases others : (utf8Items fuel after).mapM id with
        | none =>
          rw [others] at found
          cases found
        | some further =>
          rw [others] at found
          cases found
          obtain ⟨scalars, encoded⟩ := induction shorter others
          refine ⟨?_, ?_⟩
          · intro other member
            rcases mem_cons.mp member with rfl | member
            · exact scalar
            · exact scalars other member
          · rw [utf8Encode_cons, encoded, whole]

theorem utf8Encode_utf8Decode (found : utf8Decode octets = some points) :
    (∀ point ∈ points, IsScalar point) ∧ utf8Encode points = octets :=
  utf8Items_decoded (Nat.le_refl _) found

theorem eq_map_some_of_mapM {characters : List (Option Nat)}
    (found : characters.mapM id = some points) :
    characters = points.map some := by
  induction characters generalizing points with
  | nil =>
    cases found
    rfl
  | cons character characters induction =>
    rw [mapM_cons] at found
    cases character with
    | none => cases found
    | some point =>
      cases others : characters.mapM id with
      | none =>
        rw [others] at found
        cases found
      | some further =>
        rw [others] at found
        cases found
        rw [induction others]
        rfl

theorem utf8DecodeLossy_of_utf8Decode
    (found : utf8Decode octets = some points) :
    utf8DecodeLossy octets = points := by
  rw [utf8DecodeLossy, eq_map_some_of_mapM found, map_map]
  exact map_id points

theorem dropByteOrderMark_eq_self : dropByteOrderMark points = points ↔
    ¬ ∃ rest, points = byteOrderMark :: rest := by
  cases points with
  | nil =>
    constructor
    · rintro - ⟨rest, same⟩
      cases same
    · intro _
      rfl
  | cons point rest =>
    rw [dropByteOrderMark]
    split
    case isTrue mark =>
      constructor
      · intro same
        have size := congrArg List.length same
        rw [length_cons] at size
        omega
      · intro unmarked
        exact absurd ⟨rest, by rw [mark]⟩ unmarked
    case isFalse other =>
      constructor
      · rintro - ⟨after, same⟩
        exact other (List.cons.inj same).1
      · intro _
        rfl

@[simp] theorem utf8Encode_append (before after : List Nat) :
    utf8Encode (before ++ after) = utf8Encode before ++ utf8Encode after :=
  flatMap_append

theorem exists_boundary_before (points : List Nat) (cut : Nat)
    (inside : cut ≤ (utf8Encode points).length) : ∃ before after,
    points = before ++ after ∧ (utf8Encode before).length ≤ cut ∧
    cut ≤ (utf8Encode before).length + 3 := by
  induction points generalizing cut with
  | nil =>
    refine ⟨[], [], rfl, Nat.zero_le _, ?_⟩
    exact Nat.le_trans inside (Nat.zero_le _)
  | cons point points induction =>
    have most := utf8Octets_length_le point
    rw [utf8Encode_cons, length_append] at inside
    by_cases early : cut < (utf8Octets point).length
    · exact ⟨[], point :: points, rfl, Nat.zero_le _, by simp; omega⟩
    · obtain ⟨before, after, rfl, low, high⟩ := induction
        (cut - (utf8Octets point).length) (by omega)
      refine ⟨point :: before, after, rfl, ?_, ?_⟩
      · rw [utf8Encode_cons, length_append]
        omega
      · rw [utf8Encode_cons, length_append]
        omega

theorem exists_boundary_after (points : List Nat) (cut : Nat)
    (inside : cut ≤ (utf8Encode points).length) : ∃ before after,
    points = before ++ after ∧ cut ≤ (utf8Encode before).length ∧
    (utf8Encode before).length ≤ cut + 3 := by
  induction points generalizing cut with
  | nil => exact ⟨[], [], rfl, inside, Nat.zero_le _⟩
  | cons point points induction =>
    have most := utf8Octets_length_le point
    rw [utf8Encode_cons, length_append] at inside
    by_cases early : cut ≤ (utf8Octets point).length
    · by_cases start : cut = 0
      · subst start
        exact ⟨[], point :: points, rfl, Nat.le_refl 0, Nat.zero_le _⟩
      · refine ⟨[point], points, rfl, ?_, ?_⟩
        · simpa using early
        · simp
          omega
    · obtain ⟨before, after, rfl, low, high⟩ := induction
        (cut - (utf8Octets point).length) (by omega)
      refine ⟨point :: before, after, rfl, ?_, ?_⟩
      · rw [utf8Encode_cons, length_append]
        omega
      · rw [utf8Encode_cons, length_append]
        omega

end Foundation
