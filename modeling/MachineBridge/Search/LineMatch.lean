import MachineBridge.Foundation.Spans
import MachineBridge.Foundation.TextSearch
import MachineBridge.Foundation.Utf16

/-!
# Matches of a line

A line is searched for a text, with or without regard to case.  Without, both
are put into lower case, where a character may become longer, and the place
which is found is counted back to the line.  What is returned is a window of the
line around that place.
-/

namespace MachineBridge.Search

open Foundation List

/-- The characters which an iteration over a text gives: units, or pairs of
surrogates. -/
def characters : Text → List Text
  | [] => []
  | [unit] => [[unit]]
  | unit :: next :: rest =>
    if isLeading unit && isTrailing next then
      [unit, next] :: characters rest
    else [unit] :: characters (next :: rest)

/-- `toLowerCase`, as the parts which the characters of a text become.  What a
character becomes may depend on those around it, like a sigma at the end of a
word, but not how long it is. -/
structure CaseMapping where
  parts : Text → List Text
  parts_nonempty : ∀ line, ∀ part ∈ parts line, part ≠ []
  parts_lengths : ∀ line, (parts line).map List.length =
    (characters line).map fun character => (parts character).flatten.length

def CaseMapping.toLowerCase (mapping : CaseMapping) (line : Text) : Text :=
  (mapping.parts line).flatten

variable (mapping : CaseMapping)

/-- Where the character begins whose lower case has the unit at a place. -/
def originalPlace (index : Nat) : Nat → Nat → List Text → Option Nat
  | _, _, [] => none
  | foldedOffset, originalOffset, character :: rest =>
    let foldedLength := (mapping.toLowerCase character).length
    if index < foldedOffset + foldedLength then some originalOffset
    else
      originalPlace index (foldedOffset + foldedLength)
        (originalOffset + character.length) rest

def findLiteralMatch (line query : Text) (caseSensitive : Bool) : Option Nat :=
  if caseSensitive then indexOf line query 0
  else
    match indexOf (mapping.toLowerCase line) (mapping.toLowerCase query) 0 with
    | none => none
    | some index => originalPlace mapping index 0 0 (characters line)

def windowSize : Nat := 500

/-- Where the window of a line begins.  A difference below zero counts as
zero. -/
def windowStart (lineLength matchIndex queryLength : Nat) : Nat :=
  if windowSize ≤ queryLength then matchIndex
  else
    min (matchIndex - (windowSize - queryLength) / 2)
      (lineLength - windowSize)

structure LineWindow where
  text : Text
  (matchOffset lineOffset column : Nat)

section

variable (line : Text)

def lineWindow (matchIndex queryLength : Nat) : LineWindow :=
  let start := windowStart line.length matchIndex queryLength
  { text := (line.drop start).take windowSize
    matchOffset := matchIndex - start
    lineOffset := start
    column := matchIndex }

theorem flatten_characters : (characters line).flatten = line := by
  induction line using characters.induct with
  | case1 => rfl
  | case2 unit => rfl
  | case3 unit next rest pair induction =>
    rw [characters, if_pos pair, flatten_cons, induction]
    rfl
  | case4 unit next rest single induction =>
    rw [characters, if_neg single, flatten_cons, induction]
    rfl

/-- The characters of a line, each with what it becomes. -/
def foldings : List (Text × Text) :=
  (characters line).zip (mapping.parts line)

end

def units (item : Text × Text) : Nat := item.1.length

def foldedUnits (item : Text × Text) : Nat := item.2.length

variable {mapping} {line query : Text}

variable (mapping) in
section

variable (line : Text)

theorem length_parts :
    (mapping.parts line).length = (characters line).length := by
  have lengths := congrArg List.length (mapping.parts_lengths line)
  rwa [length_map, length_map] at lengths

theorem map_fst_foldings :
    (foldings mapping line).map Prod.fst = characters line :=
  map_fst_zip (length_parts mapping line).ge

theorem map_snd_foldings :
    (foldings mapping line).map Prod.snd = mapping.parts line :=
  map_snd_zip (length_parts mapping line).le

end

section

variable (items : List (Text × Text))

theorem extent_units :
    extent units items = (items.map Prod.fst).flatten.length := by
  induction items with
  | nil => rfl
  | cons item items induction =>
    rw [extent_cons, induction, map_cons, flatten_cons, length_append]
    rfl

theorem extent_foldedUnits :
    extent foldedUnits items = (items.map Prod.snd).flatten.length := by
  induction items with
  | nil => rfl
  | cons item items induction =>
    rw [extent_cons, induction, map_cons, flatten_cons, length_append]
    rfl

end

variable (mapping) in
theorem flatten_fst_foldings (line : Text) :
    ((foldings mapping line).map Prod.fst).flatten = line := by
  rw [map_fst_foldings, flatten_characters]

theorem flatten_snd_foldings (line : Text) :
    ((foldings mapping line).map Prod.snd).flatten =
    mapping.toLowerCase line := by
  rw [map_snd_foldings]
  rfl

theorem foldedUnits_pos {item : Text × Text}
    (member : item ∈ foldings mapping line) : 0 < foldedUnits item := by
  have listed : item.2 ∈ (foldings mapping line).map Prod.snd :=
    mem_map_of_mem member
  rw [map_snd_foldings] at listed
  exact length_pos_iff.mpr (mapping.parts_nonempty line _ listed)

theorem length_toLowerCase_of_mem {item : Text × Text}
    (member : item ∈ foldings mapping line) :
    (mapping.toLowerCase item.1).length = foldedUnits item := by
  obtain ⟨index, inside, same⟩ := getElem_of_mem member
  have lengths := mapping.parts_lengths line
  have parts : index < (mapping.parts line).length := by
    rw [← map_snd_foldings, length_map]
    exact inside
  have chars : index < (characters line).length := by
    rw [← length_parts mapping]
    exact parts
  have each := congrArg (·[index]?) lengths
  rw [← same]
  simp only [getElem?_map, getElem?_eq_getElem parts, getElem?_eq_getElem
    chars, Option.map_some, Option.some.injEq] at each
  simp only [foldings, getElem_zip, foldedUnits]
  exact each.symm

theorem originalPlace_eq {index : Nat} {items : List (Text × Text)} (lengths :
    ∀ item ∈ items, (mapping.toLowerCase item.1).length = foldedUnits item)
    (foldedOffset originalOffset : Nat) (after : foldedOffset ≤ index)
    (inside : index < foldedOffset + extent foldedUnits items) : originalPlace
    mapping index foldedOffset originalOffset (items.map Prod.fst) = some
    (originalOffset + extent units (endingBefore foldedUnits (index -
    foldedOffset) items)) := by
  induction items generalizing foldedOffset originalOffset with
  | nil => exact absurd after (Nat.not_le.mpr inside)
  | cons item items induction =>
    obtain ⟨here, later⟩ := forall_mem_cons.mp lengths
    rw [extent_cons] at inside
    rw [map_cons, originalPlace, here, endingBefore]
    split
    case isTrue before =>
      rw [if_neg (by omega)]
      rfl
    case isFalse beyond =>
      rw [if_pos (by omega), induction later _ _ (by omega) (by omega),
        extent_cons, Nat.add_assoc, Nat.sub_add_eq]
      rfl

end MachineBridge.Search
