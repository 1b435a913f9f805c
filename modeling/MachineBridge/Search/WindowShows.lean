import MachineBridge.Search.LineMatch

/-!
# Windows which show the query

The window of a match begins near enough to the match and is large enough for
the query.  Where a character of the query becomes longer in lower case, the
line may have more units at the match than the query has, and the window may end
too early.
-/

namespace MachineBridge.Search

open Foundation List

/-- A query which the service admits. -/
structure SearchQuery where
  text : Text
  nonempty : text ≠ []
  bounded : text.length ≤ 4096

variable (mapping : CaseMapping)

section

variable (line : Text)

/-- From the offset of the match on, the window begins with characters which are
the query, or whose lower case contains that of the query. -/
def Shows (query : SearchQuery) (caseSensitive : Bool) (window : LineWindow) :
    Prop :=
  if caseSensitive then query.text <+: window.text.drop window.matchOffset
  else
    ∃ before inside after,
      foldings mapping line = before ++ inside ++ after ∧
        extent units before = window.column ∧
        (inside.map Prod.fst).flatten <+:
          window.text.drop window.matchOffset ∧
        mapping.toLowerCase query.text <:+: (inside.map Prod.snd).flatten

/-- Where the character begins which has a place of the lower case. -/
def startInLine (place : Nat) : Nat :=
  extent units (endingBefore foldedUnits place (foldings mapping line))

/-- Where the characters end which begin before a place of the lower case. -/
def endInLine (place : Nat) : Nat :=
  extent units (startingBefore foldedUnits place (foldings mapping line))

/-- The characters of the first occurrence end before the window does. -/
def Fits (query : SearchQuery) (caseSensitive : Bool) : Prop :=
  caseSensitive = true ∨
    ∀ index, indexOf (mapping.toLowerCase line)
        (mapping.toLowerCase query.text) 0 = some index →
      endInLine mapping line
          (index + (mapping.toLowerCase query.text).length) ≤
        windowStart line.length (startInLine mapping line index)
          query.text.length + windowSize

end

variable {mapping} {line : Text} {query : SearchQuery}

theorem windowStart_le (lineLength matchIndex queryLength : Nat) :
    windowStart lineLength matchIndex queryLength ≤ matchIndex := by
  rw [windowStart]
  split
  case isTrue => exact Nat.le_refl _
  case isFalse => exact Nat.le_trans (Nat.min_le_left _ _) (Nat.sub_le _ _)

theorem le_windowStart_add {lineLength matchIndex queryLength place : Nat}
    (small : queryLength ≤ windowSize) (inside : place ≤ lineLength)
    (near : place ≤ matchIndex + queryLength) :
    place ≤ windowStart lineLength matchIndex queryLength + windowSize := by
  rw [windowStart]
  split
  case isTrue => omega
  case isFalse => omega

theorem drop_lineWindow (line : Text) (matchIndex queryLength : Nat) :
    (lineWindow line matchIndex queryLength).text.drop
    (lineWindow line matchIndex queryLength).matchOffset =
    (line.drop matchIndex).take
    (windowStart line.length matchIndex queryLength + windowSize - matchIndex)
    := by
  have start := windowStart_le line.length matchIndex queryLength
  rw [lineWindow]
  dsimp only
  rw [drop_take, drop_drop, Nat.add_sub_cancel' start]
  congr 1
  omega

variable (mapping) in
theorem toLowerCase_ne_nil (query : SearchQuery) :
    mapping.toLowerCase query.text ≠ [] := by
  intro empty
  have none : foldings mapping query.text = [] := by
    cases items : foldings mapping query.text with
    | nil => rfl
    | cons item rest =>
      have positive := foldedUnits_pos (items ▸ mem_cons_self :
        item ∈ foldings mapping query.text)
      have total := congrArg List.length empty
      rw [← flatten_snd_foldings, ← extent_foldedUnits, items, extent_cons,
        length_nil] at total
      omega
  have whole := flatten_fst_foldings mapping query.text
  rw [none] at whole
  exact query.nonempty whole.symm

theorem originalPlace_of_search {index : Nat} (search : indexOf
    (mapping.toLowerCase line) (mapping.toLowerCase query.text) 0 = some index)
    : originalPlace mapping index 0 0 (characters line) = some
    (startInLine mapping line index) := by
  obtain ⟨_, ⟨stands, _⟩, _⟩ := indexOf_eq_some (Nat.zero_le _) search
  have inside : index < extent foldedUnits (foldings mapping line) := by
    have some := length_pos_iff.mpr (toLowerCase_ne_nil mapping query)
    have fits := stands.length_le
    rw [length_drop] at fits
    rw [extent_foldedUnits, flatten_snd_foldings]
    omega
  have lengths : ∀ item ∈ foldings mapping line,
      (mapping.toLowerCase item.1).length = foldedUnits item := by
    intro item member
    exact length_toLowerCase_of_mem member
  have place := originalPlace_eq lengths 0 0 (Nat.zero_le index) (by omega)
  rw [map_fst_foldings, Nat.zero_add, Nat.sub_zero] at place
  exact place

variable {column : Nat}

theorem findLiteralMatch_folded
    (found : findLiteralMatch mapping line query.text false = some column) :
    ∃ index,
    indexOf (mapping.toLowerCase line) (mapping.toLowerCase query.text) 0 =
    some index ∧ column = startInLine mapping line index := by
  rw [findLiteralMatch, if_neg Bool.false_ne_true] at found
  split at found
  case h_1 => cases found
  case h_2 index search =>
    rw [originalPlace_of_search search] at found
    exact ⟨index, search, (Option.some.inj found).symm⟩

theorem isInfix_between {before inside after needle : Text} {place : Nat}
    (occurs : OccursAt (before ++ inside ++ after) needle place)
    (low : before.length ≤ place)
    (high : place + needle.length ≤ before.length + inside.length) :
    needle <:+: inside := by
  have cut : (before ++ inside ++ after).drop place =
      inside.drop (place - before.length) ++ after := by
    rw [append_assoc, drop_append, drop_of_length_le low,
      nil_append, drop_append_of_le_length (by omega)]
  have stands := occurs.1
  rw [cut] at stands
  have here : needle <+: inside.drop (place - before.length) := by
    apply prefix_of_prefix_length_le stands (prefix_append _ _)
    rw [length_drop]
    omega
  exact here.isInfix.trans (drop_suffix _ _).isInfix

theorem lowered_append {before inside after : List (Text × Text)}
    (cut : foldings mapping line = before ++ inside ++ after) :
    mapping.toLowerCase line = (before.map Prod.snd).flatten ++
    (inside.map Prod.snd).flatten ++ (after.map Prod.snd).flatten := by
  rw [← flatten_snd_foldings, cut, map_append, map_append,
    flatten_append, flatten_append]

theorem drop_units {before inside after : List (Text × Text)}
    (cut : foldings mapping line = before ++ inside ++ after) :
    line.drop (extent units before) = (inside.map Prod.fst).flatten ++
    (after.map Prod.fst).flatten := by
  have whole := flatten_fst_foldings mapping line
  rw [cut, map_append, map_append, flatten_append,
    flatten_append, append_assoc] at whole
  rw [extent_units]
  conv => left; rw [← whole]
  exact drop_left

theorem startInLine_le (index : Nat) :
    startInLine mapping line index ≤ line.length := by
  have within := extent_le_of_prefix units
    (endingBefore_isPrefix foldedUnits index (foldings mapping line))
  rw [extent_units (foldings mapping line), flatten_fst_foldings] at within
  exact within

section

variable (small : query.text.length ≤ windowSize)
include small

theorem shows_of_caseSensitive
    (found : findLiteralMatch mapping line query.text true = some column) :
    Shows mapping line query true (lineWindow line column query.text.length) :=
    by
  obtain ⟨_, occurs, _⟩ := indexOf_eq_some (Nat.zero_le _) found
  obtain ⟨⟨rest, stands⟩, inside⟩ := occurs
  have total : column + query.text.length ≤ line.length := by
    have lengths := congrArg List.length stands
    rw [length_append, length_drop] at lengths
    omega
  have room := le_windowStart_add small total (Nat.le_refl _)
  rw [Shows, if_pos rfl, drop_lineWindow, ← stands]
  apply prefix_take_iff.mpr
  exact ⟨prefix_append _ _, by omega⟩

theorem shows_iff_of_folded
    (found : findLiteralMatch mapping line query.text false = some column) :
    Shows mapping line query false (lineWindow line column query.text.length) ↔
    Fits mapping line query false := by
  obtain ⟨index, search, rfl⟩ := findLiteralMatch_folded found
  obtain ⟨_, occurs, first⟩ := indexOf_eq_some (Nat.zero_le _) search
  have reaches : index + (mapping.toLowerCase query.text).length ≤
      extent foldedUnits (foldings mapping line) := by
    have lengths := occurs.1.length_le
    have inside := occurs.2
    rw [length_drop] at lengths
    rw [extent_foldedUnits, flatten_snd_foldings]
    omega
  rw [Shows, if_neg Bool.false_ne_true, drop_lineWindow]
  constructor
  · intro shown
    obtain ⟨before, inside, after, cut, start, fits, contains⟩ := shown
    right
    intro index' search'
    obtain rfl := Option.some.inj (search.symm.trans search')
    obtain ⟨left, right, parts⟩ := contains
    have occursThere : OccursAt (mapping.toLowerCase line)
        (mapping.toLowerCase query.text)
        ((before.map Prod.snd).flatten ++ left).length := by
      rw [lowered_append cut, ← parts]
      have occurs := occursAt_append ((before.map Prod.snd).flatten ++ left)
        (mapping.toLowerCase query.text)
        (right ++ (after.map Prod.snd).flatten)
      simpa only [append_assoc] using occurs
    have earliest :
        index ≤ ((before.map Prod.snd).flatten ++ left).length := by
      by_contra later
      exact first _ (Nat.zero_le _) (Nat.not_le.mp later) occursThere
    have covered : index + (mapping.toLowerCase query.text).length ≤
        extent foldedUnits (before ++ inside) := by
      have lengths := congrArg List.length parts
      rw [length_append, length_append] at lengths
      rw [length_append] at earliest
      rw [extent_append, extent_foldedUnits, extent_foldedUnits]
      omega
    have within : before ++ inside <+: foldings mapping line :=
      cut ▸ prefix_append _ _
    have ends := extent_le_of_prefix units
      (startingBefore_isPrefix_of within covered)
    have room := (prefix_take_iff.mp fits).2
    rw [← extent_units] at room
    rw [extent_append] at ends
    change extent units before = startInLine mapping line index at start
    have near : startInLine mapping line index ≤ windowStart line.length
        (startInLine mapping line index) query.text.length + windowSize := by
      exact le_windowStart_add small (startInLine_le index)
        (Nat.le_add_right _ _)
    rw [endInLine]
    omega
  · intro fits
    rcases fits with sensitive | fits
    · cases sensitive
    · have room := fits index search
      obtain ⟨inside, through⟩ := endingBefore_isPrefix_startingBefore
        (fun _ => foldedUnits_pos)
        (Nat.le_add_right index (mapping.toLowerCase query.text).length)
      obtain ⟨after, rest⟩ := startingBefore_isPrefix foldedUnits (index +
        (mapping.toLowerCase query.text).length) (foldings mapping line)
      have cut := rest.symm
      rw [← through] at cut
      refine ⟨_, inside, after, cut, rfl, ?_, ?_⟩
      · apply prefix_take_iff.mpr
        constructor
        · rw [startInLine, drop_units cut]
          exact prefix_append _ _
        · rw [endInLine, ← through, extent_append] at room
          rw [← extent_units]
          change startInLine mapping line index + extent units inside ≤ _
            at room
          omega
      · have covers := le_extent_startingBefore reaches
        rw [← through, extent_append, extent_foldedUnits,
          extent_foldedUnits] at covers
        have starts := extent_endingBefore_le foldedUnits index
          (foldings mapping line)
        rw [extent_foldedUnits] at starts
        rw [lowered_append cut] at occurs
        exact isInfix_between occurs starts covers

end

end MachineBridge.Search
