import MachineBridge.Files.UpdateHunks

/-!
# What an update changes

The places of the hunks follow each other in the lines of the file, and nothing
outside them changes.  Inside a place the removed lines are gone and the added
ones are there, but a line of context is written as the patch has it, with the
line end of the position to which it comes.
-/

namespace MachineBridge.Files

open Foundation List

theorem candidates_append (done rest sequence : List Text) :
    candidates (done ++ rest) sequence done.length =
    (candidates rest sequence 0).map (done.length + ·) := by
  rw [candidates, candidates, length_append]
  by_cases fits : sequence.length ≤ rest.length + 1
  · have size : done.length + rest.length + 1 - sequence.length =
        done.length + (rest.length + 1 - sequence.length) := by omega
    have early : (List.range done.length).filter
        (fun index => decide (done.length ≤ index)) = [] := by
      simp
    have late : ((List.range (rest.length + 1 - sequence.length)).map
        (done.length + ·)).filter (fun index => decide (done.length ≤ index)) =
        (List.range (rest.length + 1 - sequence.length)).map
        (done.length + ·) := by
      apply filter_eq_self.mpr
      intro index member
      obtain ⟨inner, -, rfl⟩ := List.mem_map.mp member
      exact decide_eq_true (Nat.le_add_right _ _)
    rw [size, range_add, filter_append, early, nil_append, late]
    congr 1
    exact (filter_eq_self.mpr
      fun index _ => decide_eq_true (Nat.zero_le index)).symm
  · have none : rest.length + 1 - sequence.length = 0 := by omega
    have early :
        (List.range (done.length + rest.length + 1 - sequence.length)).filter
        (fun index => decide (done.length ≤ index)) = [] := by
      rw [filter_eq_nil_iff]
      intro index member
      have small := mem_range.mp member
      simp only [decide_eq_true_eq]
      omega
    rw [none, early]
    rfl

theorem windowAt_append (done rest : List Text) (index count : Nat) :
    windowAt (done ++ rest) (done.length + index) count =
    windowAt rest index count := by
  rw [windowAt, windowAt, drop_append, Nat.add_sub_cancel_left,
    drop_eq_nil_of_le (Nat.le_add_right _ _), nil_append]

theorem findSequenceMatches_append (done rest sequence : List Text) :
    findSequenceMatches (done ++ rest) sequence done.length =
    (findSequenceMatches rest sequence 0).map fun found =>
    (done.length + found.1, found.2) := by
  rw [findSequenceMatches, findSequenceMatches]
  split
  · rfl
  · dsimp only
    rw [candidates_append]
    simp only [filter_map, filterMap_map, Function.comp_def,
      windowAt_append, isEmpty_map]
    split
    · rw [map_map, map_map]
      rfl
    · split
      · rw [map_map, map_map]
        rfl
      · split
        · rw [map_filterMap]
          congr 1
          funext index
          cases indentDelta none (windowAt rest index sequence.length)
            sequence <;> rfl
        · rfl

theorem mem_candidates {lines sequence : List Text} {start index : Nat}
    (member : index ∈ candidates lines sequence start) :
    index + sequence.length ≤ lines.length := by
  have small := mem_range.mp (List.mem_filter.mp member).1
  omega

variable {delta : Int} {places : List Place} {rest : List FileLine}
  {line content defaultEol : Text} {lines : List HunkLine}
  {new old removed : List Text}

theorem findSequenceMatches_inside {lines sequence : List Text}
    {start index : Nat}
    (member : (index, delta) ∈ findSequenceMatches lines sequence start) :
    sequence ≠ [] ∧ index + sequence.length ≤ lines.length := by
  rw [findSequenceMatches] at member
  split at member
  case isTrue => cases member
  case isFalse filled =>
    refine ⟨fun empty => filled (List.isEmpty_iff.mpr empty), ?_⟩
    dsimp only at member
    split at member
    · obtain ⟨found, inner, same⟩ := List.mem_map.mp member
      rw [← (Prod.mk.inj same).1]
      exact mem_candidates (List.mem_filter.mp inner).1
    · split at member
      · obtain ⟨found, inner, same⟩ := List.mem_map.mp member
        rw [← (Prod.mk.inj same).1]
        exact mem_candidates (List.mem_filter.mp inner).1
      · split at member
        · obtain ⟨found, inner, same⟩ := mem_filterMap.mp member
          obtain ⟨other, -, pair⟩ := Option.map_eq_some_iff.mp same
          rw [← (Prod.mk.inj pair).1]
          exact mem_candidates inner
        · cases member

/-- Where a hunk was found: the lines since the place before it, those which it
replaces, and the difference of their indentation. -/
structure Place where
  hunk : UpdateHunk
  (before block : List FileLine)
  delta : Int

def Place.original (place : Place) : List FileLine :=
  place.before ++ place.block

def Place.replaced (defaultEol : Text) (place : Place) : List FileLine :=
  replacementLines defaultEol place.hunk place.delta place.block

def Place.rewritten (defaultEol : Text) (place : Place) : List FileLine :=
  place.before ++ place.replaced defaultEol

def placeHunks : Nat → List UpdateHunk → List FileLine →
    Except HunkError (List Place × List FileLine)
  | _, [], lines => .ok ([], lines)
  | number, hunk :: hunks, lines =>
    match findSequenceMatches (lines.map (·.text)) hunk.oldLines 0 with
    | [] => .error (.contextNotFound number)
    | [(index, delta)] =>
      let place : Place := {
        hunk
        before := lines.take index
        block := (lines.drop index).take hunk.oldLines.length
        delta }
      (placeHunks (number + 1) hunks
        (lines.drop (index + hunk.oldLines.length))).map
          fun found => (place :: found.1, found.2)
    | _ => .error (.contextAmbiguous number)

theorem length_replacementLineTerminators (removed : List Text)
    (newLineCount : Nat) (defaultEol : Text) :
    (replacementLineTerminators removed newLineCount defaultEol).length =
    newLineCount := by
  rw [replacementLineTerminators]
  split
  · rw [length_mapIdx, length_append, length_take, length_replicate]
    omega
  · rw [length_append, length_take, length_replicate]
    omega

theorem length_replacementLines (defaultEol : Text) (hunk : UpdateHunk)
    (delta : Int) (block : List FileLine) :
    (replacementLines defaultEol hunk delta block).length =
    hunk.newLines.length := by
  rw [replacementLines, length_zipWith,
    length_replacementLineTerminators, Nat.min_self, length_map]

theorem applyHunks_eq (defaultEol : Text) (number : Nat)
    (hunks : List UpdateHunk) (done rest : List FileLine) :
    applyHunks defaultEol number hunks (done ++ rest) done.length =
    (placeHunks number hunks rest).map fun found => done ++
    (found.1.flatMap (·.rewritten defaultEol) ++ found.2) := by
  induction hunks generalizing number done rest with
  | nil => rfl
  | cons hunk hunks induction =>
    have search := findSequenceMatches_append (done.map (·.text))
      (rest.map (·.text)) hunk.oldLines
    rw [length_map] at search
    rw [applyHunks, applyHunk, placeHunks, map_append, search]
    cases matched : findSequenceMatches (rest.map (·.text))
        hunk.oldLines 0 with
    | nil => rfl
    | cons found others =>
      cases others with
      | cons second others => rfl
      | nil =>
        obtain ⟨index, delta⟩ := found
        have inside := (findSequenceMatches_inside
          (matched ▸ mem_singleton_self (index, delta))).2
        rw [length_map] at inside
        rw [map_cons, map_nil]
        dsimp only
        generalize size : hunk.oldLines.length = count at inside ⊢
        have front : (done ++ rest).take (done.length + index) = done ++
            rest.take index := by
          rw [take_append, Nat.add_sub_cancel_left,
            take_of_length_le (Nat.le_add_right _ _)]
        have drops : ∀ place,
            (done ++ rest).drop (done.length + place) = rest.drop place := by
          intro place
          rw [drop_append, Nat.add_sub_cancel_left,
            drop_eq_nil_of_le (Nat.le_add_right _ _),
            nil_append]
        have back := drops (index + count)
        rw [← Nat.add_assoc] at back
        have own : ((done ++ rest).drop (done.length + index)).take count =
            (rest.drop index).take count := by
          rw [drops]
        generalize (rest.drop index).take count = block at own ⊢
        have length : (done ++ rest.take index ++
            replacementLines defaultEol hunk delta block).length =
            done.length + index + hunk.newLines.length := by
          rw [length_append, length_append,
            length_replacementLines, length_take,
            Nat.min_eq_left (Nat.le_trans (Nat.le_add_right _ _) inside)]
        rw [own, front, back, ← length, induction]
        cases placeHunks (number + 1) hunks
          (rest.drop (index + count)) with
        | error error => rfl
        | ok found =>
          simp only [Except.map, flatMap_cons, Place.rewritten,
            Place.replaced, append_assoc]

theorem placeHunks_original {number : Nat} {hunks : List UpdateHunk}
    {lines : List FileLine}
    (placed : placeHunks number hunks lines = .ok (places, rest)) :
    lines = places.flatMap (·.original) ++ rest ∧ ∀ place ∈ places,
    place.block.length = place.hunk.oldLines.length ∧ place.block ≠ [] := by
  induction hunks generalizing number lines places with
  | nil =>
    obtain ⟨rfl, rfl⟩ := Prod.mk.inj (Except.ok.inj placed)
    exact ⟨rfl, forall_mem_nil _⟩
  | cons hunk hunks induction =>
    rw [placeHunks] at placed
    cases matched : findSequenceMatches (lines.map (·.text))
        hunk.oldLines 0 with
    | nil =>
      rw [matched] at placed
      cases placed
    | cons found others =>
      cases others with
      | cons second others =>
        rw [matched] at placed
        cases placed
      | nil =>
        obtain ⟨index, delta⟩ := found
        obtain ⟨filled, inside⟩ := findSequenceMatches_inside
          (matched ▸ mem_singleton_self (index, delta))
        rw [length_map] at inside
        rw [matched] at placed
        dsimp only at placed
        cases below : placeHunks (number + 1) hunks
            (lines.drop (index + hunk.oldLines.length)) with
        | error error =>
          rw [below] at placed
          cases placed
        | ok found =>
          rw [below] at placed
          obtain ⟨rfl, rfl⟩ := Prod.mk.inj (Except.ok.inj placed)
          obtain ⟨same, each⟩ := induction below
          have size : ((lines.drop index).take hunk.oldLines.length).length =
              hunk.oldLines.length := by
            rw [length_take, length_drop]
            omega
          refine ⟨?_, forall_mem_cons.mpr ⟨⟨size, ?_⟩, each⟩⟩
          · rw [flatMap_cons, append_assoc, ← same, Place.original,
              append_assoc, ← drop_drop, take_append_drop, take_append_drop]
          · intro empty
            dsimp only at empty
            rw [empty] at size
            exact filled (length_eq_zero_iff.mp size.symm)

def LineEnd (terminator : Text) : Prop :=
  terminator = [] ∨ terminator = [lineFeed] ∨ terminator = crlf

/-- Lines of context stay as they are, removed lines go, and added lines come
with some line end. -/
inductive Edits : List HunkLine → List Text → List Text → Prop where
  | nil : Edits [] [] []
  | context {content line : Text} {lines : List HunkLine}
      {old new : List Text} (rest : Edits lines old new) :
      Edits (⟨.context, content⟩ :: lines) (line :: old) (line :: new)
  | removed {content line : Text} {lines : List HunkLine}
      {old new : List Text} (rest : Edits lines old new) :
      Edits (⟨.removed, content⟩ :: lines) (line :: old) new
  | added {content terminator : Text} {lines : List HunkLine}
      {old new : List Text} (ends : LineEnd terminator)
      (rest : Edits lines old new) :
      Edits (⟨.added, content⟩ :: lines) old ((content ++ terminator) :: new)

/-- The lines of the file with the edits of the hunks at their places. -/
def Patched : List Place → List Text → List Text → Prop
  | [], rest, result => result = rest
  | place :: places, rest, result => ∃ replaced tail,
      result = place.before.map FileLine.bytes ++ (replaced ++ tail) ∧
      Edits place.hunk.lines (place.block.map FileLine.bytes) replaced ∧
      Patched places rest tail

/-- A successful update deletes and inserts what its hunks say, and leaves
every other line of the file as it is; no two lines become one. -/
def AppliesExactly (content : Text) (hunks : List UpdateHunk) : Prop :=
  ∀ final, updatedLines content hunks = .ok final →
    ∃ places rest,
      placeHunks 1 hunks (splitLinesWithTerminators content) =
        .ok (places, rest) ∧
      linesOf content = places.flatMap (fun place =>
        place.original.map FileLine.bytes) ++ rest.map FileLine.bytes ∧
      Patched places (rest.map FileLine.bytes) (final.map FileLine.bytes) ∧
      ∀ line ∈ final.dropLast, line.terminator ≠ []

/-- A line of context, as it is written back, is the line of the file; an added
line is not shifted. -/
def KeepsLines (delta : Int) :
    List HunkLine → List FileLine → List Text → Prop
  | [], _, _ => True
  | ⟨.context, content⟩ :: lines, line :: block, terminator :: terminators =>
    shiftLineIndent delta content ++ terminator = line.bytes ∧
      KeepsLines delta lines block terminators
  | ⟨.removed, _⟩ :: lines, _ :: block, terminators =>
    KeepsLines delta lines block terminators
  | ⟨.added, content⟩ :: lines, block, _ :: terminators =>
    shiftLineIndent delta content = content ∧
      KeepsLines delta lines block terminators
  | _, _, _ => False

/-- The place keeps its lines of context and gets the added ones. -/
def Place.Keeps (defaultEol : Text) (place : Place) : Prop :=
  KeepsLines place.delta place.hunk.lines place.block
    (replacementLineTerminators (place.block.map (·.terminator))
      place.hunk.newLines.length defaultEol)

theorem exists_solid (filled : ¬ (trim line).isEmpty = true) :
    ∃ unit ∈ line, unit ≠ 0x20 := by
  apply Classical.byContradiction
  intro none
  apply filled
  have spaces : ∀ unit ∈ line, isWhitespace unit = true := by
    intro unit member
    have space : unit = 0x20 := by
      apply Classical.byContradiction
      exact fun other => none ⟨unit, member, other⟩
    rw [space]
    decide
  rw [trim, dropWhile_eq_nil_iff.mpr spaces]
  rfl

theorem leadingSpaces_space (line : Text) :
    leadingSpaces (0x20 :: line) = leadingSpaces line + 1 := by
  rfl

theorem leadingSpaces_append (solid : ∃ unit ∈ line, unit ≠ 0x20)
    (rest : Text) : leadingSpaces (line ++ rest) = leadingSpaces line := by
  induction line with
  | nil =>
    obtain ⟨unit, member, -⟩ := solid
    cases member
  | cons first line induction =>
    by_cases space : first = 0x20
    · subst space
      obtain ⟨unit, member, other⟩ := solid
      rcases mem_cons.mp member with same | inner
      · exact absurd same other
      · rw [cons_append, leadingSpaces_space, leadingSpaces_space,
          induction ⟨unit, inner, other⟩]
    · rw [leadingSpaces, leadingSpaces, cons_append, takeWhile_cons_of_neg (by
        simpa using space), takeWhile_cons_of_neg (by simpa using space)]

theorem leadingSpaces_replicate (count : Nat) (line : Text) :
    leadingSpaces (List.replicate count 0x20 ++ line) = count +
    leadingSpaces line := by
  induction count with
  | zero => simp
  | succ count induction =>
    rw [replicate_succ, cons_append, leadingSpaces_space, induction]
    omega

theorem leadingSpaces_drop (solid : ∃ unit ∈ line, unit ≠ 0x20) {count : Nat}
    (enough : count ≤ leadingSpaces line) (rest : Text) :
    leadingSpaces (line.drop count ++ rest) = leadingSpaces line - count := by
  induction line generalizing count with
  | nil =>
    obtain ⟨unit, member, -⟩ := solid
    cases member
  | cons first line induction =>
    cases count with
    | zero => exact leadingSpaces_append solid rest
    | succ count =>
      by_cases space : first = 0x20
      · subst space
        rw [leadingSpaces_space] at enough ⊢
        obtain ⟨unit, member, other⟩ := solid
        rcases mem_cons.mp member with same | inner
        · exact absurd same other
        · rw [drop_succ_cons, induction ⟨unit, inner, other⟩
            (Nat.le_of_succ_le_succ enough), Nat.add_sub_add_right]
      · rw [leadingSpaces,
          takeWhile_cons_of_neg (by simpa using space)] at enough
        cases enough

theorem shiftLineIndent_append_inj {rest other : Text}
    (same : shiftLineIndent delta line ++ rest = line ++ other) :
    shiftLineIndent delta line = line := by
  rw [shiftLineIndent] at same ⊢
  split
  case isTrue => rfl
  case isFalse filled =>
    rw [if_neg filled] at same
    rw [not_or] at filled
    have solid := exists_solid filled.1
    split
    case isTrue right =>
      rw [if_pos right, append_assoc] at same
      have spaces := congrArg leadingSpaces same
      rw [leadingSpaces_replicate, leadingSpaces_append solid,
        leadingSpaces_append solid] at spaces
      omega
    case isFalse left =>
      rw [if_neg left] at same
      have spaces := congrArg leadingSpaces same
      have most := Nat.min_le_right (-delta).toNat (leadingSpaces line)
      rw [leadingSpaces_drop solid most, leadingSpaces_append solid] at spaces
      have zero : min (-delta).toNat (leadingSpaces line) = 0 := by omega
      rw [zero]
      rfl

def keptTexts (lines : List HunkLine) : List Text :=
  (lines.filter fun line => line.type ≠ .added).map (·.text)

def writtenTexts (lines : List HunkLine) : List Text :=
  (lines.filter fun line => line.type ≠ .removed).map (·.text)

def writtenLines (delta : Int) (lines : List HunkLine)
    (terminators : List Text) : List FileLine :=
  ((writtenTexts lines).map (shiftLineIndent delta)).zipWith FileLine.mk
    terminators

theorem edits_context_iff {first : Text} :
    Edits (⟨.context, content⟩ :: lines) (line :: old) (first :: new) ↔
    first = line ∧ Edits lines old new := by
  constructor
  · intro edits
    cases edits with
    | context rest => exact ⟨rfl, rest⟩
  · rintro ⟨rfl, rest⟩
    exact .context rest

theorem edits_removed_iff :
    Edits (⟨.removed, content⟩ :: lines) (line :: old) new ↔
    Edits lines old new := by
  constructor
  · intro edits
    cases edits with
    | removed rest => exact rest
  · exact .removed

theorem edits_added_iff {first : Text} :
    Edits (⟨.added, content⟩ :: lines) old (first :: new) ↔
    (∃ terminator, LineEnd terminator ∧ first = content ++ terminator) ∧
    Edits lines old new := by
  constructor
  · intro edits
    cases edits with
    | added ends rest => exact ⟨⟨_, ends, rfl⟩, rest⟩
  · rintro ⟨⟨terminator, ends, rfl⟩, rest⟩
    exact .added ends rest

theorem edits_iff_keepsLines {block : List FileLine} {terminators : List Text}
    (old : block.length = (keptTexts lines).length)
    (new : terminators.length = (writtenTexts lines).length)
    (ends : ∀ terminator ∈ terminators, LineEnd terminator) : Edits lines
    (block.map FileLine.bytes)
    ((writtenLines delta lines terminators).map FileLine.bytes) ↔
    KeepsLines delta lines block terminators := by
  induction lines generalizing block terminators with
  | nil =>
    rw [length_eq_zero_iff.mp old, length_eq_zero_iff.mp new]
    exact ⟨fun _ => trivial, fun _ => .nil⟩
  | cons line lines induction =>
    obtain ⟨type, content⟩ := line
    cases type with
    | context =>
      cases block with
      | nil => cases old
      | cons line block =>
        cases terminators with
        | nil => cases new
        | cons terminator terminators =>
          have below := induction (Nat.succ.inj old)
            (Nat.succ.inj new) (forall_mem_cons.mp ends).2
          rw [KeepsLines, ← below]
          exact edits_context_iff
    | removed =>
      cases block with
      | nil => cases old
      | cons line block =>
        have below := induction (Nat.succ.inj old) new ends
        rw [KeepsLines, ← below]
        exact edits_removed_iff
    | added =>
      cases terminators with
      | nil => cases new
      | cons terminator terminators =>
        obtain ⟨own, others⟩ := forall_mem_cons.mp ends
        have below := induction old (Nat.succ.inj new) others
        rw [KeepsLines, ← below]
        refine edits_added_iff.trans (and_congr_left' ?_)
        constructor
        · rintro ⟨other, -, same⟩
          exact shiftLineIndent_append_inj same
        · intro same
          refine ⟨terminator, own, ?_⟩
          rw [FileLine.bytes, same]

theorem lineEnd_fileLine (line : Text) :
    LineEnd (fileLine line).terminator := by
  rw [fileLine]
  split
  · exact .inr (.inr rfl)
  · split
    · exact .inr (.inl rfl)
    · exact .inl rfl

theorem bytes_fileLine (line : Text) : (fileLine line).bytes = line := by
  have cut : ∀ {ending : Text}, ending.isSuffixOf line = true →
      line.take (line.length - ending.length) ++ ending = line := by
    intro ending stands
    obtain ⟨front, rfl⟩ := isSuffixOf_iff_suffix.mp stands
    rw [length_append, Nat.add_sub_cancel, take_left]
  rw [fileLine]
  split
  case isTrue carriage => exact cut carriage
  case isFalse =>
    split
    case isTrue feed => exact cut feed
    case isFalse => exact append_nil line

theorem map_bytes_split (content : Text) :
    (splitLinesWithTerminators content).map FileLine.bytes =
    linesOf content := by
  rw [splitLinesWithTerminators, map_map]
  conv_rhs => rw [← map_id (linesOf content)]
  exact map_congr_left fun line _ => bytes_fileLine line

theorem lineEnd_replacement (old : ∀ terminator ∈ removed, LineEnd terminator)
    (fallback : LineEnd defaultEol) (count : Nat) :
    ∀ terminator ∈ replacementLineTerminators removed count defaultEol,
    LineEnd terminator := by
  have last : LineEnd (removed.getLast?.getD []) := by
    cases found : removed.getLast? with
    | none => exact .inl rfl
    | some terminator => exact old terminator (mem_of_getLast? found)
  have fill : LineEnd (if (removed.getLast?.getD []).isEmpty then defaultEol
      else removed.getLast?.getD []) := by
    split
    · exact fallback
    · exact last
  have plain : ∀ terminator ∈ removed.take count ++ List.replicate
      (count - removed.length) (if (removed.getLast?.getD []).isEmpty then
      defaultEol else removed.getLast?.getD []), LineEnd terminator := by
    intro terminator member
    rcases mem_append.mp member with taken | filled
    · exact old terminator (mem_of_mem_take taken)
    · rw [(mem_replicate.mp filled).2]
      exact fill
  rw [replacementLineTerminators]
  split
  case isTrue empty =>
    rw [if_pos empty] at plain
    intro terminator member
    obtain ⟨index, inside, rfl⟩ := mem_mapIdx.mp member
    split
    · exact .inl rfl
    · split
      · exact fallback
      · exact plain _ (getElem_mem inside)
  case isFalse filled =>
    rw [if_neg filled] at plain
    exact plain

theorem lineEnd_preferred (lines : List FileLine) :
    LineEnd (preferredLineEnding lines) := by
  rw [preferredLineEnding]
  split
  · exact .inr (.inr rfl)
  · exact .inr (.inl rfl)

theorem edits_length (edits : Edits lines old new) :
    new.length = (writtenTexts lines).length := by
  induction edits with
  | nil => rfl
  | context rest induction => exact congrArg Nat.succ induction
  | removed rest induction => exact induction
  | added ends rest induction => exact congrArg Nat.succ induction

/-- What is known of a place from the way it was found. -/
structure Place.Valid (place : Place) : Prop where
  size : place.block.length = place.hunk.oldLines.length
  ends : ∀ line ∈ place.block, LineEnd line.terminator

theorem Place.Valid.edits_iff {place : Place} (valid : place.Valid)
    (fallback : LineEnd defaultEol) : Edits place.hunk.lines
    (place.block.map FileLine.bytes)
    ((place.replaced defaultEol).map FileLine.bytes) ↔
    place.Keeps defaultEol := by
  have old : ∀ terminator ∈ place.block.map (·.terminator),
      LineEnd terminator := by
    intro terminator member
    obtain ⟨line, inside, rfl⟩ := List.mem_map.mp member
    exact valid.ends line inside
  rw [Place.Keeps, Place.replaced, replacementLines, length_map]
  exact edits_iff_keepsLines valid.size
    (length_replacementLineTerminators (place.block.map (·.terminator))
      place.hunk.newLines.length defaultEol)
    (lineEnd_replacement old fallback _)

theorem patched_iff (fallback : LineEnd defaultEol)
    (valid : ∀ place ∈ places, place.Valid) : Patched places
    (rest.map FileLine.bytes)
    ((places.flatMap (·.rewritten defaultEol) ++ rest).map FileLine.bytes) ↔
    ∀ place ∈ places, place.Keeps defaultEol := by
  induction places with
  | nil => simp [Patched]
  | cons place places induction =>
    obtain ⟨own, others⟩ := forall_mem_cons.mp valid
    have below := induction others
    have parts : ((place :: places).flatMap (·.rewritten defaultEol) ++
        rest).map FileLine.bytes =
        place.before.map FileLine.bytes ++
          ((place.replaced defaultEol).map FileLine.bytes ++
            (places.flatMap (·.rewritten defaultEol) ++ rest).map
              FileLine.bytes) := by
      simp [Place.rewritten]
    rw [parts, forall_mem_cons, ← below, ← own.edits_iff fallback]
    constructor
    · rintro ⟨replaced, tail, same, edits, patched⟩
      have inner := append_cancel_left same
      have length : ((place.replaced defaultEol).map FileLine.bytes).length =
          replaced.length := by
        rw [length_map, Place.replaced, length_replacementLines,
          edits_length edits]
        rfl
      obtain ⟨rfl, rfl⟩ := append_inj inner length
      exact ⟨edits, patched⟩
    · rintro ⟨edits, patched⟩
      exact ⟨_, _, rfl, edits, patched⟩

/-- Every line but the last one has an end. -/
def Ended (lines : List FileLine) : Prop :=
  ∀ line ∈ lines.dropLast, line.terminator ≠ []

theorem replacement_filled (some : removed ≠ [])
    (all : ∀ terminator ∈ removed, terminator ≠ []) (count : Nat) :
    ∀ terminator ∈ replacementLineTerminators removed count defaultEol,
    terminator ≠ [] := by
  have last : (removed.getLast?.getD []).isEmpty = false := by
    rw [getLast?_eq_some_getLast some, Option.getD_some, isEmpty_eq_false_iff]
    exact all _ (getLast_mem some)
  rw [replacementLineTerminators]
  simp only [last, Bool.false_eq_true, if_false]
  intro terminator member
  rcases mem_append.mp member with taken | filled
  · exact all terminator (mem_of_mem_take taken)
  · rw [(mem_replicate.mp filled).2]
    exact isEmpty_eq_false_iff.mp last

theorem replacement_dropLast (some : removed ≠ [])
    (all : ∀ terminator ∈ removed.dropLast, terminator ≠ [])
    (fallback : defaultEol ≠ []) (count : Nat) : ∀ terminator ∈
    (replacementLineTerminators removed count defaultEol).dropLast,
    terminator ≠ [] := by
  by_cases last : removed.getLast some = []
  · have open_ : (removed.getLast?.getD []).isEmpty = true := by
      rw [getLast?_eq_some_getLast some, Option.getD_some, last]
      rfl
    have size := length_replacementLineTerminators removed count defaultEol
    intro terminator member
    obtain ⟨index, found⟩ := mem_iff_getElem?.mp member
    rw [getElem?_dropLast, size] at found
    split at found
    case isFalse => cases found
    case isTrue early =>
      rw [replacementLineTerminators] at found
      simp only [open_, if_true, getElem?_mapIdx] at found
      obtain ⟨other, -, same⟩ := Option.map_eq_some_iff.mp found
      rw [if_neg (by omega)] at same
      rw [← same]
      split
      case isTrue => exact fallback
      case isFalse filled => exact fun empty => filled (by rw [empty]; rfl)
  · have filled : ∀ terminator ∈ removed, terminator ≠ [] := by
      intro terminator member
      rw [← dropLast_concat_getLast some] at member
      rcases mem_append.mp member with early | final
      · exact all terminator early
      · rw [mem_singleton.mp final]
        exact last
    intro terminator member
    exact replacement_filled some filled count terminator
      (dropLast_subset _ member)

theorem map_terminator_replacementLines (defaultEol : Text) (hunk : UpdateHunk)
    (delta : Int) (block : List FileLine) :
    (replacementLines defaultEol hunk delta block).map (·.terminator) =
    replacementLineTerminators (block.map (·.terminator)) hunk.newLines.length
    defaultEol := by
  rw [replacementLines, length_map]
  generalize terms : replacementLineTerminators _ _ _ = terminators
  have size : terminators.length =
      (hunk.newLines.map (shiftLineIndent delta)).length := by
    rw [← terms, length_replacementLineTerminators, length_map]
  generalize hunk.newLines.map (shiftLineIndent delta) = lines at size
  clear terms
  induction lines generalizing terminators with
  | nil => rw [length_eq_zero_iff.mp size]; rfl
  | cons line lines induction =>
    cases terminators with
    | nil => cases size
    | cons terminator terminators =>
      rw [zipWith_cons_cons, map_cons, induction _ (Nat.succ.inj size)]

theorem Ended.replace {front block back : List FileLine}
    (ended : Ended (front ++ block ++ back)) (filled : block ≠ [])
    (fallback : defaultEol ≠ []) (hunk : UpdateHunk) (delta : Int) :
    Ended (front ++ replacementLines defaultEol hunk delta block ++ back) := by
  have terminators := map_terminator_replacementLines defaultEol hunk delta
    block
  have some : block.map (·.terminator) ≠ [] := by simpa using filled
  generalize replacementLines defaultEol hunk delta block = replaced
    at terminators
  rw [Ended] at ended ⊢
  by_cases last : back = []
  · rw [last, append_nil, dropLast_append_of_ne_nil filled] at ended
    have early : ∀ terminator ∈ (block.map (·.terminator)).dropLast,
        terminator ≠ [] := by
      intro terminator member
      rw [← map_dropLast] at member
      obtain ⟨line, inside, rfl⟩ := List.mem_map.mp member
      exact ended line (mem_append_right front inside)
    have own := replacement_dropLast some early fallback hunk.newLines.length
    rw [← terminators, ← map_dropLast] at own
    rw [last, append_nil]
    intro line member
    by_cases empty : replaced = []
    · rw [empty, append_nil] at member
      exact ended line (mem_append_left _ (dropLast_subset _ member))
    · rw [dropLast_append_of_ne_nil empty] at member
      rcases mem_append.mp member with before | inside
      · exact ended line (mem_append_left _ before)
      · exact own _ (mem_map_of_mem inside)
  · rw [dropLast_append_of_ne_nil last] at ended ⊢
    have all : ∀ terminator ∈ block.map (·.terminator), terminator ≠ [] := by
      intro terminator member
      obtain ⟨line, inside, rfl⟩ := List.mem_map.mp member
      exact ended line
        (mem_append_left _ (mem_append_right front inside))
    have own : ∀ terminator ∈ replacementLineTerminators
        (block.map (·.terminator)) hunk.newLines.length defaultEol,
        terminator ≠ [] := replacement_filled some all _
    rw [← terminators] at own
    intro line member
    rcases mem_append.mp member with before | behind
    · rcases mem_append.mp before with first | inside
      · exact ended line (mem_append_left _ (mem_append_left _ first))
      · exact own _ (mem_map_of_mem inside)
    · exact ended line (mem_append_right _ behind)

theorem Ended.rewrite {done : List FileLine}
    (ended : Ended (done ++ (places.flatMap (·.original) ++ rest)))
    (filled : ∀ place ∈ places, place.block ≠ [])
    (fallback : defaultEol ≠ []) :
    Ended (done ++ (places.flatMap (·.rewritten defaultEol) ++ rest)) := by
  induction places generalizing done with
  | nil => exact ended
  | cons place places induction =>
    obtain ⟨own, others⟩ := forall_mem_cons.mp filled
    have parts : done ++ ((place :: places).flatMap (·.original) ++ rest) =
        (done ++ place.before) ++ place.block ++
        (places.flatMap (·.original) ++ rest) := by
      simp [Place.original]
    rw [parts] at ended
    have replaced := ended.replace own fallback place.hunk place.delta
    have below := induction replaced others
    have joined : done ++
        ((place :: places).flatMap (·.rewritten defaultEol) ++ rest) =
        (done ++ place.before) ++ place.replaced defaultEol ++
        (places.flatMap (·.rewritten defaultEol) ++ rest) := by
      simp [Place.rewritten]
    rw [joined]
    exact below

section

variable (content : Text)

theorem linesOf_ended :
    ∀ line ∈ (linesOf content).dropLast, [lineFeed] <:+ line := by
  induction content with
  | nil => exact forall_mem_nil _
  | cons unit rest induction =>
    rw [linesOf]
    split
    case isTrue feed =>
      rw [dropLast_cons_of_ne_nil (linesOf_ne_nil rest), forall_mem_cons]
      obtain ⟨rfl, -⟩ := feed
      exact ⟨suffix_rfl, induction⟩
    case isFalse =>
      cases parts : linesOf rest with
      | nil => exact absurd parts (linesOf_ne_nil rest)
      | cons part others =>
        rw [parts] at induction
        cases others with
        | nil => exact forall_mem_nil _
        | cons second others =>
          rw [consFirst, dropLast_cons_cons, forall_mem_cons]
          rw [dropLast_cons_cons, forall_mem_cons] at induction
          exact ⟨induction.1.trans (suffix_cons _ _), induction.2⟩

theorem splitLines_ended : Ended (splitLinesWithTerminators content) := by
  intro line member
  rw [splitLinesWithTerminators, ← map_dropLast] at member
  obtain ⟨bytes, inside, rfl⟩ := List.mem_map.mp member
  have feed := linesOf_ended content bytes inside
  rw [fileLine]
  split
  · exact cons_ne_nil _ _
  · split
    · exact cons_ne_nil _ _
    case isFalse other => exact absurd (isSuffixOf_iff_suffix.mpr feed) other

theorem preferredLineEnding_ne_nil (lines : List FileLine) :
    preferredLineEnding lines ≠ [] := by
  rw [preferredLineEnding]
  split
  · exact cons_ne_nil _ _
  · exact cons_ne_nil _ _

theorem updatedLines_eq (hunks : List UpdateHunk) :
    updatedLines content hunks =
    (placeHunks 1 hunks (splitLinesWithTerminators content)).map fun found =>
    found.1.flatMap
    (·.rewritten (preferredLineEnding (splitLinesWithTerminators content))) ++
    found.2 :=
  applyHunks_eq (preferredLineEnding (splitLinesWithTerminators content)) 1
    hunks [] (splitLinesWithTerminators content)

end

theorem valid_of_placed {hunks : List UpdateHunk} (placed : placeHunks 1 hunks
    (splitLinesWithTerminators content) = .ok (places, rest)) : ∀ place ∈
    places, place.Valid := by
  obtain ⟨parts, each⟩ := placeHunks_original placed
  intro place member
  refine ⟨(each place member).1, ?_⟩
  intro line inside
  have original : line ∈ splitLinesWithTerminators content := by
    rw [parts]
    apply mem_append_left
    exact mem_flatMap.mpr ⟨place, member, mem_append_right _ inside⟩
  obtain ⟨bytes, -, rfl⟩ := List.mem_map.mp original
  exact lineEnd_fileLine bytes

/-- The context is `a`, `b` is removed and `c` is added. -/
def trailingHunk : UpdateHunk where
  header := []
  lines := [⟨.context, [0x61]⟩, ⟨.removed, [0x62]⟩, ⟨.added, [0x63]⟩]

end MachineBridge.Files
