import MachineBridge.Files.PatchParsing

/-!
# Writing a patch

A list of operations is written with one space before the header of a hunk and
without blank lines.  The parser reads it back, unless a line ends in a
carriage return: before the lines are read, every pair of a carriage return and
a line feed becomes a line feed.
-/

namespace MachineBridge.Files

open Foundation List

def renderHunkHeader (header : Text) : Text :=
  if header.isEmpty then hunkMarker else hunkMarker ++ 0x20 :: header

def UpdateHunk.render (hunk : UpdateHunk) : List Text :=
  renderHunkHeader hunk.header :: hunk.lines.map HunkLine.render

def contentLines (content : Text) : List Text := (splitLf content).dropLast

def FileOperation.renderBody : FileOperation → List Text
  | .add _ content => (contentLines content).map (LineType.added.mark :: ·)
  | .update _ moveTo hunks =>
    moveTo.toList.map (moveMarker ++ ·) ++ hunks.flatMap (·.render)
  | .delete _ => []

def FileOperation.render (operation : FileOperation) : List Text :=
  (operation.kind.marker ++ operation.path) :: operation.renderBody

section

variable (operations : List FileOperation)

def patchLines : List Text :=
  beginMarker :: (operations.flatMap (·.render) ++ [endMarker])

def renderPatch : Text :=
  [lineFeed].intercalate (patchLines operations)

end

def OneLine (content : Text) : Prop := lineFeed ∉ content

/-- A value without whitespace at its ends, on one line. -/
structure Plain (value : Text) : Prop where
  trimmed : trim value = value
  oneLine : OneLine value

structure UpdateHunk.WellFormed (hunk : UpdateHunk) : Prop where
  header : Plain hunk.header
  lines : ∀ line ∈ hunk.lines, OneLine line.text
  anchored : hunk.Anchored

/-- What an operation consists of beside its path. -/
def FileOperation.WellFormedParts : FileOperation → Prop
  | .add _ content => content = [] ∨ content.getLast? = some lineFeed
  | .update _ moveTo hunks =>
    (∀ destination, moveTo = some destination →
      destination ≠ [] ∧ Plain destination) ∧
    hunks ≠ [] ∧ ∀ hunk ∈ hunks, hunk.WellFormed
  | .delete _ => True

structure FileOperation.WellFormed (operation : FileOperation) : Prop where
  filled : operation.path ≠ []
  path : Plain operation.path
  parts : operation.WellFormedParts

structure WellFormedPatch (operations : List FileOperation) : Prop where
  filled : operations ≠ []
  each : ∀ operation ∈ operations, operation.WellFormed
  distinct : (operations.flatMap (·.paths)).Nodup

def FileOperation.textLines : FileOperation → List Text
  | .add _ content => contentLines content
  | .update _ _ hunks => hunks.flatMap fun hunk => hunk.lines.map (·.text)
  | .delete _ => []

def NoCarriageEnds (operations : List FileOperation) : Prop :=
  ∀ operation ∈ operations, ∀ line ∈ operation.textLines,
    line.getLast? ≠ some carriageReturn

variable {value content : Text} {operation : FileOperation}
  {operations : List FileOperation}

theorem marked_append {marker : Text} (plain : Plain value) :
    Marked marker value (marker ++ value) := ⟨value, rfl, plain.trimmed⟩

theorem trim_cons_space (content : Text) :
    trim (0x20 :: content) = trim content := by
  rw [trim, trim, dropWhile_cons_of_pos (by decide)]

theorem marked_renderHunkHeader {header : Text} (plain : Plain header) :
    Marked hunkMarker header (renderHunkHeader header) := by
  rw [renderHunkHeader]
  split
  case isTrue empty =>
    refine ⟨[], (append_nil _).symm, ?_⟩
    rw [List.isEmpty_iff.mp empty]
    rfl
  case isFalse =>
    refine ⟨0x20 :: header, rfl, ?_⟩
    rw [trim_cons_space, plain.trimmed]

theorem rendersHunks_render {hunks : List UpdateHunk}
    (wellFormed : ∀ hunk ∈ hunks, hunk.WellFormed) :
    RendersHunks hunks (hunks.flatMap (·.render)) := by
  induction hunks with
  | nil => exact .nil
  | cons hunk hunks induction =>
    obtain ⟨own, others⟩ := forall_mem_cons.mp wellFormed
    exact .cons (marked_renderHunkHeader own.header) (induction others)

theorem joinLines_contentLines
    (ends : content = [] ∨ content.getLast? = some lineFeed) :
    joinLines (contentLines content) = content := by
  rw [contentLines]
  induction content with
  | nil => rfl
  | cons unit rest induction =>
    cases rest with
    | nil =>
      rcases ends with empty | last
      · cases empty
      · have same : unit = lineFeed := Option.some.inj last
        rw [same]
        rfl
    | cons next rest =>
      have last : (next :: rest).getLast? = some lineFeed := by
        rcases ends with empty | last
        · cases empty
        · rwa [getLast?_cons_cons] at last
      have below := induction (.inr last)
      rw [splitLf]
      split
      case isTrue feed =>
        rw [dropLast_cons_of_ne_nil (splitLf_ne_nil _), joinLines,
          flatMap_cons]
        rw [joinLines] at below
        rw [below, feed]
        rfl
      case isFalse =>
        cases parts : splitLf (next :: rest) with
        | nil => exact absurd parts (splitLf_ne_nil _)
        | cons part others =>
          rw [parts] at below
          cases others with
          | nil => cases below
          | cons second others =>
            rw [consFirst, dropLast_cons_cons, joinLines,
              flatMap_cons, cons_append, cons_append]
            rw [dropLast_cons_cons, joinLines, flatMap_cons] at below
            rw [below]

theorem rendersBody_render (wellFormed : operation.WellFormed) :
    RendersBody operation.renderBody operation := by
  have parts := wellFormed.parts
  cases operation with
  | add path content =>
    exact ⟨contentLines content, rfl, (joinLines_contentLines parts).symm⟩
  | delete path => rfl
  | update path moveTo hunks =>
    obtain ⟨moved, -, each⟩ := parts
    refine ⟨_, [], _, rfl, ?_, forall_mem_nil _, rendersHunks_render each⟩
    cases moveTo with
    | none => rfl
    | some destination =>
      exact ⟨_, rfl, marked_append (moved destination rfl).2⟩

theorem rendersSections_render
    (wellFormed : ∀ operation ∈ operations, operation.WellFormed) :
    RendersSections operations (operations.flatMap (·.render)) := by
  induction operations with
  | nil => exact .nil
  | cons operation operations induction =>
    obtain ⟨own, others⟩ := forall_mem_cons.mp wellFormed
    refine .cons (marked_append own.path) (rendersBody_render own)
      (induction others) (.inr ?_)
    cases operations with
    | nil => exact fun blank => absurd blank (by simp)
    | cons next rest =>
      intro blank
      have empty := Option.some.inj blank
      exact SectionKind.marker_ne_nil _ (append_eq_nil_iff.mp empty).1

theorem complete_of_wellFormed (wellFormed : operation.WellFormed) :
    operation.Complete := by
  refine ⟨wellFormed.filled, ?_⟩
  rintro path moveTo hunks rfl
  obtain ⟨moved, filled, each⟩ := wellFormed.parts
  refine ⟨?_, filled, fun hunk member => (each hunk member).anchored⟩
  rintro rfl
  exact (moved [] rfl).1 rfl

theorem WellFormedPatch.complete (wellFormed : WellFormedPatch operations) :
    CompletePatch operations :=
  ⟨wellFormed.filled,
    fun operation member =>
      complete_of_wellFormed (wellFormed.each operation member),
    wellFormed.distinct⟩

theorem rendersEnvelope_patchLines (wellFormed : WellFormedPatch operations) :
    RendersEnvelope operations (patchLines operations) :=
  ⟨_, [], rfl, forall_mem_nil _, rendersSections_render wellFormed.each⟩

/-- A line without a line feed which does not end in a carriage return. -/
structure Stable (line : Text) : Prop where
  oneLine : OneLine line
  ends : line.getLast? ≠ some carriageReturn

theorem Stable.append {marker : Text} (marked : Stable marker)
    (own : Stable value) : Stable (marker ++ value) := by
  constructor
  · intro feed
    rcases mem_append.mp feed with first | second
    · exact marked.oneLine first
    · exact own.oneLine second
  · by_cases empty : value = []
    · rw [empty, append_nil]
      exact marked.ends
    · rw [getLast?_append_of_ne_nil marker empty]
      exact own.ends

instance (line : Text) : Decidable (OneLine line) :=
  inferInstanceAs (Decidable (¬ lineFeed ∈ line))

theorem stable_of_decide {line : Text}
    (both : OneLine line ∧ line.getLast? ≠ some carriageReturn) :
    Stable line := ⟨both.1, both.2⟩

theorem stable_beginMarker : Stable beginMarker :=
  stable_of_decide (by decide)

theorem stable_endMarker : Stable endMarker :=
  stable_of_decide (by decide)

theorem stable_moveMarker : Stable moveMarker :=
  stable_of_decide (by decide)

theorem stable_hunkMarker : Stable hunkMarker :=
  stable_of_decide (by decide)

theorem SectionKind.stable_marker (kind : SectionKind) :
    Stable kind.marker := by
  cases kind <;> exact stable_of_decide (by decide)

theorem LineType.stable_mark (type : LineType) : Stable [type.mark] := by
  cases type <;> exact stable_of_decide (by decide)

theorem Plain.stable (plain : Plain value) : Stable value := by
  refine ⟨plain.oneLine, ?_⟩
  intro last
  have trimmed := congrArg List.reverse plain.trimmed
  rw [trim, reverse_reverse] at trimmed
  rw [getLast?_eq_head?_reverse, ← trimmed] at last
  obtain ⟨tail, same⟩ := head?_eq_some_iff.mp last
  have stop := keeps_of_dropWhile same
  revert stop
  decide

theorem stable_renderHunkHeader {header : Text} (plain : Plain header) :
    Stable (renderHunkHeader header) := by
  rw [renderHunkHeader]
  split
  case isTrue => exact stable_hunkMarker
  case isFalse =>
    have space : Stable [0x20] := stable_of_decide (by decide)
    exact stable_hunkMarker.append (space.append plain.stable)

theorem UpdateHunk.stable_render {hunk : UpdateHunk}
    (wellFormed : hunk.WellFormed)
    (ends : ∀ line ∈ hunk.lines, line.text.getLast? ≠ some carriageReturn) :
    ∀ line ∈ hunk.render, Stable line := by
  intro line member
  rcases mem_cons.mp member with rfl | own
  · exact stable_renderHunkHeader wellFormed.header
  · obtain ⟨entry, inside, rfl⟩ := List.mem_map.mp own
    exact entry.type.stable_mark.append
      ⟨wellFormed.lines entry inside, ends entry inside⟩

theorem FileOperation.stable_render (wellFormed : operation.WellFormed)
    (ends : ∀ line ∈ operation.textLines, line.getLast? ≠ some carriageReturn)
    : ∀ line ∈ operation.render, Stable line := by
  intro line member
  have parts := wellFormed.parts
  rcases mem_cons.mp member with rfl | own
  · exact operation.kind.stable_marker.append wellFormed.path.stable
  · cases operation with
    | add path content =>
      obtain ⟨entry, inside, rfl⟩ := List.mem_map.mp own
      refine LineType.added.stable_mark.append ⟨?_, ends entry inside⟩
      exact lineFeed_not_mem_splitLf (dropLast_subset _ inside)
    | delete path => cases own
    | update path moveTo hunks =>
      obtain ⟨moved, -, each⟩ := parts
      rcases mem_append.mp own with move | below
      · obtain ⟨destination, inside, rfl⟩ := List.mem_map.mp move
        have plain := (moved destination (Option.mem_toList.mp inside)).2
        exact stable_moveMarker.append plain.stable
      · obtain ⟨hunk, inside, rest⟩ := mem_flatMap.mp below
        refine hunk.stable_render (each hunk inside) ?_ line rest
        intro entry entryInside
        apply ends
        exact mem_flatMap.mpr ⟨hunk, inside, mem_map_of_mem entryInside⟩

theorem stable_patchLines (wellFormed : WellFormedPatch operations)
    (ends : NoCarriageEnds operations) :
    ∀ line ∈ patchLines operations, Stable line := by
  intro line member
  rcases mem_cons.mp member with rfl | member
  · exact stable_beginMarker
  · rcases mem_append.mp member with own | last
    · obtain ⟨operation, inside, below⟩ := mem_flatMap.mp own
      exact FileOperation.stable_render (wellFormed.each operation inside)
        (ends operation inside) line below
    · rw [mem_singleton.mp last]
      exact stable_endMarker

theorem parsePatchEnvelope_renderPatch
    (wellFormed : WellFormedPatch operations)
    (ends : NoCarriageEnds operations) :
    parsePatchEnvelope (renderPatch operations) = .ok operations := by
  have stable := stable_patchLines wellFormed ends
  have plain : ∀ line ∈ patchLines operations, lineFeed ∉ line :=
    fun line member => (stable line member).oneLine
  have filled : patchLines operations ≠ [] := cons_ne_nil _ _
  have lines :
      splitLf (toLf (renderPatch operations)) = patchLines operations := by
    rw [renderPatch,
      toLf_intercalate plain fun line member => (stable line member).ends,
      splitLf_intercalate filled plain]
  rw [parsePatchEnvelope_eq_ok, lines]
  exact ⟨rendersEnvelope_patchLines wellFormed, wellFormed.complete⟩

/-- A well-formed patch whose lines do not end in a carriage return is read
back as it was written, and what is accepted are the lines of the operations
which are returned. -/
theorem parsePatchEnvelope_grammar : (∀ operations,
      WellFormedPatch operations → NoCarriageEnds operations →
      parsePatchEnvelope (renderPatch operations) = .ok operations) ∧
    ∀ input operations, parsePatchEnvelope input = .ok operations ↔
    RendersEnvelope operations (splitLf (toLf input)) ∧
    CompletePatch operations :=
  ⟨fun _ => parsePatchEnvelope_renderPatch,
    fun _ _ => parsePatchEnvelope_eq_ok⟩

/-- An update with one line of context. -/
def contextPatch (content : Text) : List FileOperation :=
  [.update [0x61] none [⟨[], [⟨.context, content⟩]⟩]]

theorem contextPatch_wellFormed (oneLine : OneLine content) :
    WellFormedPatch (contextPatch content) := by
  have path : Plain [0x61] := ⟨by decide, by decide⟩
  have header : Plain [] := ⟨rfl, not_mem_nil⟩
  refine ⟨cons_ne_nil _ _, ?_, by simp [contextPatch, FileOperation.paths]⟩
  intro operation member
  obtain rfl := mem_singleton.mp member
  refine ⟨cons_ne_nil _ _, path, ?_, cons_ne_nil _ _, ?_⟩
  · intro destination none
    cases none
  · intro hunk inside
    obtain rfl := mem_singleton.mp inside
    refine ⟨header, ?_, ⟨_, mem_singleton_self _, ?_⟩⟩
    · intro line inner
      obtain rfl := mem_singleton.mp inner
      exact oneLine
    · intro added
      cases added

theorem contextPatch_noCarriageEnds
    (ends : content.getLast? ≠ some carriageReturn) :
    NoCarriageEnds (contextPatch content) := by
  intro operation member line inside
  obtain rfl := mem_singleton.mp member
  obtain rfl := mem_singleton.mp inside
  exact ends

theorem parsePatchEnvelope_grammar_context :
    parsePatchEnvelope (renderPatch (contextPatch [0x78])) =
    .ok (contextPatch [0x78]) :=
  parsePatchEnvelope_grammar.1 _ (contextPatch_wellFormed (by decide))
    (contextPatch_noCarriageEnds (by decide))

/-- The carriage return at the end of a line of context is not read back. -/
theorem carriageReturn_not_read : WellFormedPatch (contextPatch [0x78, 0x0D]) ∧
    parsePatchEnvelope (renderPatch (contextPatch [0x78, 0x0D])) ≠
    .ok (contextPatch [0x78, 0x0D]) := by
  refine ⟨contextPatch_wellFormed (by decide), ?_⟩
  have plain : parsePatchEnvelope (renderPatch (contextPatch [0x78])) =
      .ok (contextPatch [0x78]) :=
    parsePatchEnvelope_renderPatch (contextPatch_wellFormed (by decide))
      (contextPatch_noCarriageEnds (by decide))
  have lines : splitLf (toLf (renderPatch (contextPatch [0x78, 0x0D]))) =
      splitLf (toLf (renderPatch (contextPatch [0x78]))) := by
    decide
  rw [parsePatchEnvelope, lines, ← parsePatchEnvelope, plain]
  intro same
  have equal := Except.ok.inj same
  revert equal
  decide

end MachineBridge.Files
