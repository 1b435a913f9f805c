import MachineBridge.Files.PatchEnvelope

/-!
# The grammar of the patch envelope

The lines which stand for a list of operations, written without the parser.
Whitespace around a path, a destination or a hunk's header is free; so are
blank lines before a section, before the first hunk of an update and behind the
last marker.  Every other line belongs to one operation.
-/

namespace MachineBridge.Files

open Foundation List

def Marked (marker value line : Text) : Prop :=
  ∃ rest, line = marker ++ rest ∧ trim rest = value

def Blank (lines : List Text) : Prop := ∀ line ∈ lines, line = []

def HunkLine.render (line : HunkLine) : Text := line.type.mark :: line.text

inductive RendersHunks : List UpdateHunk → List Text → Prop where
  | nil : RendersHunks [] []
  | cons {hunk : UpdateHunk} {hunks : List UpdateHunk} {header : Text}
      {lines : List Text} (marked : Marked hunkMarker hunk.header header)
      (rest : RendersHunks hunks lines) :
      RendersHunks (hunk :: hunks)
        (header :: (hunk.lines.map HunkLine.render ++ lines))

def RendersMove (lines : List Text) : Option Text → Prop
  | none => lines = []
  | some destination =>
    ∃ line, lines = [line] ∧ Marked moveMarker destination line

/-- The lines of an operation behind its header. -/
def RendersBody (body : List Text) : FileOperation → Prop
  | .add _ content => ∃ lines,
      body = lines.map (LineType.added.mark :: ·) ∧ content = joinLines lines
  | .update _ moveTo hunks => ∃ move blanks lines,
      body = move ++ (blanks ++ lines) ∧ RendersMove move moveTo ∧
      Blank blanks ∧ RendersHunks hunks lines
  | .delete _ => body = []

def FileOperation.kind : FileOperation → SectionKind
  | .add _ _ => .add
  | .update _ _ _ => .update
  | .delete _ => .delete

def FileOperation.path : FileOperation → Text
  | .add path _ => path
  | .update path _ _ => path
  | .delete path => path

inductive RendersSections : List FileOperation → List Text → Prop where
  | nil : RendersSections [] []
  | blank {operations : List FileOperation} {lines : List Text}
      (rest : RendersSections operations lines) :
      RendersSections operations ([] :: lines)
  | cons {operation : FileOperation} {operations : List FileOperation}
      {header : Text} {body lines : List Text}
      (marked : Marked operation.kind.marker operation.path header)
      (own : RendersBody body operation)
      (rest : RendersSections operations lines)
      (next : operation.kind = .delete ∨ lines.head? ≠ some []) :
      RendersSections (operation :: operations) (header :: (body ++ lines))

def RendersEnvelope (operations : List FileOperation) (lines : List Text) :
    Prop :=
  ∃ body blanks, lines = beginMarker :: (body ++ endMarker :: blanks) ∧
    Blank blanks ∧ RendersSections operations body

/-- There are lines by which the place of a hunk can be found. -/
def UpdateHunk.Anchored (hunk : UpdateHunk) : Prop :=
  ∃ line ∈ hunk.lines, line.type ≠ .added

structure FileOperation.Complete (operation : FileOperation) : Prop where
  path : operation.path ≠ []
  update : ∀ path moveTo hunks, operation = .update path moveTo hunks →
    moveTo ≠ some [] ∧ hunks ≠ [] ∧ ∀ hunk ∈ hunks, hunk.Anchored

structure CompletePatch (operations : List FileOperation) : Prop where
  filled : operations ≠ []
  complete : ∀ operation ∈ operations, operation.Complete
  distinct : (operations.flatMap (·.paths)).Nodup

theorem exceptMap_eq_ok {α β ε : Type} {function : α → β}
    {outcome : Except ε α} {value : β} : outcome.map function = .ok value ↔
    ∃ inner, outcome = .ok inner ∧ function inner = value := by
  cases outcome with
  | error error =>
    constructor
    · intro same
      cases same
    · rintro ⟨inner, same, -⟩
      cases same
  | ok inner =>
    constructor
    · intro same
      exact ⟨inner, rfl, Except.ok.inj same⟩
    · rintro ⟨other, same, rfl⟩
      rw [Except.ok.inj same]
      rfl

variable {line marker value : Text} {body lines rest : List Text}
  {hunks : List UpdateHunk}

theorem startsWith_iff :
    startsWith line marker = true ↔ ∃ rest, line = marker ++ rest := by
  rw [startsWith, isPrefixOf_iff_prefix]
  constructor
  · rintro ⟨rest, same⟩
    exact ⟨rest, same.symm⟩
  · rintro ⟨rest, same⟩
    exact ⟨rest, same.symm⟩

theorem marked_iff : Marked marker value line ↔ startsWith line marker = true ∧
    valueAfter marker line = value := by
  rw [startsWith_iff]
  constructor
  · rintro ⟨rest, rfl, trimmed⟩
    refine ⟨⟨rest, rfl⟩, ?_⟩
    rw [valueAfter, drop_left, trimmed]
  · rintro ⟨⟨rest, rfl⟩, value⟩
    rw [valueAfter, drop_left] at value
    exact ⟨rest, rfl, value⟩

theorem startsWith_of_apart {other rest : Text} (one : ¬ other <+: marker)
    (two : ¬ marker <+: other) :
    startsWith (marker ++ rest) other = false := by
  rw [← Bool.not_eq_true, startsWith, isPrefixOf_iff_prefix]
  intro stands
  rcases prefix_or_prefix_of_prefix stands
      (prefix_append marker rest) with first | second
  · exact one first
  · exact two second

theorem kind_eq_of_marker {kind other : SectionKind}
    (stands : kind.marker <+: other.marker) : kind = other := by
  revert stands
  cases kind <;> cases other <;> decide

theorem sectionKind_marker (kind : SectionKind) (rest : Text) :
    sectionKind (kind.marker ++ rest) = some kind := by
  have own : startsWith (kind.marker ++ rest) kind.marker = true :=
    startsWith_iff.mpr ⟨rest, rfl⟩
  have others : ∀ other, other ≠ kind →
      startsWith (kind.marker ++ rest) other.marker = false := by
    intro other apart
    apply startsWith_of_apart
    · exact fun stands => apart (kind_eq_of_marker stands)
    · exact fun stands => apart (kind_eq_of_marker stands).symm
  rw [sectionKind]
  cases kind with
  | add => simp [own]
  | update =>
    have first := others .add (by decide)
    simp [own, first]
  | delete =>
    have first := others .add (by decide)
    have second := others .update (by decide)
    simp [own, first, second]

theorem sectionKind_eq_some {kind : SectionKind} :
    sectionKind line = some kind ↔ startsWith line kind.marker = true := by
  constructor
  · intro found
    have stands := find?_some found
    exact stands
  · intro stands
    obtain ⟨rest, rfl⟩ := startsWith_iff.mp stands
    exact sectionKind_marker kind rest

theorem isSectionHeader_iff : isSectionHeader line = true ↔
    ∃ kind : SectionKind, startsWith line kind.marker = true := by
  rw [isSectionHeader, Option.isSome_iff_exists]
  constructor
  · rintro ⟨kind, found⟩
    exact ⟨kind, sectionKind_eq_some.mp found⟩
  · rintro ⟨kind, stands⟩
    exact ⟨kind, sectionKind_eq_some.mpr stands⟩

theorem isSectionHeader_of_apart {rest : Text}
    (one : ∀ kind : SectionKind, ¬ kind.marker <+: marker)
    (two : ∀ kind : SectionKind, ¬ marker <+: kind.marker) :
    isSectionHeader (marker ++ rest) = false := by
  rw [← Bool.not_eq_true, isSectionHeader_iff]
  rintro ⟨kind, stands⟩
  rw [startsWith_of_apart (one kind) (two kind)] at stands
  exact Bool.false_ne_true stands

theorem hunkMarker_apart (kind : SectionKind) :
    ¬ kind.marker <+: hunkMarker ∧ ¬ hunkMarker <+: kind.marker := by
  cases kind <;> decide

theorem moveMarker_apart (kind : SectionKind) :
    ¬ kind.marker <+: moveMarker ∧ ¬ moveMarker <+: kind.marker := by
  cases kind <;> decide

section

variable (type : LineType)

theorem mark_apart (kind : SectionKind) :
    ¬ kind.marker <+: [type.mark] ∧ ¬ [type.mark] <+: kind.marker := by
  cases type <;> cases kind <;> decide

theorem isSectionHeader_mark (content : Text) :
    isSectionHeader (type.mark :: content) = false := by
  have apart : isSectionHeader ([type.mark] ++ content) = false :=
    isSectionHeader_of_apart (fun kind => (mark_apart type kind).1)
      (fun kind => (mark_apart type kind).2)
  exact apart

theorem isSectionHeader_nil : isSectionHeader [] = false := by decide

theorem isHunkHeader_mark (content : Text) :
    isHunkHeader (type.mark :: content) = false := by
  have one : ¬ hunkMarker <+: [type.mark] := by
    cases type <;> decide
  have two : ¬ [type.mark] <+: hunkMarker := by
    cases type <;> decide
  exact startsWith_of_apart one two

end

theorem Marked.isHunkHeader (marked : Marked hunkMarker value line) :
    isHunkHeader line = true :=
  (marked_iff.mp marked).1

theorem Marked.ne_nil (filled : marker ≠ [])
    (marked : Marked marker value line) : line ≠ [] := by
  obtain ⟨rest, rfl, -⟩ := marked
  exact append_ne_nil_of_left_ne_nil filled rest

theorem Marked.not_section (apart : ∀ kind : SectionKind,
      ¬ kind.marker <+: marker ∧ ¬ marker <+: kind.marker)
    (marked : Marked marker value line) : isSectionHeader line = false := by
  obtain ⟨rest, rfl, -⟩ := marked
  exact isSectionHeader_of_apart (fun kind => (apart kind).1)
    (fun kind => (apart kind).2)

theorem SectionKind.marker_ne_nil (kind : SectionKind) : kind.marker ≠ [] := by
  cases kind <;> decide

theorem parseAddLines_eq_ok {line : Nat} :
    parseAddLines line body = .ok lines ↔
    body = lines.map (LineType.added.mark :: ·) := by
  induction body generalizing line lines with
  | nil =>
    constructor
    · intro parsed
      obtain rfl := Except.ok.inj parsed
      rfl
    · intro same
      rw [map_eq_nil_iff.mp same.symm]
      rfl
  | cons first rest induction =>
    cases first with
    | nil =>
      constructor
      · intro parsed
        cases parsed
      · intro same
        cases lines with
        | nil => cases same
        | cons content lines => cases (List.cons.inj same).1
    | cons unit content =>
      rw [parseAddLines]
      split
      case isTrue mark =>
        subst mark
        constructor
        · intro parsed
          obtain ⟨others, below, rfl⟩ := exceptMap_eq_ok.mp parsed
          rw [induction.mp below]
          rfl
        · intro same
          cases lines with
          | nil => cases same
          | cons other lines =>
            obtain ⟨head, tail⟩ := List.cons.inj same
            obtain rfl := (List.cons.inj head).2
            exact exceptMap_eq_ok.mpr ⟨lines, induction.mpr tail, rfl⟩
      case isFalse other =>
        constructor
        · intro parsed
          cases parsed
        · intro same
          cases lines with
          | nil => cases same
          | cons content lines =>
            exact absurd (List.cons.inj (List.cons.inj same).1).1 other

theorem lineType_eq_some {unit : UInt16} {type : LineType} :
    lineType unit = some type ↔ unit = type.mark := by
  constructor
  · intro found
    have same := find?_some found
    exact beq_iff_eq.mp same
  · rintro rfl
    cases type <;> rfl

theorem HunkLine.render_injective : Function.Injective HunkLine.render := by
  rintro ⟨type, content⟩ ⟨other, rest⟩ same
  obtain ⟨mark, content⟩ := List.cons.inj same
  have known := lineType_eq_some.mpr mark
  rw [lineType_eq_some.mpr rfl] at known
  have type : type = other := Option.some.inj known
  rw [HunkLine.mk.injEq]
  exact ⟨type, content⟩

theorem parseHunkLines_eq_ok {line : Nat} {lines : List HunkLine} :
    parseHunkLines line body = .ok lines ↔
    body = lines.map HunkLine.render := by
  induction body generalizing line lines with
  | nil =>
    constructor
    · intro parsed
      obtain rfl := Except.ok.inj parsed
      rfl
    · intro same
      rw [map_eq_nil_iff.mp same.symm]
      rfl
  | cons first rest induction =>
    cases first with
    | nil =>
      constructor
      · intro parsed
        cases parsed
      · intro same
        cases lines with
        | nil => cases same
        | cons content lines => cases (List.cons.inj same).1
    | cons unit content =>
      rw [parseHunkLines]
      split
      case h_1 unknown =>
        constructor
        · intro parsed
          cases parsed
        · intro same
          cases lines with
          | nil => cases same
          | cons other lines =>
            have mark := (List.cons.inj (List.cons.inj same).1).1
            rw [lineType_eq_some.mpr mark] at unknown
            cases unknown
      case h_2 type known =>
        have mark := lineType_eq_some.mp known
        constructor
        · intro parsed
          obtain ⟨others, below, rfl⟩ := exceptMap_eq_ok.mp parsed
          rw [induction.mp below, mark]
          rfl
        · intro same
          cases lines with
          | nil => cases same
          | cons other lines =>
            obtain ⟨head, tail⟩ := List.cons.inj same
            obtain ⟨unit, rfl⟩ := List.cons.inj head
            rw [lineType_eq_some.mpr unit] at known
            obtain rfl := Option.some.inj known
            exact exceptMap_eq_ok.mpr ⟨lines, induction.mpr tail, rfl⟩

theorem parseHunk_eq_ok {line : Nat} {header : Text} {hunk : UpdateHunk} :
    parseHunk line header body = .ok hunk ↔
    body = hunk.lines.map HunkLine.render ∧ hunk.Anchored ∧
    valueAfter hunkMarker header = hunk.header := by
  rw [parseHunk]
  split
  case h_1 failed =>
    constructor
    · intro parsed
      cases parsed
    · rintro ⟨same, -⟩
      rw [parseHunkLines_eq_ok.mpr same] at failed
      cases failed
  case h_2 lines parsed =>
    have body := parseHunkLines_eq_ok.mp parsed
    split
    case isTrue empty =>
      constructor
      · intro same
        cases same
      · rintro ⟨same, ⟨entry, member, -⟩, -⟩
        rw [List.isEmpty_iff.mp empty] at body
        rw [body] at same
        rw [map_eq_nil_iff.mp same.symm] at member
        cases member
    case isFalse =>
      have unique : ∀ other : List HunkLine,
          lines.map HunkLine.render = other.map HunkLine.render →
          lines = other := fun _ same =>
        map_injective_iff.mpr HunkLine.render_injective same
      split
      case isTrue free =>
        constructor
        · intro same
          cases same
        · rintro ⟨same, ⟨entry, member, anchor⟩, -⟩
          rw [← unique _ (body.symm.trans same)] at member
          have added := all_eq_true.mp free entry member
          exact absurd (of_decide_eq_true added) anchor
      case isFalse anchored =>
        constructor
        · intro same
          obtain rfl := Except.ok.inj same
          refine ⟨body, ?_, rfl⟩
          obtain ⟨entry, member, anchor⟩ : ∃ entry ∈ lines,
              ¬ decide (entry.type = .added) = true := by
            simpa using anchored
          exact ⟨entry, member, fun added => anchor (decide_eq_true added)⟩
        · rintro ⟨same, -, header⟩
          rw [unique _ (body.symm.trans same), header]

theorem RendersHunks.next (renders : RendersHunks hunks lines) : lines = [] ∨
    ∃ header rest, lines = header :: rest ∧ isHunkHeader header = true := by
  cases renders with
  | nil => exact .inl rfl
  | cons marked rest => exact .inr ⟨_, _, rfl, marked.isHunkHeader⟩

theorem takeWhile_append_next {keeps : Text → Bool} {own : List Text}
    (all : ∀ line ∈ own, keeps line = true) (next : rest = [] ∨ ∃ header tail,
      rest = header :: tail ∧ keeps header = false) :
    (own ++ rest).takeWhile keeps = own ∧
    (own ++ rest).dropWhile keeps = rest := by
  rw [takeWhile_append_of_pos all, dropWhile_append_of_pos all]
  rcases next with rfl | ⟨header, tail, rfl, other⟩
  · exact ⟨append_nil own, rfl⟩
  · rw [takeWhile_cons_of_neg (Bool.eq_false_iff.mp other),
      dropWhile_cons_of_neg (Bool.eq_false_iff.mp other)]
    exact ⟨append_nil own, rfl⟩

theorem keeps_of_dropWhile {α : Type} {keeps : α → Bool} {lines tail : List α}
    {first : α} (same : lines.dropWhile keeps = first :: tail) :
    keeps first = false := by
  induction lines with
  | nil => cases same
  | cons line lines induction =>
    rw [dropWhile_cons] at same
    split at same
    case isTrue => exact induction same
    case isFalse other =>
      rw [← (List.cons.inj same).1]
      exact Bool.eq_false_iff.mpr other

theorem RendersHunks.split (renders : RendersHunks hunks lines)
    (own : List HunkLine) : (own.map HunkLine.render ++ lines).takeWhile
    (fun entry => !isHunkHeader entry) = own.map HunkLine.render ∧
    (own.map HunkLine.render ++ lines).dropWhile
    (fun entry => !isHunkHeader entry) = lines := by
  apply takeWhile_append_next
  · intro line member
    obtain ⟨entry, -, rfl⟩ := List.mem_map.mp member
    rw [HunkLine.render, isHunkHeader_mark]
    rfl
  · rcases renders.next with empty | ⟨header, rest, same, marked⟩
    · exact .inl empty
    · exact .inr ⟨header, rest, same, congrArg not marked⟩

/-- Hunks with blank lines before the first one. -/
def RendersHunkBody (hunks : List UpdateHunk) (body : List Text) : Prop :=
  ∃ blanks lines, body = blanks ++ lines ∧ Blank blanks ∧
    RendersHunks hunks lines

theorem rendersHunkBody_nil : RendersHunkBody hunks [] ↔ hunks = [] := by
  constructor
  · rintro ⟨blanks, lines, same, -, renders⟩
    obtain ⟨rfl, rfl⟩ := append_eq_nil_iff.mp same.symm
    cases renders
    rfl
  · rintro rfl
    exact ⟨[], [], rfl, forall_mem_nil _, .nil⟩

theorem rendersHunkBody_blank :
    RendersHunkBody hunks ([] :: rest) ↔ RendersHunkBody hunks rest := by
  constructor
  · rintro ⟨blanks, lines, same, blank, renders⟩
    cases blanks with
    | nil =>
      rcases renders.next with rfl | ⟨header, tail, rfl, marked⟩
      · cases same
      · rw [← (List.cons.inj same).1] at marked
        exact absurd marked (by decide)
    | cons first blanks =>
      refine ⟨blanks, lines, (List.cons.inj same).2, ?_, renders⟩
      exact fun line member => blank line (mem_cons_of_mem _ member)
  · rintro ⟨blanks, lines, rfl, blank, renders⟩
    refine ⟨[] :: blanks, lines, rfl, ?_, renders⟩
    exact forall_mem_cons.mpr ⟨rfl, blank⟩

theorem rendersHunkBody_cons {header : Text} (filled : header ≠ []) :
    RendersHunkBody hunks (header :: rest) ↔ ∃ hunk others lines,
    hunks = hunk :: others ∧ Marked hunkMarker hunk.header header ∧
    rest = hunk.lines.map HunkLine.render ++ lines ∧
    RendersHunks others lines := by
  constructor
  · rintro ⟨blanks, lines, same, blank, renders⟩
    cases blanks with
    | nil =>
      cases renders with
      | nil => cases same
      | cons marked below =>
        obtain ⟨rfl, rfl⟩ := List.cons.inj same
        exact ⟨_, _, _, rfl, marked, rfl, below⟩
    | cons first blanks =>
      have empty := blank first mem_cons_self
      exact absurd ((List.cons.inj same).1.trans empty) filled
  · rintro ⟨hunk, others, lines, rfl, marked, rfl, below⟩
    exact ⟨[], _, rfl, forall_mem_nil _, .cons marked below⟩

theorem RendersHunkBody.of_renders (renders : RendersHunks hunks lines) :
    RendersHunkBody hunks lines :=
  ⟨[], lines, rfl, forall_mem_nil _, renders⟩

theorem RendersHunkBody.of_header (renders : RendersHunkBody hunks body)
    (header : ∀ first rest, body = first :: rest → first ≠ []) :
    RendersHunks hunks body := by
  obtain ⟨blanks, lines, rfl, blank, below⟩ := renders
  cases blanks with
  | nil => exact below
  | cons first blanks =>
    exact absurd (blank first mem_cons_self) (header _ _ rfl)

theorem parseHunks_eq_ok {line : Nat} : parseHunks line lines = .ok hunks ↔
    RendersHunkBody hunks lines ∧ ∀ hunk ∈ hunks, hunk.Anchored := by
  induction line, lines using parseHunks.induct generalizing hunks with
  | case1 line =>
    rw [parseHunks, rendersHunkBody_nil]
    constructor
    · intro parsed
      obtain rfl := Except.ok.inj parsed
      exact ⟨rfl, forall_mem_nil _⟩
    · rintro ⟨rfl, -⟩
      rfl
  | case2 line header rest blank induction =>
    rw [parseHunks, if_pos blank, List.isEmpty_iff.mp blank,
      rendersHunkBody_blank]
    exact induction
  | case3 line header rest filled other =>
    rw [parseHunks, if_neg filled, if_pos other]
    constructor
    · intro parsed
      cases parsed
    · rintro ⟨renders, -⟩
      have nonempty : header ≠ [] := fun empty => filled (by simp [empty])
      obtain ⟨hunk, others, lines, -, marked, -⟩ :=
        (rendersHunkBody_cons nonempty).mp renders
      rw [marked.isHunkHeader] at other
      cases other
  | case4 line header rest filled marked body error =>
    rename_i failed
    have nonempty : header ≠ [] := fun empty => filled (by simp [empty])
    rw [parseHunks, if_neg filled, if_neg marked]
    change parseHunk line header
      (rest.takeWhile fun entry => !isHunkHeader entry) = _ at failed
    dsimp only
    rw [failed]
    constructor
    · intro parsed
      cases parsed
    · rintro ⟨renders, anchored⟩
      obtain ⟨hunk, others, lines, rfl, own, rfl, below⟩ :=
        (rendersHunkBody_cons nonempty).mp renders
      rw [(below.split hunk.lines).1, parseHunk_eq_ok.mpr ⟨rfl,
        anchored hunk mem_cons_self, (marked_iff.mp own).2⟩] at failed
      cases failed
  | case5 line header rest filled marked body hunk parsed =>
    rename_i induction
    have nonempty : header ≠ [] := fun empty => filled (by simp [empty])
    have stands : startsWith header hunkMarker = true := by
      simpa [isHunkHeader] using marked
    rw [parseHunks, if_neg filled, if_neg marked]
    change parseHunk line header
      (rest.takeWhile fun entry => !isHunkHeader entry) = _ at parsed
    dsimp only
    rw [parsed]
    rw [exceptMap_eq_ok, rendersHunkBody_cons nonempty]
    constructor
    · rintro ⟨others, below, rfl⟩
      obtain ⟨own, anchored, value⟩ := parseHunk_eq_ok.mp parsed
      obtain ⟨renders, all⟩ := induction.mp below
      refine ⟨⟨hunk, others, _, rfl, marked_iff.mpr ⟨stands, value⟩, ?_,
        renders.of_header ?_⟩, forall_mem_cons.mpr ⟨anchored, all⟩⟩
      · rw [← own, takeWhile_append_dropWhile]
      · intro first tail same
        have stop := keeps_of_dropWhile same
        rintro rfl
        exact absurd stop (by decide)
    · rintro ⟨⟨first, others, lines, rfl, own, rfl, below⟩, anchored⟩
      obtain ⟨same, next⟩ := below.split first.lines
      rw [same, parseHunk_eq_ok.mpr ⟨rfl,
        anchored first mem_cons_self, (marked_iff.mp own).2⟩] at parsed
      obtain rfl := Except.ok.inj parsed
      refine ⟨others, induction.mpr ⟨?_, ?_⟩, rfl⟩
      · rw [next]
        exact .of_renders below
      · exact fun hunk member => anchored hunk (mem_cons_of_mem _ member)

end MachineBridge.Files
