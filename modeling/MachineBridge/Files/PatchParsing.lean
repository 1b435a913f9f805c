import MachineBridge.Files.PatchGrammar

/-!
# The parser accepts the grammar

Section by section, the parser accepts exactly the lines which the grammar
gives to an operation.  No line is left over.
-/

namespace MachineBridge.Files

open Foundation List

theorem moveMarker_apart_hunk :
    ¬ moveMarker <+: hunkMarker ∧ ¬ hunkMarker <+: moveMarker := by
  decide

variable {rest body lines : List Text} {line : Nat} {operation : FileOperation}
  {path item : Text} {operations : List FileOperation}

theorem RendersHunkBody.not_move {hunks : List UpdateHunk} {first : Text}
    (renders : RendersHunkBody hunks (first :: rest)) :
    startsWith first moveMarker = false := by
  by_cases blank : first = []
  · rw [blank]
    decide
  · obtain ⟨hunk, others, lines, -, marked, -⟩ :=
      (rendersHunkBody_cons blank).mp renders
    obtain ⟨tail, rfl, -⟩ := marked
    exact startsWith_of_apart moveMarker_apart_hunk.1 moveMarker_apart_hunk.2

theorem finishUpdate_eq_ok {moveTo : Option Text} :
    finishUpdate path moveTo line body = .ok operation ↔ ∃ hunks,
    operation = .update path moveTo hunks ∧ RendersHunkBody hunks body ∧
    hunks ≠ [] ∧ ∀ hunk ∈ hunks, hunk.Anchored := by
  rw [finishUpdate]
  split
  case h_1 failed =>
    constructor
    · intro same
      cases same
    · rintro ⟨hunks, -, renders, -, anchored⟩
      rw [parseHunks_eq_ok.mpr ⟨renders, anchored⟩] at failed
      cases failed
  case h_2 hunks parsed =>
    obtain ⟨renders, anchored⟩ := parseHunks_eq_ok.mp parsed
    have unique : ∀ others, RendersHunkBody others body →
        (∀ hunk ∈ others, hunk.Anchored) → hunks = others := by
      intro others same all
      have again := parsed.symm.trans (parseHunks_eq_ok.mpr ⟨same, all⟩)
      exact Except.ok.inj again
    split
    case isTrue empty =>
      constructor
      · intro same
        cases same
      · rintro ⟨others, -, renders, filled, all⟩
        rw [← unique others renders all] at filled
        exact absurd (List.isEmpty_iff.mp empty) filled
    case isFalse filled =>
      constructor
      · intro same
        refine ⟨hunks, (Except.ok.inj same).symm, renders, ?_, anchored⟩
        rintro rfl
        exact filled rfl
      · rintro ⟨others, rfl, renders, -, all⟩
        rw [unique others renders all]

def CompleteUpdate (moveTo : Option Text) (hunks : List UpdateHunk) : Prop :=
  moveTo ≠ some [] ∧ hunks ≠ [] ∧ ∀ hunk ∈ hunks, hunk.Anchored

theorem parseUpdate_eq_ok : parseUpdate path line body = .ok operation ↔
    ∃ moveTo hunks, operation = .update path moveTo hunks ∧
    RendersBody body operation ∧ CompleteUpdate moveTo hunks := by
  cases body with
  | nil =>
    rw [parseUpdate, finishUpdate_eq_ok]
    constructor
    · rintro ⟨hunks, rfl, renders, filled, -⟩
      exact absurd (rendersHunkBody_nil.mp renders) filled
    · rintro ⟨moveTo, hunks, rfl, ⟨move, blanks, lines, same, moved, -,
        renders⟩, -, filled, -⟩
      obtain ⟨-, both⟩ := append_eq_nil_iff.mp same.symm
      rw [(append_eq_nil_iff.mp both).2] at renders
      cases renders
      exact absurd rfl filled
  | cons first rest =>
    rw [parseUpdate]
    split
    case isTrue marked =>
      have own : ∀ {moveTo hunks},
          RendersBody (first :: rest) (.update path moveTo hunks) ↔
          moveTo = some (valueAfter moveMarker first) ∧
          RendersHunkBody hunks rest := by
        intro moveTo hunks
        constructor
        · rintro ⟨move, blanks, lines, same, moved, blank, renders⟩
          cases moveTo with
          | none =>
            rw [moved, nil_append] at same
            have body : RendersHunkBody hunks (first :: rest) :=
              ⟨blanks, lines, same, blank, renders⟩
            rw [body.not_move] at marked
            cases marked
          | some destination =>
            obtain ⟨header, rfl, moved⟩ := moved
            obtain ⟨rfl, rfl⟩ := List.cons.inj same
            rw [(marked_iff.mp moved).2]
            exact ⟨rfl, blanks, lines, rfl, blank, renders⟩
        · rintro ⟨rfl, blanks, lines, rfl, blank, renders⟩
          exact ⟨[first], blanks, lines, rfl,
            ⟨first, rfl, marked_iff.mpr ⟨marked, rfl⟩⟩, blank, renders⟩
      split
      case isTrue empty =>
        constructor
        · intro same
          cases same
        · rintro ⟨moveTo, hunks, rfl, renders, complete⟩
          have destination := (own.mp renders).1
          rw [List.isEmpty_iff.mp empty] at destination
          exact absurd destination complete.1
      case isFalse filled =>
        rw [finishUpdate_eq_ok]
        constructor
        · rintro ⟨hunks, rfl, renders, some, anchored⟩
          refine ⟨_, hunks, rfl, own.mpr ⟨rfl, renders⟩, ?_, some, anchored⟩
          intro empty
          exact filled (List.isEmpty_iff.mpr (Option.some.inj empty))
        · rintro ⟨moveTo, hunks, rfl, renders, complete⟩
          obtain ⟨rfl, below⟩ := own.mp renders
          exact ⟨hunks, rfl, below, complete.2⟩
    case isFalse plain =>
      rw [finishUpdate_eq_ok]
      constructor
      · rintro ⟨hunks, rfl, ⟨blanks, lines, same, blank, renders⟩, some,
          anchored⟩
        refine ⟨none, hunks, rfl, ⟨[], blanks, lines, same, rfl, blank,
          renders⟩, ?_, some, anchored⟩
        intro empty
        cases empty
      · rintro ⟨moveTo, hunks, rfl, ⟨move, blanks, lines, same, moved,
          blank, renders⟩, complete⟩
        cases moveTo with
        | none =>
          rw [moved, nil_append] at same
          exact ⟨hunks, rfl, ⟨blanks, lines, same, blank, renders⟩, complete.2⟩
        | some destination =>
          obtain ⟨header, rfl, marked⟩ := moved
          rw [← (List.cons.inj same).1] at marked
          exact absurd (marked_iff.mp marked).1 plain

theorem RendersHunks.not_section {hunks : List UpdateHunk}
    (renders : RendersHunks hunks lines) :
    ∀ line ∈ lines, isSectionHeader line = false := by
  induction renders with
  | nil => exact forall_mem_nil _
  | cons marked rest induction =>
    intro line member
    rcases mem_cons.mp member with rfl | member
    · exact marked.not_section hunkMarker_apart
    · rcases mem_append.mp member with own | below
      · obtain ⟨entry, -, rfl⟩ := List.mem_map.mp own
        exact isSectionHeader_mark entry.type entry.text
      · exact induction line below

theorem RendersBody.not_section (renders : RendersBody body operation) :
    ∀ line ∈ body, isSectionHeader line = false := by
  intro line member
  cases operation with
  | add path content =>
    obtain ⟨lines, rfl, -⟩ := renders
    obtain ⟨entry, -, rfl⟩ := List.mem_map.mp member
    exact isSectionHeader_mark .added entry
  | delete path =>
    rw [renders] at member
    cases member
  | update path moveTo hunks =>
    obtain ⟨move, blanks, lines, rfl, moved, blank, below⟩ := renders
    rcases mem_append.mp member with first | member
    · cases moveTo with
      | none =>
        rw [moved] at first
        cases first
      | some destination =>
        obtain ⟨header, rfl, marked⟩ := moved
        rw [mem_singleton.mp first]
        exact marked.not_section moveMarker_apart
    · rcases mem_append.mp member with empty | own
      · rw [blank line empty]
        exact isSectionHeader_nil
      · exact below.not_section line own

theorem RendersSections.next (renders : RendersSections operations lines) :
    lines = [] ∨ (∃ rest, lines = [] :: rest) ∨ ∃ header rest,
    lines = header :: rest ∧ header ≠ [] ∧ isSectionHeader header = true := by
  cases renders with
  | nil => exact .inl rfl
  | blank rest => exact .inr (.inl ⟨_, rfl⟩)
  | cons marked own rest next =>
    refine .inr (.inr ⟨_, _, rfl, ?_, ?_⟩)
    · exact marked.ne_nil (SectionKind.marker_ne_nil _)
    · exact isSectionHeader_iff.mpr ⟨_, (marked_iff.mp marked).1⟩

theorem parseDelete_eq_ok : parseDelete path line body = .ok operation ↔
    operation = .delete path ∧ (body = [] ∨ body.head? = some []) := by
  cases body with
  | nil =>
    constructor
    · intro same
      exact ⟨(Except.ok.inj same).symm, .inl rfl⟩
    · rintro ⟨rfl, -⟩
      rfl
  | cons first rest =>
    rw [parseDelete]
    split
    case isTrue blank =>
      constructor
      · intro same
        refine ⟨(Except.ok.inj same).symm, .inr ?_⟩
        rw [head?_cons, List.isEmpty_iff.mp blank]
      · rintro ⟨rfl, -⟩
        rfl
    case isFalse filled =>
      constructor
      · intro same
        cases same
      · rintro ⟨-, empty | blank⟩
        · cases empty
        · rw [Option.some.inj blank] at filled
          exact absurd rfl filled

theorem parseBody_eq_ok {kind : SectionKind} :
    parseBody kind path line (sectionBody rest) = .ok operation ↔
    operation.kind = kind ∧ operation.path = path ∧
    RendersBody (consumedBody kind rest) operation ∧ (∀ path moveTo hunks,
      operation = .update path moveTo hunks → CompleteUpdate moveTo hunks) ∧
    (kind = .delete → sectionBody rest = [] ∨
      (sectionBody rest).head? = some []) := by
  cases kind with
  | add =>
    rw [parseBody, exceptMap_eq_ok]
    constructor
    · rintro ⟨lines, parsed, rfl⟩
      refine ⟨rfl, rfl, ⟨lines, parseAddLines_eq_ok.mp parsed, rfl⟩, ?_, ?_⟩
      · intro path moveTo hunks other
        cases other
      · intro other
        cases other
    · rintro ⟨kind, rfl, renders, -⟩
      cases operation with
      | add path content =>
        obtain ⟨lines, same, rfl⟩ := renders
        exact ⟨lines, parseAddLines_eq_ok.mpr same, rfl⟩
      | update path moveTo hunks => cases kind
      | delete path => cases kind
  | update =>
    rw [parseBody, parseUpdate_eq_ok]
    constructor
    · rintro ⟨moveTo, hunks, rfl, renders, complete⟩
      refine ⟨rfl, rfl, renders, ?_, ?_⟩
      · intro other move lines same
        cases same
        exact complete
      · intro other
        cases other
    · rintro ⟨kind, rfl, renders, complete, -⟩
      cases operation with
      | add path content => cases kind
      | update path moveTo hunks =>
        exact ⟨moveTo, hunks, rfl, renders, complete _ _ _ rfl⟩
      | delete path => cases kind
  | delete =>
    rw [parseBody, parseDelete_eq_ok]
    constructor
    · rintro ⟨rfl, next⟩
      refine ⟨rfl, rfl, rfl, ?_, fun _ => next⟩
      intro path moveTo hunks other
      cases other
    · rintro ⟨kind, rfl, -, -, next⟩
      cases operation with
      | add path content => cases kind
      | update path moveTo hunks => cases kind
      | delete path => exact ⟨rfl, next rfl⟩

theorem consumedBody_append (kind : SectionKind) (rest : List Text) :
    consumedBody kind rest ++ remainingLines kind rest = rest := by
  rw [consumedBody, remainingLines]
  split
  · rfl
  · exact takeWhile_append_dropWhile

theorem RendersBody.split {kind : SectionKind}
    (own : RendersBody body operation) (same : operation.kind = kind)
    (rest : RendersSections operations lines)
    (next : operation.kind = .delete ∨ lines.head? ≠ some []) :
    consumedBody kind (body ++ lines) = body ∧
    remainingLines kind (body ++ lines) = lines ∧ (kind = .delete →
      sectionBody (body ++ lines) = [] ∨
      (sectionBody (body ++ lines)).head? = some []) := by
  subst same
  by_cases deletes : operation.kind = .delete
  · rw [consumedBody, remainingLines, if_pos deletes, if_pos deletes]
    cases operation with
    | add path content => cases deletes
    | update path moveTo hunks => cases deletes
    | delete path =>
      obtain rfl : body = [] := own
      refine ⟨rfl, rfl, fun _ => ?_⟩
      rw [nil_append, sectionBody]
      rcases rest.next with rfl | ⟨tail, rfl⟩ |
        ⟨header, tail, rfl, -, marked⟩
      · exact .inl rfl
      · right
        rfl
      · left
        exact takeWhile_cons_of_neg (by simp [marked])
  · rw [consumedBody, remainingLines, if_neg deletes, if_neg deletes]
    have stops : lines = [] ∨ ∃ header tail, lines = header :: tail ∧
        (!isSectionHeader header) = false := by
      rcases rest.next with empty | ⟨tail, rfl⟩ |
        ⟨header, tail, same, -, marked⟩
      · exact .inl empty
      · rcases next with other | filled
        · exact absurd other deletes
        · exact absurd rfl filled
      · exact .inr ⟨header, tail, same, congrArg not marked⟩
    obtain ⟨taken, left⟩ := takeWhile_append_next
      (fun line member => congrArg not (own.not_section line member)) stops
    exact ⟨taken, left, fun same => absurd same deletes⟩

theorem rendersSections_nil :
    RendersSections operations [] ↔ operations = [] := by
  constructor
  · intro renders
    cases renders
    rfl
  · rintro rfl
    exact .nil

theorem rendersSections_blank : RendersSections operations ([] :: rest) ↔
    RendersSections operations rest := by
  constructor
  · intro renders
    generalize same : [] :: rest = lines at renders
    cases renders with
    | nil => cases same
    | blank below =>
      rw [(List.cons.inj same).2]
      exact below
    | cons marked own below next =>
      have empty := (List.cons.inj same).1.symm
      exact absurd empty (marked.ne_nil (SectionKind.marker_ne_nil _))
  · exact .blank

theorem rendersSections_cons {header : Text} (filled : header ≠ []) :
    RendersSections operations (header :: rest) ↔
    ∃ operation others body lines, operations = operation :: others ∧
    Marked operation.kind.marker operation.path header ∧ rest = body ++ lines ∧
    RendersBody body operation ∧ RendersSections others lines ∧
    (operation.kind = .delete ∨ lines.head? ≠ some []) := by
  constructor
  · intro renders
    cases renders with
    | blank below => exact absurd rfl filled
    | cons marked own below next =>
      exact ⟨_, _, _, _, rfl, marked, rfl, own, below, next⟩
  · rintro ⟨operation, others, body, lines, rfl, marked, rfl, own, below,
      next⟩
    exact .cons marked own below next

theorem parseBody_of_renders (line : Nat) (own : RendersBody body operation)
    (rest : RendersSections operations lines)
    (next : operation.kind = .delete ∨ lines.head? ≠ some [])
    (complete : operation.Complete) : parseBody operation.kind operation.path
    line (sectionBody (body ++ lines)) = .ok operation ∧
    remainingLines operation.kind (body ++ lines) = lines := by
  obtain ⟨consumed, remaining, blank⟩ := own.split rfl rest next
  refine ⟨parseBody_eq_ok.mpr ⟨rfl, rfl, ?_, complete.update, blank⟩,
    remaining⟩
  rw [consumed]
  exact own

theorem parseSections_eq_ok : parseSections line lines = .ok operations ↔
    RendersSections operations lines ∧ ∀ operation ∈ operations,
    operation.Complete := by
  induction line, lines using parseSections.induct generalizing operations with
  | case1 line =>
    rw [parseSections, rendersSections_nil]
    constructor
    · intro parsed
      obtain rfl := Except.ok.inj parsed
      exact ⟨rfl, forall_mem_nil _⟩
    · rintro ⟨rfl, -⟩
      rfl
  | case2 line header rest blank induction =>
    rw [parseSections, if_pos blank, List.isEmpty_iff.mp blank,
      rendersSections_blank]
    exact induction
  | case3 line header rest filled unknown =>
    have nonempty : header ≠ [] := fun empty => filled (by simp [empty])
    rw [parseSections, if_neg filled, unknown]
    constructor
    · intro parsed
      cases parsed
    · rintro ⟨renders, -⟩
      obtain ⟨operation, others, body, lines, -, marked, -⟩ :=
        (rendersSections_cons nonempty).mp renders
      rw [sectionKind_eq_some.mpr (marked_iff.mp marked).1] at unknown
      cases unknown
  | case4 line header rest filled kind known path =>
    rename_i empty
    have nonempty : header ≠ [] := fun same => filled (by simp [same])
    have none : valueAfter kind.marker header = [] := List.isEmpty_iff.mp empty
    rw [parseSections, if_neg filled, known]
    dsimp only
    rw [if_pos empty]
    constructor
    · intro parsed
      cases parsed
    · rintro ⟨renders, complete⟩
      obtain ⟨operation, others, body, lines, rfl, marked, -⟩ :=
        (rendersSections_cons nonempty).mp renders
      obtain ⟨stands, value⟩ := marked_iff.mp marked
      rw [sectionKind_eq_some.mpr stands] at known
      obtain rfl := Option.some.inj known
      exact absurd (value.symm.trans none)
        (complete operation mem_cons_self).path
  | case5 line header rest filled kind known path pathFilled error =>
    rename_i failed
    have nonempty : header ≠ [] := fun same => filled (by simp [same])
    change parseBody kind (valueAfter kind.marker header) (line + 1)
      (sectionBody rest) = _ at failed
    rw [parseSections, if_neg filled, known]
    dsimp only
    rw [if_neg pathFilled, failed]
    constructor
    · intro parsed
      cases parsed
    · rintro ⟨renders, complete⟩
      obtain ⟨operation, others, body, lines, rfl, marked, rfl, own, below,
        next⟩ := (rendersSections_cons nonempty).mp renders
      obtain ⟨stands, value⟩ := marked_iff.mp marked
      rw [sectionKind_eq_some.mpr stands] at known
      obtain rfl := Option.some.inj known
      rw [value, (parseBody_of_renders (line + 1) own below next
        (complete operation mem_cons_self)).1] at failed
      cases failed
  | case6 line header rest filled kind known path pathFilled operation parsed =>
    rename_i induction
    have nonempty : header ≠ [] := fun same => filled (by simp [same])
    change parseBody kind (valueAfter kind.marker header) (line + 1)
      (sectionBody rest) = _ at parsed
    rw [parseSections, if_neg filled, known]
    dsimp only
    rw [if_neg pathFilled, parsed]
    rw [exceptMap_eq_ok, rendersSections_cons nonempty]
    constructor
    · rintro ⟨others, below, rfl⟩
      obtain ⟨same, value, own, update, -⟩ := parseBody_eq_ok.mp parsed
      obtain ⟨renders, all⟩ := induction.mp below
      have stands := sectionKind_eq_some.mp known
      have complete : operation.Complete := by
        refine ⟨?_, update⟩
        rw [value]
        exact fun empty => pathFilled (List.isEmpty_iff.mpr empty)
      refine ⟨⟨operation, others, _, _, rfl, ?_, (consumedBody_append kind
        rest).symm, own, renders, ?_⟩, forall_mem_cons.mpr ⟨complete, all⟩⟩
      · rw [same, value]
        exact marked_iff.mpr ⟨stands, rfl⟩
      · by_cases deletes : kind = .delete
        · exact .inl (same.trans deletes)
        · right
          rw [remainingLines, if_neg deletes, afterSection]
          intro blank
          obtain ⟨tail, left⟩ := head?_eq_some_iff.mp blank
          have stop := keeps_of_dropWhile left
          cases stop
    · rintro ⟨⟨first, others, body, lines, rfl, marked, rfl, own, below,
        next⟩, complete⟩
      obtain ⟨stands, value⟩ := marked_iff.mp marked
      rw [sectionKind_eq_some.mpr stands] at known
      obtain rfl := Option.some.inj known
      obtain ⟨accepted, remaining⟩ := parseBody_of_renders (line + 1) own
        below next (complete first mem_cons_self)
      rw [value, accepted] at parsed
      obtain rfl := Except.ok.inj parsed
      refine ⟨others, induction.mpr ⟨?_, ?_⟩, rfl⟩
      · rw [remaining]
        exact below
      · exact fun other member => complete other (mem_cons_of_mem _ member)

theorem lastIndexOf_eq_none {items : List Text} :
    lastIndexOf item items = none ↔ item ∉ items := by
  induction items with
  | nil => simp [lastIndexOf]
  | cons first rest induction =>
    rw [lastIndexOf, mem_cons, not_or]
    cases below : lastIndexOf item rest with
    | none =>
      have absent := induction.mp below
      dsimp only
      split
      case isTrue same => simp [same]
      case isFalse other =>
        exact ⟨fun _ => ⟨fun same => other same.symm, absent⟩, fun _ => rfl⟩
    | some index =>
      constructor
      · intro same
        cases same
      · rintro ⟨-, absent⟩
        rw [induction.mpr absent] at below
        cases below

theorem lastIndexOf_of_append {before after : List Text}
    (last : item ∉ after) :
    lastIndexOf item (before ++ item :: after) = some before.length := by
  induction before with
  | nil => simp [lastIndexOf, lastIndexOf_eq_none.mpr last]
  | cons first before induction =>
    rw [cons_append, lastIndexOf, induction]
    rfl

theorem lastIndexOf_eq_some {items : List Text} {index : Nat}
    (found : lastIndexOf item items = some index) : ∃ before after,
    items = before ++ item :: after ∧ before.length = index := by
  induction items generalizing index with
  | nil => cases found
  | cons first rest induction =>
    rw [lastIndexOf] at found
    cases below : lastIndexOf item rest with
    | some inner =>
      rw [below] at found
      obtain rfl := Option.some.inj found
      obtain ⟨before, after, rfl, length⟩ := induction below
      exact ⟨first :: before, after, rfl, congrArg Nat.succ length⟩
    | none =>
      rw [below] at found
      dsimp only at found
      split at found
      case isTrue same =>
        obtain rfl := Option.some.inj found
        rw [same]
        exact ⟨[], rest, rfl, rfl⟩
      case isFalse => cases found

theorem endMarker_ne_nil : endMarker ≠ [] := by decide

theorem any_filled_eq_false :
    (lines.any fun line => !line.isEmpty) = false ↔ Blank lines := by
  simp [Blank]

/-- The parser accepts exactly the lines which the grammar gives to the
operations of a complete patch. -/
theorem parsePatchEnvelope_eq_ok {input : Text} :
    parsePatchEnvelope input = .ok operations ↔
    RendersEnvelope operations (splitLf (toLf input)) ∧
    CompletePatch operations := by
  rw [parsePatchEnvelope]
  generalize splitLf (toLf input) = lines
  constructor
  · intro parsed
    split at parsed
    · cases parsed
    case isFalse first =>
      split at parsed
      · cases parsed
      · cases parsed
      case h_3 endIndex found =>
        split at parsed
        · cases parsed
        case isFalse blank =>
          obtain ⟨before, after, rfl, length⟩ := lastIndexOf_eq_some found
          obtain ⟨body, rfl⟩ : ∃ body, before = beginMarker :: body := by
            cases before with
            | nil => cases length
            | cons head body =>
              have same := Option.some.inj (not_not.mp first)
              exact ⟨body, by rw [← same]⟩
          have size : body.length = endIndex := Nat.succ.inj length
          rw [← size] at parsed blank
          have taken : ((beginMarker :: body ++ endMarker :: after).take
              (body.length + 1)).drop 1 = body := by
            rw [← length_cons (a := beginMarker), take_left]
            rfl
          have left : (beginMarker :: body ++ endMarker :: after).drop
              (body.length + 2) = after := by
            simp
          rw [taken] at parsed
          rw [left, Bool.not_eq_true, any_filled_eq_false] at blank
          split at parsed
          · cases parsed
          case h_2 others sections =>
            split at parsed
            · cases parsed
            case isFalse filled =>
              split at parsed
              case isFalse => cases parsed
              case isTrue distinct =>
                obtain rfl := Except.ok.inj parsed
                obtain ⟨renders, complete⟩ := parseSections_eq_ok.mp sections
                refine ⟨⟨body, after, rfl, blank, renders⟩, ?_, complete,
                  distinct⟩
                rintro rfl
                exact filled rfl
  · rintro ⟨⟨body, blanks, rfl, blank, renders⟩, complete⟩
    have absent : endMarker ∉ blanks := fun member =>
      endMarker_ne_nil (blank _ member)
    have found :
        lastIndexOf endMarker (beginMarker :: (body ++ endMarker :: blanks)) =
        some (body.length + 1) := by
      rw [← cons_append, lastIndexOf_of_append absent]
      rfl
    have taken : ((beginMarker :: (body ++ endMarker :: blanks)).take
        (body.length + 1)).drop 1 = body := by
      rw [take_succ_cons, drop_succ_cons, drop_zero, take_left]
    have left :
        (beginMarker :: (body ++ endMarker :: blanks)).drop (body.length + 2) =
        blanks := by
      simp
    have sections : parseSections 2 body = .ok operations :=
      parseSections_eq_ok.mpr ⟨renders, complete.complete⟩
    rw [if_neg (by simp), found]
    dsimp only
    rw [left, taken, if_neg (by rw [any_filled_eq_false.mpr blank]; simp),
      sections]
    dsimp only
    rw [if_neg (by simpa using complete.filled), if_pos complete.distinct]

end MachineBridge.Files
