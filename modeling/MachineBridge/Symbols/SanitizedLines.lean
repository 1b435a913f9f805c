import MachineBridge.Symbols.SanitizeSource

/-!
# Lines and columns of the blanked source

Blanking may change units to spaces, but never a newline, and it may not move
anything.  A backslash in a string takes two units whatever they are: it fails
before a newline, and where it is the last unit.
-/

namespace MachineBridge.Symbols

open Foundation List

/-- The second text has the lines and the columns of the first one. -/
structure Aligned (source written : Text) : Prop where
  length : written.length = source.length
  newlines : ∀ index : Nat,
    written[index]? = some newline ↔ source[index]? = some newline
  units : ∀ (index : Nat) (unit : UInt16), written[index]? = some unit →
    unit = space ∨ source[index]? = some unit

def UnitKept (source written : UInt16) : Prop :=
  written = source ∨ written = space ∧ source ≠ newline

theorem unitKept_self (unit : UInt16) : UnitKept unit unit := Or.inl rfl

theorem unitKept_space {unit : UInt16} :
    UnitKept unit space ↔ unit ≠ newline := by
  constructor
  · intro kept same
    rcases kept with equal | ⟨_, other⟩
    · exact absurd (equal.trans same) (by decide)
    · exact other same
  · intro other
    exact Or.inr ⟨rfl, other⟩

theorem unitKept_newline_iff {source written : UInt16}
    (kept : UnitKept source written) :
    written = newline ↔ source = newline := by
  rcases kept with rfl | ⟨rfl, other⟩
  · exact Iff.rfl
  · constructor
    · intro same
      exact absurd same (by decide)
    · intro same
      exact absurd same other

namespace Aligned

variable {source written : Text} {first second : UInt16}

theorem nil : Aligned [] [] where
  length := rfl
  newlines := fun _ => Iff.rfl
  units := fun _ _ found => Or.inr found

theorem cons (kept : UnitKept first second)
    (aligned : Aligned source written) :
    Aligned (first :: source) (second :: written) where
  length := congrArg Nat.succ aligned.length
  newlines := by
    intro index
    cases index with
    | zero => simpa using unitKept_newline_iff kept
    | succ index => simpa using aligned.newlines index
  units := by
    intro index unit found
    cases index with
    | zero =>
      have same : second = unit := by simpa using found
      rcases kept with equal | ⟨blank, _⟩
      · exact Or.inr (by simp [← equal, same])
      · exact Or.inl (same.symm.trans blank)
    | succ index => simpa using aligned.units index unit (by simpa using found)

section

variable (aligned : Aligned (first :: source) (second :: written))
include aligned

theorem head : UnitKept first second := by
  have atFirst : second = newline ↔ first = newline := by
    simpa using aligned.newlines 0
  have either : second = space ∨ first = second := by
    simpa using aligned.units 0 second rfl
  rcases either with blank | same
  · right
    constructor
    · exact blank
    · intro ends
      exact absurd (blank.symm.trans (atFirst.mpr ends)) (by decide)
  · exact Or.inl same.symm

theorem tail : Aligned source written where
  length := Nat.succ.inj aligned.length
  newlines := by
    intro index
    simpa using aligned.newlines (index + 1)
  units := by
    intro index unit found
    simpa using aligned.units (index + 1) unit (by simpa using found)

end

theorem cons_iff : Aligned (first :: source) (second :: written) ↔
    UnitKept first second ∧ Aligned source written := by
  constructor
  · intro aligned
    exact ⟨aligned.head, aligned.tail⟩
  · intro both
    exact cons both.1 both.2

end Aligned

/-- The escapes which are read at no newline, and not at the end.  A template
keeps a newline after a backslash. -/
def ScanPiece.Keeps : ScanPiece → Prop
  | .copy _ => True
  | .blank _ => True
  | .escape next => next ≠ none ∧ next ≠ some newline
  | .templateEscape next => next ≠ none

theorem backslash_ne_newline : backslash ≠ newline := by decide

theorem ScanPiece.written_blank (unit : UInt16) : ∃ written,
    (ScanPiece.blank unit).written = [written] ∧ UnitKept unit written := by
  by_cases ends : unit = newline
  · exact ⟨newline, if_pos ends, ends ▸ unitKept_self newline⟩
  · exact ⟨space, if_neg ends, unitKept_space.mpr ends⟩

theorem ScanPiece.written_templateEscape (next : UInt16) : ∃ written,
    (ScanPiece.templateEscape (some next)).written = [space, written] ∧
    UnitKept next written := by
  by_cases ends : next = newline
  · refine ⟨newline, if_pos (congrArg some ends), ?_⟩
    exact ends ▸ unitKept_self newline
  · refine ⟨space, if_neg ?_, unitKept_space.mpr ends⟩
    intro same
    exact ends (Option.some.inj same)

theorem Scans.aligned_iff {code : Text} {pieces : List ScanPiece} {rest : Text}
    (scans : Scans code pieces rest) (ended : rest = []) :
    Aligned code (pieces.flatMap ScanPiece.written) ↔ ∀ piece ∈ pieces,
    piece.Keeps := by
  induction scans with
  | done code =>
    subst ended
    constructor
    · intro _ piece inside
      exact absurd inside not_mem_nil
    · intro _
      exact .nil
  | copy unit scans induction =>
    rw [forall_mem_cons, ← induction ended]
    simp only [flatMap_cons, ScanPiece.written, singleton_append,
      Aligned.cons_iff, ScanPiece.Keeps, unitKept_self]
  | blank unit scans induction =>
    obtain ⟨written, same, kept⟩ := ScanPiece.written_blank unit
    rw [forall_mem_cons, ← induction ended, flatMap_cons, same]
    simp only [singleton_append, Aligned.cons_iff, ScanPiece.Keeps, kept]
  | escape next scans induction =>
    rw [forall_mem_cons, ← induction ended]
    simp [ScanPiece.written, Aligned.cons_iff, ScanPiece.Keeps,
      backslash_ne_newline, unitKept_space]
  | escapeEnd =>
    constructor
    · intro aligned
      exact absurd aligned.length (by decide)
    · intro keeps
      exact absurd rfl (keeps _ (mem_singleton_self _)).1
  | templateEscape next scans induction =>
    obtain ⟨written, same, kept⟩ := ScanPiece.written_templateEscape next
    rw [forall_mem_cons, ← induction ended, flatMap_cons, same]
    simp [Aligned.cons_iff, ScanPiece.Keeps, backslash_ne_newline,
      unitKept_space, kept]
  | templateEscapeEnd =>
    constructor
    · intro aligned
      exact absurd aligned.length (by decide)
    · intro keeps
      exact absurd rfl (keeps _ (mem_singleton_self _))

theorem scanLiteral_point {template : (code : Text) → Option (ScanOf code)}
    {rest : Text} (total : ∃ scan, template rest = some scan)
    (lexical : Lexical) (unit : UInt16) :
    scanLiteral template lexical unit rest = some none ∨
    ∃ (scan : ScanOf (unit :: rest)) (later : Lexical),
    scanLiteral template lexical unit rest = some (some (scan, later)) ∧
    scan.rest.length ≤ rest.length := by
  obtain ⟨inner, found⟩ := total
  unfold scanLiteral
  split
  case isTrue =>
    have shorter := ((ScanOf.blankOne rest).andThen
      (skipLineComment _)).scans.length_le
    exact Or.inr ⟨_, _, rfl, shorter⟩
  case isFalse =>
    split
    case isTrue =>
      have shorter := ((ScanOf.blankOne rest).andThen
        (skipBlockComment _)).scans.length_le
      exact Or.inr ⟨_, _, rfl, shorter⟩
    case isFalse =>
      split
      case isTrue =>
        exact Or.inr ⟨_, _, rfl, (skipStringLiteral unit rest).scans.length_le⟩
      case isFalse =>
        split
        case isTrue =>
          refine Or.inr ⟨inner.blank unit, .closed, ?_, inner.scans.length_le⟩
          rw [found]
          rfl
        case isFalse =>
          split
          case isTrue =>
            exact Or.inr
              ⟨_, _, rfl, (skipRegexLiteral false rest).scans.length_le⟩
          case isFalse => exact Or.inl rfl

theorem sanitizeTemplate_total (fuel : Nat) : (∀ code : Text,
      code.length < fuel → ∃ scan, sanitizeTemplate fuel code = some scan) ∧
    ∀ (braceDepth : Nat) (lexical : Lexical) (code : Text),
    code.length < fuel → ∃ scan,
    sanitizeTemplateExpr fuel braceDepth lexical code = some scan := by
  induction fuel with
  | zero =>
    constructor
    · intro code enough
      exact absurd enough (Nat.not_lt_zero _)
    · intro braceDepth lexical code enough
      exact absurd enough (Nat.not_lt_zero _)
  | succ fuel induction =>
    obtain ⟨template, expression⟩ := induction
    constructor
    · intro code enough
      match code with
      | [] => exact ⟨_, rfl⟩
      | [unit] =>
        rw [sanitizeTemplate]
        split
        case isTrue => exact ⟨_, rfl⟩
        case isFalse => exact ⟨_, rfl⟩
      | unit :: next :: rest =>
        have shorter : rest.length + 1 < fuel := Nat.lt_of_succ_lt_succ enough
        have short : rest.length < fuel := Nat.lt_of_succ_lt shorter
        rw [sanitizeTemplate]
        split
        case isTrue => exact ⟨_, rfl⟩
        case isFalse =>
          split
          case isTrue =>
            obtain ⟨scan, found⟩ := template rest short
            rw [found]
            exact ⟨_, rfl⟩
          case isFalse =>
            split
            case isTrue =>
              obtain ⟨scan, found⟩ :=
                expression 1 { lastChar := some openBrace } rest short
              obtain ⟨later, foundLater⟩ := template scan.rest
                (Nat.lt_of_le_of_lt scan.scans.length_le short)
              rw [found, Option.bind_some, foundLater]
              exact ⟨_, rfl⟩
            case isFalse =>
              obtain ⟨scan, found⟩ := template (next :: rest) shorter
              rw [found]
              exact ⟨_, rfl⟩
    · intro braceDepth lexical code enough
      match code with
      | [] => exact ⟨_, rfl⟩
      | unit :: rest =>
        have short : rest.length < fuel := Nat.lt_of_succ_lt_succ enough
        rw [sanitizeTemplateExpr]
        rcases scanLiteral_point (template rest short) lexical unit with
          none | ⟨scan, later, found, smaller⟩
        · rw [none, Option.bind_some]
          dsimp only
          split
          case isTrue =>
            obtain ⟨scan, found⟩ := expression (braceDepth + 1)
              { lastChar := some unit } rest short
            rw [found]
            exact ⟨_, rfl⟩
          case isFalse =>
            split
            case isTrue =>
              split
              case isTrue => exact ⟨_, rfl⟩
              case isFalse =>
                obtain ⟨scan, found⟩ := expression (braceDepth - 1)
                  { lastChar := some unit } rest short
                rw [found]
                exact ⟨_, rfl⟩
            case isFalse =>
              obtain ⟨scan, found⟩ := expression braceDepth
                (lexical.advance unit) rest short
              rw [found]
              exact ⟨_, rfl⟩
        · obtain ⟨next, foundNext⟩ := expression braceDepth later
            scan.rest (Nat.lt_of_le_of_lt smaller short)
          rw [found, Option.bind_some]
          dsimp only
          rw [foundNext]
          exact ⟨_, rfl⟩

theorem sanitizeLoop_total (fuel : Nat) (lexical : Lexical) (code : Text)
    (enough : code.length < fuel) :
    ∃ scan, sanitizeLoop fuel lexical code = some scan ∧ scan.rest = [] := by
  induction fuel generalizing lexical code with
  | zero => exact absurd enough (Nat.not_lt_zero _)
  | succ fuel induction =>
    match code with
    | [] => exact ⟨_, rfl, rfl⟩
    | unit :: rest =>
      have short : rest.length < fuel := Nat.lt_of_succ_lt_succ enough
      have total := (sanitizeTemplate_total fuel).1 rest short
      rw [sanitizeLoop]
      rcases scanLiteral_point total lexical unit with
        none | ⟨scan, later, found, smaller⟩
      · obtain ⟨next, foundNext, ended⟩ :=
          induction (lexical.advance unit) rest short
        rw [none, Option.bind_some]
        rw [foundNext]
        exact ⟨_, rfl, ended⟩
      · obtain ⟨next, foundNext, ended⟩ := induction later scan.rest
          (Nat.lt_of_le_of_lt smaller short)
        rw [found, Option.bind_some]
        dsimp only
        rw [foundNext]
        exact ⟨_, rfl, ended⟩

theorem scanSource_total (code : Text) :
    ∃ scan, scanSource code = some scan ∧ scan.rest = [] :=
  sanitizeLoop_total _ _ code (Nat.lt_succ_self _)

/-- A string which goes on after a backslash at the end of its line. -/
def continuedString : Text := text "\"" ++ [backslash, newline] ++ text "\""

end MachineBridge.Symbols
