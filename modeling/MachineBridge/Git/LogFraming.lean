import MachineBridge.Foundation.Parts
import MachineBridge.Git.LogParser

/-!
# The framing of the log

The texts of a commit may contain the separators.  Then its record is cut into
more parts, each of which may look like a commit of its own.  The log is read
back exactly when no text does, and refused exactly when some part does not look
like a commit.
-/

namespace MachineBridge.Git

open Foundation List

section Framing

variable {dateParses : Text → Bool} {includeAuthorEmail : Bool}

namespace GitCommit

variable {commit : GitCommit}

theorem not_printed {unit : UInt16}
    (control : unit = recordSeparator ∨ unit = unitSeparator ∨ unit = newline)
    : unit ∉ commit.hash ∧ unit ∉ commit.short ∧ unit ∉ commit.authoredAt := by
  have absent : unit ∉ commit.hash ++ commit.short ++ commit.authoredAt := by
    intro member
    obtain ⟨one, two, three⟩ := commit.printed unit member
    rcases control with first | second | third
    · exact one first
    · exact two second
    · exact three third
  simp only [mem_append, not_or] at absent
  exact ⟨absent.1.1, absent.1.2, absent.2⟩

theorem newline_not_mem : newline ∉ commit.record := by
  have fields := commit.not_printed (.inr (.inr rfl))
  have texts := commit.oneLine
  have apart : newline ≠ unitSeparator := by decide
  simp only [mem_append, not_or] at texts
  simp only [record, front, mem_append, mem_cons, mem_nil_iff, not_or]
  exact ⟨⟨fields.1, apart, fields.2.1, apart, fields.2.2, apart,
    texts.1.1, apart, texts.1.2, apart, id⟩, texts.2⟩

theorem separator_not_mem : recordSeparator ∉ commit.record ↔
    recordSeparator ∉ commit.authorName ++ commit.authorEmail ++
    commit.subject := by
  have fields := commit.not_printed (.inl rfl)
  have apart : recordSeparator ≠ unitSeparator := by decide
  simp [record, front, fields, apart]

theorem count_unitSeparator : commit.record.count unitSeparator = 5 +
    (commit.authorName ++ commit.authorEmail ++ commit.subject).count
    unitSeparator := by
  have fields := commit.not_printed (.inr (.inl rfl))
  have hash := count_eq_zero.mpr fields.1
  have short := count_eq_zero.mpr fields.2.1
  have date := count_eq_zero.mpr fields.2.2
  simp only [record, front, count_append, count_cons_self,
    count_nil, hash, short, date]
  omega

theorem front_starts :
    ∃ unit rest, commit.front = unit :: rest ∧ unit ≠ recordSeparator := by
  have apart : unitSeparator ≠ recordSeparator := by decide
  have fields := commit.not_printed (.inl rfl)
  unfold front
  cases start : commit.hash with
  | nil => exact ⟨unitSeparator, _, rfl, apart⟩
  | cons unit rest =>
    rw [start] at fields
    refine ⟨unit, _, rfl, ?_⟩
    exact Ne.symm (ne_of_not_mem_cons fields.1)

end GitCommit

def readPiece (dateParses : Text → Bool) (includeAuthorEmail : Bool)
    (piece : Text) : Option LogEntry :=
  parseFields dateParses includeAuthorEmail (piece.splitOn unitSeparator)

theorem stripNewline_newline (piece : Text) :
    stripNewline (newline :: piece) = piece := by
  rw [stripNewline, if_pos rfl]

variable {piece : Text}

theorem stripNewline_of_not_mem (plain : newline ∉ piece) :
    stripNewline piece = piece := by
  cases piece with
  | nil => rfl
  | cons unit rest =>
    have first := ne_of_not_mem_cons plain
    have later := not_mem_of_not_mem_cons plain
    rw [stripNewline, if_neg (Ne.symm first), if_neg]
    rintro ⟨_, next⟩
    exact later (mem_of_mem_head? next)

theorem parseRecords_skip {raw : Text} {rest : List Text}
    (skipped : raw = [] ∨ raw = [newline] ∨ raw = [carriageReturn, newline]) :
    parseLogRecords dateParses includeAuthorEmail (raw :: rest) =
    parseLogRecords dateParses includeAuthorEmail rest := by
  rw [parseLogRecords, if_pos skipped]

theorem parseRecords_piece {raw : Text} {rest : List Text}
    (stripped : stripNewline raw = piece) (some : piece ≠ []) :
    parseLogRecords dateParses includeAuthorEmail (raw :: rest) = (do
      let entry ← readPiece dateParses includeAuthorEmail piece
      let entries ← parseLogRecords dateParses includeAuthorEmail rest
      return entry :: entries) := by
  rw [parseLogRecords, if_neg, stripped, if_neg some]
  · rfl
  · rintro (empty | line | line)
    · rw [empty] at stripped
      exact some stripped.symm
    · rw [line] at stripped
      exact some stripped.symm
    · rw [line] at stripped
      exact some stripped.symm

theorem parseRecords_pieces {pieces : List Text}
    (plain : ∀ piece ∈ pieces, newline ∉ piece) (rest : List Text) :
    parseLogRecords dateParses includeAuthorEmail (pieces ++ rest) = (do
      let entries ← (pieces.filter fun piece => piece ≠ []).mapM
        (readPiece dateParses includeAuthorEmail)
      let others ← parseLogRecords dateParses includeAuthorEmail rest
      return entries ++ others) := by
  induction pieces with
  | nil => simp
  | cons piece pieces induction =>
    have later := induction fun other member =>
      plain other (mem_cons_of_mem _ member)
    cases piece with
    | nil =>
      rw [cons_append, parseRecords_skip (.inl rfl), later,
        filter_cons_of_neg (by simp)]
    | cons unit piece =>
      have here := plain _ mem_cons_self
      rw [cons_append, parseRecords_piece (stripNewline_of_not_mem here)
        (cons_ne_nil _ _), later, filter_cons_of_pos (by simp), mapM_cons]
      cases readPiece dateParses includeAuthorEmail (unit :: piece) with
      | none => rfl
      | some entry =>
        cases (pieces.filter fun piece => piece ≠ []).mapM
            (readPiece dateParses includeAuthorEmail) with
        | none => rfl
        | some entries =>
          cases parseLogRecords dateParses includeAuthorEmail rest with
          | none => rfl
          | some others => rfl

def GitCommit.filled (commit : GitCommit) : List Text :=
  filledParts recordSeparator commit.record

theorem GitCommit.newline_not_mem_pieces {commit : GitCommit}
    (member : piece ∈ commit.pieces) : newline ∉ piece := by
  intro inside
  exact commit.newline_not_mem (mem_of_mem_part member inside)

theorem GitCommit.exists_pieces (commit : GitCommit) : ∃ first rest,
    commit.pieces = first :: rest ∧ first ≠ [] ∧
    (newline :: commit.record).splitOn recordSeparator = (newline :: first) ::
    rest := by
  obtain ⟨unit, tail, starts, other⟩ := commit.front_starts
  have record : commit.record = unit :: (tail ++ commit.subject) := by
    rw [GitCommit.record, starts, cons_append]
  obtain ⟨first, rest, _, pieces⟩ :=
    exists_splitOn_cons other (tail ++ commit.subject)
  have different : newline ≠ recordSeparator := by decide
  refine ⟨unit :: first, rest, ?_, cons_ne_nil _ _, ?_⟩
  · rw [GitCommit.pieces, record]
    exact pieces
  · rw [splitOn_cons_other different, record, pieces]
    rfl

section

variable (commits : List GitCommit)

theorem parseRecords_output : parseLogRecords dateParses includeAuthorEmail
    ((newline :: gitLogOutput commits).splitOn recordSeparator) =
    (commits.flatMap GitCommit.filled).mapM
    (readPiece dateParses includeAuthorEmail) := by
  induction commits with
  | nil => rfl
  | cons commit commits induction =>
    obtain ⟨first, rest, pieces, some, line⟩ := commit.exists_pieces
    have plain : ∀ piece ∈ commit.pieces, newline ∉ piece :=
      fun _ => commit.newline_not_mem_pieces
    have cut :
        (newline :: gitLogOutput (commit :: commits)).splitOn recordSeparator =
        (newline :: first) ::
        (rest ++ (newline :: gitLogOutput commits).splitOn recordSeparator) :=
        by
      have output : newline :: gitLogOutput (commit :: commits) =
          (newline :: commit.record) ++ recordSeparator ::
          (newline :: gitLogOutput commits) := by
        rw [gitLogOutput, flatMap_cons, append_assoc]
        rfl
      rw [output, splitOn_append_cons_self, line]
      rfl
    have same : parseLogRecords dateParses includeAuthorEmail
          ((newline :: first) :: (rest ++
            (newline :: gitLogOutput commits).splitOn recordSeparator)) =
        parseLogRecords dateParses includeAuthorEmail (commit.pieces ++
          (newline :: gitLogOutput commits).splitOn recordSeparator) := by
      have here : newline ∉ first := plain first (by
        rw [pieces]
        exact mem_cons_self)
      rw [pieces, cons_append, parseRecords_piece (stripNewline_newline first) some,
        parseRecords_piece (stripNewline_of_not_mem here) some]
    rw [cut, same, parseRecords_pieces plain, induction,
      flatMap_cons, mapM_append]
    rfl

theorem parseStructuredGitLog_output : parseStructuredGitLog dateParses
    includeAuthorEmail (gitLogOutput commits) =
    (commits.flatMap GitCommit.filled).mapM
    (readPiece dateParses includeAuthorEmail) := by
  rw [parseStructuredGitLog, ← parseRecords_output]
  cases commits with
  | nil => rfl
  | cons commit commits =>
    obtain ⟨first, rest, pieces, some, line⟩ := commit.exists_pieces
    have here : newline ∉ first := by
      apply commit.newline_not_mem_pieces
      rw [pieces]
      exact mem_cons_self
    have output : gitLogOutput (commit :: commits) = commit.record ++
        recordSeparator :: (newline :: gitLogOutput commits) := by
      rw [gitLogOutput, flatMap_cons, append_assoc]
      rfl
    rw [output, ← cons_append, splitOn_append_cons_self,
      splitOn_append_cons_self, line]
    change parseLogRecords _ _ (commit.pieces ++ _) = _
    rw [pieces, cons_append, cons_append,
      parseRecords_piece (stripNewline_newline first) some,
      parseRecords_piece (stripNewline_of_not_mem here) some]

end

theorem readPiece_eq_some {entry : LogEntry}
    (read : readPiece dateParses includeAuthorEmail piece = some entry) :
    ∃ email, piece.splitOn unitSeparator = [entry.hash, entry.short,
      entry.authoredAt, entry.authorName, email, entry.subject] := by
  rw [readPiece] at read
  unfold parseFields at read
  split at read
  case h_1 hash short authoredAt authorName authorEmail subject fields =>
    split at read
    case isTrue =>
      cases read
      exact ⟨authorEmail, fields⟩
    case isFalse => cases read
  case h_2 => cases read

theorem readPiece_count {entry : LogEntry}
    (read : readPiece dateParses includeAuthorEmail piece = some entry) :
    piece.count unitSeparator = 5 := by
  obtain ⟨email, fields⟩ := readPiece_eq_some read
  have length : (piece.splitOn unitSeparator).length =
      piece.count unitSeparator + 1 := length_splitOn piece
  rw [fields] at length
  exact (Nat.succ.inj length).symm

namespace GitCommit

variable {commit : GitCommit}

theorem two_le_filled_length (inside : recordSeparator ∈ commit.front) :
    2 ≤ commit.filled.length := by
  obtain ⟨unit, rest, starts, other⟩ := commit.front_starts
  obtain ⟨before, after, cut⟩ := append_of_mem inside
  have different : unitSeparator ≠ recordSeparator := by decide
  have left : unit ∈ before := by
    cases before with
    | nil =>
      rw [starts] at cut
      cases cut
      exact absurd rfl other
    | cons head before =>
      rw [starts] at cut
      cases cut
      exact mem_cons_self
  have right : unitSeparator ∈ after ++ commit.subject := by
    have last : commit.front.getLast? = some unitSeparator := by
      simp [front, getLast?_append, getLast?_cons]
    rw [cut, getLast?_append] at last
    apply mem_append_left
    cases after with
    | nil => cases last
    | cons head after => exact mem_of_getLast? last
  have first := filledParts_ne_nil other left
  have second := filledParts_ne_nil different right
  rw [filled, record, cut, append_assoc, cons_append,
    filledParts_append_cons, length_append]
  have one := length_pos_iff.mpr first
  have two := length_pos_iff.mpr second
  omega

theorem filled_ne_nil : commit.filled ≠ [] := by
  have different : unitSeparator ≠ recordSeparator := by decide
  apply filledParts_ne_nil different
  simp [record, front]

theorem plain_of_read (read : commit.filled.mapM (readPiece dateParses
    includeAuthorEmail) = some [commit.entry includeAuthorEmail]) :
    commit.Plain := by
  obtain ⟨piece, single, entry⟩ := mapM_eq_singleton read
  have different : unitSeparator ≠ recordSeparator := by decide
  have member : piece ∈ commit.pieces := by
    have inside : piece ∈ commit.filled := by
      rw [single]
      exact mem_cons_self
    exact (List.mem_filter.mp inside).1
  constructor
  · intro inside
    have outside : recordSeparator ∉ commit.front := by
      intro separated
      have two := two_le_filled_length separated
      rw [single] at two
      exact absurd two (Nat.not_succ_le_self 1)
    have subject : recordSeparator ∉ commit.subject := by
      obtain ⟨email, fields⟩ := readPiece_eq_some entry
      intro separated
      have field : (commit.entry includeAuthorEmail).subject ∈
          piece.splitOn unitSeparator := by
        rw [fields]
        simp
      exact not_mem_of_mem_splitOn member (mem_of_mem_part field separated)
    apply separator_not_mem.mp _ inside
    rw [record, mem_append]
    exact not_or.mpr ⟨outside, subject⟩
  · have total := count_filledParts different commit.record
    have here : filledParts recordSeparator commit.record = [piece] := single
    rw [here, count_unitSeparator, map_singleton, sum_singleton,
      readPiece_count entry] at total
    exact count_eq_zero.mp (by omega)

theorem filled_of_plain (plain : commit.Plain) :
    commit.filled = [commit.record] := by
  obtain ⟨unit, rest, starts, _⟩ := commit.front_starts
  apply filledParts_of_not_mem (separator_not_mem.mpr plain.1)
  rw [record, starts]
  exact cons_ne_nil _ _

theorem readPiece_record (plain : commit.Plain) :
    readPiece dateParses includeAuthorEmail commit.record = none ∨
    readPiece dateParses includeAuthorEmail commit.record =
    some (commit.entry includeAuthorEmail) := by
  have printed := commit.not_printed (.inr (.inl rfl))
  have texts := plain.2
  simp only [mem_append, not_or] at texts
  have fields : commit.record.splitOn unitSeparator = [commit.hash,
        commit.short, commit.authoredAt, commit.authorName, commit.authorEmail,
        commit.subject] := by
    simp only [record, front, append_assoc, cons_append, nil_append]
    rw [splitOn_append_cons_self_of_not_mem printed.1,
      splitOn_append_cons_self_of_not_mem printed.2.1,
      splitOn_append_cons_self_of_not_mem printed.2.2,
      splitOn_append_cons_self_of_not_mem texts.1.1,
      splitOn_append_cons_self_of_not_mem texts.1.2,
      splitOn_eq_singleton texts.2]
  rw [readPiece, fields, parseFields]
  split
  case isTrue => exact .inr rfl
  case isFalse => exact .inl rfl

end GitCommit

section

variable (dateParses : Text → Bool)

/-- The output is refused, or read back as the commits which were printed. -/
def ReadsBack (includeAuthorEmail : Bool) (commits : List GitCommit) : Prop :=
  parseStructuredGitLog dateParses includeAuthorEmail
      (gitLogOutput commits) = none ∨
    parseStructuredGitLog dateParses includeAuthorEmail
      (gitLogOutput commits) =
        some (commits.map fun commit => commit.entry includeAuthorEmail)

/-- A part of a commit does not look like a commit. -/
def BreaksFraming (includeAuthorEmail : Bool) (commit : GitCommit) : Prop :=
  ∃ piece ∈ commit.pieces, piece ≠ [] ∧
    wellFormedRecord dateParses includeAuthorEmail piece = false

end

theorem refused_iff {commits : List GitCommit} : parseStructuredGitLog
    dateParses includeAuthorEmail (gitLogOutput commits) = none ↔
    ∃ commit ∈ commits,
    BreaksFraming dateParses includeAuthorEmail commit := by
  rw [parseStructuredGitLog_output, mapM_eq_none_iff]
  constructor
  · rintro ⟨piece, member, failed⟩
    obtain ⟨commit, listed, inside⟩ := mem_flatMap.mp member
    obtain ⟨part, some⟩ := List.mem_filter.mp inside
    refine ⟨commit, listed, piece, part, of_decide_eq_true some, ?_⟩
    exact Option.isSome_eq_false_iff.mpr (Option.isNone_iff_eq_none.mpr failed)
  · rintro ⟨commit, listed, piece, part, some, broken⟩
    refine ⟨piece, ?_, ?_⟩
    · apply mem_flatMap.mpr
      exact ⟨commit, listed, List.mem_filter.mpr ⟨part, decide_eq_true some⟩⟩
    · exact Option.isNone_iff_eq_none.mp (Option.isSome_eq_false_iff.mp broken)

end Framing

def exampleHash (unit : UInt16) : Text := List.replicate 40 unit

def exampleDate : Text := text "2026-08-13T12:34:56Z"

theorem exampleCommit_printed :
    ∀ unit ∈ exampleHash 0x61 ++ text "aaaa" ++ exampleDate,
    unit ≠ recordSeparator ∧ unit ≠ unitSeparator ∧ unit ≠ newline := by
  have printed : (exampleHash 0x61 ++ text "aaaa" ++ exampleDate).all
      (fun unit => unit != recordSeparator && unit != unitSeparator &&
        unit != newline) = true := by decide
  intro unit member
  simpa [and_assoc] using all_eq_true.mp printed unit member

/-- The subject ends a record, and goes on with another commit. -/
def forgingCommit : GitCommit where
  hash := exampleHash 0x61
  short := text "aaaa"
  authoredAt := exampleDate
  authorName := text "A"
  authorEmail := text "a"
  subject := text "S" ++ recordSeparator :: (exampleHash 0x62 ++
    unitSeparator :: (text "bbbb" ++ unitSeparator :: (exampleDate ++
      unitSeparator :: (text "B" ++ unitSeparator :: (text "b" ++
        unitSeparator :: text "forged")))))
  printed := exampleCommit_printed
  oneLine := by decide +kernel

end MachineBridge.Git
