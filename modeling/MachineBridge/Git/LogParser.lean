import MachineBridge.Foundation.Text

/-!
# The structured log

Git is asked for six fields of each commit, with a separator between them and
another one after the last.  The output is cut at the separators, and every part
which is not empty has to look like a commit.
-/

namespace MachineBridge.Git

open Foundation

/-- `%x1e` of the format. -/
def recordSeparator : UInt16 := 0x1E

/-- `%x1f` of the format. -/
def unitSeparator : UInt16 := 0x1F

def newline : UInt16 := 0x0A

def carriageReturn : UInt16 := 0x0D

structure LogEntry where
  (hash short authoredAt authorName subject : Text)
  authorEmail : Option Text

def fullHashMatches (value : Text) : Bool :=
  (value.length == 40 || value.length == 64) && value.all isHex

def shortHashMatches (value : Text) : Bool :=
  decide (4 ≤ value.length) && decide (value.length ≤ 64) && value.all isHex

def matchesClasses : List (UInt16 → Bool) → Text → Bool
  | [], [] => true
  | accepts :: classes, unit :: rest =>
    accepts unit && matchesClasses classes rest
  | _, _ => false

def isoDateTime : List (UInt16 → Bool) :=
  [isDigit, isDigit, isDigit, isDigit, (· == 0x2D), isDigit, isDigit,
    (· == 0x2D), isDigit, isDigit, (· == 0x54), isDigit, isDigit, (· == 0x3A),
    isDigit, isDigit, (· == 0x3A), isDigit, isDigit]

def isoOffset : List (UInt16 → Bool) :=
  [fun unit => unit == 0x2B || unit == 0x2D, isDigit, isDigit, (· == 0x3A),
    isDigit, isDigit]

section Parsing

/- Whether `Date.parse` reads a text of the form of a date. -/
variable (dateParses : Text → Bool) (includeAuthorEmail : Bool)

def validIsoDate (value : Text) : Bool :=
  (matchesClasses (isoDateTime ++ isoOffset) value ||
      matchesClasses (isoDateTime ++ [(· == 0x5A)]) value) &&
    dateParses value

def parseFields : List Text → Option LogEntry
  | [hash, short, authoredAt, authorName, authorEmail, subject] =>
    if fullHashMatches hash && shortHashMatches short &&
        validIsoDate dateParses authoredAt then
      some {
        hash
        short
        authoredAt
        authorName
        subject
        authorEmail := if includeAuthorEmail then some authorEmail else none }
    else none
  | _ => none

def stripNewline : Text → Text
  | [] => []
  | unit :: rest =>
    if unit = newline then rest
    else if unit = carriageReturn ∧ rest.head? = some newline then rest.tail
    else unit :: rest

def parseLogRecords : List Text → Option (List LogEntry)
  | [] => some []
  | raw :: rest =>
    if raw = [] ∨ raw = [newline] ∨ raw = [carriageReturn, newline] then
      parseLogRecords rest
    else if stripNewline raw = [] then parseLogRecords rest
    else do
      let entry ← parseFields dateParses includeAuthorEmail
        ((stripNewline raw).splitOn unitSeparator)
      let entries ← parseLogRecords rest
      return entry :: entries

/-- `none` is the error that the framing of the output is not valid. -/
def parseStructuredGitLog (stdout : Text) : Option (List LogEntry) :=
  parseLogRecords dateParses includeAuthorEmail (stdout.splitOn recordSeparator)

/-- A part which is read as a commit. -/
def wellFormedRecord (piece : Text) : Bool :=
  (parseFields dateParses includeAuthorEmail
    (piece.splitOn unitSeparator)).isSome

end Parsing

/-- A commit.  Hashes and dates are without control characters; the other texts
are of one line. -/
structure GitCommit where
  (hash short authoredAt authorName authorEmail subject : Text)
  printed : ∀ unit ∈ hash ++ short ++ authoredAt,
    unit ≠ recordSeparator ∧ unit ≠ unitSeparator ∧ unit ≠ newline
  oneLine : newline ∉ authorName ++ authorEmail ++ subject

namespace GitCommit

variable (commit : GitCommit)

/-- The fields before the subject, with the separators after them. -/
def front : Text :=
  commit.hash ++ unitSeparator :: (commit.short ++ unitSeparator ::
    (commit.authoredAt ++ unitSeparator :: (commit.authorName ++
      unitSeparator :: (commit.authorEmail ++ [unitSeparator]))))

/-- The format without the separator at its end. -/
def record : Text := commit.front ++ commit.subject

/-- What the caller is to get. -/
def entry (includeAuthorEmail : Bool) : LogEntry where
  hash := commit.hash
  short := commit.short
  authoredAt := commit.authoredAt
  authorName := commit.authorName
  subject := commit.subject
  authorEmail := if includeAuthorEmail then some commit.authorEmail else none

/-- The texts are free of the separators. -/
def Plain : Prop :=
  recordSeparator ∉ commit.authorName ++ commit.authorEmail ++ commit.subject ∧
    unitSeparator ∉ commit.authorName ++ commit.authorEmail ++ commit.subject

instance : Decidable commit.Plain := inferInstanceAs (Decidable (_ ∧ _))

def pieces : List Text := commit.record.splitOn recordSeparator

end GitCommit

/-- The output of `git log`: a line for each commit. -/
def gitLogOutput (commits : List GitCommit) : Text :=
  commits.flatMap fun commit => commit.record ++ [recordSeparator, newline]

end MachineBridge.Git
