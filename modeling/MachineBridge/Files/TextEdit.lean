import MachineBridge.Files.ReadWindow
import MachineBridge.Foundation.TextSearch

/-!
# Exact edits

An edit replaces one fragment of a file.  A fragment which is not in the file
is looked up once more with the line ends of the file.  The occurrences which
the edit counts do not overlap.
-/

namespace MachineBridge.Files

open Foundation

structure EditArgs where
  (oldText newText : Text)
  expectedSha256 : Option Text := none
  replaceAll : Bool := false

structure NearMiss where
  (start finish : Nat)
  candidateSnippet : Text

inductive EditError where
  | emptyOldText
  | unsupportedTargetType
  | unreadable (error : ReadError)
  | hashMismatch
  | textNotFound (nearMiss : Option NearMiss)
  | textAmbiguous (occurrences : Nat)
  | writeLimit (bytes maximumBytes : Nat)
  | preconditionTargetMissing
  | changedBeforeCommit
  | renameFailed

inductive MatchMode where
  | exact
  | normalizedNewlines
deriving DecidableEq

structure EditResult where
  replacements : Nat
  sha256 : Text
  bytes : Nat
  matched : MatchMode

/-- The loop of the count; every turn moves the offset behind an occurrence. -/
def countFrom (content needle : Text) : Nat → Nat → Nat
  | 0, _ => 0
  | fuel + 1, offset =>
    match indexOf content needle offset with
    | none => 0
    | some position =>
      countFrom content needle fuel (position + needle.length) + 1

def countOccurrences (content needle : Text) : Nat :=
  countFrom content needle (content.length + 1) 0

/-- `content.split(target)` for a text which is not empty. -/
def splitAtText (content target : Text) : Nat → Nat → List Text
  | 0, _ => []
  | fuel + 1, offset =>
    match indexOf content target offset with
    | none => [content.drop offset]
    | some position =>
      slice content offset position ::
        splitAtText content target fuel (position + target.length)

def replaceEvery (content target replacement : Text) : Text :=
  replacement.intercalate (splitAtText content target (content.length + 1) 0)

def resembles (firstOldLine trimmed : Text) : Bool :=
  !trimmed.isEmpty &&
    (trimmed == firstOldLine || (5 < firstOldLine.length &&
      (includes trimmed firstOldLine || includes firstOldLine trimmed)))

def findNearMiss (current oldText : Text) : Option NearMiss :=
  match ((splitLines oldText).map trim).filter fun line => !line.isEmpty with
  | [] => none
  | firstOldLine :: others =>
    let fileLines := splitLines current
    let place := fileLines.findIdx fun line =>
      resembles firstOldLine (trim line)
    if place < fileLines.length then
      let start := max 1 (place + 1)
      let finish := min fileLines.length (place + (others.length + 1) + 1)
      let lines := (fileLines.take finish).drop (start - 1)
      some {
        start, finish
        candidateSnippet :=
          formatNumberedSlice ([lineFeed].intercalate lines) start finish }
    else none

structure TextMatch where
  searchTarget : Text
  occurrences : Nat
  matchMode : MatchMode

def convertedMatch (current oldText converted : Text) : TextMatch :=
  let count := countOccurrences current converted
  if 0 < count then ⟨converted, count, .normalizedNewlines⟩
  else ⟨oldText, 0, .exact⟩

def findText (current oldText : Text) : TextMatch :=
  let occurrences := countOccurrences current oldText
  if occurrences ≠ 0 then ⟨oldText, occurrences, .exact⟩
  else if includes current crlf && !includes oldText crlf then
    convertedMatch current oldText (toCrlf oldText)
  else if !includes current crlf && includes oldText crlf then
    convertedMatch current oldText (toLf oldText)
  else ⟨oldText, 0, .exact⟩

def replacementText (current : Text) (matchMode : MatchMode) (newText : Text) :
    Text :=
  if matchMode = .normalizedNewlines ∧ includes current crlf = true ∧
      includes newText crlf = false then toCrlf newText
  else newText

structure EditPlan where
  updated : Text
  occurrences : Nat
  matchMode : MatchMode

def planReplacement (current : Text) (args : EditArgs) :
    Except EditError EditPlan :=
  let found := findText current args.oldText
  if found.occurrences = 0 then
    .error (.textNotFound (findNearMiss current args.oldText))
  else if !args.replaceAll && found.occurrences != 1 then
    .error (.textAmbiguous found.occurrences)
  else
    let replacement :=
      replacementText current found.matchMode args.newText
    let updated := if args.replaceAll then
      replaceEvery current found.searchTarget replacement
      else replaceFirst current found.searchTarget replacement
    if maxWriteBytes < byteLength updated then
      .error (.writeLimit (byteLength updated) maxWriteBytes)
    else .ok ⟨updated, found.occurrences, found.matchMode⟩

/-- The host's digest, what the commit finds at the path when it checks the
digest again, and whether it can move the staged file there. -/
structure EditEnvironment where
  sha256 : Text → Text
  latest : Option FileEntry
  renames : Bool

section

variable (environment : EditEnvironment)

def hashMismatch (current : Text) (expected : Option Text) : Bool :=
  match expected with
  | none => false
  | some digest =>
    !digest.isEmpty && environment.sha256 current != toLowerCase digest

def planEdit (file : FileEntry) (args : EditArgs) :
    Except EditError (Text × EditPlan) :=
  if args.oldText.isEmpty then .error .emptyOldText
  else if !file.regular then .error .unsupportedTargetType
  else match readUtf8File file with
    | .error error => .error (.unreadable error)
    | .ok current =>
      if hashMismatch environment current args.expectedSha256 then
        .error .hashMismatch
      else (planReplacement current args).map fun plan => (current, plan)

def verifyPrecondition (current : Text) : Except EditError Unit :=
  match environment.latest with
  | none => .error .preconditionTargetMissing
  | some file =>
    match readUtf8File file with
    | .error error => .error (.unreadable error)
    | .ok latest =>
      if environment.sha256 latest != environment.sha256 current then
        .error .changedBeforeCommit
      else .ok ()

/-- The octets at the path after a commit. -/
def commitAtomicText
    (current updated : Text) : Except EditError (List UInt8) := do
  verifyPrecondition environment current
  if environment.renames then .ok (toUtf8 updated) else .error .renameFailed

end

structure EditOutcome where
  answer : Except EditError EditResult
  octets : Option (List UInt8)

section

variable (environment : EditEnvironment)

def refusedEdit (error : EditError) : EditOutcome where
  answer := .error error
  octets := environment.latest.map (·.octets)

def editFile (file : FileEntry) (args : EditArgs) : EditOutcome :=
  match planEdit environment file args with
  | .error error => refusedEdit environment error
  | .ok (current, plan) =>
    match commitAtomicText environment current plan.updated with
    | .error error => refusedEdit environment error
    | .ok octets => {
        answer := .ok {
          replacements := if args.replaceAll then plan.occurrences else 1
          sha256 := environment.sha256 plan.updated
          bytes := byteLength plan.updated
          matched := plan.matchMode }
        octets := some octets }

end

def withLineEndsOf (current content : Text) : Text :=
  if includes current crlf then toCrlf content else toLf content

/-- The text whose occurrences count: the old text, or, when it does not
occur, its form with the line ends of the file. -/
def soughtText (current oldText : Text) : Text :=
  if includes current oldText then oldText else withLineEndsOf current oldText

def insertedText (current oldText newText : Text) : Text :=
  if includes current oldText then newText else withLineEndsOf current newText

/-- Exactly one occurrence was replaced; the octets before and behind it are
those of the file. -/
structure Replaced (file : FileEntry) (current : Text)
    (oldText newText : Text) (before after : Text) (octets : List UInt8) :
    Prop where
  content : current = before ++ soughtText current oldText ++ after
  unique : ∀ position, OccursAt current (soughtText current oldText) position →
    position = before.length
  found : file.octets = toUtf8 before ++
    toUtf8 (soughtText current oldText) ++ toUtf8 after
  written : octets = toUtf8 before ++
    toUtf8 (insertedText current oldText newText) ++ toUtf8 after

/-- An edit of one occurrence, as it is documented. -/
def EditsExactly (file : FileEntry) (oldText newText : Text) : Prop :=
  ∀ (environment : EditEnvironment) (expectedSha256 : Option Text),
    let outcome := editFile environment file
      { oldText, newText, expectedSha256, replaceAll := false }
    match outcome.answer with
    | .error _ => outcome.octets = environment.latest.map (·.octets)
    | .ok _ => ∃ current before after octets,
        readUtf8File file = .ok current ∧ outcome.octets = some octets ∧
        Replaced file current oldText newText before after octets

def Overlaps (current needle : Text) : Prop :=
  ∃ first second, first < second ∧ second < first + needle.length ∧
    OccursAt current needle first ∧ OccursAt current needle second

/-- The text is found only after conversion, and the new text keeps line ends
which the file does not have. -/
def KeepsLineEnds (current oldText newText : Text) : Prop :=
  includes current oldText = false ∧ includes newText crlf = true ∧
    withLineEndsOf current newText ≠ newText

/-- The fragment starts or ends inside a surrogate pair. -/
def CutsPair (fragment : Text) : Prop :=
  StartsInPair fragment ∨ EndsInPair fragment

/-- The edit is applied although it cannot do what it promises. -/
structure Misses (current oldText newText : Text) : Prop where
  filled : oldText ≠ []
  once : (findText current oldText).occurrences = 1
  bounded : byteLength (replaceFirst current
    (findText current oldText).searchTarget
    (replacementText current (findText current oldText).matchMode
      newText)) ≤ maxWriteBytes
  wrong : Overlaps current (findText current oldText).searchTarget ∨
    KeepsLineEnds current oldText newText ∨
    CutsPair (findText current oldText).searchTarget

end MachineBridge.Files
