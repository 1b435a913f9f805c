import MachineBridge.Files.PatchEnvelope

/-!
# Applying the hunks of an update

A hunk replaces the one place where its context and removed lines stand, behind
the place of the hunk before it.  A place is looked up three times: exactly,
without trailing whitespace, and with one difference of the indentation for all
lines.  Line ends are put back by position.
-/

namespace MachineBridge.Files

open Foundation

/-- A line and its end, which is empty for the last line of some files. -/
structure FileLine where
  (text terminator : Text)

def FileLine.bytes (line : FileLine) : Text := line.text ++ line.terminator

inductive HunkError where
  | contextNotFound (hunk : Nat)
  | contextAmbiguous (hunk : Nat)

def fileLine (line : Text) : FileLine :=
  if crlf.isSuffixOf line then ⟨line.take (line.length - 2), crlf⟩
  else if [lineFeed].isSuffixOf line then
    ⟨line.take (line.length - 1), [lineFeed]⟩
  else ⟨line, []⟩

def splitLinesWithTerminators (source : Text) : List FileLine :=
  (linesOf source).map fileLine

def preferredLineEnding (lines : List FileLine) : Text :=
  if (lines.filter fun line => line.terminator = [lineFeed]).length <
      (lines.filter fun line => line.terminator = crlf).length then crlf
  else [lineFeed]

section

variable (content : Text)

def trimEnd : Text :=
  (content.reverse.dropWhile isWhitespace).reverse

def leadingSpaces (line : Text) : Nat :=
  (line.takeWhile fun unit => unit == 0x20).length

def startsWithTab (line : Text) : Bool := line.head? == some 0x09

def shiftLineIndent (delta : Int) (line : Text) : Text :=
  if (trim line).isEmpty ∨ delta = 0 then line
  else if 0 < delta then List.replicate delta.toNat 0x20 ++ line
  else line.drop (min (-delta).toNat (leadingSpaces line))

/-- The one difference of the indentation between the lines of a file and
those of a sequence, where some line is not blank. -/
def indentDelta (expected : Option Int) : List Text → List Text → Option Int
  | fileLine :: lines, wanted :: sequence =>
    if trim fileLine ≠ trim wanted then none
    else if (trim wanted).isEmpty then indentDelta expected lines sequence
    else if startsWithTab fileLine || startsWithTab wanted then none
    else
      let delta : Int := leadingSpaces fileLine - leadingSpaces wanted
      if expected = none ∨ expected = some delta then
        indentDelta (some delta) lines sequence
      else none
  | _, _ => expected

def windowAt (lines : List Text) (index count : Nat) : List Text :=
  (lines.drop index).take count

/-- The places from `start` on at which a sequence may stand. -/
def candidates (lines sequence : List Text) (start : Nat) : List Nat :=
  (List.range (lines.length + 1 - sequence.length)).filter (start ≤ ·)

/-- The places of a sequence and the difference of the indentation there. -/
def findSequenceMatches (lines sequence : List Text) (start : Nat) :
    List (Nat × Int) :=
  if sequence.isEmpty then []
  else
    let places := candidates lines sequence start
    let standing (index : Nat) := windowAt lines index sequence.length
    let exact := places.filter fun index => standing index = sequence
    if !exact.isEmpty then exact.map (·, 0)
    else
      let trailing := places.filter fun index =>
        (standing index).map trimEnd = sequence.map trimEnd
      if !trailing.isEmpty then trailing.map (·, 0)
      else if 2 ≤ (sequence.filter fun line => !(trim line).isEmpty).length
      then places.filterMap fun index =>
        (indentDelta none (standing index) sequence).map (index, ·)
      else []

/-- The terminators of the new lines.  A place which was found has at least one
line, so some terminator is removed. -/
def replacementLineTerminators (removed : List Text) (newLineCount : Nat)
    (defaultEol : Text) : List Text :=
  let last := removed.getLast?.getD []
  let fill := if last.isEmpty then defaultEol else last
  let replacement := removed.take newLineCount ++
    List.replicate (newLineCount - removed.length) fill
  if last.isEmpty then
    replacement.mapIdx fun index terminator =>
      if index + 1 = newLineCount then []
      else if terminator.isEmpty then defaultEol
      else terminator
  else replacement

def UpdateHunk.oldLines (hunk : UpdateHunk) : List Text :=
  (hunk.lines.filter fun line => line.type ≠ .added).map (·.text)

def UpdateHunk.newLines (hunk : UpdateHunk) : List Text :=
  (hunk.lines.filter fun line => line.type ≠ .removed).map (·.text)

/-- The lines which a hunk puts in the place of `block`. -/
def replacementLines (defaultEol : Text) (hunk : UpdateHunk) (delta : Int)
    (block : List FileLine) : List FileLine :=
  let newLines := hunk.newLines.map (shiftLineIndent delta)
  let terminators := replacementLineTerminators (block.map (·.terminator))
    newLines.length defaultEol
  newLines.zipWith FileLine.mk terminators

/-- The lines after a hunk and where the next search starts. -/
def applyHunk (defaultEol : Text) (number : Nat) (hunk : UpdateHunk)
    (lines : List FileLine) (searchFrom : Nat) :
    Except HunkError (List FileLine × Nat) :=
  match findSequenceMatches (lines.map (·.text)) hunk.oldLines searchFrom with
  | [] => .error (.contextNotFound number)
  | [(index, delta)] =>
    let block := (lines.drop index).take hunk.oldLines.length
    let replaced := replacementLines defaultEol hunk delta block
    .ok (lines.take index ++ replaced ++
      lines.drop (index + hunk.oldLines.length),
      index + hunk.newLines.length)
  | _ => .error (.contextAmbiguous number)

def applyHunks (defaultEol : Text) :
    Nat → List UpdateHunk → List FileLine → Nat →
      Except HunkError (List FileLine)
  | _, [], lines, _ => .ok lines
  | number, hunk :: hunks, lines, searchFrom =>
    match applyHunk defaultEol number hunk lines searchFrom with
    | .error error => .error error
    | .ok (lines, searchFrom) =>
      applyHunks defaultEol (number + 1) hunks lines searchFrom

def updatedLines (hunks : List UpdateHunk) :
    Except HunkError (List FileLine) :=
  let lines := splitLinesWithTerminators content
  applyHunks (preferredLineEnding lines) 1 hunks lines 0

def applyUpdateHunks (hunks : List UpdateHunk) : Except HunkError Text :=
  (updatedLines content hunks).map fun lines => lines.flatMap (·.bytes)

end

end MachineBridge.Files
