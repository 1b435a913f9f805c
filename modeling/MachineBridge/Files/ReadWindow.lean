import MachineBridge.Foundation.Newlines
import MachineBridge.Foundation.Number
import MachineBridge.Foundation.Utf16
import MachineBridge.Git.Content

/-!
# Reading a file by windows

A read without a last line returns as many whole lines as its limits allow and
the line at which the next read starts.  A local caller is limited in the bytes
of the content; a hosted caller also in the bytes of the serialized result.
-/

namespace MachineBridge.Files

open Foundation Git

def maxWriteBytes : Nat := 5 * 1024 * 1024

def maxHostedResultBytes : Nat := 65536

/-- What an open of a path finds. -/
structure FileEntry where
  regular : Bool
  links : Nat
  octets : List UInt8

inductive ReadError where
  | unsupportedPathType
  | multipleHardLinks
  | readLimit (size maximumBytes : Nat)
  | invalidUtf8
  | invalidLineRange
  | lineOutOfRange (totalLines : Nat)
  | selectedLimit (selectedBytes maximumBytes : Nat)
  | hostedResultLimit
      (actualResultBytes maximumContentBytes selectedContentBytes : Nat)

def readBoundedFile (file : FileEntry) (maxBytes : Nat) :
    Except ReadError (List UInt8) :=
  if !file.regular then .error .unsupportedPathType
  else if 1 < file.links then .error .multipleHardLinks
  else if maxBytes < file.octets.length then
    .error (.readLimit file.octets.length maxBytes)
  else .ok file.octets

def decodeUtf8 (octets : List UInt8) : Except ReadError Text :=
  match ofUtf8 octets with
  | none => .error .invalidUtf8
  | some content => .ok content

def readUtf8File (file : FileEntry) : Except ReadError Text :=
  readBoundedFile file maxWriteBytes >>= decodeUtf8

/-- The offsets behind the line feeds which are not the last unit. -/
def lineStartsFrom : Nat → Text → List Nat
  | _, [] => []
  | index, unit :: rest =>
    if unit = lineFeed ∧ rest ≠ [] then
      (index + 1) :: lineStartsFrom (index + 1) rest
    else lineStartsFrom (index + 1) rest

section

variable (content : Text)

def lineStarts : List Nat := 0 :: lineStartsFrom 0 content

def totalLines : Nat := (lineStarts content).length

/-- `content.slice(start, end)`. -/
def slice (first last : Nat) : Text :=
  (content.take last).drop first

/-- Where the lines through `line` end. -/
def endOffset (line : Nat) : Nat :=
  if line < totalLines content then (lineStarts content).getD line 0
  else content.length

/-- The lines from `startLine` through `endLine`. -/
def selectLines (startLine endLine : Nat) : Text :=
  slice content ((lineStarts content).getD (startLine - 1) 0)
    (endOffset content endLine)

def padStart (width : Nat) : Text :=
  List.replicate (width - content.length) 0x20 ++ content

def formatNumberedSlice (selected : Text) (startLine endLine : Nat) : Text :=
  let maxDigits := max 4 (decimal endLine).length
  let numbered (line : Text) (index : Nat) : Text :=
    padStart (decimal (startLine + index)) maxDigits ++ text " | " ++ line
  [lineFeed].intercalate ((splitLines selected).mapIdx fun index line =>
    numbered line index)

def renderLines (withLineNumbers : Bool) (startLine endLine : Nat) : Text :=
  let raw := selectLines content startLine endLine
  if withLineNumbers then formatNumberedSlice raw startLine endLine else raw

end

structure ReadArgs where
  (startLine endLine maxBytes : Option Int := none)
  withLineNumbers : Bool := false

structure NextAction where
  (startLine endLine : Nat)

inductive PaginationGuidance where
  | subsequent (totalLines startLine endLine : Nat)
  | largeFile (totalLines : Nat)

structure FileWindow where
  path : Text
  size : Nat
  (sha256 content : Text)
  (startLine endLine totalLines : Nat)
  (complete truncated : Bool)
  nextStartLine : Option Nat
  nextActionAffordance : Option NextAction := none
  paginationGuidance : Option PaginationGuidance := none

/-- The caller and the functions of the host. -/
structure ReadEnvironment where
  relay : Bool
  displayPath : Text
  sha256 : Text → Text
  /-- The bytes of `JSON.stringify` of a result. -/
  jsonBytes : FileWindow → Nat

/-- What both paths know of the file and the request. -/
structure ReadSelection where
  content : Text
  (size startLine selectedEnd maxContentBytes : Nat)
  (automatic withLineNumbers : Bool)

namespace ReadSelection

section

variable (selection : ReadSelection)

def total : Nat := totalLines selection.content

def render (endLine : Nat) : Text :=
  renderLines selection.content selection.withLineNumbers
    selection.startLine endLine

def bytesThrough (endLine : Nat) : Nat :=
  byteLength (selection.render endLine)

end

section

variable (environment : ReadEnvironment)

def window (selection : ReadSelection) (endLine : Nat) (continuation : Bool) :
    FileWindow where
  path := environment.displayPath
  size := selection.size
  sha256 := environment.sha256 selection.content
  content := selection.render endLine
  startLine := selection.startLine
  endLine := endLine
  totalLines := selection.total
  complete := selection.startLine == 1 && endLine == selection.total
  truncated := continuation
  nextStartLine := if continuation then some (endLine + 1) else none

/-- A result within the bytes of its content and of its serialization. -/
def fits (selection : ReadSelection) (candidate : FileWindow) : Bool :=
  byteLength candidate.content ≤ selection.maxContentBytes &&
    environment.jsonBytes candidate ≤ maxHostedResultBytes

def hostedReadLimitError (selection : ReadSelection) (candidate : FileWindow) :
    ReadError :=
  .hostedResultLimit (environment.jsonBytes candidate)
    selection.maxContentBytes (byteLength candidate.content)

end

/-- The search between `low` and the line before `limit`. -/
def searchHosted (environment : ReadEnvironment) (selection : ReadSelection)
    (low limit : Nat) (best : FileWindow) : FileWindow :=
  if low < limit then
    let middle := (low + (limit - 1)) / 2
    let current := selection.window environment middle true
    if selection.fits environment current then
      searchHosted environment selection (middle + 1) limit current
    else searchHosted environment selection low middle best
  else best
termination_by limit - low

def hostedFileReadResult (environment : ReadEnvironment)
    (selection : ReadSelection) : Except ReadError FileWindow :=
  let final := selection.window environment selection.selectedEnd false
  if selection.fits environment final then .ok final
  else if !selection.automatic then
    .error (selection.hostedReadLimitError environment final)
  else
    let first := selection.window environment selection.startLine
      (decide (selection.startLine < selection.selectedEnd))
    if !selection.fits environment first then
      .error (selection.hostedReadLimitError environment first)
    else
      .ok (searchHosted environment selection selection.startLine
        selection.selectedEnd first)

/-- The search for the last line between `low` and `high` which fits. -/
def searchLocal (selection : ReadSelection) (low high : Nat) : Nat :=
  if low < high then
    let middle := (low + high + 1) / 2
    if selection.bytesThrough middle ≤ selection.maxContentBytes then
      searchLocal selection middle high
    else searchLocal selection low (middle - 1)
  else low
termination_by high - low

def paginationGuidance (selection : ReadSelection) (endLine : Nat)
    (endOmitted : Bool) : Option PaginationGuidance :=
  let total := selection.total
  if 300 < total && (decide (endLine < total) || endOmitted) then
    if endLine < total then
      some (.subsequent total (endLine + 1) (min (endLine + 300) total))
    else some (.largeFile total)
  else none

def localFileReadResult (environment : ReadEnvironment)
    (selection : ReadSelection) : Except ReadError FileWindow :=
  let truncated := selection.automatic &&
    decide (selection.maxContentBytes <
      selection.bytesThrough selection.selectedEnd)
  let selectedEnd := if truncated then
    searchLocal selection selection.startLine selection.selectedEnd
    else selection.selectedEnd
  let selectedBytes := selection.bytesThrough selectedEnd
  if selection.maxContentBytes < selectedBytes then
    .error (.selectedLimit selectedBytes selection.maxContentBytes)
  else .ok {
    selection.window environment selectedEnd truncated with
    nextActionAffordance := if truncated then
      some ⟨selectedEnd + 1, min (selectedEnd + 300) selection.total⟩ else none
    paginationGuidance :=
      selection.paginationGuidance selectedEnd selection.automatic }

end ReadSelection

section

variable (environment : ReadEnvironment)

def contentLimit (maxBytes : Option Int) : Nat :=
  let limit := if environment.relay then
    clampInteger maxBytes maxHostedResultBytes 1 maxHostedResultBytes
    else clampInteger maxBytes (1024 * 1024) 1 maxWriteBytes
  limit.toNat

/-- A line number of the request between one and the largest integer. -/
def lineArgument (value : Option Int) (fallback : Nat) : Nat :=
  (clampInteger value fallback 1 maxSafeInteger).toNat

def readContent (content : Text) (size : Nat) (args : ReadArgs) :
    Except ReadError FileWindow :=
  let total := totalLines content
  let startLine := lineArgument args.startLine 1
  let endLine := if args.endLine.isNone then total
    else lineArgument args.endLine total
  if endLine < startLine then .error .invalidLineRange
  else if total < startLine then .error (.lineOutOfRange total)
  else
    let selection : ReadSelection := {
      content, size, startLine
      selectedEnd := min endLine total
      maxContentBytes := contentLimit environment args.maxBytes
      automatic := args.endLine.isNone
      withLineNumbers := args.withLineNumbers }
    if environment.relay then selection.hostedFileReadResult environment
    else selection.localFileReadResult environment

def readFile (file : FileEntry)
    (args : ReadArgs) : Except ReadError FileWindow := do
  let content ← readUtf8File file
  readContent environment content file.octets.length args

end

end MachineBridge.Files
