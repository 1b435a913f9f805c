import MachineBridge.Foundation.Newlines
import Mathlib.Data.List.TakeWhile

/-!
# The patch envelope

A patch is a text of sections between two markers.  A section adds, deletes or
updates one file; an update may move it, and consists of hunks of context,
removed and added lines.
-/

namespace MachineBridge.Files

open Foundation

inductive LineType where
  | context
  | removed
  | added
deriving DecidableEq

def LineType.mark : LineType → UInt16
  | .context => 0x20
  | .removed => 0x2D
  | .added => 0x2B

structure HunkLine where
  type : LineType
  text : Text
deriving DecidableEq

structure UpdateHunk where
  header : Text
  lines : List HunkLine
deriving DecidableEq

inductive SectionKind where
  | add
  | update
  | delete
deriving DecidableEq

inductive FileOperation where
  | add (path content : Text)
  | update (path : Text) (moveTo : Option Text) (hunks : List UpdateHunk)
  | delete (path : Text)
deriving DecidableEq

def FileOperation.paths : FileOperation → List Text
  | .add path _ => [path]
  | .update path moveTo _ => path :: moveTo.toList
  | .delete path => [path]

inductive PatchError where
  | missingBeginMarker
  | missingEndMarker
  | trailingContent
  | invalidSectionHeader (line : Nat)
  | emptyPath (operation : SectionKind)
  | invalidAddLine (line : Nat)
  | unexpectedDeleteBody (line : Nat)
  | emptyMoveDestination
  | missingHunkHeader (line : Nat)
  | invalidUpdateLine (line : Nat)
  | emptyHunk
  | contextFreeHunk
  | missingHunks
  | emptyPatch
  | duplicatePath

def beginMarker : Text := text "*** Begin Patch"

def endMarker : Text := text "*** End Patch"

def SectionKind.marker : SectionKind → Text
  | .add => text "*** Add File: "
  | .update => text "*** Update File: "
  | .delete => text "*** Delete File: "

def moveMarker : Text := text "*** Move to: "

def hunkMarker : Text := text "@@"

def startsWith (line marker : Text) : Bool := marker.isPrefixOf line

def sectionKind (line : Text) : Option SectionKind :=
  [SectionKind.add, .update, .delete].find? fun kind =>
    startsWith line kind.marker

def isSectionHeader (line : Text) : Bool := (sectionKind line).isSome

def valueAfter (marker line : Text) : Text := trim (line.drop marker.length)

def parseAddLines (line : Nat) : List Text → Except PatchError (List Text)
  | [] => .ok []
  | first :: rest =>
    match first with
    | [] => .error (.invalidAddLine line)
    | unit :: content =>
      if unit = LineType.added.mark then
        (parseAddLines (line + 1) rest).map (content :: ·)
      else .error (.invalidAddLine line)

def joinLines (lines : List Text) : Text := lines.flatMap (· ++ [lineFeed])

def lineType (unit : UInt16) : Option LineType :=
  [LineType.context, .added, .removed].find? fun type => unit == type.mark

def parseHunkLines (line : Nat) :
    List Text → Except PatchError (List HunkLine)
  | [] => .ok []
  | first :: rest =>
    match first with
    | [] => .error (.invalidUpdateLine line)
    | unit :: content =>
      match lineType unit with
      | none => .error (.invalidUpdateLine line)
      | some type =>
        (parseHunkLines (line + 1) rest).map (⟨type, content⟩ :: ·)

def isHunkHeader (line : Text) : Bool := startsWith line hunkMarker

/-- A hunk whose header stands at `line`. -/
def parseHunk (line : Nat) (header : Text) (body : List Text) :
    Except PatchError UpdateHunk :=
  match parseHunkLines (line + 1) body with
  | .error error => .error error
  | .ok lines =>
    if lines.isEmpty then .error .emptyHunk
    else if lines.all fun entry => entry.type = .added then
      .error .contextFreeHunk
    else .ok ⟨valueAfter hunkMarker header, lines⟩

/-- The hunks of a section, from `line` on. -/
def parseHunks (line : Nat) (lines : List Text) :
    Except PatchError (List UpdateHunk) :=
  match lines with
  | [] => .ok []
  | header :: rest =>
    if header.isEmpty then parseHunks (line + 1) rest
    else if !isHunkHeader header then .error (.missingHunkHeader line)
    else
      let body := rest.takeWhile fun entry => !isHunkHeader entry
      match parseHunk line header body with
      | .error error => .error error
      | .ok hunk =>
        (parseHunks (line + 1 + body.length)
          (rest.dropWhile fun entry => !isHunkHeader entry)).map
            (hunk :: ·)
termination_by lines.length
decreasing_by
  · simp
  · exact Nat.lt_succ_of_le (List.length_dropWhile_le _ _)

section

variable (path : Text)

def finishUpdate (moveTo : Option Text) (line : Nat) (body : List Text) :
    Except PatchError FileOperation :=
  match parseHunks line body with
  | .error error => .error error
  | .ok hunks =>
    if hunks.isEmpty then .error .missingHunks
    else .ok (.update path moveTo hunks)

/-- The body of an update; its first line may be the destination of a move. -/
def parseUpdate (line : Nat) (body : List Text) :
    Except PatchError FileOperation :=
  match body with
  | [] => finishUpdate path none line []
  | first :: rest =>
    if startsWith first moveMarker then
      if (valueAfter moveMarker first).isEmpty then
        .error .emptyMoveDestination
      else finishUpdate path (some (valueAfter moveMarker first))
        (line + 1) rest
    else finishUpdate path none line body

def parseDelete (line : Nat) (body : List Text) :
    Except PatchError FileOperation :=
  match body with
  | [] => .ok (.delete path)
  | first :: _ =>
    if first.isEmpty then .ok (.delete path)
    else .error (.unexpectedDeleteBody line)

end

section

variable (kind : SectionKind)

/-- The operation of a section, whose body starts at `line`. -/
def parseBody (path : Text) (line : Nat) (body : List Text) :
    Except PatchError FileOperation :=
  match kind with
  | .add => (parseAddLines line body).map fun lines =>
    .add path (joinLines lines)
  | .update => parseUpdate path line body
  | .delete => parseDelete path line body

def sectionBody (lines : List Text) : List Text :=
  lines.takeWhile fun line => !isSectionHeader line

def afterSection (lines : List Text) : List Text :=
  lines.dropWhile fun line => !isSectionHeader line

def consumedBody (lines : List Text) : List Text :=
  if kind = .delete then [] else sectionBody lines

def remainingLines (lines : List Text) : List Text :=
  if kind = .delete then lines else afterSection lines

end

def parseSections (line : Nat) (lines : List Text) :
    Except PatchError (List FileOperation) :=
  match lines with
  | [] => .ok []
  | header :: rest =>
    if header.isEmpty then parseSections (line + 1) rest
    else
      match sectionKind header with
      | none => .error (.invalidSectionHeader line)
      | some kind =>
        let path := valueAfter kind.marker header
        if path.isEmpty then .error (.emptyPath kind)
        else
          match parseBody kind path (line + 1) (sectionBody rest) with
          | .error error => .error error
          | .ok operation =>
            (parseSections
              (line + 1 + (consumedBody kind rest).length)
              (remainingLines kind rest)).map (operation :: ·)
termination_by lines.length
decreasing_by
  · simp
  · apply Nat.lt_succ_of_le
    rw [remainingLines]
    split
    · exact Nat.le_refl _
    · exact List.length_dropWhile_le _ _

def lastIndexOf (item : Text) : List Text → Option Nat
  | [] => none
  | first :: rest =>
    match lastIndexOf item rest with
    | some index => some (index + 1)
    | none => if first = item then some 0 else none

def parsePatchEnvelope (input : Text) :
    Except PatchError (List FileOperation) :=
  let lines := splitLf (toLf input)
  if lines.head? ≠ some beginMarker then .error .missingBeginMarker
  else
    match lastIndexOf endMarker lines with
    | none | some 0 => .error .missingEndMarker
    | some (endIndex + 1) =>
      if (lines.drop (endIndex + 2)).any fun line => !line.isEmpty then
        .error .trailingContent
      else
        match parseSections 2 ((lines.take (endIndex + 1)).drop 1) with
        | .error error => .error error
        | .ok operations =>
          if operations.isEmpty then .error .emptyPatch
          else if (operations.flatMap (·.paths)).Nodup then
            .ok operations
          else .error .duplicatePath

end MachineBridge.Files
