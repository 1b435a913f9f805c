import MachineBridge.Foundation.LongestMatch
import MachineBridge.Foundation.Utf16

/-!
# Redacted output of managed jobs

The output of a step is captured up to a limit, which it shares with the other
streams of the job.  What looks like the beginning of a protected pattern at
the end of a capture which is cut is discarded, the protected patterns are
replaced, and the rest is decoded.
-/

namespace MachineBridge.Jobs

open Foundation

structure CapturedOutput where
  buffer : List UInt8
  truncated : Nat
  /-- What is left of the budget of the job. -/
  remaining : Nat

/-- Adds a chunk to a capture, as far as the limit of the stream and the
budget of the job allow. -/
def appendLimited (limit : Nat) (current : CapturedOutput)
    (chunk : List UInt8) : CapturedOutput :=
  let accepted := min chunk.length
    (min (limit - current.buffer.length) current.remaining)
  { buffer := current.buffer ++ chunk.take accepted
    truncated := current.truncated + (chunk.length - accepted)
    remaining := current.remaining - accepted }

inductive OutputEvent where
  | chunk (bytes : List UInt8)
  /-- Another stream of the job takes from the budget. -/
  | elsewhere (bytes : Nat)

def OutputEvent.bytes : OutputEvent → List UInt8
  | chunk bytes => bytes
  | elsewhere _ => []

def capture (limit : Nat) (current : CapturedOutput) :
    OutputEvent → CapturedOutput
  | .chunk bytes => appendLimited limit current bytes
  | .elsewhere bytes => { current with remaining := current.remaining - bytes }

def captureOutput (limit budget : Nat) (events : List OutputEvent) :
    CapturedOutput :=
  events.foldl (capture limit) ⟨[], 0, budget⟩

inductive Platform where
  | win32
  | darwin
  | other
deriving DecidableEq

/-- The resources of a job by their names. -/
structure RedactionContext where
  bytes : List (Text × List UInt8) := []
  paths : List (Text × Text) := []
  sourcePaths : List (Text × List Text) := []
  temporaryPaths : List (Text × Text) := []
  redactions : List (Text × List Text) := []

/-- Sorts by descending length. -/
def longestFirst {α : Type} (length : α → Nat) (items : List α) : List α :=
  items.insertionSort fun first second => length second ≤ length first

def pathTextVariants (path : Text) : List Text :=
  [path, path.map fun unit => if unit = 0x5C then 0x2F else unit,
    path.map fun unit => if unit = 0x2F then 0x5C else unit].eraseDups

section

variable (resolve : Platform → Text → Text) (context : RedactionContext)
  (runtimeDir : Text) (platform : Platform)

def managedJobResourcePathVariants (value : Text) : List Text :=
  let canonical := resolve platform value
  let aliases :=
    if platform = .darwin ∧ (text "/private/").isPrefixOf canonical then
      pathTextVariants (canonical.drop (text "/private").length)
    else []
  longestFirst List.length (pathTextVariants canonical ++ aliases).eraseDups

def pathEntries (replacement path : Text) : List (Text × Text) :=
  (managedJobResourcePathVariants resolve platform path).map fun variant =>
    (variant, replacement)

def pathRedactionEntries : List (Text × Text) :=
  (context.paths.flatMap fun entry =>
    pathEntries resolve platform
      (text "<resource:" ++ entry.1 ++ text ">") entry.2) ++
  (context.sourcePaths.flatMap fun entry => entry.2.flatMap
    (pathEntries resolve platform
      (text "<resource-source:" ++ entry.1 ++ text ">"))) ++
  (context.temporaryPaths.flatMap fun entry =>
    pathEntries resolve platform
      (text "<temp:" ++ entry.1 ++ text ">") entry.2) ++
  pathEntries resolve platform (text "<job-runtime>") runtimeDir

def literalRedactionEntries : List (Text × Text) :=
  longestFirst (fun entry : Text × Text => entry.2.length)
    (context.redactions.flatMap fun entry =>
      (entry.2.filter fun value => !value.isEmpty).map fun value =>
        (entry.1, value))

def toReplacement {α : Type} (entry : List α × List α) :
    Option (Replacement α) :=
  match entry with
  | ([], _) => none
  | (symbol :: rest, replacement) =>
    some ⟨symbol :: rest, replacement, List.cons_ne_nil symbol rest⟩

def redactedResource (name : Text) : List UInt8 :=
  toUtf8 (text "<redacted-resource:" ++ name ++ text ">")

/-- The patterns of all kinds with their replacements. -/
def byteEntries : List (List UInt8 × List UInt8) :=
  (context.bytes.map fun entry => (entry.2, redactedResource entry.1)) ++
  ((pathRedactionEntries resolve context runtimeDir platform).map fun entry =>
    (toUtf8 entry.1, toUtf8 entry.2)) ++
  (literalRedactionEntries context).map fun entry =>
    (toUtf8 entry.2, redactedResource entry.1)

def byteRedactionEntries : List (Replacement UInt8) :=
  longestFirst (fun entry : Replacement UInt8 => entry.pattern.length)
    ((byteEntries resolve context runtimeDir platform).filterMap toReplacement)

/-- The paths of the resources in the order in which they are looked at. -/
def protectedPaths : List Text :=
  context.paths.map Prod.snd ++
  (context.sourcePaths.flatMap Prod.snd) ++
  context.temporaryPaths.map Prod.snd ++ [runtimeDir]

def protectedBytePatterns : List (List UInt8) :=
  let values := context.bytes.map Prod.snd ++
    ((protectedPaths context runtimeDir).flatMap fun path =>
      (managedJobResourcePathVariants resolve platform path).map toUtf8) ++
    (literalRedactionEntries context).map fun entry => toUtf8 entry.2
  longestFirst List.length
    (values.filter fun value => !value.isEmpty).eraseDups

end

def asciiCaseFold (byte : UInt8) : UInt8 :=
  if 65 ≤ byte ∧ byte ≤ 90 then byte + 32 else byte

def firstPartialSuffix (pattern : List UInt8) : List UInt8 → Nat
  | [] => 0
  | byte :: rest =>
    let length := rest.length + 1
    if length < pattern.length ∧ byte :: rest = pattern.take length then
      length
    else firstPartialSuffix pattern rest

def partialSuffixLength (buffer pattern : List UInt8) : Nat :=
  if pattern = [] ∨ buffer = [] then 0
  else if pattern.length ≤ buffer.length ∧
      buffer.drop (buffer.length - pattern.length) = pattern then 0
  else
    let minimumStart := buffer.length + 1 - pattern.length
    firstPartialSuffix pattern (buffer.drop minimumStart)

def longestPartialSuffix (patterns : List (List UInt8)) (view : List UInt8) :
    Nat :=
  patterns.foldl (fun longest pattern =>
    max longest (partialSuffixLength view pattern)) 0

/-- The loop which takes partial patterns off the end of a buffer. -/
def discardPartials (fold : UInt8 → UInt8) (patterns : List (List UInt8)) :
    Nat → List UInt8 → List UInt8
  | 0, buffer => buffer
  | fuel + 1, buffer =>
    let longest := longestPartialSuffix patterns (buffer.map fold)
    if longest = 0 then buffer
    else discardPartials fold patterns fuel
      (buffer.take (buffer.length - longest))

/-- How bytes are compared at the end of a capture. -/
def tailFold (platform : Platform) : UInt8 → UInt8 :=
  if platform = .win32 then asciiCaseFold else id

section

variable (resolve : Platform → Text → Text) (canonicalize : UInt16 → UInt16)
  (context : RedactionContext) (runtimeDir : Text) (platform : Platform)

def discardUnsafeTruncationTail (buffer : List UInt8) (truncatedBytes : Nat) :
    List UInt8 :=
  if truncatedBytes = 0 then buffer
  else
    discardPartials (tailFold platform)
      ((protectedBytePatterns resolve context runtimeDir platform).map
        fun pattern => pattern.map (tailFold platform))
      buffer.length buffer

def textRedactionEntries : List (Replacement UInt16) :=
  if platform = .win32 then
    longestFirst (fun entry : Replacement UInt16 => entry.pattern.length)
      ((pathRedactionEntries resolve context runtimeDir platform).filterMap
        toReplacement)
  else []

/-- Replaces a path in any case.  Two units are the same for a regular
expression without case when they have the same canonical unit, and the names
in a replacement contain no `$`. -/
def replaceTextEntry (content : Text) (entry : Replacement UInt16) : Text :=
  replaceLongest canonicalize [entry] content

/-- `TextDecoder.decode`. -/
def decodeText (bytes : List UInt8) : Text :=
  ofScalarValues (dropByteOrderMark (utf8DecodeLossy bytes))

def redactManagedJobOutput (buffer : List UInt8) (truncatedBytes : Nat) :
    Text :=
  let safeBuffer := discardUnsafeTruncationTail resolve context runtimeDir
    platform buffer truncatedBytes
  let redactedBytes := replaceLongest id
    (byteRedactionEntries resolve context runtimeDir platform) safeBuffer
  (textRedactionEntries resolve context runtimeDir platform).foldl
    (replaceTextEntry canonicalize) (decodeText redactedBytes)

end

end MachineBridge.Jobs
