import MachineBridge.Security.SensitivePath

/-!
# Names of changed files

Before a delegated caller sees any content, Git enumerates the changed paths,
each with its status and separated by NUL.  The names which are sensitive, and
those which a rename or a copy pairs with a sensitive one, are left out; the
others become the pathspecs of the command which prints the content.
-/

namespace MachineBridge.Git

open Foundation Security List

/-- The separator of the records. -/
def nul : UInt16 := 0

/-- A path below the work tree. -/
structure GitName where
  segments : Path
  some : segments ≠ []
  withoutNul : ∀ segment ∈ segments, nul ∉ segment.val
deriving DecidableEq

def GitName.toText (name : GitName) : Text := joinSegments name.segments.texts

inductive ChangeStatus where
  | added
  | modified
  | deleted
  | typeChanged
deriving DecidableEq

inductive PairStatus where
  | renamed
  | copied
deriving DecidableEq

inductive GitChange where
  | single (status : ChangeStatus) (name : GitName)
  | pair (status : PairStatus) (similarity : Fin 101)
      (source destination : GitName)

def ChangeStatus.letter : ChangeStatus → Text
  | .added => text "A"
  | .modified => text "M"
  | .deleted => text "D"
  | .typeChanged => text "T"

def PairStatus.letter : PairStatus → Text
  | .renamed => text "R"
  | .copied => text "C"

def threeDigits (number : Fin 101) : Text :=
  [number.val / 100, number.val / 10 % 10, number.val % 10].map fun digit =>
    (0x30 + digit).toUInt16

namespace GitChange

def status : GitChange → Text
  | .single status _ => status.letter
  | .pair status similarity _ _ => status.letter ++ threeDigits similarity

def names : GitChange → List GitName
  | .single _ name => [name]
  | .pair _ _ source destination => [source, destination]

/-- The fields of the record, in the order in which they are printed. -/
def fields (change : GitChange) : List Text :=
  change.status :: change.names.map GitName.toText

end GitChange

/-- The output of `--name-status -z`. -/
def renderNameStatus (changes : List GitChange) : Text :=
  (changes.flatMap GitChange.fields).flatMap fun field => field ++ [nul]

structure NameStatus where
  status : Text
  paths : List Text

/-- `^[RC]\d+$` -/
def isPairStatus : Text → Bool
  | letter :: score =>
    (letter == 0x52 || letter == 0x43) && !score.isEmpty &&
      score.all isDigit
  | [] => false

/-- `^[A-Z]{1,2}$` -/
def isSingleStatus (status : Text) : Bool := fits isUpper 1 2 status

def pathCount (status : Text) : Nat :=
  if isPairStatus status then 2 else if isSingleStatus status then 1 else 0

def validName (name : Text) : Bool := !name.isEmpty && !name.contains nul

def parseRecords : List Text → Option (List NameStatus)
  | [] => some []
  | status :: tokens =>
    match pathCount status, tokens with
    | 1, name :: rest =>
      if validName name then
        (parseRecords rest).map ({ status, paths := [name] } :: ·)
      else none
    | 2, source :: destination :: rest =>
      if validName source && validName destination then
        (parseRecords rest).map
          ({ status, paths := [source, destination] } :: ·)
      else none
    | _, _ => none

def parseGitNameStatus (output : Text) : Option (List NameStatus) :=
  let tokens := output.splitOn nul
  parseRecords (if tokens.getLast? = some [] then tokens.dropLast else tokens)

namespace GitName

variable (name : GitName)

theorem texts_ne_nil : name.segments.texts ≠ [] :=
  mt Path.texts_eq_nil.mp name.some

theorem toText_ne_nil : name.toText ≠ [] := by
  intro empty
  have split := splitOn_joinSegments name.texts_ne_nil
    fun _ => Path.slash_not_mem_texts
  rw [← toText, empty] at split
  have first : ([] : Text) ∈ name.segments.texts := by
    rw [← split]
    simp
  obtain ⟨segment, -, same⟩ := List.mem_map.mp first
  exact segment.ne_nil same

theorem nul_not_mem : nul ∉ name.toText := by
  intro member
  rcases mem_joinSegments member with separator | ⟨segment, inside, held⟩
  · exact absurd separator (by decide)
  · obtain ⟨proper, listed, rfl⟩ := List.mem_map.mp inside
    exact name.withoutNul proper listed held

theorem validName_toText : validName name.toText = true := by
  simp [validName, name.toText_ne_nil, name.nul_not_mem]

theorem toText_injective : Function.Injective toText := by
  intro first second same
  have texts : first.segments.texts = second.segments.texts := by
    rw [← splitOn_joinSegments first.texts_ne_nil
      fun _ => Path.slash_not_mem_texts, ← toText, same, toText,
      splitOn_joinSegments second.texts_ne_nil
        fun _ => Path.slash_not_mem_texts]
  cases first
  cases second
  simp only [mk.injEq]
  exact Path.texts_injective texts

theorem resolve_toText (root : Path) :
    root.resolve name.toText = root ++ name.segments :=
  Path.resolve_joinSegments root name.some

end GitName

theorem isDigit_threeDigits (number : Fin 101) :
    (threeDigits number).all isDigit = true := by
  revert number
  decide

theorem nul_not_mem_letter (status : ChangeStatus) : nul ∉ status.letter := by
  cases status <;> decide

theorem nul_not_mem_status (change : GitChange) : nul ∉ change.status := by
  cases change with
  | single status name => exact nul_not_mem_letter status
  | pair status similarity source destination =>
    intro member
    rcases mem_append.mp member with letter | digits
    · cases status <;> exact absurd letter (by decide)
    · have digit := all_eq_true.mp (isDigit_threeDigits similarity) nul digits
      exact absurd digit (by decide)

def GitChange.record (change : GitChange) : NameStatus where
  status := change.status
  paths := change.names.map GitName.toText

theorem pathCount_single (status : ChangeStatus) :
    pathCount status.letter = 1 := by
  cases status <;> decide

theorem pathCount_pair (status : PairStatus) (similarity : Fin 101) :
    pathCount (status.letter ++ threeDigits similarity) = 2 := by
  have digits := isDigit_threeDigits similarity
  cases status <;>
    simp_all [pathCount, PairStatus.letter, isPairStatus, text, codeUnits,
      threeDigits]

section

variable (changes : List GitChange)

theorem parseRecords_fields : parseRecords (changes.flatMap GitChange.fields) =
    some (changes.map GitChange.record) := by
  induction changes with
  | nil => rfl
  | cons change changes induction =>
    cases change with
    | single status name =>
      simp [GitChange.fields, GitChange.status, GitChange.names,
        GitChange.record, parseRecords, pathCount_single,
        name.validName_toText, induction]
    | pair status similarity source destination =>
      simp [GitChange.fields, GitChange.status, GitChange.names,
        GitChange.record, parseRecords, pathCount_pair,
        source.validName_toText, destination.validName_toText, induction]

theorem splitOn_terminated {fields : List Text}
    (apart : ∀ field ∈ fields, nul ∉ field) :
    (fields.flatMap fun field => field ++ [nul]).splitOn nul = fields ++
    [[]] := by
  induction fields with
  | nil => simp
  | cons field fields induction =>
    have rest := induction fun other member =>
      apart other (mem_cons_of_mem _ member)
    rw [flatMap_cons, append_assoc, singleton_append, splitOn_append_cons_self,
      rest, splitOn_eq_singleton (apart field mem_cons_self), singleton_append,
      cons_append]

theorem parseGitNameStatus_render :
    parseGitNameStatus (renderNameStatus changes) =
    some (changes.map GitChange.record) := by
  have apart : ∀ field ∈ changes.flatMap GitChange.fields, nul ∉ field := by
    intro field member
    obtain ⟨change, -, inside⟩ := mem_flatMap.mp member
    rcases mem_cons.mp inside with status | named
    · exact status ▸ nul_not_mem_status change
    · obtain ⟨name, -, rfl⟩ := List.mem_map.mp named
      exact name.nul_not_mem
  rw [parseGitNameStatus, renderNameStatus, splitOn_terminated apart]
  simp [parseRecords_fields]

end

structure ProcessRequest where
  arguments : List Text
  timeoutMs : Nat
  maximumBytes : Int
  workingDirectory : Path

structure ProcessResult where
  /-- Missing when a signal ended the process. -/
  code : Option Int
  (stdout stderr : Text)
  stdoutTruncatedBytes : Nat

inductive FilterResult where
  | refused (code : Int) (stderr : Text)
  | filtered (paths : List Text) (omittedSensitiveFiles : Nat)

def isWithinPath (root target : Path) : Bool :=
  staysBelow (root.relative target)

def candidates (target root : Path) (records : List NameStatus) : List Text :=
  (records.flatMap NameStatus.paths).eraseDups.filter fun name =>
    isWithinPath target (root.resolve name)

def hiddenNames (root : Path) (records : List NameStatus) : List Text :=
  records.flatMap fun record =>
    if record.paths.any fun name => isSensitivePath (root.resolve name) then
      record.paths
    else []

def filterSensitiveGitPaths (run : ProcessRequest → ProcessResult)
    (target root : Path) (commandArgs : List Text) (pathspec : Text) :
    FilterResult :=
  let result := run {
    arguments := commandArgs ++
      if pathspec.isEmpty then [] else [text "--", pathspec]
    timeoutMs := 30000
    maximumBytes := 4 * 1024 * 1024
    workingDirectory := root }
  if result.code ≠ some 0 || 0 < result.stdoutTruncatedBytes then
    .refused (match result.code with
      | none => 1
      | some code => if code = 0 then 1 else code)
      (orElse result.stderr (text "cannot safely enumerate Git paths"))
  else
    match parseGitNameStatus result.stdout with
    | none => .refused 1 (text "Git returned an incomplete path-status list")
    | some records =>
      let candidates := candidates target root records
      let hidden := hiddenNames root records
      let paths := candidates.filter fun name => !hidden.contains name
      .filtered paths (candidates.length - paths.length)

def changedNames (changes : List GitChange) : List GitName :=
  changes.flatMap GitChange.names

/-- A name is hidden when it, or a name paired with it, is sensitive. -/
def Hidden (root : Path) (changes : List GitChange) (name : GitName) : Prop :=
  ∃ change ∈ changes, name ∈ change.names ∧
    ∃ other ∈ change.names, isSensitivePath (root ++ other.segments) = true

def Inside (target root : Path) (name : GitName) : Prop :=
  target <+: root ++ name.segments

variable {change : GitChange} {root : Path} {changes : List GitChange}

theorem mem_paths_record {path : Text} :
    path ∈ change.record.paths ↔ ∃ name ∈ change.names, name.toText = path :=
  List.mem_map

theorem toText_mem_record {name : GitName} :
    name.toText ∈ change.record.paths ↔ name ∈ change.names := by
  rw [mem_paths_record]
  constructor
  · rintro ⟨other, member, same⟩
    exact GitName.toText_injective same ▸ member
  · intro member
    exact ⟨name, member, rfl⟩

theorem isWithinPath_iff {target : Path} :
    isWithinPath root target = true ↔ root <+: target := staysBelow_relative

theorem mem_candidates {target : Path} {path : Text} :
    path ∈ candidates target root (changes.map GitChange.record) ↔
    ∃ name ∈ changedNames changes, name.toText = path ∧
    Inside target root name := by
  rw [candidates, List.mem_filter, mem_eraseDups, mem_flatMap]
  constructor
  · rintro ⟨⟨record, listed, inside⟩, within⟩
    obtain ⟨change, member, rfl⟩ := List.mem_map.mp listed
    obtain ⟨name, named, rfl⟩ := mem_paths_record.mp inside
    refine ⟨name, mem_flatMap.mpr ⟨change, member, named⟩, rfl, ?_⟩
    rwa [name.resolve_toText, isWithinPath_iff] at within
  · rintro ⟨name, listed, rfl, within⟩
    obtain ⟨change, member, named⟩ := mem_flatMap.mp listed
    refine ⟨⟨change.record, mem_map_of_mem member,
      toText_mem_record.mpr named⟩, ?_⟩
    rw [name.resolve_toText, isWithinPath_iff]
    exact within

theorem any_sensitive_record :
    (change.record.paths.any fun name => isSensitivePath (root.resolve name)) =
    true ↔ ∃ other ∈ change.names,
    isSensitivePath (root ++ other.segments) = true := by
  simp only [GitChange.record, any_map, any_eq_true,
    Function.comp_apply, GitName.resolve_toText]

theorem toText_mem_hiddenNames {name : GitName} :
    name.toText ∈ hiddenNames root (changes.map GitChange.record) ↔
    Hidden root changes name := by
  rw [hiddenNames, mem_flatMap]
  constructor
  · rintro ⟨record, listed, inside⟩
    obtain ⟨change, member, rfl⟩ := List.mem_map.mp listed
    split at inside
    case isTrue sensitive =>
      exact ⟨change, member, toText_mem_record.mp inside,
        any_sensitive_record.mp sensitive⟩
    case isFalse => simp at inside
  · rintro ⟨change, member, named, sensitive⟩
    refine ⟨change.record, mem_map_of_mem member, ?_⟩
    rw [if_pos (any_sensitive_record.mpr sensitive)]
    exact toText_mem_record.mpr named

def reports (changes : List GitChange) (result : ProcessResult) : Prop :=
  result.code = some 0 ∧ result.stdoutTruncatedBytes = 0 ∧
    result.stdout = renderNameStatus changes

theorem filterSensitiveGitPaths_spec {run : ProcessRequest → ProcessResult}
    (target : Path) {commandArgs : List Text} {pathspec : Text}
    (reported : reports changes (run {
      arguments := commandArgs ++
        if pathspec.isEmpty then [] else [text "--", pathspec]
      timeoutMs := 30000
      maximumBytes := 4 * 1024 * 1024
      workingDirectory := root })) :
    ∃ paths omitted,
      filterSensitiveGitPaths run target root commandArgs pathspec =
        .filtered paths omitted ∧
      ∀ path, path ∈ paths ↔ ∃ name ∈ changedNames changes,
        name.toText = path ∧ Inside target root name ∧
          ¬ Hidden root changes name := by
  obtain ⟨success, whole, printed⟩ := reported
  simp only [filterSensitiveGitPaths, success, whole, printed,
    parseGitNameStatus_render, ne_eq, not_true_eq_false, decide_false,
    Nat.lt_irrefl, Bool.or_self, Bool.false_eq_true, if_false]
  refine ⟨_, _, rfl, ?_⟩
  intro path
  rw [List.mem_filter, mem_candidates]
  constructor
  · rintro ⟨⟨name, listed, rfl, within⟩, visible⟩
    refine ⟨name, listed, rfl, within, ?_⟩
    intro hidden
    have held := toText_mem_hiddenNames.mpr hidden
    simp [held] at visible
  · rintro ⟨name, listed, rfl, within, visible⟩
    refine ⟨⟨name, listed, rfl, within⟩, ?_⟩
    have absent := mt toText_mem_hiddenNames.mp visible
    simp [absent]

end MachineBridge.Git
