import MachineBridge.Git.PathFilter

/-!
# Structured Git content

The commands which print a diff or a commit.  For a delegated caller the
command is restricted to the paths which the filter leaves, passed as literal
pathspecs; a literal pathspec selects the path itself and everything below it.
-/

namespace MachineBridge.Git

open Foundation Security List

/-- A repository with a target below its root. -/
structure GitRepository where
  (target root gitDir : Path)
  inside : root <+: target

/-- The target relative to the root; empty for the root itself. -/
def GitRepository.pathspec (git : GitRepository) : Text :=
  git.root.relative git.target

structure GitEnvironment where
  run : ProcessRequest → ProcessResult
  displayPath : Path → Text
  maximumBytes : Int

structure GitContent where
  code : Option Int
  (stdout stderr path gitRoot : Text)
  /-- Zero when the field is absent. -/
  sensitiveFilesOmitted : Nat := 0

structure ContentOutcome where
  /-- The command which prints content, when one is run. -/
  command : Option ProcessRequest
  content : GitContent

def gitCommandPrefix (git : GitRepository) : List Text :=
  [text "--no-pager", text "--literal-pathspecs",
    text "--git-dir=" ++ git.gitDir.toText,
    text "--work-tree=" ++ git.root.toText, text "-c",
    text "core.fsmonitor=false", text "-c", text "color.ui=false"]

/-- `clampInteger` of a value which is missing when it is not an integer. -/
def clampInteger (value : Option Int) (fallback minimum maximum : Int) : Int :=
  min (max (value.getD fallback) minimum) maximum

section

variable (environment : GitEnvironment)

/-- The part which the two commands share: the names first, when the caller is
delegated, and then the content. -/
def structuredGitContent (context : OperationContext) (git : GitRepository)
    (maxBytes : Option Int) (nameArgs commandArgs : List Text) :
    ContentOutcome :=
  let respond (result : ProcessResult) (omitted : Nat) : GitContent := {
    code := result.code
    stdout := result.stdout
    stderr := result.stderr
    path := environment.displayPath git.target
    gitRoot := environment.displayPath git.root
    sensitiveFilesOmitted := omitted }
  let request (arguments : List Text) : ProcessRequest := {
    arguments
    timeoutMs := 60000
    maximumBytes :=
      clampInteger maxBytes (1024 * 1024) 1 environment.maximumBytes
    workingDirectory := git.root }
  let printed (arguments : List Text) (omitted : Nat) : ContentOutcome := {
    command := some (request arguments)
    content := respond (environment.run (request arguments)) omitted }
  if isDelegatedRelayContext context then
    match filterSensitiveGitPaths environment.run git.target git.root
        nameArgs git.pathspec with
    | .refused code stderr =>
      { command := none
        content := respond
          { code := some code, stdout := [], stderr,
            stdoutTruncatedBytes := 0 } 0 }
    | .filtered paths omitted =>
      if paths.isEmpty then
        { command := none
          content := respond
            { code := some 0, stdout := [], stderr := [],
              stdoutTruncatedBytes := 0 } omitted }
      else printed (commandArgs ++ text "--" :: paths) omitted
  else
    printed (commandArgs ++
      if git.pathspec.isEmpty then [] else [text "--", git.pathspec]) 0

def diffArgs (git : GitRepository) (staged : Bool) : List Text :=
  gitCommandPrefix git ++
    ["-c", "diff.external=", "diff", "--no-ext-diff", "--no-textconv",
      "--ignore-submodules=all"].map text ++
    if staged then [text "--cached"] else []

def diffNameArgs (git : GitRepository) (staged : Bool) : List Text :=
  diffArgs git staged ++ [text "--name-status", text "-z"]

def structuredGitDiff (context : OperationContext) (git : GitRepository)
    (maxBytes : Option Int) (staged : Bool) : ContentOutcome :=
  structuredGitContent environment context git maxBytes
    (diffNameArgs git staged) (diffArgs git staged)

end

def showArgs (git : GitRepository) (revision : Text) : List Text :=
  gitCommandPrefix git ++
    ["-c", "diff.external=", "-c", "log.showSignature=false", "show",
      "--no-ext-diff", "--no-textconv", "--no-show-signature",
      "--ignore-submodules=all", "--decorate=no"].map text ++ [revision]

def showNameArgs (git : GitRepository) (revision : Text) : List Text :=
  gitCommandPrefix git ++
    ["-c", "diff.external=", "show", "--no-ext-diff", "--no-textconv",
      "--no-show-signature", "--ignore-submodules=all", "--format=",
      "--name-status", "-z"].map text ++ [revision]

inductive GitError where
  /-- `invalid Git revision` -/
  | invalidRevision
deriving DecidableEq

def validateRevision (value : Text) : Except GitError Text :=
  let revision := orElse value (text "HEAD")
  if 256 < revision.length || (text "-").isPrefixOf revision ||
      revision.contains nul ||
      revision.any fun unit => unit == 0x0D || unit == 0x0A then
    .error .invalidRevision
  else .ok revision

def structuredGitShow (environment : GitEnvironment)
    (context : OperationContext) (git : GitRepository)
    (maxBytes : Option Int) (revision : Text) :
    Except GitError ContentOutcome := do
  let revision ← validateRevision revision
  return structuredGitContent environment context git maxBytes
    (showNameArgs git revision) (showArgs git revision)

/-- The pathspecs of a command follow the first separator. -/
def pathspecs (arguments : List Text) : List Text :=
  (arguments.dropWhile fun argument => argument != text "--").tail

/-- The meaning of a literal pathspec. -/
def Selects (pathspec path : Text) : Prop :=
  path = pathspec ∨ pathspec ++ [slash] <+: path

/-- A command with pathspecs prints the paths which one of them selects; without
pathspecs it prints every path. -/
def Prints (command : Option ProcessRequest) (name : GitName) : Prop :=
  ∃ request, command = some request ∧
    (pathspecs request.arguments = [] ∨
      ∃ pathspec ∈ pathspecs request.arguments, Selects pathspec name.toText)

theorem selects_toText {pathspec name : GitName} :
    Selects pathspec.toText name.toText ↔
    pathspec.segments <+: name.segments := by
  constructor
  · intro selected
    rw [← Path.texts_prefix]
    exact prefix_of_joinSegments pathspec.texts_ne_nil name.texts_ne_nil (fun _
      => Path.slash_not_mem_texts) (fun _ => Path.slash_not_mem_texts) selected
  · rintro ⟨more, same⟩
    by_cases last : more = []
    · left
      rw [last, append_nil] at same
      rw [GitName.toText, GitName.toText, same]
    · right
      have below : name.toText = pathspec.toText ++ slash ::
          joinSegments (Path.texts more) := by
        rw [GitName.toText, ← same, Path.texts_append,
          joinSegments_append pathspec.texts_ne_nil
            (mt Path.texts_eq_nil.mp last), GitName.toText]
      exact ⟨joinSegments (Path.texts more), by simp [below]⟩

theorem pathspecs_append {arguments paths : List Text}
    (apart : text "--" ∉ arguments) :
    pathspecs (arguments ++ text "--" :: paths) = paths := by
  induction arguments with
  | nil => simp [pathspecs]
  | cons argument arguments induction =>
    have other : argument ≠ text "--" :=
      fun same => apart (same ▸ mem_cons_self)
    have rest := induction fun member => apart (mem_cons_of_mem _ member)
    simp only [pathspecs, cons_append] at rest ⊢
    rw [dropWhile_cons_of_pos (by simpa using other), rest]

section

variable (git : GitRepository)

theorem separator_not_mem_prefix : text "--" ∉ gitCommandPrefix git := by
  intro member
  simp [gitCommandPrefix, text, codeUnits] at member

theorem separator_not_mem_diffArgs (staged : Bool) :
    text "--" ∉ diffArgs git staged := by
  have fixed : text "--" ∉ ["-c", "diff.external=", "diff", "--no-ext-diff",
      "--no-textconv", "--ignore-submodules=all"].map text := by decide
  rw [diffArgs, append_assoc, mem_append, mem_append]
  rintro (start | options | last)
  · exact separator_not_mem_prefix git start
  · exact fixed options
  · cases staged <;> exact absurd last (by decide)

theorem separator_not_mem_showArgs {value revision : Text}
    (valid : validateRevision value = .ok revision) :
    text "--" ∉ showArgs git revision := by
  have fixed : text "--" ∉ ["-c", "diff.external=", "-c",
      "log.showSignature=false", "show", "--no-ext-diff", "--no-textconv",
      "--no-show-signature", "--ignore-submodules=all",
      "--decorate=no"].map text := by decide
  rw [showArgs, append_assoc, mem_append, mem_append]
  rintro (start | options | last)
  · exact separator_not_mem_prefix git start
  · exact fixed options
  · have same := mem_singleton.mp last
    simp only [validateRevision] at valid
    split at valid
    case isTrue => cases valid
    case isFalse accepted =>
      cases valid
      rw [← same] at accepted
      exact absurd (by decide) accepted

end

inductive ContentRequest where
  | diff (staged : Bool)
  | showRevision (revision : Text)

def structuredGit (environment : GitEnvironment) (context : OperationContext)
    (git : GitRepository) (maxBytes : Option Int) :
    ContentRequest → Except GitError ContentOutcome
  | .diff staged =>
    .ok (structuredGitDiff environment context git maxBytes staged)
  | .showRevision revision =>
    structuredGitShow environment context git maxBytes revision

def enumeration (git : GitRepository) (request : ContentRequest) :
    ProcessRequest where
  arguments :=
    (match request with
      | .diff staged => diffNameArgs git staged
      | .showRevision revision => showNameArgs git (orElse revision (text "HEAD"))) ++
      if git.pathspec.isEmpty then [] else [text "--", git.pathspec]
  timeoutMs := 30000
  maximumBytes := 4 * 1024 * 1024
  workingDirectory := git.root

/-- No hidden path is printed, and every other changed path inside the target
is. -/
structure FiltersSensitive (git : GitRepository) (changes : List GitChange)
    (command : Option ProcessRequest) : Prop where
  hides : ∀ name ∈ changedNames changes, Hidden git.root changes name →
    ¬ Prints command name
  keeps : ∀ name ∈ changedNames changes, Inside git.target git.root name →
    ¬ Hidden git.root changes name → Prints command name

/-- No visible changed path inside the target is a parent directory of a hidden
one. -/
def NoVisibleParent (git : GitRepository) (changes : List GitChange) : Prop :=
  ∀ parent ∈ changedNames changes, Inside git.target git.root parent →
    ¬ Hidden git.root changes parent →
    ∀ name ∈ changedNames changes, Hidden git.root changes name →
      ¬ parent.segments <+: name.segments

theorem structuredGitContent_prints {environment : GitEnvironment}
    {context : OperationContext} {git : GitRepository}
    {maxBytes : Option Int} {nameArgs commandArgs : List Text}
    {changes : List GitChange}
    (delegated : isDelegatedRelayContext context = true)
    (apart : text "--" ∉ commandArgs)
    (reported : reports changes (environment.run {
      arguments := nameArgs ++
        if git.pathspec.isEmpty then [] else [text "--", git.pathspec]
      timeoutMs := 30000
      maximumBytes := 4 * 1024 * 1024
      workingDirectory := git.root })) (name : GitName) :
    Prints (structuredGitContent environment context git maxBytes nameArgs
      commandArgs).command name ↔
      ∃ parent ∈ changedNames changes, Inside git.target git.root parent ∧
        ¬ Hidden git.root changes parent ∧
        parent.segments <+: name.segments := by
  obtain ⟨paths, omitted, filtered, left⟩ :=
    filterSensitiveGitPaths_spec git.target reported
  simp only [structuredGitContent, delegated, if_true, filtered]
  split
  case isTrue empty =>
    have none : paths = [] := List.isEmpty_iff.mp empty
    constructor
    · rintro ⟨request, absent, -⟩
      cases absent
    · rintro ⟨parent, listed, inside, visible, -⟩
      have member := (left parent.toText).mpr
        ⟨parent, listed, rfl, inside, visible⟩
      simp [none] at member
  case isFalse filled =>
    have some : paths ≠ [] := mt List.isEmpty_iff.mpr filled
    constructor
    · rintro ⟨request, same, prints⟩
      cases same
      rw [pathspecs_append apart] at prints
      rcases prints with none | ⟨path, member, selected⟩
      · exact absurd none some
      · obtain ⟨parent, listed, rfl, inside, visible⟩ := (left path).mp member
        exact ⟨parent, listed, inside, visible, selects_toText.mp selected⟩
    · rintro ⟨parent, listed, inside, visible, within⟩
      refine ⟨_, rfl, .inr ⟨parent.toText, ?_, selects_toText.mpr within⟩⟩
      rw [pathspecs_append apart]
      exact (left parent.toText).mpr ⟨parent, listed, rfl, inside, visible⟩

theorem structuredGit_prints {environment : GitEnvironment}
    {context : OperationContext} {git : GitRepository} {maxBytes : Option Int}
    {request : ContentRequest} {changes : List GitChange}
    {outcome : ContentOutcome}
    (delegated : isDelegatedRelayContext context = true)
    (reported : reports changes (environment.run (enumeration git request)))
    (ran : structuredGit environment context git maxBytes request = .ok outcome)
    (name : GitName) : Prints outcome.command name ↔
    ∃ parent ∈ changedNames changes, Inside git.target git.root parent ∧
    ¬ Hidden git.root changes parent ∧ parent.segments <+: name.segments := by
  cases request with
  | diff staged =>
    cases ran
    exact structuredGitContent_prints delegated
      (separator_not_mem_diffArgs git staged) reported name
  | showRevision value =>
    simp only [structuredGit, structuredGitShow] at ran
    cases valid : validateRevision value with
    | error => rw [valid] at ran; cases ran
    | ok revision =>
      rw [valid] at ran
      cases ran
      have chosen : revision = orElse value (text "HEAD") := by
        simp only [validateRevision] at valid
        split at valid
        case isTrue => cases valid
        case isFalse => exact (Except.ok.inj valid).symm
      have sound := separator_not_mem_showArgs git valid
      exact structuredGitContent_prints delegated sound
        (chosen ▸ reported) name

theorem structuredGit_filters_iff {environment : GitEnvironment}
    {context : OperationContext} {git : GitRepository} {maxBytes : Option Int}
    {request : ContentRequest} {changes : List GitChange}
    {outcome : ContentOutcome}
    (delegated : isDelegatedRelayContext context = true)
    (reported : reports changes (environment.run (enumeration git request)))
    (ran : structuredGit environment context git maxBytes request = .ok outcome)
    : FiltersSensitive git changes outcome.command ↔
    NoVisibleParent git changes := by
  have prints := structuredGit_prints delegated reported ran
  constructor
  · intro filters parent parentListed inside visible name listed hidden within
    exact filters.hides name listed hidden
      ((prints name).mpr ⟨parent, parentListed, inside, visible, within⟩)
  · intro apart
    constructor
    · intro name listed hidden printed
      obtain ⟨parent, parentListed, inside, visible, within⟩ :=
        (prints name).mp printed
      exact apart parent parentListed inside visible name listed hidden within
    · intro name listed inside visible
      exact (prints name).mpr ⟨name, listed, inside, visible, prefix_rfl⟩

/-- A caller with the role of a reviewer. -/
def reviewerContext : OperationContext where
  origin := .relay
  principal := .account .reviewer
  owner := false

def sampleRepository : GitRepository where
  target := [⟨text "repo", by decide⟩]
  root := [⟨text "repo", by decide⟩]
  gitDir := [⟨text "repo", by decide⟩, ⟨text ".git", by decide⟩]
  inside := prefix_rfl

/-- The file `a`. -/
def replacedFile : GitName where
  segments := [⟨text "a", by decide⟩]
  some := by decide
  withoutNul := by decide

/-- The file `a/.env`. -/
def nestedEnvironment : GitName where
  segments := [⟨text "a", by decide⟩, ⟨text ".env", by decide⟩]
  some := by decide
  withoutNul := by decide

/-- The file `a` is deleted and `a/.env` added. -/
def fileReplaced : List GitChange :=
  [.single .deleted replacedFile, .single .added nestedEnvironment]

section

variable (changes : List GitChange)

def reporting : GitEnvironment where
  run := fun request => {
    code := some 0
    stdout :=
      if request.arguments.contains (text "--name-status") then
        renderNameStatus changes
      else text "diff --git"
    stderr := []
    stdoutTruncatedBytes := 0 }
  displayPath := Path.toText
  maximumBytes := 1024 * 1024

theorem reporting_reports : reports changes
    ((reporting changes).run (enumeration sampleRepository (.diff true))) := by
  have named : (enumeration sampleRepository (.diff true)).arguments.contains
      (text "--name-status") = true := by decide +kernel
  refine ⟨rfl, rfl, ?_⟩
  simp only [reporting, named, if_true]

end

/-- The filter is exact when a replaced file hides nothing below it. -/
theorem structuredGit_filters_replaced : FiltersSensitive sampleRepository
    fileReplaced (structuredGitDiff (reporting fileReplaced) reviewerContext
    sampleRepository none true).command ↔ NoVisibleParent sampleRepository
    fileReplaced :=
  structuredGit_filters_iff (by decide) (reporting_reports fileReplaced) rfl

theorem nestedEnvironment_hidden :
    Hidden sampleRepository.root fileReplaced nestedEnvironment :=
  ⟨.single .added nestedEnvironment, by simp [fileReplaced],
    by simp [GitChange.names], nestedEnvironment, by simp [GitChange.names],
    by decide +kernel⟩

theorem replacedFile_visible :
    ¬ Hidden sampleRepository.root fileReplaced replacedFile := by
  rintro ⟨change, listed, named, other, member, sensitive⟩
  rcases mem_pair.mp listed with rfl | rfl
  · have same := mem_singleton.mp member
    rw [same] at sensitive
    exact absurd sensitive (by decide +kernel)
  · have same := mem_singleton.mp named
    exact absurd same (by decide)

/-- The content of a hidden file is printed when it stands below a replaced
file. -/
theorem structuredGit_prints_hidden : ¬ ∀ (environment : GitEnvironment)
    (context : OperationContext) (git : GitRepository) (maxBytes : Option Int)
    (request : ContentRequest) (changes : List GitChange)
    (outcome : ContentOutcome), isDelegatedRelayContext context = true →
    reports changes (environment.run (enumeration git request)) →
    structuredGit environment context git maxBytes request = .ok outcome →
    FiltersSensitive git changes outcome.command := by
  intro always
  have filters := always (reporting fileReplaced) reviewerContext
    sampleRepository none (.diff true) fileReplaced _ (by decide)
    (reporting_reports fileReplaced) rfl
  have listed : nestedEnvironment ∈ changedNames fileReplaced := by
    simp [changedNames, fileReplaced, GitChange.names]
  apply filters.hides nestedEnvironment listed nestedEnvironment_hidden
  apply (structuredGit_prints (by decide)
    (reporting_reports fileReplaced) rfl nestedEnvironment).mpr
  refine ⟨replacedFile, ?_, ?_, replacedFile_visible, ?_⟩
  · simp [changedNames, fileReplaced, GitChange.names]
  · exact prefix_append _ _
  · exact ⟨[⟨text ".env", by decide⟩], rfl⟩

end MachineBridge.Git
