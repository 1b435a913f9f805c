import MachineBridge.Jobs.Status

/-!
# Terminal persistence of a managed job

A finished job first gets its result file and then its terminal status; only
then its inputs are removed, and last the status is written again with the
outcome of the cleanup.  Each write and removal may fail, before or after it
took effect, and the process may stop between any two of them.  Reconciliation
continues from what it finds.
-/

namespace MachineBridge.Jobs

open Foundation

/-- A date text, and the instant it denotes if it denotes one. -/
structure Timestamp where
  content : Text
  instant : Option Int
deriving DecidableEq

/-- The inputs and artifacts of a job. -/
inductive Artifact where
  | runtime
  | plan
  | runnerPid
  | cancel
deriving DecidableEq

def artifacts : List Artifact := [.runtime, .plan, .runnerPid, .cancel]

structure StatusRecord where
  jobId : Option Text
  state : JobState
  currentPhase : Option Text := none
  (currentStep dependencyPendingCount : Option Nat := none)
  (finishedAt updatedAt : Option Timestamp := none)
  (errorClass cleanupErrorClass : Option Text := none)
  resultPersisted : Option Bool := none
  terminalRecordErrorClass : Option Text := none
  artifactCleanupPending : Option Bool := none
  artifactCleanupErrorClass : Option Text := none
deriving DecidableEq

structure ResultRecord where
  jobId : Option Text
  state : JobState
  finishedAt : Option Timestamp
  /-- Both lists of steps are arrays. -/
  hasSteps : Bool := true
  (errorClass cleanupErrorClass : Option Text := none)
deriving DecidableEq

structure JobFiles where
  name : Text
  status : StatusRecord
  result : Option ResultRecord := none
  present : List Artifact := artifacts
deriving DecidableEq

def isDate (date : Option Timestamp) : Bool :=
  date.any fun date => date.instant.isSome

def isTerminalManagedJobResult (value : ResultRecord)
    (expectedJobId : Option Text) : Bool :=
  value.state.terminal && value.jobId == expectedJobId &&
    isDate value.finishedAt && value.hasSteps

/-- `[a-z0-9._-]` -/
def isErrorClassUnit (unit : UInt16) : Bool :=
  isLower unit || isDigit unit || unit == 0x2E || unit == 0x5F || unit == 0x2D

def boundedErrorClass (value : Text) : Text :=
  let lowered := toLowerCase (orElse value (text "persistence_failed"))
  orElse ((lowered.map fun unit =>
    if isErrorClassUnit unit then unit else 0x5F).take 80)
      (text "persistence_failed")

/-- A nonempty text, as the language's choice between texts takes it. -/
def filled (value : Option Text) : Option Text :=
  value.filter fun content => !content.isEmpty

structure TerminalOptions where
  resultPersisted : Bool := true
  terminalRecordErrorClass : Text := []
  updatedAt : Option Timestamp

def terminalStatusFromResult (status : StatusRecord) (result : ResultRecord)
    (options : TerminalOptions) : Option StatusRecord :=
  if status.jobId.isNone || !isTerminalManagedJobResult result status.jobId
    then none
  else
    some
      { status with
        state := result.state
        currentPhase := none
        currentStep := none
        dependencyPendingCount := status.dependencyPendingCount.map fun _ => 0
        finishedAt := result.finishedAt
        updatedAt := options.updatedAt.or result.finishedAt
        errorClass := (filled result.errorClass).or
          (filled result.cleanupErrorClass)
        cleanupErrorClass := filled result.cleanupErrorClass
        resultPersisted := some options.resultPersisted
        terminalRecordErrorClass :=
          if options.resultPersisted then none
          else some (boundedErrorClass options.terminalRecordErrorClass)
        artifactCleanupPending := some true
        artifactCleanupErrorClass := none }

/-- A write replaces its file at once; an error may still follow. -/
inductive WriteOutcome where
  | written
  | failed
  | failedAfterwards
deriving DecidableEq

namespace WriteOutcome

section

variable (outcome : WriteOutcome)

def succeeds : Bool := outcome == .written

def takesEffect : Bool := outcome != .failed

end

end WriteOutcome

inductive RemoveOutcome where
  | removed
  | missing
  | failed
  | failedAfterwards
deriving DecidableEq

namespace RemoveOutcome

section

variable (outcome : RemoveOutcome)

def succeeds : Bool :=
  outcome == .removed || outcome == .missing

def takesEffect : Bool :=
  outcome == .removed || outcome == .failedAfterwards

end

end RemoveOutcome

abbrev Effect := JobFiles → JobFiles

section

variable (outcome : WriteOutcome)

def writeResult (result : ResultRecord) : Effect :=
  fun files =>
    if outcome.takesEffect then { files with result := some result }
    else files

def writeStatus (status : StatusRecord) : Effect :=
  fun files => if outcome.takesEffect then { files with status } else files

end

def removeArtifact (outcome : RemoveOutcome) (artifact : Artifact) : Effect :=
  fun files =>
    if outcome.takesEffect then
      { files with present := files.present.filter (· != artifact) }
    else files

/-- The files after the first `count` effects. -/
def afterEffects (effects : List Effect) (count : Nat) (files : JobFiles) :
    JobFiles :=
  (effects.take count).foldl (fun files effect => effect files) files

structure PersistFaults where
  result : WriteOutcome := .written
  resultErrorClass : Text := text "persistence_failed"
  status : WriteOutcome := .written
  removals : Artifact → RemoveOutcome := fun _ => .removed
  cleanupErrorClass : Text := text "persistence_failed"
  finalStatus : WriteOutcome := .written

section

variable (removals : Artifact → RemoveOutcome)

def cleanupFailed : Bool :=
  artifacts.any fun artifact => !(removals artifact).succeeds

def settledStatus (status : StatusRecord) (pending : Bool)
    (errorClass : Text) : StatusRecord :=
  { status with
    artifactCleanupPending := some pending
    artifactCleanupErrorClass := if pending then some errorClass else none }

def removeArtifacts : List Effect :=
  artifacts.map fun artifact => removeArtifact (removals artifact) artifact

end

def persistManagedJobTerminal (status : StatusRecord) (result : ResultRecord)
    (faults : PersistFaults) : List Effect :=
  writeResult faults.result result ::
    match terminalStatusFromResult status result
        { resultPersisted := faults.result.succeeds
          terminalRecordErrorClass := faults.resultErrorClass
          updatedAt := result.finishedAt } with
    | none => []
    | some terminal =>
      writeStatus faults.status terminal ::
        if faults.status.succeeds then
          removeArtifacts faults.removals ++
            [writeStatus faults.finalStatus
              (settledStatus terminal (cleanupFailed faults.removals)
                faults.cleanupErrorClass)]
        else []

/-- Equal apart from what a cleanup changes. -/
def sameTerminalJobStatus (before after : StatusRecord) : Bool :=
  { before with
    updatedAt := none
    artifactCleanupPending := none
    artifactCleanupErrorClass := none } ==
  { after with
    updatedAt := none
    artifactCleanupPending := none
    artifactCleanupErrorClass := none }

def assertTerminalJobEvidence (files : JobFiles) (status : StatusRecord) :
    Bool :=
  if status.jobId ≠ some files.name || !status.state.terminal then false
  else if status.resultPersisted = some false then
    isDate status.finishedAt &&
      status.terminalRecordErrorClass.any (fits isErrorClassUnit 1 80)
  else if !sameTerminalJobStatus status files.status then false
  else
    match files.result with
    | none => false
    | some result =>
      isTerminalManagedJobResult result status.jobId &&
        result.state == status.state &&
        result.finishedAt == status.finishedAt

structure ReconcileFaults where
  /-- Whether a runner of the job is alive, when that can be told. -/
  runnerCurrent : Option Bool := some false
  now : Timestamp
  status : WriteOutcome := .written
  activeChildReady : Bool := true
  removals : Artifact → RemoveOutcome := fun _ => .removed
  cleanupErrorClass : Text := text "persistence_failed"
  finalStatus : WriteOutcome := .written

section

variable (files : JobFiles)

def scrubTerminalJobArtifacts (status : StatusRecord)
    (faults : ReconcileFaults) : List Effect :=
  if !assertTerminalJobEvidence files status then []
  else
    let failed := cleanupFailed faults.removals
    let pending := failed || !faults.activeChildReady
    let errorClass :=
      if failed then faults.cleanupErrorClass
      else text "active_child_unsettled"
    let next :=
      { settledStatus status pending errorClass with
        updatedAt := some faults.now }
    removeArtifacts faults.removals ++
      if status.artifactCleanupPending = some pending &&
          status.artifactCleanupErrorClass =
            next.artifactCleanupErrorClass then []
      else [writeStatus faults.finalStatus next]

/-- Without a result an active job is left to wait, to be launched again or to
be given up, which are steps of their own. -/
def reconcileTerminalResult (faults : ReconcileFaults) : List Effect :=
  match files.result with
  | none => []
  | some result =>
    match terminalStatusFromResult files.status result
        { updatedAt := some faults.now } with
    | none => []
    | some recovered =>
      writeStatus faults.status recovered ::
        if faults.status.succeeds then
          scrubTerminalJobArtifacts
            (writeStatus faults.status recovered files) recovered faults
        else []

def reconcileStatus (faults : ReconcileFaults) : List Effect :=
  let initial := files.status
  if initial.jobId ≠ some files.name then []
  else if initial.state = .staged then []
  else if initial.state.terminal then
    if initial.artifactCleanupPending = some true &&
        faults.runnerCurrent = some true then []
    else scrubTerminalJobArtifacts files initial faults
  else if !initial.state.active then []
  else if faults.runnerCurrent ≠ some false then []
  else reconcileTerminalResult files faults

/-- The terminal outcome which a reader of the job is given.  Nothing is
reported of a job which has not finished, or whose files disagree. -/
def readOutcome : Option JobState :=
  let status := files.status
  let result :=
    if status.resultPersisted = some false then none else files.result
  match result with
  | none =>
    if status.resultPersisted = some false && status.state.terminal then
      some status.state
    else none
  | some result =>
    if !isTerminalManagedJobResult result status.jobId then none
    else if !status.state.active && result.state ≠ status.state then none
    else if status.state.active then some result.state
    else if status.state.terminal then some status.state
    else none

end

end MachineBridge.Jobs
