import MachineBridge.Foundation.Run
import MachineBridge.Jobs.Terminal

/-!
# The gate of a job with dependencies

A job which depends on others waits until all of them have succeeded.  It reads
the status of each again and again, and compares it with the witness which was
recorded when the job was accepted.  What cannot be read is forgiven for some
time.
-/

namespace MachineBridge.Jobs

open Foundation

/-- A deadline keeps the latest time it has seen. -/
structure MonotonicDeadline where
  (durationMs startedAt lastSample : Rat)
  ordered : startedAt ≤ lastSample

namespace MonotonicDeadline

def create (durationMs sample : Rat) : MonotonicDeadline where
  durationMs
  startedAt := sample
  lastSample := sample
  ordered := Rat.le_refl

section

variable (deadline : MonotonicDeadline)

/-- The clock is read, and may have gone back. -/
def sampled (sample : Rat) : MonotonicDeadline :=
  { deadline with
    lastSample := max deadline.lastSample sample
    ordered := deadline.ordered.trans (le_max_left _ _) }

def elapsedMs : Rat :=
  max 0 (deadline.lastSample - deadline.startedAt)

def expired : Bool :=
  decide (deadline.durationMs ≤ deadline.elapsedMs)

end

end MonotonicDeadline

def maxDependencyWaitMs : Rat := 14 * 24 * 60 * 60 * 1000

def dependencyStateReadRecoveryGraceMs : Rat := 45000

structure DependencyWitness where
  (jobId planSha256 createdAt : Text)

structure DependencyStatus extends StatusRecord where
  (planSha256 createdAt : Option Text)

inductive ReadErrorClass where
  | identityChanged
  | permissionDenied
  | resourceUnavailable
  | notFound
  | symbolicLinkDenied
  | insecureLinks
  | insecurePermissions
  | sizeLimit
  | integrityError
deriving DecidableEq

def ReadErrorClass.retryable : ReadErrorClass → Bool
  | .identityChanged | .permissionDenied | .resourceUnavailable => true
  | _ => false

/-- What the directory of a dependency gives when it is read: why it is not
found, its status, and its result if it has one. -/
structure DependencyFiles where
  directory : Option ReadErrorClass := none
  status : Except ReadErrorClass DependencyStatus
  result : Except ReadErrorClass (Option ResultRecord)

def readManagedJobDependencyStatus (files : DependencyFiles) (jobId : Text) :
    Except ReadErrorClass DependencyStatus :=
  match files.directory with
  | some errorClass => .error errorClass
  | none =>
    match files.status with
    | .error errorClass => .error errorClass
    | .ok status =>
      if status.state.terminal then .ok status
      else
        match files.result with
        | .error errorClass => .error errorClass
        | .ok none => .ok status
        | .ok (some result) =>
          if !isTerminalManagedJobResult result (some jobId) then
            .error .resourceUnavailable
          else
            match terminalStatusFromResult status.toStatusRecord result
                { resultPersisted := true
                  updatedAt := result.finishedAt } with
            | none => .error .resourceUnavailable
            | some terminal => .ok { status with toStatusRecord := terminal }

section

variable (status : DependencyStatus)

def DependencyStatus.matches (witness : DependencyWitness) (jobId : Text) :
    Bool :=
  status.jobId == some jobId && status.planSha256 == some witness.planSha256 &&
    status.createdAt == some witness.createdAt

def managedJobDependencySucceeded : Bool :=
  status.state == .succeeded && status.resultPersisted != some false

end

structure DependencyProgress where
  (total pending completed : Nat)

inductive GateFailure where
  | witnessSetInvalid
  | witnessSetMismatch
  | timeout (count : Nat)
  | cancelled
  | reportFailed
  | unavailable (jobId : Text) (cause : ReadErrorClass)
  | changed (jobId : Text)
  | failed (jobId : Text) (state : JobState) (errorClass : Option Text)
  | nonExecutable (jobId : Text) (state : JobState)

/-- What reading a dependency gives, and the time when an error is noticed. -/
structure DependencyRead where
  outcome : Except ReadErrorClass DependencyStatus
  sample : Rat

/-- One round: the times of its beginning and of its end, whether the job has
been cancelled, whether a report of the progress fails, and the reads by the
places of the dependencies. -/
structure DependencyPoll where
  started : Rat
  (cancelled reportFails : Bool := false)
  reads : Nat → DependencyRead
  ended : Rat

structure GateState where
  deadline : MonotonicDeadline
  unavailableSince : Text → Option Rat := fun _ => none
  previousPending : Option Nat := none
  reports : List DependencyProgress := []

inductive DependencyGate where
  | waiting (state : GateState)
  | opened (progress : DependencyProgress)
  | failed (failure : GateFailure)

def witnessOf (witnesses : List DependencyWitness) (jobId : Text) :
    Option DependencyWitness :=
  witnesses.find? (·.jobId == jobId)

variable (witnesses : List DependencyWitness)

/-- One dependency; the answer is whether it is still pending. -/
def readDependency (state : GateState) (jobId : Text) (read : DependencyRead) :
    Except GateFailure (GateState × Bool) :=
  match read.outcome with
  | .error errorClass =>
    let deadline := state.deadline.sampled read.sample
    let elapsedMs := deadline.elapsedMs
    let since := (state.unavailableSince jobId).getD elapsedMs
    if errorClass.retryable &&
        decide (elapsedMs - since < dependencyStateReadRecoveryGraceMs) then
      .ok ({ state with
        deadline
        unavailableSince :=
          Function.update state.unavailableSince jobId (some since) }, true)
    else .error (.unavailable jobId errorClass)
  | .ok status =>
    let next :=
      { state with
        unavailableSince :=
          Function.update state.unavailableSince jobId none }
    if !(witnessOf witnesses jobId).any (status.matches · jobId) then
      .error (.changed jobId)
    else if managedJobDependencySucceeded status then .ok (next, false)
    else if status.state.terminal then
      .error (.failed jobId status.state status.errorClass)
    else if !status.state.active then
      .error (.nonExecutable jobId status.state)
    else .ok (next, true)

/-- The dependencies from a place on, with the number of those which are
pending. -/
def readDependencies (poll : DependencyPoll) :
    GateState → Nat → Nat → List Text → Except GateFailure (GateState × Nat)
  | state, pending, _, [] => .ok (state, pending)
  | state, pending, index, jobId :: rest =>
    match readDependency witnesses state jobId (poll.reads index) with
    | .error failure => .error failure
    | .ok (next, waits) =>
      readDependencies poll next
        (if waits then pending + 1 else pending) (index + 1) rest

variable (dependencyIds : List Text)

def progressOf (pending : Nat) : DependencyProgress where
  total := dependencyIds.length
  pending
  completed := dependencyIds.length - pending

/-- After the reads of a round. -/
def finishPoll (poll : DependencyPoll) (state : GateState) (pending : Nat) :
    DependencyGate :=
  let progress := progressOf dependencyIds pending
  if state.previousPending ≠ some pending ∧ poll.reportFails = true then
    .failed .reportFailed
  else if pending = 0 then .opened progress
  else
    .waiting
      { state with
        deadline := state.deadline.sampled poll.ended
        previousPending := some pending
        reports :=
          if state.previousPending = some pending then state.reports
          else state.reports ++ [progress] }

def pollDependencies (state : GateState) (poll : DependencyPoll) :
    DependencyGate :=
  let deadline := state.deadline.sampled poll.started
  if deadline.expired then .failed (.timeout dependencyIds.length)
  else if poll.cancelled then .failed .cancelled
  else
    match readDependencies witnesses poll { state with deadline } 0 0
        dependencyIds with
    | .error failure => .failed failure
    | .ok (next, pending) => finishPoll dependencyIds poll next pending

def DependencyGate.step (gate : DependencyGate) (poll : DependencyPoll) :
    DependencyGate :=
  match gate with
  | .waiting state => pollDependencies witnesses dependencyIds state poll
  | .opened progress => .opened progress
  | .failed failure => .failed failure

/-- The witnesses are those of different jobs, one for each dependency. -/
def openGate (sample : Rat) : DependencyGate :=
  let ids := witnesses.map (·.jobId)
  if dependencyIds = [] then
    .opened { total := 0, pending := 0, completed := 0 }
  else if ids.contains [] || !decide ids.Nodup then
    .failed .witnessSetInvalid
  else if ids.length ≠ dependencyIds.length ||
      dependencyIds.any (!ids.contains ·) then
    .failed .witnessSetMismatch
  else
    .waiting { deadline := .create maxDependencyWaitMs sample }

/-- The gate after some polls, from the reading of the clock at the start. -/
def waitForManagedJobDependencies (sample : Rat)
    (polls : List DependencyPoll) : DependencyGate :=
  run (DependencyGate.step witnesses dependencyIds)
    (openGate witnesses dependencyIds sample) polls

end MachineBridge.Jobs
