import MachineBridge.Foundation.Interference
import MachineBridge.Jobs.Status

/-!
# The runner of a managed job

The runner attempts the steps of a plan one after the other and then the finally
steps.  Every call to the outside may fail, and a cancellation may be found at
each check.  A log records what the runner does, from the latest event to the
first; the process that runs the runner is not killed.
-/

namespace MachineBridge.Jobs

open Foundation

inductive Phase where
  | steps
  | finallySteps
deriving DecidableEq

/-- A cancelled job, or any other error. -/
inductive StepError where
  | jobCancelled
  | other
deriving DecidableEq

structure StepResult where
  code : Int
  timedOut : Bool

inductive RunEvent where
  | attempted (phase : Phase) (index : Nat)
  | started (phase : Phase) (index : Nat)
  | settled (phase : Phase) (index : Nat)
  | ended (phase : Phase) (index : Nat) (result : Option StepResult)
  /-- A check found a cancellation. -/
  | observed

structure PlanStep where
  allowFailure : Bool := false

structure StepPlan where
  (steps finallySteps : List PlanStep)

def PlanStep.refuses (step : PlanStep) (result : StepResult) : Bool :=
  (result.timedOut || result.code != 0) && !step.allowFailure

/-- What a check meets: a signal that arrived since the last check, and the
marker file, unless it cannot be read. -/
structure Check where
  signal : Bool := false
  marker : Option Bool := some false

/-- A check whose marker can be read: of another one the runner would die. -/
structure Poll where
  (signal marker : Bool := false)

structure StepAnswers where
  statusWritten : Bool := true
  /-- The arguments, the environment and the input are complete. -/
  prepared : Bool := true
  entry : Check := {}
  admissionStarted : Bool := true
  admissionChecks : List Check := []
  (admitted admissionCompleted delegated : Bool := true)
  decision : Check := {}
  spawned : Bool := true
  polls : List Poll := []
  (published bound : Bool := true)
  childError : Bool := false
  (released cleared : Bool := true)
  settlement : Poll := {}
  exitCode : Option Int := some 0
  timedOut : Bool := false
  redacted : Bool := true

/-- Every call of a finally step succeeds. -/
def StepAnswers.settles (answers : StepAnswers) : Bool :=
  answers.prepared && answers.admissionStarted && answers.admitted &&
    answers.admissionCompleted && answers.delegated && answers.spawned &&
    answers.released && answers.cleared && answers.bound &&
    answers.published && !answers.childError && answers.redacted

structure JobWorld where
  cancelRequested : Bool := false
  announced : Bool := true
  /-- How the wait for the dependencies ends. -/
  gate : Except StepError Unit := .ok ()
  materialized : Bool := true
  check : Nat → Check := fun _ => {}
  step : Phase → Nat → StepAnswers := fun _ _ => {}
  cleaningWritten : Bool := true
  finalMarker : Option Bool := some false

structure Session where
  cancelRequested : Bool
  /-- Whether the resources were materialized, once it was attempted. -/
  resources : Option Bool := none
  log : List RunEvent := []

abbrev Runner := Process Session Empty StepError

namespace Runner

def note (event : RunEvent) : Runner Unit :=
  Process.modify fun session => { session with log := event :: session.log }

/-- A call to the outside, which may throw. -/
def require (done : Bool) : Runner Unit :=
  if done then pure () else Process.fail .other

def isCancellationRequested (check : Check) : Runner Bool :=
  Process.perform fun session =>
    let requested := session.cancelRequested || check.signal
    let session := { session with cancelRequested := requested }
    match if requested then some true else check.marker with
    | none => (.error .other, session)
    | some true => (.ok true, { session with log := .observed :: session.log })
    | some false => (.ok false, session)

section

variable (cancellationAware : Bool)

def throwIfCancelled (check : Check) : Runner Unit :=
  if cancellationAware then
    isCancellationRequested check >>= fun requested =>
      if requested then Process.fail .jobCancelled else pure ()
  else pure ()

def Poll.check (poll : Poll) : Check :=
  { signal := poll.signal, marker := some poll.marker }

/-- While the child runs, a cancellation terminates it. -/
def cancellationPoll (poll : Poll) : Runner Unit :=
  if cancellationAware then
    isCancellationRequested (Poll.check poll) >>= fun requested =>
      if requested then Process.modify fun session =>
        { session with cancelRequested := true }
      else pure ()
  else pure ()

end

section

variable (phase : Phase)

def spawnStep (index : Nat) (cancellationAware : Bool)
    (answers : StepAnswers) : Runner StepResult := do
  throwIfCancelled cancellationAware answers.entry
  require answers.admissionStarted
  Process.forEach (throwIfCancelled cancellationAware) answers.admissionChecks
  require answers.admitted
  require answers.admissionCompleted
  require answers.delegated
  throwIfCancelled cancellationAware answers.decision
  require answers.spawned
  note (.started phase index)
  Process.forEach (cancellationPoll cancellationAware) answers.polls
  note (.settled phase index)
  require answers.released
  require answers.cleared
  require answers.bound
  require (answers.published && !answers.childError)
  throwIfCancelled cancellationAware (Poll.check answers.settlement)
  pure { code := answers.exitCode.getD 1, timedOut := answers.timedOut }

def runStep (index : Nat) (cancellationAware : Bool)
    (answers : StepAnswers) : Runner StepResult := do
  note (.attempted phase index)
  require answers.prepared
  let raw ← spawnStep phase index cancellationAware answers
  require answers.redacted
  pure raw

/-- The end of a step is recorded, also when it throws. -/
def recorded (index : Nat) (step : Runner StepResult) : Runner StepResult := do
  match ← Process.attempt step with
  | .ok result =>
    note (.ended phase index (some result))
    pure result
  | .error error =>
    note (.ended phase index none)
    Process.fail error

end

def ensureResources (materialized : Bool) : Runner Unit :=
  Process.perform fun session =>
    let done := session.resources.getD materialized
    (if done then .ok () else .error .other,
      { session with resources := some done })

def runSteps (world : JobWorld) : Nat → List PlanStep → Runner Unit
  | _, [] => pure ()
  | index, step :: steps => do
    throwIfCancelled true (world.check index)
    require (world.step .steps index).statusWritten
    let result ← recorded .steps index
      (runStep .steps index true (world.step .steps index))
    require (!step.refuses result)
    runSteps world (index + 1) steps

def waitForDependencies : Except StepError Unit → Runner Unit
  | .ok () => pure ()
  | .error .jobCancelled => do
    note .observed
    Process.fail .jobCancelled
  | .error .other => Process.fail .other

def runMain (recover : Bool) (plan : StepPlan) (world : JobWorld) :
    Runner Unit :=
  if recover then ensureResources world.materialized
  else do
    waitForDependencies world.gate
    ensureResources world.materialized
    runSteps world 0 plan.steps

def runFinallySteps (world : JobWorld) (failed : Bool) :
    Nat → List PlanStep → Runner Bool
  | _, [] => pure failed
  | index, step :: steps => do
    require (world.step .finallySteps index).statusWritten
    let result ← recorded .finallySteps index
      (runStep .finallySteps index false (world.step .finallySteps index))
    runFinallySteps world (failed || step.refuses result) (index + 1) steps

def runFinally (plan : StepPlan) (world : JobWorld) : Runner Bool :=
  Process.inspect (fun session => session.resources.isSome) >>= fun attempted =>
  (if !plan.finallySteps.isEmpty && !attempted then
    ensureResources world.materialized
  else pure ()) >>= fun _ =>
  runFinallySteps world false 0 plan.finallySteps

def managedJobFinalStatus (recover cancelled mainError cleanupError : Bool) :
    JobState :=
  if recover then
    if mainError || cleanupError then .recoveryFailed else .recovered
  else if cancelled then
    if cleanupError then .cancelledCleanupFailed else .cancelled
  else if mainError then
    if cleanupError then .failedCleanupFailed else .failed
  else if cleanupError then .succeededCleanupFailed else .succeeded

def readMarker (marker : Option Bool) : Runner Unit :=
  if marker = some true then note .observed else pure ()

section

variable (recover : Bool)

def finalStatus (mainOutcome : Except StepError Unit)
    (cleanupOutcome : Except StepError Bool) (marker : Option Bool) :
    JobState :=
  managedJobFinalStatus recover
    (marker.any fun marker => marker || mainOutcome matches .error .jobCancelled)
    (marker.isNone || mainOutcome matches .error _)
    (cleanupOutcome matches .ok true | .error _)

def main (plan : StepPlan) (world : JobWorld) : Runner JobState := do
  require world.announced
  let mainOutcome ← Process.attempt (runMain recover plan world)
  require world.cleaningWritten
  let cleanupOutcome ← Process.attempt (runFinally plan world)
  readMarker world.finalMarker
  pure (finalStatus recover mainOutcome cleanupOutcome world.finalMarker)

/-- The final status, unless the runner fails, and the log. -/
def outcome (plan : StepPlan) (world : JobWorld) :
    Option JobState × List RunEvent :=
  let (state, ends) := main recover plan world
    { state := { cancelRequested := world.cancelRequested }, turns := [] }
  (state.toOption, ends.state.log)

end

end Runner

end MachineBridge.Jobs
