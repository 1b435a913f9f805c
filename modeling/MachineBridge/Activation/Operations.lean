import MachineBridge.Foundation.Interference
import Mathlib.Data.Int.Order.Basic

/-!
# The operations of a runtime activation

An activation is handed its operations: it takes locks, inspects and stops the
previous service, prepares the remote state, runs a candidate and installs and
starts the service.  Each operation answers or throws as the environment
decides, and the activation keeps its own variables.  The events are what the
operations were asked and what they answered, the latest first.
-/

namespace MachineBridge.Activation

open Foundation

inductive ErrorKind where
  | error
  | typeError
  | rangeError
  | aggregate
deriving DecidableEq

def ErrorKind.name : ErrorKind → String
  | .error => "Error"
  | .typeError => "TypeError"
  | .rangeError => "RangeError"
  | .aggregate => "AggregateError"

structure ActivationError where
  kind : ErrorKind := .error
  message : String
  code : Option String := none
  (cleanupIncomplete recoveryBlocked deploymentSucceeded : Bool := false)
  daemonOwnershipRetained : Bool := false
  activationRecovery : Option String := none

def activationErrorMessage (error : ActivationError) : String :=
  if error.message.isEmpty then error.kind.name else error.message

def activationOperationalError (message code : String) : ActivationError where
  message := message
  code := some code

structure LockOwner where
  pid : Option Nat
  mode : String

/-- What the acquisition of a lock answers.  A lock which cannot be released
lacks the function for it. -/
structure LockAnswer where
  (acquired releasable : Bool)
  owner : LockOwner

structure DaemonReport where
  (alive verifiedServiceDaemon startupReadinessVerified : Bool)
  (mode version identityReason : String)
  pid : Option Nat

structure WorkerReport where
  ok : Bool
  (version error : String)

structure RuntimeIdentity where
  (version entryScript : String)

structure OwnershipAnswer where
  daemon : DaemonReport
  providerActive : Option Bool
  provider : String
  previousRuntime : RuntimeIdentity

structure StopAnswer where
  ok : Bool
  (activeBefore active restoreRequired : Option Bool)
  provider : String

structure StartAnswer where
  (ok active : Bool)
  provider : String

/-- The transaction of a pending owner, when an installation carries one. -/
inductive TransactionAnswer where
  | absent
  | invalid
  | pending (owner : String)

structure InstallAnswer where
  ok : Bool
  provider : String
  transaction : TransactionAnswer

/-- Which runtime object was created. -/
abbrev Candidate := Nat

/-- What `prepareRemoteState` and its repair do: whether they reported that the
remote state was prepared, and their outcome. -/
structure Preparation (Readiness : Type) where
  reported : Bool
  outcome : Except ActivationError Readiness

abbrev Operation (σ α : Type) := σ → Except ActivationError α × σ

inductive LockName where
  | service
  | startup
  | daemon
deriving DecidableEq

def LockName.shown : LockName → String
  | .service => "machine-service"
  | .startup => "startup"
  | .daemon => "daemon"

structure Operations (σ Readiness : Type) where
  (acquireServiceLock acquireStartupLock : Operation σ LockAnswer)
  acquireDaemonLock : Operation σ LockAnswer
  release : LockName → Operation σ PUnit
  inspectActivationOwnership : Operation σ OwnershipAnswer
  preflightRestartability : String → Bool → Option RuntimeIdentity →
    Operation σ PUnit
  stopAutostart : Operation σ StopAnswer
  prepareRemoteState : σ → Preparation Readiness × σ
  repairRemoteState : Option (Nat → ActivationError → Readiness → σ →
    Preparation Readiness × σ)
  createRuntime : Readiness → Operation σ (Option Candidate)
  startCandidate : Candidate → Operation σ PUnit
  stopCandidate : Candidate → Operation σ PUnit
  terminalError : Candidate → Operation σ (Option ActivationError)
  installAutostart : Operation σ InstallAnswer
  startAutostart : Option String → Operation σ StartAnswer
  startRecoveryAutostart : Option (Option String → Operation σ StartAnswer)
  restorePreviousAutostart : Option (Option String → Operation σ StartAnswer)
  inspectDaemon : Operation σ DaemonReport
  inspectCandidateAutostart : Option (Operation σ DaemonReport)
  inspectPreviousAutostart : Option (RuntimeIdentity →
    Operation σ DaemonReport)
  checkWorker : Operation σ WorkerReport
  commit : String → Operation σ Bool
  candidateRetryWait : Nat → Operation σ PUnit
  wait : Nat → Operation σ PUnit

structure ActivationOptions where
  expectedVersion : String
  (maximumAttempts candidateStartAttempts : Option Int := none)
  restoreStartAttempts : Option Int := none

inductive ActivationEvent where
  | acquired (lock : LockName)
  | released (lock : LockName) (returned : Bool)
  | ownership (answer : OwnershipAnswer)
  | stopped (answer : Option StopAnswer)
  | created (candidate : Candidate)
  | candidateStopped (candidate : Candidate) (returned : Bool)
  | installed (answer : InstallAnswer)
  | started
  | inspected (daemon : DaemonReport)
  | checked (worker : WorkerReport)
  | inspectedPrevious (daemon : DaemonReport)
  | committed (owner : String)

/-- The variables of `activatePersistentRuntime`. -/
structure ActivationLocals where
  (startupLock startupReleased serviceLock : Bool := false)
  daemonLock : Option LockAnswer := none
  candidateRuntime : Option Candidate := none
  (candidateRelayVerified candidateRecoveryRedeployed : Bool := false)
  (remotePrepared autostartInstalled : Bool := false)
  serviceOwnerTransaction : Option String := none
  providerStopped : Bool := false
  previousServiceRuntime : Option RuntimeIdentity := none
  serviceStarted : Bool := false

structure ActivationState (σ : Type) where
  environment : σ
  locals : ActivationLocals := {}
  events : List ActivationEvent := []

abbrev ActivationProcess (σ α : Type) :=
  Process (ActivationState σ) Empty ActivationError α

section Steps

variable {σ α : Type}

def ask (operation : Operation σ α)
    (shown : Except ActivationError α → List ActivationEvent) :
    ActivationProcess σ α :=
  Process.perform fun state =>
    match operation state.environment with
    | (answer, environment) =>
      (answer, { state with
        environment
        events := shown answer ++ state.events })

def silent : Except ActivationError α → List ActivationEvent := fun _ => []

def answered (event : α → ActivationEvent) :
    Except ActivationError α → List ActivationEvent
  | .ok value => [event value]
  | .error _ => []

def assign (change : ActivationLocals → ActivationLocals) :
    ActivationProcess σ PUnit :=
  Process.modify fun state => { state with locals := change state.locals }

def locals : ActivationProcess σ ActivationLocals :=
  Process.inspect ActivationState.locals

def require (condition : Bool) (error : ActivationError) :
    ActivationProcess σ PUnit :=
  if condition then pure ⟨⟩ else Process.fail error

end Steps

end MachineBridge.Activation
