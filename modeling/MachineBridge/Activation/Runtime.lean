import MachineBridge.Activation.Operations

/-!
# Activating the persistent runtime

`activatePersistentRuntime` takes the locks, stops the previous service, runs a
candidate until its relay is verified, installs the service, stops the candidate
and starts the service in its place.  When anything fails, the settlement stops
the candidate, releases the locks and restores a compatible service.
-/

namespace MachineBridge.Activation

open Foundation

variable {σ Readiness : Type}

def isVersionCharacter (character : Char) : Bool :=
  character.isAlphanum || character == '.' || character == '+' ||
    character == '-'

/-- `^[0-9A-Za-z.+-]{1,128}$` -/
def requiredExpectedVersion (value : String) : Except ActivationError String :=
  if 1 ≤ value.length && value.length ≤ 128 &&
      value.toList.all isVersionCharacter then .ok value
  else .error {
    kind := .typeError
    message := "runtime activation expectedVersion must be a bounded package version string" }

def bounded (maximum : Int) (message : String) (value : Int) :
    Except ActivationError Nat :=
  if value < 1 || maximum < value then .error { message }
  else .ok value.toNat

def boundedAttempts : Int → Except ActivationError Nat :=
  bounded 1200 "runtime activation attempts must be between 1 and 1200"

def boundedCandidateStartAttempts : Int → Except ActivationError Nat :=
  bounded 10 "candidate relay start attempts must be between 1 and 10"

def boundedRestoreStartAttempts : Int → Except ActivationError Nat :=
  bounded 60 "runtime activation restore-start attempts must be between 1 and 60"

structure Attempts where
  expectedVersion : String
  (maximumAttempts candidateStartAttempts restoreStartAttempts : Nat)

def validateOptions (options : ActivationOptions) :
    Except ActivationError Attempts := do
  let expectedVersion ← requiredExpectedVersion options.expectedVersion
  let maximumAttempts ← boundedAttempts (options.maximumAttempts.getD 240)
  let candidateStartAttempts ←
    boundedCandidateStartAttempts (options.candidateStartAttempts.getD 10)
  let restoreStartAttempts ←
    boundedRestoreStartAttempts (options.restoreStartAttempts.getD 30)
  return {
    expectedVersion
    maximumAttempts
    candidateStartAttempts
    restoreStartAttempts }

section

variable (value : String)

/-- `value || fallback` -/
def orUnknown : String :=
  if value.isEmpty then "unknown" else value

def orUnverified : String :=
  if value.isEmpty then "unverified" else value

def orNotReady : String :=
  if value.isEmpty then "not_ready" else value

end

def shownPid : Option Nat → String
  | some 0 => "unknown"
  | some pid => toString pid
  | none => "unknown"

section

variable (answer : OwnershipAnswer)

/-- Whether a verified service daemon of the selected workspace is running. -/
def OwnershipAnswer.previousActive : Bool :=
  answer.daemon.alive && answer.daemon.verifiedServiceDaemon &&
    answer.daemon.mode == "service"

def validateActivationOwnership :
    Except ActivationError (Bool × Option RuntimeIdentity) :=
  let daemon := answer.daemon
  if answer.providerActive.isNone then
    .error { message :=
      s!"the machine autostart state could not be verified before activation ({orUnknown answer.provider})" }
  else if daemon.alive && (daemon.mode == "foreground" ||
      daemon.identityReason == "foreground_daemon") then
    .error { message :=
      s!"a foreground daemon is active (pid {shownPid daemon.pid}); stop it explicitly before activation" }
  else if daemon.alive && (!daemon.verifiedServiceDaemon ||
      daemon.mode != "service") then
    .error { message :=
      s!"the existing workspace daemon identity could not be verified before activation ({orUnknown daemon.identityReason})" }
  else if answer.providerActive == some true && !answer.previousActive then
    .error { message :=
      "refusing to stop the active machine service because the selected workspace does not own its verified daemon" }
  else if !answer.previousActive then .ok (false, none)
  else if answer.previousRuntime.version.isEmpty ||
      answer.previousRuntime.entryScript.isEmpty then
    .error { message :=
      "the previous service daemon identity evidence is incomplete before activation" }
  else .ok (true, some answer.previousRuntime)

end

def validateProviderStop (answer : StopAnswer) : Except ActivationError Bool :=
  if !answer.ok then
    .error (activationOperationalError
      s!"the existing autostart service could not be stopped before activation ({orUnknown answer.provider})"
      "autostart_stop_failed")
  else match answer.activeBefore, answer.active, answer.restoreRequired with
  | some _, some false, some restoreRequired => .ok restoreRequired
  | _, _, _ => .error { message :=
      s!"the existing autostart stop state could not be verified before activation ({orUnknown answer.provider})" }

section Services

variable (operations : Operations σ Readiness)

def releaseLock (lock : LockName) : ActivationProcess σ PUnit :=
  ask (operations.release lock) fun result => [.released lock result.isOk]

def requireReleasableLock (lock : LockAnswer) (name : LockName) :
    ActivationProcess σ PUnit :=
  require lock.releasable {
    kind := .typeError
    message := s!"runtime activation {name.shown} lock must expose release" }

/-- A lock is held when it was granted with a function to release it. -/
def acquiredEvent (lock : LockName) :
    Except ActivationError LockAnswer → List ActivationEvent
  | .ok answer =>
    if answer.acquired && answer.releasable then [.acquired lock] else []
  | .error _ => []

/-- The startup lock is granted whenever its acquisition returns. -/
def startupEvent :
    Except ActivationError LockAnswer → List ActivationEvent
  | .ok answer => if answer.releasable then [.acquired .startup] else []
  | .error _ => []

def stopAutostart : ActivationProcess σ StopAnswer :=
  ask operations.stopAutostart fun
    | .ok answer => [.stopped (some answer)]
    | .error _ => [.stopped none]

def stopCandidate (candidate : Candidate) : ActivationProcess σ PUnit :=
  ask (operations.stopCandidate candidate) fun result =>
    [.candidateStopped candidate result.isOk]

def installAutostart : ActivationProcess σ InstallAnswer :=
  ask operations.installAutostart (answered .installed)

def startService (start : Option String → Operation σ StartAnswer)
    (owner : Option String) : ActivationProcess σ StartAnswer :=
  ask (start owner) fun _ => [.started]

def requireActiveServiceStart (answer : StartAnswer) (operation : String)
    (code : Option String) : ActivationProcess σ PUnit :=
  require (answer.ok && answer.active) {
    message := s!"{operation} did not reach an active persistent service ({orUnknown answer.provider})"
    code := code }

def deferredServiceOwnerTransaction (answer : InstallAnswer) :
    ActivationProcess σ (Option String) :=
  match answer.transaction with
  | .absent => pure none
  | .invalid => Process.fail {
      message := "candidate service owner transaction is invalid" }
  | .pending owner => pure (some owner)

section

variable (expectedVersion : String)

def convergedDaemon (daemon : DaemonReport) : Bool :=
  daemon.alive && daemon.verifiedServiceDaemon &&
    daemon.startupReadinessVerified && daemon.version == expectedVersion

def convergedWorker (worker : WorkerReport) : Bool :=
  worker.ok && worker.version == expectedVersion

end

structure Convergence where
  attempts : Nat
  daemon : DaemonReport
  worker : Option WorkerReport

section

variable (expectedVersion : String)

def daemonReason : Option DaemonReport → List String
  | none => ["daemon_not_running"]
  | some daemon =>
    if !daemon.alive then ["daemon_not_running"]
    else if !daemon.verifiedServiceDaemon then
      [s!"daemon_identity_{orUnverified daemon.identityReason}"]
    else if !daemon.startupReadinessVerified then
      ["daemon_startup_readiness_unverified"]
    else if daemon.version != expectedVersion then
      [s!"daemon_version_{orUnknown daemon.version}"]
    else []

def workerReason : Option WorkerReport → List String
  | none => ["worker_not_ready"]
  | some worker =>
    if !worker.ok then
      [s!"worker_{orNotReady worker.error}"]
    else if worker.version != expectedVersion then
      [s!"worker_version_{orUnknown worker.version}"]
    else []

def convergenceReason (daemon : Option DaemonReport)
    (worker : Option WorkerReport) : String :=
  let reasons :=
    daemonReason expectedVersion daemon ++ workerReason expectedVersion worker
  if reasons.isEmpty then "activation_not_converged"
  else ",".intercalate reasons

/-- Wait between two attempts. -/
def pause (remaining attempt : Nat) : ActivationProcess σ PUnit :=
  if remaining = 0 then pure ⟨⟩ else ask (operations.wait attempt) silent

def checkConverged (daemon : DaemonReport) (worker : Option WorkerReport) :
    ActivationProcess σ (Option WorkerReport × Bool) :=
  if convergedDaemon expectedVersion daemon then do
    let worker ← ask operations.checkWorker (answered .checked)
    pure (some worker, convergedWorker expectedVersion worker)
  else pure (worker, false)

end

/-- The attempts that are left, after the ones with the given last reports. -/
def waitForActivatedRuntime (inspectDaemon : Operation σ DaemonReport)
    (expectedVersion : String) (attempts : Nat) :
    Nat → Option DaemonReport → Option WorkerReport →
      ActivationProcess σ (Except String Convergence)
  | 0, daemon, worker =>
    pure (.error (convergenceReason expectedVersion daemon worker))
  | remaining + 1, _, worker => do
    let daemon ← ask inspectDaemon (answered .inspected)
    let checked ← checkConverged operations expectedVersion daemon worker
    if checked.2 then
      pure (.ok {
        attempts := attempts - remaining
        daemon
        worker := checked.1 })
    else do
      pause operations remaining (attempts - remaining)
      waitForActivatedRuntime inspectDaemon expectedVersion attempts
        remaining (some daemon) checked.1

def restoredServiceReady (daemon : DaemonReport) (expectedVersion : String) :
    Bool :=
  daemon.alive && daemon.verifiedServiceDaemon && daemon.mode == "service" &&
    daemon.version == expectedVersion

def restoredServiceFailureReason (daemon : Option DaemonReport)
    (expectedVersion : String) : String :=
  match daemon with
  | none => "daemon_not_running"
  | some daemon =>
    if !daemon.alive then "daemon_not_running"
    else if !daemon.verifiedServiceDaemon then
      s!"daemon_identity_{orUnverified daemon.identityReason}"
    else if daemon.mode != "service" then
      s!"daemon_mode_{orUnknown daemon.mode}"
    else if daemon.version == expectedVersion then "service_not_stable"
    else s!"daemon_version_{orUnknown daemon.version}"

def restorePreviousServiceUntilReady
    (restorePrevious : Option String → Operation σ StartAnswer)
    (inspectPrevious : Operation σ DaemonReport) (expectedVersion : String)
    (attempts : Nat) : Nat → Option DaemonReport → Option StartAnswer →
      ActivationProcess σ (Option StartAnswer × Convergence)
  | 0, daemon, _ => Process.fail { message :=
      s!"previous autostart service recovery did not converge ({restoredServiceFailureReason daemon expectedVersion})" }
  | remaining + 1, _, serviceStart => do
    let restored ← Process.attempt (startService restorePrevious none)
    let serviceStart := restored.toOption.or serviceStart
    let daemon ← ask inspectPrevious (answered .inspectedPrevious)
    if restoredServiceReady daemon expectedVersion then
      pure (serviceStart,
        { attempts := attempts - remaining, daemon, worker := none })
    else do
      pause operations remaining (attempts - remaining)
      restorePreviousServiceUntilReady restorePrevious inspectPrevious
        expectedVersion attempts remaining (some daemon) serviceStart

def ownerCommitFailure (stopError : Bool) : ActivationError :=
  let message := "candidate service reached verified readiness but its machine service owner could not be committed; the provider was stopped and the pending owner was retained for explicit recovery"
  if stopError then {
    kind := .aggregate
    message := message ++ "; provider stop could not be verified"
    code := some "service_owner_commit_failed"
    recoveryBlocked := true
    cleanupIncomplete := true }
  else {
    message
    code := some "service_owner_commit_failed"
    recoveryBlocked := true }

def commitOwner (owner : String) : ActivationProcess σ PUnit := do
  let committed ← ask (operations.commit owner) fun
    | .ok true => [.committed owner]
    | _ => []
  require committed { message :=
    "machine service owner commit did not return committed state" }

def commitVerifiedServiceOwner (owner : String) :
    ActivationProcess σ PUnit := do
  let committed ← Process.attempt (commitOwner operations owner)
  match committed with
  | .ok _ => pure ⟨⟩
  | .error _ => do
    let stopped ← Process.attempt (stopAutostart operations)
    match stopped with
    | .ok answer =>
      Process.fail (ownerCommitFailure
        (!answer.ok || answer.active != some false))
    | .error _ => Process.fail (ownerCommitFailure true)

def stopUncommittedCandidate (primaryError : ActivationError) :
    ActivationProcess σ ActivationError := do
  let stopped ← Process.attempt (stopAutostart operations)
  match stopped with
  | .ok answer =>
    if answer.ok && answer.active == some false then pure primaryError
    else pure {
      kind := .aggregate
      message := s!"{activationErrorMessage primaryError}; uncommitted candidate service stop could not be verified"
      cleanupIncomplete := true }
  | .error _ => pure {
      kind := .aggregate
      message := s!"{activationErrorMessage primaryError}; uncommitted candidate service stop failed"
      cleanupIncomplete := true }

def recoverableCandidateStartError (error : ActivationError) : Bool :=
  error.code == some "relay_authentication_failed"

/-- Set the mark of a prepared remote state when it was reported, whether or
not the preparation then fails. -/
def prepare (operation : σ → Preparation Readiness × σ) :
    ActivationProcess σ Readiness :=
  Process.perform fun state =>
    match operation state.environment with
    | (preparation, environment) =>
      (preparation.outcome, { state with
        environment
        locals := { state.locals with
          remotePrepared :=
            state.locals.remotePrepared || preparation.reported } })

def repairCandidate (attempt : Nat) (error : ActivationError)
    (readiness : Readiness) (repaired : Bool) :
    ActivationProcess σ (Readiness × Bool) :=
  match repaired, operations.repairRemoteState with
  | false, some repair => do
    let readiness ← prepare (repair attempt error readiness)
    assign fun locals => { locals with remotePrepared := true }
    pure (readiness, true)
  | _, _ => pure (readiness, repaired)

def stopFailedCandidate (candidate : Candidate) :
    ActivationProcess σ PUnit := do
  stopCandidate operations candidate
  assign fun locals => { locals with candidateRuntime := none }

/-- The attempts that are left, after `attempt` failed ones. -/
def startCandidateWithRecovery :
    Nat → Nat → Readiness → Bool → ActivationProcess σ (Candidate × Bool)
  | 0, _, _, _ => Process.fail { message := "candidate relay did not start" }
  | remaining + 1, attempt, readiness, repaired => do
    let created ← ask (operations.createRuntime readiness) fun
      | .ok (some candidate) => [.created candidate]
      | _ => []
    match created with
    | none => Process.fail {
        kind := .typeError
        message := "runtime activation candidate must expose start and stop" }
    | some candidate => do
      assign fun locals => { locals with candidateRuntime := some candidate }
      let started ← Process.attempt
        (ask (operations.startCandidate candidate) silent)
      match started with
      | .ok _ => pure (candidate, repaired)
      | .error error => do
        let stopped ← Process.attempt
          (stopFailedCandidate operations candidate)
        match stopped with
        | .error _ => Process.fail {
            kind := .aggregate
            message := "candidate relay start failed and runtime cleanup was incomplete"
            cleanupIncomplete := true }
        | .ok _ => do
          require
            (recoverableCandidateStartError error && remaining != 0)
            error
          let repair ← repairCandidate operations (attempt + 1)
            error readiness repaired
          ask (operations.candidateRetryWait (attempt + 1)) silent
          startCandidateWithRecovery remaining (attempt + 1)
            repair.1 repair.2

def fromExcept {α : Type} : Except ActivationError α → ActivationProcess σ α
  | .ok value => pure value
  | .error error => Process.fail error

/-- The service lock first, then the startup lock. -/
def acquireLocks : ActivationProcess σ PUnit := do
  let service ← ask operations.acquireServiceLock (acquiredEvent .service)
  require service.acquired { message :=
    s!"another machine-service operation is active (pid {shownPid service.owner.pid})" }
  requireReleasableLock service .service
  assign fun locals => { locals with serviceLock := true }
  let startup ← ask operations.acquireStartupLock startupEvent
  requireReleasableLock startup .startup
  assign fun locals => { locals with startupLock := true }

def stopPrevious (expectedVersion : String) : ActivationProcess σ PUnit := do
  let answer ← ask operations.inspectActivationOwnership (answered .ownership)
  let ownership ← fromExcept (validateActivationOwnership answer)
  assign fun locals => { locals with previousServiceRuntime := ownership.2 }
  ask (operations.preflightRestartability expectedVersion ownership.1
    ownership.2) silent
  assign fun locals => { locals with providerStopped := ownership.1 }
  let stopped ← stopAutostart operations
  let restoreRequired ← fromExcept (validateProviderStop stopped)
  assign fun locals =>
    { locals with providerStopped := restoreRequired || ownership.1 }

def daemonLockRefusal (owner : LockOwner) : ActivationError :=
  if owner.mode == "foreground" then { message :=
    s!"a foreground daemon is active (pid {shownPid owner.pid}); stop it explicitly before activation" }
  else { message :=
    s!"the existing daemon could not be taken over (pid {shownPid owner.pid})" }

def acquireDaemonLock : ActivationProcess σ PUnit := do
  let lock ← ask operations.acquireDaemonLock (acquiredEvent .daemon)
  assign fun locals => { locals with daemonLock := some lock }
  require lock.acquired (daemonLockRefusal lock.owner)
  requireReleasableLock lock .daemon

def prepareRemoteState : ActivationProcess σ Readiness := do
  let prepared ← Process.attempt (prepare operations.prepareRemoteState)
  match prepared with
  | .ok readiness => do
    assign fun locals => { locals with remotePrepared := true }
    pure readiness
  | .error error => do
    assign fun locals => { locals with
      remotePrepared := locals.remotePrepared || error.deploymentSucceeded }
    Process.fail error

def runCandidate (attempts : Nat) : ActivationProcess σ Candidate := do
  let readiness ← prepareRemoteState operations
  let candidate ←
    startCandidateWithRecovery operations attempts 0 readiness false
  assign fun locals => { locals with
    candidateRuntime := some candidate.1
    candidateRelayVerified := true
    candidateRecoveryRedeployed := candidate.2 }
  pure candidate.1

section

variable (candidate : Candidate)

def requireNoTerminalError : ActivationProcess σ PUnit := do
  let terminalError ← ask (operations.terminalError candidate) silent
  match terminalError with
  | some error => Process.fail error
  | none => pure ⟨⟩

def installCandidate : ActivationProcess σ PUnit := do
  let answer ← installAutostart operations
  let transaction ← deferredServiceOwnerTransaction answer
  assign fun locals => { locals with serviceOwnerTransaction := transaction }
  requireNoTerminalError operations candidate
  require answer.ok (activationOperationalError
    s!"autostart installation failed ({orUnknown answer.provider})"
    "autostart_install_failed")
  assign fun locals => { locals with autostartInstalled := true }

/-- The candidate gives way to the installed service. -/
def handOver : ActivationProcess σ StartAnswer := do
  stopCandidate operations candidate
  assign fun locals => { locals with candidateRuntime := none }
  releaseLock operations .daemon
  assign fun locals => { locals with daemonLock := none }
  releaseLock operations .startup
  assign fun locals => { locals with startupReleased := true }
  let locals ← locals
  let start ← startService operations.startAutostart
    locals.serviceOwnerTransaction
  requireActiveServiceStart start "autostart start"
    (some "autostart_start_failed")
  assign fun locals => { locals with serviceStarted := true }
  pure start

end

def commitTransaction (owner : Option String) : ActivationProcess σ PUnit :=
  match owner with
  | some owner => do
    commitVerifiedServiceOwner operations owner
    assign fun locals => { locals with serviceOwnerTransaction := none }
  | none => pure ⟨⟩

def verifyService (attempts : Attempts) : ActivationProcess σ Convergence := do
  let convergence ← waitForActivatedRuntime operations
    operations.inspectDaemon attempts.expectedVersion attempts.maximumAttempts
    attempts.maximumAttempts none none
  let convergence ← fromExcept (convergence.mapError fun reason =>
    { message := s!"persistent runtime activation did not converge ({reason})" })
  let locals ← locals
  commitTransaction operations locals.serviceOwnerTransaction
  releaseLock operations .service
  assign fun locals => { locals with serviceLock := false }
  pure convergence

structure ActivationSuccess where
  serviceStart : Option StartAnswer
  convergence : Convergence
  (candidateRelayVerified candidateRecoveryRedeployed : Bool)
  activationRecovered : Bool := false
  (recoveryReason recoveryDetail : String := "")

def detailByReason (reason : String) : Option String :=
  if reason = "relay_authentication_failed" then
    some "candidate relay authentication failed after readiness"
  else if reason = "autostart_install_failed" then
    some "candidate autostart installation failed after readiness"
  else if reason = "autostart_start_failed" then
    some "candidate autostart start failed after readiness"
  else none

/-- What the restoration did: a start of the candidate's service with its
convergence, or of the previous one, or nothing. -/
inductive Restoration where
  | candidate (serviceStart : StartAnswer) (convergence : Convergence)
  | previous (serviceStart : Option StartAnswer) (convergence : Convergence)
  | none

section

variable (error : ActivationError)

def activationCleanupFailure (cleanupErrors : List ActivationError)
    (daemonOwnershipRetained : Bool) : ActivationError :=
  let details := "; ".intercalate
    ((cleanupErrors.take 4).map activationErrorMessage)
  let retained :=
    if daemonOwnershipRetained then "; daemon ownership retained" else ""
  { kind := .aggregate
    message := s!"persistent runtime activation failed: {activationErrorMessage error}; local cleanup was incomplete: {details}{retained}"
    code := error.code
    cleanupIncomplete := true
    daemonOwnershipRetained }

def activationFailureWithRecovery : ActivationError :=
  { kind := error.kind
    message := s!"{activationErrorMessage error}; a compatible candidate service was installed, started, and verified ready for automatic recovery"
    code := error.code
    activationRecovery := some "candidate_service_started" }

end

def commitPending (owner : Option String) : ActivationProcess σ PUnit :=
  match owner with
  | some owner => commitVerifiedServiceOwner operations owner
  | none => pure ⟨⟩

section

variable (attempts : Attempts)

/-- Start the candidate's service again and commit its owner. -/
def startRecovery (owner : Option String) :
    ActivationProcess σ Restoration := do
  let start ← startService
    (operations.startRecoveryAutostart.getD operations.startAutostart) owner
  requireActiveServiceStart start
    "compatible candidate autostart service recovery" none
  let convergence ← waitForActivatedRuntime operations
    (operations.inspectCandidateAutostart.getD operations.inspectDaemon)
    attempts.expectedVersion attempts.maximumAttempts attempts.maximumAttempts
    none none
  let convergence ← fromExcept (convergence.mapError fun reason => { message :=
    s!"compatible candidate autostart recovery did not converge ({reason})" })
  commitPending operations owner
  pure (.candidate start convergence)

def restoreCandidate (owner : Option String) :
    ActivationProcess σ Restoration := do
  let recovered ← Process.attempt (startRecovery operations attempts owner)
  match recovered with
  | .ok restoration => pure restoration
  | .error error =>
    if owner.isNone || error.recoveryBlocked then Process.fail error
    else do
      let failure ← stopUncommittedCandidate operations error
      Process.fail failure

def installDefinition (owner : Option String) (required : Bool) :
    ActivationProcess σ (Option String) :=
  if required then do
    let answer ← installAutostart operations
    let transaction ← deferredServiceOwnerTransaction answer
    require answer.ok { message :=
      s!"compatible candidate autostart could not be installed ({orUnknown answer.provider})" }
    pure (transaction.or owner)
  else pure owner

def restorePrevious (previous : Option RuntimeIdentity) :
    ActivationProcess σ Restoration :=
  match previous, operations.inspectPreviousAutostart with
  | some previous, some inspectPrevious => do
    let recovery ← restorePreviousServiceUntilReady operations
      (operations.restorePreviousAutostart.getD operations.startAutostart)
      (inspectPrevious previous) previous.version
      attempts.restoreStartAttempts attempts.restoreStartAttempts none none
    pure (.previous recovery.1 recovery.2)
  | _, _ => Process.fail { message :=
      "previous autostart service recovery lacks verified runtime identity evidence" }

def restoreCompatibleProvider (locals : ActivationLocals) :
    ActivationProcess σ Restoration :=
  if (locals.serviceStarted && locals.serviceOwnerTransaction.isNone) ||
      (!locals.remotePrepared && !locals.providerStopped) then
    pure .none
  else do
    let owner ← installDefinition operations locals.serviceOwnerTransaction
      (locals.remotePrepared && !locals.autostartInstalled)
    if locals.remotePrepared then restoreCandidate operations attempts owner
    else restorePrevious operations attempts locals.previousServiceRuntime

def errorsOf {α : Type} : Except ActivationError α → List ActivationError
  | .ok _ => []
  | .error error => [error]

def stopRemaining (locals : ActivationLocals) : ActivationProcess σ PUnit :=
  match locals.candidateRuntime with
  | some candidate => stopCandidate operations candidate
  | none => pure ⟨⟩

/-- A failed stop can leave the candidate running; its daemon lock is then
retained. -/
def releaseDaemon (locals : ActivationLocals) (candidateStopFailed : Bool) :
    ActivationProcess σ PUnit :=
  if !candidateStopFailed && locals.daemonLock.any LockAnswer.releasable then
    releaseLock operations .daemon
  else pure ⟨⟩

def releaseStartup (locals : ActivationLocals) : ActivationProcess σ PUnit :=
  if !locals.startupReleased && locals.startupLock then
    releaseLock operations .startup
  else pure ⟨⟩

def releaseService (locals : ActivationLocals) : ActivationProcess σ PUnit :=
  if locals.serviceLock then releaseLock operations .service else pure ⟨⟩

def restoreUnlessBlocked (locals : ActivationLocals) (error : ActivationError)
    (clean : Bool) : ActivationProcess σ Restoration :=
  if clean && !error.cleanupIncomplete && !error.recoveryBlocked then
    restoreCompatibleProvider operations attempts locals
  else pure .none

def settlementOf (locals : ActivationLocals) (error : ActivationError)
    (cleanupErrors : List ActivationError) (candidateStopFailed : Bool)
    (restoration : Restoration) : Except ActivationError ActivationSuccess :=
  if cleanupErrors.isEmpty then
    match restoration with
    | .candidate serviceStart convergence =>
      match locals.candidateRelayVerified, error.code.bind detailByReason with
      | true, some detail => .ok {
          serviceStart := some serviceStart
          convergence
          candidateRelayVerified := true
          candidateRecoveryRedeployed := locals.candidateRecoveryRedeployed
          activationRecovered := true
          recoveryReason := error.code.getD ""
          recoveryDetail := detail }
      | _, _ => .error (activationFailureWithRecovery error)
    | _ => .error error
  else .error (activationCleanupFailure error cleanupErrors candidateStopFailed)

def failedActivationSettlement (error : ActivationError) :
    ActivationProcess σ ActivationSuccess := do
  let locals ← locals
  let stopped ← Process.attempt (stopRemaining operations locals)
  let candidateStopFailed := !stopped.isOk
  let daemon ← Process.attempt
    (releaseDaemon operations locals candidateStopFailed)
  let startup ← Process.attempt (releaseStartup operations locals)
  let cleanup := errorsOf stopped ++ errorsOf daemon ++ errorsOf startup
  let restored ← Process.attempt (restoreUnlessBlocked operations attempts
    locals error cleanup.isEmpty)
  let service ← Process.attempt (releaseService operations locals)
  fromExcept (settlementOf locals error
    (cleanup ++ errorsOf restored ++ errorsOf service) candidateStopFailed
    (restored.toOption.getD .none))

def activateGuarded : ActivationProcess σ ActivationSuccess := do
  acquireLocks operations
  stopPrevious operations attempts.expectedVersion
  acquireDaemonLock operations
  let candidate ← runCandidate operations attempts.candidateStartAttempts
  installCandidate operations candidate
  let serviceStart ← handOver operations candidate
  let convergence ← verifyService operations attempts
  let locals ← locals
  pure {
    serviceStart := some serviceStart
    convergence
    candidateRelayVerified := locals.candidateRelayVerified
    candidateRecoveryRedeployed := locals.candidateRecoveryRedeployed }

def activate : ActivationProcess σ ActivationSuccess := do
  let outcome ← Process.attempt (activateGuarded operations attempts)
  match outcome with
  | .ok success => pure success
  | .error error => failedActivationSettlement operations attempts error

end

def activatePersistentRuntime (options : ActivationOptions) :
    ActivationProcess σ ActivationSuccess :=
  match validateOptions options with
  | .ok attempts => activate operations attempts
  | .error error => Process.fail error

end Services

end MachineBridge.Activation
