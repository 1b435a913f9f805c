import MachineBridge.Activation.Settlement

/-!
# The outcome of an activation

Whatever the operations answer or throw, an activation gives up its locks, never
starts a service next to a running candidate, reports success only about a
verified service with a committed owner, and leaves a verified service behind
when its error does not say otherwise.
-/

namespace MachineBridge.Activation

open Foundation

/-- The outcome of an activation, with the events up to it. -/
structure ActivationSettled (expectedVersion : String)
    (result : Except ActivationError ActivationSuccess)
    (events : List ActivationEvent) : Prop where
  service : unreleased .service events = false
  startup : unreleased .startup events = false
  daemon : unreleased .daemon events = true →
    (∃ candidate, .candidateStopped candidate false ∈ events) ∧
      ∃ error, result = .error error ∧ error.daemonOwnershipRetained = true ∧
        ∃ head, error.message = head ++ "; daemon ownership retained"
  left : ∀ lock, held lock events = true →
    ∃ error, result = .error error ∧ error.cleanupIncomplete = true
  quiet : QuietStarts events
  success : ∀ value, result = .ok value →
    CandidateVerified expectedVersion events ∧
      ∃ owner, OwnerCommitted owner events
  failure : ∀ error, result = .error error →
    error.cleanupIncomplete = false → error.recoveryBlocked = false →
    PreviousStopped events →
    CandidateVerified expectedVersion events ∨ PreviousVerified events

section Steps

variable {σ Readiness : Type} {operations : Operations σ Readiness}
  {expectedVersion : String} {locals : ActivationLocals}
  {events : List ActivationEvent} {stopFailed : Bool}
  {errors : List ActivationError} {pending : List LockName}

/-- Nothing had to be restored, or the restoration verified a service. -/
def Recovered (expectedVersion : String) (locals : ActivationLocals)
    (restoration : Restoration) (events : List ActivationEvent) : Prop :=
  Restored expectedVersion restoration events ∨
    restoration = .none ∧ (locals.providerStopped = true →
      CandidateVerified expectedVersion events)

variable {attempts : Attempts} {error : ActivationError}

theorem restoreCompatibleProvider_assures
    (carries : CarriesTransaction operations) : Assures
    (fun _ events => Settling locals false [] [.service] events ∧
      OwnersOf attempts.expectedVersion locals events)
    (restoreCompatibleProvider operations attempts locals)
    (fun restoration _ events => Settling locals false [] [.service] events ∧
      Recovered attempts.expectedVersion locals restoration events)
    (fun _ _ events => Settling locals false [] [.service] events) := by
  rw [restoreCompatibleProvider]
  split
  case isTrue idle =>
    apply assures_pure
    rintro _ events ⟨settling, owners⟩
    refine ⟨settling, .inr ⟨rfl, fun stopped => ?_⟩⟩
    simp only [Bool.or_eq_true, Bool.and_eq_true, Option.isNone_iff_eq_none,
      Bool.not_eq_true'] at idle
    rcases idle with ⟨started, none⟩ | ⟨-, kept⟩
    · exact owners.committed started none
    · rw [stopped] at kept
      cases kept
  case isFalse busy =>
    simp only [Bool.or_eq_true, Bool.and_eq_true, Option.isNone_iff_eq_none,
      Bool.not_eq_true', not_or, not_and] at busy
    have entering : ∀ current events,
        (Settling locals false [] [.service] events ∧
          OwnersOf attempts.expectedVersion locals events) →
        restoring locals locals.serviceOwnerTransaction current events :=
      fun _ _ holds => ⟨holds.1, holds.2.pending⟩
    cases prepared : locals.remotePrepared with
    | false =>
      have kept : Assures (σ := σ)
          (restoring locals locals.serviceOwnerTransaction)
          (installDefinition operations locals.serviceOwnerTransaction false)
          (fun _ => restoring locals locals.serviceOwnerTransaction)
          (fun _ => restoring locals locals.serviceOwnerTransaction) :=
        assures_pure fun _ _ holds => holds
      apply assures_bind (kept.weaken entering (fun _ _ _ => id)
        fun _ _ _ holds => holds.settling)
      intro owner
      exact restorePrevious_assures.weaken (fun _ _ => id) (fun _ _ _ holds =>
        ⟨holds.1.settling, .inl holds.2⟩) fun _ _ _ holds => holds.settling
    | true =>
      simp only [Bool.true_and, if_true]
      apply assures_of_fact (locals.autostartInstalled = true →
        locals.serviceOwnerTransaction.isSome = true)
      · rintro _ events ⟨-, owners⟩ installed
        cases started : locals.serviceStarted with
        | false => exact owners.installed installed started
        | true =>
          rw [← Option.ne_none_iff_isSome]
          exact busy.1 started
      intro known
      apply assures_bind ((installDefinition_assures carries (by
        intro optional
        rw [Bool.not_eq_false'] at optional
        exact known optional)).weaken entering (fun _ _ _ => id)
        fun _ _ _ holds => holds.settling)
      intro transaction
      apply assures_exists
      intro name
      apply assures_of_fact _ fun _ _ holds => holds.1
      rintro rfl
      exact restoreCandidate_assures.weaken (fun _ _ holds => holds.2)
        (fun _ _ _ holds => ⟨holds.1.1.settling, .inl holds.2⟩)
        fun _ _ _ holds => holds.1.settling

/-- What is known after the restoration was tried. -/
def Tried (expectedVersion : String) (locals : ActivationLocals)
    (errors : List ActivationError) (error : ActivationError)
    (result : Except ActivationError Restoration)
    (events : List ActivationEvent) : Prop :=
  ∀ restoration, result = .ok restoration →
    Restored expectedVersion restoration events ∨
      restoration = .none ∧ (errors = [] → error.cleanupIncomplete = false →
        error.recoveryBlocked = false → locals.providerStopped = true →
        CandidateVerified expectedVersion events)

theorem Tried.released {result : Except ActivationError Restoration}
    (events : List ActivationEvent) (lock : LockName) (returned : Bool)
    (tried : Tried expectedVersion locals errors error result events) : Tried
    expectedVersion locals errors error result
    (.released lock returned :: events) := by
  intro restoration same
  rcases tried restoration same with restored | ⟨absent, verified⟩
  · left
    cases restoration with
    | candidate start convergence =>
      obtain ⟨verified, owner, committed⟩ := restored
      exact ⟨verified.cons rfl, owner, committed.cons⟩
    | previous start convergence => exact PreviousVerified.cons restored rfl
    | none => exact restored.elim
  · exact .inr ⟨absent, fun clean complete unblocked stopped =>
      (verified clean complete unblocked stopped).cons rfl⟩

theorem Settling.report
    (settling : Settling locals stopFailed errors pending events)
    (more : List ActivationError) :
    Settling locals stopFailed (errors ++ more) pending events where
  __ := settling
  reported := by
    intro failed
    simp [settling.reported failed]
  left := by
    intro lock taken
    rcases settling.left lock taken with waiting | failed
    · exact .inl waiting
    · right
      simp [failed]

theorem Settling.clean
    (settling : Settling locals stopFailed [] pending events) :
    stopFailed = false := by
  cases stopFailed with
  | false => rfl
  | true => exact absurd rfl (settling.reported rfl)

theorem restoreUnlessBlocked_assures (carries : CarriesTransaction operations)
    : Assures (fun _ events => Settling locals stopFailed errors [.service]
    events ∧ OwnersOf attempts.expectedVersion locals events) (Process.attempt
    (restoreUnlessBlocked operations attempts locals error errors.isEmpty))
    (fun result _ events => Settling locals stopFailed (errors ++ errorsOf
    result) [.service] events ∧ Tried attempts.expectedVersion locals errors
    error result events) (fun _ _ _ => False) := by
  apply assures_attempt
  rw [restoreUnlessBlocked]
  split
  case isTrue unblocked =>
    simp only [Bool.and_eq_true, List.isEmpty_iff, Bool.not_eq_true']
      at unblocked
    obtain ⟨⟨rfl, complete⟩, unblocked⟩ := unblocked
    apply assures_of_fact (stopFailed = false)
    · exact fun _ _ holds => holds.1.clean
    rintro rfl
    refine (restoreCompatibleProvider_assures carries).weaken (fun _ _ => id)
      ?_ ?_
    · rintro restoration _ events ⟨settling, recovered⟩
      refine ⟨settling.report [], ?_⟩
      intro other same
      obtain rfl := Except.ok.inj same
      exact recovered.imp_right fun nothing =>
        ⟨nothing.1, fun _ _ _ => nothing.2⟩
    · intro failure _ events settling
      exact ⟨settling.report [failure], fun _ same => by cases same⟩
  case isFalse blocked =>
    apply assures_pure
    rintro _ events ⟨settling, -⟩
    refine ⟨settling.report [], ?_⟩
    intro other same
    obtain rfl := Except.ok.inj same
    refine .inr ⟨rfl, fun clean complete unblocked => ?_⟩
    simp [clean, complete, unblocked] at blocked

theorem settlementOf_incomplete {restoration : Restoration}
    (some : errors ≠ []) :
    settlementOf locals error errors stopFailed restoration =
    .error (activationCleanupFailure error errors stopFailed) := by
  unfold settlementOf
  rw [if_neg (by simpa using some)]

theorem settlementOf_none :
    settlementOf locals error [] stopFailed .none = .error error := rfl

theorem settlementOf_previous {start : Option StartAnswer}
    {convergence : Convergence} :
    settlementOf locals error [] stopFailed (.previous start convergence) =
      .error error := rfl

theorem settled_of_settling {restored : Except ActivationError Restoration}
    {all : List ActivationError}
    (settling : Settling locals stopFailed all [] events)
    (tried : Tried attempts.expectedVersion locals errors error restored events)
    (included : all = [] → errors = [] ∧ restored.isOk = true) :
    ActivationSettled attempts.expectedVersion
    (settlementOf locals error all stopFailed (restored.toOption.getD .none))
    events := by
  have unasked : ∀ lock, unreleased lock events = true → lock = .daemon ∧
      stopFailed = true := by
    intro lock still
    simpa using settling.asked lock still
  have failing : all ≠ [] →
      settlementOf locals error all stopFailed (restored.toOption.getD .none) =
      .error (activationCleanupFailure error all stopFailed) := by
    exact fun some => settlementOf_incomplete some
  refine ⟨?_, ?_, ?_, ?_, settling.quiet, ?_, ?_⟩
  · rw [← Bool.not_eq_true]
    exact fun still => nomatch (unasked _ still).1
  · rw [← Bool.not_eq_true]
    exact fun still => nomatch (unasked _ still).1
  · intro still
    obtain ⟨-, rfl⟩ := unasked _ still
    refine ⟨settling.shown rfl, _, failing (settling.reported rfl), rfl, ?_⟩
    exact ⟨_, rfl⟩
  · intro lock taken
    have left := settling.left lock taken
    exact ⟨_, failing (by simpa using left), rfl⟩
  · intro value succeeded
    by_cases some : all = []
    case neg =>
      rw [failing some] at succeeded
      cases succeeded
    case pos =>
      obtain ⟨-, returned⟩ := included some
      cases restored with
      | error failure => cases returned
      | ok restoration =>
        cases restoration with
        | candidate start convergence =>
          rcases tried _ rfl with done | ⟨none, -⟩
          · exact done
          · cases none
        | previous start convergence =>
          rw [some] at succeeded
          cases settlementOf_previous.symm.trans succeeded
        | none =>
          rw [some] at succeeded
          cases settlementOf_none.symm.trans succeeded
  · intro reported failed complete unblocked stopped
    have provider := settling.previous.stopped stopped
    by_cases some : all = []
    case neg =>
      rw [failing some] at failed
      cases failed
      cases complete
    case pos =>
      obtain ⟨clean, returned⟩ := included some
      cases restored with
      | error failure => cases returned
      | ok restoration =>
        cases restoration with
        | candidate start convergence =>
          rcases tried _ rfl with done | ⟨none, -⟩
          · exact .inl done.1
          · cases none
        | previous start convergence =>
          rcases tried _ rfl with done | ⟨none, -⟩
          · exact .inr done
          · cases none
        | none =>
          rw [some] at failed
          obtain rfl := Except.error.inj (settlementOf_none.symm.trans failed)
          rcases tried _ rfl with done | ⟨-, verified⟩
          · exact done.elim
          · exact .inl (verified clean complete unblocked provider)

theorem assures_of_settled {result : Except ActivationError ActivationSuccess}
    {Before : Assertion} (settled : ∀ current events, Before current events →
    ActivationSettled expectedVersion result events) : Assures (σ := σ) Before
    (fromExcept result) (fun value _ events => ActivationSettled
    expectedVersion (.ok value) events) (fun failure _ events =>
    ActivationSettled expectedVersion (.error failure) events) := by
  cases result with
  | ok value => exact assures_pure settled
  | error failure => exact assures_fail settled

theorem Activated.settled (activated : Activated expectedVersion locals events)
    (released : locals.serviceLock = false) {value : ActivationSuccess} :
    ActivationSettled expectedVersion (.ok value) events := by
  have free : ∀ lock, held lock events = false := by
    intro lock
    rw [← Bool.not_eq_true]
    intro taken
    have locks := activated.activating.locks
    cases lock with
    | service =>
      have known := locks.service taken
      rw [released] at known
      cases known
    | startup =>
      have known := locks.startup taken
      rw [activated.startup, Bool.not_true, Bool.and_false] at known
      cases known
    | daemon =>
      have known := locks.daemon taken
      rw [activated.daemon] at known
      cases known
  have unasked : ∀ lock, unreleased lock events = false := by
    intro lock
    rw [← Bool.not_eq_true]
    intro still
    have taken := held_of_unreleased still
    rw [free] at taken
    cases taken
  refine ⟨unasked _, unasked _, ?_, ?_, activated.activating.candidates.quiet,
    fun _ _ => ⟨activated.verified, activated.committed⟩,
    fun _ same => by cases same⟩
  · intro still
    rw [unasked] at still
    cases still
  · intro lock taken
    rw [free] at taken
    cases taken

theorem failedActivationSettlement_assures
    (carries : CarriesTransaction operations) :
    Assures (Activating attempts.expectedVersion)
      (failedActivationSettlement operations attempts error)
      (fun value _ events =>
        ActivationSettled attempts.expectedVersion (.ok value) events)
      (fun failure _ events =>
        ActivationSettled attempts.expectedVersion (.error failure) events) := by
  apply assures_bind assures_locals
  intro locals
  apply assures_bind (stopRemaining_assures.weaken
    (fun current events holds => by rw [holds.2]; exact holds.1)
    (fun _ _ _ => id) fun _ _ _ => False.elim)
  intro stopped
  apply assures_bind ((giveUp_assures .daemon (by
    intro kept
    cases failed : stopped.isOk with
    | true => simpa [failed, knownLock] using kept
    | false => simp) ownersOf_released).weaken (fun _ _ => id)
    (fun _ _ _ => id) fun _ _ _ => False.elim)
  intro daemon
  apply assures_bind ((giveUp_assures .startup (by
    intro kept
    left
    simpa [knownLock, Bool.and_comm] using kept) ownersOf_released).weaken
    (fun _ _ => id) (fun _ _ _ => id) fun _ _ _ => False.elim)
  intro startup
  apply assures_bind ((restoreUnlessBlocked_assures carries).weaken
    (fun _ _ => id) (fun _ _ _ => id) fun _ _ _ => False.elim)
  intro restored
  apply assures_bind ((giveUp_assures .service .inl
    fun events returned tried => tried.released events _ returned).weaken
    (fun _ _ => id) (fun _ _ _ => id) fun _ _ _ => False.elim)
  intro service
  apply assures_of_settled
  rintro current events ⟨settling, tried⟩
  apply settled_of_settling settling tried
  intro none
  obtain ⟨none, -⟩ := List.append_eq_nil_iff.mp none
  obtain ⟨clean, returned⟩ := List.append_eq_nil_iff.mp none
  refine ⟨clean, ?_⟩
  cases restored with
  | ok restoration => rfl
  | error failure => cases returned

/-- What an activation under the transaction leaves behind. -/
def Guarded (expectedVersion : String) :
    Except ActivationError ActivationSuccess → Assertion
  | .ok _ => fun locals events =>
    Activated expectedVersion locals events ∧ locals.serviceLock = false
  | .error _ => Activating expectedVersion

theorem activate_assures (carries : CarriesTransaction operations) : Assures
    (Exactly {} []) (activate operations attempts) (fun value _ events =>
    ActivationSettled attempts.expectedVersion (.ok value) events) (fun failure
    _ events => ActivationSettled attempts.expectedVersion (.error failure)
    events) := by
  have guarded : Assures (Exactly {} [])
      (Process.attempt (activateGuarded operations attempts))
      (Guarded attempts.expectedVersion) (fun _ _ _ => False) :=
    assures_attempt (activateGuarded_assures carries)
  apply assures_bind (guarded.weaken (fun _ _ => id) (fun _ _ _ => id)
    fun _ _ _ => False.elim)
  intro outcome
  cases outcome with
  | error error => exact failedActivationSettlement_assures carries
  | ok success =>
    apply assures_pure
    rintro locals events ⟨activated, released⟩
    exact activated.settled released

end Steps

section Run

variable {σ Readiness : Type}

section

variable (operations : Operations σ Readiness)

def run (options : ActivationOptions) (environment : σ) :
    Except ActivationError ActivationSuccess × ActivationState σ :=
  match activatePersistentRuntime operations options
      { state := { environment }, turns := [] } with
  | (result, shared) => (result, shared.state)

theorem validateOptions_version {options : ActivationOptions}
    {attempts : Attempts} (valid : validateOptions options = .ok attempts) :
    attempts.expectedVersion = options.expectedVersion := by
  have same : ∀ version,
      requiredExpectedVersion options.expectedVersion = .ok version →
      version = options.expectedVersion := by
    intro version accepted
    rw [requiredExpectedVersion] at accepted
    split at accepted
    case isTrue => exact (Except.ok.inj accepted).symm
    case isFalse => cases accepted
  rw [validateOptions] at valid
  cases version : requiredExpectedVersion options.expectedVersion with
  | error error =>
    rw [version] at valid
    cases valid
  | ok expectedVersion =>
    rw [version] at valid
    rw [← same _ version]
    cases first : boundedAttempts (options.maximumAttempts.getD 240) with
    | error error =>
      rw [first] at valid
      cases valid
    | ok maximumAttempts =>
      rw [first] at valid
      cases second : boundedCandidateStartAttempts
          (options.candidateStartAttempts.getD 10) with
      | error error =>
        rw [second] at valid
        cases valid
      | ok candidateStartAttempts =>
        rw [second] at valid
        cases third : boundedRestoreStartAttempts
            (options.restoreStartAttempts.getD 30) with
        | error error =>
          rw [third] at valid
          cases valid
        | ok restoreStartAttempts =>
          rw [third] at valid
          cases valid
          rfl

theorem activationSettled_unstarted {expectedVersion : String}
    (error : ActivationError) :
    ActivationSettled expectedVersion (.error error) [] where
  service := rfl
  startup := rfl
  daemon := by
    intro still
    cases still
  left := by
    intro lock taken
    cases taken
  quiet := trivial
  success := by
    intro value succeeded
    cases succeeded
  failure := by
    intro _ _ _ _ stopped
    obtain ⟨answer, member⟩ := stopped.mem
    cases member

/-- Whatever the operations answer or throw, an activation settles its locks,
its candidate and its services. -/
theorem run_settles (carries : CarriesTransaction operations)
    (options : ActivationOptions) (environment : σ) : ActivationSettled
    options.expectedVersion (run operations options environment).1
    (run operations options environment).2.events := by
  have outcome : Assures (Exactly {} []) (activatePersistentRuntime operations
      options) (fun value _ events => ActivationSettled options.expectedVersion
      (.ok value) events) (fun failure _ events => ActivationSettled
      options.expectedVersion (.error failure) events) := by
    rw [activatePersistentRuntime]
    split
    case h_1 attempts valid =>
      rw [← validateOptions_version valid]
      exact activate_assures carries
    case h_2 error invalid =>
      apply assures_fail
      rintro _ _ ⟨rfl, rfl⟩
      exact activationSettled_unstarted error
  have settled := outcome.result { state := { environment }, turns := [] }
    ⟨rfl, rfl⟩
  rw [run]
  cases result : activatePersistentRuntime operations options
      { state := { environment }, turns := [] } with
  | mk value shared =>
    rw [result] at settled
    cases value with
    | ok value => exact settled.1 value rfl
    | error error => exact settled.2 error rfl

end

end Run

/-- Operations which all succeed, with a previous service that was running. -/
def smoothOperations : Operations Unit Unit :=
  let lock : LockAnswer :=
    { acquired := true, releasable := true, owner := { pid := none, mode := "" } }
  let daemon : DaemonReport :=
    { alive := true
      verifiedServiceDaemon := true
      startupReadinessVerified := true
      mode := "service"
      version := "1.2.3"
      identityReason := ""
      pid := some 7 }
  let started : StartAnswer := { ok := true, active := true, provider := "" }
  { acquireServiceLock := fun _ => (.ok lock, ())
    acquireStartupLock := fun _ => (.ok lock, ())
    acquireDaemonLock := fun _ => (.ok lock, ())
    release := fun _ _ => (.ok ⟨⟩, ())
    inspectActivationOwnership := fun _ => (.ok {
      daemon
      providerActive := some true
      provider := "launchd"
      previousRuntime := { version := "1.2.2", entryScript := "cli.mjs" } }, ())
    preflightRestartability := fun _ _ _ _ => (.ok ⟨⟩, ())
    stopAutostart := fun _ => (.ok {
      ok := true
      activeBefore := some true
      active := some false
      restoreRequired := some true
      provider := "launchd" }, ())
    prepareRemoteState := fun _ => ({ reported := true, outcome := .ok () }, ())
    repairRemoteState := none
    createRuntime := fun _ _ => (.ok (some 1), ())
    startCandidate := fun _ _ => (.ok ⟨⟩, ())
    stopCandidate := fun _ _ => (.ok ⟨⟩, ())
    terminalError := fun _ _ => (.ok none, ())
    installAutostart := fun _ => (.ok {
      ok := true
      provider := "launchd"
      transaction := .pending "owner" }, ())
    startAutostart := fun _ _ => (.ok started, ())
    startRecoveryAutostart := none
    restorePreviousAutostart := none
    inspectDaemon := fun _ => (.ok daemon, ())
    inspectCandidateAutostart := none
    inspectPreviousAutostart := none
    checkWorker := fun _ =>
      (.ok { ok := true, version := "1.2.3", error := "" }, ())
    commit := fun _ _ => (.ok true, ())
    candidateRetryWait := fun _ _ => (.ok ⟨⟩, ())
    wait := fun _ _ => (.ok ⟨⟩, ()) }

theorem smoothOperations_carry : CarriesTransaction smoothOperations := by
  intro environment answer answered _
  obtain rfl := Except.ok.inj answered
  exact nofun

theorem smooth_settles :
    (run smoothOperations { expectedVersion := "1.2.3" } ()).1.isOk = true ∧
      ActivationSettled "1.2.3"
        (run smoothOperations { expectedVersion := "1.2.3" } ()).1
        (run smoothOperations { expectedVersion := "1.2.3" } ()).2.events :=
  ⟨by decide +kernel, run_settles smoothOperations smoothOperations_carry
    { expectedVersion := "1.2.3" } ()⟩

end MachineBridge.Activation
