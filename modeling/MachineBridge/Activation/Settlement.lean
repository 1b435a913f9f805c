import MachineBridge.Activation.Service

/-!
# The settlement of a failed activation

The settlement stops the candidate, gives up the locks one after the other, and
restores a compatible service when nothing was left undone.  What it leaves
behind is part of the error which it reports.
-/

namespace MachineBridge.Activation

open Foundation List

def knownLock (locals : ActivationLocals) : LockName → Bool
  | .service => locals.serviceLock
  | .startup => locals.startupLock && !locals.startupReleased
  | .daemon => locals.daemonLock.any LockAnswer.releasable

/-- The locks which are still to be released, and what a failure left of the
others. -/
structure Settling (locals : ActivationLocals) (stopFailed : Bool)
    (errors : List ActivationError) (pending : List LockName)
    (events : List ActivationEvent) : Prop where
  quiet : QuietStarts events
  running : ∀ candidate, candidateRunning candidate events = true →
    stopFailed = true
  shown : stopFailed = true →
    ∃ candidate, .candidateStopped candidate false ∈ events
  reported : stopFailed = true → errors ≠ []
  previous : PreviousKnown locals.providerStopped
    locals.previousServiceRuntime events
  known : ∀ lock, held lock events = true → lock ∈ pending →
    knownLock locals lock = true
  asked : ∀ lock, unreleased lock events = true →
    lock ∈ pending ∨ (lock = .daemon ∧ stopFailed = true)
  left : ∀ lock, held lock events = true → lock ∈ pending ∨ errors ≠ []

section Steps

variable {σ Readiness : Type} {operations : Operations σ Readiness}
  {expectedVersion : String} {locals : ActivationLocals}
  {events : List ActivationEvent} {stopFailed : Bool}
  {errors : List ActivationError} {pending : List LockName}

/-- What the variables said when the activation failed. -/
def OwnersOf (expectedVersion : String) (locals : ActivationLocals)
    (events : List ActivationEvent) : Prop :=
  OwnersKnown expectedVersion locals.autostartInstalled locals.serviceStarted
    locals.serviceOwnerTransaction events

theorem Settling.cons
    (settling : Settling locals stopFailed errors pending events)
    {event : ActivationEvent} (service : event.aboutService = true)
    (quiet : event = .started → stopFailed = false)
    (first : ∀ answer, event = .stopped answer → .started ∈ events) :
    Settling locals stopFailed errors pending (event :: events) where
  quiet := by
    refine ⟨settling.quiet, ?_⟩
    intro started candidate
    rw [← Bool.not_eq_true]
    intro running
    have failed := settling.running candidate running
    rw [quiet started] at failed
    cases failed
  running := by
    intro candidate running
    rw [candidateRunning_aboutService service] at running
    exact settling.running candidate running
  shown := by
    intro failed
    obtain ⟨candidate, seen⟩ := settling.shown failed
    exact ⟨candidate, mem_cons_of_mem _ seen⟩
  reported := settling.reported
  previous := settling.previous.cons first
  known := by
    intro lock
    rw [held_aboutService service]
    exact settling.known lock
  asked := by
    intro lock
    rw [unreleased_aboutService service]
    exact settling.asked lock
  left := by
    intro lock
    rw [held_aboutService service]
    exact settling.left lock

theorem settling_of_activating
    (holds : Activating expectedVersion locals events)
    (stopped : locals.candidateRuntime = none) :
    Settling locals false [] [.daemon, .startup, .service] events where
  quiet := holds.candidates.quiet
  running := by
    intro candidate running
    have known := holds.candidates.running candidate running
    rw [stopped] at known
    cases known
  shown := nofun
  reported := nofun
  previous := holds.previous
  known := by
    intro lock taken _
    cases lock with
    | service => exact holds.locks.service taken
    | startup => exact holds.locks.startup taken
    | daemon => exact holds.locks.daemon taken
  asked := by
    intro lock _
    cases lock <;> simp
  left := by
    intro lock _
    cases lock <;> simp

theorem stopRemaining_assures : Assures (fun _ events => Activating
    expectedVersion locals events) (Process.attempt (stopRemaining operations
    locals)) (fun result _ events => Settling locals (!result.isOk) (errorsOf
    result) [.daemon, .startup, .service] events ∧ OwnersOf expectedVersion
    locals events) (fun _ _ _ => False) := by
  apply assures_attempt
  rw [stopRemaining]
  split
  case h_2 none =>
    apply assures_pure
    intro _ events holds
    exact ⟨settling_of_activating holds none, holds.owners⟩
  case h_1 candidate known =>
    apply assures_ask
    · intro _ events value holds _
      have idle := candidateStopped_idle holds known
      have settling := settling_of_activating idle rfl
      exact ⟨⟨settling.quiet, settling.running, settling.shown,
        settling.reported, settling.previous, settling.known, settling.asked,
        settling.left⟩, idle.owners⟩
    · intro _ events error holds
      have failed := candidateStopped_failed candidate holds
      refine ⟨⟨failed.candidates.quiet, fun _ _ => rfl,
        fun _ => ⟨candidate, mem_cons_self⟩, fun _ => by simp [errorsOf],
        failed.previous, ?_, ?_, ?_⟩, failed.owners⟩
      · intro lock taken _
        cases lock with
        | service => exact failed.locks.service taken
        | startup => exact failed.locks.startup taken
        | daemon => exact failed.locks.daemon taken
      · intro lock _
        cases lock <;> simp
      · intro lock _
        cases lock <;> simp

variable {lock : LockName} {attempts : Attempts}

theorem Settling.release {returned : Bool}
    (settling : Settling locals stopFailed errors (lock :: pending) events)
    (result : Except ActivationError PUnit) (same : result.isOk = returned) :
    Settling locals stopFailed (errors ++ errorsOf result) pending
    (.released lock returned :: events) where
  quiet := settling.quiet.cons (by simp)
  running := settling.running
  shown := by
    intro failed
    obtain ⟨candidate, seen⟩ := settling.shown failed
    exact ⟨candidate, mem_cons_of_mem _ seen⟩
  reported := by
    intro failed
    simp [settling.reported failed]
  previous := settling.previous.cons (by simp)
  known := by
    intro other taken waiting
    cases returned with
    | true =>
      exact settling.known other (held_of_released taken)
        (mem_cons_of_mem _ waiting)
    | false => exact settling.known other taken (mem_cons_of_mem _ waiting)
  asked := by
    intro other still
    simp only [unreleased, Bool.and_eq_true, bne_iff_ne] at still
    rcases settling.asked other still.2 with waiting | retained
    · rcases mem_cons.mp waiting with rfl | waiting
      · exact absurd rfl still.1
      · exact .inl waiting
    · exact .inr retained
  left := by
    intro other taken
    cases result with
    | error error => simp [errorsOf]
    | ok value =>
      obtain rfl : returned = true := same.symm
      simp only [held, Bool.and_eq_true, bne_iff_ne] at taken
      rcases settling.left other taken.2 with waiting | failed
      · rcases mem_cons.mp waiting with rfl | waiting
        · exact absurd rfl taken.1
        · exact .inl waiting
      · right
        simp [failed]

theorem Settling.skip
    (settling : Settling locals stopFailed errors (lock :: pending) events)
    (unknown : knownLock locals lock = false ∨
      (lock = .daemon ∧ stopFailed = true)) :
    Settling locals stopFailed errors pending events where
  __ := settling
  known := fun other taken waiting =>
    settling.known other taken (mem_cons_of_mem _ waiting)
  asked := by
    intro other still
    rcases settling.asked other still with waiting | retained
    · rcases mem_cons.mp waiting with rfl | waiting
      · rcases unknown with unknown | retained
        · have known := settling.known other (held_of_unreleased still)
            mem_cons_self
          rw [unknown] at known
          cases known
        · exact .inr retained
      · exact .inl waiting
    · exact .inr retained
  left := by
    intro other taken
    rcases settling.left other taken with waiting | failed
    · rcases mem_cons.mp waiting with rfl | waiting
      · rcases unknown with unknown | retained
        · have known := settling.known other taken mem_cons_self
          rw [unknown] at known
          cases known
        · exact .inr (settling.reported retained.2)
      · exact .inl waiting
    · exact .inr failed

theorem giveUp_assures (lock : LockName) {condition : Bool}
    {Fact : List ActivationEvent → Prop} (unknown : condition = false →
    knownLock locals lock = false ∨ (lock = .daemon ∧ stopFailed = true)) (kept
    : ∀ events returned, Fact events → Fact (.released lock returned ::
    events)) : Assures (fun _ events => Settling locals stopFailed errors (lock
    :: pending) events ∧ Fact events) (Process.attempt (if condition then
    releaseLock operations lock else pure ⟨⟩)) (fun result _ events => Settling
    locals stopFailed (errors ++ errorsOf result) pending events ∧ Fact events)
    (fun _ _ _ => False) := by
  apply assures_attempt
  split
  case isTrue =>
    apply assures_ask
    · rintro _ events value ⟨settling, fact⟩ _
      exact ⟨settling.release (.ok value) rfl, kept _ _ fact⟩
    · rintro _ events error ⟨settling, fact⟩
      exact ⟨settling.release (.error error) rfl, kept _ _ fact⟩
  case isFalse refused =>
    apply assures_pure
    rintro _ events ⟨settling, fact⟩
    refine ⟨?_, fact⟩
    simpa [errorsOf] using settling.skip
      (unknown (Bool.not_eq_true _ ▸ refused))

theorem ownersOf_released (events : List ActivationEvent) (returned : Bool)
    (owners : OwnersOf expectedVersion locals events) :
    OwnersOf expectedVersion locals (.released lock returned :: events) :=
  OwnersKnown.cons owners (.inl rfl)

/-- During the restoration only the service lock is left, and the pending
transaction is known. -/
structure Restoring (locals : ActivationLocals) (owner : Option String)
    (events : List ActivationEvent) : Prop where
  settling : Settling locals false [] [.service] events
  pending : ∀ name, owner = some name → ∃ answer, .installed answer ∈ events ∧
    answer.transaction = .pending name

section

variable (locals : ActivationLocals)

/-- Assertions of the settlement do not depend on the current variables. -/
def restoring (owner : Option String) : Assertion :=
  fun _ events => Restoring locals owner events

def restarted (owner : Option String) : Assertion :=
  fun _ events => Restoring locals owner events ∧ .started ∈ events

end

variable {owner : Option String}

theorem Restoring.cons (holds : Restoring locals owner events)
    {event : ActivationEvent} (service : event.aboutService = true)
    (first : ∀ answer, event = .stopped answer → .started ∈ events) :
    Restoring locals owner (event :: events) where
  settling := holds.settling.cons service (fun _ => rfl) first
  pending := by
    intro name same
    obtain ⟨answer, seen, carried⟩ := holds.pending name same
    exact ⟨answer, mem_cons_of_mem _ seen, carried⟩

theorem restoring_keptByService : KeptByService (restoring locals owner) := by
  intro _ events event service unchanged holds
  apply Restoring.cons holds service
  rintro answer rfl
  cases unchanged

theorem restarted_keptByService : KeptByService (restarted locals owner) :=
  fun current events event service unchanged holds =>
    ⟨restoring_keptByService current events event service unchanged holds.1,
      mem_cons_of_mem _ holds.2⟩

theorem restarted_keptByStop : KeptByStop (restarted locals owner) :=
  fun _ _ _ holds => ⟨holds.1.cons rfl fun _ _ => holds.2,
    mem_cons_of_mem _ holds.2⟩

def Restored (expectedVersion : String) (restoration : Restoration)
    (events : List ActivationEvent) : Prop :=
  match restoration with
  | .candidate _ _ => CandidateVerified expectedVersion events ∧
      ∃ owner, OwnerCommitted owner events
  | .previous _ _ => PreviousVerified events
  | .none => False

theorem startRecovery_assures {name : String} : Assures (restoring locals (some
    name)) (startRecovery operations attempts (some name)) (fun restoration
    current events => restarted locals (some name) current events ∧ Restored
    attempts.expectedVersion restoration events) (fun _ => restarted locals
    (some name)) := by
  have started : Assures (restoring locals (some name)) (startService
      (operations.startRecoveryAutostart.getD operations.startAutostart) (some
      name)) (fun _ => restarted locals (some name)) (fun _ => restarted locals
      (some name)) :=
    assures_ask
      (fun _ _ _ holds _ => ⟨holds.cons rfl (by simp), mem_cons_self⟩)
      fun _ _ _ holds => ⟨holds.cons rfl (by simp), mem_cons_self⟩
  apply assures_bind started
  intro start
  apply assures_bind requireActiveServiceStart_assures
  intro _
  apply assures_bind
    (waitForActivatedRuntime_assures restarted_keptByService _ _ _)
  intro convergence
  have converged : Assures (σ := σ)
      (fun current events => restarted locals (some name) current events ∧
        (convergence.isOk = true →
          CandidateVerified attempts.expectedVersion events))
      (fromExcept (convergence.mapError fun reason => { message :=
        s!"compatible candidate autostart recovery did not converge ({reason})" }))
      (fun _ => Verifying (restarted locals (some name))
        attempts.expectedVersion)
      (fun _ => restarted locals (some name)) := by
    cases convergence with
    | ok value => exact assures_pure fun _ _ holds => ⟨holds.1, holds.2 rfl⟩
    | error reason => exact assures_fail fun _ _ holds => holds.1
  apply assures_bind converged
  intro value
  apply assures_bind
    ((commitVerifiedServiceOwner_assures restarted_keptByService
      restarted_keptByStop).weaken (fun _ _ => id) (fun _ _ _ => id)
      fun _ _ _ holds => holds.1)
  intro _
  apply assures_pure
  rintro current events ⟨⟨holds, verified⟩, done⟩
  exact ⟨holds, verified, name, done, holds.1.pending name rfl⟩

theorem restoreCandidate_assures {name : String} : Assures (restoring locals
    (some name)) (restoreCandidate operations attempts (some name)) (fun
    restoration current events => restarted locals (some name) current events ∧
    Restored attempts.expectedVersion restoration events) (fun _ => restarted
    locals (some name)) := by
  have attempted : Assures (restoring locals (some name))
      (Process.attempt (startRecovery operations attempts (some name)))
      (fun result current events =>
        restarted locals (some name) current events ∧
          ∀ restoration, result = .ok restoration →
            Restored attempts.expectedVersion restoration events)
      (fun _ => restarted locals (some name)) := by
    apply assures_attempt
    refine startRecovery_assures.weaken (fun _ _ => id) ?_
      fun _ _ _ holds => ⟨holds, fun _ same => by cases same⟩
    rintro restoration current events ⟨holds, restored⟩
    refine ⟨holds, ?_⟩
    intro other same
    obtain rfl := Except.ok.inj same
    exact restored
  apply assures_bind attempted
  intro result
  cases result with
  | ok restoration =>
    exact assures_pure fun _ _ holds => ⟨holds.1, holds.2 _ rfl⟩
  | error error =>
    dsimp only
    split
    case isTrue => exact assures_fail fun _ _ holds => holds.1
    case isFalse =>
      have stopped : Assures (restarted locals (some name))
          (stopUncommittedCandidate operations error)
          (fun _ => restarted locals (some name))
          (fun _ => restarted locals (some name)) := by
        apply assures_bind (assures_attempt
          (stopAutostart_assures restarted_keptByStop) :
            Assures _ _ (fun _ => restarted locals (some name)) _)
        intro result
        cases result with
        | error failure => exact assures_pure fun _ _ holds => holds
        | ok answer =>
          dsimp only
          split
          case isTrue | isFalse => exact assures_pure fun _ _ holds => holds
      apply assures_bind (stopped.weaken (fun _ _ holds => holds.1)
        (fun _ _ _ => id) fun _ _ _ => id)
      intro failure
      exact assures_fail fun _ _ holds => holds

theorem installDefinition_assures (carries : CarriesTransaction operations)
    {required : Bool} (known : required = false → owner.isSome = true) :
    Assures (restoring locals owner)
    (installDefinition operations owner required)
    (fun transaction _ events => ∃ name, transaction = some name ∧
      Restoring locals (some name) events) (fun _ => restoring locals owner) :=
    by
  rw [installDefinition]
  split
  case isFalse optional =>
    apply assures_pure
    intro _ events holds
    obtain ⟨name, same⟩ := Option.isSome_iff_exists.mp
      (known (Bool.not_eq_true _ ▸ optional))
    rw [same] at holds
    exact ⟨name, same, holds⟩
  case isTrue =>
    apply assures_bind (installAutostart_assures restoring_keptByService)
    intro answer
    apply assures_bind (deferredServiceOwnerTransaction_assures.weaken
      (fun _ _ => id) (fun _ _ _ => id) fun _ _ _ holds => holds.1)
    intro transaction
    apply assures_bind (assures_require fun _ _ holds _ => holds.1.1)
    intro _
    apply assures_pure
    rintro _ events ⟨⟨⟨holds, seen, environment, answered⟩, carried⟩,
      succeeded⟩
    cases found : transaction with
    | none =>
      exact absurd (carried.2 found)
        (carries environment answer answered succeeded)
    | some name =>
      refine ⟨name, rfl, holds.settling, ?_⟩
      intro other same
      obtain rfl := Option.some.inj same
      exact ⟨answer, seen, carried.1 name found⟩

theorem restorePrevious_assures : Assures (restoring locals owner)
    (restorePrevious operations attempts locals.previousServiceRuntime)
    (fun restoration current events => restoring locals owner current events ∧
      Restored attempts.expectedVersion restoration events)
    (fun _ => restoring locals owner) := by
  unfold restorePrevious
  split
  case h_2 => exact assures_fail fun _ _ holds => holds
  case h_1 identity inspectPrevious same _ =>
    -- The identity comes from the inspection of the previous service.
    have identified : Assures (fun current events => ∃ ownership : {ownership :
        OwnershipAnswer // ownership.previousRuntime = identity}, restoring
        locals owner current events ∧ .ownership ownership.val ∈ events)
        (restorePreviousServiceUntilReady operations
        (operations.restorePreviousAutostart.getD operations.startAutostart)
        (inspectPrevious identity) identity.version
        attempts.restoreStartAttempts attempts.restoreStartAttempts none none)
        (fun _ current events => restoring locals owner current events ∧
        PreviousVerified events) (fun _ => restoring locals owner) := by
      apply assures_exists
      rintro ⟨ownership, rfl⟩
      apply (restorePreviousServiceUntilReady_assures
        (fun current events => restoring locals owner current events ∧
          .ownership ownership ∈ events) ?_ ?_ (fun _ _ holds => holds.2) _ _
        _).weaken (fun _ _ => id)
        (fun _ _ _ holds => ⟨holds.1.1, holds.2⟩) fun _ _ _ holds => holds.1
      · exact fun current events event service unchanged holds =>
          ⟨restoring_keptByService current events event service unchanged
            holds.1, mem_cons_of_mem _ holds.2⟩
      · exact fun _ _ holds => ⟨holds.1.cons rfl (by simp),
          mem_cons_of_mem _ holds.2⟩
    apply assures_bind (identified.weaken ?_ (fun _ _ _ => id) fun _ _ _ => id)
    · intro recovery
      exact assures_pure fun _ _ holds => holds
    · intro current events holds
      obtain ⟨ownership, seen, known⟩ :=
        holds.settling.previous.identified identity same
      exact ⟨⟨ownership, known⟩, holds, seen⟩

end Steps

end MachineBridge.Activation
