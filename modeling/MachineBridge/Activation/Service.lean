import MachineBridge.Activation.Progress

/-!
# From the candidate to the service

The candidate gives way to the installed service: it is stopped and its locks
are released before the service is started.  The owner of the service is
committed once the service was verified.
-/

namespace MachineBridge.Activation

open Foundation List

section Steps

variable {σ Readiness : Type} {operations : Operations σ Readiness}
  {expectedVersion : String} {locals : ActivationLocals}
  {events : List ActivationEvent}

def Installed (expectedVersion : String) (candidate : Candidate) : Assertion :=
  fun locals events => Activating expectedVersion locals events ∧
    locals.candidateRuntime = some candidate ∧
      locals.autostartInstalled = true ∧ locals.serviceStarted = false

def InstallAnswered (operations : Operations σ Readiness)
    (answer : InstallAnswer) (events : List ActivationEvent) : Prop :=
  .installed answer ∈ events ∧
    ∃ environment, (operations.installAutostart environment).1 = .ok answer

variable {Kept : Assertion} {candidate : Candidate} {lock : LockName}

theorem installAutostart_assures (stable : KeptByService Kept) : Assures Kept
    (installAutostart operations)
    (fun answer locals events => Kept locals events ∧
      InstallAnswered operations answer events) (fun _ => Kept) :=
  assures_ask (fun _ _ _ kept answered => ⟨stable _ _ _ rfl rfl kept,
    mem_cons_self, answered⟩) fun _ _ _ kept => kept

def TransactionOf (answer : InstallAnswer) (transaction : Option String) :
    Prop :=
  (∀ owner, transaction = some owner → answer.transaction = .pending owner) ∧
    (transaction = none → answer.transaction = .absent)

theorem deferredServiceOwnerTransaction_assures {answer : InstallAnswer} :
    Assures (σ := σ) Kept (deferredServiceOwnerTransaction answer)
    (fun transaction locals events => Kept locals events ∧
      TransactionOf answer transaction) (fun _ => Kept) := by
  rw [deferredServiceOwnerTransaction]
  split
  case h_1 absent =>
    exact assures_pure fun _ _ kept => ⟨kept, nofun, fun _ => absent⟩
  case h_2 => exact assures_fail fun _ _ kept => kept
  case h_3 owner pending =>
    apply assures_pure
    intro locals events kept
    refine ⟨kept, ?_, nofun⟩
    intro other same
    rw [pending, Option.some.inj same]

theorem candidating_keptByService :
    KeptByService (Candidating expectedVersion candidate) :=
  fun _ _ _ service unchanged holds =>
    ⟨activating_keptByService _ _ _ service unchanged holds.1, holds.2⟩

theorem Candidating.pending {answer : InstallAnswer}
    {transaction : Option String}
    (holds : Candidating expectedVersion candidate locals events)
    (answered : .installed answer ∈ events)
    (carried : TransactionOf answer transaction) :
    Activating expectedVersion
      { locals with serviceOwnerTransaction := transaction } events := by
  obtain ⟨holds, uninstalled, -⟩ := holds
  have unstarted : locals.serviceStarted = false := uninstalled.started
  have uninstalled : locals.autostartInstalled = false := uninstalled.installed
  refine ⟨holds.locks, holds.candidates, holds.previous, ?_, ?_, ?_, ?_⟩
  · intro owner same
    exact ⟨answer, answered, carried.1 owner same⟩
  · intro installed
    rw [uninstalled] at installed
    cases installed
  · intro started
    rw [unstarted] at started
    cases started
  · intro started
    rw [unstarted] at started
    cases started

theorem requireNoTerminalError_assures : Assures Kept
    (requireNoTerminalError operations candidate) (fun _ => Kept)
    (fun _ => Kept) := by
  apply assures_bind (assures_silent (fun _ _ _ kept => kept)
    fun _ _ _ kept => kept)
  intro terminalError
  cases terminalError with
  | some error => exact assures_fail fun _ _ kept => kept
  | none => exact assures_pure fun _ _ kept => kept

/-- The transaction is there when the answer is a success. -/
def Carried (expectedVersion : String) (candidate : Candidate)
    (answer : InstallAnswer) : Assertion := fun locals events =>
  Activating expectedVersion locals events ∧
    locals.candidateRuntime = some candidate ∧
    locals.serviceStarted = false ∧
    (answer.ok = true → locals.serviceOwnerTransaction.isSome = true)

theorem installCandidate_assures (carries : CarriesTransaction operations) :
    Assures (Candidating expectedVersion candidate)
    (installCandidate operations candidate)
    (fun _ => Installed expectedVersion candidate)
    (fun _ => Activating expectedVersion) := by
  apply assures_bind ((installAutostart_assures candidating_keptByService).weaken
    (fun _ _ => id) (fun _ _ _ => id) fun _ _ _ holds => holds.1)
  intro answer
  apply assures_bind (deferredServiceOwnerTransaction_assures.weaken
    (fun _ _ => id) (fun _ _ _ => id) fun _ _ _ holds => holds.1.1)
  intro transaction
  have assigned : Assures (σ := σ)
      (fun locals events => (Candidating expectedVersion candidate locals
        events ∧ InstallAnswered operations answer events) ∧
        TransactionOf answer transaction)
      (assign fun locals =>
        { locals with serviceOwnerTransaction := transaction })
      (fun _ => Carried expectedVersion candidate answer)
      (fun _ => Activating expectedVersion) := by
    apply assures_assign
    rintro locals events ⟨⟨holds, seen, environment, answered⟩, carried⟩
    refine ⟨holds.pending seen carried, holds.2.2, holds.2.1.started, ?_⟩
    intro succeeded
    cases none : transaction with
    | some owner => rfl
    | none =>
      exact absurd (carried.2 none) (carries environment answer answered
        succeeded)
  apply assures_bind assigned
  intro _
  apply assures_bind (requireNoTerminalError_assures.weaken (fun _ _ => id)
    (fun _ _ _ => id) fun _ _ _ holds => holds.1)
  intro _
  apply assures_bind (assures_require fun _ _ holds _ => holds.1)
  intro _
  apply assures_assign
  rintro locals events ⟨⟨holds, known, unstarted, carried⟩, succeeded⟩
  refine ⟨⟨holds.locks, holds.candidates, holds.previous,
    holds.owners.pending, fun _ _ => carried succeeded, fun _ => rfl,
    holds.owners.committed⟩, known, rfl, unstarted⟩

/-- The service was started in the place of the candidate. -/
structure HandedOver (expectedVersion : String) (locals : ActivationLocals)
    (events : List ActivationEvent) : Prop where
  activating : Activating expectedVersion locals events
  candidate : locals.candidateRuntime = none
  daemon : locals.daemonLock = none
  startup : locals.startupReleased = true
  started : locals.serviceStarted = true
  transaction : locals.serviceOwnerTransaction.isSome = true
  shown : .started ∈ events

structure Releasing (expectedVersion : String) (daemon startup : Bool)
    (locals : ActivationLocals) (events : List ActivationEvent) : Prop where
  activating : Activating expectedVersion locals events
  candidate : locals.candidateRuntime = none
  daemon : daemon = true → locals.daemonLock = none
  startup : startup = true → locals.startupReleased = true
  installed : locals.autostartInstalled = true
  unstarted : locals.serviceStarted = false

theorem Activating.releaseFailed (lock : LockName)
    (holds : Activating expectedVersion locals events) :
    Activating expectedVersion locals (.released lock false :: events) :=
  ⟨holds.locks.cons fun _ => rfl, holds.candidates.cons (by simp) fun _ => rfl,
    holds.previous.cons (by simp), holds.owners.cons (.inl rfl)⟩

theorem held_released (lock : LockName) :
    held lock (.released lock true :: events) = false := by
  simp [held]

theorem held_of_released {other : LockName}
    (still : held lock (.released other true :: events) = true) :
    held lock events = true := by
  simp only [held, Bool.and_eq_true] at still
  exact still.2

theorem Activating.released {serviceLock startupLock startupReleased : Bool}
    {daemonLock : Option LockAnswer}
    (holds : Activating expectedVersion locals events)
    (service : lock ≠ .service → serviceLock = locals.serviceLock)
    (startup : lock ≠ .startup → (startupLock && !startupReleased) =
      (locals.startupLock && !locals.startupReleased))
    (daemon : lock ≠ .daemon → daemonLock = locals.daemonLock) :
    Activating expectedVersion
      { locals with serviceLock, startupLock, startupReleased, daemonLock }
      (.released lock true :: events) := by
  refine ⟨⟨?_, ?_, ?_⟩, holds.candidates.cons (by simp) fun _ => rfl,
    holds.previous.cons (by simp), holds.owners.cons (.inl rfl)⟩
  · intro still
    by_cases same : lock = .service
    · rw [same, held_released] at still
      cases still
    · rw [service same]
      exact holds.locks.service (held_of_released still)
  · intro still
    by_cases same : lock = .startup
    · rw [same, held_released] at still
      cases still
    · rw [startup same]
      exact holds.locks.startup (held_of_released still)
  · intro still
    by_cases same : lock = .daemon
    · rw [same, held_released] at still
      cases still
    · rw [daemon same]
      exact holds.locks.daemon (held_of_released still)

theorem releaseLock_assures {Before Released : Assertion}
    {Failed : ActivationError → Assertion} (returned : ∀ locals events,
      Before locals events → Released locals (.released lock true :: events))
    (failed : ∀ error locals events, Before locals events →
      Failed error locals (.released lock false :: events)) :
    Assures Before (releaseLock operations lock) (fun _ => Released) Failed :=
  assures_ask (fun locals events _ holds _ => returned locals events holds)
    fun locals events error holds => failed error locals events holds

theorem Activating.start (holds : Activating expectedVersion locals events)
    (candidate : locals.candidateRuntime = none)
    (unstarted : locals.serviceStarted = false) :
    Activating expectedVersion locals (.started :: events) := by
  refine ⟨holds.locks.cons fun _ => rfl, ⟨⟨holds.candidates.quiet, ?_⟩, ?_⟩,
    holds.previous.cons (by simp), holds.owners.cons (.inr (.inl unstarted))⟩
  · intro _ other
    rw [← Bool.not_eq_true]
    intro running
    have known := holds.candidates.running other running
    rw [candidate] at known
    cases known
  · exact holds.candidates.running

theorem startService_assures {start : Option String → Operation σ StartAnswer}
    {owner : Option String} : Assures (Releasing expectedVersion true true)
    (startService start owner)
    (fun _ locals events => Releasing expectedVersion true true locals events ∧
      .started ∈ events) (fun _ => Activating expectedVersion) := by
  have next : ∀ locals events, Releasing expectedVersion true true locals
      events → Releasing expectedVersion true true locals
        (.started :: events) := fun locals events holds =>
    { holds with
      activating := holds.activating.start holds.candidate holds.unstarted }
  exact assures_ask (fun locals events _ holds _ =>
    ⟨next locals events holds, mem_cons_self⟩)
    fun locals events _ holds => (next locals events holds).activating

theorem handOver_assures : Assures (Installed expectedVersion candidate)
    (handOver operations candidate) (fun _ => HandedOver expectedVersion)
    (fun _ => Activating expectedVersion) := by
  have stopped : Assures (Installed expectedVersion candidate)
      (stopCandidate operations candidate)
      (fun _ locals events => Releasing expectedVersion false false
        { locals with candidateRuntime := none } events)
      (fun _ => Activating expectedVersion) := by
    apply assures_ask
    · rintro locals events _ ⟨holds, known, installed, unstarted⟩ _
      exact ⟨candidateStopped_idle holds known, rfl, nofun, nofun, installed,
        unstarted⟩
    · rintro locals events error ⟨holds, -⟩
      exact candidateStopped_failed _ holds
  have daemon : Assures (Releasing expectedVersion false false)
      (releaseLock operations .daemon)
      (fun _ locals events => Releasing expectedVersion true false
        { locals with daemonLock := none } events)
      (fun _ => Activating expectedVersion) := by
    apply releaseLock_assures
    · intro locals events holds
      exact ⟨holds.activating.released (fun _ => rfl) (fun _ => rfl)
        fun differ => absurd rfl differ, holds.candidate, fun _ => rfl, nofun,
        holds.installed, holds.unstarted⟩
    · exact fun _ _ _ holds => holds.activating.releaseFailed _
  have startup : Assures (Releasing expectedVersion true false)
      (releaseLock operations .startup)
      (fun _ locals events => Releasing expectedVersion true true
        { locals with startupReleased := true } events)
      (fun _ => Activating expectedVersion) := by
    apply releaseLock_assures
    · intro locals events holds
      exact ⟨holds.activating.released (fun _ => rfl)
        (fun differ => absurd rfl differ) fun _ => rfl, holds.candidate,
        fun _ => holds.daemon rfl, fun _ => rfl, holds.installed,
        holds.unstarted⟩
    · exact fun _ _ _ holds => holds.activating.releaseFailed _
  apply assures_noted stopped
  intro _
  apply assures_noted daemon
  intro _
  apply assures_noted startup
  intro _
  apply assures_bind assures_locals
  intro locals
  apply assures_bind (startService_assures.weaken (fun _ _ => And.left)
    (fun _ _ _ => id) fun _ _ _ => id)
  intro start
  apply assures_bind (assures_require fun _ _ holds _ => holds.1.activating)
  intro _
  have noted : Assures (σ := σ)
      (fun locals events => (Releasing expectedVersion true true locals events ∧
        .started ∈ events) ∧ (start.ok && start.active) = true)
      (assign fun locals => { locals with serviceStarted := true })
      (fun _ => HandedOver expectedVersion)
      (fun _ => Activating expectedVersion) := by
    apply assures_assign
    rintro locals events ⟨⟨holds, shown⟩, -⟩
    have pending := holds.activating.owners.installed holds.installed
      holds.unstarted
    refine ⟨⟨holds.activating.locks, holds.activating.candidates,
      holds.activating.previous, holds.activating.owners.pending, nofun,
      fun _ => holds.installed, ?_⟩, holds.candidate, holds.daemon rfl,
      holds.startup rfl, rfl, pending, shown⟩
    intro _ none
    rw [none] at pending
    cases pending
  exact assures_bind noted fun _ => assures_pure fun _ _ holds => holds

theorem handedOver_keptByService :
    KeptByService (HandedOver expectedVersion) :=
  fun _ _ _ service unchanged holds =>
    ⟨activating_keptByService _ _ _ service unchanged holds.activating,
      holds.candidate, holds.daemon, holds.startup, holds.started,
      holds.transaction, mem_cons_of_mem _ holds.shown⟩

theorem handedOver_keptByStop : KeptByStop (HandedOver expectedVersion) :=
  fun _ _ _ holds =>
    ⟨⟨holds.activating.locks.cons fun _ => rfl,
        holds.activating.candidates.cons (by simp) fun _ => rfl,
        holds.activating.previous.cons fun _ _ => holds.shown,
        holds.activating.owners.cons (.inr (.inr holds.transaction))⟩,
      holds.candidate, holds.daemon, holds.startup, holds.started,
      holds.transaction, mem_cons_of_mem _ holds.shown⟩

/-- The service was verified and its owner committed. -/
structure Activated (expectedVersion : String) (locals : ActivationLocals)
    (events : List ActivationEvent) : Prop where
  activating : Activating expectedVersion locals events
  candidate : locals.candidateRuntime = none
  daemon : locals.daemonLock = none
  startup : locals.startupReleased = true
  verified : CandidateVerified expectedVersion events
  committed : ∃ owner, OwnerCommitted owner events

theorem commitTransaction_assures {transaction : Option String} : Assures (fun
    locals events => Verifying (HandedOver expectedVersion) expectedVersion
    locals events ∧ locals.serviceOwnerTransaction = transaction)
    (commitTransaction operations transaction) (fun _ => Activated
    expectedVersion) (fun _ => Activating expectedVersion) := by
  cases transaction with
  | none =>
    apply assures_pure
    rintro locals events ⟨⟨holds, -⟩, none⟩
    have pending := holds.transaction
    rw [none] at pending
    cases pending
  | some owner =>
    -- The pending transaction is the one which an installation carried.
    have keptByService : KeptByService fun locals events =>
        HandedOver expectedVersion locals events ∧
          locals.serviceOwnerTransaction = some owner :=
      fun _ _ _ service unchanged holds =>
        ⟨handedOver_keptByService _ _ _ service unchanged holds.1, holds.2⟩
    have keptByStop : KeptByStop fun locals events =>
        HandedOver expectedVersion locals events ∧
          locals.serviceOwnerTransaction = some owner :=
      fun _ _ _ holds => ⟨handedOver_keptByStop _ _ _ holds.1, holds.2⟩
    apply assures_bind
      ((commitVerifiedServiceOwner_assures keptByService keptByStop).weaken
        (fun _ _ holds => ⟨⟨holds.1.1, holds.2⟩, holds.1.2⟩)
        (fun _ _ _ => id) fun _ _ _ holds => holds.1.1.activating)
    intro _
    apply assures_assign
    rintro locals events ⟨⟨⟨holds, pending⟩, verified⟩, done⟩
    have known := holds.activating.owners.pending owner pending
    refine ⟨⟨holds.activating.locks, holds.activating.candidates,
      holds.activating.previous, nofun, ?_, holds.activating.owners.started,
      fun _ _ => verified⟩, holds.candidate, holds.daemon, holds.startup,
      verified, owner, done, known⟩
    intro _ unstarted
    rw [show locals.serviceStarted = true from holds.started] at unstarted
    cases unstarted

theorem verifyService_assures {attempts : Attempts} : Assures
    (HandedOver attempts.expectedVersion) (verifyService operations attempts)
    (fun _ locals events => Activated attempts.expectedVersion locals events ∧
      locals.serviceLock = false)
    (fun _ => Activating attempts.expectedVersion) := by
  apply assures_bind
    ((waitForActivatedRuntime_assures handedOver_keptByService _ _ _).weaken
      (fun _ _ => id) (fun _ _ _ => id) fun _ _ _ holds => holds.activating)
  intro convergence
  have converged : Assures (σ := σ)
      (fun locals events =>
        HandedOver attempts.expectedVersion locals events ∧
          (convergence.isOk = true →
            CandidateVerified attempts.expectedVersion events))
      (fromExcept (convergence.mapError fun reason => { message :=
        s!"persistent runtime activation did not converge ({reason})" }))
      (fun _ => Verifying (HandedOver attempts.expectedVersion)
        attempts.expectedVersion)
      (fun _ => Activating attempts.expectedVersion) := by
    cases convergence with
    | ok value => exact assures_pure fun _ _ holds => ⟨holds.1, holds.2 rfl⟩
    | error reason => exact assures_fail fun _ _ holds => holds.1.activating
  apply assures_bind converged
  intro value
  apply assures_bind assures_locals
  intro locals
  apply assures_bind (commitTransaction_assures.weaken (fun current events
    holds => ⟨holds.1, by rw [holds.2]⟩) (fun _ _ _ => id) fun _ _ _ => id)
  intro _
  have released : Assures (Activated attempts.expectedVersion)
      (releaseLock operations .service)
      (fun _ locals events =>
        Activated attempts.expectedVersion
          { locals with serviceLock := false } events ∧
          ({ locals with serviceLock := false } : ActivationLocals).serviceLock
            = false)
      (fun _ => Activating attempts.expectedVersion) := by
    apply releaseLock_assures
    · intro locals events holds
      have ⟨owner, committed⟩ := holds.committed
      exact ⟨⟨holds.activating.released (fun differ => absurd rfl differ)
        (fun _ => rfl) fun _ => rfl, holds.candidate, holds.daemon,
        holds.startup, holds.verified.cons rfl, owner, committed.cons⟩, rfl⟩
    · exact fun _ _ _ holds => holds.activating.releaseFailed _
  exact assures_noted released fun _ => assures_pure fun _ _ holds => holds

theorem activateGuarded_assures (carries : CarriesTransaction operations)
    {attempts : Attempts} : Assures (Exactly {} [])
    (activateGuarded operations attempts)
    (fun _ locals events => Activated attempts.expectedVersion locals events ∧
      locals.serviceLock = false)
    (fun _ => Activating attempts.expectedVersion) := by
  apply assures_bind acquireLocks_assures
  intro _
  apply assures_bind stopPrevious_assures
  intro _
  apply assures_bind acquireDaemonLock_assures
  intro _
  apply assures_bind runCandidate_assures
  intro candidate
  apply assures_bind (installCandidate_assures carries)
  intro _
  apply assures_bind handOver_assures
  intro serviceStart
  apply assures_bind verifyService_assures
  intro convergence
  apply assures_bind assures_locals
  intro locals
  exact assures_pure fun _ _ holds => holds.1

end Steps

end MachineBridge.Activation
