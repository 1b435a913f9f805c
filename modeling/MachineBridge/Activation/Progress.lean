import MachineBridge.Activation.Assertions

/-!
# The guarded part of an activation

One invariant connects the variables with the events at every point at which an
operation may throw: the variables know every lock that is held and every
candidate that is running, whether the previous service was stopped, and whose
transaction is pending.  The settlement relies on nothing else.
-/

namespace MachineBridge.Activation

open Foundation List

/-- Every lock that is held can be released. -/
structure LocksKnown (serviceLock startupLock : Bool)
    (daemonLock : Option LockAnswer) (events : List ActivationEvent) :
    Prop where
  service : held .service events = true → serviceLock = true
  startup : held .startup events = true → startupLock = true
  daemon : held .daemon events = true →
    daemonLock.any LockAnswer.releasable = true

structure CandidatesKnown (runtime : Option Candidate)
    (events : List ActivationEvent) : Prop where
  quiet : QuietStarts events
  running : ∀ candidate, candidateRunning candidate events = true →
    runtime = some candidate

structure PreviousKnown (providerStopped : Bool)
    (runtime : Option RuntimeIdentity) (events : List ActivationEvent) :
    Prop where
  stopped : PreviousStopped events → providerStopped = true
  identified : ∀ identity, runtime = some identity →
    ∃ ownership, .ownership ownership ∈ events ∧
      ownership.previousRuntime = identity

/-- An installed service has a pending owner until it was verified and its
owner committed. -/
structure OwnersKnown (expectedVersion : String)
    (autostartInstalled serviceStarted : Bool) (transaction : Option String)
    (events : List ActivationEvent) : Prop where
  pending : ∀ owner, transaction = some owner →
    ∃ answer, .installed answer ∈ events ∧
      answer.transaction = .pending owner
  installed : autostartInstalled = true → serviceStarted = false →
    transaction.isSome = true
  started : serviceStarted = true → autostartInstalled = true
  committed : serviceStarted = true → transaction = none →
    CandidateVerified expectedVersion events

structure Activating (expectedVersion : String) (locals : ActivationLocals)
    (events : List ActivationEvent) : Prop where
  locks : LocksKnown locals.serviceLock
    (locals.startupLock && !locals.startupReleased) locals.daemonLock events
  candidates : CandidatesKnown locals.candidateRuntime events
  previous : PreviousKnown locals.providerStopped
    locals.previousServiceRuntime events
  owners : OwnersKnown expectedVersion locals.autostartInstalled
    locals.serviceStarted locals.serviceOwnerTransaction events

section OneMore

variable {expectedVersion : String} {event : ActivationEvent}
  {events : List ActivationEvent}

theorem LocksKnown.cons {serviceLock startupLock : Bool}
    {daemonLock : Option LockAnswer}
    (known : LocksKnown serviceLock startupLock daemonLock events)
    (other : ∀ lock, held lock (event :: events) = held lock events) :
    LocksKnown serviceLock startupLock daemonLock (event :: events) where
  service := by
    rw [other]
    exact known.service
  startup := by
    rw [other]
    exact known.startup
  daemon := by
    rw [other]
    exact known.daemon

theorem CandidatesKnown.cons {runtime : Option Candidate}
    (known : CandidatesKnown runtime events) (different : event ≠ .started)
    (other : ∀ candidate, candidateRunning candidate (event :: events) =
      candidateRunning candidate events) :
    CandidatesKnown runtime (event :: events) where
  quiet := known.quiet.cons different
  running := by
    intro candidate running
    rw [other] at running
    exact known.running candidate running

theorem PreviousKnown.cons {providerStopped : Bool}
    {runtime : Option RuntimeIdentity}
    (known : PreviousKnown providerStopped runtime events)
    (other : ∀ answer, event = .stopped answer → .started ∈ events) :
    PreviousKnown providerStopped runtime (event :: events) where
  stopped stopped := known.stopped (stopped.of_cons other)
  identified := by
    intro identity same
    obtain ⟨ownership, seen, held⟩ := known.identified identity same
    exact ⟨ownership, mem_cons_of_mem _ seen, held⟩

theorem OwnersKnown.cons {autostartInstalled serviceStarted : Bool}
    {transaction : Option String} (known : OwnersKnown expectedVersion
    autostartInstalled serviceStarted transaction events) (unchanged :
    event.changesService = false ∨ serviceStarted = false ∨ transaction.isSome
    = true) : OwnersKnown expectedVersion autostartInstalled serviceStarted
    transaction (event :: events) where
  pending := by
    intro owner same
    obtain ⟨answer, seen, carried⟩ := known.pending owner same
    exact ⟨answer, mem_cons_of_mem _ seen, carried⟩
  __ := known
  committed := by
    intro started none
    rcases unchanged with unchanged | never | some
    · exact (known.committed started none).cons unchanged
    · rw [started] at never
      cases never
    · rw [none] at some
      cases some

theorem Activating.initial : Activating expectedVersion {} [] where
  locks := ⟨by simp [held], by simp [held], by simp [held]⟩
  candidates := ⟨trivial, by simp [candidateRunning]⟩
  previous := by
    refine ⟨?_, by simp⟩
    rintro ⟨later, earlier, answer, split, -⟩
    simp at split
  owners := ⟨by simp, by simp, by simp, by simp⟩

theorem activating_keptByService :
    KeptByService (Activating expectedVersion) := by
  intro locals events event service unchanged holds
  refine ⟨holds.locks.cons fun _ => held_aboutService service,
    holds.candidates.cons ?_ fun _ => candidateRunning_aboutService service,
    holds.previous.cons ?_, holds.owners.cons (.inl unchanged)⟩
  · rintro rfl
    cases unchanged
  · rintro answer rfl
    cases unchanged

end OneMore

section Steps

variable {σ Readiness : Type} {operations : Operations σ Readiness}
  {expectedVersion : String}

/-- The variables once both locks are taken. -/
def lockedLocals : ActivationLocals :=
  { serviceLock := true, startupLock := true }

def lockedEvents : List ActivationEvent :=
  [.acquired .startup, .acquired .service]

theorem activating_locked (expectedVersion : String) :
    Activating expectedVersion lockedLocals lockedEvents where
  locks := ⟨by simp [lockedLocals], by simp [lockedLocals],
    by simp [held, lockedEvents]⟩
  candidates := ⟨by simp [QuietStarts, lockedEvents],
    by simp [candidateRunning, lockedEvents]⟩
  previous := by
    refine ⟨?_, by simp [lockedLocals]⟩
    intro stopped
    obtain ⟨answer, member⟩ := stopped.mem
    simp [lockedEvents] at member
  owners := ⟨by simp [lockedLocals], by simp [lockedLocals],
    by simp [lockedLocals], by simp [lockedLocals]⟩

theorem acquireLocks_assures : Assures (Exactly {} [])
    (acquireLocks operations) (fun _ => Exactly lockedLocals lockedEvents)
    (fun _ => Activating expectedVersion) := by
  have idle : Activating expectedVersion {} [] := Activating.initial
  have locked : Activating expectedVersion { serviceLock := true }
      [.acquired .service] :=
    ⟨⟨by simp, by simp [held], by simp [held]⟩,
      idle.candidates.cons (by simp) fun _ => rfl,
      idle.previous.cons (by simp), idle.owners.cons (.inl rfl)⟩
  apply assures_bind (assures_ask_exactly fun _ => idle)
  intro service
  apply assures_require_exactly
  · intro refused
    simpa [acquiredEvent, refused] using idle
  intro granted
  apply assures_require_exactly
  · intro refused
    simpa [acquiredEvent, refused] using idle
  intro releasable
  apply assures_bind assures_assign_exactly
  intro _
  rw [acquiredEvent, granted, releasable]
  apply assures_bind (assures_ask_exactly fun _ => locked)
  intro startup
  apply assures_require_exactly
  · intro refused
    simpa [startupEvent, refused] using locked
  intro releasable
  rw [startupEvent, releasable]
  exact assures_assign_exactly

variable {answer : OwnershipAnswer} {events : List ActivationEvent}
  {locals : ActivationLocals} {Kept : Assertion}

theorem validateActivationOwnership_eq_ok
    {value : Bool × Option RuntimeIdentity}
    (valid : validateActivationOwnership answer = .ok value) : value =
    (answer.previousActive,
      if answer.previousActive then some answer.previousRuntime else none) :=
    by
  simp only [validateActivationOwnership] at valid
  split at valid
  · cases valid
  split at valid
  · cases valid
  split at valid
  · cases valid
  split at valid
  · cases valid
  split at valid
  case isTrue inactive =>
    cases valid
    simp_all
  case isFalse active =>
    split at valid
    · cases valid
    · cases valid
      simp_all

def inspectedEvents (answer : OwnershipAnswer) : List ActivationEvent :=
  .ownership answer :: lockedEvents

theorem not_previousStopped_inspected :
    ¬ PreviousStopped (inspectedEvents answer) := by
  intro stopped
  obtain ⟨stop, member⟩ := stopped.mem
  simp [inspectedEvents, lockedEvents] at member

theorem previousStopped_first {stop : Option StopAnswer}
    (stopped : PreviousStopped (.stopped stop :: inspectedEvents answer)) :
    answer.previousActive = true ∨ ∃ value, stop = some value ∧
    validateProviderStop value = .ok true := by
  obtain ⟨later, earlier, other, split, unstarted, reason⟩ := stopped
  cases later with
  | nil =>
    obtain ⟨same, rfl⟩ := List.cons.inj split
    cases same
    rcases reason with ⟨ownership, seen, active⟩ | restored
    · simp only [inspectedEvents, lockedEvents, mem_cons, not_mem_nil,
        or_false, reduceCtorEq, ActivationEvent.ownership.injEq] at seen
      rw [seen] at active
      exact .inl active
    · exact .inr restored
  | cons first later =>
    obtain ⟨-, rest⟩ := List.cons.inj split
    exact absurd ⟨later, earlier, other, rest, unstarted, reason⟩
      not_previousStopped_inspected

section

variable (answer : OwnershipAnswer)

/-- The variables after the inspection. -/
def inspectedLocals : ActivationLocals :=
  { lockedLocals with
    previousServiceRuntime :=
      if answer.previousActive then some answer.previousRuntime else none }

theorem activating_inspected : Activating expectedVersion
    (inspectedLocals answer) (inspectedEvents answer) where
  locks := (activating_locked expectedVersion).locks.cons fun _ =>
    held_aboutService rfl
  candidates := (activating_locked expectedVersion).candidates.cons (by simp)
    fun _ => candidateRunning_aboutService rfl
  previous := by
    refine ⟨fun stopped => absurd stopped not_previousStopped_inspected, ?_⟩
    intro identity known
    refine ⟨answer, by simp [inspectedEvents], ?_⟩
    simp only [inspectedLocals] at known
    split at known
    · exact Option.some.inj known
    · cases known
  owners := (activating_locked expectedVersion).owners.cons (.inl rfl)

end

theorem activating_stopped {stop : Option StopAnswer} {providerStopped : Bool}
    (known : answer.previousActive = true ∨
      (∃ value, stop = some value ∧ validateProviderStop value = .ok true) →
      providerStopped = true) :
    Activating expectedVersion
      { inspectedLocals answer with providerStopped }
      (.stopped stop :: inspectedEvents answer) := by
  have before : Activating expectedVersion (inspectedLocals answer)
      (inspectedEvents answer) := activating_inspected answer
  refine ⟨before.locks.cons fun _ => held_aboutService rfl,
    before.candidates.cons (by simp) fun _ => candidateRunning_aboutService rfl,
    ⟨fun stopped => known (previousStopped_first stopped), ?_⟩,
    before.owners.cons (.inr (.inl rfl))⟩
  intro identity same
  obtain ⟨ownership, seen, held⟩ := before.previous.identified identity same
  exact ⟨ownership, mem_cons_of_mem _ seen, held⟩

/-- What the variables say before a service is installed. -/
structure Uninstalled (locals : ActivationLocals) : Prop where
  candidate : locals.candidateRuntime = none
  installed : locals.autostartInstalled = false
  started : locals.serviceStarted = false
  transaction : locals.serviceOwnerTransaction = none

theorem stopPrevious_assures : Assures (Exactly lockedLocals lockedEvents)
    (stopPrevious operations expectedVersion)
    (fun _ locals events => Activating expectedVersion locals events ∧
      Uninstalled locals ∧ locals.daemonLock = none)
    (fun _ => Activating expectedVersion) := by
  apply assures_bind (assures_ask_exactly fun _ => activating_locked _)
  intro answer
  apply assures_fromExcept_exactly
  · exact fun _ _ => activating_keptByService _ _ _ rfl rfl
      (activating_locked _)
  intro ownership valid
  obtain rfl := validateActivationOwnership_eq_ok valid
  apply assures_bind assures_assign_exactly
  intro _
  apply assures_bind (assures_ask_exactly fun _ => activating_inspected answer)
  intro _
  apply assures_bind assures_assign_exactly
  intro _
  have stopped : Assures
      (Exactly { inspectedLocals answer with
        providerStopped := answer.previousActive } (inspectedEvents answer))
      (stopAutostart operations)
      (fun stop => Exactly { inspectedLocals answer with
        providerStopped := answer.previousActive }
        (.stopped (some stop) :: inspectedEvents answer))
      (fun _ => Activating expectedVersion) := by
    apply assures_ask_exactly
    intro error
    apply activating_stopped
    rintro (active | ⟨value, same, -⟩)
    · exact active
    · cases same
  apply assures_bind stopped
  intro stop
  apply assures_fromExcept_exactly
  · intro error refused
    apply activating_stopped
    rintro (active | ⟨value, same, restore⟩)
    · exact active
    · cases same
      rw [refused] at restore
      cases restore
  intro restoreRequired accepted
  apply assures_assign
  rintro _ _ ⟨rfl, rfl⟩
  refine ⟨activating_stopped ?_, ⟨rfl, rfl, rfl, rfl⟩, rfl⟩
  rintro (active | ⟨value, same, restore⟩)
  · simp [active]
  · cases same
    rw [accepted] at restore
    cases restore
    rfl

theorem acquireDaemonLock_assures : Assures
    (fun locals events => Activating expectedVersion locals events ∧
      Uninstalled locals ∧ locals.daemonLock = none)
    (acquireDaemonLock operations)
    (fun _ locals events => Activating expectedVersion locals events ∧
      Uninstalled locals) (fun _ => Activating expectedVersion) := by
  -- The lock may be held before the variable is assigned.
  have asked : Assures
      (fun locals events => Activating expectedVersion locals events ∧
        Uninstalled locals ∧ locals.daemonLock = none)
      (ask operations.acquireDaemonLock (acquiredEvent .daemon))
      (fun answer locals events =>
        Activating expectedVersion { locals with daemonLock := some answer }
          events ∧ Uninstalled locals)
      (fun _ => Activating expectedVersion) := by
    apply assures_ask
    · rintro locals events answer ⟨holds, uninstalled, unlocked⟩ _
      refine ⟨?_, uninstalled⟩
      cases granted : answer.acquired && answer.releasable with
      | true =>
        have releasable := (Bool.and_eq_true_iff.mp granted).2
        simp only [acquiredEvent, granted, if_true, cons_append, nil_append]
        exact ⟨⟨holds.locks.service, holds.locks.startup,
            fun _ => by simpa using releasable⟩,
          holds.candidates.cons (by simp) fun _ => rfl,
          holds.previous.cons (by simp), holds.owners.cons (.inl rfl)⟩
      | false =>
        simp only [acquiredEvent, granted, Bool.false_eq_true, if_false,
          nil_append]
        refine { holds with
          locks := ⟨holds.locks.service, holds.locks.startup, ?_⟩ }
        intro taken
        have known := holds.locks.daemon taken
        rw [unlocked] at known
        cases known
    · exact fun _ _ _ holds => holds.1
  apply assures_bind asked
  intro answer
  have assigned : Assures (σ := σ)
      (fun locals events =>
        Activating expectedVersion { locals with daemonLock := some answer }
          events ∧ Uninstalled locals)
      (assign fun locals => { locals with daemonLock := some answer })
      (fun _ locals events => Activating expectedVersion locals events ∧
        Uninstalled locals)
      (fun _ => Activating expectedVersion) := by
    apply assures_assign
    rintro locals events ⟨holds, uninstalled⟩
    exact ⟨holds, uninstalled.candidate, uninstalled.installed,
      uninstalled.started, uninstalled.transaction⟩
  apply assures_bind assigned
  intro _
  apply assures_bind (assures_require fun _ _ holds _ => holds.1)
  intro _
  apply (assures_require fun _ _ holds _ => holds.1.1).weaken
    (fun _ _ => id) _ fun _ _ _ => id
  exact fun _ _ _ holds => holds.1.1

theorem Activating.mark (holds : Activating expectedVersion locals events)
    (prepared : Bool) :
    Activating expectedVersion { locals with remotePrepared := prepared }
      events :=
  ⟨holds.locks, holds.candidates, holds.previous, holds.owners⟩

def KeptByMark (Kept : Assertion) : Prop :=
  ∀ locals events prepared, Kept locals events →
    Kept { locals with remotePrepared := prepared } events

theorem prepare_assures (marked : KeptByMark Kept)
    {operation : σ → Preparation Readiness × σ} :
    Assures Kept (prepare operation) (fun _ => Kept) (fun _ => Kept) := by
  apply Process.ensures_perform
  · intro state value after kept outcome
    obtain ⟨-, rfl⟩ := Prod.mk.inj outcome
    exact marked _ _ _ kept
  · intro state error after kept outcome
    obtain ⟨-, rfl⟩ := Prod.mk.inj outcome
    exact marked _ _ _ kept

theorem prepareRemoteState_assures (marked : KeptByMark Kept) : Assures Kept
    (prepareRemoteState operations) (fun _ => Kept) (fun _ => Kept) := by
  have attempted : Assures Kept
      (Process.attempt (prepare operations.prepareRemoteState)) (fun _ => Kept)
      (fun _ => Kept) :=
    assures_attempt (prepare_assures marked)
  apply assures_bind attempted
  intro prepared
  cases prepared with
  | ok readiness =>
    refine assures_bind (assures_assign ?_) fun _ =>
      assures_pure fun _ _ kept => kept
    exact fun locals events kept => marked _ _ _ kept
  | error error =>
    refine assures_bind (assures_assign ?_) fun _ =>
      assures_fail fun _ _ kept => kept
    exact fun locals events kept => marked _ _ _ kept

section

variable (expectedVersion : String)

/-- No service is installed yet, and no candidate is known. -/
def Idle : Assertion := fun locals events =>
  Activating expectedVersion locals events ∧ Uninstalled locals

/-- The candidate is known, and no service is installed yet. -/
def Candidating (candidate : Candidate) : Assertion := fun locals events =>
  Activating expectedVersion locals events ∧
    Uninstalled { locals with candidateRuntime := none } ∧
      locals.candidateRuntime = some candidate

end

theorem idle_keptByMark : KeptByMark (Idle expectedVersion) := by
  rintro locals events prepared ⟨holds, uninstalled⟩
  exact ⟨holds.mark prepared, uninstalled.candidate, uninstalled.installed,
    uninstalled.started, uninstalled.transaction⟩

theorem createRuntime_assures {readiness : Readiness} :
    Assures (Idle expectedVersion)
      (ask (operations.createRuntime readiness) fun
        | .ok (some candidate) => [.created candidate]
        | _ => [])
      (fun created locals events => Uninstalled locals ∧
        Activating expectedVersion { locals with candidateRuntime := created }
          events)
      (fun _ => Activating expectedVersion) := by
  apply assures_ask
  · rintro locals events created ⟨holds, uninstalled⟩ _
    refine ⟨uninstalled, ?_⟩
    cases created with
    | none =>
      refine { holds with candidates := ⟨holds.candidates.quiet, ?_⟩ }
      have known := holds.candidates.running
      rwa [uninstalled.candidate] at known
    | some candidate =>
      refine ⟨holds.locks.cons fun _ => rfl, ⟨holds.candidates.quiet.cons
        nofun, ?_⟩, holds.previous.cons (by simp), holds.owners.cons (.inl rfl)⟩
      intro other running
      simp only [cons_append, nil_append, candidateRunning,
        Bool.or_eq_true, beq_iff_eq] at running
      rcases running with rfl | running
      · rfl
      · have known := holds.candidates.running other running
        rw [uninstalled.candidate] at known
        cases known
  · exact fun _ _ _ holds => holds.1

theorem candidateStopped_idle {candidate : Candidate}
    (holds : Activating expectedVersion locals events)
    (known : locals.candidateRuntime = some candidate) :
    Activating expectedVersion { locals with candidateRuntime := none }
      (.candidateStopped candidate true :: events) := by
  refine ⟨holds.locks.cons fun _ => rfl, ⟨holds.candidates.quiet.cons (by simp),
    ?_⟩, holds.previous.cons (by simp), holds.owners.cons (.inl rfl)⟩
  intro other running
  rw [candidateRunning, Bool.and_eq_true, bne_iff_ne] at running
  have same := holds.candidates.running other running.2
  rw [known] at same
  exact absurd (Option.some.inj same) running.1

theorem candidateStopped_failed (candidate : Candidate)
    (holds : Activating expectedVersion locals events) : Activating
    expectedVersion locals (.candidateStopped candidate false :: events) :=
  ⟨holds.locks.cons fun _ => rfl, holds.candidates.cons (by simp) fun _ => rfl,
    holds.previous.cons (by simp), holds.owners.cons (.inl rfl)⟩

theorem stopFailedCandidate_assures {candidate : Candidate} : Assures
    (Candidating expectedVersion candidate)
    (stopFailedCandidate operations candidate) (fun _ => Idle expectedVersion)
    (fun _ => Activating expectedVersion) := by
  have stopped : Assures (Candidating expectedVersion candidate)
      (stopCandidate operations candidate)
      (fun _ locals events =>
        Idle expectedVersion { locals with candidateRuntime := none } events)
      (fun _ => Activating expectedVersion) := by
    apply assures_ask
    · rintro locals events _ ⟨holds, uninstalled, known⟩ _
      exact ⟨candidateStopped_idle holds known, uninstalled⟩
    · rintro locals events error ⟨holds, -⟩
      exact candidateStopped_failed _ holds
  exact assures_bind stopped fun _ => assures_assign fun _ _ holds => holds

theorem repairCandidate_assures (marked : KeptByMark Kept) {attempt : Nat}
    {error : ActivationError} {readiness : Readiness} {repaired : Bool} :
    Assures Kept (repairCandidate operations attempt error readiness repaired)
    (fun _ => Kept) (fun _ => Kept) := by
  unfold repairCandidate
  split
  · apply assures_bind (prepare_assures marked)
    intro readiness
    refine assures_bind (assures_assign ?_) fun _ =>
      assures_pure fun _ _ kept => kept
    exact fun locals events kept => marked _ _ _ kept
  · exact assures_pure fun _ _ kept => kept

theorem startCandidateWithRecovery_assures (remaining attempt : Nat)
    (readiness : Readiness) (repaired : Bool) : Assures (Idle expectedVersion)
    (startCandidateWithRecovery operations remaining attempt readiness repaired)
    (fun candidate => Candidating expectedVersion candidate.1)
    (fun _ => Activating expectedVersion) := by
  induction remaining generalizing attempt readiness repaired with
  | zero => exact assures_fail fun _ _ holds => holds.1
  | succ remaining induction =>
    apply assures_bind createRuntime_assures
    intro created
    cases created with
    | none =>
      apply assures_fail
      rintro locals events ⟨uninstalled, holds⟩
      rwa [← uninstalled.candidate] at holds
    | some candidate =>
      have known : Assures (σ := σ)
          (fun locals events => Uninstalled locals ∧
            Activating expectedVersion
              { locals with candidateRuntime := some candidate } events)
          (assign fun locals =>
            { locals with candidateRuntime := some candidate })
          (fun _ => Candidating expectedVersion candidate)
          (fun _ => Activating expectedVersion) := by
        apply assures_assign
        rintro locals events ⟨uninstalled, holds⟩
        exact ⟨holds, { uninstalled with candidate := rfl }, rfl⟩
      have started : Assures (Candidating expectedVersion candidate)
          (Process.attempt (ask (operations.startCandidate candidate) silent))
          (fun _ => Candidating expectedVersion candidate)
          (fun _ => Activating expectedVersion) :=
        assures_attempt
          (assures_silent (fun _ _ _ holds => holds)
            fun _ _ _ holds => holds)
      apply assures_bind known
      intro _
      apply assures_bind started
      intro outcome
      cases outcome with
      | ok value => exact assures_pure fun _ _ holds => holds
      | error error =>
        have stopped : Assures (Candidating expectedVersion candidate)
            (Process.attempt (stopFailedCandidate operations candidate)) (fun
            outcome locals events => Activating expectedVersion locals events ∧
            (outcome.isOk = true → Uninstalled locals)) (fun _ => Activating
            expectedVersion) :=
          assures_attempt (stopFailedCandidate_assures.weaken
            (fun _ _ => id) (fun _ _ _ holds => ⟨holds.1, fun _ => holds.2⟩)
            fun _ _ _ holds => ⟨holds, fun same => by cases same⟩)
        apply assures_bind stopped
        intro outcome
        cases outcome with
        | error failure => exact assures_fail fun _ _ holds => holds.1
        | ok value =>
          have cleaned : Assures (σ := σ)
              (fun locals events =>
                Activating expectedVersion locals events ∧
                  ((Except.ok value :
                    Except ActivationError PUnit).isOk = true →
                      Uninstalled locals))
              (require (recoverableCandidateStartError error &&
                remaining != 0) error)
              (fun _ => Idle expectedVersion)
              (fun _ => Activating expectedVersion) :=
            (assures_require fun _ _ holds _ => holds.1).weaken
              (fun _ _ => id)
              (fun _ _ _ holds => ⟨holds.1.1, holds.1.2 rfl⟩)
              fun _ _ _ => id
          apply assures_bind cleaned
          intro _
          apply assures_bind
            ((repairCandidate_assures idle_keptByMark).weaken
              (fun _ _ => id) (fun _ _ _ => id)
              fun _ _ _ holds => holds.1)
          intro repair
          apply assures_bind (assures_silent
            (fun _ _ _ holds => holds) fun _ _ _ holds => holds.1)
          intro _
          exact induction _ _ _

theorem runCandidate_assures {attempts : Nat} : Assures (Idle expectedVersion)
    (runCandidate operations attempts) (Candidating expectedVersion)
    (fun _ => Activating expectedVersion) := by
  apply assures_bind ((prepareRemoteState_assures idle_keptByMark).weaken
    (fun _ _ => id) (fun _ _ _ => id) fun _ _ _ holds => holds.1)
  intro readiness
  apply assures_bind (startCandidateWithRecovery_assures _ _ _ _)
  rintro ⟨candidate, repaired⟩
  have assigned : Assures (σ := σ) (Candidating expectedVersion candidate)
      (assign fun locals => { locals with
        candidateRuntime := some candidate
        candidateRelayVerified := true
        candidateRecoveryRedeployed := repaired })
      (fun _ => Candidating expectedVersion candidate)
      (fun _ => Activating expectedVersion) := by
    apply assures_assign
    rintro locals events ⟨holds, uninstalled, known⟩
    refine ⟨{ holds with candidates := ?_ },
      { uninstalled with candidate := rfl }, rfl⟩
    rw [← known]
    exact holds.candidates
  exact assures_bind assigned fun _ => assures_pure fun _ _ holds => holds

end Steps

end MachineBridge.Activation
