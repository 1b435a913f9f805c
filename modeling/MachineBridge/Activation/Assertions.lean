import MachineBridge.Activation.Events

/-!
# Assertions about the steps of an activation

An assertion speaks about the variables and the events.  The operations answer
as they like, so a rule for them asks that the assertion after an operation
follows from the one before it for every answer.  The functions which both the
activation and its settlement use are described once, for every assertion that
their events keep.
-/

namespace MachineBridge.Activation

open Foundation

abbrev Assertion := ActivationLocals → List ActivationEvent → Prop

section Rules

variable {σ α β : Type}

/-- The activation's own form of `Process.Ensures`. -/
def Assures (Before : Assertion) (process : ActivationProcess σ α)
    (After : α → Assertion) (Failed : ActivationError → Assertion) : Prop :=
  Process.Ensures (fun state => Before state.locals state.events) process
    (fun value state => After value state.locals state.events)
    (fun error state => Failed error state.locals state.events)

variable {Before : Assertion} {Failed : ActivationError → Assertion}

variable {After : α → Assertion} {process : ActivationProcess σ α}

theorem assures_pure {value : α}
    (holds : ∀ locals events, Before locals events → After value locals events)
    : Assures (σ := σ) Before (pure value) After Failed :=
  Process.ensures_pure fun state => holds state.locals state.events

theorem assures_fail {error : ActivationError} (holds : ∀ locals events,
      Before locals events → Failed error locals events) :
    Assures (σ := σ) Before (Process.fail error) After Failed :=
  Process.ensures_fail fun state => holds state.locals state.events

theorem assures_bind {next : α → ActivationProcess σ β}
    {Between : α → Assertion} {After : β → Assertion}
    (first : Assures Before process Between Failed)
    (second : ∀ value, Assures (Between value) (next value) After Failed) :
    Assures Before (process >>= next) After Failed :=
  Process.ensures_bind first second

theorem assures_attempt {After : Except ActivationError α → Assertion}
    {Other : ActivationError → Assertion} (holds : Assures Before process (fun
    value => After (.ok value)) (fun error => After (.error error))) : Assures
    Before (Process.attempt process) After Other :=
  Process.ensures_attempt holds

theorem assures_ask {operation : Operation σ α}
    {shown : Except ActivationError α → List ActivationEvent}
    (succeeded : ∀ locals events value, Before locals events →
      (∃ environment, (operation environment).1 = .ok value) →
      After value locals (shown (.ok value) ++ events))
    (failed : ∀ locals events error, Before locals events →
      Failed error locals (shown (.error error) ++ events)) :
    Assures Before (ask operation shown) After Failed := by
  apply Process.ensures_perform
  · intro state value after before outcome
    cases result : operation state.environment with
    | mk answer environment =>
      rw [result] at outcome
      cases outcome
      exact succeeded _ _ value before ⟨state.environment, by rw [result]⟩
  · intro state error after before outcome
    cases result : operation state.environment with
    | mk answer environment =>
      rw [result] at outcome
      cases outcome
      exact failed _ _ error before

theorem assures_silent {operation : Operation σ α}
    (succeeded : ∀ locals events value, Before locals events →
      After value locals events) (failed : ∀ locals events error,
      Before locals events → Failed error locals events) :
    Assures Before (ask operation silent) After Failed :=
  assures_ask (fun locals events value before _ =>
    succeeded locals events value before) failed

theorem assures_assign {change : ActivationLocals → ActivationLocals}
    {After : PUnit → Assertion} (holds : ∀ locals events,
      Before locals events → After ⟨⟩ (change locals) events) :
    Assures (σ := σ) Before (assign change) After Failed :=
  Process.ensures_modify fun state => holds state.locals state.events

theorem assures_locals : Assures (σ := σ) Before locals
    (fun value locals events => Before locals events ∧ value = locals) Failed
    :=
  Process.ensures_inspect fun _ before => ⟨before, rfl⟩

theorem assures_require {condition : Bool} {error : ActivationError}
    (holds : ∀ locals events, Before locals events → condition = false →
      Failed error locals events) : Assures (σ := σ) Before
    (require condition error)
    (fun _ locals events => Before locals events ∧ condition = true) Failed :=
    by
  rw [require]
  split
  case isTrue granted => exact assures_pure fun _ _ before => ⟨before, granted⟩
  case isFalse refused =>
    exact assures_fail fun locals events before =>
      holds locals events before (Bool.not_eq_true _ ▸ refused)

theorem assures_fromExcept {result : Except ActivationError α}
    (holds : ∀ locals events error, Before locals events →
      result = .error error → Failed error locals events) : Assures (σ := σ)
    Before (fromExcept result)
    (fun value locals events => Before locals events ∧ result = .ok value)
    Failed := by
  cases result with
  | ok value => exact assures_pure fun _ _ before => ⟨before, rfl⟩
  | error error =>
    exact assures_fail fun locals events before =>
      holds locals events error before rfl

theorem Assures.weaken {Stronger : Assertion} {Weaker : α → Assertion}
    {Other : ActivationError → Assertion}
    (holds : Assures Before process After Failed)
    (before : ∀ locals events, Stronger locals events → Before locals events)
    (after : ∀ value locals events, After value locals events →
      Weaker value locals events) (failed : ∀ error locals events,
      Failed error locals events → Other error locals events) :
    Assures Stronger process Weaker Other :=
  Process.Ensures.weaken holds (fun state => before state.locals state.events)
    (fun value state => after value state.locals state.events)
    (fun error state => failed error state.locals state.events)

theorem assures_of_fact (Fact : Prop)
    (known : ∀ locals events, Before locals events → Fact)
    (holds : Fact → Assures Before process After Failed) :
    Assures Before process After Failed :=
  Process.ensures_of_fact (fun state => known state.locals state.events) holds

theorem assures_exists {ι : Type} {Each : ι → Assertion}
    (holds : ∀ item, Assures (Each item) process After Failed) : Assures
    (fun locals events => ∃ item, Each item locals events) process After Failed
    := by
  intro shared before
  obtain ⟨item, before⟩ := before
  exact holds item shared before

theorem assures_noted {change : ActivationLocals → ActivationLocals}
    {next : PUnit → ActivationProcess σ β} {Noted : Assertion}
    {After : β → Assertion} (first : Assures Before process (fun _ locals
    events => Noted (change locals) events) Failed)
    (second : ∀ value, Assures Noted (next value) After Failed) : Assures
    Before (process >>= fun _ => assign change >>= next) After Failed := by
  apply assures_bind first
  intro _
  exact assures_bind (assures_assign fun _ _ holds => holds) second

/-- The variables and the events are the given ones. -/
def Exactly (locals : ActivationLocals) (events : List ActivationEvent) :
    Assertion :=
  fun current observed => current = locals ∧ observed = events

section Exactly

variable {locals : ActivationLocals} {events : List ActivationEvent}

theorem assures_assign_exactly {change : ActivationLocals → ActivationLocals} :
    Assures (σ := σ) (Exactly locals events) (assign change)
    (fun _ => Exactly (change locals) events) Failed := by
  apply assures_assign
  rintro _ _ ⟨rfl, rfl⟩
  exact ⟨rfl, rfl⟩

theorem assures_ask_exactly {operation : Operation σ α}
    {shown : Except ActivationError α → List ActivationEvent}
    (failed : ∀ error, Failed error locals (shown (.error error) ++ events)) :
    Assures (Exactly locals events) (ask operation shown)
    (fun value => Exactly locals (shown (.ok value) ++ events)) Failed := by
  apply assures_ask
  · rintro _ _ value ⟨rfl, rfl⟩ _
    exact ⟨rfl, rfl⟩
  · rintro _ _ error ⟨rfl, rfl⟩
    exact failed error

theorem assures_require_exactly {condition : Bool} {error : ActivationError}
    {β : Type} {next : PUnit → ActivationProcess σ β} {After : β → Assertion}
    (failed : condition = false → Failed error locals events)
    (continues : condition = true →
      Assures (Exactly locals events) (next ⟨⟩) After Failed) : Assures
    (Exactly locals events) (require condition error >>= next) After Failed :=
    by
  apply assures_bind
  · apply assures_require
    rintro _ _ ⟨rfl, rfl⟩ refused
    exact failed refused
  intro _
  apply assures_of_fact _ fun _ _ holds => holds.2
  intro granted
  exact (continues granted).weaken (fun _ _ holds => holds.1)
    (fun _ _ _ => id) fun _ _ _ => id

theorem assures_fromExcept_exactly {result : Except ActivationError α}
    {β : Type} {next : α → ActivationProcess σ β} {After : β → Assertion}
    (failed : ∀ error, result = .error error → Failed error locals events)
    (continues : ∀ value, result = .ok value →
      Assures (Exactly locals events) (next value) After Failed) : Assures
    (Exactly locals events) (fromExcept result >>= next) After Failed := by
  apply assures_bind
  · apply assures_fromExcept
    rintro _ _ error ⟨rfl, rfl⟩ refused
    exact failed error refused
  intro value
  apply assures_of_fact _ fun _ _ holds => holds.2
  intro accepted
  exact (continues value accepted).weaken (fun _ _ holds => holds.1)
    (fun _ _ _ => id) fun _ _ _ => id

end Exactly

end Rules

/-- Inspecting, installing and committing keep the assertion. -/
def KeptByService (Kept : Assertion) : Prop :=
  ∀ locals events event, event.aboutService = true →
    event.changesService = false → Kept locals events →
    Kept locals (event :: events)

def KeptByStop (Kept : Assertion) : Prop :=
  ∀ locals events answer, Kept locals events →
    Kept locals (.stopped answer :: events)

/-- The assertion holds, and the candidate's service was verified. -/
def Verifying (Kept : Assertion) (expectedVersion : String) : Assertion :=
  fun locals events =>
    Kept locals events ∧ CandidateVerified expectedVersion events

section Shared

variable {σ Readiness : Type} {operations : Operations σ Readiness}
  {Kept : Assertion}

theorem pause_assures {remaining attempt : Nat} : Assures Kept
    (pause operations remaining attempt) (fun _ => Kept) (fun _ => Kept) := by
  rw [pause]
  split
  case isTrue => exact assures_pure fun _ _ kept => kept
  case isFalse =>
    exact assures_silent (fun _ _ _ kept => kept) fun _ _ _ kept => kept

variable {expectedVersion : String}

theorem checkConverged_assures (stable : KeptByService Kept)
    {daemon : DaemonReport} {worker : Option WorkerReport} : Assures
    (fun locals events => Kept locals events ∧ ∃ earlier,
      events = .inspected daemon :: earlier)
    (checkConverged operations expectedVersion daemon worker)
    (fun checked locals events => Kept locals events ∧
      (checked.2 = true → CandidateVerified expectedVersion events))
    (fun _ => Kept) := by
  rw [checkConverged]
  split
  case isFalse => exact assures_pure fun _ _ kept => ⟨kept.1, by simp⟩
  case isTrue ready =>
    have asked : Assures (fun locals events => Kept locals events ∧ ∃ earlier,
          events = .inspected daemon :: earlier)
        (ask operations.checkWorker (answered .checked))
        (fun worker locals events => Kept locals events ∧ ∃ earlier,
          events = .checked worker :: .inspected daemon :: earlier)
        (fun _ => Kept) := by
      apply assures_ask
      · rintro locals _ worker ⟨kept, earlier, rfl⟩ _
        exact ⟨stable _ _ _ rfl rfl kept, earlier, rfl⟩
      · exact fun _ _ _ holds => holds.1
    apply assures_bind asked
    intro worker
    apply assures_pure
    rintro locals _ ⟨kept, earlier, rfl⟩
    exact ⟨kept, fun right => ⟨[], earlier, daemon, worker, rfl, ready, right,
      by simp⟩⟩

theorem waitForActivatedRuntime_assures (stable : KeptByService Kept)
    {inspectDaemon : Operation σ DaemonReport} {attempts : Nat}
    (remaining : Nat) (daemon : Option DaemonReport)
    (worker : Option WorkerReport) : Assures Kept (waitForActivatedRuntime
    operations inspectDaemon expectedVersion attempts remaining daemon worker)
    (fun convergence locals events => Kept locals events ∧ (convergence.isOk =
    true → CandidateVerified expectedVersion events)) (fun _ => Kept) := by
  induction remaining generalizing daemon worker with
  | zero =>
    exact assures_pure fun _ _ kept =>
      ⟨kept, by simp [Except.isOk, Except.toBool]⟩
  | succ remaining induction =>
    have inspected : Assures Kept (ask inspectDaemon (answered .inspected))
        (fun daemon locals events => Kept locals events ∧ ∃ earlier,
          events = .inspected daemon :: earlier) (fun _ => Kept) :=
      assures_ask (fun _ events _ kept _ =>
        ⟨stable _ _ _ rfl rfl kept, events, rfl⟩) fun _ _ _ kept => kept
    apply assures_bind inspected
    intro daemon
    apply assures_bind (checkConverged_assures stable)
    intro checked
    split
    case isTrue converged =>
      exact assures_pure fun _ _ holds => ⟨holds.1, fun _ => holds.2 converged⟩
    case isFalse =>
      refine assures_bind ?_ fun _ => induction (some daemon) checked.1
      exact pause_assures.weaken (fun _ _ => And.left) (fun _ _ _ => id)
        fun _ _ _ => id

theorem restorePreviousServiceUntilReady_assures (Kept : Assertion)
    (stable : KeptByService Kept) (started : ∀ locals events, Kept locals
    events → Kept locals (.started :: events)) {restorePrevious : Option String
    → Operation σ StartAnswer} {inspectPrevious : Operation σ DaemonReport}
    {ownership : OwnershipAnswer} (known : ∀ locals events, Kept locals events
    → .ownership ownership ∈ events) {attempts : Nat} (remaining : Nat)
    (daemon : Option DaemonReport) (serviceStart : Option StartAnswer) :
    Assures Kept (restorePreviousServiceUntilReady operations restorePrevious
    inspectPrevious ownership.previousRuntime.version attempts remaining daemon
    serviceStart) (fun _ locals events => Kept locals events ∧ PreviousVerified
    events) (fun _ => Kept) := by
  induction remaining generalizing daemon serviceStart with
  | zero => exact assures_fail fun _ _ kept => kept
  | succ remaining induction =>
    have restarted : Assures Kept
        (Process.attempt (startService restorePrevious none)) (fun _ => Kept)
        (fun _ => Kept) :=
      assures_attempt (assures_ask
        (fun locals events _ kept _ => started locals events kept)
        fun locals events _ kept => started locals events kept)
    have inspected : Assures Kept (ask inspectPrevious (answered
        .inspectedPrevious)) (fun daemon locals events => Kept locals events ∧
        (restoredServiceReady daemon ownership.previousRuntime.version = true →
        PreviousVerified events)) (fun _ => Kept) := by
      apply assures_ask
      · intro locals events daemon kept _
        exact ⟨stable _ _ _ rfl rfl kept, fun ready =>
          ⟨[], events, daemon, ownership, rfl, known locals events kept,
            ready, by simp⟩⟩
      · exact fun _ _ _ kept => kept
    apply assures_bind restarted
    intro restored
    apply assures_bind inspected
    intro daemon
    split
    case isTrue ready =>
      exact assures_pure fun _ _ holds => ⟨holds.1, holds.2 ready⟩
    case isFalse =>
      refine assures_bind ?_ fun _ => induction (some daemon) _
      exact pause_assures.weaken (fun _ _ => And.left) (fun _ _ _ => id)
        fun _ _ _ => id

theorem requireActiveServiceStart_assures {answer : StartAnswer}
    {operation : String} {code : Option String} : Assures (σ := σ) Kept
    (requireActiveServiceStart answer operation code) (fun _ => Kept)
    (fun _ => Kept) :=
  (assures_require fun _ _ kept _ => kept).weaken (fun _ _ => id)
    (fun _ _ _ => And.left) fun _ _ _ => id

theorem stopAutostart_assures (stopped : KeptByStop Kept) :
    Assures Kept (stopAutostart operations) (fun _ => Kept) (fun _ => Kept) :=
  assures_ask (fun locals events answer kept _ =>
    stopped locals events (some answer) kept)
    fun locals events _ kept => stopped locals events none kept

theorem commitOwner_assures (stable : KeptByService Kept) {owner : String} :
    Assures (Verifying Kept expectedVersion) (commitOwner operations owner)
    (fun _ locals events => Verifying Kept expectedVersion locals events ∧
      .committed owner ∈ events) (fun _ => Verifying Kept expectedVersion) :=
    by
  refine assures_bind (?_ : Assures (Verifying Kept expectedVersion) _
    (fun committed locals events =>
      Verifying Kept expectedVersion locals events ∧
      (committed = true → .committed owner ∈ events))
    (fun _ => Verifying Kept expectedVersion)) ?_
  · apply assures_ask
    · intro locals events committed kept _
      cases committed with
      | true =>
        exact ⟨⟨stable _ _ _ rfl rfl kept.1, kept.2.cons rfl⟩,
          fun _ => List.mem_cons_self⟩
      | false => exact ⟨kept, by simp⟩
    · exact fun _ _ _ kept => kept
  · intro committed
    apply (assures_require fun _ _ holds _ => holds.1).weaken
      (fun _ _ => id) _ fun _ _ _ => id
    intro _ _ _ holds
    exact ⟨holds.1.1, holds.1.2 holds.2⟩

theorem commitVerifiedServiceOwner_assures (stable : KeptByService Kept)
    (stopped : KeptByStop Kept) {owner : String} : Assures
    (Verifying Kept expectedVersion)
    (commitVerifiedServiceOwner operations owner)
    (fun _ locals events => Verifying Kept expectedVersion locals events ∧
      .committed owner ∈ events)
    (fun error locals events => Kept locals events ∧
      error.recoveryBlocked = true) := by
  have attempted : Assures (Verifying Kept expectedVersion) (Process.attempt
      (commitOwner operations owner)) (fun result locals events => Verifying
      Kept expectedVersion locals events ∧ (result.isOk = true → .committed
      owner ∈ events)) (fun _ _ _ => False) :=
    assures_attempt ((commitOwner_assures stable).weaken (fun _ _ => id)
      (fun _ _ _ holds => ⟨holds.1, fun _ => holds.2⟩)
      fun _ _ _ holds => ⟨holds, by simp [Except.isOk, Except.toBool]⟩)
  have failing : ∀ stopError,
      (ownerCommitFailure stopError).recoveryBlocked = true := by
    intro stopError
    cases stopError <;> rfl
  apply assures_bind (attempted.weaken (fun _ _ => id) (fun _ _ _ => id)
    fun _ _ _ => False.elim)
  intro result
  cases result with
  | ok value => exact assures_pure fun _ _ holds => ⟨holds.1, holds.2 rfl⟩
  | error error =>
    have settled : Assures Kept (Process.attempt (stopAutostart operations))
        (fun _ => Kept) (fun _ _ _ => False) :=
      assures_attempt (stopAutostart_assures stopped)
    apply assures_bind (settled.weaken (fun _ _ holds => holds.1.1)
      (fun _ _ _ => id) fun _ _ _ => False.elim)
    intro result
    cases result with
    | ok answer => exact assures_fail fun _ _ kept => ⟨kept, failing _⟩
    | error error => exact assures_fail fun _ _ kept => ⟨kept, failing true⟩

/-- An installation which succeeds carries the transaction of its owner. -/
def CarriesTransaction (operations : Operations σ Readiness) : Prop :=
  ∀ environment answer,
    (operations.installAutostart environment).1 = .ok answer →
    answer.ok = true → answer.transaction ≠ .absent

end Shared

end MachineBridge.Activation
