import MachineBridge.Jobs.DependencyGate

/-!
# Reads of dependencies

What a round of reads says: without a dependency which is pending all were read
as succeeded, an unsuccessful end is never passed over, and the time for which a
dependency could not be read is counted from the first read which failed.
-/

namespace MachineBridge.Jobs

open Foundation

variable {witnesses : List DependencyWitness} {dependencyIds : List Text}

/-- A read gives the success of the job which the witness was recorded for. -/
def ReadsSuccess (witnesses : List DependencyWitness) (jobId : Text)
    (read : DependencyRead) : Prop :=
  ∃ status witness, read.outcome = .ok status ∧
    witnessOf witnesses jobId = some witness ∧
    status.matches witness jobId = true ∧
    managedJobDependencySucceeded status = true

/-- A read gives an end which is not the persisted success. -/
def ReadsFailure (read : DependencyRead) : Prop :=
  ∃ status, read.outcome = .ok status ∧ status.state.terminal = true ∧
    managedJobDependencySucceeded status = false

def Unreadable (read : DependencyRead) : Prop :=
  ∃ errorClass, read.outcome = .error errorClass

section Read

variable {state next : GateState} {jobId : Text} {read : DependencyRead}
  {waits : Bool}

def forgiven (state : GateState) (jobId : Text) (sample : Rat) : GateState :=
  { state with
    deadline := state.deadline.sampled sample
    unavailableSince :=
      Function.update state.unavailableSince jobId
        (some ((state.unavailableSince jobId).getD
          (state.deadline.sampled sample).elapsedMs)) }

/-- What is left for a dependency which was read. -/
def cleared (state : GateState) (jobId : Text) : GateState :=
  { state with
    unavailableSince := Function.update state.unavailableSince jobId none }

theorem unavailableSince_forgiven (sample : Rat) : (forgiven state jobId
    sample).unavailableSince jobId = some ((state.unavailableSince jobId).getD
    (state.deadline.sampled sample).elapsedMs) :=
  Function.update_self jobId _ _

theorem unavailableSince_of_cleared {other : Text} {since : Rat}
    (left : (cleared state jobId).unavailableSince other = some since) :
    state.unavailableSince other = some since := by
  by_cases same : other = jobId
  · subst same
    have erased : (cleared state other).unavailableSince other = none :=
      Function.update_self other _ _
    rw [erased] at left
    cases left
  · have kept : (cleared state jobId).unavailableSince other =
        state.unavailableSince other :=
      Function.update_of_ne same _ _
    rwa [kept] at left

theorem readDependency_cases
    (read_ok : readDependency witnesses state jobId read = .ok (next, waits)) :
    (Unreadable read ∧ next = forgiven state jobId read.sample ∧ waits = true ∧
      (state.deadline.sampled read.sample).elapsedMs -
      (state.unavailableSince jobId).getD
      (state.deadline.sampled read.sample).elapsedMs <
      dependencyStateReadRecoveryGraceMs) ∨ (next = cleared state jobId ∧
      waits = false ∧ ReadsSuccess witnesses jobId read) ∨
    (next = cleared state jobId ∧ waits = true ∧ ¬ Unreadable read ∧
      ¬ ReadsFailure read) := by
  rw [readDependency] at read_ok
  split at read_ok
  case h_1 errorClass outcome =>
    dsimp only at read_ok
    split at read_ok
    case isFalse => cases read_ok
    case isTrue forgives =>
      cases read_ok
      rw [Bool.and_eq_true, decide_eq_true_eq] at forgives
      exact Or.inl ⟨⟨errorClass, outcome⟩, rfl, rfl, forgives.2⟩
  case h_2 status outcome =>
    right
    split at read_ok
    case isTrue => cases read_ok
    case isFalse named =>
      split at read_ok
      case isTrue succeeded =>
        cases read_ok
        rw [Bool.not_eq_true, Bool.not_eq_false'] at named
        cases found : witnessOf witnesses jobId with
        | none =>
          rw [found] at named
          cases named
        | some witness =>
          rw [found] at named
          exact Or.inl ⟨rfl, rfl, status, witness, outcome, found, named,
            succeeded⟩
      case isFalse unsuccessful =>
        split at read_ok
        case isTrue => cases read_ok
        case isFalse unfinished =>
          split at read_ok
          case isTrue => cases read_ok
          case isFalse =>
            cases read_ok
            refine Or.inr ⟨rfl, rfl, ?_, ?_⟩
            · intro unreadable
              obtain ⟨errorClass, other⟩ := unreadable
              rw [outcome] at other
              cases other
            · intro failure
              obtain ⟨other, same, ended, _⟩ := failure
              rw [outcome] at same
              cases same
              exact unfinished ended

theorem readDependency_failure (witnesses : List DependencyWitness)
    (state : GateState) (jobId : Text) (failure : ReadsFailure read) :
    ∃ reason, readDependency witnesses state jobId read = .error reason := by
  obtain ⟨status, outcome, ended, unsuccessful⟩ := failure
  cases result : readDependency witnesses state jobId read with
  | error reason => exact ⟨reason, rfl⟩
  | ok answer =>
    rcases readDependency_cases result with
      unreadable | success | ⟨_, _, _, other⟩
    · obtain ⟨⟨errorClass, same⟩, _⟩ := unreadable
      rw [outcome] at same
      cases same
    · obtain ⟨_, _, status', witness, same, _, _, succeeded⟩ := success
      rw [outcome] at same
      cases same
      rw [unsuccessful] at succeeded
      cases succeeded
    · exact absurd ⟨status, outcome, ended, unsuccessful⟩ other

end Read

section Round

variable {poll : DependencyPoll} {state next : GateState}
  {pending total index : Nat} {ids : List Text}

theorem readDependencies_pending (read : readDependencies witnesses poll state
    pending index ids = .ok (next, total)) : pending ≤ total ∧ (total = pending
    → ∀ place jobId, ids[place]? = some jobId → ReadsSuccess witnesses jobId
    (poll.reads (index + place))) := by
  induction ids generalizing state pending index with
  | nil =>
    cases read
    refine ⟨Nat.le_refl _, ?_⟩
    intro _ place jobId found
    cases found
  | cons first ids induction =>
    rw [readDependencies] at read
    split at read
    case h_1 => cases read
    case h_2 middle waits here =>
      obtain ⟨more, all⟩ := induction read
      rcases readDependency_cases here with
        ⟨_, _, waiting, _⟩ | ⟨_, settled, success⟩ | ⟨_, waiting, _, _⟩
      · rw [waiting, if_pos rfl] at more
        exact ⟨Nat.le_of_succ_le more, fun same => by omega⟩
      · rw [settled, if_neg Bool.false_ne_true] at more all
        refine ⟨more, ?_⟩
        intro same place jobId found
        cases place with
        | zero =>
          cases found
          exact success
        | succ place =>
          have later := all same place jobId found
          rwa [Nat.add_assoc, Nat.add_comm 1] at later
      · rw [waiting, if_pos rfl] at more
        exact ⟨Nat.le_of_succ_le more, fun same => by omega⟩

theorem readDependencies_failure {place : Nat} {jobId : Text}
    (found : ids[place]? = some jobId)
    (failure : ReadsFailure (poll.reads (index + place))) : ∃ reason,
    readDependencies witnesses poll state pending index ids =
    .error reason := by
  induction ids generalizing state pending index place with
  | nil => cases found
  | cons first ids induction =>
    rw [readDependencies]
    split
    case h_1 reason _ => exact ⟨reason, rfl⟩
    case h_2 middle waits here =>
      cases place with
      | zero =>
        obtain ⟨reason, fails⟩ :=
          readDependency_failure witnesses state first failure
        rw [Nat.add_zero, here] at fails
        cases fails
      | succ place =>
        apply induction found
        rwa [Nat.add_assoc, Nat.add_comm 1]

end Round

namespace MonotonicDeadline

section

variable (deadline : MonotonicDeadline)

theorem elapsedMs_eq :
    deadline.elapsedMs = deadline.lastSample - deadline.startedAt :=
  max_eq_right (sub_nonneg.mpr deadline.ordered)

theorem le_elapsedMs_sampled (sample : Rat) :
    sample - deadline.startedAt ≤ (deadline.sampled sample).elapsedMs := by
  rw [elapsedMs_eq]
  exact sub_le_sub_right (le_max_right _ _) _

theorem elapsedMs_le_sampled (sample : Rat) :
    deadline.elapsedMs ≤ (deadline.sampled sample).elapsedMs := by
  rw [elapsedMs_eq, elapsedMs_eq]
  exact sub_le_sub_right (le_max_left _ _) _

end

end MonotonicDeadline

/-- No time of a failed read lies ahead of the clock. -/
def Counted (state : GateState) : Prop :=
  ∀ jobId since, state.unavailableSince jobId = some since →
    since ≤ state.deadline.elapsedMs

/-- All reads of a dependency in a round fail. -/
def UnreadableIn (ids : List Text) (jobId : Text) (poll : DependencyPoll)
    (index : Nat) : Prop :=
  ∀ place, ids[place]? = some jobId → Unreadable (poll.reads (index + place))

theorem UnreadableIn.tail {first jobId : Text} {ids : List Text}
    {poll : DependencyPoll} {index : Nat}
    (unreadable : UnreadableIn (first :: ids) jobId poll index) :
    UnreadableIn ids jobId poll (index + 1) := by
  intro place found
  have later := unreadable (place + 1) found
  rwa [Nat.add_assoc, Nat.add_comm 1]

section Times

variable {poll : DependencyPoll} {state next : GateState}
  {pending total index : Nat} {ids : List Text} {first jobId : Text}
  {since : Rat} {waits : Bool} {read : DependencyRead}

theorem readDependency_startedAt
    (read_ok : readDependency witnesses state first read = .ok (next, waits)) :
    next.deadline.startedAt = state.deadline.startedAt ∧
    next.deadline.durationMs = state.deadline.durationMs := by
  rcases readDependency_cases read_ok with
    ⟨_, rfl, _, _⟩ | ⟨rfl, _, _⟩ | ⟨rfl, _, _, _⟩
  · exact ⟨rfl, rfl⟩
  · exact ⟨rfl, rfl⟩
  · exact ⟨rfl, rfl⟩

theorem readDependency_other (other : jobId ≠ first)
    (read_ok : readDependency witnesses state first read = .ok (next, waits)) :
    next.unavailableSince jobId = state.unavailableSince jobId := by
  rcases readDependency_cases read_ok with
    ⟨_, rfl, _, _⟩ | ⟨rfl, _, _⟩ | ⟨rfl, _, _, _⟩
  · exact Function.update_of_ne other _ _
  · exact Function.update_of_ne other _ _
  · exact Function.update_of_ne other _ _

theorem readDependency_unreadable (unreadable : Unreadable read)
    (read_ok : readDependency witnesses state jobId read = .ok (next, waits)) :
    next.unavailableSince jobId = some ((state.unavailableSince jobId).getD
    (state.deadline.sampled read.sample).elapsedMs) ∧ (state.deadline.sampled
    read.sample).elapsedMs - (state.unavailableSince jobId).getD
    (state.deadline.sampled read.sample).elapsedMs <
    dependencyStateReadRecoveryGraceMs := by
  rcases readDependency_cases read_ok with
    ⟨_, rfl, _, near⟩ | ⟨_, _, success⟩ | ⟨_, _, readable, _⟩
  · exact ⟨unavailableSince_forgiven read.sample, near⟩
  · obtain ⟨status, witness, outcome, _⟩ := success
    obtain ⟨errorClass, error⟩ := unreadable
    rw [outcome] at error
    cases error
  · exact absurd unreadable readable

theorem Counted.readDependency (counted : Counted state)
    (read_ok : readDependency witnesses state first read = .ok (next, waits)) :
    Counted next := by
  intro other time stored
  rcases readDependency_cases read_ok with
    ⟨_, rfl, _, _⟩ | ⟨rfl, _, _⟩ | ⟨rfl, _, _, _⟩
  · have later := state.deadline.elapsedMs_le_sampled read.sample
    by_cases same : other = first
    · subst same
      rw [unavailableSince_forgiven] at stored
      cases earlier : state.unavailableSince other with
      | none =>
        rw [earlier] at stored
        cases stored
        exact le_refl _
      | some old =>
        rw [earlier] at stored
        cases stored
        exact (counted other _ earlier).trans later
    · have kept : (forgiven state first read.sample).unavailableSince other =
          state.unavailableSince other :=
        Function.update_of_ne same _ _
      rw [kept] at stored
      exact (counted other time stored).trans later
  · exact counted other time (unavailableSince_of_cleared stored)
  · exact counted other time (unavailableSince_of_cleared stored)

theorem Counted.readDependencies (counted : Counted state) (reads :
    readDependencies witnesses poll state pending index ids = .ok (next,
    total)) : Counted next := by
  induction ids generalizing state pending index with
  | nil =>
    cases reads
    exact counted
  | cons first ids induction =>
    rw [Jobs.readDependencies] at reads
    split at reads
    case h_1 => cases reads
    case h_2 middle waits here =>
      exact induction (counted.readDependency here) reads

section

variable (reads : readDependencies witnesses poll state pending index ids =
  .ok (next, total))
include reads

theorem readDependencies_startedAt : next.deadline.startedAt =
    state.deadline.startedAt ∧ next.deadline.durationMs =
    state.deadline.durationMs := by
  induction ids generalizing state pending index with
  | nil =>
    cases reads
    exact ⟨rfl, rfl⟩
  | cons first ids induction =>
    rw [readDependencies] at reads
    split at reads
    case h_1 => cases reads
    case h_2 middle waits here =>
      have one := readDependency_startedAt here
      have others := induction reads
      exact ⟨others.1.trans one.1, others.2.trans one.2⟩

theorem readDependencies_unreadable (unreadable : UnreadableIn ids
    jobId poll index) (counts : state.unavailableSince jobId = some since) :
    next.unavailableSince jobId = some since ∧ ∀ place, ids[place]? = some
    jobId → (poll.reads (index + place)).sample - state.deadline.startedAt -
    since < dependencyStateReadRecoveryGraceMs := by
  induction ids generalizing state pending index with
  | nil =>
    cases reads
    refine ⟨counts, ?_⟩
    intro place found
    cases found
  | cons first ids induction =>
    rw [readDependencies] at reads
    split at reads
    case h_1 => cases reads
    case h_2 middle waits here =>
      have started := (readDependency_startedAt here).1
      by_cases same : first = jobId
      · subst same
        obtain ⟨kept, near⟩ := readDependency_unreadable
          (unreadable 0 rfl) here
        rw [counts, Option.getD_some] at kept near
        obtain ⟨stays, later⟩ := induction reads unreadable.tail kept
        refine ⟨stays, ?_⟩
        intro place found
        cases place with
        | zero =>
          have passed := state.deadline.le_elapsedMs_sampled
            (poll.reads index).sample
          exact lt_of_le_of_lt (sub_le_sub_right passed since) near
        | succ place =>
          have within := later place found
          rwa [started, Nat.add_assoc, Nat.add_comm 1] at within
      · have kept := (readDependency_other (Ne.symm same) here).trans counts
        obtain ⟨stays, later⟩ := induction reads unreadable.tail kept
        refine ⟨stays, ?_⟩
        intro place found
        cases place with
        | zero => exact absurd (Option.some.inj found) same
        | succ place =>
          have within := later place found
          rwa [started, Nat.add_assoc, Nat.add_comm 1] at within

theorem readDependencies_counts
    (unreadable : UnreadableIn ids jobId poll index) (declared : jobId ∈ ids) :
    ∃ since, next.unavailableSince jobId = some since := by
  induction ids generalizing state pending index with
  | nil => cases declared
  | cons first ids induction =>
    rw [readDependencies] at reads
    split at reads
    case h_1 => cases reads
    case h_2 middle waits here =>
      by_cases same : first = jobId
      · subst same
        obtain ⟨kept, _⟩ := readDependency_unreadable (unreadable 0 rfl) here
        exact ⟨_, (readDependencies_unreadable reads unreadable.tail kept).1⟩
      · apply induction reads unreadable.tail
        exact List.mem_of_ne_of_mem (Ne.symm same) declared

end

end Times

end MachineBridge.Jobs
