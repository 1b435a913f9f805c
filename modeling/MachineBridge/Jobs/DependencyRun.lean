import MachineBridge.Jobs.DependencyReads

/-!
# Runs of the gate

The gate opens in a round in which every dependency was read as succeeded.  A
read of an unsuccessful end fails it for good, and so does a dependency which
cannot be read for the time which is allowed.
-/

namespace MachineBridge.Jobs

open Foundation List

variable {witnesses : List DependencyWitness} {dependencyIds : List Text}

section Round

variable {state next : GateState} {poll : DependencyPoll}
  {progress : DependencyProgress} {jobId : Text}

variable (witnesses dependencyIds) in
theorem pollDependencies_cases (state : GateState) (poll : DependencyPoll) :
    (∃ failure, pollDependencies witnesses dependencyIds state poll =
        .failed failure) ∨
      ∃ read pending,
        readDependencies witnesses poll
            { state with deadline := state.deadline.sampled poll.started } 0 0
            dependencyIds = .ok (read, pending) ∧
          (state.deadline.sampled poll.started).expired = false ∧
          pollDependencies witnesses dependencyIds state poll =
            finishPoll dependencyIds poll read pending := by
  rw [pollDependencies]
  split
  case isTrue => exact Or.inl ⟨_, rfl⟩
  case isFalse running =>
    split
    case isTrue => exact Or.inl ⟨_, rfl⟩
    case isFalse =>
      split
      case h_1 => exact Or.inl ⟨_, rfl⟩
      case h_2 read pending reads =>
        exact Or.inr ⟨read, pending, reads, Bool.eq_false_iff.mpr running, rfl⟩

theorem finishPoll_opened {pending : Nat}
    (opened : finishPoll dependencyIds poll state pending = .opened progress) :
    pending = 0 ∧ progress = progressOf dependencyIds 0 := by
  rw [finishPoll] at opened
  split at opened
  case isTrue => cases opened
  case isFalse =>
    split at opened
    case isTrue none =>
      cases opened
      exact ⟨none, by rw [none]⟩
    case isFalse => cases opened

theorem finishPoll_waiting {pending : Nat}
    (waits : finishPoll dependencyIds poll state pending = .waiting next) :
    next.deadline = state.deadline.sampled poll.ended ∧
    next.unavailableSince = state.unavailableSince := by
  rw [finishPoll] at waits
  split at waits
  case isTrue => cases waits
  case isFalse =>
    split at waits
    case isTrue => cases waits
    case isFalse =>
      cases waits
      exact ⟨rfl, rfl⟩

theorem pollDependencies_opened (opened : pollDependencies witnesses
    dependencyIds state poll = .opened progress) : ∀ place jobId,
    dependencyIds[place]? = some jobId → ReadsSuccess witnesses jobId
    (poll.reads place) := by
  rcases pollDependencies_cases witnesses dependencyIds
      state poll with
    ⟨failure, failed⟩ | ⟨read, pending, reads, _, finished⟩
  · rw [failed] at opened
    cases opened
  · rw [finished] at opened
    obtain ⟨none, _⟩ := finishPoll_opened opened
    intro place jobId found
    have success := (readDependencies_pending reads).2 none place jobId found
    rwa [Nat.zero_add] at success

variable (witnesses state) in
theorem pollDependencies_failure {place : Nat}
    (found : dependencyIds[place]? = some jobId)
    (failure : ReadsFailure (poll.reads place)) : ∃ reason,
    pollDependencies witnesses dependencyIds state poll = .failed reason := by
  rcases pollDependencies_cases witnesses dependencyIds
      state poll with
    failed | ⟨read, pending, reads, _, _⟩
  · exact failed
  · rw [← Nat.zero_add place] at failure
    obtain ⟨reason, fails⟩ := readDependencies_failure found failure
    rw [reads] at fails
    cases fails

variable (witnesses dependencyIds) in
theorem pollDependencies_expired
    (late : state.deadline.startedAt + state.deadline.durationMs ≤ poll.started)
    : ∃ reason,
    pollDependencies witnesses dependencyIds state poll = .failed reason := by
  rcases pollDependencies_cases witnesses dependencyIds
      state poll with
    failed | ⟨_, _, _, running, _⟩
  · exact failed
  · have passed := state.deadline.le_elapsedMs_sampled poll.started
    have expired : (state.deadline.sampled poll.started).expired = true := by
      apply decide_eq_true
      exact (le_sub_iff_add_le'.mpr late).trans passed
    rw [running] at expired
    cases expired

theorem UnreadableIn.not_opened
    (unreadable : UnreadableIn dependencyIds jobId poll 0)
    (declared : jobId ∈ dependencyIds) :
    pollDependencies witnesses dependencyIds state poll ≠
    .opened progress := by
  intro opened
  obtain ⟨place, found⟩ := mem_iff_getElem?.mp declared
  obtain ⟨status, _, outcome, _⟩ :=
    pollDependencies_opened opened place jobId found
  obtain ⟨errorClass, error⟩ := unreadable place found
  rw [Nat.zero_add, outcome] at error
  cases error

theorem pollDependencies_waiting
    (waits : pollDependencies witnesses dependencyIds state poll =
      .waiting next) :
    ∃ read pending,
      readDependencies witnesses poll
          { state with deadline := state.deadline.sampled poll.started } 0 0
          dependencyIds = .ok (read, pending) ∧
        next.deadline = read.deadline.sampled poll.ended ∧
        next.unavailableSince = read.unavailableSince := by
  rcases pollDependencies_cases witnesses dependencyIds
      state poll with
    ⟨failure, failed⟩ | ⟨read, pending, reads, _, finished⟩
  · rw [failed] at waits
    cases waits
  · rw [finished] at waits
    exact ⟨read, pending, reads, finishPoll_waiting waits⟩

/-- What holds of a waiting gate: when it began, and that its times are not
ahead of the clock. -/
structure Timed (sample : Rat) (state : GateState) : Prop where
  startedAt : state.deadline.startedAt = sample
  durationMs : state.deadline.durationMs = maxDependencyWaitMs
  counted : Counted state

theorem Timed.step {sample : Rat} (timed : Timed sample state) (waits :
    pollDependencies witnesses dependencyIds state poll = .waiting next) :
    Timed sample next := by
  obtain ⟨read, pending, reads, deadline, since⟩ :=
    pollDependencies_waiting waits
  obtain ⟨started, duration⟩ := readDependencies_startedAt reads
  have begun : Counted
      { state with deadline := state.deadline.sampled poll.started } := by
    intro jobId time stored
    exact (timed.counted jobId time stored).trans
      (state.deadline.elapsedMs_le_sampled poll.started)
  have counted := begun.readDependencies reads
  constructor
  · rw [deadline]
    exact started.trans timed.startedAt
  · rw [deadline]
    exact duration.trans timed.durationMs
  · intro jobId time stored
    rw [since] at stored
    rw [deadline]
    exact (counted jobId time stored).trans
      (read.deadline.elapsedMs_le_sampled poll.ended)

theorem unavailableSince_poll (unreadable : UnreadableIn dependencyIds jobId
    poll 0) (declared : jobId ∈ dependencyIds) (waits : pollDependencies
    witnesses dependencyIds state poll = .waiting next) : ∃ since,
    next.unavailableSince jobId = some since := by
  obtain ⟨read, pending, reads, _, since⟩ := pollDependencies_waiting waits
  rw [since]
  exact readDependencies_counts reads unreadable declared

theorem unavailableSince_stays {since : Rat} (unreadable : UnreadableIn
    dependencyIds jobId poll 0) (counts : state.unavailableSince jobId = some
    since) (waits : pollDependencies witnesses dependencyIds state poll =
    .waiting next) : next.unavailableSince jobId = some since ∧ ∀ place,
    dependencyIds[place]? = some jobId → (poll.reads place).sample -
    state.deadline.startedAt - since < dependencyStateReadRecoveryGraceMs := by
  obtain ⟨read, pending, reads, _, same⟩ := pollDependencies_waiting waits
  obtain ⟨stays, near⟩ := readDependencies_unreadable reads unreadable counts
  rw [same]
  refine ⟨stays, ?_⟩
  intro place found
  have within := near place found
  rwa [Nat.zero_add] at within

end Round

section Runs

variable {sample : Rat} {polls : List DependencyPoll}

theorem run_opened (progress : DependencyProgress) : run
    (DependencyGate.step witnesses dependencyIds) (.opened progress) polls =
    .opened progress := by
  induction polls with
  | nil => rfl
  | cons poll polls induction => exact induction

theorem run_failed (failure : GateFailure) :
    run (DependencyGate.step witnesses dependencyIds) (.failed failure) polls =
    .failed failure := by
  induction polls with
  | nil => rfl
  | cons poll polls induction => exact induction

variable {state : GateState}

theorem timed_openGate
    (waits : openGate witnesses dependencyIds sample = .waiting state) :
    Timed sample state := by
  rw [openGate] at waits
  split at waits
  case isTrue => cases waits
  case isFalse =>
    split at waits
    case isTrue => cases waits
    case isFalse =>
      split at waits
      case isTrue => cases waits
      case isFalse =>
        cases waits
        refine ⟨rfl, rfl, ?_⟩
        intro jobId since stored
        cases stored

theorem openGate_opened {progress : DependencyProgress}
    (opened : openGate witnesses dependencyIds sample = .opened progress) :
    dependencyIds = [] := by
  rw [openGate] at opened
  split at opened
  case isTrue empty => exact empty
  case isFalse =>
    split at opened
    case isTrue => cases opened
    case isFalse =>
      split at opened
      case isTrue => cases opened
      case isFalse => cases opened

theorem timed_of_waiting (waits : waitForManagedJobDependencies witnesses
    dependencyIds sample polls = .waiting state) : Timed sample state := by
  have preserved : ∀ (gate : DependencyGate) (poll : DependencyPoll),
      (∀ state, gate = .waiting state → Timed sample state) → ∀ state,
      gate.step witnesses dependencyIds poll = .waiting state →
      Timed sample state := by
    intro gate poll timed state waits
    cases gate with
    | waiting earlier => exact (timed earlier rfl).step waits
    | opened progress => cases waits
    | failed failure => cases waits
  exact run_induction preserved (fun _ => timed_openGate) polls state waits

theorem opened_poll {gate : DependencyGate} {progress : DependencyProgress}
    (opened : run (DependencyGate.step witnesses dependencyIds) gate polls =
    .opened progress) : gate = .opened progress ∨ ∃ before poll later state,
    polls = before ++ poll :: later ∧ run (DependencyGate.step witnesses
    dependencyIds) gate before = .waiting state ∧ pollDependencies witnesses
    dependencyIds state poll = .opened progress := by
  induction polls generalizing gate with
  | nil => exact Or.inl opened
  | cons poll polls induction =>
    cases gate with
    | opened already =>
      left
      have same := opened.symm.trans (run_opened already)
      exact same.symm
    | failed failure =>
      have same := opened.symm.trans (run_failed failure)
      cases same
    | waiting state =>
      right
      rcases induction opened with here | later
      · exact ⟨[], poll, polls, state, rfl, rfl, here⟩
      · obtain ⟨before, other, rest, reached, cut, waits, opens⟩ := later
        refine ⟨poll :: before, other, rest, reached, ?_, waits, opens⟩
        rw [cut]
        rfl

theorem run_unreadable {jobId : Text} {since : Rat}
    (declared : jobId ∈ dependencyIds)
    (unreadable : ∀ poll ∈ polls, UnreadableIn dependencyIds jobId poll 0)
    (timed : Timed sample state)
    (counts : state.unavailableSince jobId = some since) : (∃ failure, run
      (DependencyGate.step witnesses dependencyIds) (.waiting state) polls =
      .failed failure) ∨ ∃ next,
    run (DependencyGate.step witnesses dependencyIds) (.waiting state) polls =
    .waiting next ∧ Timed sample next ∧
    next.unavailableSince jobId = some since := by
  induction polls generalizing state with
  | nil => exact Or.inr ⟨state, rfl, timed, counts⟩
  | cons poll polls induction =>
    obtain ⟨here, later⟩ := forall_mem_cons.mp unreadable
    rw [run_cons, DependencyGate.step]
    cases polled : pollDependencies witnesses dependencyIds state poll with
    | opened progress => exact absurd polled (here.not_opened declared)
    | failed failure => exact Or.inl ⟨failure, run_failed failure⟩
    | waiting next =>
      exact induction later (timed.step polled)
        (unavailableSince_stays here counts polled).1

theorem run_unavailable {first last : DependencyPoll}
    {before later : List DependencyPoll} {place : Nat} {jobId : Text}
    (found : dependencyIds[place]? = some jobId) (unreadable : ∀ poll ∈ first
    :: (later ++ [last]), UnreadableIn dependencyIds jobId poll 0) (waits :
    waitForManagedJobDependencies witnesses dependencyIds sample (before ++
    [first]) = .waiting state) (late : state.deadline.lastSample +
    dependencyStateReadRecoveryGraceMs ≤ (last.reads place).sample) : ∃
    failure, waitForManagedJobDependencies witnesses dependencyIds sample
    (before ++ first :: (later ++ [last])) = .failed failure := by
  have declared : jobId ∈ dependencyIds := mem_of_getElem? found
  obtain ⟨here, others⟩ := forall_mem_cons.mp unreadable
  obtain ⟨between, final⟩ := forall_mem_append.mp others
  have timed := timed_of_waiting waits
  have counts : ∃ since, state.unavailableSince jobId = some since := by
    rw [waitForManagedJobDependencies, run_append] at waits
    cases earlier : run (DependencyGate.step witnesses dependencyIds)
        (openGate witnesses dependencyIds sample) before with
    | opened progress | failed failure =>
      rw [earlier] at waits
      cases waits
    | waiting old =>
      rw [earlier] at waits
      exact unavailableSince_poll here declared waits
  obtain ⟨since, counts⟩ := counts
  have past : since ≤ state.deadline.lastSample - sample := by
    have counted := timed.counted jobId since counts
    rwa [MonotonicDeadline.elapsedMs_eq, timed.startedAt] at counted
  have whole : before ++ first :: (later ++ [last]) = (before ++ [first]) ++
      (later ++ [last]) := by
    rw [append_assoc, singleton_append]
  rw [waitForManagedJobDependencies] at waits
  rw [waitForManagedJobDependencies, whole, run_append, waits, run_append]
  rcases run_unreadable declared between timed counts with
    ⟨failure, failed⟩ | ⟨next, reached, nextTimed, nextCounts⟩
  · rw [failed]
    exact ⟨failure, run_failed failure⟩
  · rw [reached]
    have lastUnreadable := final last mem_cons_self
    change ∃ failure, pollDependencies witnesses dependencyIds next last =
      .failed failure
    cases polled : pollDependencies witnesses dependencyIds next last with
    | failed failure => exact ⟨failure, rfl⟩
    | opened progress =>
      exact absurd polled (lastUnreadable.not_opened declared)
    | waiting after =>
      have near := (unavailableSince_stays lastUnreadable nextCounts
        polled).2 place found
      rw [nextTimed.startedAt] at near
      linarith

end Runs

theorem readManagedJobDependencyStatus_succeeded {files : DependencyFiles}
    {jobId : Text} {status : DependencyStatus}
    (read : readManagedJobDependencyStatus files jobId = .ok status)
    (succeeded : managedJobDependencySucceeded status = true) :
    files.status = .ok status ∨ ∃ result, files.result = .ok (some result) ∧
    result.state = .succeeded ∧
    isTerminalManagedJobResult result (some jobId) = true := by
  rw [readManagedJobDependencyStatus] at read
  split at read
  case h_1 => cases read
  case h_2 =>
    split at read
    case h_1 => cases read
    case h_2 stored holds =>
      split at read
      case isTrue =>
        cases read
        exact Or.inl holds
      case isFalse =>
        split at read
        case h_1 => cases read
        case h_2 =>
          cases read
          exact Or.inl holds
        case h_3 result present =>
          split at read
          case isTrue => cases read
          case isFalse valid =>
            rw [Bool.not_eq_true, Bool.not_eq_false'] at valid
            refine Or.inr ⟨result, present, ?_, valid⟩
            split at read
            case h_1 => cases read
            case h_2 terminal recovered =>
              cases read
              rw [terminalStatusFromResult] at recovered
              split at recovered
              case isTrue => cases recovered
              case isFalse =>
                cases recovered
                rw [managedJobDependencySucceeded, Bool.and_eq_true]
                  at succeeded
                exact beq_iff_eq.mp succeeded.1

/-- The gate of a job with dependencies, over all rounds of reads: it opens only
in a round in which every dependency was read as succeeded and as the job of its
witness; it fails for good when one is read as ended otherwise, when one has been
unreadable for the time of grace, and when the time for waiting is over.  A
success is in the status file, or in a valid result of the job. -/
theorem dependencyGate_safe (witnesses : List DependencyWitness)
    (dependencyIds : List Text) (sample : Rat) :
    (∀ polls progress,
        waitForManagedJobDependencies witnesses dependencyIds sample polls =
            .opened progress →
          dependencyIds = [] ∨
            ∃ before poll later state, polls = before ++ poll :: later ∧
              waitForManagedJobDependencies witnesses dependencyIds sample
                before = .waiting state ∧
              ∀ place jobId, dependencyIds[place]? = some jobId →
                ReadsSuccess witnesses jobId (poll.reads place)) ∧
      (∀ before poll state place jobId,
        waitForManagedJobDependencies witnesses dependencyIds sample before =
            .waiting state →
          dependencyIds[place]? = some jobId →
          ReadsFailure (poll.reads place) →
          ∃ failure, ∀ later,
            waitForManagedJobDependencies witnesses dependencyIds sample
              (before ++ poll :: later) = .failed failure) ∧
      (∀ before first later last state place jobId,
        dependencyIds[place]? = some jobId →
          (∀ poll ∈ first :: (later ++ [last]),
            UnreadableIn dependencyIds jobId poll 0) →
          waitForManagedJobDependencies witnesses dependencyIds sample
            (before ++ [first]) = .waiting state →
          state.deadline.lastSample + dependencyStateReadRecoveryGraceMs ≤
            (last.reads place).sample →
          ∃ failure, waitForManagedJobDependencies witnesses dependencyIds
            sample (before ++ first :: (later ++ [last])) = .failed failure) ∧
      (∀ before poll state,
        waitForManagedJobDependencies witnesses dependencyIds sample before =
            .waiting state →
          sample + maxDependencyWaitMs ≤ poll.started →
          ∃ failure, waitForManagedJobDependencies witnesses dependencyIds
            sample (before ++ [poll]) = .failed failure) ∧
      ∀ files jobId status,
        readManagedJobDependencyStatus files jobId = .ok status →
          managedJobDependencySucceeded status = true →
          files.status = .ok status ∨
            ∃ result, files.result = .ok (some result) ∧
              result.state = .succeeded ∧
              isTerminalManagedJobResult result (some jobId) = true := by
  refine ⟨?_, ?_, ?_, ?_, ?_⟩
  · intro polls progress opened
    rcases opened_poll opened with
      start | ⟨before, poll, later, state, cut, waits, opens⟩
    · exact Or.inl (openGate_opened start)
    · exact Or.inr ⟨before, poll, later, state, cut, waits,
        pollDependencies_opened opens⟩
  · intro before poll state place jobId waits found failure
    obtain ⟨reason, fails⟩ :=
      pollDependencies_failure witnesses state found failure
    refine ⟨reason, ?_⟩
    intro later
    rw [waitForManagedJobDependencies] at waits
    rw [waitForManagedJobDependencies, run_append, waits, run_cons,
      DependencyGate.step, fails]
    exact run_failed reason
  · intro before first later last state place jobId found unreadable waits late
    exact run_unavailable found unreadable waits late
  · intro before poll state waits late
    have timed := timed_of_waiting waits
    have expired : state.deadline.startedAt + state.deadline.durationMs ≤
        poll.started := by
      rw [timed.startedAt, timed.durationMs]
      exact late
    obtain ⟨reason, fails⟩ :=
      pollDependencies_expired witnesses dependencyIds expired
    refine ⟨reason, ?_⟩
    rw [waitForManagedJobDependencies] at waits
    rw [waitForManagedJobDependencies, run_append, waits]
    exact fails
  · intro files jobId status read succeeded
    exact readManagedJobDependencyStatus_succeeded read succeeded

end MachineBridge.Jobs
