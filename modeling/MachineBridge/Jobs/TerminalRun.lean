import MachineBridge.Foundation.Run
import MachineBridge.Jobs.Terminal

/-!
# Crash points of terminal persistence

Whatever fails, and wherever the process stops, the files of a job show it
waiting, or active with a complete result, or concluded with the evidence of
its outcome.  The one way out is a staged job whose result is written and whose
status is not: reconciliation passes over staged jobs.
-/

namespace MachineBridge.Jobs

open Foundation List

@[simp] theorem afterEffects_zero (effects : List Effect) (files : JobFiles) :
    afterEffects effects 0 files = files := by
  simp [afterEffects]

@[simp] theorem afterEffects_nil (count : Nat) (files : JobFiles) :
    afterEffects [] count files = files := by
  simp [afterEffects]

@[simp] theorem afterEffects_cons (effect : Effect) (effects : List Effect)
    (count : Nat) (files : JobFiles) :
    afterEffects (effect :: effects) (count + 1) files =
      afterEffects effects count (effect files) := rfl

section

variable (outcome : WriteOutcome)

@[simp] theorem name_writeResult (result : ResultRecord) (files : JobFiles) :
    (writeResult outcome result files).name = files.name := by
  unfold writeResult
  split <;> rfl

@[simp] theorem name_writeStatus (status : StatusRecord) (files : JobFiles) :
    (writeStatus outcome status files).name = files.name := by
  unfold writeStatus
  split <;> rfl

end

variable {files before later : JobFiles} {status : StatusRecord}
  {result : ResultRecord} {event : JobEvent} {outcome : JobState}

theorem afterEffects_preserves {Holds : JobFiles → Prop}
    {effects : List Effect} (preserved : ∀ effect ∈ effects, ∀ files,
      Holds files → Holds (effect files)) (holds : Holds files) (count : Nat) :
    Holds (afterEffects effects count files) := by
  induction effects generalizing files count with
  | nil => simpa using holds
  | cons effect effects induction =>
    cases count with
    | zero => simpa using holds
    | succ count =>
      apply induction
      · intro other member
        exact preserved other (mem_cons_of_mem _ member)
      · exact preserved effect mem_cons_self files holds

structure SameEvidence (before after : StatusRecord) : Prop where
  jobId : after.jobId = before.jobId
  state : after.state = before.state
  finishedAt : after.finishedAt = before.finishedAt
  resultPersisted : after.resultPersisted = before.resultPersisted
  errorClass :
    after.terminalRecordErrorClass = before.terminalRecordErrorClass

theorem SameEvidence.refl (status : StatusRecord) :
    SameEvidence status status := ⟨rfl, rfl, rfl, rfl, rfl⟩

/-- The status on disk is terminal and has its evidence. -/
abbrev Evident (files : JobFiles) : Prop :=
  assertTerminalJobEvidence files files.status = true

theorem evident_iff : Evident files ↔ files.status.jobId = some files.name ∧
    files.status.state.terminal = true ∧ ((files.status.resultPersisted = some
    false ∧ isDate files.status.finishedAt = true ∧
    files.status.terminalRecordErrorClass.any (fits isErrorClassUnit 1 80) =
    true) ∨ (files.status.resultPersisted ≠ some false ∧ ∃ result, files.result
    = some result ∧ isTerminalManagedJobResult result files.status.jobId = true
    ∧ result.state = files.status.state ∧ result.finishedAt =
    files.status.finishedAt)) := by
  simp only [Evident, assertTerminalJobEvidence, sameTerminalJobStatus]
  cases owned : decide (files.status.jobId = some files.name)
  case false => simp_all
  case true =>
    cases ended : files.status.state.terminal
    case false => simp_all
    case true =>
      by_cases marked : files.status.resultPersisted = some false
      · simp_all
      · cases files.result <;> simp_all [and_assoc]

/-- The files since the terminal status took effect. -/
structure Concluded (status : StatusRecord) (before later : JobFiles) :
    Prop where
  name : later.name = before.name
  result : later.result = before.result
  evidence : SameEvidence status later.status

theorem Concluded.refl (files : JobFiles) :
    Concluded files.status files files := ⟨rfl, rfl, SameEvidence.refl _⟩

theorem Concluded.evident (concluded : Concluded before.status before later)
    (evident : Evident before) : Evident later := by
  have evidence := concluded.evidence
  rw [evident_iff] at evident ⊢
  rw [concluded.name, concluded.result, evidence.jobId, evidence.state,
    evidence.finishedAt, evidence.resultPersisted, evidence.errorClass]
  exact evident

theorem concluded_removeArtifact (outcome : RemoveOutcome)
    (artifact : Artifact) (concluded : Concluded status before later) :
    Concluded status before (removeArtifact outcome artifact later) := by
  unfold removeArtifact
  split
  case isTrue => exact ⟨concluded.name, concluded.result, concluded.evidence⟩
  case isFalse => exact concluded

theorem concluded_writeStatus {written : StatusRecord} (outcome : WriteOutcome)
    (same : SameEvidence status written)
    (concluded : Concluded status before later) :
    Concluded status before (writeStatus outcome written later) := by
  unfold writeStatus
  split
  case isTrue => exact ⟨concluded.name, concluded.result, same⟩
  case isFalse => exact concluded

theorem concluded_cleanup {removals : Artifact → RemoveOutcome}
    {writes : List Effect} (writesStatus : ∀ effect ∈ writes,
      ∃ outcome written, effect = writeStatus outcome written ∧
      SameEvidence status written) (concluded : Concluded status before files)
    (count : Nat) : Concluded status before
    (afterEffects (removeArtifacts removals ++ writes) count files) := by
  apply afterEffects_preserves _ concluded
  intro effect member later held
  rcases mem_append.mp member with removes | wrote
  · obtain ⟨artifact, -, rfl⟩ := List.mem_map.mp removes
    exact concluded_removeArtifact _ artifact held
  · obtain ⟨outcome, written, rfl, same⟩ := writesStatus effect wrote
    exact concluded_writeStatus outcome same held

theorem fits_boundedErrorClass (value : Text) :
    fits isErrorClassUnit 1 80 (boundedErrorClass value) = true := by
  have replaced (content : Text) : ((content.map fun unit =>
      if isErrorClassUnit unit then unit else 0x5F).take 80).all
        isErrorClassUnit = true := by
    rw [all_eq_true]
    intro unit member
    obtain ⟨original, -, rfl⟩ := List.mem_map.mp (mem_of_mem_take member)
    split
    case isTrue class_ => exact class_
    case isFalse => decide
  unfold boundedErrorClass
  dsimp only
  generalize toLowerCase (orElse value (text "persistence_failed")) = lowered
  rw [fits_iff]
  unfold orElse
  split
  case isTrue => decide
  case isFalse nonempty =>
    refine ⟨?_, ?_, replaced lowered⟩
    · apply length_pos_iff.mpr
      simpa using nonempty
    · exact length_take_le _ _

theorem terminalStatusFromResult_eq {name : Text} (options : TerminalOptions)
    (owned : status.jobId = some name)
    (complete : isTerminalManagedJobResult result (some name) = true) :
    ∃ terminal,
    terminalStatusFromResult status result options = some terminal ∧
    terminal.jobId = some name ∧ terminal.state = result.state ∧
    terminal.finishedAt = result.finishedAt ∧
    terminal.resultPersisted = some options.resultPersisted ∧
    (options.resultPersisted = false →
      terminal.terminalRecordErrorClass.any (fits isErrorClassUnit 1 80) =
      true) := by
  unfold terminalStatusFromResult
  rw [if_neg (by simp [owned, complete])]
  refine ⟨_, rfl, owned, rfl, rfl, rfl, ?_⟩
  intro unpersisted
  simp [unpersisted, fits_boundedErrorClass]

theorem complete_parts {jobId : Option Text}
    (complete : isTerminalManagedJobResult result jobId = true) :
    result.state.terminal = true ∧ isDate result.finishedAt = true := by
  simp only [isTerminalManagedJobResult, Bool.and_eq_true] at complete
  exact ⟨complete.1.1.1, complete.1.2⟩

/-- A crash point of a terminal persistence.  The result may be there before
the status is, and artifacts are touched only once the status is there. -/
inductive PersistPoint (result : ResultRecord)
    (resultReached statusReached : Prop) (before later : JobFiles) :
    Prop where
  | untouched (unwritten : ¬resultReached) (same : later = before)
  | resulted (written : resultReached) (cut : ¬statusReached)
      (same : later = { before with result := some result })
  | concluded (settled : statusReached) (evident : Evident later)
      (name : later.name = before.name)
      (state : later.status.state = result.state)

section

variable (faults : PersistFaults)

/-- The result takes effect before the process stops. -/
def PersistFaults.resultReached (count : Nat) : Prop :=
  1 ≤ count ∧ faults.result.takesEffect = true

/-- The terminal status takes effect before the process stops. -/
def PersistFaults.statusReached (count : Nat) : Prop :=
  2 ≤ count ∧ faults.status.takesEffect = true

end

instance (faults : PersistFaults) (count : Nat) :
    Decidable (faults.resultReached count) := instDecidableAnd

instance (faults : PersistFaults) (count : Nat) :
    Decidable (faults.statusReached count) := instDecidableAnd

theorem evident_persisted {faults : PersistFaults} {terminal : StatusRecord}
    (complete : isTerminalManagedJobResult result (some before.name) = true)
    (owned : terminal.jobId = some before.name)
    (state : terminal.state = result.state)
    (finishedAt : terminal.finishedAt = result.finishedAt)
    (persisted : terminal.resultPersisted = some faults.result.succeeds)
    (errorClass : faults.result.succeeds = false →
      terminal.terminalRecordErrorClass.any
        (fits isErrorClassUnit 1 80) = true) :
    Evident
      { writeResult faults.result result before with status := terminal } := by
  obtain ⟨ended, dated⟩ := complete_parts complete
  rw [evident_iff]
  refine ⟨by simp [owned], by simp [state, ended], ?_⟩
  cases succeeded : faults.result.succeeds with
  | false =>
    apply Or.inl
    exact ⟨by simp [persisted, succeeded], by simp [finishedAt, dated],
      errorClass succeeded⟩
  | true =>
    apply Or.inr
    have took : faults.result.takesEffect = true := by
      revert succeeded
      cases faults.result <;> decide
    refine ⟨by simp [persisted, succeeded], result, ?_, ?_,
      state.symm, finishedAt.symm⟩
    · simp [writeResult, took]
    · simpa [owned] using complete

section

variable (faults : PersistFaults)

theorem concluded_settle (started : JobFiles) (count : Nat) : Concluded
    started.status started (afterEffects (if faults.status.succeeds then
    removeArtifacts faults.removals ++ [writeStatus faults.finalStatus
    (settledStatus started.status (cleanupFailed faults.removals)
    faults.cleanupErrorClass)] else []) count started) := by
  split
  case isFalse =>
    rw [afterEffects_nil]
    exact Concluded.refl started
  case isTrue =>
    apply concluded_cleanup _ (Concluded.refl started)
    intro effect member
    exact ⟨_, _, mem_singleton.mp member, rfl, rfl, rfl, rfl, rfl⟩

theorem persistManagedJobTerminal_point (count : Nat)
    (owned : status.jobId = some files.name)
    (complete : isTerminalManagedJobResult result (some files.name) = true) :
    PersistPoint result (faults.resultReached count)
    (faults.statusReached count) files
    (afterEffects (persistManagedJobTerminal status result faults) count files)
    := by
  obtain ⟨terminal, made, terminalOwned, state, finishedAt, persisted,
    errorClass⟩ := terminalStatusFromResult_eq
      { resultPersisted := faults.result.succeeds
        terminalRecordErrorClass := faults.resultErrorClass
        updatedAt := result.finishedAt } owned complete
  simp only [persistManagedJobTerminal, made]
  cases count with
  | zero =>
    apply PersistPoint.untouched _ (afterEffects_zero _ _)
    intro reached
    exact absurd reached.1 (by omega)
  | succ count =>
    rw [afterEffects_cons]
    have pending (short : ¬faults.statusReached (count + 1)) : PersistPoint
        result (faults.resultReached (count + 1))
        (faults.statusReached (count + 1)) files
        (writeResult faults.result result files) := by
      cases took : faults.result.takesEffect with
      | false =>
        apply PersistPoint.untouched
        · intro reached
          simp [PersistFaults.resultReached, took] at reached
        · simp [writeResult, took]
      | true =>
        exact .resulted ⟨by omega, took⟩ short
          (by simp [writeResult, took])
    cases count with
    | zero =>
      apply pending
      intro reached
      exact absurd reached.1 (by omega)
    | succ count =>
      rw [afterEffects_cons]
      cases took : faults.status.takesEffect with
      | false =>
        have failed : faults.status.succeeds = false := by
          revert took
          cases faults.status <;> decide
        have same : writeStatus faults.status terminal
            (writeResult faults.result result files) =
            writeResult faults.result result files := by
          simp [writeStatus, took]
        simp only [failed, same, Bool.false_eq_true, if_false,
          afterEffects_nil]
        apply pending
        intro reached
        simp [PersistFaults.statusReached, took] at reached
      | true =>
        have evident := evident_persisted complete terminalOwned
          state finishedAt persisted errorClass
        have wrote : writeStatus faults.status terminal
            (writeResult faults.result result files) =
              { writeResult faults.result result files with
                status := terminal } := by
          simp [writeStatus, took]
        rw [← wrote] at evident
        have current : (writeStatus faults.status terminal
            (writeResult faults.result result files)).status = terminal := by
          simp [writeStatus, took]
        have name : (writeStatus faults.status terminal
            (writeResult faults.result result files)).name = files.name := by
          simp
        generalize writeStatus faults.status terminal
          (writeResult faults.result result files) = started at *
        subst current
        have concluded := concluded_settle faults started count
        apply PersistPoint.concluded ⟨by omega, took⟩
          (concluded.evident evident)
        · rw [concluded.name, name]
        · rw [concluded.evidence.state, state]

end

section

variable (files : JobFiles)

/-- Nothing of the outcome is on disk. -/
def Waiting : Prop :=
  (files.status.state = .staged ∨ files.status.state.active = true) ∧
    files.result = none

/-- The result is complete and the status does not show it yet. -/
def Resulted : Prop :=
  files.status.state.active = true ∧
    (files.result.any fun result =>
      isTerminalManagedJobResult result (some files.name)) = true

/-- The three ways in which the files of a job may stand. -/
def Standing : Prop :=
  Waiting files ∨ Resulted files ∨ Evident files

end

instance (files : JobFiles) : Decidable (Waiting files) := instDecidableAnd

instance (files : JobFiles) : Decidable (Resulted files) := instDecidableAnd

instance (files : JobFiles) : Decidable (Standing files) := instDecidableOr

/-- The terminal outcome which is on disk, be it in the status or in the
result. -/
def durableOutcome (files : JobFiles) : Option JobState :=
  if files.status.state.terminal then some files.status.state
  else files.result.map fun result => result.state

theorem durableOutcome_of_terminal
    (ended : files.status.state.terminal = true) :
    durableOutcome files = some files.status.state := by
  simp [durableOutcome, ended]

theorem terminal_of_evident (evident : Evident files) :
    files.status.state.terminal = true := (evident_iff.mp evident).2.1

theorem not_terminal_of_active {state : JobState}
    (active : state.active = true) : state.terminal = false := by
  revert active
  cases state <;> decide

theorem durableOutcome_of_waiting (waiting : Waiting files) :
    durableOutcome files = none := by
  obtain ⟨staged | active, missing⟩ := waiting
  · simp [durableOutcome, staged, missing, JobState.terminal]
  · simp [durableOutcome, not_terminal_of_active active, missing]

theorem durableOutcome_of_resulted (active : files.status.state.active = true)
    (present : files.result = some result) :
    durableOutcome files = some result.state := by
  simp [durableOutcome, not_terminal_of_active active, present]

inductive ReconcilePoint (before later : JobFiles) : Prop where
  | untouched (same : later = before)
  | concluded (evident : Evident later) (name : later.name = before.name)
      (outcome : durableOutcome before = some later.status.state)

theorem concluded_scrub (files : JobFiles) (faults : ReconcileFaults)
    (count : Nat) : Concluded files.status files (afterEffects
    (scrubTerminalJobArtifacts files files.status faults) count files) := by
  unfold scrubTerminalJobArtifacts
  split
  case isTrue =>
    rw [afterEffects_nil]
    exact Concluded.refl files
  case isFalse =>
    apply concluded_cleanup _ (Concluded.refl files)
    intro effect member
    have wrote := (mem_ite_nil_left.mp member).2
    exact ⟨_, _, mem_singleton.mp wrote, rfl, rfl, rfl, rfl, rfl⟩

/-- Cutting the reconciliation of a result gives the same terminal status as
finishing it, once the status write took effect. -/
theorem reconcileTerminalResult_point (faults : ReconcileFaults) (count : Nat)
    (owned : files.status.jobId = some files.name)
    (present : files.result = some result)
    (complete : isTerminalManagedJobResult result (some files.name) = true) :
    let later :=
      afterEffects (reconcileTerminalResult files faults) count files
    (later = files ∧ ¬(1 ≤ count ∧ faults.status.takesEffect = true)) ∨
      (Evident later ∧ later.name = files.name ∧
        later.status.state = result.state) := by
  intro later
  obtain ⟨recovered, made, recoveredOwned, state, finishedAt, persisted,
    -⟩ := terminalStatusFromResult_eq
      { updatedAt := some faults.now } owned complete
  obtain ⟨ended, -⟩ := complete_parts complete
  have effects : reconcileTerminalResult files faults =
      writeStatus faults.status recovered :: if faults.status.succeeds then
      scrubTerminalJobArtifacts (writeStatus faults.status recovered files)
      recovered faults else [] := by
    simp [reconcileTerminalResult, present, made]
  cases count with
  | zero =>
    apply Or.inl
    exact ⟨afterEffects_zero _ _, by omega⟩
  | succ count =>
    have split_ : later = afterEffects (if faults.status.succeeds then
        scrubTerminalJobArtifacts (writeStatus faults.status recovered files)
        recovered faults else []) count (writeStatus faults.status recovered
        files) := by
      simp [later, effects]
    cases took : faults.status.takesEffect with
    | false =>
      have failed : faults.status.succeeds = false := by
        revert took
        cases faults.status <;> decide
      apply Or.inl
      simp [split_, failed, writeStatus, took]
    | true =>
      apply Or.inr
      have evident : Evident (writeStatus faults.status recovered files) := by
        rw [evident_iff]
        simp only [writeStatus, took, if_true]
        refine ⟨recoveredOwned, by rw [state, ended], Or.inr
          ⟨by simp [persisted], result, present, ?_, state.symm,
            finishedAt.symm⟩⟩
        rw [recoveredOwned, complete]
      have current :
          (writeStatus faults.status recovered files).status = recovered := by
        simp [writeStatus, took]
      have name : (writeStatus faults.status recovered files).name =
          files.name := name_writeStatus _ _ _
      generalize writeStatus faults.status recovered files = started at *
      have concluded : Concluded started.status started later := by
        rw [split_, ← current]
        split
        case isTrue => exact concluded_scrub started faults count
        case isFalse =>
          rw [afterEffects_nil]
          exact Concluded.refl started
      refine ⟨concluded.evident evident, ?_, ?_⟩
      · rw [concluded.name, name]
      · rw [concluded.evidence.state, current, state]

theorem reconcileStatus_point (faults : ReconcileFaults) (count : Nat)
    (owned : files.status.jobId = some files.name)
    (standing : Standing files) : ReconcilePoint files
    (afterEffects (reconcileStatus files faults) count files) := by
  unfold reconcileStatus
  simp only [owned, ne_eq, not_true, if_false]
  split
  case isTrue => exact .untouched (afterEffects_nil _ _)
  case isFalse =>
    split
    case isTrue ended =>
      split
      case isTrue => exact .untouched (afterEffects_nil _ _)
      case isFalse =>
        have evident : Evident files := by
          rcases standing with ⟨staged | active, -⟩ | ⟨active, -⟩ | evident
          · simp [staged, JobState.terminal] at ended
          · rw [not_terminal_of_active active] at ended
            cases ended
          · rw [not_terminal_of_active active] at ended
            cases ended
          · exact evident
        have concluded := concluded_scrub files faults count
        apply ReconcilePoint.concluded (concluded.evident evident)
          concluded.name
        rw [durableOutcome_of_terminal ended, concluded.evidence.state]
    case isFalse unended =>
      split
      case isTrue => exact .untouched (afterEffects_nil _ _)
      case isFalse active =>
        split
        case isTrue => exact .untouched (afterEffects_nil _ _)
        case isFalse =>
          rcases standing with ⟨-, missing⟩ | ⟨active, full⟩ | evident
          · apply ReconcilePoint.untouched
            simp [reconcileTerminalResult, missing]
          · obtain ⟨result, present, complete⟩ :=
              (Option.any_eq_true _ _).mp full
            rcases reconcileTerminalResult_point faults count owned present
              complete with ⟨same, -⟩ | ⟨evident, name, state⟩
            · exact .untouched same
            · apply ReconcilePoint.concluded evident name
              rw [durableOutcome_of_resulted active present, state]
          · exact absurd (terminal_of_evident evident) unended

theorem reconcileStatus_settles {faults : ReconcileFaults} {count : Nat}
    (owned : files.status.jobId = some files.name)
    (active : files.status.state.active = true)
    (present : files.result = some result)
    (complete : isTerminalManagedJobResult result (some files.name) = true)
    (gone : faults.runnerCurrent = some false) (reached : 1 ≤ count)
    (took : faults.status.takesEffect = true) :
    let later := afterEffects (reconcileStatus files faults) count files
    Evident later ∧ later.status.state = result.state := by
  have staged : files.status.state ≠ .staged := by
    intro staged
    simp [staged, JobState.active] at active
  have effects :
      reconcileStatus files faults = reconcileTerminalResult files faults := by
    simp [reconcileStatus, owned, staged, not_terminal_of_active active,
      active, gone]
  rw [effects]
  rcases reconcileTerminalResult_point faults count owned present complete
    with ⟨-, short⟩ | ⟨evident, -, state⟩
  · exact absurd ⟨reached, took⟩ short
  · exact ⟨evident, state⟩

/-- What happens to the files of a job.  The fields `count` say after how many
of its effects a step stops. -/
inductive JobEvent where
  /-- The job is launched, makes progress, or is asked to stop. -/
  | progress (status : StatusRecord) (added : List Artifact)
  | persist (status : StatusRecord) (result : ResultRecord)
      (faults : PersistFaults) (count : Nat)
  | reconcile (faults : ReconcileFaults) (count : Nat)

section

variable (files : JobFiles)

/-- Only a job without a result is launched or given a result: a runner which
wrote one stops, and recovery looks for one first.  A staged job is not
reconciled, and its result is written whatever is there. -/
def JobEvent.enabled : JobEvent → Bool
  | .progress status _ =>
    files.status.state.active && files.result.isNone &&
      status.state.active && status.jobId == some files.name
  | .persist status result _ _ =>
    status.jobId == some files.name &&
      isTerminalManagedJobResult result (some files.name) &&
      (files.status.state == .staged ||
        (files.status.state.active && files.result.isNone))
  | .reconcile _ _ => true

def JobEvent.apply : JobEvent → JobFiles
  | .progress status added =>
    { files with status, present := files.present ++ added }
  | .persist status result faults count =>
    afterEffects (persistManagedJobTerminal status result faults) count
      files
  | .reconcile faults count =>
    afterEffects (reconcileStatus files faults) count files

def stepJob (event : JobEvent) : JobFiles :=
  if event.enabled files then event.apply files else files

/-- A terminal persistence of a staged job is not cut between its result and
its status. -/
def Uncut : JobEvent → Prop
  | .persist status result faults count =>
    files.status.state = .staged →
      (JobEvent.persist status result faults count).enabled files = true →
        faults.resultReached count → faults.statusReached count
  | _ => True

end

instance decidableUncut (files : JobFiles) :
    (event : JobEvent) → Decidable (Uncut files event)
  | .progress _ _ => .isTrue trivial
  | .persist _ _ _ _ => inferInstanceAs (Decidable (_ → _ → _ → _))
  | .reconcile _ _ => .isTrue trivial

inductive StepPoint (before later : JobFiles) : Prop where
  | untouched (same : later = before)
  | progressed (nothing : durableOutcome before = none)
      (waiting : Waiting later)
      (kept : ∀ artifact ∈ before.present, artifact ∈ later.present)
  | resulted (nothing : durableOutcome before = none)
      (present : later.present = before.present) (resulted : Resulted later)
  | concluded (evident : Evident later)
      (outcome : ∀ outcome, durableOutcome before = some outcome →
        later.status.state = outcome)

/-- The files stand in one of the three ways and name their own job. -/
structure Sound (files : JobFiles) : Prop where
  owned : files.status.jobId = some files.name
  standing : Standing files

theorem waiting_of_unfinished (standing : Standing files)
    (unfinished : files.status.state = .staged ∨
      (files.status.state.active = true ∧ files.result = none)) :
    Waiting files := by
  rcases unfinished with staged | ⟨active, missing⟩
  · rcases standing with waiting | ⟨active, -⟩ | evident
    · exact waiting
    · simp [staged, JobState.active] at active
    · have ended := terminal_of_evident evident
      simp [staged, JobState.terminal] at ended
  · exact ⟨Or.inr active, missing⟩

theorem stepJob_progress {added : List Artifact}
    (enabled : (JobEvent.progress status added).enabled files = true) :
    let later := stepJob files (.progress status added)
    later.status.jobId = some later.name ∧ StepPoint files later := by
  intro later
  have same : later = { files with
      status, present := files.present ++ added } := by
    simp [later, stepJob, enabled, JobEvent.apply]
  simp only [JobEvent.enabled, Bool.and_eq_true, Option.isNone_iff_eq_none,
    beq_iff_eq] at enabled
  obtain ⟨⟨⟨active, missing⟩, activeAfter⟩, owned⟩ := enabled
  rw [same]
  refine ⟨owned, .progressed ?_ ⟨Or.inr activeAfter, missing⟩ ?_⟩
  · exact durableOutcome_of_waiting ⟨Or.inr active, missing⟩
  · intro artifact member
    exact mem_append_left _ member

theorem stepJob_persist {faults : PersistFaults} {count : Nat}
    (sound : Sound files)
    (enabled :
      (JobEvent.persist status result faults count).enabled files = true)
    (uncut : Uncut files (.persist status result faults count)) :
    let later := stepJob files (.persist status result faults count)
    later.status.jobId = some later.name ∧ StepPoint files later := by
  intro later
  have applied : later = afterEffects
      (persistManagedJobTerminal status result faults) count files := by
    simp [later, stepJob, enabled, JobEvent.apply]
  have reached := uncut
  simp only [Uncut, enabled, forall_const] at reached
  simp only [JobEvent.enabled, Bool.and_eq_true, Bool.or_eq_true,
    Option.isNone_iff_eq_none, beq_iff_eq] at enabled
  obtain ⟨⟨owned, complete⟩, unfinished⟩ := enabled
  have waiting := waiting_of_unfinished sound.standing unfinished
  have nothing := durableOutcome_of_waiting waiting
  have point := persistManagedJobTerminal_point faults count owned complete
  rw [← applied] at point
  cases point with
  | untouched _ same =>
    rw [same]
    exact ⟨sound.owned, .untouched rfl⟩
  | resulted written cut same =>
    rw [same]
    refine ⟨sound.owned, .resulted nothing rfl ⟨?_, by simpa⟩⟩
    rcases waiting.1 with staged | active
    · exact absurd (reached staged written) cut
    · exact active
  | concluded _ evident _ _ =>
    refine ⟨(evident_iff.mp evident).1, .concluded evident ?_⟩
    intro outcome durable
    rw [nothing] at durable
    cases durable

theorem stepJob_point (sound : Sound files) (uncut : Uncut files event) :
    (stepJob files event).status.jobId = some (stepJob files event).name ∧
    StepPoint files (stepJob files event) := by
  cases enabled : event.enabled files with
  | false =>
    have same : stepJob files event = files := by simp [stepJob, enabled]
    rw [same]
    exact ⟨sound.owned, .untouched rfl⟩
  | true =>
    cases event with
    | progress status added => exact stepJob_progress enabled
    | persist status result faults count =>
      exact stepJob_persist sound enabled uncut
    | reconcile faults count =>
      have point := reconcileStatus_point faults count sound.owned
        sound.standing
      have applied : stepJob files (.reconcile faults count) =
          afterEffects (reconcileStatus files faults) count files := by
        simp [stepJob, enabled, JobEvent.apply]
      rw [applied]
      cases point with
      | untouched same =>
        rw [same]
        exact ⟨sound.owned, .untouched rfl⟩
      | concluded evident name outcome =>
        refine ⟨(evident_iff.mp evident).1, .concluded evident ?_⟩
        intro other durable
        rw [outcome] at durable
        exact Option.some.inj durable

theorem StepPoint.standing (point : StepPoint before later)
    (standing : Standing before) : Standing later := by
  cases point with
  | untouched same =>
    rw [same]
    exact standing
  | progressed _ waiting _ => exact Or.inl waiting
  | resulted _ _ resulted => exact Or.inr (Or.inl resulted)
  | concluded evident _ => exact Or.inr (Or.inr evident)

theorem StepPoint.durable (point : StepPoint before later)
    (durable : durableOutcome before = some outcome) :
    durableOutcome later = some outcome := by
  cases point with
  | untouched same =>
    rw [same]
    exact durable
  | progressed nothing _ _ | resulted nothing _ _ =>
    rw [nothing] at durable
    cases durable
  | concluded evident state =>
    rw [durableOutcome_of_terminal (terminal_of_evident evident),
      state outcome durable]

theorem StepPoint.evident_of_removed (point : StepPoint before later)
    {artifact : Artifact} (present : artifact ∈ before.present)
    (removed : artifact ∉ later.present) : Evident later := by
  cases point with
  | untouched same =>
    rw [same] at removed
    exact absurd present removed
  | progressed _ _ kept => exact absurd (kept artifact present) removed
  | resulted _ same _ =>
    rw [same] at removed
    exact absurd present removed
  | concluded evident _ => exact evident

theorem stepJob_sound (sound : Sound files) (uncut : Uncut files event) :
    Sound (stepJob files event) := by
  obtain ⟨owned, point⟩ := stepJob_point sound uncut
  exact ⟨owned, point.standing sound.standing⟩

theorem uncut_of_standing (standing : Standing (stepJob files event)) :
    Uncut files event := by
  cases event with
  | progress status added => trivial
  | reconcile faults count => trivial
  | persist status result faults count =>
    intro staged enabled written
    apply Classical.byContradiction
    intro cut
    have applied : stepJob files (.persist status result faults count) =
        afterEffects (persistManagedJobTerminal status result faults) count
        files := by
      simp [stepJob, enabled, JobEvent.apply]
    simp only [JobEvent.enabled, Bool.and_eq_true, beq_iff_eq] at enabled
    obtain ⟨⟨owned, complete⟩, -⟩ := enabled
    have point := persistManagedJobTerminal_point faults count owned complete
    rw [applied] at standing
    cases point with
    | untouched unwritten _ => exact unwritten written
    | concluded settled _ _ _ => exact cut settled
    | resulted _ _ same =>
      rw [same] at standing
      rcases standing with ⟨-, missing⟩ | ⟨active, -⟩ | evident
      · cases missing
      · simp [staged, JobState.active] at active
      · have ended := terminal_of_evident evident
        simp [staged, JobState.terminal] at ended

theorem readOutcome_of_waiting (waiting : Waiting files) :
    readOutcome files = none := by
  obtain ⟨unfinished, missing⟩ := waiting
  have unended : files.status.state.terminal = false := by
    rcases unfinished with staged | active
    · simp [staged, JobState.terminal]
    · exact not_terminal_of_active active
  simp [readOutcome, missing, unended]

theorem readOutcome_of_active (active : files.status.state.active = true)
    (reported : readOutcome files = some outcome) :
    ∃ result, files.result = some result ∧ result.state = outcome := by
  have unended := not_terminal_of_active active
  by_cases marked : files.status.resultPersisted = some false
  · simp [readOutcome, marked, unended] at reported
  · cases present : files.result with
    | none => simp [readOutcome, marked, present] at reported
    | some result =>
      refine ⟨result, rfl, ?_⟩
      simp only [readOutcome, marked, present, active] at reported
      have shown : isTerminalManagedJobResult result files.status.jobId =
          true ∧ result.state = outcome := by simpa using reported
      exact shown.2

theorem readOutcome_of_terminal (ended : files.status.state.terminal = true)
    (reported : readOutcome files = some outcome) :
    files.status.state = outcome := by
  have inactive : files.status.state.active = false := by
    revert ended
    cases files.status.state <;> decide
  by_cases marked : files.status.resultPersisted = some false
  · simpa [readOutcome, marked, ended] using reported
  · cases present : files.result with
    | none => simp [readOutcome, marked, present] at reported
    | some result =>
      simp only [readOutcome, marked, present, inactive, ended] at reported
      have shown : isTerminalManagedJobResult result files.status.jobId =
          true ∧ result.state = files.status.state ∧
            files.status.state = outcome := by simpa using reported
      exact shown.2.2

theorem readOutcome_durable (standing : Standing files)
    (reported : readOutcome files = some outcome) :
    durableOutcome files = some outcome := by
  rcases standing with waiting | ⟨active, -⟩ | evident
  · rw [readOutcome_of_waiting waiting] at reported
    cases reported
  · obtain ⟨result, present, state⟩ := readOutcome_of_active active reported
    rw [durableOutcome_of_resulted active present, state]
  · have ended := terminal_of_evident evident
    rw [durableOutcome_of_terminal ended,
      readOutcome_of_terminal ended reported]

theorem run_sound {initial : JobFiles} {events : List JobEvent}
    (sound : Sound initial) (uncut : Meets stepJob Uncut initial events) :
    Sound (run stepJob initial events) := by
  apply run_induction_of_meets _ sound uncut
  intro files event condition holds
  exact stepJob_sound holds condition

theorem run_durable {initial : JobFiles} {events : List JobEvent}
    (sound : Sound initial) (uncut : Meets stepJob Uncut initial events)
    (durable : durableOutcome initial = some outcome) :
    durableOutcome (run stepJob initial events) = some outcome := by
  induction events generalizing initial with
  | nil => exact durable
  | cons event events induction =>
    obtain ⟨condition, rest⟩ := uncut
    apply induction (stepJob_sound sound condition) rest
    exact (stepJob_point sound condition).2.durable durable

/-- What terminal persistence and its recovery promise along a run. -/
structure TerminalPersistence (initial : JobFiles) (events : List JobEvent) :
    Prop where
  /-- Inputs and artifacts go only when the terminal status is durable. -/
  removal : ∀ before event after, events = before ++ event :: after →
    ∀ artifact ∈ (run stepJob initial before).present,
      artifact ∉ (run stepJob initial (before ++ [event])).present →
        Evident (run stepJob initial (before ++ [event]))
  /-- Whatever a reader reports is the outcome which was durable first. -/
  reported : ∀ before after, events = before ++ after →
    ∀ outcome, durableOutcome (run stepJob initial before) = some outcome →
      ∀ later, readOutcome (run stepJob initial events) = some later →
        later = outcome
  /-- The next reconciliation turns a complete result into its status. -/
  reconciled : ∀ result,
    (run stepJob initial events).status.state.active = true →
    (run stepJob initial events).result = some result →
    ∀ (faults : ReconcileFaults) count,
      faults.runnerCurrent = some false → 1 ≤ count →
        faults.status.takesEffect = true →
          let later := afterEffects
            (reconcileStatus (run stepJob initial events) faults) count
            (run stepJob initial events)
          Evident later ∧ later.status.state = result.state

/-- From a job which waits, all files of a run stand in one of the three ways
just when no terminal persistence of a staged job is cut between its result
and its status, and then a run keeps what is promised. -/
theorem terminalPersistence_iff {initial : JobFiles}
    (owned : initial.status.jobId = some initial.name)
    (waiting : Waiting initial) (events : List JobEvent) :
    ((∀ count, Standing (run stepJob initial (events.take count))) ↔
      Meets stepJob Uncut initial events) ∧
    (Meets stepJob Uncut initial events → TerminalPersistence initial events)
    := by
  have sound : Sound initial := ⟨owned, Or.inl waiting⟩
  constructor
  · exact holds_throughout_iff (fun _ _ holds condition => stepJob_sound holds
      condition) (fun _ _ _ standing => uncut_of_standing standing) (fun _
      holds => holds.standing) sound events
  · intro uncut
    constructor
    · intro before event after split artifact present removed
      rw [split, meets_append] at uncut
      obtain ⟨earlier, condition, -⟩ := uncut
      have held := run_sound sound earlier
      rw [run_append, run_cons, run_nil] at removed ⊢
      exact (stepJob_point held condition).2.evident_of_removed present removed
    · intro before after split outcome durable later read
      have whole := run_sound sound uncut
      rw [split, meets_append] at uncut
      have kept := run_durable (run_sound sound uncut.1) uncut.2 durable
      rw [← run_append, ← split, readOutcome_durable whole.standing read]
        at kept
      exact Option.some.inj kept
    · intro result active present faults count gone reached took
      have held := run_sound sound uncut
      apply reconcileStatus_settles held.owned active present _ gone reached
        took
      rcases held.standing with ⟨-, missing⟩ | ⟨-, full⟩ | evident
      · rw [missing] at present
        cases present
      · simpa [present] using full
      · have ended := terminal_of_evident evident
        rw [not_terminal_of_active active] at ended
        cases ended

def queuedJob : JobFiles where
  name := text "job_release"
  status := { jobId := some (text "job_release"), state := .queued }

def succeededResult : ResultRecord where
  jobId := some (text "job_release")
  state := .succeeded
  finishedAt := some ⟨text "2026-07-01T10:00:00.000Z", some 1782900000000⟩

/-- The process stops after the result, and the job is then reconciled. -/
def interruptedSettlement : List JobEvent :=
  [.persist queuedJob.status succeededResult {} 1,
    .reconcile
      { now := ⟨text "2026-07-01T10:01:00.000Z", some 1782900060000⟩ } 6]

theorem interruptedSettlement_recovers : (∀ count,
      Standing (run stepJob queuedJob (interruptedSettlement.take count))) ∧
    TerminalPersistence queuedJob interruptedSettlement := by
  have waiting : Waiting queuedJob := by decide
  have whole := terminalPersistence_iff rfl waiting interruptedSettlement
  have uncut : Meets stepJob Uncut queuedJob interruptedSettlement := by decide
  exact ⟨whole.1.mpr uncut, whole.2 uncut⟩

def stagedJob : JobFiles where
  name := text "job_release"
  status := { jobId := some (text "job_release"), state := .staged }

def cancelledResult : ResultRecord where
  jobId := some (text "job_release")
  state := .cancelledBeforeStart
  finishedAt := some ⟨text "2026-07-01T10:00:00.000Z", some 1782900000000⟩
  errorClass := some (text "cancelled")

def expiredResult : ResultRecord where
  jobId := some (text "job_release")
  state := .expiredBeforeStart
  finishedAt := some ⟨text "2026-07-02T10:00:00.000Z", some 1782986400000⟩
  errorClass := some (text "expired")

def unfinishedCancellation : JobEvent :=
  .persist stagedJob.status cancelledResult { status := .failed } 6

def laterReconciliation : JobEvent :=
  .reconcile
    { now := ⟨text "2026-07-01T10:01:00.000Z", some 1782900060000⟩ } 6

def laterExpiry : JobEvent :=
  .persist stagedJob.status expiredResult {} 7

/-- A staged job keeps its status beside a complete result, reconciliation
does not change that, and the outcome which was durable first is replaced. -/
theorem unfinishedCancellation_replaced : Waiting stagedJob ∧ ¬Standing
    (run stepJob stagedJob [unfinishedCancellation]) ∧ durableOutcome
    (run stepJob stagedJob [unfinishedCancellation]) = some
    .cancelledBeforeStart ∧ run stepJob stagedJob [unfinishedCancellation,
    laterReconciliation] = run stepJob stagedJob [unfinishedCancellation] ∧
    readOutcome (run stepJob stagedJob [unfinishedCancellation,
    laterReconciliation, laterExpiry]) = some .expiredBeforeStart := by
  decide

end MachineBridge.Jobs
