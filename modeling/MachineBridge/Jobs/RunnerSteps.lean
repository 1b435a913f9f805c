import MachineBridge.Jobs.Runner

/-!
# One step of the runner

A step which returns has been started and has settled, and no cancellation was
found meanwhile.  A step which throws has settled if it was started.
-/

namespace MachineBridge.Jobs.Runner

open Foundation Process

variable {α β : Type} {Before : Session → Prop} {After : α → Session → Prop}
  {Failed : StepError → Session → Prop} {aware : Bool} {phase : Phase}
  {index count : Nat} {resources : Option Bool} {log later : List RunEvent}
  {answers : StepAnswers}

section

variable (resources : Option Bool)

def Logged (Fact : List RunEvent → Prop) (session : Session) : Prop :=
  session.resources = resources ∧ Fact session.log

/-- A cancellation was found some times, if the step pays attention. -/
def Seen (aware : Bool) (log later : List RunEvent) : Prop :=
  ∃ count, later = List.replicate count .observed ++ log ∧
    (0 < count → aware = true)

/-- The checks before the log is `log` have found `count` cancellations. -/
def Checked (aware : Bool) (count : Nat) (log : List RunEvent)
    (session : Session) : Prop :=
  Logged resources (· = log) session ∧
    (0 < count → aware = true ∧ session.cancelRequested = true)

end

theorem seen_refl : Seen aware log log :=
  ⟨0, rfl, fun positive => absurd positive (Nat.lt_irrefl 0)⟩

theorem checked_zero {session : Session} :
    Checked resources aware 0 log session ↔
    Logged resources (· = log) session :=
  ⟨And.left, fun logged => ⟨logged, fun positive => absurd positive
    (Nat.lt_irrefl 0)⟩⟩

theorem ensures_require {done : Bool} {next : Runner α}
    (passed : done = true → Ensures Before next After Failed)
    (refused : done = false → ∀ session, Before session →
      Failed .other session) :
    Ensures Before (require done >>= fun _ => next) After Failed := by
  cases done with
  | true => exact passed rfl
  | false => exact fun shared before => refused rfl shared.state before

theorem ensures_after {change : Session → Session} {next : Runner α}
    (Between : Session → Prop)
    (changed : ∀ session, Before session → Between (change session))
    (rest : Ensures Between next After Failed) :
    Ensures Before (modify change >>= fun _ => next) After Failed :=
  ensures_seq (ensures_modify changed) fun _ => rest

theorem ensures_outcome {process : Runner β} {next : Except StepError β →
    Runner α} (Outcome : Except StepError β → Session → Prop) (holds : Ensures
    Before process (fun value => Outcome (.ok value)) fun error => Outcome
    (.error error)) (rest : ∀ outcome, Ensures (Outcome outcome) (next outcome)
    After Failed) : Ensures Before (attempt process >>= next) After Failed :=
  ensures_bind (ensures_attempt holds) rest

theorem ensures_observed {observe : Session → β} {next : β → Runner α}
    (rest : ∀ value, Ensures
      (fun session => Before session ∧ observe session = value) (next value)
      After Failed) : Ensures Before (inspect observe >>= next) After Failed :=
  fun shared before => rest _ shared ⟨before, rfl⟩

theorem ensures_exists {ι : Type} {Each : ι → Session → Prop}
    {process : Runner α}
    (each : ∀ item, Ensures (Each item) process After Failed) :
    Ensures (fun session => ∃ item, Each item session) process After Failed :=
  fun shared ⟨item, holds⟩ => each item shared holds

theorem isCancellationRequested_ensures {check : Check} : Ensures
    (Checked resources aware count log) (isCancellationRequested check) (fun
    requested session => if requested then Logged resources (· = .observed ::
    log) session else Logged resources (· = log) session ∧ count = 0) (fun _
    session => check.marker = none ∧ Logged resources (· = log) session) := by
  apply ensures_perform
  · rintro session value after ⟨⟨rfl, rfl⟩, latched⟩ found
    simp only at found
    split at found
    · cases found
    · cases found
      exact ⟨rfl, rfl⟩
    · cases found
      refine ⟨⟨rfl, rfl⟩, ?_⟩
      by_contra positive
      have requested := (latched (Nat.pos_of_ne_zero positive)).2
      simp_all
  · rintro session error after ⟨⟨rfl, rfl⟩, -⟩ found
    simp only at found
    split at found
    case h_1 unreadable =>
      cases found
      split at unreadable
      · cases unreadable
      · exact ⟨unreadable, rfl, rfl⟩
    all_goals cases found

theorem throwIfCancelled_ensures {check : Check} : Ensures
    (Checked resources aware count log) (throwIfCancelled aware check)
    (fun _ session => Logged resources (· = log) session ∧ count = 0)
    (fun _ session => aware = true ∧ Logged resources (Seen true log) session)
    := by
  cases aware with
  | false =>
    apply ensures_pure
    rintro session ⟨logged, latched⟩
    refine ⟨logged, ?_⟩
    by_contra positive
    cases (latched (Nat.pos_of_ne_zero positive)).1
  | true =>
    refine ensures_bind (isCancellationRequested_ensures.weaken
      (fun _ => id) (fun _ _ => id) ?_) ?_
    · exact fun _ session failed => ⟨rfl, failed.2.1, failed.2.2 ▸ seen_refl⟩
    · intro requested
      cases requested with
      | false => exact ensures_pure fun _ quiet => quiet
      | true =>
        apply ensures_fail
        rintro session ⟨same, seen⟩
        exact ⟨rfl, same, 1, seen, fun _ => rfl⟩

theorem ensures_throwIfCancelled {check : Check} {next : Runner α}
    (passed : Ensures (Logged resources (· = log)) next After Failed)
    (cancelled : ∀ error session, aware = true →
      Logged resources (Seen true log) session → Failed error session) :
    Ensures (Logged resources (· = log))
    (throwIfCancelled aware check >>= fun _ => next) After Failed :=
  ensures_seq (throwIfCancelled_ensures.weaken (fun _ => checked_zero.mpr) (fun
    _ _ kept => kept.1) fun error session failed => cancelled error session
    failed.1 failed.2) fun _ => passed

theorem ensures_checks {checks : List Check} {next : Runner α}
    (passed : Ensures (Logged resources (· = log)) next After Failed)
    (cancelled : ∀ error session, aware = true →
      Logged resources (Seen true log) session → Failed error session) :
    Ensures (Logged resources (· = log))
    (forEach (throwIfCancelled aware) checks >>= fun _ => next) After Failed :=
    by
  refine ensures_seq (ensures_forEach_same fun check _ => ?_) fun _ => passed
  exact throwIfCancelled_ensures.weaken (fun _ => checked_zero.mpr)
    (fun _ _ kept => kept.1)
    fun error session failed => cancelled error session failed.1 failed.2

/-- While the child runs, each poll may find a cancellation. -/
def Polled (resources : Option Bool) (aware : Bool) (log : List RunEvent)
    (session : Session) : Prop :=
  ∃ count, Checked resources aware count
    (List.replicate count .observed ++ log) session

theorem cancellationPoll_ensures {poll : Poll} : Ensures
    (Polled resources aware log) (cancellationPoll aware poll)
    (fun _ => Polled resources aware log) Failed := by
  apply ensures_exists
  intro count
  cases aware with
  | false => exact ensures_pure fun _ checked => ⟨count, checked⟩
  | true =>
    refine ensures_bind (isCancellationRequested_ensures.weaken
      (fun _ => id) (fun _ _ => id) ?_) ?_
    · rintro _ _ ⟨unreadable, _⟩
      cases unreadable
    · intro requested
      cases requested with
      | false =>
        exact ensures_pure fun session quiet =>
          ⟨count, quiet.1, fun positive => by simp [quiet.2] at positive⟩
      | true =>
        simp only [if_true]
        exact ensures_modify fun session logged =>
          ⟨count + 1, logged, fun _ => ⟨rfl, rfl⟩⟩

theorem polls_ensures {polls : List Poll} : Ensures
    (Logged resources (· = log)) (forEach (cancellationPoll aware) polls)
    (fun _ => Polled resources aware log) Failed :=
  (ensures_forEach_same fun _ _ => cancellationPoll_ensures).weaken (fun _
    logged => ⟨0, checked_zero.mpr logged⟩) (fun _ _ => id) fun _ _ => id

/-- The log of a step which throws: the child was not started, or it has
settled. -/
def Thrown (aware : Bool) (phase : Phase) (index : Nat)
    (log later : List RunEvent) : Prop :=
  Seen aware (.attempted phase index :: log) later ∨
    ∃ running, Seen aware (.started phase index :: .attempted phase index ::
      log) running ∧ Seen aware (.settled phase index :: running) later

def finished (phase : Phase) (index : Nat) (log : List RunEvent) :
    List RunEvent :=
  .settled phase index :: .started phase index :: .attempted phase index :: log

theorem thrown_unstarted {session : Session} (seen : Logged resources (Seen
    aware (.attempted phase index :: log)) session) : Logged resources
    (Thrown aware phase index log) session :=
  ⟨seen.1, .inl seen.2⟩

theorem thrown_settled {session : Session} (checked : Checked resources aware
    count (.settled phase index :: (List.replicate count .observed ++ .started
    phase index :: .attempted phase index :: log)) session) : Logged resources
    (Thrown aware phase index log) session := by
  refine ⟨checked.1.1, .inr ⟨_, ⟨count, rfl, fun positive =>
    (checked.2 positive).1⟩, ?_⟩⟩
  rw [checked.1.2]
  exact seen_refl

theorem spawnStep_ensures : Ensures
    (Logged resources (· = .attempted phase index :: log))
    (spawnStep phase index aware answers)
    (fun _ session => Logged resources (· = finished phase index log) session ∧
      (aware = false → answers.prepared = true → answers.redacted = true →
        answers.settles = true))
    (fun _ session => Logged resources (Thrown aware phase index log) session ∧
      (aware = false → answers.settles = false)) := by
  have cancelled : ∀ (_ : StepError) session, aware = true →
      Logged resources (Seen true (.attempted phase index :: log)) session →
      Logged resources (Thrown aware phase index log) session ∧
      (aware = false → answers.settles = false) := by
    rintro _ session rfl seen
    exact ⟨thrown_unstarted seen, nofun⟩
  have refused : answers.settles = false → ∀ session,
      Logged resources (· = .attempted phase index :: log) session →
      Logged resources (Thrown aware phase index log) session ∧
      (aware = false → answers.settles = false) :=
    fun unsettled session logged =>
      ⟨thrown_unstarted ⟨logged.1, logged.2 ▸ seen_refl⟩, fun _ => unsettled⟩
  unfold spawnStep
  refine ensures_throwIfCancelled (ensures_require (fun begun => ?_)
    fun failed => refused (by simp [StepAnswers.settles, failed])) cancelled
  refine ensures_checks (ensures_require (fun admitted => ?_)
    fun failed => refused (by simp [StepAnswers.settles, failed])) cancelled
  refine ensures_require (fun completed => ?_)
    fun failed => refused (by simp [StepAnswers.settles, failed])
  refine ensures_require (fun delegated => ?_)
    fun failed => refused (by simp [StepAnswers.settles, failed])
  refine ensures_throwIfCancelled (ensures_require (fun spawned => ?_)
    fun failed => refused (by simp [StepAnswers.settles, failed])) cancelled
  -- From here on the child runs, and it settles whatever is found.
  refine ensures_after (Logged resources
    (· = .started phase index :: .attempted phase index :: log))
    (fun session logged => ⟨logged.1, by rw [logged.2]⟩) ?_
  refine ensures_seq polls_ensures fun _ => ensures_exists fun count => ?_
  refine ensures_after (Checked resources aware count
    (.settled phase index :: (List.replicate count .observed ++
      .started phase index :: .attempted phase index :: log)))
    (fun session checked => ⟨⟨checked.1.1, by rw [checked.1.2]⟩, checked.2⟩) ?_
  have failed : answers.settles = false → ∀ session, Checked resources aware
      count (.settled phase index :: (List.replicate count .observed ++
        .started phase index :: .attempted phase index :: log)) session →
      Logged resources (Thrown aware phase index log) session ∧
        (aware = false → answers.settles = false) :=
    fun unsettled session checked =>
      ⟨thrown_settled checked, fun _ => unsettled⟩
  refine ensures_require (fun released => ?_)
    fun refused => failed (by simp [StepAnswers.settles, refused])
  refine ensures_require (fun cleared => ?_)
    fun refused => failed (by simp [StepAnswers.settles, refused])
  refine ensures_require (fun bound => ?_)
    fun refused => failed (by simp [StepAnswers.settles, refused])
  refine ensures_require (fun kept => ?_)
    fun refused => failed (by
      simp only [Bool.and_eq_false_iff, Bool.not_eq_false'] at refused
      rcases refused with refused | refused <;>
        simp [StepAnswers.settles, refused])
  refine ensures_seq (throwIfCancelled_ensures.weaken (fun _ => id)
    (fun _ _ => id) ?_) fun _ => ensures_pure ?_
  · rintro error session ⟨rfl, same, seen⟩
    exact ⟨⟨same, .inr ⟨_, ⟨count, rfl, fun _ => rfl⟩, seen⟩⟩, nofun⟩
  · rintro session ⟨logged, rfl⟩
    refine ⟨logged, fun _ prepared redacted => ?_⟩
    simp_all [StepAnswers.settles]

theorem runStep_ensures : Ensures (Logged resources (· = log))
    (runStep phase index aware answers)
    (fun _ session => Logged resources (· = finished phase index log) session ∧
      (aware = false → answers.settles = true))
    (fun _ session => Logged resources (Thrown aware phase index log) session ∧
      (aware = false → answers.settles = false)) := by
  unfold runStep
  refine ensures_after (Logged resources (· = .attempted phase index :: log))
    (fun session logged => ⟨logged.1, by rw [logged.2]⟩) ?_
  refine ensures_require (fun prepared => ?_) fun failed session logged =>
    ⟨thrown_unstarted ⟨logged.1, logged.2 ▸ seen_refl⟩,
      fun _ => by simp [StepAnswers.settles, failed]⟩
  refine ensures_seq spawnStep_ensures fun raw => ?_
  refine ensures_require (fun redacted => ?_) ?_
  · exact ensures_pure fun session done =>
      ⟨done.1, fun heedless => done.2 heedless prepared redacted⟩
  · rintro failed session ⟨⟨same, logged⟩, _⟩
    refine ⟨⟨same, .inr ⟨_, seen_refl, logged ▸ seen_refl⟩⟩,
      fun _ => by simp [StepAnswers.settles, failed]⟩

/-- What holds after each outcome of a step. -/
def Settles (done stopped : Prop) : Except StepError StepResult → Prop
  | .ok _ => done
  | .error _ => stopped

theorem recorded_ensures {step : Runner StepResult} {Done Stopped : List
    RunEvent → Prop} {Fact Other : Prop} (holds : Ensures Before step (fun _
    session => Logged resources Done session ∧ Fact) (fun _ session => Logged
    resources Stopped session ∧ Other)) : Ensures Before (recorded phase index
    step) (fun result session => Logged resources (fun log => ∃ earlier, log =
    .ended phase index (some result) :: earlier ∧ Done earlier) session ∧ Fact)
    (fun _ session => Logged resources (fun log => ∃ earlier, log = .ended
    phase index none :: earlier ∧ Stopped earlier) session ∧ Other) := by
  refine ensures_outcome (fun outcome session =>
    Settles (Logged resources Done session ∧ Fact)
      (Logged resources Stopped session ∧ Other) outcome) holds ?_
  rintro (error | result)
  · exact ensures_seq (ensures_modify fun session stopped =>
      ⟨⟨stopped.1.1, _, rfl, stopped.1.2⟩, stopped.2⟩)
      fun _ => ensures_fail fun _ => id
  · exact ensures_seq (ensures_modify fun session done =>
      ⟨⟨done.1.1, _, rfl, done.1.2⟩, done.2⟩)
      fun _ => ensures_pure fun _ => id

end MachineBridge.Jobs.Runner
