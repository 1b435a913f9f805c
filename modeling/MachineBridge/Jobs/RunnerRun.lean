import MachineBridge.Jobs.RunnerSteps

/-!
# The order of the steps

The main steps are started in the order of the plan until one of them fails or a
cancellation is found, and the finally steps follow.  Each of these is attempted
when no call but those of the last one throws.
-/

namespace MachineBridge.Jobs

open Foundation Process Runner List

section

variable (phase : Phase)

def startOf : RunEvent → Option Nat
  | .started other index => if other = phase then some index else none
  | _ => none

def settlementOf : RunEvent → Option Nat
  | .settled other index => if other = phase then some index else none
  | _ => none

def attemptOf : RunEvent → Option Nat
  | .attempted other index => if other = phase then some index else none
  | _ => none

end

/-- A cancellation was found, or a main step failed. -/
def StepPlan.stops (plan : StepPlan) : RunEvent → Bool
  | .observed => true
  | .ended .steps _ none => true
  | .ended .steps index (some result) =>
    plan.steps[index]?.any fun step => step.refuses result
  | _ => false

/-- No main step is started after an event which stops the main steps. -/
def StepPlan.Orderly (plan : StepPlan) : List RunEvent → Prop
  | [] => True
  | event :: earlier => plan.Orderly earlier ∧
      ((startOf .steps event).isSome → ∀ past ∈ earlier, plan.stops past = false)

def StepPlan.phase (plan : StepPlan) : Phase → List PlanStep
  | .steps => plan.steps
  | .finallySteps => plan.finallySteps

def StepPlan.Exited (plan : StepPlan) (phase : Phase) (index : Nat)
    (log : List RunEvent) : Prop :=
  ∀ earlier < index, ∀ step, (plan.phase phase)[earlier]? = some step →
    step.allowFailure = false →
      .ended phase earlier (some { code := 0, timedOut := false }) ∈ log

/-- The order of the steps, and what the status `succeeded` tells. -/
structure Sequenced (plan : StepPlan)
    (run : Option JobState × List RunEvent) : Prop where
  started : ∃ count ≤ plan.steps.length,
    run.2.filterMap (startOf .steps) = (List.range count).reverse
  orderly : plan.Orderly run.2
  finally' : ∃ later earlier, run.2 = later ++ earlier ∧
    later.filterMap (startOf .steps) = [] ∧
    earlier.filterMap (attemptOf .finallySteps) = [] ∧
    earlier.filterMap (settlementOf .steps) =
      earlier.filterMap (startOf .steps) ∧
    later.filterMap (attemptOf .finallySteps) =
      (List.range plan.finallySteps.length).reverse
  succeeded : run.1 = some .succeeded → .observed ∉ run.2 ∧
    ∀ phase, plan.Exited phase (plan.phase phase).length run.2

variable {plan : StepPlan} {world : JobWorld} {index count settled : Nat}
  {step : PlanStep} {result : StepResult} {log later earlier : List RunEvent}
  {resources : Option Bool}

structure Worked (plan : StepPlan) (count settled : Nat) (log : List RunEvent) :
    Prop where
  started : log.filterMap (startOf .steps) = (List.range count).reverse
  settled : log.filterMap (settlementOf .steps) = (List.range settled).reverse
  orderly : plan.Orderly log
  early : log.filterMap (attemptOf .finallySteps) = []

structure Working (plan : StepPlan) (index : Nat) (log : List RunEvent) : Prop
    extends Worked plan index index log where
  quiet : ∀ event ∈ log, plan.stops event = false
  exited : plan.Exited .steps index log

theorem Worked.cons {event : RunEvent} (worked : Worked plan count settled log)
    (start : startOf .steps event = none)
    (settlement : settlementOf .steps event = none)
    (attempt : attemptOf .finallySteps event = none) :
    Worked plan count settled (event :: log) where
  started := by simpa [start] using worked.started
  settled := by simpa [settlement] using worked.settled
  orderly := ⟨worked.orderly, by simp [start]⟩
  early := by simpa [attempt] using worked.early

theorem Worked.seen {aware : Bool} (worked : Worked plan count settled log)
    (seen : Seen aware log later) : Worked plan count settled later := by
  obtain ⟨times, rfl, -⟩ := seen
  induction times with
  | zero => exact worked
  | succ times induction => exact induction.cons rfl rfl rfl

theorem Worked.settle (worked : Worked plan count index log) :
    Worked plan count (index + 1) (.settled .steps index :: log) where
  __ := worked
  settled := by simp [settlementOf, worked.settled, range_succ]
  orderly := ⟨worked.orderly, nofun⟩

theorem Working.start (working : Working plan index log) : Worked plan
    (index + 1) index (.started .steps index :: .attempted .steps index :: log)
    where
  started := by
    have attempted :
        Worked plan index index (.attempted .steps index :: log) :=
      working.toWorked.cons rfl rfl rfl
    rw [filterMap_cons, attempted.started, range_succ, reverse_append]
    rfl
  __ := working
  orderly := by
    refine ⟨⟨working.orderly, nofun⟩, fun _ past member => ?_⟩
    rcases mem_cons.mp member with rfl | member
    · rfl
    · exact working.quiet past member

theorem Working.thrown {aware : Bool} (working : Working plan index log)
    (thrown : Thrown aware .steps index log later) :
    Worked plan index index later ∨
    Worked plan (index + 1) (index + 1) later := by
  rcases thrown with seen | ⟨running, started, seen⟩
  · exact .inl ((working.toWorked.cons rfl rfl rfl).seen seen)
  · exact .inr ((working.start.seen started).settle.seen seen)

theorem StepPlan.Exited.mono {phase : Phase}
    (exited : plan.Exited phase index log)
    (kept : ∀ event ∈ log, event ∈ later) : plan.Exited phase index later :=
  fun earlier before step found required =>
    kept _ (exited earlier before step found required)

theorem StepPlan.Exited.next {phase : Phase}
    (exited : plan.Exited phase index log)
    (listed : (plan.phase phase)[index]? = some step)
    (allowed : step.refuses result = false) : plan.Exited phase (index + 1)
    (.ended phase index (some result) :: log) := by
  intro earlier before other found required
  rcases Nat.lt_succ_iff_lt_or_eq.mp before with before | rfl
  · exact mem_cons_of_mem _ (exited earlier before other found required)
  · cases found.symm.trans listed
    obtain ⟨code, timedOut⟩ := result
    simp_all [PlanStep.refuses]

theorem Working.next (working : Working plan index log)
    (listed : plan.steps[index]? = some step)
    (allowed : step.refuses result = false) : Working plan (index + 1)
    (.ended .steps index (some result) :: finished .steps index log) where
  toWorked := working.start.settle.cons rfl rfl rfl
  quiet := by
    simp only [finished, forall_mem_cons]
    exact ⟨by simp [StepPlan.stops, listed, allowed], rfl, rfl, rfl,
      working.quiet⟩
  exited := by
    have kept : plan.Exited .steps index (finished .steps index log) :=
      working.exited.mono fun event member => by simp [finished, member]
    exact kept.next listed allowed

theorem ensures_logged {α : Type} {Fact : List RunEvent → Prop}
    {process : Runner α} {After : α → Session → Prop}
    {Failed : StepError → Session → Prop} (each : ∀ log, Fact log →
      Ensures (Logged resources (· = log)) process After Failed) :
    Ensures (Logged resources Fact) process After Failed :=
  fun shared before => each _ before.2 shared ⟨before.1, rfl⟩

theorem drop_cons {all steps : List PlanStep}
    (rest : all.drop index = step :: steps) : all[index]? = some step ∧
    all.drop (index + 1) = steps ∧ index < all.length := by
  have listed : all[index]? = some step := by
    rw [← head?_drop, rest]
    rfl
  refine ⟨listed, ?_, (List.getElem?_eq_some_iff.mp listed).1⟩
  rw [← drop_drop, rest]
  rfl

/-- Some main steps were started, and each of them has settled. -/
def Stopped (plan : StepPlan) (log : List RunEvent) : Prop :=
  ∃ count ≤ plan.steps.length, Worked plan count count log

theorem runSteps_ensures {steps : List PlanStep}
    (rest : plan.steps.drop index = steps)
    (within : index ≤ plan.steps.length) : Ensures
    (Logged resources (Working plan index)) (runSteps world index steps)
    (fun _ => Logged resources (Working plan plan.steps.length))
    (fun _ => Logged resources (Stopped plan)) := by
  induction steps generalizing index with
  | nil =>
    apply ensures_pure
    rw [drop_eq_nil_iff] at rest
    rw [Nat.le_antisymm rest within]
    exact fun _ => id
  | cons step steps induction =>
    obtain ⟨listed, next, inside⟩ := drop_cons rest
    rw [runSteps]
    apply ensures_logged
    intro log working
    have stopped : ∀ {later}, Worked plan index index later ∨
        Worked plan (index + 1) (index + 1) later → Stopped plan later :=
      fun worked => worked.elim (⟨_, within, ·⟩) (⟨_, inside, ·⟩)
    refine ensures_throwIfCancelled (ensures_require (fun _ => ?_)
      fun _ session logged =>
        ⟨logged.1, logged.2 ▸ stopped (.inl working.toWorked)⟩)
      fun _ _ _ seen => ⟨seen.1, stopped (.inl (working.seen seen.2))⟩
    refine ensures_bind ((recorded_ensures runStep_ensures).weaken
      (fun _ => id) (fun _ _ done => done.1) ?_) fun result => ?_
    · rintro _ session ⟨⟨same, earlier, logged, thrown⟩, -⟩
      refine ⟨same, logged ▸ stopped ((working.thrown thrown).imp ?_ ?_)⟩
      all_goals exact fun worked => worked.cons rfl rfl rfl
    · refine ensures_require (fun allowed => ?_) fun _ session logged => ?_
      · refine (induction next inside).weaken ?_ (fun _ _ => id) fun _ _ => id
        rintro session ⟨same, _, logged, rfl⟩
        rw [Bool.not_eq_true'] at allowed
        exact ⟨same, logged ▸ working.next listed allowed⟩
      · obtain ⟨same, _, logged, rfl⟩ := logged
        exact ⟨same, logged ▸ stopped
          (.inr (working.start.settle.cons rfl rfl rfl))⟩

theorem ensureResources_ensures {done : Bool} : Ensures (Logged none (· = log))
    (ensureResources done)
    (fun _ session => Logged (some true) (· = log) session ∧ done = true)
    (fun _ session => Logged (some false) (· = log) session ∧ done = false) :=
    by
  apply ensures_perform
  all_goals
    rintro ⟨requested, resources, log⟩ value after ⟨rfl, rfl⟩ found
    cases done <;> cases found
    exact ⟨⟨rfl, rfl⟩, rfl⟩

/-- How the main phase ends. -/
structure Phased (recover : Bool) (plan : StepPlan) (world : JobWorld)
    (mainError : Bool) (resources : Option Bool) (log : List RunEvent) :
    Prop where
  stopped : Stopped plan log
  resources : resources.isSome = (recover || world.gate.isOk)
  quiet : mainError = false → .observed ∉ log
  exited : mainError = false → recover = false →
    plan.Exited .steps plan.steps.length log

theorem working_nil : Working plan 0 [] :=
  ⟨⟨rfl, rfl, trivial, rfl⟩, nofun, nofun⟩

theorem runMain_ensures {recover : Bool} : Ensures (Logged none (· = []))
    (runMain recover plan world) (fun _ session => Phased recover plan world
    false session.resources session.log) (fun _ session => Phased recover plan
    world true session.resources session.log) := by
  have unworked : Stopped plan [] := ⟨0, Nat.zero_le _, working_nil.toWorked⟩
  cases recover with
  | true =>
    refine ensureResources_ensures.weaken (fun _ => id) ?_ ?_
    all_goals
      rintro _ session ⟨⟨same, logged⟩, -⟩
      refine ⟨logged ▸ unworked, by rw [same]; rfl, ?_, nofun⟩
      simp [logged]
  | false =>
    unfold runMain
    cases gate : world.gate with
    | error error =>
      rintro ⟨⟨requested, resources, log⟩, turns⟩ ⟨rfl, rfl⟩
      have waiting : Phased false plan world true none [] :=
        ⟨unworked, by rw [gate]; rfl, nofun, nofun⟩
      cases error with
      | jobCancelled =>
        obtain ⟨count, within, worked⟩ := waiting.stopped
        exact ⟨⟨count, within, worked.cons rfl rfl rfl⟩,
          waiting.resources, nofun, nofun⟩
      | other => exact waiting
    | ok =>
      change Ensures _ (ensureResources world.materialized >>= fun _ =>
        runSteps world 0 plan.steps) _ _
      have steps : Ensures (Logged (some true) (Working plan 0))
          (runSteps world 0 plan.steps)
          (fun _ => Logged (some true) (Working plan plan.steps.length))
          (fun _ => Logged (some true) (Stopped plan)) :=
        runSteps_ensures rfl (Nat.zero_le _)
      refine ensures_seq (ensureResources_ensures.weaken (fun _ => id)
        (fun _ _ done => done.1) ?_) fun _ => steps.weaken ?_ ?_ ?_
      · rintro _ session ⟨⟨same, logged⟩, -⟩
        exact ⟨logged ▸ unworked, by rw [same, gate]; rfl, nofun, nofun⟩
      · exact fun session logged => ⟨logged.1, logged.2 ▸ working_nil⟩
      · rintro _ session ⟨same, working⟩
        refine ⟨⟨_, Nat.le_refl _, working.toWorked⟩,
          by rw [same, gate]; rfl, fun _ member => ?_,
          fun _ _ => working.exited⟩
        cases working.quiet _ member
      · rintro _ session ⟨same, stopped⟩
        exact ⟨stopped, by rw [same, gate]; rfl, nofun, nofun⟩

/-- No call throws, but those of the last step may once it is attempted. -/
def JobWorld.lasts (world : JobWorld) : Nat → List PlanStep → Bool
  | _, [] => true
  | index, _ :: steps =>
    (world.step .finallySteps index).statusWritten &&
      (steps.isEmpty || (world.step .finallySteps index).settles) &&
        world.lasts (index + 1) steps

/-- The finally steps up to an index were attempted, after the log `earlier`. -/
def Cleaning (earlier : List RunEvent) (index : Nat) (log : List RunEvent) :
    Prop :=
  ∃ later, log = later ++ earlier ∧
    later.filterMap (startOf .steps) = [] ∧
    later.filterMap (attemptOf .finallySteps) = (List.range index).reverse

def Clean (plan : StepPlan) (earlier : List RunEvent) (index : Nat)
    (log : List RunEvent) : Prop :=
  plan.Exited .finallySteps index log ∧ (.observed ∉ earlier → .observed ∉ log)

theorem Cleaning.cons {event : RunEvent}
    (cleaning : Cleaning earlier index log)
    (start : startOf .steps event = none)
    (attempt : attemptOf .finallySteps event = none) :
    Cleaning earlier index (event :: log) := by
  obtain ⟨later, rfl, starts, attempts⟩ := cleaning
  exact ⟨event :: later, rfl, by simp [start, starts],
    by simp [attempt, attempts]⟩

theorem Cleaning.seen {aware : Bool} (cleaning : Cleaning earlier index log)
    (seen : Seen aware log later) : Cleaning earlier index later := by
  obtain ⟨times, rfl, -⟩ := seen
  induction times with
  | zero => exact cleaning
  | succ times induction => exact induction.cons rfl rfl

theorem Cleaning.attempt (cleaning : Cleaning earlier index log) :
    Cleaning earlier (index + 1) (.attempted .finallySteps index :: log) := by
  obtain ⟨later, rfl, starts, attempts⟩ := cleaning
  refine ⟨.attempted .finallySteps index :: later, rfl, starts, ?_⟩
  simp [attemptOf, attempts, range_succ]

theorem Cleaning.finished (cleaning : Cleaning earlier index log) :
    Cleaning earlier (index + 1) (finished .finallySteps index log) :=
  (cleaning.attempt.cons rfl rfl).cons rfl rfl

theorem Cleaning.thrown {aware : Bool} (cleaning : Cleaning earlier index log)
    (thrown : Thrown aware .finallySteps index log later) :
    Cleaning earlier (index + 1) later := by
  rcases thrown with seen | ⟨running, started, seen⟩
  · exact cleaning.attempt.seen seen
  · exact (((cleaning.attempt.cons rfl rfl).seen started).cons rfl rfl).seen
      seen

theorem runFinallySteps_ensures {steps : List PlanStep} {failed : Bool}
    (rest : plan.finallySteps.drop index = steps)
    (within : index ≤ plan.finallySteps.length) : Ensures (Logged resources fun
    log => Cleaning earlier index log ∧ (failed = false → Clean plan earlier
    index log)) (runFinallySteps world failed index steps) (fun failed =>
    Logged resources fun log => Cleaning earlier plan.finallySteps.length log ∧
    (failed = false → Clean plan earlier plan.finallySteps.length log) ∧
    world.lasts index steps = true) (fun _ => Logged resources fun log => ∃
    count, Cleaning earlier count log ∧ (count = plan.finallySteps.length ↔
    world.lasts index steps = true)) := by
  induction steps generalizing index failed with
  | nil =>
    apply ensures_pure
    rw [drop_eq_nil_iff] at rest
    rw [Nat.le_antisymm rest within]
    exact fun _ logged => ⟨logged.1, logged.2.1, logged.2.2, rfl⟩
  | cons step steps induction =>
    obtain ⟨listed, next, inside⟩ := drop_cons rest
    rw [runFinallySteps]
    apply ensures_logged
    rintro log ⟨cleaning, exited⟩
    refine ensures_require (fun written => ?_)
      fun unwritten session logged => ?_
    · refine ensures_bind ((recorded_ensures runStep_ensures).weaken
        (fun _ => id) (fun _ _ => id) ?_) fun result => ?_
      · rintro _ session ⟨⟨same, before, logged, thrown⟩, unsettled⟩
        have attempted : Cleaning earlier (index + 1)
            (.ended .finallySteps index none :: before) :=
          (cleaning.thrown thrown).cons rfl rfl
        refine ⟨same, index + 1, logged ▸ attempted, ?_⟩
        rw [JobWorld.lasts, written, unsettled rfl]
        cases steps with
        | nil =>
          have last := drop_eq_nil_iff.mp next
          exact iff_of_true (Nat.le_antisymm inside last) rfl
        | cons other steps => simp [(drop_cons next).2.2.ne]
      · apply ensures_of_fact (fun _ done => done.2 rfl)
        intro settles
        have same : world.lasts index (step :: steps) =
            world.lasts (index + 1) steps := by
          simp [JobWorld.lasts, written, settles]
        rw [same]
        refine (induction next inside).weaken ?_ (fun _ _ => id) fun _ _ => id
        rintro session ⟨⟨same, _, logged, rfl⟩, -⟩
        rw [Logged, logged]
        refine ⟨same, cleaning.finished.cons rfl rfl, fun clean => ?_⟩
        rw [Bool.or_eq_false_iff] at clean
        obtain ⟨exited, quiet⟩ := exited clean.1
        refine ⟨?_, fun calm => by simpa [finished] using quiet calm⟩
        exact (exited.mono fun event member => by
          simp [finished, member]).next listed clean.2
    · refine ⟨logged.1, index, logged.2 ▸ cleaning, ?_⟩
      simp [JobWorld.lasts, unwritten, inside.ne]

/-- How many finally steps were attempted. -/
def Cleaned (plan : StepPlan) (earlier : List RunEvent) (complete : Bool)
    (log : List RunEvent) : Prop :=
  ∃ count, Cleaning earlier count log ∧
    (count = plan.finallySteps.length ↔ complete = true)

theorem cleaning_refl : Cleaning log 0 log := ⟨[], rfl, rfl, rfl⟩

theorem cleaned_refl {complete : Bool}
    (absent : complete = plan.finallySteps.isEmpty) :
    Cleaned plan log complete log := by
  refine ⟨0, cleaning_refl, ?_⟩
  rw [absent, eq_comm, length_eq_zero_iff, List.isEmpty_iff]

def completes (plan : StepPlan) (world : JobWorld) (available : Bool) : Bool :=
  plan.finallySteps.isEmpty || available && world.lasts 0 plan.finallySteps

theorem runFinally_ensures :
    Ensures (Logged resources (· = log)) (runFinally plan world)
      (fun failed session => Cleaned plan log (completes plan world
        (resources.isSome || world.materialized)) session.log ∧
        (failed = false → Clean plan log plan.finallySteps.length session.log))
      (fun _ session => Cleaned plan log (completes plan world
        (resources.isSome || world.materialized)) session.log) := by
  have last : ∀ {other available}, completes plan world available =
      world.lasts 0 plan.finallySteps → Ensures (Logged other (· = log))
        (runFinallySteps world false 0 plan.finallySteps)
        (fun failed session => Cleaned plan log
          (completes plan world available) session.log ∧
          (failed = false →
            Clean plan log plan.finallySteps.length session.log))
        (fun _ session => Cleaned plan log
          (completes plan world available) session.log) := by
    intro other available complete
    have steps := @runFinallySteps_ensures plan world 0 log other
      plan.finallySteps false rfl (Nat.zero_le _)
    refine steps.weaken ?_ ?_ ?_
    · rintro session ⟨same, rfl⟩
      exact ⟨same, cleaning_refl, fun _ => ⟨fun _ before => absurd before
        (Nat.not_lt_zero _), id⟩⟩
    · rintro failed session ⟨-, cleaning, exited, lasts⟩
      exact ⟨⟨_, cleaning, iff_of_true rfl (complete.trans lasts)⟩, exited⟩
    · rintro _ session ⟨-, count, cleaning, all⟩
      exact ⟨count, cleaning, complete ▸ all⟩
  have available :
      completes plan world true = world.lasts 0 plan.finallySteps := by
    unfold completes
    cases plan.finallySteps <;> rfl
  unfold runFinally
  apply ensures_observed
  intro attempted
  have same : ∀ session, Logged resources (· = log) session ∧
      session.resources.isSome = attempted → resources.isSome = attempted :=
    fun session found => found.1.1 ▸ found.2
  refine ensures_of_fact same ?_
  rintro rfl
  cases resources with
  | some done =>
    rw [Option.isSome_some, Bool.not_true, Bool.and_false]
    exact (last available).weaken (fun _ => And.left) (fun _ _ => id)
      fun _ _ => id
  | none =>
    cases empty : plan.finallySteps.isEmpty with
    | true =>
      refine (last ?_).weaken (fun _ => And.left) (fun _ _ => id) fun _ _ => id
      rw [← available, completes, completes, empty]
      rfl
    | false =>
      refine ensures_bind (ensureResources_ensures.weaken
        (fun _ => And.left) (fun _ _ => id) ?_) fun _ =>
          ensures_of_fact (fun _ => And.right) fun done => ?_
      · rintro _ session ⟨⟨-, logged⟩, unavailable⟩
        rw [logged, unavailable]
        exact cleaned_refl (by rw [completes, empty]; rfl)
      · rw [done]
        exact (last available).weaken (fun _ => And.left) (fun _ _ => id)
          fun _ _ => id

theorem orderly_append (orderly : plan.Orderly earlier)
    (quiet : later.filterMap (startOf .steps) = []) :
    plan.Orderly (later ++ earlier) := by
  induction later with
  | nil => exact orderly
  | cons event later induction =>
    rw [filterMap_eq_nil_iff] at quiet
    refine ⟨induction ?_, ?_⟩
    · exact filterMap_eq_nil_iff.mpr fun other member =>
        quiet other (mem_cons_of_mem _ member)
    · rw [quiet event mem_cons_self]
      nofun

theorem sequenced_iff_of_cleaning {state : Option JobState}
    (stopped : Stopped plan earlier) (cleaning : Cleaning earlier count log)
    (succeeded : state = some .succeeded → .observed ∉ log ∧ ∀ phase,
      plan.Exited phase (plan.phase phase).length log) :
    Sequenced plan (state, log) ↔ count = plan.finallySteps.length := by
  obtain ⟨main, within, worked⟩ := stopped
  obtain ⟨later, rfl, starts, attempts⟩ := cleaning
  constructor
  · intro sequenced
    obtain ⟨late, early, same, -, first, -, all⟩ := sequenced.finally'
    have listed := congrArg (List.filterMap (attemptOf .finallySteps)) same
    rw [filterMap_append, filterMap_append, attempts, first, all,
      worked.early, append_nil, append_nil] at listed
    simpa using congrArg List.length listed
  · rintro rfl
    refine ⟨⟨main, within, ?_⟩, orderly_append worked.orderly starts,
      ⟨later, earlier, rfl, starts, worked.early,
        worked.settled.trans worked.started.symm, attempts⟩, succeeded⟩
    rw [filterMap_append, starts]
    exact worked.started

theorem finalStatus_succeeded {recover : Bool} {main : Except StepError Unit}
    {cleanup : Except StepError Bool} {marker : Option Bool}
    (succeeded : finalStatus recover main cleanup marker = .succeeded) :
    recover = false ∧ marker = some false ∧ main = .ok () ∧
    cleanup = .ok false := by
  rcases recover with _ | _ <;> rcases marker with _ | _ | _ <;>
    rcases main with (_ | _) | _ <;> rcases cleanup with _ | _ | _ <;>
      first | exact ⟨rfl, rfl, rfl, rfl⟩ | cases succeeded

/-- Every finally step is attempted. -/
def JobWorld.cleansUp (recover : Bool) (plan : StepPlan) (world : JobWorld) :
    Bool :=
  plan.finallySteps.isEmpty || world.announced && world.cleaningWritten &&
    (recover || world.gate.isOk || world.materialized) &&
      world.lasts 0 plan.finallySteps

theorem main_ensures {recover : Bool} : Ensures (Logged none (· = []))
    (main recover plan world)
    (fun state session => Sequenced plan (some state, session.log) ↔
      world.cleansUp recover plan = true)
    (fun _ session => Sequenced plan (none, session.log) ↔
      world.cleansUp recover plan = true) :=
    by
  have incomplete : ∀ {log}, Stopped plan log →
      world.cleansUp recover plan = plan.finallySteps.isEmpty →
      (Sequenced plan (none, log) ↔ world.cleansUp recover plan = true) := by
    intro log stopped absent
    obtain ⟨count, cleaning, all⟩ : Cleaned plan log _ log :=
      cleaned_refl absent
    refine (sequenced_iff_of_cleaning stopped cleaning ?_).trans all
    intro succeeded
    cases succeeded
  refine ensures_require (fun announced => ?_) fun failed session logged =>
    incomplete (logged.2 ▸ ⟨0, Nat.zero_le _, working_nil.toWorked⟩)
      (by simp [JobWorld.cleansUp, failed])
  refine ensures_outcome (fun outcome session =>
    Phased recover plan world (!outcome.isOk) session.resources
      session.log) runMain_ensures fun mainOutcome => ?_
  refine ensures_require (fun cleaned => ?_) fun failed session phased =>
    incomplete phased.stopped (by simp [JobWorld.cleansUp, failed])
  suffices ∀ resources log,
      Phased recover plan world (!mainOutcome.isOk) resources log →
        Ensures (Logged resources (· = log))
          (attempt (runFinally plan world) >>= fun cleanupOutcome =>
            readMarker world.finalMarker >>= fun _ =>
            pure (finalStatus recover mainOutcome cleanupOutcome
              world.finalMarker))
          (fun state session => Sequenced plan (some state, session.log) ↔
            world.cleansUp recover plan = true)
          (fun _ session => Sequenced plan (none, session.log) ↔
            world.cleansUp recover plan = true) from
    fun shared phased => this _ _ phased shared ⟨rfl, rfl⟩
  intro resources log phased
  have available : world.cleansUp recover plan =
      completes plan world (resources.isSome || world.materialized) := by
    rw [JobWorld.cleansUp, announced, cleaned, phased.resources, completes]
    rfl
  rw [available]
  refine ensures_outcome (fun outcome session =>
    Cleaned plan log (completes plan world
      (resources.isSome || world.materialized)) session.log ∧
      (outcome = .ok false → Clean plan log plan.finallySteps.length
        session.log)) (runFinally_ensures.weaken (fun _ => id) ?_ ?_)
    fun cleanupOutcome => ?_
  · exact fun failed session done =>
      ⟨done.1, fun clean => done.2 (Except.ok.inj clean)⟩
  · exact fun _ session attempted => ⟨attempted, fun clean => by cases clean⟩
  unfold readMarker
  split
  case isTrue found =>
    refine ensures_after (fun session => Cleaned plan log (completes plan world
      (resources.isSome || world.materialized)) session.log) ?_
      (ensures_pure ?_)
    · rintro session ⟨⟨count, cleaning, all⟩, -⟩
      exact ⟨count, cleaning.cons rfl rfl, all⟩
    · rintro session ⟨count, cleaning, all⟩
      refine (sequenced_iff_of_cleaning phased.stopped cleaning ?_).trans all
      intro succeeded
      cases found.symm.trans
        (finalStatus_succeeded (Option.some.inj succeeded)).2.1
  case isFalse =>
    apply ensures_pure
    rintro session ⟨⟨count, cleaning, all⟩, clean⟩
    refine (sequenced_iff_of_cleaning phased.stopped cleaning ?_).trans all
    intro succeeded
    obtain ⟨started, -, rfl, done⟩ :=
      finalStatus_succeeded (Option.some.inj succeeded)
    obtain ⟨exited, quiet⟩ := clean done
    refine ⟨quiet (phased.quiet rfl), fun phase => ?_⟩
    cases phase with
    | steps =>
      obtain ⟨later, same, -⟩ := cleaning
      exact (phased.exited rfl started).mono fun event member => by
        simp [same, member]
    | finallySteps => exact exited

namespace Runner

end Runner

end MachineBridge.Jobs
