import MachineBridge.Daemon.RuntimeAlarm
import MachineBridge.Foundation.Run
import Mathlib.Order.MinMax

/-!
# Runs of the runtime alarm

Invocations overlap between the read of the stored alarm and the write.  An
operation of the storage takes effect when it is issued; the invocation goes on
in a later step.  The registries change at any time, and a change which brings
an earlier deadline owes a call of `scheduleRuntimeAlarm`.
-/

namespace MachineBridge.Daemon

open Foundation List

inductive RegistryChange where
  | registerCall (id : CallId) (channel : DaemonChannel)
      (daemonInstanceId : String) (timeoutMs : Int)
  | settleCall (id : CallId)
  | rebindInstance (daemonInstanceId : String) (channel : DaemonChannel)
  | beginCandidate (id : SocketId) (connectionId : Nat)
  | beginProbe (id : SocketId) (probeId connectionId : Nat)
      (daemonInstanceId : String)
  | promote (id : SocketId)
  | touch (id : SocketId)
  | closeSocket (id : SocketId)
  | cleanupDaemonSocket (id : SocketId)
  | invalidateDaemonSocket (id : SocketId)
  | beginHttpCandidate (session : SessionId)
      (daemonInstanceId : Option String)
  | activateHttp (session : SessionId)
  | verifyHttpReady (session : SessionId)
  | touchHttp (session : SessionId)
  | invalidateHttpChannel (session : SessionId)

def RegistryChange.apply (registry : DaemonRegistry) (now : Int) :
    RegistryChange → DaemonRegistry
  | .registerCall id channel daemonInstanceId timeoutMs =>
    registry.registerCall id channel daemonInstanceId timeoutMs now
  | .settleCall id => registry.settleCall id
  | .rebindInstance daemonInstanceId channel =>
    registry.rebindInstance daemonInstanceId channel now
  | .beginCandidate id connectionId =>
    registry.beginCandidate id connectionId now
  | .beginProbe id probeId connectionId daemonInstanceId =>
    registry.beginProbe id probeId connectionId daemonInstanceId now
  | .promote id => (registry.promote id now).1
  | .touch id => (registry.touch id now).1
  | .closeSocket id => registry.closeSocket id
  | .cleanupDaemonSocket id => registry.cleanupDaemonSocket id now
  | .invalidateDaemonSocket id => registry.invalidateDaemonSocket id now
  | .beginHttpCandidate session daemonInstanceId =>
    registry.beginHttpCandidate session daemonInstanceId now
  | .activateHttp session => registry.activateHttp session now
  | .verifyHttpReady session => registry.verifyHttpReady session now
  | .touchHttp session => registry.touchHttp session now
  | .invalidateHttpChannel session =>
    registry.invalidateHttpChannel session now

inductive AlarmInvocationKind where
  /-- `scheduleRuntimeAlarm` -/
  | schedule
  /-- `processRuntimeAlarm` -/
  | process
deriving DecidableEq

/-- An invocation after its sweep. -/
structure AlarmInvocation where
  kind : AlarmInvocationKind
  now : Int
  nextDeadline : Option Int
  /-- The alarm which it read. -/
  current : Option Int
  /-- The deadlines which existed when it took its minimum. -/
  seen : List Int
  /-- It has issued its write and waits for it. -/
  waiting : Bool := false

structure AlarmWorker where
  registry : DaemonRegistry := {}
  clock : Int
  alarm : Option Int
  invocations : Record Nat AlarmInvocation := .empty
  nextInvocation : Nat := 0
  /-- A deadline appeared, and scheduling has not been called since. -/
  owed : Bool := false
  /-- The latest clock reading of an invocation. -/
  used : Int
  /-- An alarm was deleted while a deadline existed. -/
  lost : Bool := false

inductive AlarmEvent where
  | advance (elapsed : Nat)
  | change (change : RegistryChange)
  | schedule
  /-- The stored alarm goes off when it is due. -/
  | process
  /-- An invocation goes on after its read of the stored alarm. -/
  | act (invocation : Nat)
  /-- The write of an invocation is done. -/
  | finish (invocation : Nat)

/-- A deadline which lies before every earlier one. -/
def appeared (before after : DaemonRegistry) : Bool :=
  after.deadlines.any fun deadline =>
    !before.deadlines.any fun known => known ≤ deadline

namespace AlarmWorker

def start (clock : Int) (alarm : Option Int) : AlarmWorker :=
  { clock, alarm, used := clock }

section

variable (worker : AlarmWorker)

def begin (invocation : AlarmInvocation) : AlarmWorker :=
  { worker with
    invocations := worker.invocations.set worker.nextInvocation invocation
    nextInvocation := worker.nextInvocation + 1
    used := max worker.used invocation.now }

def scheduleRuntimeAlarm : AlarmWorker :=
  let sweep := scheduleSweep worker.clock worker.registry
  begin { worker with registry := sweep.registry, owed := false } {
    kind := .schedule
    now := worker.clock
    nextDeadline := sweep.nextDeadline
    current := worker.alarm
    seen := sweep.registry.daemonDeadlines }

def processRuntimeAlarm : AlarmWorker :=
  let sweep := processSweep worker.clock worker.registry
  let alarm := worker.alarm.filter fun time => worker.clock < time
  begin { worker with registry := sweep.registry, alarm } {
    kind := .process
    now := worker.clock
    nextDeadline := sweep.nextDeadline
    current := alarm
    seen := sweep.registry.deadlines }

/-- The minimum with which an invocation decides. -/
def finalDeadline (invocation : AlarmInvocation) : Option Int :=
  match invocation.kind with
  | .schedule => earlier invocation.nextDeadline
      (pendingAlarmDeadline invocation.now worker.clock worker.registry)
  | .process => invocation.nextDeadline

/-- The latest clock reading once an invocation has decided. -/
def usedAt (invocation : AlarmInvocation) : Int :=
  match invocation.kind with
  | .schedule => max worker.used worker.clock
  | .process => worker.used

def act (id : Nat) (invocation : AlarmInvocation) : AlarmWorker :=
  let read := { worker with used := worker.usedAt invocation }
  match writeEarliestRuntimeAlarm invocation.now
      (worker.finalDeadline invocation) invocation.current with
  | .noop => { read with invocations := read.invocations.delete id }
  | .delete =>
    { read with
      alarm := none
      invocations := read.invocations.set id
        { invocation with waiting := true }
      lost := read.lost || !read.registry.deadlines.isEmpty }
  | .set target =>
    { read with
      alarm := some target
      invocations := read.invocations.set id
        { invocation with waiting := true } }

def step : AlarmEvent → AlarmWorker
  | .advance elapsed => { worker with clock := worker.clock + elapsed }
  | .change change =>
    let registry := change.apply worker.registry worker.clock
    { worker with
      registry
      owed := worker.owed || appeared worker.registry registry }
  | .schedule => worker.scheduleRuntimeAlarm
  | .process => worker.processRuntimeAlarm
  | .act id =>
    match worker.invocations.get? id with
    | none => worker
    | some invocation =>
      if invocation.waiting then worker else worker.act id invocation
  | .finish id =>
    match worker.invocations.get? id with
    | none => worker
    | some invocation =>
      if invocation.waiting then
        { worker with invocations := worker.invocations.delete id }
      else worker

/-- Every deadline is covered by the stored alarm. -/
def Covered : Prop :=
  ∀ deadline ∈ worker.registry.deadlines, ∃ alarm,
    worker.alarm = some alarm ∧ alarm ≤ max worker.used deadline

end

/-- No alarm was deleted while a deadline existed, and when every invocation
has finished the stored alarm covers every deadline. -/
structure KeepsAlarm (worker : AlarmWorker) : Prop where
  kept : worker.lost = false
  covered : worker.invocations.keys = [] → worker.owed = false → worker.Covered

section

variable (worker : AlarmWorker)

/-- The deadlines which an invocation takes into account. -/
def known (invocation : AlarmInvocation) : List Int :=
  match invocation.kind with
  | .schedule => invocation.seen ++ worker.registry.pendingDeadlines
  | .process => invocation.seen

/-- No earlier deadline has appeared since they were collected. -/
def KnowsEarliest (invocation : AlarmInvocation) : Prop :=
  ∀ deadline ∈ worker.registry.deadlines,
    ∃ known ∈ worker.known invocation,
      known ≤ max (worker.usedAt invocation) deadline

/-- A future alarm which covers them has not been deleted or put off since it
was read. -/
def AlarmStands (invocation : AlarmInvocation) : Prop :=
  ∀ current ∈ invocation.current, invocation.now < current →
    worker.known invocation ≠ [] →
    (∀ known ∈ worker.known invocation,
      current ≤ max known (invocation.now + 1)) →
    ∃ alarm ∈ worker.alarm, alarm ≤ current

/-- When one of them had been reached, the clock has moved since. -/
def NothingDue (invocation : AlarmInvocation) : Prop :=
  ∀ known ∈ worker.known invocation, known ≤ invocation.now →
    invocation.now < worker.usedAt invocation

/-- An invocation other than `id` has still to act, or one is owed. -/
def othersToAct (id : Nat) : Bool :=
  worker.owed || worker.invocations.entries.any fun entry =>
    entry.1 != id && !entry.2.waiting

/-- The last invocation to act is up to date, and so is each which deletes the
alarm. -/
def UpToDate (id : Nat) (invocation : AlarmInvocation) : Prop :=
  (worker.othersToAct id = true ∨
    worker.KnowsEarliest invocation ∧ worker.AlarmStands invocation ∧
      worker.NothingDue invocation) ∧
  (worker.known invocation = [] → invocation.current.isSome = true →
    worker.registry.deadlines = [])

def ActsUpToDate : AlarmEvent → Prop
  | .act id => ∀ invocation ∈ worker.invocations.get? id,
      invocation.waiting = false → worker.UpToDate id invocation
  | _ => True

end

instance (worker : AlarmWorker) (invocation : AlarmInvocation) :
    Decidable (worker.KnowsEarliest invocation) :=
  inferInstanceAs (Decidable (∀ deadline ∈ worker.registry.deadlines,
    ∃ known ∈ worker.known invocation,
      known ≤ max (worker.usedAt invocation) deadline))

instance (worker : AlarmWorker) (invocation : AlarmInvocation) :
    Decidable (worker.AlarmStands invocation) :=
  inferInstanceAs (Decidable (∀ current ∈ invocation.current,
    invocation.now < current → worker.known invocation ≠ [] →
    (∀ known ∈ worker.known invocation,
      current ≤ max known (invocation.now + 1)) →
    ∃ alarm ∈ worker.alarm, alarm ≤ current))

instance (worker : AlarmWorker) (invocation : AlarmInvocation) :
    Decidable (worker.NothingDue invocation) :=
  inferInstanceAs (Decidable (∀ known ∈ worker.known invocation,
    known ≤ invocation.now → invocation.now < worker.usedAt invocation))

instance (worker : AlarmWorker) (id : Nat) (invocation : AlarmInvocation) :
    Decidable (worker.UpToDate id invocation) :=
  inferInstanceAs (Decidable ((worker.othersToAct id = true ∨
    worker.KnowsEarliest invocation ∧ worker.AlarmStands invocation ∧
      worker.NothingDue invocation) ∧
    (worker.known invocation = [] → invocation.current.isSome = true →
      worker.registry.deadlines = [])))

instance (worker : AlarmWorker) :
    (event : AlarmEvent) → Decidable (worker.ActsUpToDate event)
  | .act id => inferInstanceAs (Decidable
      (∀ invocation ∈ worker.invocations.get? id,
        invocation.waiting = false → worker.UpToDate id invocation))
  | .advance _ => .isTrue trivial
  | .change _ => .isTrue trivial
  | .schedule => .isTrue trivial
  | .process => .isTrue trivial
  | .finish _ => .isTrue trivial

variable {invocation : AlarmInvocation} {worker : AlarmWorker} {id : Nat}

section

variable (passed : invocation.now ≤ worker.clock)
include passed

theorem finalDeadline_below (counted : ∀ seen ∈ invocation.seen,
      Below invocation.nextDeadline (max seen (invocation.now + 1)))
    {deadline : Int} (member : deadline ∈ worker.known invocation) : Below
    (worker.finalDeadline invocation) (max deadline (invocation.now + 1)) := by
  unfold known finalDeadline at *
  cases kind : invocation.kind with
  | schedule =>
    rw [kind] at member
    rcases mem_append.mp member with seen | pending
    · exact below_earlier_left _ (counted deadline seen)
    · exact below_earlier_right _ (pendingAlarmDeadline_below passed pending)
  | process =>
    rw [kind] at member
    exact counted deadline member

theorem act_covered (earlierReading : invocation.now ≤ worker.used)
    (counted : ∀ seen ∈ invocation.seen,
      Below invocation.nextDeadline (max seen (invocation.now + 1)))
    (earliest : worker.KnowsEarliest invocation)
    (stands : worker.AlarmStands invocation)
    (quiet : worker.NothingDue invocation) :
    (worker.act id invocation).Covered := by
  -- What lies before the known deadlines lies before every deadline.
  have within : ∀ time, (∀ known ∈ worker.known invocation,
        time ≤ max known (invocation.now + 1)) →
      ∀ deadline ∈ worker.registry.deadlines,
      time ≤ max (worker.usedAt invocation) deadline := by
    intro time before deadline member
    obtain ⟨known, listed, order⟩ := earliest deadline member
    have bound := before known listed
    have moved := quiet known listed
    omega
  unfold act writeEarliestRuntimeAlarm
  cases final : worker.finalDeadline invocation with
  | none =>
    intro deadline member
    have same : deadline ∈ worker.registry.deadlines := by
      cases stored : invocation.current <;> simpa [stored] using member
    obtain ⟨known, listed, -⟩ := earliest deadline same
    obtain ⟨value, below, -⟩ := finalDeadline_below passed counted listed
    rw [final] at below
    cases below
  | some first =>
    have target : ∀ known ∈ worker.known invocation,
        max invocation.now first ≤ max known (invocation.now + 1) := by
      intro known listed
      obtain ⟨value, below, order⟩ :=
        finalDeadline_below passed counted listed
      rw [final] at below
      cases below
      omega
    dsimp only
    split
    case h_1 action =>
      split at action
      case isFalse => cases action
      case isTrue keeps =>
        intro deadline member
        obtain ⟨current, read, future, covers⟩ : ∃ current, invocation.current
            = some current ∧ invocation.now < current ∧ current ≤ max
            invocation.now first := by
          cases read : invocation.current with
          | none => simp [read] at keeps
          | some current => simpa [read] using keeps
        obtain ⟨listed, member', -⟩ := earliest deadline member
        have some : worker.known invocation ≠ [] := ne_nil_of_mem member'
        obtain ⟨alarm, stored, order⟩ := stands current read future some
          fun known listed => le_trans covers (target known listed)
        refine ⟨alarm, stored, ?_⟩
        exact le_trans (le_trans order covers)
          (within _ target deadline member)
    case h_2 action => split at action <;> cases action
    case h_3 time action =>
      split at action
      case isTrue => cases action
      case isFalse =>
        cases action
        intro deadline member
        exact ⟨_, rfl, within _ target deadline member⟩

theorem act_lost (counted : ∀ seen ∈ invocation.seen,
      Below invocation.nextDeadline (max seen (invocation.now + 1)))
    (empty : worker.known invocation = [] → invocation.current.isSome = true →
      worker.registry.deadlines = []) (kept : worker.lost = false) :
    (worker.act id invocation).lost = false := by
  unfold act
  split
  case h_1 => exact kept
  case h_3 => exact kept
  case h_2 action =>
    unfold writeEarliestRuntimeAlarm at action
    cases final : worker.finalDeadline invocation with
    | some first =>
      rw [final] at action
      dsimp only at action
      split at action <;> cases action
    | none =>
      rw [final] at action
      have unknown : worker.known invocation = [] := by
        by_contra some
        obtain ⟨deadline, rest, same⟩ := exists_cons_of_ne_nil some
        have member : deadline ∈ worker.known invocation := by simp [same]
        obtain ⟨value, below, -⟩ := finalDeadline_below passed counted member
        rw [final] at below
        cases below
      have read : invocation.current.isSome = true := by
        cases stored : invocation.current with
        | none => simp [stored] at action
        | some => rfl
      simp [kept, empty unknown read]

end

def Reading (worker : AlarmWorker) (id : Nat) (invocation : AlarmInvocation) :
    Prop :=
  worker.invocations.get? id = some invocation ∧ invocation.waiting = false

structure AlarmInvariant (worker : AlarmWorker) : Prop where
  fresh : ∀ id ∈ worker.invocations.keys, id < worker.nextInvocation
  timely : ∀ id invocation, worker.Reading id invocation →
    invocation.now ≤ worker.clock ∧ invocation.now ≤ worker.used
  counted : ∀ id invocation, worker.Reading id invocation →
    ∀ seen ∈ invocation.seen,
      Below invocation.nextDeadline (max seen (invocation.now + 1))
  kept : worker.lost = false
  covered : worker.owed = true ∨
    (∃ id invocation, worker.Reading id invocation) ∨ worker.Covered

theorem AlarmInvariant.keepsAlarm (invariant : worker.AlarmInvariant) :
    worker.KeepsAlarm := by
  constructor
  · exact invariant.kept
  · intro finished called
    rcases invariant.covered with owed | ⟨id, invocation, reading, -⟩ | covered
    · rw [called] at owed
      cases owed
    · have member := Record.mem_keys.mpr
        ⟨invocation, Record.get?_eq_some.mp reading⟩
      simp [finished] at member
    · exact covered

theorem start_invariant (clock : Int) (alarm : Option Int) :
    (start clock alarm).AlarmInvariant := by
  constructor
  · intro id member
    simp [start] at member
  · rintro id invocation ⟨found, -⟩
    simp [start] at found
  · rintro id invocation ⟨found, -⟩
    simp [start] at found
  · rfl
  · refine .inr (.inr ?_)
    intro deadline member
    simp [start, DaemonRegistry.deadlines, DaemonRegistry.daemonDeadlines,
      DaemonRegistry.socketDeadlines, DaemonRegistry.httpDeadlines,
      DaemonRegistry.pendingDeadlines, Record.values] at member

theorem advance_invariant (invariant : worker.AlarmInvariant) (elapsed : Nat) :
    (worker.step (.advance elapsed)).AlarmInvariant := by
  constructor
  · exact invariant.fresh
  · intro id invocation reading
    obtain ⟨clock, used⟩ := invariant.timely id invocation reading
    refine ⟨?_, used⟩
    change invocation.now ≤ worker.clock + elapsed
    omega
  · exact invariant.counted
  · exact invariant.kept
  · exact invariant.covered

theorem covered_of_not_appeared {registry : DaemonRegistry}
    (covered : worker.Covered)
    (quiet : appeared worker.registry registry = false) :
    Covered { worker with registry } := by
  intro deadline member
  have older : ∃ known ∈ worker.registry.deadlines, known ≤ deadline := by
    by_contra none
    have new : appeared worker.registry registry = true := by
      apply any_eq_true.mpr
      refine ⟨deadline, member, ?_⟩
      simpa using none
    rw [quiet] at new
    cases new
  obtain ⟨known, listed, order⟩ := older
  obtain ⟨alarm, stored, bound⟩ := covered known listed
  exact ⟨alarm, stored, le_trans bound (max_le_max le_rfl order)⟩

theorem change_invariant (invariant : worker.AlarmInvariant)
    (change : RegistryChange) :
    (worker.step (.change change)).AlarmInvariant := by
  constructor
  · exact invariant.fresh
  · exact invariant.timely
  · exact invariant.counted
  · exact invariant.kept
  · simp only [step, Bool.or_eq_true]
    cases quiet : appeared worker.registry
        (change.apply worker.registry worker.clock) with
    | true => exact .inl (.inr rfl)
    | false =>
      rcases invariant.covered with owed | reading | covered
      · exact .inl (.inl owed)
      · exact .inr (.inl reading)
      · exact .inr (.inr (covered_of_not_appeared covered quiet))

theorem begin_invariant
    (fresh : ∀ id ∈ worker.invocations.keys, id < worker.nextInvocation)
    (timely : ∀ id invocation, worker.Reading id invocation →
      invocation.now ≤ worker.clock ∧ invocation.now ≤ worker.used)
    (counted : ∀ id invocation, worker.Reading id invocation →
      ∀ seen ∈ invocation.seen,
      Below invocation.nextDeadline (max seen (invocation.now + 1)))
    (kept : worker.lost = false) (reads : invocation.waiting = false)
    (passed : invocation.now ≤ worker.clock)
    (minimal : ∀ seen ∈ invocation.seen,
      Below invocation.nextDeadline (max seen (invocation.now + 1))) :
    (worker.begin invocation).AlarmInvariant := by
  have cases : ∀ {id other}, (worker.begin invocation).Reading id other →
      other = invocation ∨ worker.Reading id other := by
    rintro id other ⟨found, unread⟩
    simp only [begin, Record.get?_set] at found
    split at found
    case isTrue => exact .inl (Option.some.inj found).symm
    case isFalse => exact .inr ⟨found, unread⟩
  constructor
  · intro id member
    simp only [begin, Record.mem_keys_set] at member ⊢
    rcases member with rfl | old
    · exact Nat.lt_succ_self _
    · exact Nat.lt_succ_of_lt (fresh id old)
  · intro id other reading
    rcases cases reading with rfl | old
    · exact ⟨passed, le_max_right _ _⟩
    · obtain ⟨clock, used⟩ := timely id other old
      exact ⟨clock, le_trans used (le_max_left _ _)⟩
  · intro id other reading
    rcases cases reading with rfl | old
    · exact minimal
    · exact counted id other old
  · exact kept
  · refine .inr (.inl ⟨worker.nextInvocation, invocation, ?_, reads⟩)
    simp [begin]

theorem schedule_invariant (invariant : worker.AlarmInvariant) :
    worker.scheduleRuntimeAlarm.AlarmInvariant := by
  have minimal : ∀ seen ∈
      (scheduleSweep worker.clock worker.registry).registry.daemonDeadlines,
      Below (scheduleSweep worker.clock worker.registry).nextDeadline
        (max seen (worker.clock + 1)) := fun seen => scheduleSweep_below
  unfold scheduleRuntimeAlarm
  apply begin_invariant
  · exact invariant.fresh
  · exact invariant.timely
  · exact invariant.counted
  · exact invariant.kept
  · rfl
  · exact le_rfl
  · exact minimal

theorem process_invariant (invariant : worker.AlarmInvariant) :
    worker.processRuntimeAlarm.AlarmInvariant := by
  have minimal : ∀ seen ∈
      (processSweep worker.clock worker.registry).registry.deadlines,
      Below (processSweep worker.clock worker.registry).nextDeadline
        (max seen (worker.clock + 1)) := fun seen => processSweep_below
  unfold processRuntimeAlarm
  generalize processSweep worker.clock worker.registry = sweep at minimal ⊢
  apply begin_invariant
  · exact invariant.fresh
  · exact invariant.timely
  · exact invariant.counted
  · exact invariant.kept
  · rfl
  · exact le_rfl
  · exact minimal

section Act

variable {worker : AlarmWorker} {id : Nat} {invocation : AlarmInvocation}

@[simp] theorem act_clock :
    (worker.act id invocation).clock = worker.clock := by
  unfold act
  split <;> rfl

@[simp] theorem act_used :
    (worker.act id invocation).used = worker.usedAt invocation := by
  unfold act
  split <;> rfl

@[simp] theorem act_owed : (worker.act id invocation).owed = worker.owed := by
  unfold act
  split <;> rfl

@[simp] theorem act_nextInvocation :
    (worker.act id invocation).nextInvocation = worker.nextInvocation := by
  unfold act
  split <;> rfl

theorem act_reading {other : Nat} {found : AlarmInvocation} :
    (worker.act id invocation).Reading other found ↔ other ≠ id ∧
    worker.Reading other found := by
  unfold act Reading
  by_cases same : other = id
  · split <;> simp only [same, Record.get?_delete, Record.get?_set, if_true]
    · simp
    all_goals
      constructor
      · rintro ⟨stored, unread⟩
        rw [← Option.some.inj stored] at unread
        cases unread
      · rintro ⟨differ, -⟩
        exact absurd rfl differ
  · split <;> simp [same]

theorem act_keys {other : Nat} (stored : id ∈ worker.invocations.keys)
    (member : other ∈ (worker.act id invocation).invocations.keys) :
    other ∈ worker.invocations.keys := by
  unfold act at member
  split at member
  · exact (Record.mem_keys_delete.mp member).2
  all_goals
    rcases Record.mem_keys_set.mp member with rfl | old
    · exact stored
    · exact old

end Act

theorem usedAt_ge (worker : AlarmWorker) (invocation : AlarmInvocation) :
    worker.used ≤ worker.usedAt invocation := by
  unfold usedAt
  split
  · exact le_max_left _ _
  · exact le_rfl

theorem act_invariant (invariant : worker.AlarmInvariant)
    (reading : worker.Reading id invocation)
    (current : worker.UpToDate id invocation) :
    (worker.act id invocation).AlarmInvariant := by
  obtain ⟨passed, earlierReading⟩ := invariant.timely id invocation reading
  have counted := invariant.counted id invocation reading
  have stored := Record.mem_keys.mpr
    ⟨invocation, Record.get?_eq_some.mp reading.1⟩
  constructor
  · intro other member
    rw [act_nextInvocation]
    exact invariant.fresh other (act_keys stored member)
  · intro other found still
    obtain ⟨-, before⟩ := act_reading.mp still
    obtain ⟨clock, used⟩ := invariant.timely other found before
    rw [act_clock, act_used]
    exact ⟨clock, le_trans used (usedAt_ge worker invocation)⟩
  · intro other found still
    exact invariant.counted other found (act_reading.mp still).2
  · exact act_lost passed counted current.2 invariant.kept
  · rcases current.1 with others | ⟨earliest, stands, quiet⟩
    · rcases Bool.or_eq_true _ _ |>.mp others with owed | other
      · rw [act_owed]
        exact .inl owed
      · obtain ⟨⟨key, found⟩, listed, apart⟩ := any_eq_true.mp other
        simp only [Bool.and_eq_true, bne_iff_ne, ne_eq,
          Bool.not_eq_true'] at apart
        refine .inr (.inl ⟨key, found, act_reading.mpr ⟨apart.1, ?_, apart.2⟩⟩)
        exact Record.get?_eq_some.mpr listed
    · exact .inr (.inr (act_covered passed earlierReading counted earliest
        stands quiet))

theorem finish_invariant (invariant : worker.AlarmInvariant)
    (found : worker.invocations.get? id = some invocation)
    (waits : invocation.waiting = true) :
    AlarmInvariant
      { worker with invocations := worker.invocations.delete id } := by
  have before : ∀ {other info}, Reading
      { worker with invocations := worker.invocations.delete id } other info →
      worker.Reading other info := by
    rintro other info ⟨stored, unread⟩
    simp only [Record.get?_delete] at stored
    split at stored
    case isTrue => cases stored
    case isFalse => exact ⟨stored, unread⟩
  constructor
  · intro other member
    exact invariant.fresh other (Record.mem_keys_delete.mp member).2
  · intro other info reading
    exact invariant.timely other info (before reading)
  · intro other info reading
    exact invariant.counted other info (before reading)
  · exact invariant.kept
  · rcases invariant.covered with owed | ⟨other, info, reading⟩ | covered
    · exact .inl owed
    · have differ : other ≠ id := by
        rintro rfl
        have same := Option.some.inj (found.symm.trans reading.1)
        rw [same, reading.2] at waits
        cases waits
      refine .inr (.inl ⟨other, info, ?_, reading.2⟩)
      simp [differ, reading.1]
    · exact .inr (.inr covered)

theorem step_invariant (worker : AlarmWorker) (event : AlarmEvent)
    (current : worker.ActsUpToDate event) (invariant : worker.AlarmInvariant) :
    (worker.step event).AlarmInvariant := by
  cases event with
  | advance elapsed => exact advance_invariant invariant elapsed
  | change change => exact change_invariant invariant change
  | schedule => exact schedule_invariant invariant
  | process => exact process_invariant invariant
  | act id =>
    simp only [step]
    cases found : worker.invocations.get? id with
    | none => exact invariant
    | some invocation =>
      dsimp only
      split
      case isTrue => exact invariant
      case isFalse unread =>
        have reads : invocation.waiting = false := by simpa using unread
        exact act_invariant invariant ⟨found, reads⟩
          (current invocation found reads)
  | finish id =>
    simp only [step]
    cases found : worker.invocations.get? id with
    | none => exact invariant
    | some invocation =>
      dsimp only
      split
      case isTrue waits => exact finish_invariant invariant found waits
      case isFalse => exact invariant

/-- In every run whose invocations act up to date no alarm is deleted while a
deadline exists, and at rest the stored alarm covers every deadline. -/
theorem run_keepsAlarm (clock : Int) (alarm : Option Int)
    {events : List AlarmEvent}
    (current : Meets step ActsUpToDate (start clock alarm) events) :
    (run step (start clock alarm) events).KeepsAlarm :=
  (run_induction_of_meets step_invariant (start_invariant clock alarm)
    current).keepsAlarm

/-- A call is registered and settled; a daemon connects between the invocations
which follow. -/
def callThenDaemon : List AlarmEvent :=
  [.change (.registerCall 0 (.socket 0) "daemon" 5000), .schedule, .act 0,
    .finish 0, .change (.settleCall 0), .schedule, .act 1, .finish 1,
    .change (.beginCandidate 1 1), .schedule, .act 2, .finish 2]

theorem callThenDaemon_upToDate :
    Meets step ActsUpToDate (start 0 none) callThenDaemon := by
  decide

theorem callThenDaemon_keepsAlarm :
    (run step (start 0 none) callThenDaemon).KeepsAlarm :=
  run_keepsAlarm 0 none callThenDaemon_upToDate

/-- The same requests, but the invocation for the settled call acts after the
daemon has connected. -/
def daemonBetween : List AlarmEvent :=
  [.change (.registerCall 0 (.socket 0) "daemon" 5000), .schedule, .act 0,
    .finish 0, .change (.settleCall 0), .schedule,
    .change (.beginCandidate 1 1), .schedule, .act 1, .act 2, .finish 1]

theorem daemonBetween_ends :
    let worker := run step (start 0 none) daemonBetween
    worker.invocations.keys = [] ∧ worker.owed = false ∧
      worker.lost = true ∧ worker.alarm = none ∧
      worker.registry.deadlines = [10000] := by
  decide

/-- A deadline may be left without an alarm. -/
theorem run_losesAlarm :
    ¬ ∀ (clock : Int) (alarm : Option Int) (events : List AlarmEvent),
    (run step (start clock alarm) events).KeepsAlarm := by
  intro always
  obtain ⟨finished, called, -, missing, left⟩ := daemonBetween_ends
  have covered := (always 0 none daemonBetween).covered finished called
  obtain ⟨alarm, stored, -⟩ := covered 10000 (by simp [left])
  cases stored

end AlarmWorker

end MachineBridge.Daemon
