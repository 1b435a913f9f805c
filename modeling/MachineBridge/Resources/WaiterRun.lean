import MachineBridge.Resources.CoordinatorPolicy
import MachineBridge.Resources.LeaseRun
import MachineBridge.Resources.WaiterSelection

/-!
# Waiters in a run

A waiter is recorded, known to the call which waits, and read by others.  All of
these agree on when it came and on its priority.  So a waiter which is protected
stays protected while the clock does not go back, and whoever comes later is not
admitted before it.
-/

namespace MachineBridge.Resources

open Foundation List

variable {Host Request Reservation : Type}

/-- The waiter of a task, and the same waiter with the request from which every
attempt starts. -/
def AdmissionTask.mentioned (task : AdmissionTask Host Request) :
    List (Waiter Request) :=
  [task.waiter, { task.waiter with request := task.request }]

def mentionedBy (task : Option (AdmissionTask Host Request)) :
    List (Waiter Request) :=
  task.elim [] AdmissionTask.mentioned

def LeasePhase.mentioned :
    LeasePhase Host Request → List (Waiter Request)
  | .attempting waiter request => [waiter, { waiter with request }]
  | .locking task => mentionedBy task
  | .pruning task _ _ => mentionedBy task
  | .surveying task _ _ waiters => mentionedBy task ++ waiters
  | .dequeuing waiter _ => [waiter]
  | .deferred waiter request _ => [waiter, { waiter with request }]
  | .leaving waiter _ => [waiter]
  | .exited waiter _ => waiter.toList
  | _ => []

theorem LeasePhase.mentioned_waiter {phase : LeasePhase Host Request}
    {waiter : Waiter Request} (owned : phase.waiter? = some waiter) :
    waiter ∈ phase.mentioned := by
  have first : ∀ task : Option (AdmissionTask Host Request),
      task.map AdmissionTask.waiter = some waiter →
      waiter ∈ mentionedBy task := by
    intro task mine
    cases task with
    | none => cases mine
    | some task =>
      cases mine
      exact mem_cons_self
  cases phase with
  | attempting => cases owned; exact mem_cons_self
  | locking task | pruning task => exact first task owned
  | surveying task => exact mem_append_left _ (first task owned)
  | dequeuing | deferred | leaving
  | exited waiter => cases owned; exact mem_cons_self
  | _ => cases owned

namespace LeaseWorld

/-- A waiter is recorded or known to a call. -/
def Mentions (world : LeaseWorld Host Request) (waiter : Waiter Request) :
    Prop :=
  (∃ id, world.waiters.get? id = some waiter) ∨
    ∃ call, waiter ∈ (world.phase call).mentioned

/-- A waiter which occurs was there before. -/
def Descends (policy : AdmissionPolicy Host Request Reservation)
    (world : LeaseWorld Host Request) (waiter : Waiter Request) : Prop :=
  ∃ before, world.Mentions before ∧ SameWaiter policy before waiter

/-- No waiter comes up, and no time passes. -/
structure Carries (policy : AdmissionPolicy Host Request Reservation)
    (world next : LeaseWorld Host Request) : Prop where
  mentions : ∀ waiter, next.Mentions waiter → world.Descends policy waiter
  issued : world.issued ≤ next.issued
  clock : next.clock = world.clock

section Steps

variable {policy : AdmissionPolicy Host Request Reservation}
  {world next : LeaseWorld Host Request} {call : Nat}

variable {waiter guard : Waiter Request} {phase : LeasePhase Host Request}
  {leases : List (Lease Request)} {process marked moment : Nat}

theorem Mentions.descends (mentions : world.Mentions waiter) :
    world.Descends policy waiter :=
  ⟨waiter, mentions, SameWaiter.refl waiter⟩

theorem descends_of_phase (entered : world.phase call = phase)
    (member : waiter ∈ phase.mentioned) : world.Descends policy waiter := by
  apply Mentions.descends
  right
  rw [← entered] at member
  exact ⟨call, member⟩

theorem Carries.refl : Carries policy world world :=
  ⟨fun _ mentions => mentions.descends, Nat.le_refl _, rfl⟩

theorem Carries.same {last : LeaseWorld Host Request}
    (carries : Carries policy world next)
    (waiters : last.waiters = next.waiters) (calls : last.calls = next.calls)
    (issued : next.issued ≤ last.issued) (clock : last.clock = next.clock) :
    Carries policy world last := by
  refine ⟨?_, carries.issued.trans issued, clock.trans carries.clock⟩
  intro waiter mentions
  apply carries.mentions waiter
  unfold Mentions LeaseWorld.phase at mentions
  rw [waiters, calls] at mentions
  exact mentions

theorem Carries.enter (carries : Carries policy world next)
    (known : ∀ waiter ∈ phase.mentioned, world.Descends policy waiter) :
    Carries policy world (next.enter call phase) := by
  refine ⟨?_, carries.issued, carries.clock⟩
  intro waiter mentions
  rcases mentions with recorded | ⟨other, member⟩
  · exact carries.mentions waiter (.inl recorded)
  · by_cases own : other = call
    · rw [own, phase_enter_self] at member
      exact known waiter member
    · apply carries.mentions waiter
      right
      refine ⟨other, ?_⟩
      unfold LeaseWorld.phase LeaseWorld.enter setCall at member
      dsimp only at member
      rw [Function.update_of_ne own] at member
      exact member

theorem Carries.move {before after : LeasePhase Host Request}
    (carries : Carries policy world next) (entered : world.phase call = before)
    (fewer : ∀ waiter ∈ after.mentioned, waiter ∈ before.mentioned) :
    Carries policy world (next.enter call after) := by
  apply carries.enter
  intro waiter member
  exact descends_of_phase entered (fewer waiter member)

theorem Carries.silent (carries : Carries policy world next)
    (silent : phase.mentioned = []) :
    Carries policy world (next.enter call phase) := by
  apply carries.enter
  intro waiter member
  rw [silent] at member
  cases member

theorem Carries.unlock (carries : Carries policy world next) :
    Carries policy world (next.unlock call) :=
  carries.same rfl rfl (Nat.le_refl _) rfl

theorem Carries.finish {ok : Bool} (carries : Carries policy world next) :
    Carries policy world (next.finish call ok) :=
  carries.unlock.silent rfl

theorem Carries.acquireLock
    (known : ∀ waiter ∈ phase.mentioned, world.Descends policy waiter) :
    Carries policy world (world.acquireLock call phase) := by
  unfold LeaseWorld.acquireLock
  split
  case h_1 =>
    have locked : Carries policy world { world with lock := some call } :=
      Carries.refl.same rfl rfl (Nat.le_refl _) rfl
    exact locked.enter known
  case h_2 => exact Carries.refl

theorem Carries.withWaiters {waiters : Record Nat (Waiter Request)}
    (carries : Carries policy world next) (known : ∀ id waiter,
      waiters.get? id = some waiter → world.Descends policy waiter) :
    Carries policy world (next.withWaiters waiters) := by
  refine ⟨?_, carries.issued, carries.clock⟩
  intro waiter mentions
  rcases mentions with ⟨id, recorded⟩ | called
  · exact known id waiter recorded
  · exact carries.mentions waiter (.inr called)

theorem Carries.removeResourceWaiter :
    Carries policy world (world.removeResourceWaiter waiter) := by
  obtain ⟨waiters, same⟩ := world.removeResourceWaiter_eq waiter
  rw [same]
  apply Carries.refl.withWaiters
  intro id stored found
  have kept :
      (world.removeResourceWaiter waiter).waiters.get? id = some stored := by
    rw [same]
    exact found
  exact Mentions.descends (.inl ⟨id, removeResourceWaiter_waiters kept⟩)

theorem fail_carries {cancelled : Bool} :
    Carries policy world (world.fail call cancelled) := by
  unfold LeaseWorld.fail
  split
  case isTrue => exact Carries.refl
  case isFalse =>
    split
    case h_1 => exact Carries.refl.finish
    case h_2 waiter owned =>
      apply Carries.refl.unlock.move rfl
      intro other member
      rw [mem_singleton.mp member]
      exact LeasePhase.mentioned_waiter owned

theorem prune_carries {task : Option (AdmissionTask Host Request)} {id : Nat}
    {rest : List Nat} {kept : List (Nat × Lease Request)}
    (entered : world.phase call = .pruning task (id :: rest) kept) :
    Carries policy world (world.prune call task id rest kept) := by
  unfold prune
  split
  case h_1 => exact fail_carries
  case h_2 lease found =>
    split
    case isTrue =>
      have removed : Carries policy world (world.removeLease lease false) :=
        Carries.refl.same rfl rfl (Nat.le_refl _) rfl
      exact removed.move entered fun _ member => member
    case isFalse => exact Carries.refl.move entered fun _ member => member

theorem fit_carries {task : AdmissionTask Host Request}
    {kept : List (Nat × Lease Request)} (keeps : KeepsPriority policy)
    (entered : world.phase call = .pruning (some task) [] kept) :
    Carries policy world (world.fit call policy task leases) := by
  have asked : world.Descends policy
      { task.waiter with request := task.request } :=
    descends_of_phase entered (mem_cons_of_mem _ mem_cons_self)
  unfold fit
  dsimp only
  split
  case isFalse =>
    apply Carries.refl.move entered
    intro waiter member
    exact member
  case isTrue =>
    generalize chosen : policy.fit task.host leases task.request world.clock
      task.waiter.owner.pid = effective
    have fitted : world.Descends policy
        { task.waiter with request := policy.normalize effective } := by
      obtain ⟨before, mentions, same⟩ := asked
      refine ⟨before, mentions, same.waiterId, same.enqueuedAt, ?_⟩
      rw [keeps.normalize, ← chosen, keeps.fit]
      exact same.priority
    have recorded : Carries policy world (world.withWaiters
        (world.waiters.set task.waiter.waiterId
          { task.waiter with request := policy.normalize effective })) := by
      apply Carries.refl.withWaiters
      intro id waiter found
      rw [Record.get?_set] at found
      split at found
      case isTrue =>
        cases found
        exact fitted
      case isFalse => exact Mentions.descends (.inl ⟨id, found⟩)
    apply recorded.enter
    intro waiter member
    rcases mem_cons.mp member with first | second
    · rw [first]
      exact fitted
    · rw [mem_singleton.mp second]
      exact asked

theorem survey_carries {task : Option (AdmissionTask Host Request)} {id : Nat}
    {rest : List Nat} {waiters : List (Waiter Request)}
    (entered : world.phase call = .surveying task leases (id :: rest) waiters)
    :
    Carries policy world (world.survey call task leases id rest waiters) := by
  unfold survey
  split
  case h_1 => exact Carries.refl.move entered fun _ member => member
  case h_2 waiter found =>
    split
    case isTrue =>
      exact Carries.removeResourceWaiter.move entered fun _ member => member
    case isFalse =>
      apply Carries.refl.enter
      intro other member
      rw [LeasePhase.mentioned, ← append_assoc] at member
      rcases mem_append.mp member with old | new
      · exact descends_of_phase entered old
      · rw [mem_singleton.mp new]
        exact Mentions.descends (.inl ⟨id, found⟩)

theorem admit_carries {task : AdmissionTask Host Request}
    {waiters : List (Waiter Request)}
    (entered : world.phase call = .surveying (some task) leases [] waiters) :
    Carries policy world (world.admitTask call policy task leases waiters) :=
    by
  unfold admitTask
  dsimp only
  split
  case isTrue =>
    have granted : Carries policy world
        (world.recordLease (world.createLease call policy task
          (policy.evaluate task.host leases task.effective world.clock
            task.waiter.owner.pid)) {
          __ := task
          recorded := world.leases.values
          waiters
          request := task.effective
          clock := world.clock }) :=
      Carries.refl.same rfl rfl (Nat.le_add_right _ 2) rfl
    apply granted.move entered
    intro waiter member
    rw [mem_singleton.mp member]
    exact mem_cons_self
  case isFalse =>
    apply Carries.refl.unlock.move entered
    intro waiter member
    exact mem_append_left _ member

theorem bindRead_carries {binding : LeaseBinding}
    {observedStart : Option Nat} :
    Carries policy world (world.bindRead call binding observedStart) := by
  unfold bindRead
  split
  case h_1 => exact Carries.refl.finish
  case h_2 lease found =>
    split
    case isTrue => exact Carries.refl.finish
    case isFalse =>
      split
      case isTrue =>
        split
        case isTrue =>
          have recorded :
              Carries policy world (world.recordBinding binding.leaseId) :=
            Carries.refl.same rfl rfl (Nat.le_refl _) rfl
          exact recorded.finish
        case isFalse => exact Carries.refl.finish
      case isFalse => exact Carries.refl.silent rfl

theorem bindWrite_carries {binding : LeaseBinding} {observedStart : Option Nat}
    {lease : Lease Request} : Carries policy world
    (world.bindWrite call binding observedStart lease) := by
  apply Carries.finish
  exact Carries.refl.same rfl rfl (Nat.le_refl _) rfl

theorem releaseRead_carries {leaseId token : Nat} :
    Carries policy world (world.releaseRead call leaseId token) := by
  unfold releaseRead
  split
  case h_1 => exact Carries.refl.finish
  case h_2 lease found =>
    split
    case isTrue => exact Carries.refl.finish
    case isFalse =>
      split
      case isTrue | isFalse => exact Carries.refl.silent rfl

theorem releaseRemove_carries {leaseId token : Nat}
    {observed : Option (Nat × Option Nat)} : Carries policy world
    (world.releaseRemove call leaseId token observed) := by
  unfold releaseRemove
  split
  case h_1 => exact Carries.refl.finish
  case h_2 lease found =>
    dsimp only
    split
    case isTrue => exact Carries.refl.finish
    case isFalse =>
      split
      case isTrue => exact Carries.refl.finish
      case isFalse =>
        have removed : Carries policy world (world.removeLease lease true) :=
          Carries.refl.same rfl rfl (Nat.le_refl _) rfl
        exact removed.finish

theorem advance_carries {host : Host} {choice : Bool}
    (keeps : KeepsPriority policy) :
    Carries policy world (world.advance call policy host choice) := by
  unfold advance
  split
  case h_1 waiter request phase =>
    exact Carries.refl.move phase fun _ member => member
  case h_2 task phase =>
    apply Carries.acquireLock
    intro waiter member
    exact descends_of_phase phase member
  case h_3 task id rest kept phase => exact prune_carries phase
  case h_4 task kept phase => exact fit_carries keeps phase
  case h_5 kept phase => exact Carries.refl.silent rfl
  case h_6 task leases id rest waiters phase => exact survey_carries phase
  case h_7 task leases waiters phase => exact admit_carries phase
  case h_8 => exact Carries.refl.finish
  case h_9 waiter leaseId phase =>
    exact Carries.removeResourceWaiter.unlock.move phase fun _ member => member
  case h_10 waiter request reason phase =>
    split
    case isTrue => exact Carries.refl.move phase fun _ member => member
    case isFalse =>
      apply Carries.refl.move phase
      intro other member
      rw [mem_singleton.mp member]
      exact mem_cons_self
  case h_11 waiter outcome phase =>
    exact Carries.removeResourceWaiter.move phase fun _ member => member
  case h_12 => exact Carries.refl.silent rfl
  case h_13 =>
    apply Carries.acquireLock
    intro waiter member
    cases member
  case h_14 => exact bindRead_carries
  case h_15 => exact bindWrite_carries
  case h_16 => exact releaseRead_carries
  case h_17 => exact Carries.refl.silent rfl
  case h_18 =>
    apply Carries.acquireLock
    intro waiter member
    cases member
  case h_19 => exact releaseRemove_carries
  all_goals exact Carries.refl

theorem start_carries (silent : phase.mentioned = []) :
    Carries policy world (world.start call process phase) := by
  refine ⟨?_, Nat.le_refl _, rfl⟩
  intro waiter mentions
  rcases mentions with recorded | ⟨other, member⟩
  · exact Mentions.descends (.inl recorded)
  · apply Mentions.descends
    right
    refine ⟨other, ?_⟩
    unfold LeaseWorld.phase start setCall at member
    dsimp only at member
    by_cases own : other = call
    · rw [own, Function.update_self] at member
      rw [silent] at member
      cases member
    · rw [Function.update_of_ne own] at member
      exact member

theorem exit_carries : Carries policy world (world.exit process) := by
  refine ⟨?_, Nat.le_refl _, rfl⟩
  intro waiter mentions
  rcases mentions with recorded | ⟨call, member⟩
  · exact Mentions.descends (.inl recorded)
  · apply Mentions.descends
    right
    refine ⟨call, ?_⟩
    unfold LeaseWorld.phase LeaseWorld.exit at member
    dsimp only at member
    split at member
    case isTrue => cases member
    case isFalse => exact member

/-- The waiter which a request has just got. -/
structure Newcomer (policy : AdmissionPolicy Host Request Reservation)
    (world : LeaseWorld Host Request) (request : Request)
    (waiter : Waiter Request) : Prop where
  waiterId : waiter.waiterId = world.issued
  enqueuedAt : waiter.enqueuedAt = world.clock
  priority : policy.priority waiter.request = policy.priority request

/-- What a step does to the waiters and to the clock. -/
inductive Waits (policy : AdmissionPolicy Host Request Reservation)
    (world : LeaseWorld Host Request) :
    LeaseEvent Host Request → LeaseWorld Host Request → Prop where
  | passes (now : Nat) :
      Waits policy world (.time now) { world with clock := now }
  | carries {event next} (carries : Carries policy world next) :
      Waits policy world event next
  | comes {event next} (request : Request)
      (issued : world.issued < next.issued)
      (clock : next.clock = world.clock)
      (mentions : ∀ waiter, next.Mentions waiter →
        world.Mentions waiter ∨ Newcomer policy world request waiter) :
      Waits policy world event next

theorem acquire_waits {request : Request} {waitMs : Nat} {published : Bool}
    (keeps : KeepsPriority policy) (event : LeaseEvent Host Request) : Waits
    policy world event
    (world.acquire call policy process request waitMs published) := by
  unfold acquire
  split
  case h_1 => exact .carries Carries.refl
  case h_2 info found =>
    split
    case isTrue => exact .carries (start_carries rfl)
    case isFalse =>
      split
      case isFalse => exact .carries (start_carries rfl)
      case isTrue =>
        have recorded : Newcomer policy world request
            (world.createResourceWaiter info (policy.normalize request)
              (min 1800000 waitMs)) :=
          ⟨rfl, rfl, keeps.normalize request⟩
        have asked : Newcomer policy world request
            { world.createResourceWaiter info (policy.normalize request)
                (min 1800000 waitMs) with request } := ⟨rfl, rfl, rfl⟩
        apply Waits.comes request
        · change world.issued < world.issued + 2
          omega
        · rfl
        intro waiter mentions
        rcases mentions with ⟨id, stored⟩ | ⟨other, member⟩
        · unfold start setCall at stored
          rw [Record.get?_set] at stored
          split at stored
          case isTrue =>
            cases stored
            exact .inr recorded
          case isFalse => exact .inl (.inl ⟨id, stored⟩)
        · unfold LeaseWorld.phase start setCall at member
          dsimp only at member
          by_cases own : other = call
          · rw [own, Function.update_self] at member
            rcases mem_cons.mp member with first | second
            · rw [first]
              exact .inr recorded
            · rw [mem_singleton.mp second]
              exact .inr asked
          · rw [Function.update_of_ne own] at member
            exact .inl (.inr ⟨other, member⟩)

theorem step_waits (keeps : KeepsPriority policy)
    (event : LeaseEvent Host Request) :
    Waits policy world event (world.step policy event) := by
  cases event with
  | time now => exact .passes now
  | spawn =>
    apply Waits.carries
    exact Carries.refl.same rfl rfl (Nat.le_refl _) rfl
  | exit => exact .carries exit_carries
  | sample call ok =>
    apply Waits.carries
    refine ⟨?_, Nat.le_refl _, rfl⟩
    intro waiter mentions
    rcases mentions with recorded | ⟨other, member⟩
    · exact Mentions.descends (.inl recorded)
    · apply Mentions.descends
      right
      refine ⟨other, ?_⟩
      unfold LeaseWorld.phase step setCall at member
      dsimp only at member
      by_cases own : other = call
      · rw [own, Function.update_self] at member
        rw [own]
        exact member
      · rw [Function.update_of_ne own] at member
        exact member
  | acquire =>
    rw [step]
    split
    case isTrue => exact acquire_waits keeps _
    case isFalse => exact .carries Carries.refl
  | snapshot =>
    rw [step]
    split
    case isTrue => exact .carries (start_carries rfl)
    case isFalse => exact .carries Carries.refl
  | bind =>
    rw [step]
    split
    case h_1 => exact .carries Carries.refl
    case h_2 =>
      split
      case isTrue => exact .carries (start_carries rfl)
      case isFalse => exact .carries Carries.refl
  | release =>
    rw [step]
    split
    case isTrue => exact .carries (start_carries rfl)
    case isFalse => exact .carries Carries.refl
  | advance => exact .carries (advance_carries keeps)
  | fail => exact .carries fail_carries

/-- All that is known of one waiter agrees. -/
structure Coherent (policy : AdmissionPolicy Host Request Reservation)
    (world : LeaseWorld Host Request) : Prop where
  issued : ∀ waiter, world.Mentions waiter → waiter.waiterId < world.issued
  agree : ∀ one other, world.Mentions one → world.Mentions other →
    one.waiterId = other.waiterId → SameWaiter policy one other

theorem Waits.coherent {event : LeaseEvent Host Request}
    (waits : Waits policy world event next)
    (coherent : Coherent policy world) : Coherent policy next := by
  cases waits with
  | carries carries =>
    constructor
    · intro waiter mentions
      obtain ⟨before, known, same⟩ := carries.mentions waiter mentions
      rw [same.waiterId]
      exact (coherent.issued before known).trans_le carries.issued
    · intro one other mine theirs equal
      obtain ⟨first, known, left⟩ := carries.mentions one mine
      obtain ⟨second, found, right⟩ := carries.mentions other theirs
      have same := coherent.agree first second known found
        (left.waiterId.symm.trans (equal.trans right.waiterId))
      exact left.symm.trans (same.trans right)
  | passes now => exact ⟨coherent.issued, coherent.agree⟩
  | comes request issued clock mentions =>
    constructor
    · intro waiter known
      rcases mentions waiter known with old | new
      · exact (coherent.issued waiter old).trans issued
      · rw [new.waiterId]
        exact issued
    · intro one other mine theirs equal
      rcases mentions one mine with old | new
      · rcases mentions other theirs with before | after
        · exact coherent.agree one other old before equal
        · have bound := coherent.issued one old
          rw [equal, after.waiterId] at bound
          exact absurd bound (lt_irrefl _)
      · rcases mentions other theirs with before | after
        · have bound := coherent.issued other before
          rw [← equal, new.waiterId] at bound
          exact absurd bound (lt_irrefl _)
        · exact ⟨equal.symm, after.enqueuedAt.trans new.enqueuedAt.symm,
            after.priority.trans new.priority.symm⟩

/-- A clock that does not go back. -/
def clockPasses (world : LeaseWorld Host Request) :
    LeaseEvent Host Request → Bool
  | .time now => decide (world.clock ≤ now)
  | _ => true

/-- What holds after a moment at which identifiers below `marked` were used. -/
structure Since (policy : AdmissionPolicy Host Request Reservation)
    (moment marked : Nat) (guard : Waiter Request)
    (world : LeaseWorld Host Request) : Prop where
  clock : moment ≤ world.clock
  issued : marked ≤ world.issued
  agree : ∀ waiter, world.Mentions waiter →
    waiter.waiterId = guard.waiterId → SameWaiter policy guard waiter
  newer : ∀ waiter, world.Mentions waiter → marked ≤ waiter.waiterId →
    moment ≤ waiter.enqueuedAt

theorem Waits.since {event : LeaseEvent Host Request}
    (waits : Waits policy world event next) (used : guard.waiterId < marked)
    (condition : world.clockPasses event = true)
    (since : Since policy moment marked guard world) :
    Since policy moment marked guard next := by
  cases waits with
  | passes now =>
    have later : world.clock ≤ now := of_decide_eq_true condition
    exact { since with clock := since.clock.trans later }
  | carries carries =>
    refine ⟨?_, since.issued.trans carries.issued, ?_, ?_⟩
    · rw [carries.clock]
      exact since.clock
    · intro waiter mentions equal
      obtain ⟨before, known, same⟩ := carries.mentions waiter mentions
      have first := since.agree before known (same.waiterId.symm.trans equal)
      exact first.trans same
    · intro waiter mentions new
      obtain ⟨before, known, same⟩ := carries.mentions waiter mentions
      rw [same.enqueuedAt]
      rw [same.waiterId] at new
      exact since.newer before known new
  | comes request issued clock mentions =>
    refine ⟨?_, since.issued.trans issued.le, ?_, ?_⟩
    · rw [clock]
      exact since.clock
    · intro waiter known equal
      rcases mentions waiter known with old | new
      · exact since.agree waiter old equal
      · have unused := since.issued
        rw [new.waiterId] at equal
        omega
    · intro waiter known young
      rcases mentions waiter known with old | new
      · exact since.newer waiter old young
      · rw [new.enqueuedAt]
        exact since.clock

theorem Coherent.since (coherent : Coherent policy world)
    (known : world.Mentions guard) :
    Since policy world.clock world.issued guard world := by
  refine ⟨Nat.le_refl _, Nat.le_refl _, ?_, ?_⟩
  · intro waiter mentions equal
    exact coherent.agree guard waiter known mentions equal.symm
  · intro waiter mentions young
    exact absurd (coherent.issued waiter mentions) (not_lt.mpr young)

theorem boot_coherent (now : Nat) :
    Coherent policy (boot now : LeaseWorld Host Request) := by
  have none : ∀ waiter : Waiter Request,
      ¬ (boot now : LeaseWorld Host Request).Mentions waiter := by
    intro waiter mentions
    rcases mentions with ⟨id, recorded⟩ | ⟨call, member⟩
    · cases recorded
    · cases member
  constructor
  · intro waiter mentions
    exact absurd mentions (none waiter)
  · intro one other mentions
    exact absurd mentions (none one)

theorem run_coherent (keeps : KeepsPriority policy) (now : Nat)
    (events : List (LeaseEvent Host Request)) :
    Coherent policy (run (step policy) (boot now) events) := by
  apply run_induction
  · intro world event coherent
    exact (step_waits keeps event).coherent coherent
  · exact boot_coherent now

theorem run_since (keeps : KeepsPriority policy) (used : guard.waiterId <
    marked) (since : Since policy moment marked guard world)
    {events : List (LeaseEvent Host Request)} (meets : Meets (step policy) (fun
    world event => world.clockPasses event = true) world events) : Since policy
    moment marked guard (run (step policy) world events) := by
  apply run_induction_of_meets _ since meets
  intro world event condition since
  exact (step_waits keeps event).since used condition since

/-- A waiter is protected wherever it occurs, and whoever came when identifiers
below `marked` were used is behind it and is not admitted before it. -/
structure Unpostponed (policy : AdmissionPolicy Host Request Reservation)
    (marked : Nat) (guard : Waiter Request)
    (world : LeaseWorld Host Request) : Prop where
  guarded : ∀ waiter, world.Mentions waiter →
    waiter.waiterId = guard.waiterId →
    resourceWaiterProtected policy world.clock waiter = true
  ahead : ∀ waiter newcomer, world.Mentions waiter →
    waiter.waiterId = guard.waiterId → world.Mentions newcomer →
    marked ≤ newcomer.waiterId →
    RanksAhead policy world.clock waiter newcomer
  first : ∀ call host choice task leases waiters waiter,
    world.phase call = .surveying (some task) leases [] waiters →
    marked ≤ task.waiter.waiterId → waiter ∈ waiters →
    waiter.waiterId = guard.waiterId →
    admissible policy world.clock leases task.host waiter = true ∨
      blockedByDraining policy world.clock leases task.host waiter = true →
    (world.step policy (.advance call host choice)).grants = world.grants

theorem Since.unpostponed (since : Since policy moment marked guard world)
    (guarded : resourceWaiterProtected policy moment guard = true) :
    Unpostponed policy marked guard world := by
  refine ⟨?_, ?_, ?_⟩
  · intro waiter mentions equal
    exact protected_later guarded (since.agree waiter mentions equal)
      since.clock
  · intro waiter newcomer mentions equal known young
    exact ranksAhead_newcomer guarded (since.agree waiter mentions equal)
      since.clock (since.newer newcomer known young)
  · intro call host choice task leases waiters waiter phase young member
      equal waits
    have mentioned : ∀ other ∈ waiters, world.Mentions other := by
      intro other queued
      right
      refine ⟨call, ?_⟩
      rw [phase]
      exact mem_append_right _ queued
    rw [step, advance, phase]
    unfold admitTask
    dsimp only
    split
    case isFalse => rfl
    case isTrue admits =>
      obtain ⟨chosen, selected, same⟩ := Option.map_eq_some_iff.mp admits.2
      have queued := (selected_spec selected).best.member
      have comes : moment ≤ chosen.enqueuedAt :=
        since.newer chosen (mentioned chosen queued) (same ▸ young)
      exact absurd selected (newcomer_not_selected guarded (since.agree waiter
        (mentioned waiter member) equal) since.clock comes member waits)

end Steps

end LeaseWorld

end MachineBridge.Resources
