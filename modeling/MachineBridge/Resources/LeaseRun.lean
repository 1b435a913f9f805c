import MachineBridge.Resources.LeaseCalls

/-!
# The life of a lease

In every run in which no running owner is passed off as another process by its
start time, leases end as they should, bindings of pruned leases fail, grants
are admitted against what is recorded, and no request leaves a waiter behind.
In every other run a lease of a running owner is pruned.
-/

namespace MachineBridge.Resources

open Foundation

variable {Host Request Reservation : Type}

namespace LeaseWorld

section Steps

variable {policy : AdmissionPolicy Host Request Reservation}
  {world : LeaseWorld Host Request} {call : Nat}

theorem spared_step {next : LeaseWorld Host Request}
    (invariant : world.Invariant) (store : next.StoreInvariant)
    (phase : ∀ call, next.phase call = world.phase call)
    (process : ∀ call, (next.calls call).process = (world.calls call).process)
    (grows : ProcessTable.Grows world.processes next.processes)
    (leases : next.leases = world.leases)
    (waiters : next.waiters = world.waiters) (lock : next.lock = world.lock)
    (issued : next.issued = world.issued) : next.Invariant := by
  apply invariant.everywhere store
  intro call
  refine ⟨phase call, process call, grows, ?_, ?_, ?_⟩
  · intro _ held
    exact ⟨leases, lock.trans held⟩
  · rw [issued]
  · intro waiter outcome _ absent
    rw [waiters]
    exact absent

theorem StoreInvariant.grows {processes : ProcessTable}
    (store : world.StoreInvariant) (valid : processes.Valid)
    (grows : ProcessTable.Grows world.processes processes) :
    StoreInvariant { world with processes } := by
  refine ⟨valid, ?_, store.waiters, store.removed⟩
  intro id lease found
  obtain ⟨same, used, known⟩ := store.leases id lease found
  exact ⟨same, used, known.grows grows⟩

variable {process : Nat}

theorem exit_step (invariant : world.Invariant) :
    (world.exit process).Invariant ∧
    Logged policy world (world.exit process) := by
  have store := invariant.store
  have grows : ProcessTable.Grows world.processes
      (world.exit process).processes := ProcessTable.exit_grows process
  have crashed : ∀ call, (world.calls call).process = process ∧
      (world.phase call).isIdle = false →
      (world.exit process).calls call =
        { world.calls call with phase := .crashed } := by
    intro call condition
    exact if_pos condition
  have kept : ∀ call, ¬((world.calls call).process = process ∧
      (world.phase call).isIdle = false) →
      (world.exit process).calls call = world.calls call := by
    intro call condition
    exact if_neg condition
  refine ⟨?_, Logged.same rfl rfl rfl⟩
  refine ⟨?_, ?_, ?_⟩
  · have rows := store.grows (store.table.exit process)
      (ProcessTable.exit_grows process)
    exact ⟨rows.table, rows.leases, rows.waiters, rows.removed⟩
  · intro call
    by_cases ends : (world.calls call).process = process ∧
        (world.phase call).isIdle = false
    · have info := crashed call ends
      have phase : (world.exit process).phase call = .crashed := by
        rw [LeaseWorld.phase, info]
      apply plain_own rfl phase
      · rw [info]
        obtain ⟨row, found⟩ := (invariant.calls call).process ends.2
        obtain ⟨now, stored, _⟩ := grows.kept _ row found
        exact ⟨now, stored⟩
      · intro locked
        cases locked
      · exact kept_none
      · exact kept_none
    · have info := kept call ends
      have phase : (world.exit process).phase call = world.phase call := by
        rw [LeaseWorld.phase, info, LeaseWorld.phase]
      apply (invariant.calls call).spared
      refine ⟨phase, by rw [info], grows, ?_, Nat.le_refl _, ?_⟩
      · intro locked held
        refine ⟨rfl, ?_⟩
        have other : (world.calls call).process ≠ process := by
          intro same
          apply ends
          refine ⟨same, ?_⟩
          cases idle : world.phase call with
          | idle =>
            rw [idle] at locked
            cases locked
          | _ => rfl
        rw [LeaseWorld.exit]
        rw [held, Option.any_some, if_neg]
        rw [beq_iff_eq]
        exact other
      · intro waiter outcome _ absent
        exact absent
  · have running : ∀ call waiter,
        ((world.exit process).phase call).waiter? = some waiter →
        (world.phase call).waiter? = some waiter := by
      intro call waiter owned
      by_cases ends : (world.calls call).process = process ∧
          (world.phase call).isIdle = false
      · rw [LeaseWorld.phase, crashed call ends] at owned
        cases owned
      · rw [LeaseWorld.phase, kept call ends] at owned
        exact owned
    intro first second one other mine theirs
    exact invariant.unique first second one other (running first one mine)
      (running second other theirs)

theorem row_of_mayStart (allowed : world.mayStart call process = true) :
    ∃ info, world.processes[process]? = some info := by
  unfold mayStart ProcessTable.isRunning at allowed
  rw [Bool.and_eq_true] at allowed
  cases found : world.processes[process]? with
  | none =>
    rw [found] at allowed
    cases allowed.2
  | some info => exact ⟨info, rfl⟩

theorem start_step {phase : LeasePhase Host Request}
    (invariant : world.Invariant)
    (row : ∃ info, world.processes[process]? = some info)
    (plain : phase.isPlain = true) (unlocked : phase.isLocked = false)
    (binding : ∀ binding, phase.binding? = some binding → ∃ info,
      world.processes[binding.child]? = some info ∧ info.pid = binding.pid)
    (waiter : ∀ waiter, phase.waiter? ≠ some waiter) :
    (world.start call process phase).Invariant ∧
    Logged policy world (world.start call process phase) := by
  refine ⟨?_, Logged.same rfl rfl rfl⟩
  apply invariant.start Alters.refl invariant.store row plain unlocked binding
  intro mine owned
  exact absurd owned (waiter mine)

theorem acquire_step {request : Request} {waitMs : Nat} {published : Bool}
    (invariant : world.Invariant)
    (row : ∃ info, world.processes[process]? = some info) :
    (world.acquire call policy process request waitMs published).Invariant ∧
    Logged policy world
    (world.acquire call policy process request waitMs published) := by
  have store := invariant.store
  obtain ⟨info, found⟩ := row
  unfold acquire
  rw [found]
  dsimp only
  split
  case isTrue =>
    exact start_step invariant ⟨info, found⟩ rfl rfl kept_none kept_none
  case isFalse =>
    split
    case isFalse =>
      exact start_step invariant ⟨info, found⟩ rfl rfl kept_none kept_none
    case isTrue =>
      refine ⟨?_, Logged.same rfl rfl rfl⟩
      have later : ∀ id, id < world.issued → id < world.issued + 2 := by omega
      apply invariant.start _ _ ⟨info, found⟩ rfl rfl
      · exact kept_none
      · intro waiter owned
        cases owned
        unfold createResourceWaiter
        dsimp only
        omega
      · refine ⟨fun _ _ => rfl, rfl, .inl rfl, .inl rfl,
          Nat.le_add_right _ 2, ?_⟩
        intro id absent
        rw [Record.get?_set]
        split
        case isTrue same =>
          rw [same]
          exact .inr (.inl (Nat.le_refl _))
        case isFalse => exact .inl absent
      · refine ⟨store.table, ?_, ?_, ?_⟩
        · intro id lease recorded
          obtain ⟨same, used, known⟩ := store.leases id lease recorded
          exact ⟨same, later id used, known⟩
        · intro id waiter recorded
          rw [Record.get?_set] at recorded
          split at recorded
          case isTrue same =>
            cases recorded
            rw [same]
            unfold createResourceWaiter
            dsimp only
            exact ⟨by omega, rfl, rfl⟩
          case isFalse =>
            obtain ⟨used, token, same⟩ := store.waiters id waiter recorded
            exact ⟨later id used, token, same⟩
        · intro removal member
          obtain ⟨used, gone⟩ := store.removed removal member
          exact ⟨later _ used, gone⟩

/-- No running owner is passed off as another process by its start time when
the next lease is judged. -/
def trusted (world : LeaseWorld Host Request) :
    LeaseEvent Host Request → Bool
  | .advance call _ _ =>
    match world.phase call with
    | .pruning _ (id :: _) _ =>
      (world.leases.get? id).all fun lease => !world.misjudges call lease
    | _ => true
  | _ => true

theorem step_invariant {event : LeaseEvent Host Request}
    (invariant : world.Invariant) (condition : world.trusted event = true) :
    (world.step policy event).Invariant ∧
    Logged policy world (world.step policy event) := by
  have store := invariant.store
  cases event with
  | time now =>
    refine ⟨?_, Logged.same rfl rfl rfl⟩
    refine spared_step invariant ?_ (fun _ => rfl) (fun _ => rfl)
      ProcessTable.Grows.refl rfl rfl rfl rfl
    exact ⟨store.table, store.leases, store.waiters, store.removed⟩
  | spawn parent pid isolated =>
    refine ⟨?_, Logged.same rfl rfl rfl⟩
    have grows := ProcessTable.spawn_grows world.processes parent pid isolated
      world.clock
    refine spared_step invariant ?_ (fun _ => rfl) (fun _ => rfl) grows rfl
      rfl rfl rfl
    exact store.grows (store.table.spawn parent pid isolated world.clock) grows
  | exit process => exact exit_step invariant
  | sample call ok =>
    refine ⟨?_, Logged.same rfl rfl rfl⟩
    have same : ∀ other,
        ((world.step policy (.sample call ok)).calls other).phase =
        (world.calls other).phase ∧
        ((world.step policy (.sample call ok)).calls other).process =
        (world.calls other).process := by
      intro other
      rw [step, setCall]
      dsimp only
      by_cases equal : other = call
      · rw [equal, Function.update_self]
        exact ⟨rfl, rfl⟩
      · rw [Function.update_of_ne equal]
        exact ⟨rfl, rfl⟩
    refine spared_step invariant ?_ (fun other => (same other).1)
      (fun other => (same other).2) ProcessTable.Grows.refl rfl rfl rfl rfl
    exact ⟨store.table, store.leases, store.waiters, store.removed⟩
  | acquire call process request waitMs published =>
    rw [step]
    split
    case isTrue allowed =>
      exact acquire_step invariant (row_of_mayStart allowed)
    case isFalse => exact ⟨invariant, Logged.refl⟩
  | snapshot call process =>
    rw [step]
    split
    case isTrue allowed =>
      exact start_step invariant (row_of_mayStart allowed) rfl rfl
        kept_none kept_none
    case isFalse => exact ⟨invariant, Logged.refl⟩
  | bind call process leaseId token child isolated =>
    rw [step]
    split
    case h_1 => exact ⟨invariant, Logged.refl⟩
    case h_2 info found =>
      split
      case isTrue allowed =>
        apply start_step invariant (row_of_mayStart allowed) rfl rfl
        · intro binding bound
          cases bound
          exact ⟨info, found, rfl⟩
        · exact kept_none
      case isFalse => exact ⟨invariant, Logged.refl⟩
  | release call process leaseId token =>
    rw [step]
    split
    case isTrue allowed =>
      exact start_step invariant (row_of_mayStart allowed) rfl rfl
        kept_none kept_none
    case isFalse => exact ⟨invariant, Logged.refl⟩
  | advance call host choice =>
    apply advance_step invariant
    intro task id rest kept lease phase found
    unfold trusted at condition
    dsimp only at condition
    rw [phase] at condition
    dsimp only at condition
    rw [found, Option.all_some, Bool.not_eq_true'] at condition
    exact condition
  | fail call cancelled => exact fail_step invariant

end Steps

/-- What leases, grants and waiters come to. -/
structure Lifecycle (policy : AdmissionPolicy Host Request Reservation)
    (world : LeaseWorld Host Request) : Prop where
  removals : ∀ removal ∈ world.removals, removal.justified = true
  bound : ∀ removal ∈ world.removals, removal.released = false →
    removal.lease.owner.kind = .process → removal.ownerAlive = false
  bindings : ∀ binding ∈ world.bindings, binding.removed = false
  grants : ∀ grant ∈ world.grants, Granted policy grant
  exits : ∀ call waiter outcome,
    world.phase call = .exited (some waiter) outcome →
    world.waiters.get? waiter.waiterId = none

/-- The invariant with the history. -/
structure Kept (policy : AdmissionPolicy Host Request Reservation)
    (world : LeaseWorld Host Request) : Prop where
  invariant : world.Invariant
  removals : ∀ removal ∈ world.removals, removal.justified = true
  bindings : ∀ binding ∈ world.bindings, binding.removed = false
  grants : ∀ grant ∈ world.grants, Granted policy grant

section Runs

variable {policy : AdmissionPolicy Host Request Reservation}
  {world : LeaseWorld Host Request}

theorem bound_ended {removal : LeaseRemoval Request}
    (justified : removal.justified = true) (pruned : removal.released = false)
    (bound : removal.lease.owner.kind = .process) :
    removal.ownerAlive = false := by
  unfold LeaseRemoval.justified provisionalExpired at justified
  rw [pruned, bound] at justified
  cases alive : removal.ownerAlive with
  | false => rfl
  | true =>
    rw [alive] at justified
    cases justified

theorem Kept.lifecycle (kept : Kept policy world) :
    Lifecycle policy world := by
  refine { kept with bound := ?_, exits := ?_ }
  · intro removal member
    exact bound_ended (kept.removals removal member)
  · intro call
    exact (kept.invariant.calls call).exited

theorem Kept.step {event : LeaseEvent Host Request} (kept : Kept policy world)
    (condition : world.trusted event = true) :
    Kept policy (world.step policy event) := by
  have stepped : (world.step policy event).Invariant ∧
      Logged policy world (world.step policy event) :=
    step_invariant kept.invariant condition
  obtain ⟨invariant, logged⟩ := stepped
  refine ⟨invariant, ?_, ?_, ?_⟩
  · intro removal member
    rcases logged.removals removal member with old | new
    · exact kept.removals removal old
    · exact new
  · intro binding member
    rcases logged.bindings binding member with old | new
    · exact kept.bindings binding old
    · exact new
  · intro grant member
    rcases logged.grants grant member with old | new
    · exact kept.grants grant old
    · exact new

theorem trusted_of_lifecycle {event : LeaseEvent Host Request}
    (lifecycle : Lifecycle policy (world.step policy event)) :
    world.trusted event = true := by
  unfold trusted
  split
  case h_2 => rfl
  case h_1 call host choice =>
    split
    case h_2 => rfl
    case h_1 task id rest kept phase =>
      cases found : world.leases.get? id with
      | none => rfl
      | some lease =>
        rw [Option.all_some, Bool.not_eq_true', ← Bool.not_eq_true]
        intro misjudged
        obtain ⟨stale, unjustified⟩ := misjudged_stale misjudged
        have removed : world.removal lease false ∈
            (world.step policy (.advance call host choice)).removals := by
          rw [LeaseWorld.step, advance, phase]
          dsimp only
          unfold prune
          rw [found]
          dsimp only
          rw [if_pos stale]
          exact List.mem_append_right _ (List.mem_singleton.mpr rfl)
        rw [lifecycle.removals _ removed] at unjustified
        cases unjustified

/-- The coordinator as the host starts. -/
def boot (now : Nat) : LeaseWorld Host Request :=
  { processes := [{ pid := 1, started := now, group := 1, leader := 0 }]
    clock := now }

theorem boot_valid (now : Nat) : ProcessTable.Valid
    [{ pid := 1, started := now, group := 1, leader := 0 }] := by
  have only : ∀ (process : Nat) (info : OsProcess),
      [({ pid := 1, started := now, group := 1, leader := 0 } : OsProcess)][
        process]? = some info →
      process = 0 ∧ info = ⟨1, now, 1, 0, true⟩ := by
    intro process info found
    cases process with
    | zero =>
      cases found
      exact ⟨rfl, rfl⟩
    | succ process => cases found
  constructor
  · intro first second one other found stored _ _ _
    rw [(only first one found).1, (only second other stored).1]
  · intro first second one other found stored _ _ _
    rw [(only first one found).2, (only second other stored).2]
  · intro first second one other found stored _ _ _
    rw [(only first one found).1, (only second other stored).2]
  · intro process info found
    rw [(only process info found).2]
    exact ⟨_, rfl, rfl⟩
  · intro process info found
    rw [(only process info found).2]
    exact Nat.one_ne_zero

theorem boot_kept (now : Nat) :
    Kept policy (boot now : LeaseWorld Host Request) := by
  refine ⟨⟨?_, ?_, ?_⟩, ?_, ?_, ?_⟩
  · refine ⟨boot_valid now, ?_, ?_, ?_⟩
    · intro id lease found
      cases found
    · intro id waiter found
      cases found
    · intro removal member
      cases member
  · intro call
    constructor
    · intro started
      cases started
    · intro locked
      cases locked
    · intro task remaining kept phase
      cases phase
    · intro task leases remaining waiters phase
      cases phase
    · intro binding phase
      cases phase
    · intro binding observedStart lease phase
      cases phase
    · intro waiter phase
      cases phase
    · intro waiter outcome phase
      cases phase
  · intro first second one other owned
    cases owned
  · intro removal member
    cases member
  · intro binding member
    cases member
  · intro grant member
    cases member

/-- Leases, grants and waiters come to what they should throughout a run just
when no running owner is passed off as another process in it. -/
theorem run_lifecycle (policy : AdmissionPolicy Host Request Reservation)
    (now : Nat) (events : List (LeaseEvent Host Request)) : (∀ count,
      Lifecycle policy (run (step policy) (boot now) (events.take count))) ↔
    Meets (step policy) (fun world event => world.trusted event = true)
    (boot now) events := by
  apply holds_throughout_iff
  · intro world event kept condition
    exact Kept.step kept condition
  · intro world event _ lifecycle
    exact trusted_of_lifecycle lifecycle
  · intro world kept
    exact Kept.lifecycle kept
  · exact boot_kept now

/-- A host which admits everything. -/
def admitting : AdmissionPolicy Unit Unit Unit where
  heavy _ := true
  priority _ := .ordinary
  normalize request := request
  reserve request _ := request
  differs _ _ := false
  fit _ _ request _ _ := request
  evaluate _ _ _ _ _ := { admitted := true, reason := "admitted_green" }

def operations (call count : Nat) : List (LeaseEvent Unit Unit) :=
  List.replicate count (.advance call () true)

/-- A request lists the processes and waits for the lock.  One of them ends
then, its identifier goes to a child, and a lease is bound to that child before
the request prunes. -/
def olderListing : List (LeaseEvent Unit Unit) :=
  [.spawn 0 10 false, .spawn 0 20 false, .spawn 0 30 false, .time 1100000,
    .acquire 0 1 () 0 true] ++ operations 0 7 ++
    [.acquire 1 3 () 0 true, .sample 1 true, .advance 1 () true, .exit 2,
      .spawn 1 20 true, .bind 2 1 2 3 4 true] ++ operations 2 4 ++
    operations 1 2

theorem olderListing_prunesRunning : ¬ ∀ count, Lifecycle admitting
    (run (step admitting) (boot 1000000) (olderListing.take count)) := by
  intro claimed
  have lifecycle := claimed 24
  have removed : ∃ removal ∈
      (run (step admitting) (boot 1000000) (olderListing.take 24)).removals,
      removal.released = false ∧ removal.lease.owner.kind = .process ∧
      removal.ownerAlive = true := by
    decide +kernel
  obtain ⟨removal, member, pruned, bound, alive⟩ := removed
  rw [lifecycle.bound removal member pruned bound] at alive
  cases alive

end Runs

end LeaseWorld

end MachineBridge.Resources
