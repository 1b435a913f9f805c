import MachineBridge.Resources.LeaseInvariant

/-!
# What each operation on the leases changes

A call changes its own phase, the records only while it has the lock, and of
the waiters none but its own and those it finds stale.
-/

namespace MachineBridge.Resources

open Foundation

variable {Host Request Reservation : Type}

/-- A phase about which nothing is known but the lock, the binding and the
waiter. -/
def LeasePhase.isPlain : LeasePhase Host Request → Bool
  | .pruning _ _ _ => false
  | .surveying _ _ _ _ => false
  | .bindWriting _ _ _ => false
  | .exited waiter _ => waiter.isNone
  | _ => true

namespace LeaseWorld

/-- What a step of a call may change. -/
structure Alters (world next : LeaseWorld Host Request) (call : Nat) :
    Prop where
  others : ∀ other, other ≠ call → next.calls other = world.calls other
  processes : next.processes = world.processes
  lock : next.lock = world.lock ∨ world.lock = none ∨ world.lock = some call
  leases : next.leases = world.leases ∨ world.lock = some call
  issued : world.issued ≤ next.issued
  waiters : ∀ id, world.waiters.get? id = none →
    next.waiters.get? id = none ∨ world.issued ≤ id ∨
      ∃ waiter, (world.phase call).waiter? = some waiter ∧
        waiter.waiterId = id

section Altering

variable {world next : LeaseWorld Host Request} {call : Nat}
  {phase : LeasePhase Host Request}

@[simp] theorem calls_enter_self :
    (world.enter call phase).calls call =
      { world.calls call with phase } := Function.update_self _ _ _

@[simp] theorem phase_enter_self :
    (world.enter call phase).phase call = phase := by
  rw [LeaseWorld.phase, calls_enter_self]

theorem Alters.refl : Alters world world call := by
  constructor
  · intro _ _
    rfl
  · rfl
  · exact .inl rfl
  · exact .inl rfl
  · exact Nat.le_refl _
  · intro id absent
    exact .inl absent

theorem Alters.enter (alters : Alters world next call) :
    Alters world (next.enter call phase) call := by
  constructor
  · intro other differ
    rw [← alters.others other differ]
    exact Function.update_of_ne differ _ _
  · exact alters.processes
  · exact alters.lock
  · exact alters.leases
  · exact alters.issued
  · exact alters.waiters

theorem Alters.unlock (alters : Alters world next call) :
    Alters world (next.unlock call) call := by
  refine { alters with lock := ?_ }
  rw [LeaseWorld.unlock]
  rcases alters.lock with same | free
  · rw [same]
    split
    case isTrue own => exact .inr (.inr own)
    case isFalse => exact .inl rfl
  · exact .inr free

theorem Alters.spares (alters : Alters world next call)
    (invariant : world.Invariant) {other : Nat} (differ : other ≠ call) :
    Spares world next other := by
  have same := alters.others other differ
  constructor
  · rw [LeaseWorld.phase, same, LeaseWorld.phase]
  · rw [same]
  · rw [alters.processes]
    exact ProcessTable.Grows.refl
  · intro _ holder
    have notOwn : world.lock ≠ some call := by
      rw [holder]
      intro same
      cases same
      exact differ rfl
    refine ⟨alters.leases.resolve_right notOwn, ?_⟩
    rcases alters.lock with same | free | own
    · rw [same, holder]
    · rw [holder] at free
      cases free
    · exact absurd own notOwn
  · exact alters.issued
  · intro waiter outcome exited absent
    have owned : (world.phase other).waiter? = some waiter := by
      rw [exited]
      rfl
    rcases alters.waiters waiter.waiterId absent with gone | new | own
    · exact gone
    · have bound := ((invariant.calls other).waiter waiter owned).1
      exact absurd new (Nat.not_le_of_lt bound)
    · obtain ⟨mine, ours, same⟩ := own
      exact absurd (invariant.unique other call waiter mine owned ours
        same.symm) differ

theorem Invariant.altered (invariant : world.Invariant)
    (alters : Alters world next call) (store : next.StoreInvariant)
    (own : next.CallInvariant call) (owner : ∀ waiter,
      (next.phase call).waiter? = some waiter → ∃ old,
      (world.phase call).waiter? = some old ∧ old.waiterId = waiter.waiterId) :
    next.Invariant := by
  apply invariant.stepped store _ own
  · intro waiter owned
    exact .inl (owner waiter owned)
  · intro other differ
    exact alters.spares invariant differ

end Altering

theorem kept_none {α : Type} {property : α → Prop} :
    ∀ item, none = some item → property item := by
  intro item named
  cases named

section Phases

variable {world : LeaseWorld Host Request} {call : Nat}
  {phase : LeasePhase Host Request}

theorem plain_own (plain : phase.isPlain = true)
    (entered : world.phase call = phase)
    (row : ∃ info, world.processes[(world.calls call).process]? = some info)
    (locked : phase.isLocked = true → world.lock = some call)
    (binding : ∀ binding, phase.binding? = some binding → ∃ info,
      world.processes[binding.child]? = some info ∧ info.pid = binding.pid)
    (waiter : ∀ waiter, phase.waiter? = some waiter →
      waiter.waiterId < world.issued ∧ waiter.token = waiter.waiterId + 1) :
    world.CallInvariant call := by
  constructor
  · intro _
    exact row
  · rw [entered]
    exact locked
  · intro task remaining kept same
    rw [← entered, same] at plain
    cases plain
  · intro task leases remaining waiters same
    rw [← entered, same] at plain
    cases plain
  · rw [entered]
    exact binding
  · intro binding observedStart lease same
    rw [← entered, same] at plain
    cases plain
  · rw [entered]
    exact waiter
  · intro waiter outcome same
    rw [← entered, same] at plain
    cases plain

theorem pruning_own {task : Option (AdmissionTask Host Request)}
    {remaining : List Nat} {kept : List (Nat × Lease Request)}
    (entered : world.phase call = .pruning task remaining kept)
    (row : ∃ info, world.processes[(world.calls call).process]? = some info)
    (locked : world.lock = some call) (scanned : ∃ rest,
      world.leases.entries = kept ++ rest ∧ rest.map Prod.fst = remaining)
    (waiter : ∀ waiter, task.map AdmissionTask.waiter = some waiter →
      waiter.waiterId < world.issued ∧ waiter.token = waiter.waiterId + 1) :
    world.CallInvariant call := by
  constructor
  · intro _
    exact row
  · intro _
    exact locked
  · intro other left done same
    rw [entered] at same
    cases same
    exact scanned
  · intro other leases left waiters same
    rw [entered] at same
    cases same
  · intro binding same
    rw [entered] at same
    cases same
  · intro binding observedStart lease same
    rw [entered] at same
    cases same
  · rw [entered]
    exact waiter
  · intro other outcome same
    rw [entered] at same
    cases same

theorem surveying_own {task : Option (AdmissionTask Host Request)}
    {leases : List (Lease Request)} {remaining : List Nat}
    {waiters : List (Waiter Request)}
    (entered : world.phase call = .surveying task leases remaining waiters)
    (row : ∃ info, world.processes[(world.calls call).process]? = some info)
    (locked : world.lock = some call) (surveyed : world.leases.values = leases)
    (waiter : ∀ waiter, task.map AdmissionTask.waiter = some waiter →
      waiter.waiterId < world.issued ∧ waiter.token = waiter.waiterId + 1) :
    world.CallInvariant call := by
  constructor
  · intro _
    exact row
  · intro _
    exact locked
  · intro other left done same
    rw [entered] at same
    cases same
  · intro other found left seen same
    rw [entered] at same
    cases same
    exact surveyed
  · intro binding same
    rw [entered] at same
    cases same
  · intro binding observedStart lease same
    rw [entered] at same
    cases same
  · rw [entered]
    exact waiter
  · intro other outcome same
    rw [entered] at same
    cases same

theorem writing_own {binding : LeaseBinding} {observedStart : Option Nat}
    {lease : Lease Request}
    (entered : world.phase call = .bindWriting binding observedStart lease)
    (row : ∃ info, world.processes[(world.calls call).process]? = some info)
    (locked : world.lock = some call) (child : ∃ info,
      world.processes[binding.child]? = some info ∧ info.pid = binding.pid)
    (written : world.leases.get? binding.leaseId = some lease) :
    world.CallInvariant call := by
  constructor
  · intro _
    exact row
  · intro _
    exact locked
  · intro task left done same
    rw [entered] at same
    cases same
  · intro task found left seen same
    rw [entered] at same
    cases same
  · intro other same
    rw [entered] at same
    cases same
    exact child
  · intro other observed found same
    rw [entered] at same
    cases same
    exact written
  · intro waiter same
    rw [entered] at same
    cases same
  · intro waiter outcome same
    rw [entered] at same
    cases same

theorem exited_own {waiter : Waiter Request} {outcome : AcquireOutcome}
    (entered : world.phase call = .exited (some waiter) outcome)
    (row : ∃ info, world.processes[(world.calls call).process]? = some info)
    (known : waiter.waiterId < world.issued ∧
      waiter.token = waiter.waiterId + 1)
    (gone : world.waiters.get? waiter.waiterId = none) :
    world.CallInvariant call := by
  constructor
  · intro _
    exact row
  · rw [entered]
    intro locked
    cases locked
  · intro task left done same
    rw [entered] at same
    cases same
  · intro task found left seen same
    rw [entered] at same
    cases same
  · intro binding same
    rw [entered] at same
    cases same
  · intro binding observed found same
    rw [entered] at same
    cases same
  · intro other same
    rw [entered] at same
    cases same
    exact known
  · intro other result same
    rw [entered] at same
    cases same
    exact gone

end Phases

section Records

variable {world next : LeaseWorld Host Request} {call : Nat}

theorem StoreInvariant.enter {phase : LeasePhase Host Request}
    (store : world.StoreInvariant) : (world.enter call phase).StoreInvariant :=
  ⟨store.table, store.leases, store.waiters, store.removed⟩

theorem StoreInvariant.unlock (store : world.StoreInvariant) :
    (world.unlock call).StoreInvariant :=
  ⟨store.table, store.leases, store.waiters, store.removed⟩

theorem StoreInvariant.recordBinding {leaseId : Nat}
    (store : world.StoreInvariant) :
    (world.recordBinding leaseId).StoreInvariant :=
  ⟨store.table, store.leases, store.waiters, store.removed⟩

theorem Alters.recordBinding {leaseId : Nat}
    (alters : Alters world next call) :
    Alters world (next.recordBinding leaseId) call :=
  ⟨alters.others, alters.processes, alters.lock,
    alters.leases, alters.issued, alters.waiters⟩

variable {lease : Lease Request} {waiter : Waiter Request}

theorem StoreInvariant.removeLease {released : Bool}
    (store : world.StoreInvariant)
    (recorded : world.leases.get? lease.leaseId = some lease) :
    (world.removeLease lease released).StoreInvariant := by
  obtain ⟨_, used, _⟩ := store.leases _ lease recorded
  refine ⟨store.table, ?_, store.waiters, ?_⟩
  · intro id other found
    rw [LeaseWorld.removeLease] at found
    rw [Record.get?_delete] at found
    split at found
    case isTrue => cases found
    case isFalse => exact store.leases id other found
  · intro removal member
    rw [LeaseWorld.removeLease] at member ⊢
    rw [Record.get?_delete]
    rcases List.mem_append.mp member with old | new
    · obtain ⟨bound, gone⟩ := store.removed removal old
      refine ⟨bound, ?_⟩
      rw [gone, ite_self]
    · rw [List.mem_singleton.mp new]
      exact ⟨used, if_pos rfl⟩

theorem removeLease_alters {released : Bool}
    (locked : world.lock = some call) :
    Alters world (world.removeLease lease released) call :=
  ⟨fun _ _ => rfl, rfl, .inl rfl, .inr locked, Nat.le_refl _,
    fun _ absent => .inl absent⟩

theorem StoreInvariant.recordLease {grant : LeaseGrant Host Request}
    (store : world.StoreInvariant) (fresh : lease.leaseId = world.issued)
    (known : lease.owner.Known world.processes) :
    (world.recordLease lease grant).StoreInvariant := by
  have later : ∀ id, id < world.issued → id < world.issued + 2 := by omega
  refine ⟨store.table, ?_, ?_, ?_⟩
  · intro id other found
    rw [LeaseWorld.recordLease] at found ⊢
    dsimp only at found ⊢
    rw [Record.get?_set] at found
    split at found
    case isTrue same =>
      cases found
      refine ⟨same.symm, ?_, known⟩
      omega
    case isFalse =>
      obtain ⟨same, used, kept⟩ := store.leases id other found
      exact ⟨same, later id used, kept⟩
  · intro id waiter found
    obtain ⟨used, token, same⟩ := store.waiters id waiter found
    exact ⟨later id used, token, same⟩
  · intro removal member
    obtain ⟨used, gone⟩ := store.removed removal member
    refine ⟨later _ used, ?_⟩
    rw [LeaseWorld.recordLease]
    rw [Record.get?_set, if_neg]
    · exact gone
    · rw [fresh]
      exact Nat.ne_of_lt used

theorem recordLease_alters {grant : LeaseGrant Host Request}
    (locked : world.lock = some call) :
    Alters world (world.recordLease lease grant) call :=
  ⟨fun _ _ => rfl, rfl, .inl rfl, .inr locked, Nat.le_add_right _ 2,
    fun _ absent => .inl absent⟩

theorem StoreInvariant.withLeases {id : Nat} {old : Lease Request}
    (store : world.StoreInvariant) (recorded : world.leases.get? id = some old)
    (same : lease.leaseId = old.leaseId)
    (known : lease.owner.Known world.processes) :
    (world.withLeases (world.leases.set id lease)).StoreInvariant := by
  obtain ⟨named, used, _⟩ := store.leases id old recorded
  refine ⟨store.table, ?_, store.waiters, ?_⟩
  · intro other stored found
    rw [LeaseWorld.withLeases] at found
    rw [Record.get?_set] at found
    split at found
    case isTrue equal =>
      cases found
      rw [equal]
      exact ⟨same.trans named, used, known⟩
    case isFalse => exact store.leases other stored found
  · intro removal member
    obtain ⟨bound, gone⟩ := store.removed removal member
    refine ⟨bound, ?_⟩
    rw [LeaseWorld.withLeases]
    rw [Record.get?_set, if_neg]
    · exact gone
    · intro equal
      rw [equal, recorded] at gone
      cases gone

theorem withLeases_alters {leases : Record Nat (Lease Request)}
    (locked : world.lock = some call) :
    Alters world (world.withLeases leases) call :=
  ⟨fun _ _ => rfl, rfl, .inl rfl, .inr locked, Nat.le_refl _,
    fun _ absent => .inl absent⟩

theorem removeResourceWaiter_waiters {id : Nat} {stored : Waiter Request}
    (found : (world.removeResourceWaiter waiter).waiters.get? id = some stored)
    : world.waiters.get? id = some stored := by
  unfold removeResourceWaiter at found
  split at found
  case h_1 => exact found
  case h_2 other recorded =>
    split at found
    case isTrue =>
      rw [withWaiters] at found
      rw [Record.get?_delete] at found
      split at found
      case isTrue => cases found
      case isFalse => exact found
    case isFalse => exact found

theorem removeResourceWaiter_gone (store : world.StoreInvariant)
    (token : waiter.token = waiter.waiterId + 1) :
    (world.removeResourceWaiter waiter).waiters.get? waiter.waiterId =
    none := by
  unfold removeResourceWaiter
  split
  case h_1 absent => exact absent
  case h_2 stored found =>
    have same := (store.waiters _ stored found).2.1
    rw [if_pos (same.trans token.symm), withWaiters]
    rw [Record.get?_delete, if_pos rfl]

theorem removeResourceWaiter_eq (waiter : Waiter Request) : ∃ waiters,
    world.removeResourceWaiter waiter = world.withWaiters waiters := by
  unfold removeResourceWaiter
  split
  case h_1 => exact ⟨world.waiters, rfl⟩
  case h_2 =>
    split
    case isTrue => exact ⟨_, rfl⟩
    case isFalse => exact ⟨world.waiters, rfl⟩

theorem StoreInvariant.withWaiters {waiters : Record Nat (Waiter Request)}
    (store : world.StoreInvariant) (recorded : ∀ id waiter,
      waiters.get? id = some waiter → world.waiters.get? id = some waiter ∨
      id < world.issued ∧ waiter.token = id + 1 ∧ waiter.waiterId = id) :
    (world.withWaiters waiters).StoreInvariant := by
  refine { store with waiters := ?_ }
  intro id waiter found
  rcases recorded id waiter found with old | new
  · exact store.waiters id waiter old
  · exact new

theorem StoreInvariant.removeResourceWaiter (store : world.StoreInvariant) :
    (world.removeResourceWaiter waiter).StoreInvariant := by
  obtain ⟨waiters, same⟩ := world.removeResourceWaiter_eq waiter
  have left : ∀ id stored, waiters.get? id = some stored →
      world.waiters.get? id = some stored := by
    intro id stored found
    have kept :
        (world.removeResourceWaiter waiter).waiters.get? id = some stored := by
      rw [same]
      exact found
    exact removeResourceWaiter_waiters kept
  rw [same]
  apply store.withWaiters
  intro id stored found
  exact .inl (left id stored found)

theorem removeResourceWaiter_alters :
    Alters world (world.removeResourceWaiter waiter) call := by
  obtain ⟨waiters, same⟩ := world.removeResourceWaiter_eq waiter
  have gone : ∀ id, world.waiters.get? id = none →
      (world.removeResourceWaiter waiter).waiters.get? id = none := by
    intro id absent
    cases found : (world.removeResourceWaiter waiter).waiters.get? id with
    | none => rfl
    | some stored =>
      rw [removeResourceWaiter_waiters found] at absent
      cases absent
  rw [same] at gone ⊢
  exact ⟨fun _ _ => rfl, rfl, .inl rfl, .inl rfl, Nat.le_refl _,
    fun id absent => .inl (gone id absent)⟩

end Records

section Entering

variable {world next : LeaseWorld Host Request} {call : Nat}
  {phase : LeasePhase Host Request}

theorem Invariant.row (invariant : world.Invariant)
    (alters : Alters world next call) (same : next.calls call = world.calls call)
    (started : (world.phase call).isIdle = false) :
    ∃ info, (next.enter call phase).processes[
      ((next.enter call phase).calls call).process]? = some info := by
  obtain ⟨info, found⟩ := (invariant.calls call).process started
  refine ⟨info, ?_⟩
  rw [calls_enter_self]
  rw [same]
  have processes : (next.enter call phase).processes = world.processes :=
    alters.processes
  rw [processes]
  exact found

theorem Invariant.enterPlain (invariant : world.Invariant)
    (alters : Alters world next call)
    (same : next.calls call = world.calls call) (store : next.StoreInvariant)
    (started : (world.phase call).isIdle = false)
    (plain : phase.isPlain = true)
    (locked : phase.isLocked = true → next.lock = some call)
    (binding : ∀ binding, phase.binding? = some binding →
      (world.phase call).binding? = some binding) (waiter : ∀ waiter,
      phase.waiter? = some waiter → (world.phase call).waiter? = some waiter) :
    (next.enter call phase).Invariant := by
  apply invariant.altered alters.enter store.enter
  · apply plain_own plain phase_enter_self
    · exact invariant.row alters same started
    · exact locked
    · intro bound named
      have processes : (next.enter call phase).processes = world.processes :=
        alters.processes
      rw [processes]
      exact (invariant.calls call).binding bound (binding bound named)
    · intro mine owned
      obtain ⟨used, token⟩ :=
        (invariant.calls call).waiter mine (waiter mine owned)
      exact ⟨Nat.lt_of_lt_of_le used alters.issued, token⟩
  · rw [phase_enter_self]
    intro mine owned
    exact ⟨mine, waiter mine owned, rfl⟩

theorem Invariant.finish {ok : Bool} (invariant : world.Invariant)
    (alters : Alters world next call)
    (same : next.calls call = world.calls call) (store : next.StoreInvariant)
    (started : (world.phase call).isIdle = false) :
    (next.finish call ok).Invariant := by
  apply invariant.enterPlain alters.unlock same store.unlock started rfl
  · intro locked
    cases locked
  · exact kept_none
  · exact kept_none

theorem Invariant.start {process : Nat} (invariant : world.Invariant)
    (alters : Alters world next call) (store : next.StoreInvariant)
    (row : ∃ info, world.processes[process]? = some info)
    (plain : phase.isPlain = true) (unlocked : phase.isLocked = false)
    (binding : ∀ binding, phase.binding? = some binding → ∃ info,
      world.processes[binding.child]? = some info ∧ info.pid = binding.pid)
    (waiter : ∀ waiter, phase.waiter? = some waiter →
      world.issued ≤ waiter.waiterId ∧ waiter.waiterId < next.issued ∧
      waiter.token = waiter.waiterId + 1) :
    (next.start call process phase).Invariant := by
  have info : (next.start call process phase).calls call =
      { next.calls call with process, phase } := Function.update_self _ _ _
  have entered : (next.start call process phase).phase call = phase := by
    rw [LeaseWorld.phase, info]
  have processes : (next.start call process phase).processes =
      world.processes := alters.processes
  have altered : Alters world (next.start call process phase) call := by
    refine { alters with others := ?_ }
    intro other differ
    rw [← alters.others other differ]
    exact Function.update_of_ne differ _ _
  apply invariant.stepped
  · exact ⟨store.table, store.leases, store.waiters, store.removed⟩
  · intro other differ
    exact altered.spares invariant differ
  · apply plain_own plain entered
    · rw [info, processes]
      exact row
    · intro locked
      rw [unlocked] at locked
      cases locked
    · rw [processes]
      exact binding
    · intro mine owned
      exact (waiter mine owned).2
  · rw [entered]
    intro mine owned
    exact .inr (waiter mine owned).1

end Entering

end LeaseWorld

end MachineBridge.Resources
