import MachineBridge.Resources.LeaseSteps

/-!
# The steps of a call

What each phase of a call keeps, and what it adds to the history: a justified
removal, a binding of a lease that was not removed, or a grant against what is
recorded.
-/

namespace MachineBridge.Resources

open Foundation List

variable {Host Request Reservation : Type}

/-- A lease was granted against the leases recorded at that moment, to the
waiter which was selected. -/
structure Granted (policy : AdmissionPolicy Host Request Reservation)
    (grant : LeaseGrant Host Request) : Prop where
  admitted : (policy.evaluate grant.host grant.recorded grant.request
    grant.clock grant.waiter.owner.pid).admitted = true
  selected : (selectedResourceWaiter policy grant.clock grant.waiters
    grant.recorded grant.host).map Waiter.waiterId = some grant.waiter.waiterId

namespace LeaseWorld

/-- What a step adds to the history. -/
structure Logged (policy : AdmissionPolicy Host Request Reservation)
    (world next : LeaseWorld Host Request) : Prop where
  removals : ∀ removal ∈ next.removals,
    removal ∈ world.removals ∨ removal.justified = true
  bindings : ∀ binding ∈ next.bindings,
    binding ∈ world.bindings ∨ binding.removed = false
  grants : ∀ grant ∈ next.grants, grant ∈ world.grants ∨ Granted policy grant

section Phases

variable {policy : AdmissionPolicy Host Request Reservation}
  {world next : LeaseWorld Host Request} {call : Nat} {host : Host}
  {choice : Bool}

theorem Logged.same (removals : next.removals = world.removals)
    (bindings : next.bindings = world.bindings)
    (grants : next.grants = world.grants) : Logged policy world next := by
  refine ⟨?_, ?_, ?_⟩
  · rw [removals]
    intro removal member
    exact .inl member
  · rw [bindings]
    intro binding member
    exact .inl member
  · rw [grants]
    intro grant member
    exact .inl member

theorem Logged.refl : Logged policy world world := Logged.same rfl rfl rfl

variable {lease : Lease Request} {leaseId : Nat}
  {phase : LeasePhase Host Request}
  {task : Option (AdmissionTask Host Request)}
  {kept : List (Nat × Lease Request)} {leases : List (Lease Request)}
  {waiters : List (Waiter Request)}

theorem removeLease_logged {released : Bool}
    (justified : (world.removal lease released).justified = true) :
    Logged policy world (world.removeLease lease released) := by
  refine ⟨?_, fun _ member => .inl member, fun _ member => .inl member⟩
  intro removal member
  rcases mem_append.mp member with old | new
  · exact .inl old
  · rw [mem_singleton.mp new]
    exact .inr justified

theorem recordBinding_logged (store : world.StoreInvariant)
    (recorded : world.leases.get? leaseId = some lease) :
    Logged policy world (world.recordBinding leaseId) := by
  refine ⟨fun _ member => .inl member, ?_, fun _ member => .inl member⟩
  intro binding member
  rcases mem_append.mp member with old | new
  · exact .inl old
  · rw [mem_singleton.mp new]
    right
    rw [any_eq_false]
    intro removal removed same
    have gone := (store.removed removal removed).2
    rw [beq_iff_eq.mp same, recorded] at gone
    cases gone

theorem started_of_phase (entered : world.phase call = phase)
    (busy : phase.isIdle = false) : (world.phase call).isIdle = false := by
  rw [entered]
  exact busy

theorem locked_of_phase (own : world.CallInvariant call)
    (entered : world.phase call = phase) (holds : phase.isLocked = true) :
    world.lock = some call := by
  apply own.locked
  rw [entered]
  exact holds

theorem free_alters (free : world.lock = none) (lock : Option Nat) :
    Alters world { world with lock } call :=
  ⟨fun _ _ => rfl, rfl, .inr (.inl free), .inl rfl, Nat.le_refl _,
    fun _ absent => .inl absent⟩

theorem acquireLock_invariant (invariant : world.Invariant)
    (started : (world.phase call).isIdle = false)
    (plain : phase.isPlain = true) (binding : ∀ binding,
      phase.binding? = some binding →
      (world.phase call).binding? = some binding) (waiter : ∀ waiter,
      phase.waiter? = some waiter → (world.phase call).waiter? = some waiter) :
    (world.acquireLock call phase).Invariant := by
  have store := invariant.store
  unfold acquireLock
  split
  case h_1 free =>
    apply invariant.enterPlain (free_alters free (some call)) rfl _ started
      plain _ binding waiter
    · exact ⟨store.table, store.leases, store.waiters, store.removed⟩
    · intro _
      rfl
  case h_2 => exact invariant

theorem acquireLock_logged :
    Logged policy world (world.acquireLock call phase) := by
  unfold acquireLock
  split
  case h_1 => exact Logged.same rfl rfl rfl
  case h_2 => exact Logged.refl

theorem lock_invariant (invariant : world.Invariant)
    (phase : world.phase call = .locking task) :
    (world.acquireLock call (.pruning task world.leases.keys [])).Invariant :=
    by
  have store := invariant.store
  have started := started_of_phase phase rfl
  unfold acquireLock
  split
  case h_2 => exact invariant
  case h_1 free =>
    have alters : Alters world { world with lock := some call } call :=
      free_alters free (some call)
    apply invariant.altered alters.enter
    · exact ⟨store.table, store.leases, store.waiters, store.removed⟩
    · apply pruning_own phase_enter_self
      · exact invariant.row alters rfl started
      · rfl
      · exact ⟨world.leases.entries, rfl, rfl⟩
      · intro waiter owned
        apply (invariant.calls call).waiter
        rw [phase]
        exact owned
    · rw [phase_enter_self, phase]
      intro waiter owned
      exact ⟨waiter, owned, rfl⟩

theorem prune_step {id : Nat} {rest : List Nat} (invariant : world.Invariant)
    (phase : world.phase call = .pruning task (id :: rest) kept)
    (trusted : ∀ lease, world.leases.get? id = some lease →
      world.misjudges call lease = false) :
    (world.prune call task id rest kept).Invariant ∧
    Logged policy world (world.prune call task id rest kept) := by
  have store := invariant.store
  have own := invariant.calls call
  have started := started_of_phase phase rfl
  have locked := locked_of_phase own phase rfl
  have waiter : ∀ waiter, task.map AdmissionTask.waiter = some waiter →
      waiter.waiterId < world.issued ∧ waiter.token = waiter.waiterId + 1 := by
    intro waiter owned
    apply own.waiter
    rw [phase]
    exact owned
  obtain ⟨left, entries, keys⟩ := own.scanned task (id :: rest) kept phase
  cases left with
  | nil => cases keys
  | cons entry left =>
    obtain ⟨key, lease⟩ := entry
    obtain ⟨same, others⟩ := cons_eq_cons.mp keys
    subst same
    have found : world.leases.get? key = some lease := by
      rw [Record.get?_eq_some, entries]
      simp
    obtain ⟨named, _, known⟩ := store.leases key lease found
    unfold prune
    rw [found]
    dsimp only
    split
    case isTrue stale =>
      have recorded : world.leases.get? lease.leaseId = some lease := by
        rw [named]
        exact found
      have alters : Alters world (world.removeLease lease false) call :=
        removeLease_alters locked
      refine ⟨?_, ?_⟩
      · apply invariant.altered alters.enter
        · exact (store.removeLease recorded).enter
        · apply pruning_own phase_enter_self
          · exact invariant.row alters rfl started
          · exact locked
          · refine ⟨left, ?_, others⟩
            rw [← named] at entries
            exact Record.entries_delete_of_split entries
          · exact waiter
        · rw [phase_enter_self, phase]
          intro mine owned
          exact ⟨mine, owned, rfl⟩
      · have justified := stale_justified store.table known
          (trusted lease found) stale
        have logged : Logged policy world (world.removeLease lease false) :=
          removeLease_logged justified
        exact ⟨logged.removals, logged.bindings, logged.grants⟩
    case isFalse =>
      refine ⟨?_, Logged.same rfl rfl rfl⟩
      have alters : Alters world world call := Alters.refl
      apply invariant.altered alters.enter store.enter
      · apply pruning_own phase_enter_self
        · exact invariant.row alters rfl started
        · exact locked
        · refine ⟨left, ?_, others⟩
          rw [append_assoc]
          exact entries
        · exact waiter
      · rw [phase_enter_self, phase]
        intro mine owned
        exact ⟨mine, owned, rfl⟩

theorem kept_values (own : world.CallInvariant call)
    (phase : world.phase call = .pruning task [] kept) :
    world.leases.values = kept.map Prod.snd := by
  obtain ⟨rest, entries, keys⟩ := own.scanned task [] kept phase
  rw [map_eq_nil_iff.mp keys, append_nil] at entries
  rw [Record.values, entries]

theorem surveying_invariant {remaining : List Nat}
    (invariant : world.Invariant) (alters : Alters world next call)
    (same : next.calls call = world.calls call) (store : next.StoreInvariant)
    (started : (world.phase call).isIdle = false)
    (locked : next.lock = some call) (values : next.leases.values = leases)
    (owner : (world.phase call).waiter? = task.map AdmissionTask.waiter) :
    (next.enter call (.surveying task leases remaining waiters)).Invariant :=
    by
  apply invariant.altered alters.enter store.enter
  · apply surveying_own phase_enter_self
    · exact invariant.row alters same started
    · exact locked
    · exact values
    · intro waiter mine
      rw [← owner] at mine
      obtain ⟨used, token⟩ := (invariant.calls call).waiter waiter mine
      exact ⟨Nat.lt_of_lt_of_le used alters.issued, token⟩
  · rw [phase_enter_self, owner]
    intro waiter mine
    exact ⟨waiter, mine, rfl⟩

theorem fit_invariant {task : AdmissionTask Host Request}
    (invariant : world.Invariant)
    (phase : world.phase call = .pruning (some task) [] kept) :
    (world.fit call policy task (kept.map Prod.snd)).Invariant := by
  have own := invariant.calls call
  have store := invariant.store
  have started := started_of_phase phase rfl
  have locked := locked_of_phase own phase rfl
  have owned : (world.phase call).waiter? = some task.waiter :=
    congrArg LeasePhase.waiter? phase
  have known := own.waiter task.waiter owned
  have values := kept_values own phase
  unfold fit
  dsimp only
  split
  case isTrue =>
    have alters : Alters world (world.withWaiters (world.waiters.set
        task.waiter.waiterId { task.waiter with
          request := policy.normalize (policy.fit task.host
            (kept.map Prod.snd) task.request world.clock
            task.waiter.owner.pid) })) call := by
      refine ⟨fun _ _ => rfl, rfl, .inl rfl, .inl rfl, Nat.le_refl _, ?_⟩
      intro id absent
      rw [withWaiters]
      rw [Record.get?_set]
      split
      case isTrue same => exact .inr (.inr ⟨task.waiter, owned, same.symm⟩)
      case isFalse => exact .inl absent
    apply invariant.altered alters.enter
    · apply StoreInvariant.enter
      apply store.withWaiters
      intro id waiter found
      rw [Record.get?_set] at found
      split at found
      case isTrue same =>
        cases found
        rw [same]
        exact .inr ⟨known.1, known.2, rfl⟩
      case isFalse => exact .inl found
    · apply surveying_own phase_enter_self
      · exact invariant.row alters rfl started
      · exact locked
      · exact values
      · intro waiter mine
        cases mine
        exact known
    · rw [phase_enter_self]
      intro waiter mine
      cases mine
      exact ⟨task.waiter, owned, rfl⟩
  case isFalse =>
    exact surveying_invariant invariant Alters.refl rfl store started locked
      values owned

theorem fit_logged {task : AdmissionTask Host Request} :
    Logged policy world (world.fit call policy task leases) := by
  unfold fit
  dsimp only
  split
  case isTrue | isFalse => exact Logged.same rfl rfl rfl

theorem survey_step {id : Nat} {rest : List Nat} (invariant : world.Invariant)
    (phase : world.phase call = .surveying task leases (id :: rest) waiters) :
    (world.survey call task leases id rest waiters).Invariant ∧
    Logged policy world (world.survey call task leases id rest waiters) := by
  have own := invariant.calls call
  have started := started_of_phase phase rfl
  have locked := locked_of_phase own phase rfl
  have values := own.surveyed task leases (id :: rest) waiters phase
  have owner : (world.phase call).waiter? = task.map AdmissionTask.waiter :=
    congrArg LeasePhase.waiter? phase
  unfold survey
  split
  case h_1 =>
    refine ⟨?_, Logged.same rfl rfl rfl⟩
    exact surveying_invariant invariant Alters.refl rfl invariant.store
      started locked values owner
  case h_2 waiter found =>
    split
    case isTrue =>
      obtain ⟨left, same⟩ := world.removeResourceWaiter_eq waiter
      have alters : Alters world (world.removeResourceWaiter waiter) call :=
        removeResourceWaiter_alters
      have store : (world.removeResourceWaiter waiter).StoreInvariant :=
        invariant.store.removeResourceWaiter
      rw [same] at alters store ⊢
      refine ⟨?_, Logged.same rfl rfl rfl⟩
      exact surveying_invariant invariant alters rfl store started locked
        values owner
    case isFalse =>
      refine ⟨?_, Logged.same rfl rfl rfl⟩
      exact surveying_invariant invariant Alters.refl rfl invariant.store
        started locked values owner

theorem admit_step {task : AdmissionTask Host Request}
    (invariant : world.Invariant)
    (phase : world.phase call = .surveying (some task) leases [] waiters) :
    (world.admitTask call policy task leases waiters).Invariant ∧
    Logged policy world (world.admitTask call policy task leases waiters) := by
  have own := invariant.calls call
  have store := invariant.store
  have started := started_of_phase phase rfl
  have locked := locked_of_phase own phase rfl
  have values := own.surveyed (some task) leases [] waiters phase
  have owned : (world.phase call).waiter? = some task.waiter :=
    congrArg LeasePhase.waiter? phase
  obtain ⟨info, row⟩ := own.process started
  unfold admitTask
  dsimp only
  split
  case isTrue condition =>
    obtain ⟨admitted, selected⟩ := condition
    refine ⟨?_, ?_⟩
    · apply invariant.enterPlain (recordLease_alters locked) rfl _ started rfl
      · intro _
        exact locked
      · exact kept_none
      · intro waiter mine
        rw [owned]
        exact mine
      · apply store.recordLease rfl
        refine ⟨⟨info, row, ?_⟩, fun _ => rfl, ?_⟩
        · unfold createLease evidence
          rw [row]
        · intro isolated
          cases isolated
    · refine ⟨fun _ member => .inl member, fun _ member => .inl member, ?_⟩
      intro grant member
      rcases mem_append.mp member with old | new
      · exact .inl old
      · rw [mem_singleton.mp new]
        right
        refine ⟨?_, ?_⟩
        · dsimp only
          rw [values]
          exact admitted
        · dsimp only
          rw [values]
          exact selected
  case isFalse =>
    refine ⟨?_, Logged.same rfl rfl rfl⟩
    have alters : Alters world (world.unlock call) call := Alters.refl.unlock
    apply invariant.enterPlain alters rfl store.unlock started rfl
    · intro impossible
      cases impossible
    · exact kept_none
    · intro waiter mine
      rw [owned]
      exact mine

theorem leave_invariant {waiter : Waiter Request} {outcome : AcquireOutcome}
    (invariant : world.Invariant) (alters : Alters world next call)
    (same : next.calls call = world.calls call) (store : next.StoreInvariant)
    (owned : (world.phase call).waiter? = some waiter) :
    (next.enter call (.leaving waiter outcome)).Invariant := by
  have started : (world.phase call).isIdle = false := by
    cases phase : world.phase call with
    | idle =>
      rw [phase] at owned
      cases owned
    | _ => rfl
  apply invariant.enterPlain alters same store started rfl
  · intro impossible
    cases impossible
  · exact kept_none
  · intro mine equal
    rw [owned]
    exact equal

theorem exit_invariant {waiter : Waiter Request} {outcome : AcquireOutcome}
    (invariant : world.Invariant) (phase : world.phase call = .leaving waiter
    outcome) : ((world.removeResourceWaiter waiter).enter call (.exited (some
    waiter) outcome)).Invariant := by
  have own := invariant.calls call
  have started := started_of_phase phase rfl
  have owned : (world.phase call).waiter? = some waiter :=
    congrArg LeasePhase.waiter? phase
  have known := own.waiter waiter owned
  have alters : Alters world (world.removeResourceWaiter waiter) call :=
    removeResourceWaiter_alters
  have store : (world.removeResourceWaiter waiter).StoreInvariant :=
    invariant.store.removeResourceWaiter
  have gone := removeResourceWaiter_gone invariant.store known.2
  obtain ⟨left, same⟩ := world.removeResourceWaiter_eq waiter
  rw [same] at alters store gone ⊢
  apply invariant.altered alters.enter store.enter
  · apply exited_own phase_enter_self
    · exact invariant.row alters rfl started
    · exact known
    · exact gone
  · rw [phase_enter_self, owned]
    intro mine equal
    exact ⟨mine, equal, rfl⟩

theorem finish_step {ok : Bool} (invariant : world.Invariant)
    (started : (world.phase call).isIdle = false) :
    (world.finish call ok).Invariant ∧
    Logged policy world (world.finish call ok) := by
  refine ⟨?_, Logged.same rfl rfl rfl⟩
  exact invariant.finish Alters.refl rfl invariant.store started

theorem bindRead_step {binding : LeaseBinding} {observedStart : Option Nat}
    (invariant : world.Invariant)
    (phase : world.phase call = .bindReading binding observedStart) :
    (world.bindRead call binding observedStart).Invariant ∧
    Logged policy world (world.bindRead call binding observedStart) := by
  have own := invariant.calls call
  have started := started_of_phase phase rfl
  have locked := locked_of_phase own phase rfl
  have bound : (world.phase call).binding? = some binding :=
    congrArg LeasePhase.binding? phase
  unfold bindRead
  split
  case h_1 => exact finish_step invariant started
  case h_2 lease found =>
    split
    case isTrue => exact finish_step invariant started
    case isFalse =>
      split
      case isTrue =>
        split
        case isTrue =>
          refine ⟨?_, ?_⟩
          · exact invariant.finish Alters.refl.recordBinding rfl
              invariant.store.recordBinding started
          · have logged : Logged policy world
                (world.recordBinding binding.leaseId) :=
              recordBinding_logged invariant.store found
            exact ⟨logged.removals, logged.bindings, logged.grants⟩
        case isFalse => exact finish_step invariant started
      case isFalse =>
        refine ⟨?_, Logged.same rfl rfl rfl⟩
        have alters : Alters world world call := Alters.refl
        apply invariant.altered alters.enter invariant.store.enter
        · apply writing_own phase_enter_self
          · exact invariant.row alters rfl started
          · exact locked
          · exact own.binding binding bound
          · exact found
        · rw [phase_enter_self]
          intro waiter mine
          cases mine

theorem bindWrite_step {binding : LeaseBinding} {observedStart : Option Nat}
    (invariant : world.Invariant)
    (phase : world.phase call = .bindWriting binding observedStart lease) :
    (world.bindWrite call binding observedStart lease).Invariant ∧ Logged
    policy world (world.bindWrite call binding observedStart lease) := by
  have own := invariant.calls call
  have started := started_of_phase phase rfl
  have locked := locked_of_phase own phase rfl
  have bound : (world.phase call).binding? = some binding :=
    congrArg LeasePhase.binding? phase
  have recorded := own.writing binding observedStart lease phase
  obtain ⟨info, row, pid⟩ := own.binding binding bound
  have logged : Logged policy world (world.recordBinding binding.leaseId) :=
    recordBinding_logged invariant.store recorded
  unfold bindWrite
  refine ⟨?_, logged.removals, logged.bindings, logged.grants⟩
  have alters : Alters world (world.withLeases (world.leases.set
      binding.leaseId { lease with
        boundAt := some world.clock
        owner := {
          kind := .process
          __ := binding
          processStartedAt := observedStart.getD world.clock
          processGroupId :=
            if binding.processGroupIsolated then some binding.pid else none
          process := binding.child } })) call := withLeases_alters locked
  apply invariant.finish alters.recordBinding rfl _ started
  apply StoreInvariant.recordBinding
  apply invariant.store.withLeases recorded
  · rfl
  · refine ⟨⟨info, row, pid⟩, ?_, ?_⟩
    · intro impossible
      cases impossible
    · intro isolated
      dsimp only at isolated ⊢
      rw [isolated, if_pos rfl]

theorem enter_step (invariant : world.Invariant)
    (started : (world.phase call).isIdle = false)
    (plain : phase.isPlain = true) (unlocked : phase.isLocked = false)
    (binding : ∀ binding, phase.binding? = some binding →
      (world.phase call).binding? = some binding) (waiter : ∀ waiter,
      phase.waiter? = some waiter → (world.phase call).waiter? = some waiter) :
    (world.enter call phase).Invariant ∧
    Logged policy world (world.enter call phase) := by
  refine ⟨?_, Logged.same rfl rfl rfl⟩
  have alters : Alters world world call := Alters.refl
  apply invariant.enterPlain alters rfl invariant.store started plain _
    binding waiter
  intro locked
  rw [unlocked] at locked
  cases locked

theorem releaseRead_step {token : Nat} (invariant : world.Invariant)
    (phase : world.phase call = .releaseReading leaseId token) :
    (world.releaseRead call leaseId token).Invariant ∧
    Logged policy world (world.releaseRead call leaseId token) := by
  have started := started_of_phase phase rfl
  unfold releaseRead
  split
  case h_1 => exact finish_step invariant started
  case h_2 lease found =>
    split
    case isTrue => exact finish_step invariant started
    case isFalse =>
      split
      case isTrue | isFalse =>
        exact enter_step invariant started rfl rfl kept_none kept_none

theorem releaseRemove_step {token : Nat} {observed : Option (Nat × Option Nat)}
    (invariant : world.Invariant)
    (phase : world.phase call = .releaseRemoving leaseId token observed) :
    (world.releaseRemove call leaseId token observed).Invariant ∧
    Logged policy world (world.releaseRemove call leaseId token observed) := by
  have store := invariant.store
  have started := started_of_phase phase rfl
  have locked := locked_of_phase (invariant.calls call) phase rfl
  unfold releaseRemove
  split
  case h_1 => exact finish_step invariant started
  case h_2 lease found =>
    dsimp only
    obtain ⟨named, _, _⟩ := store.leases leaseId lease found
    have recorded : world.leases.get? lease.leaseId = some lease := by
      rw [named]
      exact found
    split
    case isTrue => exact finish_step invariant started
    case isFalse =>
      split
      case isTrue => exact finish_step invariant started
      case isFalse =>
        have alters : Alters world (world.removeLease lease true) call :=
          removeLease_alters locked
        have logged : Logged policy world (world.removeLease lease true) :=
          removeLease_logged rfl
        refine ⟨?_, logged.removals, logged.bindings, logged.grants⟩
        exact invariant.finish alters rfl (store.removeLease recorded) started

theorem fail_step {cancelled : Bool} (invariant : world.Invariant) :
    (world.fail call cancelled).Invariant ∧
    Logged policy world (world.fail call cancelled) := by
  unfold fail
  split
  case isTrue => exact ⟨invariant, Logged.refl⟩
  case isFalse busy =>
    have started : (world.phase call).isIdle = false := by
      cases phase : world.phase call with
      | idle =>
        rw [phase] at busy
        exact absurd rfl busy
      | _ => rfl
    split
    case h_1 => exact finish_step invariant started
    case h_2 waiter owned =>
      refine ⟨?_, Logged.same rfl rfl rfl⟩
      have alters : Alters world (world.unlock call) call := Alters.refl.unlock
      exact leave_invariant invariant alters rfl invariant.store.unlock owned

theorem advance_step (invariant : world.Invariant)
    (trusted : ∀ task id rest kept lease,
      world.phase call = .pruning task (id :: rest) kept →
      world.leases.get? id = some lease → world.misjudges call lease = false) :
    (world.advance call policy host choice).Invariant ∧
    Logged policy world (world.advance call policy host choice) := by
  have store := invariant.store
  cases phase : world.phase call with
  | idle =>
    rw [advance, phase]
    exact ⟨invariant, Logged.refl⟩
  | attempting waiter request =>
    have started := started_of_phase phase rfl
    rw [advance, phase]
    apply enter_step invariant started rfl rfl
    · exact kept_none
    · intro mine owned
      rw [phase]
      exact owned
  | locking task =>
    rw [advance, phase]
    exact ⟨lock_invariant invariant phase, acquireLock_logged⟩
  | pruning task remaining kept =>
    cases remaining with
    | cons id rest =>
      rw [advance, phase]
      apply prune_step invariant phase
      intro lease found
      exact trusted task id rest kept lease phase found
    | nil =>
      cases task with
      | some task =>
        rw [advance, phase]
        exact ⟨fit_invariant invariant phase, fit_logged⟩
      | none =>
        have started := started_of_phase phase rfl
        have locked := locked_of_phase (invariant.calls call) phase rfl
        rw [advance, phase]
        refine ⟨?_, Logged.same rfl rfl rfl⟩
        apply surveying_invariant invariant Alters.refl rfl store
          started locked (kept_values (invariant.calls call) phase)
        rw [phase]
        rfl
  | surveying task leases remaining waiters =>
    cases remaining with
    | cons id rest =>
      rw [advance, phase]
      exact survey_step invariant phase
    | nil =>
      cases task with
      | some task =>
        rw [advance, phase]
        exact admit_step invariant phase
      | none =>
        have started := started_of_phase phase rfl
        rw [advance, phase]
        exact finish_step invariant started
  | dequeuing waiter leaseId =>
    rw [advance, phase]
    have owned : (world.phase call).waiter? = some waiter :=
      congrArg LeasePhase.waiter? phase
    have alters : Alters world (world.removeResourceWaiter waiter) call :=
      removeResourceWaiter_alters
    have removed : (world.removeResourceWaiter waiter).StoreInvariant :=
      store.removeResourceWaiter
    obtain ⟨left, same⟩ := world.removeResourceWaiter_eq waiter
    dsimp only
    rw [same] at alters removed ⊢
    refine ⟨?_, Logged.same rfl rfl rfl⟩
    exact leave_invariant invariant alters.unlock rfl removed.unlock owned
  | deferred waiter request reason =>
    have started := started_of_phase phase rfl
    have owned : (world.phase call).waiter? = some waiter :=
      congrArg LeasePhase.waiter? phase
    rw [advance, phase]
    dsimp only
    split
    case isTrue =>
      apply enter_step invariant started rfl rfl
      · exact kept_none
      · intro mine same
        rw [owned]
        exact same
    case isFalse =>
      refine ⟨?_, Logged.same rfl rfl rfl⟩
      exact leave_invariant invariant Alters.refl rfl store owned
  | leaving waiter outcome =>
    rw [advance, phase]
    refine ⟨exit_invariant invariant phase, ?_⟩
    obtain ⟨left, same⟩ := world.removeResourceWaiter_eq waiter
    dsimp only
    rw [same]
    exact Logged.same rfl rfl rfl
  | exited waiter outcome =>
    rw [advance, phase]
    exact ⟨invariant, Logged.refl⟩
  | bindObserving binding =>
    have started := started_of_phase phase rfl
    rw [advance, phase]
    apply enter_step invariant started rfl rfl
    · intro other bound
      rw [phase]
      exact bound
    · exact kept_none
  | bindLocking binding observedStart =>
    have started := started_of_phase phase rfl
    rw [advance, phase]
    refine ⟨?_, acquireLock_logged⟩
    apply acquireLock_invariant invariant started rfl
    · intro other bound
      rw [phase]
      exact bound
    · exact kept_none
  | bindReading binding observedStart =>
    rw [advance, phase]
    exact bindRead_step invariant phase
  | bindWriting binding observedStart lease =>
    rw [advance, phase]
    exact bindWrite_step invariant phase
  | releaseReading leaseId token =>
    rw [advance, phase]
    exact releaseRead_step invariant phase
  | releaseObserving leaseId token pid =>
    have started := started_of_phase phase rfl
    rw [advance, phase]
    exact enter_step invariant started rfl rfl kept_none kept_none
  | releaseLocking leaseId token observed =>
    have started := started_of_phase phase rfl
    rw [advance, phase]
    refine ⟨?_, acquireLock_logged⟩
    exact acquireLock_invariant invariant started rfl kept_none kept_none
  | releaseRemoving leaseId token observed =>
    rw [advance, phase]
    exact releaseRemove_step invariant phase
  | done ok | crashed =>
    rw [advance, phase]
    exact ⟨invariant, Logged.refl⟩

end Phases

end LeaseWorld

end MachineBridge.Resources
