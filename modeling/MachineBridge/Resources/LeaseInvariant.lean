import MachineBridge.Resources.LeaseLiveness

/-!
# What the lease coordinator keeps

Identifiers are used once, the records are those which a call within the lock
has read, and a waiter belongs to one call.
-/

namespace MachineBridge.Resources

open Foundation

variable {Host Request Reservation : Type}

def LeasePhase.isLocked : LeasePhase Host Request → Bool
  | .pruning _ _ _ => true
  | .surveying _ _ _ _ => true
  | .dequeuing _ _ => true
  | .bindReading _ _ => true
  | .bindWriting _ _ _ => true
  | .releaseRemoving _ _ _ => true
  | _ => false

def LeasePhase.binding? : LeasePhase Host Request → Option LeaseBinding
  | .bindObserving binding => some binding
  | .bindLocking binding _ => some binding
  | .bindReading binding _ => some binding
  | .bindWriting binding _ _ => some binding
  | _ => none

namespace LeaseWorld

/-- The records, and what was removed from them. -/
structure StoreInvariant (world : LeaseWorld Host Request) : Prop where
  table : world.processes.Valid
  leases : ∀ id lease, world.leases.get? id = some lease →
    lease.leaseId = id ∧ id < world.issued ∧
      lease.owner.Known world.processes
  waiters : ∀ id waiter, world.waiters.get? id = some waiter →
    id < world.issued ∧ waiter.token = id + 1 ∧ waiter.waiterId = id
  removed : ∀ removal ∈ world.removals,
    removal.lease.leaseId < world.issued ∧
      world.leases.get? removal.lease.leaseId = none

structure CallInvariant (world : LeaseWorld Host Request) (call : Nat) :
    Prop where
  process : (world.phase call).isIdle = false →
    ∃ info, world.processes[(world.calls call).process]? = some info
  locked : (world.phase call).isLocked = true → world.lock = some call
  scanned : ∀ task remaining kept,
    world.phase call = .pruning task remaining kept →
    ∃ rest, world.leases.entries = kept ++ rest ∧
      rest.map Prod.fst = remaining
  surveyed : ∀ task leases remaining waiters,
    world.phase call = .surveying task leases remaining waiters →
    world.leases.values = leases
  binding : ∀ binding, (world.phase call).binding? = some binding →
    ∃ info, world.processes[binding.child]? = some info ∧
      info.pid = binding.pid
  writing : ∀ binding observedStart lease,
    world.phase call = .bindWriting binding observedStart lease →
    world.leases.get? binding.leaseId = some lease
  waiter : ∀ waiter, (world.phase call).waiter? = some waiter →
    waiter.waiterId < world.issued ∧ waiter.token = waiter.waiterId + 1
  exited : ∀ waiter outcome, world.phase call = .exited (some waiter) outcome →
    world.waiters.get? waiter.waiterId = none

structure Invariant (world : LeaseWorld Host Request) : Prop where
  store : world.StoreInvariant
  calls : ∀ call, world.CallInvariant call
  unique : ∀ first second one other,
    (world.phase first).waiter? = some one →
    (world.phase second).waiter? = some other →
    one.waiterId = other.waiterId → first = second

/-- What a step leaves to a call which does not take it. -/
structure Spares (world next : LeaseWorld Host Request) (call : Nat) :
    Prop where
  phase : next.phase call = world.phase call
  process : (next.calls call).process = (world.calls call).process
  grows : ProcessTable.Grows world.processes next.processes
  held : (world.phase call).isLocked = true → world.lock = some call →
    next.leases = world.leases ∧ next.lock = some call
  issued : world.issued ≤ next.issued
  gone : ∀ waiter outcome, world.phase call = .exited (some waiter) outcome →
    world.waiters.get? waiter.waiterId = none →
    next.waiters.get? waiter.waiterId = none

section Sparing

variable {world next : LeaseWorld Host Request} {call : Nat}

theorem CallInvariant.spared (invariant : world.CallInvariant call)
    (spares : Spares world next call) : next.CallInvariant call := by
  have phase := spares.phase
  have held : (world.phase call).isLocked = true → next.leases = world.leases ∧
      next.lock = some call := by
    intro within
    exact spares.held within (invariant.locked within)
  constructor
  · rw [phase, spares.process]
    intro started
    obtain ⟨info, found⟩ := invariant.process started
    obtain ⟨now, stored, _⟩ := spares.grows.kept _ info found
    exact ⟨now, stored⟩
  · rw [phase]
    intro within
    exact (held within).2
  · rw [phase]
    intro task remaining kept pruning
    have within : (world.phase call).isLocked = true := by
      rw [pruning]
      rfl
    rw [(held within).1]
    exact invariant.scanned task remaining kept pruning
  · rw [phase]
    intro task leases remaining waiters surveying
    have within : (world.phase call).isLocked = true := by
      rw [surveying]
      rfl
    rw [(held within).1]
    exact invariant.surveyed task leases remaining waiters surveying
  · rw [phase]
    intro binding bound
    obtain ⟨info, found, same⟩ := invariant.binding binding bound
    obtain ⟨now, stored, kept⟩ := spares.grows.kept _ info found
    exact ⟨now, stored, kept.trans same⟩
  · rw [phase]
    intro binding observedStart lease writing
    have within : (world.phase call).isLocked = true := by
      rw [writing]
      rfl
    rw [(held within).1]
    exact invariant.writing binding observedStart lease writing
  · rw [phase]
    intro waiter owned
    obtain ⟨bound, token⟩ := invariant.waiter waiter owned
    exact ⟨Nat.lt_of_lt_of_le bound spares.issued, token⟩
  · rw [phase]
    intro waiter outcome exited
    exact spares.gone waiter outcome exited
      (invariant.exited waiter outcome exited)

theorem Invariant.stepped (invariant : world.Invariant)
    (store : next.StoreInvariant)
    (spared : ∀ other, other ≠ call → Spares world next other)
    (own : next.CallInvariant call) (owner : ∀ waiter,
      (next.phase call).waiter? = some waiter → (∃ old,
        (world.phase call).waiter? = some old ∧ old.waiterId = waiter.waiterId)
      ∨ world.issued ≤ waiter.waiterId) : next.Invariant := by
  refine ⟨store, ?_, ?_⟩
  · intro other
    by_cases same : other = call
    · rw [same]
      exact own
    · exact (invariant.calls other).spared (spared other same)
  · -- The waiter of another call is neither the old one nor a new one.
    have foreign : ∀ other mine theirs, other ≠ call →
        (next.phase call).waiter? = some mine →
        (next.phase other).waiter? = some theirs →
        mine.waiterId ≠ theirs.waiterId := by
      intro other mine theirs differ ours its same
      rw [(spared other differ).phase] at its
      rcases owner mine ours with ⟨old, before, kept⟩ | new
      · exact differ (invariant.unique other call theirs old its before
          (same.symm.trans kept.symm))
      · have bound := ((invariant.calls other).waiter theirs its).1
        omega
    intro first second one other ours theirs same
    by_cases left : first = call
    · by_cases right : second = call
      · rw [left, right]
      · rw [left] at ours
        exact absurd same (foreign second one other right ours theirs)
    · by_cases right : second = call
      · rw [right] at theirs
        exact absurd same.symm (foreign first other one left theirs ours)
      · rw [(spared first left).phase] at ours
        rw [(spared second right).phase] at theirs
        exact invariant.unique first second one other ours theirs same

theorem Invariant.everywhere (invariant : world.Invariant)
    (store : next.StoreInvariant) (spared : ∀ call, Spares world next call) :
    next.Invariant := by
  refine ⟨store, ?_, ?_⟩
  · intro call
    exact (invariant.calls call).spared (spared call)
  · intro first second
    rw [(spared first).phase, (spared second).phase]
    exact invariant.unique first second

end Sparing

end LeaseWorld

end MachineBridge.Resources
