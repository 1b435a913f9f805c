import MachineBridge.Foundation.Record
import MachineBridge.Resources.ProcessTable
import Mathlib.Data.List.Sort

/-!
# Leases, waiters and their liveness

A lease is recorded for the process that coordinates it, and bound to its child
later; a waiter is recorded for a request that is not admitted yet.  Whether an
owner is still there is told from its identifier, which is looked up, and from
its start time, which may be of an earlier listing.
-/

namespace MachineBridge.Resources

inductive OwnerKind where
  | provisional
  | process
deriving DecidableEq

/-- `process` is the row of the owner, which no file tells. -/
structure LeaseOwner where
  kind : OwnerKind
  (pid processStartedAt : Nat)
  processGroupId : Option Nat := none
  processGroupIsolated : Bool := false
  process : Nat

structure Lease (Request : Type) where
  (leaseId token acquiredAt : Nat)
  boundAt : Option Nat := none
  owner : LeaseOwner
  request : Request

structure WaiterOwner where
  (pid processStartedAt : Nat)

structure Waiter (Request : Type) where
  (waiterId token enqueuedAt expiresAt : Nat)
  owner : WaiterOwner
  request : Request

inductive ResourcePriority where
  | interactive
  | ordinary
  | background
deriving DecidableEq

structure AdmissionDecision (Reservation : Type) where
  admitted : Bool
  reason : String
  reservation : Option Reservation := none

/-- How requests are judged.  A host is a sample of the host together with the
parents of its processes. -/
structure AdmissionPolicy (Host Request Reservation : Type) where
  heavy : Request → Bool
  priority : Request → ResourcePriority
  normalize : Request → Request
  reserve : Request → Reservation → Request
  differs : Request → Request → Bool
  fit : Host → List (Lease Request) → Request → Nat → Nat → Request
  evaluate : Host → List (Lease Request) → Request → Nat → Nat →
    AdmissionDecision Reservation

def provisionalTtlMs : Nat := 30000

def waiterGraceMs : Nat := 5000

def agingMs : Nat := 120000

def resourceAdmissionDecisionRetryable (reason : String) : Bool :=
  reason != "cpu_request_exceeds_launch_window"

/-- What a process knows of the others: itself, and one listing of them. -/
structure ProcessEvidence where
  (pid started : Nat)
  starts : Option ProcessStarts

def ProcessEvidence.observedStart (evidence : ProcessEvidence) (pid : Nat) :
    Option Nat :=
  if pid = evidence.pid then some evidence.started
  else processStartTimeFromSnapshot evidence.starts pid

section Liveness

variable {Request : Type} (table : ProcessTable) (now : Nat)

section

variable (lease : Lease Request)

def resourceLeaseOwnerStatusFromStart (observedStart : Option Nat) :
    ProcessInspection :=
  inspectProcessInstance (table.isPidAlive lease.owner.pid) now
    lease.owner.pid lease.acquiredAt lease.owner.processStartedAt
    observedStart

def resourceLeaseOwnerStatus (evidence : ProcessEvidence) :
    ProcessInspection :=
  resourceLeaseOwnerStatusFromStart table now lease
    (evidence.observedStart lease.owner.pid)

def leaseGroupAlive : Bool :=
  lease.owner.processGroupIsolated &&
    lease.owner.processGroupId.any table.resourceProcessGroupAlive

def provisionalExpired : Bool :=
  lease.owner.kind == .provisional &&
    decide (lease.acquiredAt + provisionalTtlMs < now)

def resourceLeaseIsStale (evidence : ProcessEvidence) : Bool :=
  let status := resourceLeaseOwnerStatus table now lease evidence
  if lease.owner.kind = .process ∧ status.reason = .pidReused then true
  else if lease.owner.kind = .process ∧ leaseGroupAlive table lease then false
  else if provisionalExpired now lease then true
  else status.reclaimable

end

def waiterIsStale (waiter : Waiter Request) (evidence : ProcessEvidence) :
    Bool :=
  if waiter.expiresAt < now then true
  else
    (inspectProcessInstance (table.isPidAlive waiter.owner.pid) now
      waiter.owner.pid waiter.enqueuedAt waiter.owner.processStartedAt
      (evidence.observedStart waiter.owner.pid)).reclaimable

end Liveness

section Selection

variable {Host Request Reservation : Type}
  (policy : AdmissionPolicy Host Request Reservation) (now : Nat)

section

variable (waiter : Waiter Request)

def waiterBaseRank : Nat :=
  match policy.priority waiter.request with
  | .interactive => 0
  | .ordinary => 1
  | .background => 2

def resourceWaiterRank : Nat :=
  waiterBaseRank policy waiter - (now - waiter.enqueuedAt) / agingMs

def resourceWaiterProtected : Bool :=
  resourceWaiterRank policy now waiter == 0 &&
    decide (max agingMs (waiterBaseRank policy waiter * agingMs) ≤
      now - waiter.enqueuedAt)

end

/-- The order of two waiters; identifiers are compared last. -/
def waiterPrecedes (left right : Waiter Request) : Bool :=
  let first := resourceWaiterRank policy now left
  let second := resourceWaiterRank policy now right
  if first ≠ second then first < second
  else if left.enqueuedAt ≠ right.enqueuedAt then
    left.enqueuedAt < right.enqueuedAt
  else left.waiterId ≤ right.waiterId

def leaseDrainReasons : List String :=
  ["project_resource_busy", "cpu_reservation", "io_reservation",
    "memory_reservation", "disk_reserve_floor"]

/-- `resourceCoordinatorEvaluator` accounts for the process of the waiter. -/
def evaluateWaiter (host : Host) (leases : List (Lease Request))
    (waiter : Waiter Request) : AdmissionDecision Reservation :=
  policy.evaluate host leases waiter.request now waiter.owner.pid

/-- A waiter which has waited so long that others have to let leases drain. -/
def drainsFor (host : Host) (leases : List (Lease Request))
    (waiter : Waiter Request) : Bool :=
  let current := evaluateWaiter policy now host leases waiter
  let empty := evaluateWaiter policy now host [] waiter
  resourceWaiterProtected policy now waiter &&
    leaseDrainReasons.contains current.reason &&
    (empty.admitted || empty.reason == "cpu_pressure_window")

def selectedResourceWaiter (waiters : List (Waiter Request))
    (leases : List (Lease Request)) (host : Host) : Option (Waiter Request) :=
  let ranked := waiters.mergeSort (waiterPrecedes policy now)
  let selected := ranked.find? fun waiter =>
    (evaluateWaiter policy now host leases waiter).admitted
  let guarded :=
    if leases.isEmpty then none
    else ranked.find? (drainsFor policy now host leases)
  let drainActive := guarded.any fun waiter =>
    selected.all (waiterPrecedes policy now waiter)
  if drainActive then none else selected

end Selection

end MachineBridge.Resources
