import MachineBridge.Resources.ResourceRequest
import Mathlib.Algebra.Order.Group.MinMax
import Mathlib.Data.List.GetD

/-!
# Accounting for nested leases

A process which holds a lease may start another one which asks for a lease of
its own.  The lease of the parent is an envelope: it covers its children, and
only what they take together beyond it is counted.  Links which form a cycle,
or leases of the same name, are not taken for a forest; then every lease is
counted in full.
-/

namespace MachineBridge.Resources

/-- The names of leases.  A request which is not granted yet is pending; a lease
without an identifier is named after its place. -/
inductive LeaseName where
  | lease (id : Nat)
  | pending
  | anonymous (index : Nat)
deriving DecidableEq

structure AccountedLease where
  leaseId : Option LeaseName
  request : ResourceRequest

def Lease.accounted (lease : Lease ValidRequest) : AccountedLease where
  leaseId := some (.lease lease.leaseId)
  request := lease.request.val

/-- `heavyLeases` counts the roots, or all leases where there is no forest. -/
structure Aggregate where
  amounts : Amounts
  heavyLeases : Nat

def emptyAggregate : Aggregate where
  amounts := 0
  heavyLeases := 0

def requestVector (request : ResourceRequest) : Amounts :=
  fun key => max 0 (request.amount key)

abbrev ParentLinks := LeaseName → Option LeaseName

def leaseKey (index : Nat) (lease : AccountedLease) : LeaseName :=
  lease.leaseId.getD (.anonymous index)

section

variable (leases : List AccountedLease)

/-- Two leases of the same name are not told apart. -/
def indexLeases : Option (List (LeaseName × ResourceRequest)) :=
  let entries := leases.mapIdx fun index lease =>
    (leaseKey index lease, lease.request)
  if (entries.map Prod.fst).Nodup then some entries else none

def naiveAggregate : Aggregate :=
  leases.foldl (fun total lease =>
    if lease.request.heavy = false then total
    else
      { amounts := total.amounts + requestVector lease.request
        heavyLeases := total.heavyLeases + 1 }) emptyAggregate

/-- Follow the links until they leave the leases.  `none` stands for a loop which
has not ended. -/
def followParents (ids : List LeaseName) (parents : ParentLinks) :
    Nat → List LeaseName → Option LeaseName → Option Bool
  | 0, _, _ => none
  | _ + 1, _, none => some true
  | fuel + 1, seen, some current =>
    if current ∈ ids then
      if current ∈ seen then some false
      else followParents ids parents fuel (current :: seen)
        (parents current)
    else some true

def checkStarts (ids : List LeaseName) (parents : ParentLinks) (fuel : Nat) :
    List LeaseName → Option Bool
  | [] => some true
  | start :: rest =>
    match followParents ids parents fuel [] (some start) with
    | some true => checkStarts ids parents fuel rest
    | other => other

def validParentForest (parents : ParentLinks) (fuel : Nat) : Option Bool :=
  let ids := leases.filterMap AccountedLease.leaseId
  checkStarts ids parents fuel (ids.filter fun id => (parents id).isSome)

end

section Effective

variable (indexed : List (LeaseName × ResourceRequest))
  (parents : ParentLinks)

def childrenOf (id : LeaseName) : List LeaseName :=
  (indexed.map Prod.fst).filter fun child => parents child = some id

def rootsOf : List LeaseName :=
  (indexed.map Prod.fst).filter fun id =>
    (parents id).all fun parent => parent ∉ indexed.map Prod.fst

def ownVector (id : LeaseName) : Amounts :=
  match indexed.lookup id with
  | none => 0
  | some request => requestVector request

/-- What a lease takes together with those below it.  `none` stands for a
recursion which has not returned. -/
def effective : Nat → LeaseName → Option Amounts
  | 0, _ => none
  | fuel + 1, id => do
    let shares ← (childrenOf indexed parents id).mapM (effective fuel)
    let childSum := shares.foldl (· + ·) 0
    some fun key => max (ownVector indexed id key) (childSum key)

end Effective

def aggregateEffective (leases : List AccountedLease) (parents : ParentLinks)
    (fuel : Nat) : Option Aggregate :=
  match indexLeases leases with
  | none => some (naiveAggregate leases)
  | some indexed =>
    match validParentForest leases parents fuel with
    | none => none
    | some false => some (naiveAggregate leases)
    | some true => do
      let roots := rootsOf indexed parents
      let shares ← roots.mapM (effective indexed parents fuel)
      some { amounts := shares.foldl (· + ·) 0
             heavyLeases := roots.length }

structure LeaseAccounting where
  parentByLeaseId : Nat → Option Nat
  parentLeaseId : Option Nat
  ancestorLeaseIds : List Nat

def LeaseAccounting.empty : LeaseAccounting where
  parentByLeaseId := fun _ => none
  parentLeaseId := none
  ancestorLeaseIds := []

namespace LeaseAccounting

variable (accounting : LeaseAccounting)

def parents : ParentLinks
  | .lease id => (accounting.parentByLeaseId id).map .lease
  | .pending => none
  | .anonymous _ => none

/-- The links when the request is granted. -/
def afterParents : ParentLinks
  | .lease id => (accounting.parentByLeaseId id).map .lease
  | .pending => accounting.parentLeaseId.map .lease
  | .anonymous _ => none

end LeaseAccounting

def pendingLease (request : ResourceRequest) : AccountedLease where
  leaseId := some .pending
  request := request

section

variable (leases : List AccountedLease)

/-- Enough for the loops and the recursion over these leases to end. -/
def fuelFor : Nat := leases.length + 1

def aggregateAccounted (parents : ParentLinks) : Aggregate :=
  (aggregateEffective leases parents (fuelFor leases)).getD
    (naiveAggregate leases)

end

section

variable (leases : List (Lease ValidRequest))

def aggregateResourceLeases (accounting : LeaseAccounting) : Aggregate :=
  aggregateAccounted (leases.map Lease.accounted) accounting.parents

def aggregateWithRequest (request : ResourceRequest)
    (accounting : LeaseAccounting) : Aggregate :=
  aggregateAccounted (leases.map Lease.accounted ++ [pendingLease request])
    accounting.afterParents

def resourceRequestIncrement (request : ResourceRequest)
    (accounting : LeaseAccounting) : Amounts :=
  let before := aggregateResourceLeases leases accounting
  let after := aggregateWithRequest leases request accounting
  fun key => max 0 (after.amounts key - before.amounts key)

/-- The identifiers of processes are positive. -/
def normalizePid (value : Option Nat) : Option Nat :=
  value.filter fun pid => 0 < pid

def processOwnerPid (lease : Lease ValidRequest) : Option Nat :=
  if lease.owner.kind = .process then normalizePid (some lease.owner.pid)
  else none

/-- The processes which own leases, each with its lease. -/
def ownersByPid : List (Nat × Nat) :=
  leases.filterMap fun lease =>
    (processOwnerPid lease).map fun pid => (pid, lease.leaseId)

end

section Ancestry

variable (parentPids : Nat → Option Nat)

def parentPid (pid : Nat) : Option Nat := normalizePid (parentPids pid)

def nearestLease (owners : List (Nat × Nat)) (excludedLeaseId : Option Nat) :
    Nat → List Nat → Option Nat → Option Nat
  | 0, _, _ => none
  | _ + 1, _, none => none
  | depth + 1, seen, some pid =>
    if pid ∈ seen then none
    else
      let rest := nearestLease owners excludedLeaseId depth (pid :: seen)
        (parentPid parentPids pid)
      match owners.lookup pid with
      | none => rest
      | some id => if some id = excludedLeaseId then rest else some id

def maxAncestry : Nat := 2048

/-- The links of the leases; of two leases of one name the later one counts. -/
def parentLinks (owners : List (Nat × Nat)) :
    List (Lease ValidRequest) → (Nat → Option Nat) → Nat → Option Nat
  | [], links => links
  | lease :: rest, links =>
    let parent := (processOwnerPid lease).bind fun pid =>
      nearestLease parentPids owners (some lease.leaseId) maxAncestry []
        (parentPid parentPids pid)
    match parent with
    | none => parentLinks owners rest links
    | some parent =>
      parentLinks owners rest
        (Function.update links lease.leaseId (some parent))

end Ancestry

/-- The links upwards, until one is met again. -/
def leaseAncestors (links : Nat → Option Nat) :
    Nat → List Nat → Option Nat → List Nat
  | 0, _, _ => []
  | _ + 1, _, none => []
  | fuel + 1, seen, some current =>
    if current ∈ seen then []
    else current :: leaseAncestors links fuel (current :: seen)
      (links current)

/-- `none` stands for a host without a listing of its processes. -/
def resourceLeaseAccountingContext (leases : List (Lease ValidRequest))
    (processParents : Option (Nat → Option Nat)) (requesterPid : Nat) :
    LeaseAccounting :=
  match processParents with
  | none => .empty
  | some parentPids =>
    let owners := ownersByPid leases
    if (owners.map Prod.fst).Nodup then
      let links := parentLinks parentPids owners leases fun _ => none
      let accounting : LeaseAccounting :=
        { parentByLeaseId := links
          parentLeaseId := nearestLease parentPids owners none maxAncestry []
            (normalizePid (some requesterPid))
          ancestorLeaseIds := [] }
      let accounted := leases.map Lease.accounted
      if validParentForest accounted accounting.parents
          (fuelFor accounted) = some true then
        { accounting with
          ancestorLeaseIds := leaseAncestors links (leases.length + 1) []
            accounting.parentLeaseId }
      else .empty
    else .empty

end MachineBridge.Resources
