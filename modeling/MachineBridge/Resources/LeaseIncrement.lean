import MachineBridge.Resources.LeaseUsage
import Mathlib.Tactic.NormNum

/-!
# What a request adds to the usage

A request which is not granted yet is a leaf below the nearest lease of its
process.  It adds what exceeds the slack of the envelopes above it.
-/

namespace MachineBridge.Resources

open Foundation List

section Pending

variable {ids : List LeaseName} {links : ParentLinks}

section

variable (never : ∀ id, links id ≠ some .pending)
include never

theorem leaves_with_pending {steps : Nat} {current : Option LeaseName}
    (other : current ≠ some .pending)
    (leaves : Leaves ids links steps current) :
    Leaves (ids ++ [.pending]) links steps current := by
  have outside : ∀ id, some id = current → id ∉ ids →
      id ∉ ids ++ [.pending] := by
    intro id same absent member
    rcases mem_append.mp member with old | last
    · exact absent old
    · rw [mem_singleton.mp last] at same
      exact other same.symm
  induction steps generalizing current with
  | zero =>
    cases current with
    | none => trivial
    | some id => exact outside id rfl leaves
  | succ steps induction =>
    cases current with
    | none => trivial
    | some id =>
      rcases leaves with absent | next
      · exact .inl (outside id rfl absent)
      · right
        apply induction (never id) next
        intro parent same absent member
        rcases mem_append.mp member with old | last
        · exact absent old
        · rw [mem_singleton.mp last] at same
          exact never id same.symm

theorem grounded_with_pending
    (new : .pending ∉ ids) (grounded : Grounded ids links) :
    Grounded (ids ++ [.pending]) links := by
  intro id member
  rcases mem_append.mp member with old | last
  · obtain ⟨steps, leaves⟩ := grounded id old
    refine ⟨steps, leaves_with_pending never ?_ leaves⟩
    intro same
    rw [Option.some.inj same] at old
    exact new old
  · rw [mem_singleton.mp last]
    cases above : links .pending with
    | none => exact ⟨1, .inr (by rw [above]; trivial)⟩
    | some parent =>
      have other : some parent ≠ some .pending := above ▸ never .pending
      by_cases inside : parent ∈ ids
      · obtain ⟨steps, leaves⟩ := grounded parent inside
        refine ⟨steps + 1, .inr ?_⟩
        rw [above]
        exact leaves_with_pending never other leaves
      · refine ⟨1, .inr ?_⟩
        rw [above]
        have out : Leaves ids links 0 (some parent) := inside
        exact leaves_with_pending never other out

end

end Pending

section Request

variable {leases : List (Lease ValidRequest)} {accounting : LeaseAccounting}

theorem named_accounted : Named (leases.map Lease.accounted) := by
  intro lease member
  obtain ⟨original, listed, rfl⟩ := List.mem_map.mp member
  rfl

theorem heavy_accounted :
    ∀ lease ∈ leases.map Lease.accounted, lease.request.heavy = true := by
  intro lease member
  obtain ⟨original, listed, rfl⟩ := List.mem_map.mp member
  exact original.request.heavy

theorem idsOf_accounted : idsOf (leases.map Lease.accounted) =
    leases.map fun lease => .lease lease.leaseId := by
  rw [idsOf_named named_accounted, map_map]
  rfl

theorem pending_not_mem : .pending ∉ idsOf (leases.map Lease.accounted) := by
  rw [idsOf_accounted]
  simp

theorem afterParents_eq : ∀ id ∈ idsOf (leases.map Lease.accounted),
    accounting.afterParents id = accounting.parents id := by
  intro id member
  rw [idsOf_accounted] at member
  obtain ⟨lease, listed, rfl⟩ := List.mem_map.mp member
  rfl

theorem afterParents_ne_pending (id : LeaseName) :
    accounting.afterParents id ≠ some .pending := by
  cases id <;> simp [LeaseAccounting.afterParents]

section

variable (request : ResourceRequest)

theorem idsOf_with_request :
    idsOf (leases.map Lease.accounted ++ [pendingLease request]) =
    idsOf (leases.map Lease.accounted) ++ [.pending] :=
  idsOf_append rfl

theorem forested_with_request_iff : Forested
    (leases.map Lease.accounted ++ [pendingLease request])
    accounting.afterParents ↔
    Forested (leases.map Lease.accounted) accounting.parents := by
  constructor
  · intro forested
    exact forested.of_append rfl afterParents_eq
  · intro forested
    have grounded : Grounded (idsOf (leases.map Lease.accounted))
        accounting.afterParents := by
      apply forested.grounded.mono (List.Subset.refl _)
      intro id member
      exact (afterParents_eq id member).symm
    constructor
    · rw [idsOf_with_request, nodup_append]
      refine ⟨forested.distinct, nodup_singleton _, ?_⟩
      intro id member last same equal
      rw [mem_singleton.mp same] at equal
      exact pending_not_mem (equal ▸ member)
    · rw [idsOf_with_request]
      exact grounded_with_pending afterParents_ne_pending pending_not_mem
        grounded

end

/-- A request which takes `weight` of everything. -/
def uniformRequest (weight : ℚ) : ResourceRequest where
  family := "command"
  resourceClass := .mixed
  priority := .ordinary
  cpu := weight
  io := weight
  memoryMb := weight
  diskReserveBytes := weight
  heavy := true
  compilerJobs := none
  unbounded := false
  serializeProject := false
  contentionKey := none

theorem requestVector_uniformRequest {weight : ℚ} (positive : 0 ≤ weight)
    (key : ResourceKey) :
    requestVector (uniformRequest weight) key = weight := by
  cases key <;> exact max_eq_right positive

section

variable (grounded : Grounded
  (idsOf (leases.map Lease.accounted) ++ [.pending]) accounting.afterParents)

section

variable (forested : Forested (leases.map Lease.accounted) accounting.parents)
include forested

theorem withRequest_effective (request : ResourceRequest) (key : ResourceKey) :
    (leaseForest accounting.afterParents grounded).Effective (Function.update
    (fun id => ownVector (entriesOf (leases.map Lease.accounted)) id key)
    .pending (requestVector request key)) (fun id => valueOf (leases.map
    Lease.accounted ++ [pendingLease request]) accounting.afterParents id key)
    ∧ (aggregateWithRequest leases request accounting).amounts key =
    (leaseForest accounting.afterParents grounded).usage fun id => valueOf
    (leases.map Lease.accounted ++ [pendingLease request])
    accounting.afterParents id key := by
  have more : Named (leases.map Lease.accounted ++ [pendingLease request]) :=
    named_accounted.append rfl
  have larger := (forested_with_request_iff request).mpr forested
  have rule := valueOf_effective more larger.distinct larger.grounded key
  have total := amounts_of_forested more larger key
  have forests : leaseForest accounting.afterParents larger.grounded =
      leaseForest accounting.afterParents grounded := by
    congr 1
    exact idsOf_with_request request
  rw [forests] at rule total
  refine ⟨rule.congr ?_, total⟩
  intro id member
  rcases mem_append.mp (mem_toFinset.mp member) with old | last
  · have other : id ≠ .pending := by
      intro same
      exact pending_not_mem (same ▸ old)
    rw [Function.update_of_ne other, ownVector_append named_accounted old]
  · rw [mem_singleton.mp last, Function.update_self]
    exact congrFun (ownVector_fresh named_accounted rfl larger) key

theorem usage_of_nothing (bare
    : (leaseForest accounting.afterParents grounded).children .pending = ∅)
    (key : ResourceKey) : ((leaseForest accounting.afterParents grounded).usage
    fun id => valueOf (leases.map Lease.accounted ++ [pendingLease
    (uniformRequest 0)]) accounting.afterParents id key) =
    (aggregateResourceLeases leases accounting).amounts key := by
  have larger := (forested_with_request_iff (uniformRequest 0)).mpr forested
  have adds := adds_fresh rfl afterParents_eq forested.grounded larger
  have forests : leaseForest accounting.afterParents larger.grounded =
      leaseForest accounting.afterParents grounded := by
    congr 1
    exact idsOf_with_request _
  rw [forests] at adds
  have rule : (leaseForest accounting.parents forested.grounded).Effective
      (Function.update (fun id => ownVector (entriesOf (leases.map
      Lease.accounted)) id key) .pending (requestVector (uniformRequest 0)
      key)) (fun id => valueOf (leases.map Lease.accounted) accounting.parents
      id key) := by
    apply (valueOf_effective named_accounted forested.distinct
      forested.grounded key).congr
    intro id member
    symm
    apply Function.update_of_ne
    intro same
    exact pending_not_mem (same ▸ mem_toFinset.mp member)
  have grown :=
    (withRequest_effective grounded forested (uniformRequest 0) key).1
  have free : requestVector (uniformRequest 0) key = 0 :=
    requestVector_uniformRequest le_rfl key
  rw [aggregateResourceLeases, amounts_of_forested named_accounted forested]
  apply adds.usage_eq rule grown bare
  change Function.update _ _ _ LeaseName.pending = _
  rw [Function.update_self, free]

end

end

theorem exists_slack (leases : List (Lease ValidRequest))
    (accounting : LeaseAccounting) (key : ResourceKey) : ∃ slack, 0 ≤ slack ∧
    ∀ request : ResourceRequest, request.heavy = true →
    (aggregateWithRequest leases request accounting).amounts key =
    (aggregateResourceLeases leases accounting).amounts key +
    max 0 (requestVector request key - slack) := by
  by_cases forested : Forested (leases.map Lease.accounted) accounting.parents
  · have larger := (forested_with_request_iff (uniformRequest 0)).mpr forested
    have grounded := larger.grounded
    rw [idsOf_with_request] at grounded
    have rules : ∀ weight, 0 ≤ weight → (leaseForest accounting.afterParents
        grounded).Effective (Function.update (fun id => ownVector (entriesOf
        (leases.map Lease.accounted)) id key) .pending weight) (fun id =>
        valueOf (leases.map Lease.accounted ++ [pendingLease (uniformRequest
        weight)]) accounting.afterParents id key) := by
      intro weight positive
      have rule :=
        (withRequest_effective grounded forested (uniformRequest weight) key).1
      rwa [requestVector_uniformRequest positive] at rule
    have member : LeaseName.pending ∈
        (leaseForest accounting.afterParents grounded).nodes := by
      apply mem_toFinset.mpr
      exact mem_append_right _ (mem_singleton.mpr rfl)
    have bare :
        (leaseForest accounting.afterParents grounded).children .pending =
        ∅ := by
      apply Finset.eq_empty_of_forall_notMem
      intro child below
      exact afterParents_ne_pending child (Forest.mem_children.mp below).2
    obtain ⟨slack, positive, grows⟩ :=
      Forest.exists_usage_slack member bare rules
    refine ⟨slack, positive, ?_⟩
    intro request heavy
    obtain ⟨rule, total⟩ := withRequest_effective grounded forested request key
    have weight := requestVector_nonneg request key
    have same := rule.unique (rules _ weight)
    rw [total, Forest.usage_congr same, grows _ weight,
      usage_of_nothing grounded forested bare]
  · refine ⟨0, le_rfl, ?_⟩
    intro request heavy
    have wild : ¬ Forested
        (leases.map Lease.accounted ++ [pendingLease request])
        accounting.afterParents := by
      rwa [forested_with_request_iff]
    rw [aggregateWithRequest, aggregateResourceLeases,
      amounts_of_wild (named_accounted.append rfl) wild,
      amounts_of_wild named_accounted forested, map_append,
      sum_append, sub_zero, max_eq_right (requestVector_nonneg _ _)]
    congr 1
    simp [pendingLease, heavy]

theorem withRequest_light (request : ResourceRequest)
    (light : request.heavy = false) (key : ResourceKey) :
    (aggregateWithRequest leases request accounting).amounts key =
        (aggregateWithRequest leases { request with heavy := true }
          accounting).amounts key ∨
      (aggregateWithRequest leases request accounting).amounts key =
        (aggregateResourceLeases leases accounting).amounts key := by
  by_cases forested : Forested (leases.map Lease.accounted) accounting.parents
  · left
    have larger := (forested_with_request_iff (uniformRequest 0)).mpr forested
    have grounded := larger.grounded
    rw [idsOf_with_request] at grounded
    obtain ⟨rule, total⟩ := withRequest_effective grounded forested request key
    obtain ⟨other, second⟩ := withRequest_effective grounded forested
      { request with heavy := true } key
    rw [total, second]
    apply Forest.usage_congr
    apply rule.unique
    have same : requestVector { request with heavy := true } key =
        requestVector request key := by cases key <;> rfl
    rwa [same] at other
  · right
    have wild : ¬ Forested
        (leases.map Lease.accounted ++ [pendingLease request])
        accounting.afterParents := by
      rwa [forested_with_request_iff]
    rw [aggregateWithRequest, aggregateResourceLeases, amounts_of_wild
      (named_accounted.append rfl) wild, amounts_of_wild named_accounted
      forested, map_append, sum_append]
    simp [pendingLease, light]

theorem withRequest_bounds (leases : List (Lease ValidRequest))
    (accounting : LeaseAccounting) (request : ResourceRequest)
    (key : ResourceKey) :
    (aggregateResourceLeases leases accounting).amounts key ≤
    (aggregateWithRequest leases request accounting).amounts key ∧
    (aggregateWithRequest leases request accounting).amounts key ≤
    (aggregateResourceLeases leases accounting).amounts key +
    requestVector request key := by
  obtain ⟨slack, positive, grows⟩ := exists_slack leases accounting key
  have weight := requestVector_nonneg request key
  have excess :
      max 0 (requestVector request key - slack) ≤ requestVector request key :=
    max_le weight (sub_le_self _ positive)
  have lower : 0 ≤ max 0 (requestVector request key - slack) := le_max_left _ _
  have heavy : ∀ other : ResourceRequest, other.heavy = true →
      requestVector other key = requestVector request key →
      (aggregateResourceLeases leases accounting).amounts key ≤
      (aggregateWithRequest leases other accounting).amounts key ∧
      (aggregateWithRequest leases other accounting).amounts key ≤
      (aggregateResourceLeases leases accounting).amounts key +
      requestVector request key := by
    intro other heavy same
    rw [grows other heavy, same]
    exact ⟨le_add_of_nonneg_right lower, add_le_add_right excess _⟩
  cases kind : request.heavy with
  | true => exact heavy request kind rfl
  | false =>
    rcases withRequest_light request kind key with same | same
    · rw [same]
      apply heavy { request with heavy := true } rfl
      cases key <;> rfl
    · rw [same]
      exact ⟨le_rfl, le_add_of_nonneg_right weight⟩

end Request

/-- The lease is missing so far although another one names it as its parent, and
its own parent is there. -/
def FillsGap (leases : List (Lease ValidRequest))
    (accounting : LeaseAccounting) (lease : Lease ValidRequest) : Prop :=
  (∀ other ∈ leases, other.leaseId ≠ lease.leaseId) ∧
    (∃ child ∈ leases,
      accounting.parentByLeaseId child.leaseId = some lease.leaseId) ∧
    ∃ parent ∈ leases,
      accounting.parentByLeaseId lease.leaseId = some parent.leaseId

/-- What the accounting promises for some leases, whatever their links are. -/
structure Accounts (leases : List (Lease ValidRequest))
    (accounting : LeaseAccounting) (request : ResourceRequest) : Prop where
  /-- The loops and the recursion end. -/
  ends : ∀ fuel, leases.length < fuel →
    aggregateEffective (leases.map Lease.accounted) accounting.parents fuel =
      some (aggregateResourceLeases leases accounting)
  endsWithRequest : ∀ fuel, leases.length + 1 < fuel →
    aggregateEffective (leases.map Lease.accounted ++ [pendingLease request])
        accounting.afterParents fuel =
      some (aggregateWithRequest leases request accounting)
  covers : ∀ lease ∈ leases, ∀ key, lease.request.val.amount key ≤
    (aggregateResourceLeases leases accounting).amounts key
  bounded : ∀ key, (aggregateResourceLeases leases accounting).amounts key ≤
    (leases.map fun lease => lease.request.val.amount key).sum
  increment_nonneg : ∀ key,
    0 ≤ resourceRequestIncrement leases request accounting key
  increment_le : ∀ key,
    resourceRequestIncrement leases request accounting key ≤
      requestVector request key
  increment_eq : ∀ key,
    (aggregateResourceLeases leases accounting).amounts key +
        resourceRequestIncrement leases request accounting key =
      (aggregateWithRequest leases request accounting).amounts key
  monotone : ∀ lease, ¬ FillsGap leases accounting lease → ∀ key,
    (aggregateResourceLeases leases accounting).amounts key ≤
      (aggregateResourceLeases (leases ++ [lease]) accounting).amounts key

theorem requestVector_valid (request : ValidRequest) (key : ResourceKey) :
    requestVector request.val key = request.val.amount key :=
  max_eq_right (request.amount_nonneg key)

theorem uniformRequest_valid {weight : ℚ} (positive : 0 ≤ weight)
    (small : weight ≤ 1024) :
    validateResourceRequest (uniformRequest weight) = true := by
  have family : familyMatches "command" = true := by decide
  have memory : weight ≤ 16 * 1024 * 1024 := small.trans (by norm_num)
  have disk : weight ≤ 1024 ^ 5 := small.trans (by norm_num)
  simp [validateResourceRequest, uniformRequest, finiteRange,
    validCompilerJobs, family, positive, small, memory, disk]

def exampleRequest (weight : ℚ) (positive : 0 ≤ weight)
    (small : weight ≤ 1024) : ValidRequest :=
  ⟨uniformRequest weight, uniformRequest_valid positive small⟩

def exampleLease (id : Nat) (request : ValidRequest) : Lease ValidRequest where
  leaseId := id
  token := id
  acquiredAt := 0
  owner :=
    { kind := .process
      pid := id
      processStartedAt := 0
      process := id }
  request := request

/-- The parent of the first lease is the second one, whose parent is the
third. -/
def chainAccounting : LeaseAccounting where
  parentByLeaseId := fun id =>
    if id = 1 then some 2 else if id = 2 then some 3 else none
  parentLeaseId := none
  ancestorLeaseIds := []

end MachineBridge.Resources
