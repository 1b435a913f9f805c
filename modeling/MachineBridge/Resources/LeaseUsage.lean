import MachineBridge.Resources.LeaseForest

/-!
# Bounds of the usage

The usage of some leases covers each of them and is at most their sum, whether
they form a forest or not.  What a request adds is what it takes beyond a slack
which depends on the leases only.
-/

namespace MachineBridge.Resources

open Foundation List

/-- The leases are told apart, and every one leads out of them. -/
structure Forested (leases : List AccountedLease) (parents : ParentLinks) :
    Prop where
  distinct : (idsOf leases).Nodup
  grounded : Grounded (idsOf leases) parents

section Aggregate

variable {leases : List AccountedLease} {parents : ParentLinks}

variable {fuel : Nat}

section

variable (named : Named leases)
include named

theorem aggregateEffective_forest
    (forested : Forested leases parents) (enough : leases.length < fuel) :
    aggregateEffective leases parents fuel =
      some
        { amounts := fun key =>
            (leaseForest parents forested.grounded).usage fun id =>
              valueOf leases parents id key
          heavyLeases := (rootsOf (entriesOf leases) parents).length } := by
  have valid := (validParentForest_eq_true enough).mpr forested.grounded
  have members : ∀ id ∈ rootsOf (entriesOf leases) parents,
      id ∈ idsOf leases := by
    intro id root
    have listed := (List.mem_filter.mp root).1
    rwa [keys_entriesOf, ← idsOf_named named] at listed
  have each : ∀ id ∈ rootsOf (entriesOf leases) parents,
      effective (entriesOf leases) parents fuel id =
      some (valueOf leases parents id) := by
    intro id root
    exact effective_eq named forested.grounded enough (members id root)
  have unique : (rootsOf (entriesOf leases) parents).Nodup := by
    rw [rootsOf, keys_entriesOf, ← idsOf_named named]
    exact forested.distinct.filter _
  rw [aggregateEffective, indexLeases_named named, if_pos forested.distinct]
  rw [valid]
  dsimp only
  rw [mapM_of_some each]
  change some _ = some _
  congr 2
  funext key
  rw [foldl_add_apply, map_map, Pi.zero_apply, zero_add]
  change ((rootsOf (entriesOf leases) parents).map fun id =>
    valueOf leases parents id key).sum = _
  rw [← sum_toFinset _ unique]
  apply Finset.sum_congr _ (fun root top => rfl)
  ext id
  rw [mem_toFinset, Forest.mem_roots]
  simp only [rootsOf, keys_entriesOf, ← idsOf_named named, List.mem_filter,
    leaseForest, mem_toFinset]
  cases parent : parents id with
  | none => simp
  | some above => simp

theorem aggregateEffective_naive
    (wild : ¬ Forested leases parents) (enough : leases.length < fuel) :
    aggregateEffective leases parents fuel = some (naiveAggregate leases) := by
  rw [aggregateEffective, indexLeases_named named]
  by_cases distinct : (idsOf leases).Nodup
  · have ends : ∃ valid, validParentForest leases parents fuel = some valid :=
      validParentForest_ends enough
    obtain ⟨valid, ends⟩ := ends
    rw [if_pos distinct]
    rw [ends]
    cases valid with
    | false => rfl
    | true =>
      have grounded := (validParentForest_eq_true enough).mp ends
      exact absurd ⟨distinct, grounded⟩ wild
  · rw [if_neg distinct]

theorem aggregateEffective_ends
    (enough : leases.length < fuel) : aggregateEffective leases parents fuel =
    some (aggregateAccounted leases parents) := by
  rw [aggregateAccounted, fuelFor]
  by_cases forested : Forested leases parents
  · rw [aggregateEffective_forest named forested enough,
      aggregateEffective_forest named forested (Nat.lt_succ_self _)]
    rfl
  · rw [aggregateEffective_naive named forested enough,
      aggregateEffective_naive named forested (Nat.lt_succ_self _)]
    rfl

theorem amounts_of_forested
    (forested : Forested leases parents) (key : ResourceKey) :
    (aggregateAccounted leases parents).amounts key =
    (leaseForest parents forested.grounded).usage fun id => valueOf leases
    parents id key := by
  rw [aggregateAccounted, fuelFor,
    aggregateEffective_forest named forested (Nat.lt_succ_self _)]
  rfl

end

theorem naiveAggregate_amounts (key : ResourceKey) : (naiveAggregate
    leases).amounts key = (leases.map fun lease => if lease.request.heavy =
    false then 0 else requestVector lease.request key).sum := by
  have general : ∀ total : Aggregate,
      (leases.foldl (fun total lease =>
        if lease.request.heavy = false then total
        else
          { amounts := total.amounts + requestVector lease.request
            heavyLeases := total.heavyLeases + 1 }) total).amounts key =
        total.amounts key + (leases.map fun lease =>
          if lease.request.heavy = false then 0
          else requestVector lease.request key).sum := by
    induction leases with
    | nil => intro total; simp
    | cons lease rest induction =>
      intro total
      rw [foldl_cons, induction, map_cons, sum_cons]
      split
      case isTrue => rw [zero_add]
      case isFalse => exact add_assoc _ _ _
  rw [naiveAggregate, general emptyAggregate]
  exact zero_add _

theorem amounts_of_wild (named : Named leases) (wild : ¬ Forested leases
    parents) (key : ResourceKey) : (aggregateAccounted leases parents).amounts
    key = (leases.map fun lease => if lease.request.heavy = false then 0 else
    requestVector lease.request key).sum := by
  rw [aggregateAccounted, fuelFor,
    aggregateEffective_naive named wild (Nat.lt_succ_self _)]
  exact naiveAggregate_amounts key

theorem requestVector_nonneg (request : ResourceRequest) (key : ResourceKey) :
    0 ≤ requestVector request key :=
  le_max_left _ _

section

variable (named : Named leases)
include named

theorem sum_own (distinct : (idsOf leases).Nodup)
    (key : ResourceKey) : ∑ id ∈ (idsOf leases).toFinset,
    ownVector (entriesOf leases) id key =
    (leases.map fun lease => requestVector lease.request key).sum := by
  rw [sum_toFinset _ distinct, idsOf_named named, map_map]
  rw [idsOf_named named] at distinct
  congr 1
  apply map_congr_left
  intro lease member
  exact congrFun (ownVector_of_mem distinct member) key

theorem amounts_le_sum (key : ResourceKey) :
    (aggregateAccounted leases parents).amounts key ≤
    (leases.map fun lease => requestVector lease.request key).sum := by
  by_cases forested : Forested leases parents
  · rw [amounts_of_forested named forested, ← sum_own named forested.distinct]
    apply (valueOf_effective named forested.distinct forested.grounded
      key).usage_le
    intro id member
    exact ownVector_nonneg id key
  · rw [amounts_of_wild named forested]
    apply sum_le_sum
    intro lease member
    split
    case isTrue => exact requestVector_nonneg _ _
    case isFalse => exact le_rfl

theorem le_amounts (heavy : ∀ lease ∈ leases, lease.request.heavy = true)
    {lease : AccountedLease} (member : lease ∈ leases) (key : ResourceKey) :
    requestVector lease.request key ≤
    (aggregateAccounted leases parents).amounts key := by
  by_cases forested : Forested leases parents
  · have rule := valueOf_effective named forested.distinct forested.grounded
      key
    have inside :
        nameOf lease ∈ (leaseForest parents forested.grounded).nodes := by
      apply mem_toFinset.mpr
      rw [idsOf_named named]
      exact mem_map_of_mem member
    have positive : ∀ id ∈ (leaseForest parents forested.grounded).nodes,
        0 ≤ ownVector (entriesOf leases) id key :=
      fun id _ => ownVector_nonneg id key
    have distinct := forested.distinct
    rw [idsOf_named named] at distinct
    rw [amounts_of_forested named forested, ← ownVector_of_mem distinct member]
    exact (rule.own_le inside).trans (rule.le_usage positive inside)
  · rw [amounts_of_wild named forested]
    apply single_le_sum
    · intro amount among
      obtain ⟨other, listed, rfl⟩ := List.mem_map.mp among
      split
      case isTrue => exact le_rfl
      case isFalse => exact requestVector_nonneg _ _
    · apply List.mem_map.mpr
      refine ⟨lease, member, ?_⟩
      rw [if_neg (by rw [heavy lease member]; decide)]

end

end Aggregate

section Append

variable {leases : List AccountedLease} {fresh : AccountedLease}
  {parents links : ParentLinks}

theorem Named.append (named : Named leases)
    (known : fresh.leaseId.isSome = true) : Named (leases ++ [fresh]) := by
  intro lease member
  rcases mem_append.mp member with old | last
  · exact named lease old
  · rw [mem_singleton.mp last]
    exact known

section

variable (known : fresh.leaseId.isSome = true)
include known

theorem idsOf_append :
    idsOf (leases ++ [fresh]) = idsOf leases ++ [nameOf fresh] := by
  rw [idsOf, filterMap_append, filterMap_cons, leaseId_of_named known]
  rfl

theorem Forested.of_append (same : ∀ id ∈ idsOf leases, links id = parents id)
    (forested : Forested (leases ++ [fresh]) links) :
    Forested leases parents := by
  obtain ⟨distinct, grounded⟩ := forested
  rw [idsOf_append known] at distinct grounded
  constructor
  · exact distinct.sublist (sublist_append_left _ _)
  · exact grounded.mono (subset_append_left _ _) same

theorem new_of_forested (forested : Forested (leases ++ [fresh]) links) :
    nameOf fresh ∉ idsOf leases := by
  have distinct := forested.distinct
  rw [idsOf_append known, nodup_append] at distinct
  intro member
  exact distinct.2.2 _ member _ (mem_singleton.mpr rfl) rfl

theorem adds_fresh (same : ∀ id ∈ idsOf leases, links id = parents id)
    (before : Grounded (idsOf leases) parents)
    (forested : Forested (leases ++ [fresh]) links) : Forest.Adds
    (leaseForest parents before) (leaseForest links forested.grounded)
    (nameOf fresh) where
  new := by
    intro member
    exact new_of_forested known forested (mem_toFinset.mp member)
  nodes := by
    change (idsOf (leases ++ [fresh])).toFinset = _
    rw [idsOf_append known, toFinset_append, Finset.union_comm]
    rfl
  parent := by
    intro id member
    exact same id (mem_toFinset.mp member)

end

theorem ownVector_append (named : Named leases) {id : LeaseName}
    (member : id ∈ idsOf leases) :
    ownVector (entriesOf (leases ++ [fresh])) id =
    ownVector (entriesOf leases) id := by
  have found : ((entriesOf leases).lookup id).isSome = true := by
    apply List.lookup_isSome_iff.mpr
    rw [idsOf_named named] at member
    obtain ⟨lease, listed, rfl⟩ := List.mem_map.mp member
    exact ⟨_, mem_map_of_mem listed, beq_self_eq_true _⟩
  obtain ⟨request, known⟩ := Option.isSome_iff_exists.mp found
  rw [ownVector, ownVector, entriesOf, map_append, ← entriesOf,
    lookup_append, known]
  rfl

theorem ownVector_fresh (named : Named leases)
    (known : fresh.leaseId.isSome = true)
    (forested : Forested (leases ++ [fresh]) links) :
    ownVector (entriesOf (leases ++ [fresh])) (nameOf fresh) =
    requestVector fresh.request := by
  have distinct := forested.distinct
  rw [idsOf_named (named.append known)] at distinct
  apply ownVector_of_mem distinct
  exact mem_append_right _ (mem_singleton.mpr rfl)

/-- The new lease is the parent of a lease, and a lease is its parent. -/
def TakesOver (leases : List AccountedLease) (fresh : AccountedLease)
    (links : ParentLinks) : Prop :=
  nameOf fresh ∉ idsOf leases ∧
    (∃ id ∈ idsOf leases, links id = some (nameOf fresh)) ∧
    ∃ id ∈ idsOf leases, links (nameOf fresh) = some id

theorem amounts_le_append (named : Named leases)
    (known : fresh.leaseId.isSome = true)
    (heavy : ∀ lease ∈ leases ++ [fresh], lease.request.heavy = true)
    (same : ∀ id ∈ idsOf leases, links id = parents id)
    (apart : ¬ TakesOver leases fresh links) (key : ResourceKey) :
    (aggregateAccounted leases parents).amounts key ≤
    (aggregateAccounted (leases ++ [fresh]) links).amounts key := by
  have more := named.append known
  by_cases forested : Forested (leases ++ [fresh]) links
  · have before := forested.of_append known same
    have adds := adds_fresh known same before.grounded forested
    have rule : (leaseForest parents before.grounded).Effective
        (fun id => ownVector (entriesOf (leases ++ [fresh])) id key)
        (fun id => valueOf leases parents id key) := by
      apply (valueOf_effective named before.distinct before.grounded
        key).congr
      intro id member
      rw [ownVector_append named (mem_toFinset.mp member)]
    rw [amounts_of_forested named before, amounts_of_forested more forested]
    apply adds.usage_le rule
      (valueOf_effective more forested.distinct forested.grounded key)
    · intro id member
      exact ownVector_nonneg id key
    · have new := new_of_forested known forested
      by_cases top : ∃ id ∈ idsOf leases, links (nameOf fresh) = some id
      · right
        apply Finset.eq_empty_of_forall_notMem
        intro child below
        obtain ⟨inside, parent⟩ := Forest.mem_children.mp below
        rcases adds.member.mp inside with self | old
        · rw [self] at parent
          obtain ⟨id, member, above⟩ := top
          have equal := Option.some.inj (parent.symm.trans above)
          exact new (equal ▸ member)
        · exact apart ⟨new, ⟨child, mem_toFinset.mp old, parent⟩, top⟩
      · left
        apply Forest.mem_roots.mpr
        refine ⟨adds.member.mpr (.inl rfl), ?_⟩
        intro above parent inside
        rcases adds.member.mp inside with self | old
        · have member : nameOf fresh ∈
              (leaseForest links forested.grounded).nodes :=
            adds.member.mpr (.inl rfl)
          have lower := (leaseForest links forested.grounded).rank_lt member
            inside parent
          rw [self] at lower
          exact lt_irrefl _ lower
        · exact top ⟨above, mem_toFinset.mp old, parent⟩
  · have sum : (leases.map fun lease =>
        requestVector lease.request key).sum ≤
        ((leases ++ [fresh]).map fun lease =>
          if lease.request.heavy = false then 0
          else requestVector lease.request key).sum := by
      have counted : ((leases ++ [fresh]).map fun lease =>
          if lease.request.heavy = false then 0
          else requestVector lease.request key) =
          (leases ++ [fresh]).map fun lease =>
            requestVector lease.request key := by
        apply map_congr_left
        intro lease member
        rw [if_neg (by rw [heavy lease member]; decide)]
      rw [counted, map_append, sum_append]
      simpa using requestVector_nonneg fresh.request key
    rw [amounts_of_wild more forested]
    exact (amounts_le_sum named key).trans sum

end Append

end MachineBridge.Resources
