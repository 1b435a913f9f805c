import MachineBridge.Foundation.Forest
import MachineBridge.Resources.LeaseAccounting
import Mathlib.Order.Lattice.Nat

/-!
# The leases as a forest

Following the links of some leases ends, and tells whether every lease leads out
of them.  If it does, and no two leases share a name, the recursion over the
leases ends too, and what it computes are the envelopes of a forest.
-/

namespace MachineBridge.Resources

open Foundation List

section Links

variable (ids : List LeaseName) (parents : ParentLinks)

/-- The links lead out of the leases after some steps. -/
def Leaves : Nat → Option LeaseName → Prop
  | _, none => True
  | 0, some current => current ∉ ids
  | steps + 1, some current => current ∉ ids ∨ Leaves steps (parents current)

def Grounded : Prop :=
  ∀ id ∈ ids, ∃ steps, Leaves ids parents steps (some id)

/-- How many leases are met on the way out. -/
noncomputable def depth (id : LeaseName) : Nat :=
  sInf { steps | Leaves ids parents steps (some id) }

variable {ids parents}

theorem leaves_next {steps : Nat} {id : LeaseName} (member : id ∈ ids)
    (leaves : Leaves ids parents steps (some id)) :
    ∃ fewer, steps = fewer + 1 ∧ Leaves ids parents fewer (parents id) := by
  cases steps with
  | zero => exact absurd member leaves
  | succ fewer =>
    rcases leaves with outside | next
    · exact absurd member outside
    · exact ⟨fewer, rfl, next⟩

theorem depth_lt (grounded : Grounded ids parents) {child node : LeaseName}
    (member : child ∈ ids) (parent : parents child = some node) :
    depth ids parents node < depth ids parents child := by
  have found : Leaves ids parents (depth ids parents child) (some child) :=
    Nat.sInf_mem (grounded child member)
  obtain ⟨fewer, steps, next⟩ := leaves_next member found
  rw [parent] at next
  have least : depth ids parents node ≤ fewer := Nat.sInf_le next
  omega

variable {current : Option LeaseName} {seen : List LeaseName} {fuel : Nat}

theorem Leaves.mono {others : List LeaseName} {links : ParentLinks}
    (subset : ids ⊆ others) (same : ∀ id ∈ ids, links id = parents id)
    {steps : Nat} (leaves : Leaves others links steps current) :
    Leaves ids parents steps current := by
  induction steps generalizing current with
  | zero =>
    cases current with
    | none => trivial
    | some id => exact fun member => leaves (subset member)
  | succ steps induction =>
    cases current with
    | none => trivial
    | some id =>
      by_cases member : id ∈ ids
      · right
        rcases leaves with outside | next
        · exact absurd (subset member) outside
        · rw [← same id member]
          exact induction next
      · exact .inl member

theorem Grounded.mono {others : List LeaseName} {links : ParentLinks}
    (subset : ids ⊆ others) (same : ∀ id ∈ ids, links id = parents id)
    (grounded : Grounded others links) : Grounded ids parents := by
  intro id member
  obtain ⟨steps, leaves⟩ := grounded id (subset member)
  exact ⟨steps, leaves.mono subset same⟩

theorem length_seen_le (distinct : seen.Nodup) (inside : seen ⊆ ids) :
    seen.length ≤ ids.length :=
  (distinct.subperm inside).length_le

theorem followParents_ends (distinct : seen.Nodup) (inside : seen ⊆ ids)
    (enough : ids.length < fuel + seen.length) :
    ∃ valid, followParents ids parents fuel seen current = some valid := by
  induction fuel generalizing seen current with
  | zero =>
    have few := length_seen_le distinct inside
    omega
  | succ fuel induction =>
    cases current with
    | none => exact ⟨true, rfl⟩
    | some id =>
      rw [followParents]
      split
      case isFalse => exact ⟨true, rfl⟩
      case isTrue member =>
        split
        case isTrue => exact ⟨false, rfl⟩
        case isFalse new =>
          apply induction (distinct.cons new)
          · exact cons_subset.mpr ⟨member, inside⟩
          · rw [length_cons]
            omega

theorem leaves_of_followParents (distinct : seen.Nodup) (inside : seen ⊆ ids)
    (valid : followParents ids parents fuel seen current = some true) :
    ∃ steps, steps + seen.length ≤ ids.length ∧
    Leaves ids parents steps current := by
  have few := length_seen_le distinct inside
  induction fuel generalizing seen current with
  | zero => cases valid
  | succ fuel induction =>
    cases current with
    | none => exact ⟨0, by omega, trivial⟩
    | some id =>
      rw [followParents] at valid
      split at valid
      case isFalse outside => exact ⟨0, by omega, outside⟩
      case isTrue member =>
        split at valid
        case isTrue => cases valid
        case isFalse new =>
          have more := cons_subset.mpr ⟨member, inside⟩
          have longer := distinct.cons new
          obtain ⟨steps, bound, leaves⟩ := induction longer more valid
            (length_seen_le longer more)
          rw [length_cons] at bound
          exact ⟨steps + 1, by omega, .inr leaves⟩

theorem followParents_grounded (grounded : Grounded ids parents)
    (descends : ∀ id ∈ current, id ∈ ids → ∀ lease ∈ seen,
      depth ids parents id < depth ids parents lease) :
    followParents ids parents fuel seen current ≠ some false := by
  induction fuel generalizing seen current with
  | zero => simp [followParents]
  | succ fuel induction =>
    cases current with
    | none => simp [followParents]
    | some id =>
      rw [followParents]
      split
      case isFalse => simp
      case isTrue member =>
        split
        case isTrue met =>
          exact absurd (descends id rfl member id met) (lt_irrefl _)
        case isFalse =>
          apply induction
          intro next parent _ lease met
          have lower := depth_lt grounded member parent
          rcases mem_cons.mp met with same | before
          · rw [same]
            exact lower
          · exact lower.trans (descends id rfl member lease before)

theorem followParents_of_grounded (grounded : Grounded ids parents)
    (enough : ids.length < fuel) (id : LeaseName) :
    followParents ids parents fuel [] (some id) = some true := by
  have ends : ∃ valid,
      followParents ids parents fuel [] (some id) = some valid := by
    apply followParents_ends nodup_nil (nil_subset ids)
    simpa using enough
  obtain ⟨valid, ends⟩ := ends
  cases valid with
  | true => exact ends
  | false =>
    apply absurd ends
    apply followParents_grounded grounded
    intro other same inside lease met
    exact absurd met not_mem_nil

theorem checkStarts_eq_true {starts : List LeaseName} :
    checkStarts ids parents fuel starts = some true ↔ ∀ start ∈ starts,
    followParents ids parents fuel [] (some start) = some true := by
  induction starts with
  | nil => simp [checkStarts]
  | cons start rest induction =>
    rw [checkStarts, forall_mem_cons]
    split
    case h_1 valid => rw [induction, and_iff_right valid]
    case h_2 other failed =>
      constructor
      · intro valid
        exact absurd valid failed
      · intro valid
        exact absurd valid.1 failed

theorem checkStarts_ends {starts : List LeaseName}
    (enough : ids.length < fuel) :
    ∃ valid, checkStarts ids parents fuel starts = some valid := by
  induction starts with
  | nil => exact ⟨true, rfl⟩
  | cons start rest induction =>
    rw [checkStarts]
    split
    case h_1 => exact induction
    case h_2 =>
      apply followParents_ends nodup_nil (nil_subset ids)
      simpa using enough

end Links

section Valid

variable {leases : List AccountedLease} {parents : ParentLinks}

def idsOf (leases : List AccountedLease) : List LeaseName :=
  leases.filterMap AccountedLease.leaseId

theorem length_idsOf_le : (idsOf leases).length ≤ leases.length :=
  length_filterMap_le _ _

theorem validParentForest_ends {fuel : Nat} (enough : leases.length < fuel) :
    ∃ valid, validParentForest leases parents fuel = some valid :=
  checkStarts_ends (length_idsOf_le.trans_lt enough)

theorem validParentForest_eq_true {fuel : Nat}
    (enough : leases.length < fuel) :
    validParentForest leases parents fuel = some true ↔
    Grounded (idsOf leases) parents := by
  have more := length_idsOf_le.trans_lt enough
  change checkStarts (idsOf leases) parents fuel _ = some true ↔ _
  rw [checkStarts_eq_true]
  constructor
  · intro valid id member
    by_cases linked : (parents id).isSome
    · have starts := valid id (List.mem_filter.mpr ⟨member, linked⟩)
      obtain ⟨steps, bound, leaves⟩ := leaves_of_followParents
        nodup_nil (nil_subset _) starts
      exact ⟨steps, leaves⟩
    · rw [Option.not_isSome_iff_eq_none] at linked
      exact ⟨1, .inr (by rw [linked]; trivial)⟩
  · intro grounded start linked
    exact followParents_of_grounded grounded more start

theorem depth_le (grounded : Grounded (idsOf leases) parents)
    (id : LeaseName) : depth (idsOf leases) parents id ≤ leases.length := by
  have ended := followParents_of_grounded grounded
    (Nat.lt_succ_of_le length_idsOf_le) id
  obtain ⟨steps, bound, leaves⟩ := leaves_of_followParents
    nodup_nil (nil_subset _) ended
  have least : depth (idsOf leases) parents id ≤ steps := Nat.sInf_le leaves
  exact least.trans (bound.trans length_idsOf_le)

end Valid

section

variable (leases : List AccountedLease)

/-- Every lease has an identifier. -/
def Named : Prop :=
  ∀ lease ∈ leases, lease.leaseId.isSome = true

def nameOf (lease : AccountedLease) : LeaseName := leaseKey 0 lease

def entriesOf : List (LeaseName × ResourceRequest) :=
  leases.map fun lease => (nameOf lease, lease.request)

end

section Names

variable {leases : List AccountedLease}

theorem leaseId_of_named {lease : AccountedLease}
    (named : lease.leaseId.isSome = true) :
    lease.leaseId = some (nameOf lease) := by
  obtain ⟨name, known⟩ := Option.isSome_iff_exists.mp named
  rw [nameOf, leaseKey, known]
  rfl

theorem idsOf_named (named : Named leases) :
    idsOf leases = leases.map nameOf := by
  rw [idsOf, ← filterMap_eq_map]
  apply filterMap_congr
  intro lease member
  exact leaseId_of_named (named lease member)

theorem keys_entriesOf :
    (entriesOf leases).map Prod.fst = leases.map nameOf := by
  rw [entriesOf, map_map]
  rfl

theorem indexLeases_named (named : Named leases) : indexLeases leases =
    if (idsOf leases).Nodup then some (entriesOf leases) else none := by
  have entries : (leases.mapIdx fun index lease =>
      (leaseKey index lease, lease.request)) =
        leases.map fun lease => (nameOf lease, lease.request) := by
    apply ext_getElem
    · rw [length_mapIdx, length_map]
    · intro index first second
      rw [getElem_mapIdx, getElem_map]
      have inside : index < leases.length := by simpa using second
      have known := leaseId_of_named (named _ (getElem_mem inside))
      rw [leaseKey, known]
      rfl
  rw [indexLeases, entries, ← entriesOf, keys_entriesOf, idsOf_named named]

theorem ownVector_of_mem (distinct : (leases.map nameOf).Nodup)
    {lease : AccountedLease} (member : lease ∈ leases) :
    ownVector (entriesOf leases) (nameOf lease) =
    requestVector lease.request := by
  have found :
      (entriesOf leases).lookup (nameOf lease) = some lease.request := by
    induction leases with
    | nil => exact absurd member not_mem_nil
    | cons first rest induction =>
      rw [map_cons, nodup_cons] at distinct
      rw [entriesOf, map_cons, lookup_cons]
      rcases mem_cons.mp member with same | later
      · rw [same]
        simp
      · have apart : (nameOf lease == nameOf first) = false := by
          apply beq_eq_false_iff_ne.mpr
          intro same
          exact distinct.1 (same ▸ mem_map_of_mem later)
        rw [apart]
        exact induction distinct.2 later
  rw [ownVector, found]

theorem ownVector_nonneg (id : LeaseName) (key : ResourceKey) :
    0 ≤ ownVector (entriesOf leases) id key := by
  unfold ownVector
  cases (entriesOf leases).lookup id with
  | none => exact le_refl 0
  | some request => exact le_max_left _ _

end Names

theorem mapM_of_some {α β : Type} {action : α → Option β} {result : α → β}
    {items : List α}
    (each : ∀ item ∈ items, action item = some (result item)) :
    items.mapM action = some (items.map result) := by
  induction items with
  | nil => rfl
  | cons item rest induction =>
    obtain ⟨first, others⟩ := forall_mem_cons.mp each
    rw [mapM_cons, first, induction others]
    rfl

theorem foldl_add_apply (vectors : List Amounts) (start : Amounts)
    (key : ResourceKey) : vectors.foldl (· + ·) start key = start key +
    (vectors.map fun vector => vector key).sum := by
  induction vectors generalizing start with
  | nil => simp
  | cons vector rest induction =>
    rw [foldl_cons, induction, map_cons, sum_cons, Pi.add_apply, add_assoc]

def valueOf (leases : List AccountedLease) (parents : ParentLinks)
    (id : LeaseName) : Amounts :=
  (effective (entriesOf leases) parents (fuelFor leases) id).getD 0

section Envelopes

variable {leases : List AccountedLease} {parents : ParentLinks}

variable {id : LeaseName} {fuel : Nat}

theorem mem_childrenOf (named : Named leases) {child : LeaseName} :
    child ∈ childrenOf (entriesOf leases) parents id ↔ child ∈ idsOf leases ∧
    parents child = some id := by
  simp [childrenOf, keys_entriesOf, idsOf_named named]

theorem effective_succ {value : LeaseName → Amounts} (each : ∀ child ∈
    childrenOf (entriesOf leases) parents id, effective (entriesOf leases)
    parents fuel child = some (value child)) : effective (entriesOf leases)
    parents (fuel + 1) id = some fun key => max
    (ownVector (entriesOf leases) id key) ((childrenOf (entriesOf leases)
    parents id).map fun child => value child key).sum := by
  rw [effective, mapM_of_some each]
  change some _ = some _
  congr 1
  funext key
  rw [foldl_add_apply, map_map, Pi.zero_apply, zero_add]
  rfl

theorem effective_ends (named : Named leases)
    (grounded : Grounded (idsOf leases) parents) (member : id ∈ idsOf leases)
    (enough : leases.length < fuel + depth (idsOf leases) parents id) :
    ∃ amounts, ∀ more, fuel ≤ more →
    effective (entriesOf leases) parents more id = some amounts := by
  induction fuel generalizing id with
  | zero =>
    have shallow := depth_le grounded id
    omega
  | succ fuel induction =>
    have below : ∀ child ∈ childrenOf (entriesOf leases) parents id, ∀ more,
        fuel ≤ more → effective (entriesOf leases) parents more child =
        some ((effective (entriesOf leases) parents fuel child).getD 0) := by
      intro child descends more longer
      obtain ⟨inside, parent⟩ := (mem_childrenOf named).mp descends
      have lower := depth_lt grounded inside parent
      obtain ⟨amounts, returns⟩ := induction inside (by omega)
      rw [returns more longer, returns fuel le_rfl]
      rfl
    have first := effective_succ fun child descends =>
      below child descends fuel le_rfl
    have same : ∀ more, fuel + 1 ≤ more →
        effective (entriesOf leases) parents more id =
        effective (entriesOf leases) parents (fuel + 1) id := by
      intro more longer
      obtain ⟨rest, rfl⟩ : ∃ rest, more = rest + 1 := ⟨more - 1, by omega⟩
      rw [first]
      exact effective_succ fun child descends =>
        below child descends rest (by omega)
    exact ⟨_, fun more longer => (same more longer).trans first⟩

theorem effective_eq (named : Named leases)
    (grounded : Grounded (idsOf leases) parents)
    (enough : leases.length < fuel) (member : id ∈ idsOf leases) :
    effective (entriesOf leases) parents fuel id =
    some (valueOf leases parents id) := by
  have longer : leases.length <
      leases.length + 1 + depth (idsOf leases) parents id := by omega
  obtain ⟨amounts, returns⟩ := effective_ends named grounded member longer
  rw [valueOf, returns fuel enough, fuelFor, returns _ le_rfl]
  rfl

noncomputable def leaseForest {ids : List LeaseName} (parents : ParentLinks)
    (grounded : Grounded ids parents) : Forest LeaseName where
  nodes := ids.toFinset
  parent := parents
  rank := depth ids parents
  rank_lt := by
    intro child node member above parent
    exact depth_lt grounded (mem_toFinset.mp member) parent

theorem sum_childrenOf (named : Named leases) (distinct : (idsOf leases).Nodup)
    (grounded : Grounded (idsOf leases) parents) (id : LeaseName)
    (value : LeaseName → ℚ) :
    ((childrenOf (entriesOf leases) parents id).map value).sum = ∑ child ∈
    (leaseForest parents grounded).children id, value child := by
  have unique : (childrenOf (entriesOf leases) parents id).Nodup := by
    rw [childrenOf, keys_entriesOf, ← idsOf_named named]
    exact distinct.filter _
  rw [← sum_toFinset value unique]
  apply Finset.sum_congr _ (fun child below => rfl)
  ext child
  rw [mem_toFinset, mem_childrenOf named, Forest.mem_children]
  simp only [leaseForest, mem_toFinset]

theorem valueOf_effective (named : Named leases)
    (distinct : (idsOf leases).Nodup)
    (grounded : Grounded (idsOf leases) parents) (key : ResourceKey) :
    (leaseForest parents grounded).Effective
    (fun id => ownVector (entriesOf leases) id key)
    (fun id => valueOf leases parents id key) := by
  intro id member
  have inside : id ∈ idsOf leases := mem_toFinset.mp member
  have longer : leases.length < leases.length + 2 := by omega
  have each : ∀ child ∈ childrenOf (entriesOf leases) parents id,
      effective (entriesOf leases) parents (leases.length + 1) child =
      some (valueOf leases parents child) := by
    intro child below
    exact effective_eq named grounded (Nat.lt_succ_self _)
      ((mem_childrenOf named).mp below).1
  have step := effective_succ each
  rw [effective_eq named grounded longer inside] at step
  have value := congrFun (Option.some.inj step) key
  rw [sum_childrenOf named distinct grounded] at value
  exact value

end Envelopes

end MachineBridge.Resources
