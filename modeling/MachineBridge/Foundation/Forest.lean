import Mathlib.Algebra.Order.BigOperators.Group.Finset
import Mathlib.Algebra.Order.Group.MinMax
import Mathlib.Tactic.Abel

/-!
# Envelopes in a forest

Each node of a forest has an amount of its own.  What it takes effectively is
the greater one of its own amount and the sum of what its children take.  The
usage of the forest is what its roots take.
-/

namespace Foundation

/-- Finitely many nodes.  A parent has a lower rank than its child. -/
structure Forest (Node : Type*) where
  nodes : Finset Node
  parent : Node → Option Node
  rank : Node → Nat
  rank_lt : ∀ {child node}, child ∈ nodes → node ∈ nodes →
    parent child = some node → rank node < rank child

namespace Forest

variable {Node K : Type*} [DecidableEq Node] (forest : Forest Node)

def children (node : Node) : Finset Node :=
  forest.nodes.filter fun child => forest.parent child = some node

def roots : Finset Node :=
  forest.nodes.filter fun node =>
    (forest.parent node).all fun above => above ∉ forest.nodes

variable {forest}

theorem mem_children {child node : Node} : child ∈ forest.children node ↔
    child ∈ forest.nodes ∧ forest.parent child = some node := by
  simp [children]

theorem mem_roots {node : Node} : node ∈ forest.roots ↔ node ∈ forest.nodes ∧
    ∀ above, forest.parent node = some above → above ∉ forest.nodes := by
  cases parent : forest.parent node <;> simp [roots, parent]

theorem children_subset (node : Node) : forest.children node ⊆ forest.nodes :=
  Finset.filter_subset _ _

theorem roots_subset : forest.roots ⊆ forest.nodes :=
  Finset.filter_subset _ _

/-- What holds of a node whenever it holds of its children holds of every
node. -/
theorem induction_from_children {P : Node → Prop}
    (step : ∀ node ∈ forest.nodes, (∀ child ∈ forest.children node, P child) →
      P node) : ∀ node ∈ forest.nodes, P node := by
  have bounded : ∀ node ∈ forest.nodes,
      forest.rank node ≤ forest.nodes.sup forest.rank :=
    fun node member => Finset.le_sup member
  have lower : ∀ distance, ∀ node ∈ forest.nodes,
      forest.nodes.sup forest.rank - forest.rank node ≤ distance → P node := by
    intro distance
    induction distance with
    | zero =>
      intro node member near
      apply step node member
      intro child below
      obtain ⟨inside, parent⟩ := mem_children.mp below
      have deeper := forest.rank_lt inside member parent
      have limit := bounded child inside
      omega
    | succ distance induction =>
      intro node member near
      apply step node member
      intro child below
      obtain ⟨inside, parent⟩ := mem_children.mp below
      have deeper := forest.rank_lt inside member parent
      exact induction child inside (by omega)
  intro node member
  exact lower _ node member (Nat.le_refl _)

theorem sum_nodes [AddCommMonoid K] (value : Node → K) : ∑ node ∈ forest.nodes,
    value node = ∑ root ∈ forest.roots, value root + ∑ node ∈ forest.nodes,
    ∑ child ∈ forest.children node, value child := by
  have inside : forest.roots ⊆ forest.nodes := roots_subset
  have split := Finset.sum_sdiff (f := value) inside
  rw [← split, add_comm]
  congr 1
  have mapped : ∀ child ∈ forest.nodes \ forest.roots,
      (forest.parent child).getD child ∈ forest.nodes := by
    intro child member
    obtain ⟨inside, covered⟩ := Finset.mem_sdiff.mp member
    by_contra outside
    apply covered
    apply mem_roots.mpr
    refine ⟨inside, ?_⟩
    intro above parent stands
    rw [parent] at outside
    exact outside stands
  rw [← Finset.sum_fiberwise_of_maps_to mapped]
  apply Finset.sum_congr rfl
  intro node member
  apply Finset.sum_congr
  · ext child
    rw [Finset.mem_filter, Finset.mem_sdiff, mem_children, mem_roots]
    constructor
    · intro ⟨⟨inside, covered⟩, parent⟩
      refine ⟨inside, ?_⟩
      cases above : forest.parent child with
      | none =>
        exfalso
        apply covered
        refine ⟨inside, ?_⟩
        intro other same
        rw [above] at same
        cases same
      | some other =>
        rw [above] at parent
        exact congrArg some parent
    · intro ⟨inside, parent⟩
      refine ⟨⟨inside, ?_⟩, by rw [parent]; rfl⟩
      intro root
      exact root.2 node parent member
  · intro child below
    rfl

section Amounts

variable [AddCommGroup K] [LinearOrder K] (forest)

/-- The values of the nodes follow the rule for envelopes. -/
def Effective (own effective : Node → K) : Prop :=
  ∀ node ∈ forest.nodes,
    effective node =
      max (own node) (∑ child ∈ forest.children node, effective child)

def usage (effective : Node → K) : K :=
  ∑ root ∈ forest.roots, effective root

variable {forest} {own effective : Node → K}

variable {node : Node}

theorem Effective.own_le (rule : forest.Effective own effective)
    (member : node ∈ forest.nodes) : own node ≤ effective node := by
  rw [rule node member]
  exact le_max_left _ _

theorem Effective.children_le (rule : forest.Effective own effective)
    (member : node ∈ forest.nodes) :
    ∑ child ∈ forest.children node, effective child ≤ effective node := by
  rw [rule node member]
  exact le_max_right _ _

theorem Effective.nonneg (rule : forest.Effective own effective)
    (positive : ∀ node ∈ forest.nodes, 0 ≤ own node)
    (member : node ∈ forest.nodes) : 0 ≤ effective node :=
  le_trans (positive node member) (rule.own_le member)

theorem Effective.congr {amounts : Node → K}
    (rule : forest.Effective own effective)
    (same : ∀ node ∈ forest.nodes, own node = amounts node) :
    forest.Effective amounts effective := by
  intro node member
  rw [← same node member]
  exact rule node member

theorem Effective.unique {other : Node → K}
    (rule : forest.Effective own effective)
    (same : forest.Effective own other) :
    ∀ node ∈ forest.nodes, effective node = other node := by
  apply induction_from_children
  intro node member induction
  rw [rule node member, same node member, Finset.sum_congr rfl induction]

omit [LinearOrder K] in
theorem usage_congr {other : Node → K}
    (same : ∀ node ∈ forest.nodes, effective node = other node) :
    forest.usage effective = forest.usage other := by
  apply Finset.sum_congr rfl
  intro root top
  exact same root (roots_subset top)

variable [IsOrderedAddMonoid K]

theorem Effective.usage_le (rule : forest.Effective own effective)
    (positive : ∀ node ∈ forest.nodes, 0 ≤ own node) :
    forest.usage effective ≤ ∑ node ∈ forest.nodes, own node := by
  have each : ∀ node ∈ forest.nodes,
      effective node ≤ own node + ∑ child ∈ forest.children node,
      effective child := by
    intro node member
    rw [rule node member]
    apply max_le_add_of_nonneg (positive node member)
    apply Finset.sum_nonneg
    intro child below
    exact rule.nonneg positive (children_subset node below)
  have total := Finset.sum_le_sum each
  rw [Finset.sum_add_distrib, sum_nodes effective] at total
  exact le_of_add_le_add_right total

theorem Effective.le_usage (rule : forest.Effective own effective)
    (positive : ∀ node ∈ forest.nodes, 0 ≤ own node)
    (member : node ∈ forest.nodes) :
    effective node ≤ forest.usage effective := by
  induction height : forest.rank node using Nat.strong_induction_on
    generalizing node with
  | _ height induction =>
    by_cases root : node ∈ forest.roots
    · apply Finset.single_le_sum (f := effective) _ root
      intro other top
      exact rule.nonneg positive (roots_subset top)
    · rw [mem_roots] at root
      push Not at root
      obtain ⟨above, parent, inside⟩ := root member
      have lower := forest.rank_lt member inside parent
      have below : node ∈ forest.children above :=
        mem_children.mpr ⟨member, parent⟩
      calc effective node
          ≤ ∑ child ∈ forest.children above, effective child := by
            apply Finset.single_le_sum (f := effective) _ below
            intro child sibling
            exact rule.nonneg positive (children_subset above sibling)
        _ ≤ effective above := rule.children_le inside
        _ ≤ forest.usage effective :=
            induction _ (height ▸ lower) inside rfl

/-- `larger` has one node more than `forest`, with the same parents. -/
structure Adds (forest larger : Forest Node) (fresh : Node) : Prop where
  new : fresh ∉ forest.nodes
  nodes : larger.nodes = insert fresh forest.nodes
  parent : ∀ node ∈ forest.nodes, larger.parent node = forest.parent node

section Adds

variable {larger : Forest Node} {fresh : Node} {more : Node → K}

section

variable (adds : Adds forest larger fresh)
include adds

theorem Adds.member {node : Node} :
    node ∈ larger.nodes ↔ node = fresh ∨ node ∈ forest.nodes := by
  rw [adds.nodes, Finset.mem_insert]

theorem Adds.children_subset {node : Node} :
    forest.children node ⊆ larger.children node := by
  intro child below
  obtain ⟨inside, parent⟩ := mem_children.mp below
  apply mem_children.mpr
  exact ⟨adds.member.mpr (.inr inside), by rw [adds.parent child inside, parent]⟩

theorem Adds.effective_le
    (rule : forest.Effective own effective) (grown : larger.Effective own more)
    (positive : ∀ node ∈ larger.nodes, 0 ≤ own node) :
    ∀ node ∈ forest.nodes, effective node ≤ more node := by
  apply induction_from_children
  intro node member induction
  rw [rule node member, grown node (adds.member.mpr (.inr member))]
  apply max_le_max_left
  calc ∑ child ∈ forest.children node, effective child
      ≤ ∑ child ∈ forest.children node, more child :=
        Finset.sum_le_sum induction
    _ ≤ ∑ child ∈ larger.children node, more child := by
        apply Finset.sum_le_sum_of_subset_of_nonneg adds.children_subset
        intro child below _
        exact grown.nonneg positive (Forest.children_subset node below)

end

theorem Adds.root (adds : Adds forest larger fresh) {root : Node}
    (top : root ∈ forest.roots) :
    root ∈ larger.roots ∨ root ∈ larger.children fresh := by
  obtain ⟨member, outside⟩ := mem_roots.mp top
  have inside : root ∈ larger.nodes := adds.member.mpr (.inr member)
  by_cases parent : forest.parent root = some fresh
  · right
    apply mem_children.mpr
    exact ⟨inside, by rw [adds.parent root member, parent]⟩
  · left
    apply mem_roots.mpr
    refine ⟨inside, ?_⟩
    intro above stands contained
    rw [adds.parent root member] at stands
    rcases adds.member.mp contained with same | inside
    · exact parent (same ▸ stands)
    · exact outside above stands inside

theorem Adds.usage_le (adds : Adds forest larger fresh)
    (rule : forest.Effective own effective) (grown : larger.Effective own more)
    (positive : ∀ node ∈ larger.nodes, 0 ≤ own node)
    (apart : fresh ∈ larger.roots ∨ larger.children fresh = ∅) :
    forest.usage effective ≤ larger.usage more := by
  have inside : fresh ∈ larger.nodes := adds.member.mpr (.inl rfl)
  have below := adds.effective_le rule grown positive
  have nonneg : ∀ node ∈ larger.nodes, 0 ≤ more node :=
    fun node member => grown.nonneg positive member
  rcases apart with root | alone
  · have split : forest.roots ⊆
        larger.roots.erase fresh ∪ larger.children fresh := by
      intro node top
      rw [Finset.mem_union, Finset.mem_erase]
      rcases adds.root top with stays | child
      · left
        refine ⟨?_, stays⟩
        intro same
        exact adds.new (same ▸ roots_subset top)
      · exact .inr child
    calc forest.usage effective
        ≤ ∑ node ∈ forest.roots, more node := by
          apply Finset.sum_le_sum
          intro node top
          exact below node (roots_subset top)
      _ ≤ ∑ node ∈ larger.roots.erase fresh ∪ larger.children fresh,
            more node := by
          apply Finset.sum_le_sum_of_subset_of_nonneg split
          intro node member _
          rcases Finset.mem_union.mp member with stays | child
          · exact nonneg node (roots_subset (Finset.mem_of_mem_erase stays))
          · exact nonneg node (Forest.children_subset fresh child)
      _ ≤ ∑ node ∈ larger.roots.erase fresh, more node +
            ∑ node ∈ larger.children fresh, more node := by
          rw [← Finset.sum_union_inter]
          apply le_add_of_nonneg_right
          apply Finset.sum_nonneg
          intro node member
          have child := (Finset.mem_inter.mp member).2
          exact nonneg node (Forest.children_subset fresh child)
      _ ≤ ∑ node ∈ larger.roots.erase fresh, more node + more fresh :=
          add_le_add_right (grown.children_le inside) _
      _ = larger.usage more := Finset.sum_erase_add _ _ root
  · calc forest.usage effective
        ≤ ∑ node ∈ forest.roots, more node := by
          apply Finset.sum_le_sum
          intro node top
          exact below node (roots_subset top)
      _ ≤ larger.usage more := by
          apply Finset.sum_le_sum_of_subset_of_nonneg
          · intro node top
            rcases adds.root top with stays | child
            · exact stays
            · rw [alone] at child
              exact absurd child (Finset.notMem_empty node)
          · intro node top _
            exact nonneg node (roots_subset top)

omit [IsOrderedAddMonoid K] in
theorem Adds.usage_eq (adds : Adds forest larger fresh)
    (rule : forest.Effective own effective) (grown : larger.Effective own more)
    (leaf : larger.children fresh = ∅) (free : own fresh = 0) :
    larger.usage more = forest.usage effective := by
  have inside : fresh ∈ larger.nodes := adds.member.mpr (.inl rfl)
  have nothing : more fresh = 0 := by
    rw [grown fresh inside, leaf, free, Finset.sum_empty, max_self]
  have members : ∀ node ∈ larger.nodes, node ≠ fresh →
      node ∈ forest.nodes := by
    intro node member other
    exact (adds.member.mp member).resolve_left other
  have same : ∀ node ∈ forest.nodes, more node = effective node := by
    apply induction_from_children
    intro node member induction
    rw [rule node member, grown node (adds.member.mpr (.inr member))]
    congr 1
    rw [← Finset.sum_congr rfl induction]
    symm
    apply Finset.sum_subset adds.children_subset
    intro child below above
    by_cases other : child = fresh
    · rw [other, nothing]
    · exfalso
      apply above
      obtain ⟨contained, parent⟩ := mem_children.mp below
      have old := members child contained other
      apply mem_children.mpr
      exact ⟨old, by rw [← adds.parent child old, parent]⟩
  have roots : forest.roots ⊆ larger.roots := by
    intro root top
    rcases adds.root top with stays | child
    · exact stays
    · rw [leaf] at child
      exact absurd child (Finset.notMem_empty root)
  calc larger.usage more
      = ∑ root ∈ forest.roots, more root := by
        symm
        apply Finset.sum_subset roots
        intro root top below
        by_cases other : root = fresh
        · rw [other, nothing]
        · exfalso
          apply below
          obtain ⟨contained, outside⟩ := mem_roots.mp top
          have old := members root contained other
          apply mem_roots.mpr
          refine ⟨old, ?_⟩
          intro above parent within
          apply outside above
          · rw [adds.parent root old, parent]
          · exact adds.member.mpr (.inr within)
    _ = forest.usage effective := by
        apply Finset.sum_congr rfl
        intro root top
        exact same root (roots_subset top)

end Adds

section Leaf

variable (forest) in
/-- The step from a node to its parent in the forest. -/
def Below (child node : Node) : Prop :=
  child ∈ forest.nodes ∧ node ∈ forest.nodes ∧
    forest.parent child = some node

omit [DecidableEq Node] in
theorem below_unique : Relator.RightUnique forest.Below := by
  intro child node other first second
  have same := first.2.2.symm.trans second.2.2
  exact Option.some.inj same

omit [DecidableEq Node] in
theorem rank_le_of_below {child node : Node}
    (path : Relation.ReflTransGen forest.Below child node) :
    forest.rank node ≤ forest.rank child := by
  induction path with
  | refl => exact Nat.le_refl _
  | tail before last induction =>
    obtain ⟨inside, above, parent⟩ := last
    exact (forest.rank_lt inside above parent).le.trans induction

omit [DecidableEq Node] in
theorem sibling_eq {leaf child other node : Node}
    (path : Relation.ReflTransGen forest.Below leaf child)
    (second : Relation.ReflTransGen forest.Below leaf other)
    (below : forest.Below child node) (beside : forest.Below other node) :
    other = child := by
  have ordered : ∀ {one two : Node},
      Relation.ReflTransGen forest.Below one two → forest.Below one node →
      forest.Below two node → one = two := by
    intro one two climb first last
    rcases climb.cases_head with same | ⟨next, step, rest⟩
    · exact same
    · exfalso
      rw [below_unique step first] at rest
      have higher := rank_le_of_below rest
      have lower := forest.rank_lt last.1 last.2.1 last.2.2
      omega
  rcases Relation.ReflTransGen.total_of_right_unique below_unique path second
    with climb | climb
  · exact (ordered climb below beside).symm
  · exact ordered climb beside below

theorem exists_root (node : Node) (member : node ∈ forest.nodes) :
    ∃ root ∈ forest.roots, Relation.ReflTransGen forest.Below node root := by
  induction height : forest.rank node using Nat.strong_induction_on
    generalizing node with
  | _ height induction =>
    by_cases top : node ∈ forest.roots
    · exact ⟨node, top, .refl⟩
    · rw [mem_roots] at top
      push Not at top
      obtain ⟨above, parent, inside⟩ := top member
      have lower := forest.rank_lt member inside parent
      obtain ⟨root, rooted, path⟩ :=
        induction _ (height ▸ lower) above inside rfl
      exact ⟨root, rooted, path.head ⟨member, inside, parent⟩⟩

theorem root_unique {node root other : Node} (top : root ∈ forest.roots)
    (second : other ∈ forest.roots)
    (path : Relation.ReflTransGen forest.Below node root)
    (beside : Relation.ReflTransGen forest.Below node other) :
    other = root := by
  have ends : ∀ {one two : Node}, one ∈ forest.roots →
      Relation.ReflTransGen forest.Below one two → one = two := by
    intro one two rooted climb
    rcases climb.cases_head with same | ⟨next, step, rest⟩
    · exact same
    · exact absurd step.2.1 ((mem_roots.mp rooted).2 next step.2.2)
  rcases Relation.ReflTransGen.total_of_right_unique below_unique path beside
    with climb | climb
  · exact (ends top climb).symm
  · exact ends second climb

variable {leaf : Node} {value : K → Node → K}

omit [IsOrderedAddMonoid K] in
theorem value_eq_of_apart (rules : ∀ weight, 0 ≤ weight →
      forest.Effective (Function.update own leaf weight) (value weight))
    {weight : K} (positive : 0 ≤ weight) : ∀ node ∈ forest.nodes,
    ¬ Relation.ReflTransGen forest.Below leaf node →
    value weight node = value 0 node := by
  apply induction_from_children
  intro node member induction apart
  have other : node ≠ leaf := by
    intro same
    exact apart (same ▸ .refl)
  rw [rules weight positive node member, rules 0 le_rfl node member,
    Function.update_of_ne other, Function.update_of_ne other]
  congr 1
  apply Finset.sum_congr rfl
  intro child below
  apply induction child below
  intro path
  obtain ⟨inside, parent⟩ := mem_children.mp below
  exact apart (path.tail ⟨inside, member, parent⟩)

theorem envelope_add_excess (own sum weight slack : K) :
    max own (sum + max 0 (weight - slack)) = max own sum +
    max 0 (weight - (slack + (max own sum - sum))) := by
  rcases le_total own sum with below | above
  · have covered : own ≤ sum + max 0 (weight - slack) :=
      below.trans (le_add_of_nonneg_right (le_max_left _ _))
    rw [max_eq_right below, max_eq_right covered, sub_self, add_zero]
  · have rest : weight - (slack + (own - sum)) =
        sum + (weight - slack) - own := by abel
    rw [max_eq_left above, rest, ← max_add_add_left, ← max_add_add_left,
      add_zero, add_zero, ← max_assoc, max_eq_left above, add_sub_cancel]

theorem exists_slack (member : leaf ∈ forest.nodes)
    (bare : forest.children leaf = ∅) (rules : ∀ weight, 0 ≤ weight →
      forest.Effective (Function.update own leaf weight) (value weight))
    {node : Node} (path : Relation.ReflTransGen forest.Below leaf node) :
    ∃ slack, 0 ≤ slack ∧ ∀ weight, 0 ≤ weight →
    value weight node = value 0 node + max 0 (weight - slack) := by
  induction path with
  | refl =>
    refine ⟨0, le_rfl, ?_⟩
    intro weight positive
    rw [rules weight positive leaf member, rules 0 le_rfl leaf member, bare,
      Function.update_self, Function.update_self, Finset.sum_empty,
      Finset.sum_empty, max_self, zero_add, sub_zero, max_comm]
  | @tail child node path below induction =>
    obtain ⟨slack, bound, grows⟩ := induction
    obtain ⟨inside, above, parent⟩ := id below
    have other : node ≠ leaf := by
      intro same
      have higher := rank_le_of_below path
      have lower := forest.rank_lt inside above parent
      rw [same] at lower
      omega
    have own : child ∈ forest.children node :=
      mem_children.mpr ⟨inside, parent⟩
    have sums : ∀ weight, 0 ≤ weight → ∑ child ∈ forest.children node,
        value weight child = ∑ child ∈ forest.children node,
        value 0 child + max 0 (weight - slack) := by
      intro weight positive
      rw [← Finset.add_sum_erase _ _ own, ← Finset.add_sum_erase _ _ own,
        grows weight positive, add_right_comm]
      congr 1
      congr 1
      apply Finset.sum_congr rfl
      intro beside sibling
      obtain ⟨apart, under⟩ := Finset.mem_erase.mp sibling
      obtain ⟨contained, stands⟩ := mem_children.mp under
      apply value_eq_of_apart rules positive beside contained
      intro second
      exact apart (sibling_eq path second below ⟨contained, above, stands⟩)
    have covered := (rules 0 le_rfl).children_le above
    refine ⟨slack + (value 0 node -
      ∑ child ∈ forest.children node, value 0 child), ?_, ?_⟩
    · exact add_nonneg bound (sub_nonneg.mpr covered)
    · intro weight positive
      have first := rules 0 le_rfl node above
      have second := rules weight positive node above
      rw [Function.update_of_ne other] at first second
      rw [sums weight positive] at second
      rw [second, first]
      exact envelope_add_excess _ _ _ _

theorem exists_usage_slack (member : leaf ∈ forest.nodes)
    (bare : forest.children leaf = ∅) (rules : ∀ weight, 0 ≤ weight →
      forest.Effective (Function.update own leaf weight) (value weight)) :
    ∃ slack, 0 ≤ slack ∧ ∀ weight, 0 ≤ weight → forest.usage (value weight) =
    forest.usage (value 0) + max 0 (weight - slack) := by
  obtain ⟨root, top, path⟩ := exists_root leaf member
  obtain ⟨slack, bound, grows⟩ := exists_slack member bare rules path
  refine ⟨slack, bound, ?_⟩
  intro weight positive
  unfold usage
  rw [← Finset.add_sum_erase _ _ top, ← Finset.add_sum_erase _ _ top,
    grows weight positive, add_right_comm]
  congr 1
  congr 1
  apply Finset.sum_congr rfl
  intro other second
  obtain ⟨apart, rooted⟩ := Finset.mem_erase.mp second
  apply value_eq_of_apart rules positive other (roots_subset rooted)
  intro beside
  exact apart (root_unique top rooted path beside)

end Leaf

end Amounts

end Forest

end Foundation
