import Mathlib.Data.List.Sort

/-!
# Numbering items anew

Items carry ranks which only grow.  Before the ranks get too large, the items
are sorted and numbered from one.  What one item is ahead of stays behind it.
-/

namespace Foundation

open List

universe u

variable {α : Type u} {rank : α → Nat} {items : List α}

def ranked (rank : α → Nat) (items : List α) : List α :=
  items.insertionSort fun left right => rank left ≤ rank right

theorem ranked_perm (rank : α → Nat) (items : List α) :
    (ranked rank items).Perm items :=
  perm_insertionSort _ _

theorem ranked_pairwise (distinct : (items.map rank).Nodup) :
    (ranked rank items).Pairwise fun left right => rank left < rank right := by
  have ordered : (ranked rank items).Pairwise fun left right =>
      rank left ≤ rank right :=
    pairwise_insertionSort _ _
  have different : (ranked rank items).Pairwise fun left right =>
      rank left ≠ rank right :=
    pairwise_map.mp
      (((ranked_perm rank items).map rank).nodup_iff.mpr distinct)
  apply (ordered.and different).imp
  intro left right both
  exact Nat.lt_of_le_of_ne both.1 both.2

theorem ranked_lt_iff (distinct : (items.map rank).Nodup) {first second : Nat}
    {left right : α} (leftAt : (ranked rank items)[first]? = some left)
    (rightAt : (ranked rank items)[second]? = some right) :
    first < second ↔ rank left < rank right := by
  have ordered := pairwise_iff_getElem.mp (ranked_pairwise distinct)
  obtain ⟨firstInside, firstSame⟩ := List.getElem?_eq_some_iff.mp leftAt
  obtain ⟨secondInside, secondSame⟩ := List.getElem?_eq_some_iff.mp rightAt
  subst firstSame
  subst secondSame
  constructor
  · intro before
    exact ordered first second firstInside secondInside before
  · intro less
    rcases Nat.lt_trichotomy first second with before | same | after
    · exact before
    · subst same
      exact absurd less (Nat.lt_irrefl _)
    · have other := ordered second first secondInside firstInside after
      exact absurd (Nat.lt_trans less other) (Nat.lt_irrefl _)

variable (number : α → Nat → α)

def renumbered (rank : α → Nat) (number : α → Nat → α) (items : List α) :
    List α :=
  (ranked rank items).mapIdx fun index item => number item (index + 1)

@[simp] theorem length_renumbered :
    (renumbered rank number items).length = items.length := by
  rw [renumbered, length_mapIdx]
  exact (ranked_perm rank items).length_eq

variable {number}

theorem mem_renumbered {item : α} : item ∈ renumbered rank number items ↔
    ∃ index source, (ranked rank items)[index]? = some source ∧
    item = number source (index + 1) := by
  rw [renumbered, mem_mapIdx]
  constructor
  · intro found
    obtain ⟨index, inside, same⟩ := found
    exact ⟨index, _, getElem?_eq_getElem inside, same.symm⟩
  · intro found
    obtain ⟨index, source, place, same⟩ := found
    obtain ⟨inside, equal⟩ := List.getElem?_eq_some_iff.mp place
    exact ⟨index, inside, by rw [equal, same]⟩

theorem map_renumbered_perm {β : Type u} (key : α → β)
    (untouched : ∀ item count, key (number item count) = key item) :
    ((renumbered rank number items).map key).Perm (items.map key) := by
  have same : (renumbered rank number items).map key =
      (ranked rank items).map key := by
    apply ext_getElem
    · simp [renumbered]
    · intro index left right
      simp [renumbered, untouched]
  rw [same]
  exact (ranked_perm rank items).map key

variable (ranks : ∀ item count, rank (number item count) = count)

include ranks

theorem map_rank_renumbered :
    (renumbered rank number items).map rank = List.range' 1 items.length := by
  apply ext_getElem
  · simp
  · intro index left right
    simp [renumbered, ranks, Nat.add_comm]

theorem rank_renumbered_le {item : α}
    (member : item ∈ renumbered rank number items) :
    1 ≤ rank item ∧ rank item ≤ items.length := by
  have listed := mem_map_of_mem (f := rank) member
  rw [map_rank_renumbered ranks, mem_range'_1] at listed
  omega

theorem renumbered_distinct :
    ((renumbered rank number items).map rank).Nodup := by
  rw [map_rank_renumbered ranks]
  exact nodup_range'

theorem renumbered_lt_iff {β : Type u} {key : α → β}
    (untouched : ∀ item count, key (number item count) = key item)
    (keys : (items.map key).Nodup) (distinct : (items.map rank).Nodup)
    {left right newLeft newRight : α} (leftIn : left ∈ items)
    (rightIn : right ∈ items)
    (newLeftIn : newLeft ∈ renumbered rank number items)
    (newRightIn : newRight ∈ renumbered rank number items)
    (sameLeft : key newLeft = key left)
    (sameRight : key newRight = key right) :
    rank newLeft < rank newRight ↔ rank left < rank right := by
  obtain ⟨first, source, sourceAt, rfl⟩ := mem_renumbered.mp newLeftIn
  obtain ⟨second, other, otherAt, rfl⟩ := mem_renumbered.mp newRightIn
  have listed : ∀ {index : Nat} {item : α},
      (ranked rank items)[index]? = some item → item ∈ items := by
    intro index item found
    exact (ranked_perm rank items).subset (mem_of_getElem? found)
  have unique := inj_on_of_nodup_map keys
  have sourceSame : source = left := by
    apply unique (listed sourceAt) leftIn
    rw [← sameLeft, untouched]
  have otherSame : other = right := by
    apply unique (listed otherAt) rightIn
    rw [← sameRight, untouched]
  subst sourceSame
  subst otherSame
  rw [ranks, ranks, ← ranked_lt_iff distinct sourceAt otherAt]
  omega

end Foundation
