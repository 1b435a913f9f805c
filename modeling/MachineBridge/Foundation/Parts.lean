import Mathlib.Algebra.BigOperators.Group.List.Basic
import Mathlib.Algebra.GroupWithZero.Nat

/-!
# Parts between separators

A sequence is cut at every separator.  The parts have all symbols but the
separators, and only a sequence without separators is a single part.
-/

namespace Foundation

open List

variable {α : Type} [DecidableEq α] {separator other : α}

theorem splitOn_cons_other (different : other ≠ separator) (content : List α) :
    (other :: content).splitOn separator =
    (content.splitOn separator).modifyHead (other :: ·) := by
  rw [splitOn_cons_eq_if_modifyHead, if_neg]
  rw [beq_iff_eq]
  exact different

theorem exists_splitOn_cons (different : other ≠ separator)
    (content : List α) : ∃ first rest,
    content.splitOn separator = first :: rest ∧
    (other :: content).splitOn separator = (other :: first) :: rest := by
  rw [splitOn_cons_other different]
  cases parts : content.splitOn separator with
  | nil => exact absurd parts (splitOn_ne_nil separator content)
  | cons first rest => exact ⟨first, rest, rfl, rfl⟩

theorem length_splitOn (content : List α) :
    (content.splitOn separator).length = content.count separator + 1 := by
  induction content with
  | nil => rfl
  | cons symbol content induction =>
    by_cases same : symbol = separator
    · rw [same, ← nil_append (separator :: content), splitOn_append_cons_self,
        splitOn_nil, length_append, induction, nil_append, count_cons_self]
      exact Nat.add_comm _ _
    · rw [splitOn_cons_other same, length_modifyHead, induction,
        count_cons_of_ne same]

variable {content : List α} {β : Type}

theorem not_mem_of_mem_splitOn {part : List α}
    (member : part ∈ content.splitOn separator) : separator ∉ part := by
  induction content generalizing part with
  | nil =>
    rw [splitOn_nil, mem_singleton] at member
    rw [member]
    exact not_mem_nil
  | cons symbol content induction =>
    by_cases same : symbol = separator
    · rw [same, ← nil_append (separator :: content),
        splitOn_append_cons_self, splitOn_nil] at member
      rcases mem_cons.mp member with empty | later
      · rw [empty]
        exact not_mem_nil
      · exact induction later
    · obtain ⟨first, rest, before, after⟩ :=
        exists_splitOn_cons same content
      rw [after] at member
      rw [before] at induction
      rcases mem_cons.mp member with extended | later
      · rw [extended]
        exact not_mem_cons_of_ne_of_not_mem (Ne.symm same)
          (induction mem_cons_self)
      · exact induction (mem_cons_of_mem _ later)

theorem mem_of_mem_part {part : List α} {symbol : α}
    (member : part ∈ content.splitOn separator) (inside : symbol ∈ part) :
    symbol ∈ content := by
  induction content generalizing part with
  | nil =>
    rw [splitOn_nil, mem_singleton] at member
    rw [member] at inside
    exact inside
  | cons head content induction =>
    by_cases same : head = separator
    · rw [same, ← nil_append (separator :: content),
        splitOn_append_cons_self, splitOn_nil] at member
      rcases mem_cons.mp member with empty | later
      · rw [empty] at inside
        cases inside
      · exact mem_cons_of_mem _ (induction later inside)
    · obtain ⟨first, rest, before, after⟩ :=
        exists_splitOn_cons same content
      rw [after] at member
      rw [before] at induction
      rcases mem_cons.mp member with extended | later
      · rw [extended] at inside
        rcases mem_cons.mp inside with here | below
        · rw [here]
          exact mem_cons_self
        · exact mem_cons_of_mem _ (induction mem_cons_self below)
      · exact mem_cons_of_mem _ (induction (mem_cons_of_mem _ later) inside)

theorem count_splitOn (different : other ≠ separator) (content : List α) :
    ((content.splitOn separator).map (List.count other)).sum =
    content.count other := by
  induction content with
  | nil => rfl
  | cons symbol content induction =>
    by_cases same : symbol = separator
    · rw [same, ← nil_append (separator :: content), splitOn_append_cons_self,
        splitOn_nil, map_append, sum_append, induction, nil_append,
        count_cons_of_ne (Ne.symm different)]
      exact Nat.zero_add _
    · obtain ⟨first, rest, before, after⟩ :=
        exists_splitOn_cons same content
      rw [before] at induction
      rw [after, map_cons, sum_cons, count_cons,
        count_cons, ← induction, map_cons, sum_cons]
      omega

def filledParts (separator : α) (content : List α) : List (List α) :=
  (content.splitOn separator).filter fun part => part ≠ []

theorem count_filledParts (different : other ≠ separator) (content : List α) :
    ((filledParts separator content).map (List.count other)).sum =
    content.count other := by
  rw [← count_splitOn different, filledParts]
  generalize content.splitOn separator = parts
  induction parts with
  | nil => rfl
  | cons part parts induction =>
    cases part with
    | nil =>
      rw [filter_cons_of_neg (by simp), induction, map_cons, sum_cons]
      exact (Nat.zero_add _).symm
    | cons symbol part =>
      rw [filter_cons_of_pos (by simp), map_cons,
        map_cons, sum_cons, sum_cons, induction]

theorem filledParts_ne_nil (different : other ≠ separator)
    (member : other ∈ content) : filledParts separator content ≠ [] := by
  intro none
  have count := count_filledParts different content
  rw [none] at count
  have positive : 0 < content.count other := count_pos_iff.mpr member
  rw [← count] at positive
  exact absurd positive (Nat.lt_irrefl _)

theorem filledParts_of_not_mem (plain : separator ∉ content)
    (some : content ≠ []) : filledParts separator content = [content] := by
  rw [filledParts, splitOn_eq_singleton plain,
    filter_cons_of_pos (by simpa using some)]
  rfl

theorem filledParts_append_cons (before after : List α) :
    filledParts separator (before ++ separator :: after) =
    filledParts separator before ++ filledParts separator after := by
  rw [filledParts, splitOn_append_cons_self, filter_append]
  rfl

theorem eq_singleton_of_flatMap {α : Type} {items : List α}
    {lists : α → List β} {item : α → β}
    (some : ∀ index ∈ items, lists index ≠ [])
    (same : items.flatMap lists = items.map item) :
    ∀ index ∈ items, lists index = [item index] := by
  induction items with
  | nil =>
    intro index member
    cases member
  | cons index items induction =>
    have others : ∀ other ∈ items, lists other ≠ [] := by
      intro other member
      exact some other (mem_cons_of_mem _ member)
    have enough : items.length ≤ (items.flatMap lists).length := by
      clear induction same some
      induction items with
      | nil => exact Nat.le_refl _
      | cons other items induction =>
        have first := length_pos_iff.mpr (others other mem_cons_self)
        have rest := induction fun last member =>
          others last (mem_cons_of_mem _ member)
        rw [flatMap_cons, length_append, length_cons]
        omega
    rw [flatMap_cons, map_cons] at same
    cases first : lists index with
    | nil => exact absurd first (some index mem_cons_self)
    | cons head tail =>
      rw [first, cons_append, cons_eq_cons] at same
      obtain ⟨equal, rest⟩ := same
      have empty : tail = [] := by
        have lengths := congrArg List.length rest
        rw [length_append, length_map] at lengths
        apply length_eq_zero_iff.mp
        omega
      rw [empty, nil_append] at rest
      intro other member
      rcases mem_cons.mp member with here | later
      · rw [here, first, empty, equal]
      · exact induction others rest other later

theorem mapM_flatMap_eq_some {ι α : Type} {items : List ι} {lists : ι → List α}
    {read : α → Option β} {results : List β}
    (all : (items.flatMap lists).mapM read = some results) :
    results = items.flatMap (fun index => ((lists index).mapM read).getD []) ∧
    ∀ index ∈ items, ((lists index).mapM read).isSome = true := by
  induction items generalizing results with
  | nil =>
    cases all
    constructor
    · rfl
    · intro index member
      cases member
  | cons index items induction =>
    rw [flatMap_cons, mapM_append] at all
    cases first : (lists index).mapM read with
    | none =>
      rw [first] at all
      cases all
    | some here =>
      cases later : (items.flatMap lists).mapM read with
      | none =>
        rw [first, later] at all
        cases all
      | some rest =>
        rw [first, later] at all
        cases all
        obtain ⟨same, others⟩ := induction later
        constructor
        · rw [flatMap_cons, first, ← same]
          rfl
        · intro other member
          rcases mem_cons.mp member with equal | below
          · rw [equal, first]
            rfl
          · exact others other below

theorem mapM_eq_none_iff {α : Type} {items : List α} {read : α → Option β} :
    items.mapM read = none ↔ ∃ item ∈ items, read item = none := by
  induction items with
  | nil => simp
  | cons item items induction =>
    rw [mapM_cons]
    cases first : read item with
    | none => simp [first]
    | some result =>
      cases rest : items.mapM read with
      | none =>
        obtain ⟨other, member, failed⟩ := induction.mp rest
        simp only [Option.bind_eq_bind, Option.bind_some,
          Option.bind_none, mem_cons, true_iff]
        exact ⟨other, .inr member, failed⟩
      | some results =>
        have none : ¬ ∃ item ∈ items, read item = none := by
          rw [← induction, rest]
          exact Option.some_ne_none results
        simp only [Option.bind_eq_bind, Option.bind_some,
          Option.pure_def, reduceCtorEq, false_iff]
        rintro ⟨other, member, failed⟩
        rcases mem_cons.mp member with same | later
        · rw [same, first] at failed
          cases failed
        · exact none ⟨other, later, failed⟩

theorem mapM_cons_eq_some {α : Type} {item : α} {items : List α}
    {read : α → Option β} {results : List β}
    (all : (item :: items).mapM read = some results) : ∃ here rest,
    read item = some here ∧ items.mapM read = some rest ∧
    results = here :: rest := by
  rw [mapM_cons] at all
  cases first : read item with
  | none =>
    rw [first] at all
    cases all
  | some here =>
    cases later : items.mapM read with
    | none =>
      rw [first, later] at all
      cases all
    | some rest =>
      rw [first, later] at all
      cases all
      exact ⟨here, rest, rfl, rfl, rfl⟩

theorem mapM_eq_singleton {α : Type} {items : List α} {read : α → Option β}
    {result : β} (all : items.mapM read = some [result]) :
    ∃ item, items = [item] ∧ read item = some result := by
  cases items with
  | nil => cases all
  | cons item items =>
    obtain ⟨here, rest, first, later, same⟩ := mapM_cons_eq_some all
    cases same
    cases items with
    | nil => exact ⟨item, rfl, first⟩
    | cons other items =>
      obtain ⟨_, _, _, _, longer⟩ := mapM_cons_eq_some later
      cases longer

end Foundation
