import Mathlib.Data.List.Nodup

/-!
# Insertion-ordered maps

The maps and plain objects of the program: a key occurs once, a new key goes to
the end, and replacing a value keeps the place of its key.  The uniqueness of
keys is a field, so a map with two entries for one key cannot be built.  An
operation is described by what it does to the membership of entries.
-/

namespace Foundation

open List

universe u v

structure Record (κ : Type u) (ν : Type v) where
  entries : List (κ × ν)
  nodup : (entries.map Prod.fst).Nodup

namespace Record

variable {κ : Type u} {ν : Type v}

theorem ext {left right : Record κ ν} (same : left.entries = right.entries) :
    left = right := by
  cases left
  cases right
  cases same
  rfl

instance [DecidableEq κ] [DecidableEq ν] : DecidableEq (Record κ ν) :=
  fun left right => decidable_of_iff (left.entries = right.entries)
    ⟨ext, congrArg entries⟩

/-- The map without entries. -/
def empty : Record κ ν := ⟨[], nodup_nil⟩

instance : Inhabited (Record κ ν) := ⟨empty⟩

section

variable (record : Record κ ν)

def keys : List κ := record.entries.map Prod.fst

def values : List ν := record.entries.map Prod.snd

def size : Nat := record.entries.length

@[simp] theorem entries_empty : (empty : Record κ ν).entries = [] := rfl

@[simp] theorem keys_empty : (empty : Record κ ν).keys = [] := rfl

@[simp] theorem size_empty : (empty : Record κ ν).size = 0 := rfl

theorem keys_nodup : record.keys.Nodup := record.nodup

@[simp] theorem length_keys : record.keys.length = record.size := by
  simp [keys, size]

end

variable {key other : κ} {record : Record κ ν} {value stored : ν} {μ : Type*}
  {entries : List (κ × ν)}

theorem mem_keys :
    key ∈ record.keys ↔ ∃ value, (key, value) ∈ record.entries := by
  simp [keys]

theorem mem_values :
    value ∈ record.values ↔ ∃ key, (key, value) ∈ record.entries := by
  simp [values]

@[simp] theorem length_values (record : Record κ ν) :
    record.values.length = record.size := by
  simp [values, size]

theorem value_unique {first second : ν} (one : (key, first) ∈ record.entries)
    (other : (key, second) ∈ record.entries) : first = second := by
  have same := inj_on_of_nodup_map record.nodup one other rfl
  exact (Prod.mk.inj same).2

/-- The entries which satisfy a condition. -/
def filter (record : Record κ ν) (condition : κ → ν → Bool) : Record κ ν where
  entries := record.entries.filter fun entry => condition entry.1 entry.2
  nodup := record.nodup.sublist (filter_sublist.map Prod.fst)

@[simp] theorem mem_filter {condition : κ → ν → Bool} :
    (key, value) ∈ (record.filter condition).entries ↔
    (key, value) ∈ record.entries ∧ condition key value = true := by
  simp [filter]

def map {μ : Type*} (record : Record κ ν) (change : ν → μ) : Record κ μ where
  entries := record.entries.map fun entry => (entry.1, change entry.2)
  nodup := by
    rw [map_map]
    exact record.nodup

@[simp] theorem keys_map (record : Record κ ν) (change : ν → μ) :
    (record.map change).keys = record.keys := by
  simp [map, keys]

theorem mem_map {change : ν → μ} {value : μ} :
    (key, value) ∈ (record.map change).entries ↔ ∃ old,
    (key, old) ∈ record.entries ∧ change old = value := by
  simp [map]

variable [DecidableEq κ]

def get? (record : Record κ ν) (key : κ) : Option ν :=
  (record.entries.find? fun entry => entry.1 == key).map Prod.snd

def contains (record : Record κ ν) (key : κ) : Bool :=
  (record.get? key).isSome

theorem get?_eq_some :
    record.get? key = some value ↔ (key, value) ∈ record.entries := by
  constructor
  · intro found
    obtain ⟨entry, first, same⟩ := Option.map_eq_some_iff.mp found
    have equal : entry.1 = key := by simpa using find?_some first
    have member := mem_of_find?_eq_some first
    rw [← equal, ← same]
    exact member
  · intro member
    cases found : record.entries.find? fun entry => entry.1 == key with
    | none =>
      have absent := find?_eq_none.mp found _ member
      simp at absent
    | some entry =>
      have equal : entry.1 = key := by simpa using find?_some found
      have stored := mem_of_find?_eq_some found
      rw [get?, found]
      have same : (key, entry.2) ∈ record.entries := by
        rw [← equal]
        exact stored
      rw [Option.map_some, value_unique same member]

theorem get?_eq_none : record.get? key = none ↔ key ∉ record.keys := by
  constructor
  · intro missing member
    obtain ⟨value, stored⟩ := mem_keys.mp member
    rw [get?_eq_some.mpr stored] at missing
    cases missing
  · intro absent
    cases found : record.get? key with
    | none => rfl
    | some value =>
      exact absurd (mem_keys.mpr ⟨value, get?_eq_some.mp found⟩) absent

theorem contains_iff : record.contains key = true ↔ key ∈ record.keys := by
  rw [contains, Option.isSome_iff_exists, mem_keys]
  constructor
  · rintro ⟨value, found⟩
    exact ⟨value, get?_eq_some.mp found⟩
  · rintro ⟨value, stored⟩
    exact ⟨value, get?_eq_some.mpr stored⟩

instance (key : κ) (record : Record κ ν) : Decidable (key ∈ record.keys) :=
  inferInstance

/-- Store a value under a key, in the key's place when it has one. -/
def set (record : Record κ ν) (key : κ) (value : ν) : Record κ ν :=
  if present : key ∈ record.keys then
    { entries := record.entries.map fun entry =>
        if entry.1 = key then (key, value) else entry
      nodup := by
        have same : (record.entries.map fun entry =>
            if entry.1 = key then (key, value) else entry).map Prod.fst =
            record.entries.map Prod.fst := by
          rw [map_map]
          apply map_congr_left
          intro entry _
          by_cases equal : entry.1 = key <;> simp [equal]
        rw [same]
        exact record.nodup }
  else
    { entries := record.entries ++ [(key, value)]
      nodup := by
        rw [map_append, map_singleton, ← concat_eq_append, nodup_concat]
        exact ⟨present, record.nodup⟩ }

def delete (record : Record κ ν) (key : κ) : Record κ ν :=
  record.filter fun other _ => other != key

@[simp] theorem mem_set : (other, stored) ∈ (record.set key value).entries ↔
    (other = key ∧ stored = value) ∨
    (other ≠ key ∧ (other, stored) ∈ record.entries) := by
  simp only [set]
  split
  case isTrue present =>
    constructor
    · intro member
      obtain ⟨entry, old, same⟩ := List.mem_map.mp member
      by_cases equal : entry.1 = key
      · rw [if_pos equal] at same
        cases same
        exact .inl ⟨rfl, rfl⟩
      · rw [if_neg equal] at same
        subst same
        exact .inr ⟨equal, old⟩
    · rintro (⟨rfl, rfl⟩ | ⟨different, old⟩)
      · obtain ⟨previous, old⟩ := mem_keys.mp present
        exact List.mem_map.mpr ⟨_, old, if_pos rfl⟩
      · exact List.mem_map.mpr ⟨_, old, if_neg different⟩
  case isFalse absent =>
    rw [mem_append, mem_singleton, Prod.mk.injEq]
    constructor
    · rintro (old | new)
      · refine .inr ⟨?_, old⟩
        rintro rfl
        exact absent (mem_keys.mpr ⟨stored, old⟩)
      · exact .inl new
    · rintro (new | ⟨-, old⟩)
      · exact .inr new
      · exact .inl old

@[simp] theorem mem_delete : (other, stored) ∈ (record.delete key).entries ↔
    other ≠ key ∧ (other, stored) ∈ record.entries := by
  simp [delete, and_comm]

theorem entries_delete_of_split {before after : List (κ × ν)}
    (split : record.entries = before ++ (key, value) :: after) :
    (record.delete key).entries = before ++ after := by
  have once := record.nodup
  rw [split, map_append, map_cons, nodup_append] at once
  obtain ⟨_, rest, apart⟩ := once
  have kept : ∀ entry ∈ before, (entry.1 != key) = true := by
    intro entry member
    rw [bne_iff_ne]
    apply apart
    · exact mem_map_of_mem member
    · exact mem_cons_self
  have others : ∀ entry ∈ after, (entry.1 != key) = true := by
    intro entry member
    rw [bne_iff_ne]
    intro same
    have again : entry.1 ∈ after.map Prod.fst := mem_map_of_mem member
    rw [same] at again
    exact (nodup_cons.mp rest).1 again
  rw [delete, filter]
  dsimp only
  rw [split, filter_append, filter_cons, filter_eq_self.mpr kept,
    filter_eq_self.mpr others]
  simp

@[simp] theorem get?_set (record : Record κ ν) (key other : κ) (value : ν) :
    (record.set key value).get? other = if other =
    key then some value else record.get? other := by
  apply Option.ext
  intro stored
  by_cases equal : other = key
  · rw [equal, if_pos rfl, get?_eq_some, mem_set]
    simp [eq_comm]
  · simp [get?_eq_some, equal]

@[simp] theorem get?_delete (record : Record κ ν) (key other : κ) :
    (record.delete key).get? other = if other =
    key then none else record.get? other := by
  apply Option.ext
  by_cases equal : other = key
  · simp [get?_eq_some, equal]
  · simp [get?_eq_some, equal]

@[simp] theorem get?_empty (key : κ) :
    (empty : Record κ ν).get? key = none := rfl

@[simp] theorem mem_keys_set : other ∈ (record.set key value).keys ↔
    other = key ∨ other ∈ record.keys := by
  by_cases equal : other = key <;> simp [mem_keys, equal]

@[simp] theorem mem_keys_delete :
    other ∈ (record.delete key).keys ↔ other ≠ key ∧ other ∈ record.keys := by
  simp [mem_keys]

theorem size_set_of_mem (present : key ∈ record.keys) (value : ν) :
    (record.set key value).size = record.size := by
  simp [set, present, size]

theorem size_set_of_not_mem (absent : key ∉ record.keys) (value : ν) :
    (record.set key value).size = record.size + 1 := by
  simp [set, absent, size]

theorem size_set_le (record : Record κ ν) (key : κ) (value : ν) :
    (record.set key value).size ≤ record.size + 1 := by
  by_cases present : key ∈ record.keys
  · rw [size_set_of_mem present]
    exact Nat.le_succ _
  · exact Nat.le_of_eq (size_set_of_not_mem present value)

theorem values_set_of_not_mem (absent : key ∉ record.keys) (value : ν) :
    (record.set key value).values = record.values ++ [value] := by
  simp [set, absent, values]

theorem map_values_set (image : ν → μ)
    (member : (key, stored) ∈ record.entries)
    (same : image value = image stored) :
    (record.set key value).values.map image = record.values.map image := by
  have present : key ∈ record.keys := mem_keys.mpr ⟨stored, member⟩
  simp only [set, present, ↓reduceDIte, values, map_map]
  apply map_congr_left
  intro entry old
  by_cases equal : entry.1 = key
  · have unique : entry.2 = stored := by
      have same : (key, entry.2) ∈ record.entries := by
        rw [← equal]
        exact old
      exact value_unique same member
    simp [equal, unique, same]
  · simp [equal]

section

variable (record : Record κ ν)

theorem values_delete_sublist (key : κ) :
    (record.delete key).values.Sublist record.values :=
  filter_sublist.map Prod.snd

@[simp] theorem get?_map (change : ν → μ) (key : κ) :
    (record.map change).get? key = (record.get? key).map change := by
  apply Option.ext
  intro value
  rw [get?_eq_some, mem_map, Option.map_eq_some_iff]
  constructor
  · rintro ⟨old, stored, same⟩
    exact ⟨old, get?_eq_some.mpr stored, same⟩
  · rintro ⟨old, found, same⟩
    exact ⟨old, get?_eq_some.mp found, same⟩

def deleteAll (keys : List κ) : Record κ ν :=
  keys.foldl delete record

def setAll (entries : List (κ × ν)) : Record κ ν :=
  entries.foldl (fun record entry => record.set entry.1 entry.2) record

@[simp] theorem get?_deleteAll (keys : List κ) (key : κ) :
    (record.deleteAll keys).get? key = if key ∈
    keys then none else record.get? key := by
  induction keys generalizing record with
  | nil => simp [deleteAll]
  | cons head keys induction =>
    have rest := induction (record.delete head)
    simp only [deleteAll, foldl_cons] at rest ⊢
    rw [rest, get?_delete]
    by_cases later : key ∈ keys
    · simp [later]
    · by_cases same : key = head <;> simp [later, same]

theorem get?_setAll_of_not_mem (absent : key ∉ entries.map Prod.fst) :
    (record.setAll entries).get? key = record.get? key := by
  induction entries generalizing record with
  | nil => rfl
  | cons entry entries induction =>
    rw [map_cons, mem_cons, not_or] at absent
    have rest := induction (record.set entry.1 entry.2) absent.2
    simp only [setAll, foldl_cons] at rest ⊢
    rw [rest, get?_set, if_neg absent.1]

theorem get?_setAll_of_mem (distinct : (entries.map Prod.fst).Nodup)
    (member : (key, value) ∈ entries) :
    (record.setAll entries).get? key = some value := by
  induction entries generalizing record with
  | nil => cases member
  | cons entry entries induction =>
    rw [map_cons, nodup_cons] at distinct
    rcases mem_cons.mp member with rfl | later
    · have rest := get?_setAll_of_not_mem (record.set key value) distinct.1
      simp only [setAll, foldl_cons] at rest ⊢
      rw [rest, get?_set, if_pos rfl]
    · exact induction (record.set entry.1 entry.2) distinct.2 later

end

@[simp] theorem mem_keys_setAll : key ∈ (record.setAll entries).keys ↔
    key ∈ entries.map Prod.fst ∨ key ∈ record.keys := by
  induction entries generalizing record with
  | nil => simp [setAll]
  | cons entry entries induction =>
    simp only [setAll, foldl_cons] at induction ⊢
    rw [induction, mem_keys_set, map_cons, mem_cons]
    tauto

theorem contains_eq_isSome (record : Record κ ν) (key : κ) :
    key ∈ record.keys ↔ (record.get? key).isSome = true := by
  rw [← contains_iff, contains]

end Record

end Foundation
