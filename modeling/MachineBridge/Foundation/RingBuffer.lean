import Mathlib.Data.List.Basic

/-!
# RingBuffer buffers

A storage of a fixed size which keeps the newest items of a sequence.  Items
are written behind the ones before them and wrap around at the end; a slice is
read in one piece, or in two when it wraps.
-/

namespace Foundation

open List

variable {α : Type*}

def overwrite (storage : List α) (offset : Nat) (items : List α) : List α :=
  storage.take offset ++ items ++ storage.drop (offset + items.length)

structure RingBuffer (α : Type*) where
  capacity : Nat
  storage : List α
  (writeOffset retained : Nat := 0)

namespace RingBuffer

def push (ring : RingBuffer α) (items : List α) : RingBuffer α :=
  if ring.capacity ≤ items.length then
    { ring with
      storage := overwrite ring.storage 0
        (items.drop (items.length - ring.capacity))
      writeOffset := 0
      retained := ring.capacity }
  else
    let first := min items.length (ring.capacity - ring.writeOffset)
    let storage := overwrite ring.storage ring.writeOffset (items.take first)
    { ring with
      storage :=
        if first < items.length then overwrite storage 0 (items.drop first)
        else storage
      writeOffset := (ring.writeOffset + items.length) % ring.capacity
      retained := min ring.capacity (ring.retained + items.length) }

/-- The items from `start` on, counted from the oldest one which is kept. -/
def slice (ring : RingBuffer α) (start length : Nat) : List α :=
  let ringStart := (ring.writeOffset + ring.capacity - ring.retained + start) %
    ring.capacity
  let ringEnd := ringStart + length
  if ringEnd ≤ ring.capacity then (ring.storage.drop ringStart).take length
  else ring.storage.drop ringStart ++ ring.storage.take (ringEnd - ring.capacity)

/-- The ring keeps the newest of the items which were written. -/
structure Holds (ring : RingBuffer α) (items : List α) : Prop where
  size : ring.storage.length = ring.capacity
  offset : ring.writeOffset < ring.capacity
  retained : ring.retained = min ring.capacity items.length
  kept : ∀ back, 0 < back → back ≤ ring.retained →
    ring.storage[(ring.writeOffset + ring.capacity - back) % ring.capacity]? =
      items[items.length - back]?

variable {items storage : List α} {offset : Nat} {ring : RingBuffer α}

section

variable (fits : offset + items.length ≤ storage.length)
include fits

@[simp] theorem length_overwrite :
    (overwrite storage offset items).length = storage.length := by
  simp only [overwrite, length_append, length_take, length_drop]
  omega

theorem getElem?_overwrite (index : Nat) :
    (overwrite storage offset items)[index]? = if offset ≤ index ∧ index <
    offset +
    items.length then items[index - offset]? else storage[index]? := by
  have before : (storage.take offset).length = offset := by
    rw [length_take]
    omega
  rw [overwrite, append_assoc]
  by_cases early : index < offset
  · rw [if_neg (by omega), getElem?_append_left (by omega),
      getElem?_take_of_lt early]
  · rw [getElem?_append_right (by omega), before]
    by_cases late : index < offset + items.length
    · rw [if_pos (by omega), getElem?_append_left (by omega)]
    · rw [if_neg (by omega), getElem?_append_right (by omega), getElem?_drop]
      congr 1
      omega

end

theorem holds_empty {capacity : Nat} (positive : 0 < capacity)
    (size : storage.length = capacity) :
    ({ capacity, storage } : RingBuffer α).Holds [] :=
  ⟨size, positive, (Nat.min_zero _).symm,
    fun _ some none => absurd some (by simpa using none)⟩

section

variable (size : ring.storage.length = ring.capacity)
include size

theorem getElem?_push (offset : ring.writeOffset < ring.capacity)
    (short : items.length < ring.capacity) (index : Nat) :
    (ring.push items).storage[index]? = if ring.writeOffset ≤ index ∧
    index < ring.capacity ∧ index < ring.writeOffset +
    items.length then items[index - ring.writeOffset]? else if index +
    ring.capacity < ring.writeOffset + items.length then
    items[index + ring.capacity - ring.writeOffset]? else ring.storage[index]?
    := by
  rw [push, if_neg (by omega)]
  dsimp only
  have first :
      (items.take (min items.length (ring.capacity - ring.writeOffset))).length
      = min items.length (ring.capacity - ring.writeOffset) := by
    rw [length_take]
    omega
  have fits : ring.writeOffset +
      (items.take (min items.length (ring.capacity - ring.writeOffset))).length
      ≤ ring.storage.length := by
    omega
  split
  case isTrue wraps =>
    have rest : 0 + (items.drop (min items.length
        (ring.capacity - ring.writeOffset))).length ≤
          (overwrite ring.storage ring.writeOffset (items.take (min
            items.length (ring.capacity - ring.writeOffset)))).length := by
      rw [length_overwrite fits, length_drop]
      omega
    rw [getElem?_overwrite rest, getElem?_overwrite fits, first, length_drop]
    by_cases start : index + ring.capacity < ring.writeOffset + items.length
    · rw [if_pos (by omega), if_neg (by omega), if_pos start, getElem?_drop]
      congr 1
      omega
    · rw [if_neg (by omega)]
      by_cases inside : ring.writeOffset ≤ index ∧ index < ring.capacity
      · rw [if_pos (by omega), if_pos (by omega), getElem?_take_of_lt]
        omega
      · rw [if_neg (by omega), if_neg (by omega), if_neg start]
  case isFalse whole =>
    rw [getElem?_overwrite fits, first]
    by_cases inside : ring.writeOffset ≤ index ∧ index < ring.capacity ∧
        index < ring.writeOffset + items.length
    · rw [if_pos (by omega), if_pos inside, getElem?_take_of_lt]
      omega
    · rw [if_neg (by omega), if_neg inside, if_neg (by omega)]

theorem length_push
    (offset : ring.writeOffset < ring.capacity) (items : List α) :
    (ring.push items).storage.length = ring.capacity := by
  rw [push]
  split
  case isTrue long =>
    rw [length_overwrite, size]
    rw [length_drop]
    omega
  case isFalse short =>
    dsimp only
    have first : ring.writeOffset + (items.take (min items.length
        (ring.capacity - ring.writeOffset))).length ≤ ring.storage.length := by
      rw [length_take]
      omega
    split
    · rw [length_overwrite, length_overwrite first, size]
      rw [length_overwrite first, length_drop]
      omega
    · rw [length_overwrite first, size]

end

theorem mod_place {value bound : Nat} (small : value < 2 * bound) :
    value % bound < bound ∧
    (value % bound = value ∨ value % bound + bound = value) := by
  refine ⟨Nat.mod_lt _ (by omega), ?_⟩
  by_cases below : value < bound
  · exact .inl (Nat.mod_eq_of_lt below)
  · rw [Nat.mod_eq_sub_mod (Nat.le_of_not_lt below),
      Nat.mod_eq_of_lt (by omega)]
    omega

theorem position {capacity count back : Nat} (bound : offset < capacity)
    (short : count < capacity) (positive : 0 < back) (inside : back ≤ capacity) :
    ((offset + count) % capacity + capacity - back) % capacity < capacity ∧
      (((offset + count) % capacity + capacity - back) % capacity + back =
          offset + count ∨
        ((offset + count) % capacity + capacity - back) % capacity + back =
          offset + count + capacity ∨
        ((offset + count) % capacity + capacity - back) % capacity + back +
          capacity = offset + count) := by
  obtain ⟨wrapped, written⟩ :=
    mod_place (show offset + count < 2 * capacity by omega)
  generalize (offset + count) % capacity = next at wrapped written ⊢
  obtain ⟨below, place⟩ :=
    mod_place (show next + capacity - back < 2 * capacity by omega)
  generalize (next + capacity - back) % capacity = index at below place ⊢
  omega

theorem push_holds {before : List α} (holds : ring.Holds before)
    (items : List α) : (ring.push items).Holds (before ++ items) := by
  have size := holds.size
  have offset := holds.offset
  have retained := holds.retained
  have stored := length_push size offset items
  by_cases long : ring.capacity ≤ items.length
  · have shape : ring.push items = { ring with
        storage := overwrite ring.storage 0
          (items.drop (items.length - ring.capacity))
        writeOffset := 0
        retained := ring.capacity } := if_pos long
    rw [shape] at stored ⊢
    refine ⟨stored, Nat.lt_of_le_of_lt (Nat.zero_le _) offset, ?_, ?_⟩
    · rw [length_append]
      dsimp only
      omega
    · intro back positive inside
      dsimp only at inside ⊢
      rw [Nat.mod_eq_of_lt (by omega), getElem?_overwrite, if_pos,
        getElem?_drop, length_append, getElem?_append_right (by omega)]
      · congr 1
        omega
      · rw [length_drop]
        omega
      · rw [length_drop]
        omega
  · have short := Nat.lt_of_not_le long
    have next : (ring.push items).writeOffset =
        (ring.writeOffset + items.length) % ring.capacity := by
      rw [push, if_neg long]
    have held : (ring.push items).retained =
        min ring.capacity (ring.retained + items.length) := by
      rw [push, if_neg long]
    have capacity : (ring.push items).capacity = ring.capacity := by
      rw [push, if_neg long]
    have inside : (ring.writeOffset + items.length) % ring.capacity <
        ring.capacity := Nat.mod_lt _ (Nat.lt_of_le_of_lt (Nat.zero_le _) offset)
    refine ⟨stored.trans capacity.symm, ?_, ?_, ?_⟩
    · rw [next, capacity]
      exact inside
    · rw [held, capacity, length_append]
      omega
    · intro back positive bound
      rw [held, Nat.le_min] at bound
      rw [next, capacity, getElem?_push size offset short, length_append]
      obtain ⟨below, place⟩ := position offset short positive bound.1
      clear stored next held capacity inside
      generalize ((ring.writeOffset + items.length) % ring.capacity +
        ring.capacity - back) % ring.capacity = index at below place ⊢
      by_cases recent : back ≤ items.length
      · rw [getElem?_append_right (by omega)]
        by_cases start : ring.writeOffset ≤ index ∧ index < ring.capacity ∧
            index < ring.writeOffset + items.length
        · rw [if_pos start]
          congr 1
          omega
        · rw [if_neg start, if_pos (by omega)]
          congr 1
          omega
      · rw [if_neg (by omega), if_neg (by omega),
          getElem?_append_left (by omega)]
        have old := holds.kept (back - items.length) (by omega) (by omega)
        obtain ⟨low, cell⟩ := mod_place (show ring.writeOffset +
          ring.capacity - (back - items.length) < 2 * ring.capacity by omega)
        generalize (ring.writeOffset + ring.capacity - (back - items.length)) %
          ring.capacity = slot at low cell old
        have same : index = slot := by omega
        rw [same, old]
        congr 1
        omega

@[simp] theorem capacity_push (ring : RingBuffer α) (items : List α) :
    (ring.push items).capacity = ring.capacity := by
  rw [push]
  split <;> rfl

theorem slice_eq (holds : ring.Holds items) {start length : Nat}
    (inside : start + length ≤ ring.retained) : ring.slice start length =
    (items.drop (items.length - ring.retained + start)).take length := by
  have size := holds.size
  have offset := holds.offset
  have ⟨full, stored⟩ := Nat.le_min.mp (Nat.le_of_eq holds.retained)
  have kept := holds.kept
  have wide : ring.writeOffset + ring.capacity - ring.retained + start <
      2 * ring.capacity := by omega
  obtain ⟨below, begins⟩ := mod_place wide
  rw [slice]
  generalize (ring.writeOffset + ring.capacity - ring.retained + start) %
    ring.capacity = first at below begins ⊢
  apply ext_getElem?
  intro index
  by_cases within : index < length
  · obtain ⟨back, counted⟩ : ∃ back, back + start + index = ring.retained :=
      ⟨ring.retained - start - index, by omega⟩
    have old := kept back (by omega) (by omega)
    obtain ⟨inner, cell⟩ := mod_place (show ring.writeOffset + ring.capacity -
      back < 2 * ring.capacity by omega)
    generalize (ring.writeOffset + ring.capacity - back) % ring.capacity = slot
      at old inner cell
    have place : slot = first + index ∨ slot + ring.capacity = first + index :=
      by omega
    have item : items.length - back =
        items.length - ring.retained + start + index := by omega
    clear begins cell wide counted inside
    rw [getElem?_take_of_lt within, getElem?_drop, ← item, ← old]
    split
    case isTrue whole =>
      rw [getElem?_take_of_lt within, getElem?_drop]
      congr 1
      omega
    case isFalse wraps =>
      have head : (ring.storage.drop first).length = ring.capacity - first := by
        rw [length_drop, size]
      by_cases early : index < ring.capacity - first
      · rw [getElem?_append_left (by omega), getElem?_drop]
        congr 1
        omega
      · rw [getElem?_append_right (by omega), getElem?_take_of_lt (by omega)]
        congr 1
        omega
  · rw [getElem?_eq_none, getElem?_eq_none]
    · rw [length_take]
      omega
    · split
      · rw [length_take]
        omega
      · rw [length_append, length_drop, length_take]
        omega

end RingBuffer

end Foundation
