import MachineBridge.Foundation.Number
import MachineBridge.Foundation.Text
import Mathlib.Data.List.Nodup

/-!
# JSON values

Numbers are exact, texts are sequences of UTF-16 code units, and an object is
the list of its fields in their order.
-/

namespace Foundation

open List

inductive Json where
  | null
  | boolean (value : Bool)
  | number (value : ℚ)
  | string (content : Text)
  | array (items : List Json)
  | object (fields : List (Text × Json))

namespace Json

def isObject : Json → Bool
  | object _ => true
  | _ => false

def field? (key : Text) : Json → Option Json
  | object fields => fields.lookup key
  | _ => none

def natural (number : Nat) : Json := .number number

def safeInteger? : Json → Option Int
  | number value => if value.den = 1 && isSafeInt value.num then some value.num
      else none
  | _ => none

/-!
## Equality of JSON values

The fields of an object have distinct names, and their order is of no meaning:
two objects are the same if they have the same names with the same values.
-/

mutual

/-- A value and all the values inside it. -/
def parts : Json → List Json
  | array items => array items :: partsOfItems items
  | object fields => object fields :: partsOfFields fields
  | value => [value]

def partsOfItems : List Json → List Json
  | [] => []
  | item :: items => parts item ++ partsOfItems items

def partsOfFields : List (Text × Json) → List Json
  | [] => []
  | (_, value) :: fields => parts value ++ partsOfFields fields

end

theorem self_mem_parts (value : Json) : value ∈ value.parts := by
  cases value <;> exact mem_cons_self

theorem parts_subset_item {items : List Json} {item : Json}
    (inside : item ∈ items) : item.parts ⊆ (array items).parts := by
  suffices found : item.parts ⊆ partsOfItems items from
    fun part known => mem_cons_of_mem _ (found known)
  induction items with
  | nil => cases inside
  | cons first items induction =>
    rw [partsOfItems]
    rcases mem_cons.mp inside with same | rest
    · rw [same]
      exact subset_append_left _ _
    · exact List.Subset.trans (induction rest) (subset_append_right _ _)

theorem parts_subset_field {fields : List (Text × Json)} {field : Text × Json}
    (inside : field ∈ fields) : field.2.parts ⊆ (object fields).parts := by
  suffices found : field.2.parts ⊆ partsOfFields fields from
    fun part known => mem_cons_of_mem _ (found known)
  induction fields with
  | nil => cases inside
  | cons first fields induction =>
    rw [partsOfFields]
    rcases mem_cons.mp inside with same | rest
    · rw [same]
      exact subset_append_left _ _
    · exact List.Subset.trans (induction rest) (subset_append_right _ _)

mutual

theorem parts_subset (value part : Json) (inside : part ∈ value.parts) :
    part.parts ⊆ value.parts := by
  cases value with
  | array items =>
    rcases mem_cons.mp inside with same | deeper
    · rw [same]
      exact List.Subset.refl _
    · exact subset_cons_of_subset _ (parts_subset_items items part deeper)
  | object fields =>
    rcases mem_cons.mp inside with same | deeper
    · rw [same]
      exact List.Subset.refl _
    · exact subset_cons_of_subset _ (parts_subset_fields fields part deeper)
  | null | boolean _ | number _ | string _ =>
    rw [mem_singleton.mp inside]
    exact List.Subset.refl _

theorem parts_subset_items (items : List Json) (part : Json)
    (inside : part ∈ partsOfItems items) :
    part.parts ⊆ partsOfItems items := by
  cases items with
  | nil => cases inside
  | cons item items =>
    rcases mem_append.mp inside with here | later
    · exact subset_append_of_subset_left _ (parts_subset item part here)
    · exact subset_append_of_subset_right _
        (parts_subset_items items part later)

theorem parts_subset_fields (fields : List (Text × Json)) (part : Json)
    (inside : part ∈ partsOfFields fields) :
    part.parts ⊆ partsOfFields fields := by
  cases fields with
  | nil => cases inside
  | cons field fields =>
    rcases mem_append.mp inside with here | later
    · exact subset_append_of_subset_left _ (parts_subset field.2 part here)
    · exact subset_append_of_subset_right _
        (parts_subset_fields fields part later)

end

def NamesDistinct : Json → Prop
  | object fields => (fields.map Prod.fst).Nodup
  | _ => True

instance : DecidablePred NamesDistinct := fun value =>
  match value with
  | object fields => inferInstanceAs (Decidable (fields.map Prod.fst).Nodup)
  | null | boolean _ | number _ | string _ | array _ => .isTrue trivial

/-- In every object inside a value the names of the fields are distinct. -/
def Distinct (value : Json) : Prop := ∀ part ∈ value.parts, NamesDistinct part

instance : DecidablePred Distinct := fun value =>
  inferInstanceAs (Decidable (∀ part ∈ value.parts, NamesDistinct part))

theorem Distinct.names {fields : List (Text × Json)}
    (distinct : Distinct (object fields)) : (fields.map Prod.fst).Nodup :=
  distinct _ (self_mem_parts _)

theorem Distinct.of_subset {value part : Json} (distinct : Distinct value)
    (inside : part.parts ⊆ value.parts) : Distinct part :=
  fun inner known => distinct inner (inside known)

theorem Distinct.part {value part : Json} (distinct : Distinct value)
    (inside : part ∈ value.parts) : Distinct part :=
  distinct.of_subset (parts_subset value part inside)

theorem mem_of_lookup {α : Type*} {fields : List (Text × α)} {key : Text}
    {value : α} (found : fields.lookup key = some value) :
    (key, value) ∈ fields := by
  induction fields with
  | nil => cases found
  | cons field fields induction =>
    rw [lookup_cons] at found
    split at found
    case h_1 same =>
      cases found
      rw [eq_of_beq same]
      exact mem_cons_self
    case h_2 => exact mem_cons_of_mem _ (induction found)

theorem lookup_isSome_iff {α : Type*} {fields : List (Text × α)} {key : Text} :
    (fields.lookup key).isSome = true ↔ key ∈ fields.map Prod.fst := by
  induction fields with
  | nil => exact iff_of_false Bool.false_ne_true not_mem_nil
  | cons field fields induction =>
    rw [lookup_cons, map_cons, mem_cons, ← induction]
    split
    case h_1 same => exact iff_of_true rfl (.inl (eq_of_beq same))
    case h_2 other =>
      have apart : key ≠ field.1 := by
        intro same
        rw [same, beq_self_eq_true] at other
        cases other
      exact (or_iff_right apart).symm

mutual

/-- The equality of JSON values. -/
def Same : Json → Json → Prop
  | null, null => True
  | boolean left, boolean right => left = right
  | number left, number right => left = right
  | string left, string right => left = right
  | array left, array right => SameItems left right
  | object left, object right => SameFields left right ∧
      ∀ key, (right.lookup key).isSome = true → (left.lookup key).isSome = true
  | _, _ => False

def SameItems : List Json → List Json → Prop
  | [], [] => True
  | left :: lefts, right :: rights => Same left right ∧ SameItems lefts rights
  | _, _ => False

/-- Every field has a field of the same name and value on the other side. -/
def SameFields : List (Text × Json) → List (Text × Json) → Prop
  | [], _ => True
  | (key, left) :: fields, others =>
    (∃ right, others.lookup key = some right ∧ Same left right) ∧
      SameFields fields others

end

end Json

end Foundation
