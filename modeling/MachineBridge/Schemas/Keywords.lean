import MachineBridge.Foundation.BoundedCheck
import MachineBridge.Foundation.Json
import MachineBridge.Foundation.Utf16

/-!
# Schema keywords

What the keywords of a schema object say about a value, when it is known what
the subschemas say.  The meaning does not depend on how subschemas are given:
they are texts of the catalog in the reference semantics and compiled nodes in
the validator.
-/

namespace MachineBridge.Schemas

open Foundation Check List

inductive SchemaType where
  | null
  | boolean
  | object
  | array
  | number
  | integer
  | string
deriving DecidableEq

/-- The names of `SUPPORTED_TYPES`. -/
def SchemaType.name : SchemaType → Text
  | null => text "null"
  | boolean => text "boolean"
  | object => text "object"
  | array => text "array"
  | number => text "number"
  | integer => text "integer"
  | string => text "string"

/-- The keywords which say something about a value by themselves. -/
structure Assertions where
  types : Option (List SchemaType) := none
  constValue : Option Json := none
  enumValues : Option (List Json) := none
  pattern : Option (Text → Bool) := none
  (minLength maxLength minItems maxItems minProperties : Option Nat := none)
  maxProperties : Option Nat := none
  (minimum maximum exclusiveMinimum exclusiveMaximum : Option ℚ := none)
  multipleOf : Option ℚ := none
  required : List Text := []

inductive AdditionalProperties (σ : Type) where
  | boolean (allowed : Bool)
  | schema (node : σ)

def AdditionalProperties.Accepts {σ : Type} (accepts : σ → Json → Prop)
    (value : Json) : AdditionalProperties σ → Prop
  | boolean allowed => allowed = true
  | schema node => accepts node value

/-- The keywords of a schema object over its subschemas.  A list of
alternatives is never empty when it is given. -/
structure Keywords (σ : Type) where
  assertions : Assertions := {}
  properties : List (Text × σ) := []
  additionalProperties : Option (AdditionalProperties σ) := none
  items : Option σ := none
  (allOf anyOf oneOf : List σ := [])
  (not ifSchema thenSchema elseSchema : Option σ := none)

variable {σ τ : Type}

def AdditionalProperties.subschemas : AdditionalProperties σ → List σ
  | boolean _ => []
  | schema node => [node]

def Keywords.subschemas (keywords : Keywords σ) : List σ :=
  keywords.properties.map Prod.snd ++
    (keywords.additionalProperties.toList.flatMap fun additional =>
      additional.subschemas) ++
    keywords.items.toList ++ keywords.allOf ++ keywords.anyOf ++
    keywords.oneOf ++ keywords.not.toList ++ keywords.ifSchema.toList ++
    keywords.thenSchema.toList ++ keywords.elseSchema.toList

/-- When two values are equal, and when a number is a multiple of another. -/
structure Reading where
  equal : Json → Json → Prop
  multiple : ℚ → ℚ → Prop

def Reading.exact : Reading where
  equal := Json.Same
  multiple value divisor := ∃ quotient : ℤ, value = quotient * divisor

def HasType : SchemaType → Json → Prop
  | .null, value => value = .null
  | .boolean, value => ∃ truth, value = .boolean truth
  | .object, value => ∃ fields, value = .object fields
  | .array, value => ∃ items, value = .array items
  | .number, value => ∃ number, value = .number number
  | .integer, value => ∃ integer : ℤ, value = .number integer
  | .string, value => ∃ content, value = .string content

def Between (minimum maximum : Option Nat) (count : Nat) : Prop :=
  (∀ bound ∈ minimum, bound ≤ count) ∧ ∀ bound ∈ maximum, count ≤ bound

namespace Assertions

variable (reading : Reading) (assertions : Assertions)

section

variable (value : Json)

def TypesHold : Prop :=
  ∀ types ∈ assertions.types, ∃ type ∈ types, HasType type value

def ConstHolds : Prop :=
  ∀ constant ∈ assertions.constValue, reading.equal value constant

def EnumHolds : Prop :=
  ∀ candidates ∈ assertions.enumValues,
    ∃ candidate ∈ candidates, reading.equal value candidate

end

/-- A length is a number of characters. -/
structure StringHolds (content : Text) : Prop where
  length : Between assertions.minLength assertions.maxLength
    (scalarValues content).length
  pattern : ∀ test ∈ assertions.pattern, test content = true

structure NumberHolds (number : ℚ) : Prop where
  minimum : ∀ bound ∈ assertions.minimum, bound ≤ number
  maximum : ∀ bound ∈ assertions.maximum, number ≤ bound
  exclusiveMinimum : ∀ bound ∈ assertions.exclusiveMinimum, bound < number
  exclusiveMaximum : ∀ bound ∈ assertions.exclusiveMaximum, number < bound
  multipleOf : ∀ divisor ∈ assertions.multipleOf,
    reading.multiple number divisor

end Assertions

namespace Keywords

variable (reading : Reading) (accepts : σ → Json → Prop)
  (keywords : Keywords σ)

structure ArrayHolds (items : List Json) : Prop where
  count : Between keywords.assertions.minItems keywords.assertions.maxItems
    items.length
  items : ∀ item ∈ items, ∀ schema ∈ keywords.items, accepts schema item

/-- A property which `properties` does not name falls under
`additionalProperties`. -/
structure FieldHolds (field : Text × Json) : Prop where
  property : ∀ schema, keywords.properties.lookup field.1 = some schema →
    accepts schema field.2
  additional : keywords.properties.lookup field.1 = none →
    ∀ additional ∈ keywords.additionalProperties,
      additional.Accepts accepts field.2

structure ObjectHolds (fields : List (Text × Json)) : Prop where
  required : ∀ name ∈ keywords.assertions.required,
    (fields.lookup name).isSome = true
  each : ∀ field ∈ fields, keywords.FieldHolds accepts field
  count : Between keywords.assertions.minProperties
    keywords.assertions.maxProperties fields.length

structure CompositionHolds (value : Json) : Prop where
  allOf : ∀ schema ∈ keywords.allOf, accepts schema value
  anyOf : keywords.anyOf ≠ [] → ∃ schema ∈ keywords.anyOf, accepts schema value
  oneOf : keywords.oneOf ≠ [] →
    ExactlyOne (fun schema => accepts schema value) keywords.oneOf
  not : ∀ schema ∈ keywords.not, ¬ accepts schema value
  conditional : ∀ condition ∈ keywords.ifSchema,
    (accepts condition value → ∀ schema ∈ keywords.thenSchema,
      accepts schema value) ∧
    (¬ accepts condition value → ∀ schema ∈ keywords.elseSchema,
      accepts schema value)

/-- All keywords accept a value.  A keyword for one kind of values says
nothing about the others. -/
structure Holds (value : Json) : Prop where
  types : keywords.assertions.TypesHold value
  const : keywords.assertions.ConstHolds reading value
  enum : keywords.assertions.EnumHolds reading value
  string : ∀ content, value = .string content →
    keywords.assertions.StringHolds content
  number : ∀ number, value = .number number →
    keywords.assertions.NumberHolds reading number
  array : ∀ items, value = .array items → keywords.ArrayHolds accepts items
  object : ∀ fields, value = .object fields →
    keywords.ObjectHolds accepts fields
  composition : keywords.CompositionHolds accepts value

end Keywords

/-!
## Keywords with related subschemas

Two schema objects which differ in how their subschemas are given mean the same
when related subschemas do.
-/

variable {R : σ → τ → Prop}

theorem exists_related {left : List σ} {right : List τ}
    (related : List.Forall₂ R left right) :
    ∀ first ∈ left, ∃ second ∈ right, R first second := by
  induction related with
  | nil => exact forall_mem_nil _
  | cons head tail induction =>
    intro first member
    rcases mem_cons.mp member with same | rest
    · exact ⟨_, mem_cons_self, same ▸ head⟩
    · obtain ⟨second, inside, here⟩ := induction first rest
      exact ⟨second, mem_cons_of_mem _ inside, here⟩

theorem ExactlyOne.related {left : List σ} {right : List τ} {holds : σ → Prop}
    {also : τ → Prop} (related : List.Forall₂ R left right)
    (same : ∀ first second, R first second → (holds first ↔ also second))
    (one : ExactlyOne holds left) : ExactlyOne also right := by
  induction related with
  | nil => cases one
  | cons head tail induction =>
    cases one with
    | here first alone =>
      apply ExactlyOne.here ((same _ _ head).mp first)
      intro other inside holdsThere
      obtain ⟨first, member, here⟩ := exists_related tail.flip other inside
      exact alone first member ((same _ _ here).mpr holdsThere)
    | later fails rest =>
      exact .later (fun holdsThere => fails ((same _ _ head).mpr holdsThere))
        (induction rest)

/-- The same names, with related subschemas. -/
def FieldRelated (R : σ → τ → Prop) (left : Text × σ) (right : Text × τ) :
    Prop := left.1 = right.1 ∧ R left.2 right.2

theorem lookup_related {left : List (Text × σ)} {right : List (Text × τ)}
    (related : List.Forall₂ (FieldRelated R) left right) (key : Text) :
    Option.Rel R (left.lookup key) (right.lookup key) := by
  induction related with
  | nil => exact .none
  | cons head tail induction =>
    rw [lookup_cons, lookup_cons, head.1]
    split
    case h_1 => exact .some head.2
    case h_2 => exact induction

theorem exists_optionRelated {left : Option σ} {right : Option τ}
    (related : Option.Rel R left right) :
    ∀ second ∈ right, ∃ first ∈ left, R first second := by
  cases related with
  | none => exact fun _ => nofun
  | some here =>
    intro second given
    cases given
    exact ⟨_, rfl, here⟩

inductive AdditionalRelated (R : σ → τ → Prop) :
    AdditionalProperties σ → AdditionalProperties τ → Prop
  | boolean (allowed : Bool) : AdditionalRelated R (.boolean allowed)
      (.boolean allowed)
  | schema {first : σ} {second : τ} (related : R first second) :
      AdditionalRelated R (.schema first) (.schema second)

structure Related (R : σ → τ → Prop) (left : Keywords σ)
    (right : Keywords τ) : Prop where
  assertions : left.assertions = right.assertions
  properties : List.Forall₂ (FieldRelated R) left.properties right.properties
  additionalProperties : Option.Rel (AdditionalRelated R)
    left.additionalProperties right.additionalProperties
  items : Option.Rel R left.items right.items
  allOf : List.Forall₂ R left.allOf right.allOf
  anyOf : List.Forall₂ R left.anyOf right.anyOf
  oneOf : List.Forall₂ R left.oneOf right.oneOf
  not : Option.Rel R left.not right.not
  ifSchema : Option.Rel R left.ifSchema right.ifSchema
  thenSchema : Option.Rel R left.thenSchema right.thenSchema
  elseSchema : Option.Rel R left.elseSchema right.elseSchema

theorem optionRelated_refl {R : σ → σ → Prop} {option : Option σ}
    (each : ∀ schema ∈ option, R schema schema) :
    Option.Rel R option option := by
  cases option with
  | none => exact .none
  | some schema => exact .some (each schema rfl)

theorem optionRelated_swap {left : Option σ} {right : Option τ}
    (related : Option.Rel R left right) : Option.Rel (flip R) right left := by
  cases related with
  | none => exact .none
  | some here => exact .some here

theorem additionalRelated_swap {left : Option (AdditionalProperties σ)}
    {right : Option (AdditionalProperties τ)}
    (related : Option.Rel (AdditionalRelated R) left right) :
    Option.Rel (AdditionalRelated (flip R)) right left := by
  cases related with
  | none => exact .none
  | some here =>
    cases here with
    | boolean allowed => exact .some (.boolean allowed)
    | schema inner => exact .some (.schema inner)

theorem Related.swap {left : Keywords σ} {right : Keywords τ}
    (related : Related R left right) : Related (flip R) right left where
  assertions := related.assertions.symm
  properties := by
    apply (List.Forall₂.imp ?_ related.properties).flip
    exact fun first second here => ⟨here.1.symm, here.2⟩
  additionalProperties := additionalRelated_swap related.additionalProperties
  items := optionRelated_swap related.items
  allOf := related.allOf.flip
  anyOf := related.anyOf.flip
  oneOf := related.oneOf.flip
  not := optionRelated_swap related.not
  ifSchema := optionRelated_swap related.ifSchema
  thenSchema := optionRelated_swap related.thenSchema
  elseSchema := optionRelated_swap related.elseSchema

theorem mem_subschemas {keywords : Keywords σ} {schema : σ} :
    schema ∈ keywords.subschemas ↔
    (∃ field ∈ keywords.properties, field.2 = schema) ∨
    (∃ additional ∈ keywords.additionalProperties,
      schema ∈ additional.subschemas) ∨ schema ∈ keywords.items ∨
    schema ∈ keywords.allOf ∨ schema ∈ keywords.anyOf ∨
    schema ∈ keywords.oneOf ∨ schema ∈ keywords.not ∨
    schema ∈ keywords.ifSchema ∨ schema ∈ keywords.thenSchema ∨
    schema ∈ keywords.elseSchema := by
  simp only [Keywords.subschemas, mem_append, List.mem_map,
    mem_flatMap, Option.mem_toList, or_assoc]
  rfl

theorem Related.refl {R : σ → σ → Prop} {keywords : Keywords σ}
    (each : ∀ schema ∈ keywords.subschemas, R schema schema) :
    Related R keywords keywords := by
  simp only [mem_subschemas] at each
  refine ⟨rfl, ?_, ?_, ?_, ?_, ?_, ?_, ?_, ?_, ?_, ?_⟩
  · rw [forall₂_same]
    exact fun field inside => ⟨rfl, each _ (.inl ⟨field, inside, rfl⟩)⟩
  · apply optionRelated_refl
    intro additional given
    cases additional with
    | boolean allowed => exact .boolean allowed
    | schema node =>
      exact .schema (each node
        (.inr (.inl ⟨_, given, mem_singleton_self node⟩)))
  · exact optionRelated_refl fun schema given => each schema (by simp [given])
  · exact forall₂_same.mpr fun schema inside => each schema (by simp [inside])
  · exact forall₂_same.mpr fun schema inside => each schema (by simp [inside])
  · exact forall₂_same.mpr fun schema inside => each schema (by simp [inside])
  all_goals
    exact optionRelated_refl fun schema given =>
      each schema (by simp [Option.mem_def.mp given])

/-- The values which a schema object compares with. -/
def Assertions.constants (assertions : Assertions) : List Json :=
  assertions.constValue.toList ++ assertions.enumValues.getD []

/-- Two readings agree on what a schema object asks about a value. -/
structure Agree (reading other : Reading) (assertions : Assertions)
    (value : Json) : Prop where
  equal : ∀ constant ∈ assertions.constants,
    (reading.equal value constant ↔ other.equal value constant)
  multiple : ∀ number divisor, value = .number number →
    divisor ∈ assertions.multipleOf →
      (reading.multiple number divisor ↔ other.multiple number divisor)

theorem Agree.swap {reading other : Reading} {assertions : Assertions}
    {value : Json} (agree : Agree reading other assertions value) :
    Agree other reading assertions value where
  equal constant inside := (agree.equal constant inside).symm
  multiple number divisor is given :=
    (agree.multiple number divisor is given).symm

theorem Agree.refl (reading : Reading) (assertions : Assertions)
    (value : Json) : Agree reading reading assertions value where
  equal _ _ := Iff.rfl
  multiple _ _ _ _ := Iff.rfl

section

variable {reading other : Reading} {assertions : Assertions} {value : Json}

section

variable (agree : Agree reading other assertions value)
include agree

theorem constHolds_of_agree (holds : assertions.ConstHolds reading value) :
    assertions.ConstHolds other value := by
  intro constant given
  apply (agree.equal constant ?_).mp (holds constant given)
  exact mem_append_left _ (Option.mem_toList.mpr given)

theorem enumHolds_of_agree (holds : assertions.EnumHolds reading value) :
    assertions.EnumHolds other value := by
  intro candidates given
  obtain ⟨candidate, inside, equal⟩ := holds candidates given
  refine ⟨candidate, inside, (agree.equal candidate ?_).mp equal⟩
  apply mem_append_right
  rw [Option.mem_def.mp given]
  exact inside

end

theorem numberHolds_of_agree {number : ℚ}
    (agree : Agree reading other assertions (.number number))
    (holds : assertions.NumberHolds reading number) :
    assertions.NumberHolds other number where
  __ := holds
  multipleOf divisor given :=
    (agree.multiple number divisor rfl given).mp
      (holds.multipleOf divisor given)

end

section

variable {left : Keywords σ} {right : Keywords τ} {accepts : σ → Json → Prop}
  {also : τ → Json → Prop} {value : Json}

/-- Related subschemas accept the same parts of a value. -/
def SameOn (R : σ → τ → Prop) (accepts : σ → Json → Prop)
    (also : τ → Json → Prop) (value : Json) : Prop :=
  ∀ first second, R first second → ∀ part, part.parts ⊆ value.parts →
    (accepts first part ↔ also second part)

theorem SameOn.swap (same : SameOn R accepts also value) :
    SameOn (flip R) also accepts value :=
  fun first second related part inside =>
    (same second first related part inside).symm

theorem arrayHolds_of_related {items : List Json}
    (related : Related R left right)
    (same : SameOn R accepts also (.array items))
    (holds : left.ArrayHolds accepts items) : right.ArrayHolds also items where
  count := related.assertions ▸ holds.count
  items := by
    intro item inside schema given
    obtain ⟨first, known, here⟩ := exists_optionRelated related.items schema given
    have within := Json.parts_subset_item inside
    exact (same first schema here item within).mp
      (holds.items item inside first known)

theorem additionalAccepts_of_related {first : AdditionalProperties σ}
    {second : AdditionalProperties τ}
    (related : AdditionalRelated R first second) (same : ∀ first second,
      R first second → (accepts first value ↔ also second value))
    (holds : first.Accepts accepts value) : second.Accepts also value := by
  cases related with
  | boolean allowed => exact holds
  | schema here => exact (same _ _ here).mp holds

theorem fieldHolds_of_related {field : Text × Json}
    (related : Related R left right) (same : ∀ first second, R first second →
      (accepts first field.2 ↔ also second field.2))
    (holds : left.FieldHolds accepts field) : right.FieldHolds also field := by
  have found := lookup_related related.properties field.1
  constructor
  · intro schema given
    obtain ⟨first, known, here⟩ := exists_optionRelated found schema given
    exact (same first schema here).mp (holds.property first known)
  · intro missing additional given
    have missingThere : left.properties.lookup field.1 = none := by
      rw [missing] at found
      generalize left.properties.lookup field.1 = entry at found
      cases found
      rfl
    obtain ⟨first, known, here⟩ := exists_optionRelated
      related.additionalProperties additional given
    exact additionalAccepts_of_related here same
      (holds.additional missingThere first known)

theorem objectHolds_of_related {fields : List (Text × Json)}
    (related : Related R left right)
    (same : SameOn R accepts also (.object fields))
    (holds : left.ObjectHolds accepts fields) :
    right.ObjectHolds also fields where
  required := related.assertions ▸ holds.required
  each := by
    intro field inside
    apply fieldHolds_of_related related ?_ (holds.each field inside)
    exact fun first second here => same first second here field.2
      (Json.parts_subset_field inside)
  count := related.assertions ▸ holds.count

theorem compositionHolds_of_related (related : Related R left right)
    (same : ∀ first second, R first second →
      (accepts first value ↔ also second value))
    (holds : left.CompositionHolds accepts value) :
    right.CompositionHolds also value where
  allOf := by
    intro schema inside
    obtain ⟨first, member, here⟩ :=
      exists_related related.allOf.flip schema inside
    exact (same first schema here).mp (holds.allOf first member)
  anyOf := by
    intro given
    have present : left.anyOf ≠ [] := by
      intro empty
      have pairs := related.anyOf
      rw [empty, forall₂_nil_left_iff] at pairs
      exact given pairs
    obtain ⟨first, member, accepted⟩ := holds.anyOf present
    obtain ⟨second, inside, here⟩ := exists_related related.anyOf first member
    exact ⟨second, inside, (same first second here).mp accepted⟩
  oneOf := by
    intro given
    have present : left.oneOf ≠ [] := by
      intro empty
      have pairs := related.oneOf
      rw [empty, forall₂_nil_left_iff] at pairs
      exact given pairs
    exact ExactlyOne.related related.oneOf same (holds.oneOf present)
  not := by
    intro schema given accepted
    obtain ⟨first, known, here⟩ := exists_optionRelated related.not schema given
    exact holds.not first known ((same first schema here).mpr accepted)
  conditional := by
    intro condition given
    obtain ⟨first, known, here⟩ :=
      exists_optionRelated related.ifSchema condition given
    obtain ⟨whenHolds, otherwise⟩ := holds.conditional first known
    constructor
    · intro accepted schema next
      obtain ⟨branch, taken, there⟩ :=
        exists_optionRelated related.thenSchema schema next
      exact (same branch schema there).mp
        (whenHolds ((same first condition here).mpr accepted) branch taken)
    · intro rejected schema next
      obtain ⟨branch, taken, there⟩ :=
        exists_optionRelated related.elseSchema schema next
      exact (same branch schema there).mp
        (otherwise (fun held => rejected ((same first condition here).mp held))
          branch taken)

theorem holds_of_related {reading other : Reading}
    (related : Related R left right)
    (agree : Agree reading other left.assertions value)
    (same : SameOn R accepts also value)
    (holds : left.Holds reading accepts value) :
    right.Holds other also value where
  types := related.assertions ▸ holds.types
  const := related.assertions ▸ constHolds_of_agree agree holds.const
  enum := related.assertions ▸ enumHolds_of_agree agree holds.enum
  string := related.assertions ▸ holds.string
  number := by
    intro number is
    rw [← related.assertions]
    apply numberHolds_of_agree ?_ (holds.number number is)
    rw [← is]
    exact agree
  array := by
    intro items is
    exact arrayHolds_of_related related (is ▸ same) (holds.array items is)
  object := by
    intro fields is
    exact objectHolds_of_related related (is ▸ same) (holds.object fields is)
  composition := by
    apply compositionHolds_of_related related ?_ holds.composition
    exact fun first second here =>
      same first second here value (List.Subset.refl _)

theorem holds_iff_of_related {reading other : Reading}
    (related : Related R left right)
    (agree : Agree reading other left.assertions value)
    (same : SameOn R accepts also value) :
    left.Holds reading accepts value ↔ right.Holds other also value := by
  constructor
  · exact holds_of_related related agree same
  · apply holds_of_related related.swap ?_ same.swap
    rw [← related.assertions]
    exact agree.swap

end

end MachineBridge.Schemas
