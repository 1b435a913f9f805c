import MachineBridge.Foundation.JsonText
import MachineBridge.Schemas.Compile

/-!
# Validating values

The validator walks through a node and a value together.  The issues and the
budget are common to the whole walk, and a combinator which asks whether a
subschema accepts the value collects the issues of the answer apart.
-/

namespace MachineBridge.Schemas

open Foundation Check List

structure Issue where
  (instancePath keyword message : Text)

abbrev Validation := Check Issue Unit

def whenGiven {α : Type} (given : Option α) (check : α → Validation) :
    Validation :=
  match given with
  | none => pure ()
  | some bound => check bound

def requireGiven {α : Type} (limit : Nat) (given : Option α) (holds : α → Bool)
    (issue : α → Issue) : Validation :=
  whenGiven given fun bound => require limit (holds bound) (issue bound)

section

variable (numbers : NumberFormat) (limit : Nat)

def validateString (node : Assertions) (value path : Text) : Validation := do
  let length := boundedCodePointLength value node.minLength node.maxLength
  requireGiven limit node.minLength (fun bound => bound ≤ length)
    fun bound => ⟨path, text "minLength",
      text "must contain at least " ++ decimal bound ++ text " characters"⟩
  requireGiven limit node.maxLength (fun bound => length ≤ bound)
    fun bound => ⟨path, text "maxLength",
      text "must contain at most " ++ decimal bound ++ text " characters"⟩
  requireGiven limit node.pattern (fun test => test value)
    fun _ => ⟨path, text "pattern", text "must match the declared pattern"⟩

def validateNumber (node : Assertions) (value : ℚ) (path : Text) :
    Validation := do
  requireGiven limit node.minimum (fun bound => bound ≤ value)
    fun bound => ⟨path, text "minimum",
      text "must be at least " ++ numbers.format bound⟩
  requireGiven limit node.maximum (fun bound => value ≤ bound)
    fun bound => ⟨path, text "maximum",
      text "must be at most " ++ numbers.format bound⟩
  requireGiven limit node.exclusiveMinimum (fun bound => bound < value)
    fun bound => ⟨path, text "exclusiveMinimum",
      text "must be greater than " ++ numbers.format bound⟩
  requireGiven limit node.exclusiveMaximum (fun bound => value < bound)
    fun bound => ⟨path, text "exclusiveMaximum",
      text "must be less than " ++ numbers.format bound⟩
  requireGiven limit node.multipleOf (isMultipleOf value)
    fun divisor => ⟨path, text "multipleOf",
      text "must be a multiple of " ++ numbers.format divisor⟩

def typesMessage : List SchemaType → Text
  | [] => []
  | [type] => type.name
  | type :: types => type.name ++ text " or " ++ typesMessage types

end

section

variable {σ : Type} (validate : Nat → σ → Json → Text → Validation)
  (limit : Nat) (node : Keywords σ)

def childPath (path key : Text) : Text := path ++ text "/" ++ key

def validateArray (items : List Json) (path : Text) : Validation := do
  requireGiven limit node.assertions.minItems
    (fun bound => bound ≤ items.length)
    fun bound => ⟨path, text "minItems",
      text "must contain at least " ++ decimal bound ++ text " items"⟩
  requireGiven limit node.assertions.maxItems
    (fun bound => items.length ≤ bound)
    fun bound => ⟨path, text "maxItems",
      text "must contain at most " ++ decimal bound ++ text " items"⟩
  whenGiven node.items fun schema =>
    each (fun entry => validate limit schema entry.1
      (childPath path (decimal entry.2))) items.zipIdx

section

variable (value : Json)

/-- A property which `properties` does not name. -/
def validateAdditional (path : Text) : AdditionalProperties σ → Validation
  | .boolean allowed => require limit allowed
      ⟨path, text "additionalProperties", text "property is not allowed"⟩
  | .schema child => validate limit child value path

def validateField (path : Text) (field : Text × Json) : Validation := do
  spend
  let inner := childPath path (escapePointer field.1)
  match node.properties.lookup field.1 with
  | some child => validate limit child field.2 inner
  | none =>
    whenGiven node.additionalProperties
      (validateAdditional validate limit field.2 inner)

def validateObject (fields : List (Text × Json)) (path : Text) :
    Validation := do
  each (fun name => require limit (fields.lookup name).isSome
    ⟨path, text "required", text "missing required property " ++ name⟩)
    node.assertions.required
  each (validateField validate limit node path) fields
  requireGiven limit node.assertions.minProperties
    (fun bound => bound ≤ fields.length)
    fun bound => ⟨path, text "minProperties",
      text "must contain at least " ++ decimal bound ++ text " properties"⟩
  requireGiven limit node.assertions.maxProperties
    (fun bound => fields.length ≤ bound)
    fun bound => ⟨path, text "maxProperties",
      text "must contain at most " ++ decimal bound ++ text " properties"⟩

/-- Whether a subschema accepts a value, with issues of its own. -/
def isValid (child : σ) : Check Issue Bool :=
  passes (validate 1 child value [])

def validateAnyOf (path : Text) : Validation :=
  if node.anyOf.isEmpty then pure ()
  else do
    let found ← someYes (isValid validate value) node.anyOf
    require limit found
      ⟨path, text "anyOf", text "must match at least one schema"⟩

def validateOneOf (path : Text) : Validation :=
  if node.oneOf.isEmpty then pure ()
  else do
    let matching ← countYes (isValid validate value) node.oneOf
    require limit (matching == 1)
      ⟨path, text "oneOf", text "must match exactly one schema"⟩

def validateNot (path : Text) : Validation :=
  whenGiven node.not fun child => do
    let valid ← isValid validate value child
    require limit (!valid)
      ⟨path, text "not", text "must not match the excluded schema"⟩

def validateConditional (path : Text) : Validation :=
  whenGiven node.ifSchema fun condition => do
    let valid ← isValid validate value condition
    whenGiven (if valid then node.thenSchema else node.elseSchema)
      fun branch => validate limit branch value path

def validateComposition (path : Text) : Validation := do
  each (fun child => validate limit child value path) node.allOf
  validateAnyOf validate limit node value path
  validateOneOf validate limit node value path
  validateNot validate limit node value path
  validateConditional validate limit node value path

end

variable (numbers : NumberFormat)

def validateKind (value : Json) (path : Text) : Validation :=
  match value with
  | .string content => validateString limit node.assertions content path
  | .number number => validateNumber numbers limit node.assertions number path
  | .array items => validateArray validate limit node items path
  | .object fields => validateObject validate limit node fields path
  | _ => pure ()

def validateKeywords (value : Json) (path : Text) : Validation :=
  if node.assertions.types.all fun types => types.any (matchesType value) then do
    requireGiven limit node.assertions.constValue (jsonEqual value)
      fun _ => ⟨path, text "const", text "must equal the declared constant"⟩
    requireGiven limit node.assertions.enumValues
      (fun candidates => candidates.any (jsonEqual value))
      fun _ => ⟨path, text "enum", text "must equal one of the allowed values"⟩
    validateKind validate limit node numbers value path
    validateComposition validate limit node value path
  else
    report limit ⟨path, text "type", text "must be " ++
      typesMessage (node.assertions.types.getD [])⟩

end

/-- A truth value as a schema. -/
def validateBoolean (limit : Nat) (accepted : Bool) (path : Text) :
    Validation :=
  require limit accepted
    ⟨path, text "falseSchema", text "value is rejected by the schema"⟩

def validateNode (numbers : NumberFormat) :
    (levels : Nat) → Nat → SchemaNode levels → Json → Text → Validation
  | 0, limit, accepted, _, path => whileRoom limit do
      spend
      validateBoolean limit accepted path
  | _ + 1, limit, .boolean accepted, _, path => whileRoom limit do
      spend
      validateBoolean limit accepted path
  | levels + 1, limit, .keywords node, value, path => whileRoom limit do
      spend
      validateKeywords (validateNode numbers levels) limit node numbers value
        path

/-!
## The validator decides what nodes accept

A walk which is not stopped by the budget finds an issue unless the node
accepts the value, under the equality and the multiples of the validator.
-/

variable {limit : Nat}

theorem decides_whenGiven {α : Type} {given : Option α}
    {check : α → Validation} {property : α → Prop}
    (decides : ∀ bound, Decides limit (check bound) (property bound)) : Decides
    limit (whenGiven given check) (∀ bound ∈ given, property bound) := by
  cases given with
  | none => exact .nothing fun _ absent => nomatch absent
  | some bound =>
    apply Decides.congr (decides bound)
    constructor
    · intro here other same
      cases same
      exact here
    · exact fun every => every bound rfl

theorem decides_given {α : Type} {given : Option α} {holds : α → Bool}
    {issue : α → Issue} {property : α → Prop}
    (means : ∀ bound, holds bound = true ↔ property bound) : Decides limit
    (requireGiven limit given holds issue) (∀ bound ∈ given, property bound) :=
  decides_whenGiven fun bound => .require (means bound)

theorem decides_string (node : Assertions) (value path : Text) : Decides limit
    (validateString limit node value path) (node.StringHolds value) := by
  have lengths := between_boundedCodePointLength value node.minLength
    node.maxLength
  refine Decides.congr (.both (decides_given fun _ => decide_eq_true_iff)
    (.both (decides_given fun _ => decide_eq_true_iff)
      (decides_given fun _ => Iff.rfl))) ?_
  constructor
  · exact fun ⟨least, most, pattern⟩ => ⟨lengths.mp ⟨least, most⟩, pattern⟩
  · intro holds
    have bounded := lengths.mpr holds.length
    exact ⟨bounded.1, bounded.2, holds.pattern⟩

theorem decides_number (numbers : NumberFormat) (node : Assertions) (value : ℚ)
    (path : Text) : Decides limit
    (validateNumber numbers limit node value path)
    (node.NumberHolds .code value) := by
  refine Decides.congr (.both (decides_given fun _ => decide_eq_true_iff)
    (.both (decides_given fun _ => decide_eq_true_iff)
      (.both (decides_given fun _ => decide_eq_true_iff)
        (.both (decides_given fun _ => decide_eq_true_iff)
          (decides_given fun _ => Iff.rfl))))) ?_
  constructor
  · exact fun ⟨minimum, maximum, above, below, multiple⟩ =>
      ⟨minimum, maximum, above, below, multiple⟩
  · exact fun holds => ⟨holds.minimum, holds.maximum, holds.exclusiveMinimum,
      holds.exclusiveMaximum, holds.multipleOf⟩

section

variable {σ : Type} {validate : Nat → σ → Json → Text → Validation}
  {accepts : σ → Json → Prop}

def DecidesAll (validate : Nat → σ → Json → Text → Validation)
    (accepts : σ → Json → Prop) : Prop :=
  ∀ limit node value path,
    Decides limit (validate limit node value path) (accepts node value)

theorem answers_isValid (decides : DecidesAll validate accepts) (value : Json)
    (child : σ) :
    Answers (isValid validate value child) fun answer => answer = true ↔
    accepts child value :=
  .passes (decides 1 child value [])

variable (node : Keywords σ)

section

variable (decides : DecidesAll validate accepts)
include decides

theorem decides_array (items : List Json) (path : Text) : Decides limit
    (validateArray validate limit node items path)
    (node.ArrayHolds accepts items) := by
  refine Decides.congr (.both (decides_given fun _ => decide_eq_true_iff)
    (.both (decides_given fun _ => decide_eq_true_iff)
      (decides_whenGiven fun schema => .each fun entry _ =>
        decides limit schema entry.1 _))) ?_
  constructor
  · intro holds
    obtain ⟨least, most, every⟩ := holds
    refine ⟨⟨least, most⟩, fun item inside schema given => ?_⟩
    obtain ⟨index, small, rfl⟩ := mem_iff_getElem.mp inside
    apply every schema given (items[index], index)
    exact mem_zipIdx_iff_getElem?.mpr (getElem?_eq_getElem small)
  · intro holds
    refine ⟨holds.count.1, holds.count.2, fun schema given entry inside => ?_⟩
    exact holds.items entry.1 (fst_mem_of_mem_zipIdx inside) schema given

theorem decides_additional
    (value : Json) (path : Text) (additional : AdditionalProperties σ) :
    Decides limit (validateAdditional validate limit value path additional)
    (additional.Accepts accepts value) := by
  cases additional with
  | boolean allowed => exact .require Iff.rfl
  | schema child => exact decides limit child value path

theorem decides_field (path : Text) (field : Text × Json) : Decides limit
    (validateField validate limit node path field)
    (node.FieldHolds accepts field) := by
  refine .after .spend fun _ _ => ?_
  split
  case h_1 child found =>
      apply Decides.congr (decides limit child field.2 _)
      constructor
      · intro holds
        refine ⟨fun schema given => ?_, fun missing => ?_⟩
        · cases found.symm.trans given
          exact holds
        · cases found.symm.trans missing
      · exact fun holds => holds.property child found
  case h_2 missing =>
      apply Decides.congr (decides_whenGiven
        (decides_additional decides field.2 _))
      constructor
      · intro holds
        refine ⟨fun schema given => ?_, fun _ => holds⟩
        cases missing.symm.trans given
      · exact fun holds => holds.additional missing

theorem decides_object
    (fields : List (Text × Json)) (path : Text) : Decides limit
    (validateObject validate limit node fields path)
    (node.ObjectHolds accepts fields) := by
  refine Decides.congr (.both (.each fun name _ => .require Iff.rfl)
    (.both (.each fun field _ => decides_field node decides path field)
      (.both (decides_given fun _ => decide_eq_true_iff)
        (decides_given fun _ => decide_eq_true_iff)))) ?_
  constructor
  · exact fun ⟨required, each, least, most⟩ => ⟨required, each, ⟨least, most⟩⟩
  · exact fun holds => ⟨holds.required, holds.each, holds.count.1,
      holds.count.2⟩

end

section

variable (decides : DecidesAll validate accepts)
include decides

theorem decides_anyOf (value : Json) (path : Text) : Decides limit
    (validateAnyOf validate limit node value path)
    (node.anyOf ≠ [] → ∃ schema ∈ node.anyOf, accepts schema value) := by
  rw [validateAnyOf]
  split
  case isTrue none =>
      exact .nothing fun some => absurd (List.isEmpty_iff.mp none) some
  case isFalse some =>
      rw [List.isEmpty_iff] at some
      refine .after (.someYes fun child _ =>
        answers_isValid decides value child) fun found known => ?_
      apply Decides.require
      exact known.trans ⟨fun exists' _ => exists', fun holds => holds some⟩

theorem decides_oneOf (value : Json) (path : Text) : Decides limit
    (validateOneOf validate limit node value path) (node.oneOf ≠ [] →
      ExactlyOne (fun schema => accepts schema value) node.oneOf) := by
  rw [validateOneOf]
  split
  case isTrue none =>
      exact .nothing fun some => absurd (List.isEmpty_iff.mp none) some
  case isFalse some =>
      rw [List.isEmpty_iff] at some
      refine .after (.countYes fun child _ =>
        answers_isValid decides value child) fun matching known => ?_
      apply Decides.require
      rw [beq_iff_eq]
      exact known.2.trans ⟨fun one _ => one, fun holds => holds some⟩

theorem decides_not (value : Json)
    (path : Text) : Decides limit (validateNot validate limit node value path)
    (∀ schema ∈ node.not, ¬ accepts schema value) := by
  refine decides_whenGiven fun child => ?_
  refine .after (answers_isValid decides value child) fun valid known => ?_
  apply Decides.require
  rw [Bool.not_eq_true', ← Bool.not_eq_true, known]

theorem decides_conditional (value : Json) (path : Text) : Decides limit
    (validateConditional validate limit node value path)
    (∀ condition ∈ node.ifSchema, (accepts condition value →
        ∀ schema ∈ node.thenSchema, accepts schema value) ∧
      (¬ accepts condition value → ∀ schema ∈ node.elseSchema,
        accepts schema value)) := by
  refine decides_whenGiven fun condition => ?_
  refine .after (answers_isValid decides value condition) fun valid known => ?_
  apply Decides.congr (decides_whenGiven fun branch =>
    decides limit branch value path)
  cases valid with
  | true =>
    have holds := known.mp rfl
    constructor
    · exact fun taken => ⟨fun _ => taken, fun fails => absurd holds fails⟩
    · exact fun both => both.1 holds
  | false =>
    have fails := fun holds => Bool.false_ne_true (known.mpr holds)
    constructor
    · exact fun taken => ⟨fun holds => absurd holds fails, fun _ => taken⟩
    · exact fun both => both.2 fails

theorem decides_composition (value : Json) (path : Text) : Decides limit
    (validateComposition validate limit node value path)
    (node.CompositionHolds accepts value) := by
  refine Decides.congr (.both
    (.each fun child _ => decides limit child value path)
    (.both (decides_anyOf node decides value path)
      (.both (decides_oneOf node decides value path)
        (.both (decides_not node decides value path)
          (decides_conditional node decides value path))))) ?_
  constructor
  · exact fun ⟨allOf, anyOf, oneOf, not, conditional⟩ =>
      ⟨allOf, anyOf, oneOf, not, conditional⟩
  · exact fun holds => ⟨holds.allOf, holds.anyOf, holds.oneOf, holds.not,
      holds.conditional⟩

end

variable (numbers : NumberFormat)

def KindHolds (accepts : σ → Json → Prop) (node : Keywords σ) :
    Json → Prop
  | .string content => node.assertions.StringHolds content
  | .number number => node.assertions.NumberHolds .code number
  | .array items => node.ArrayHolds accepts items
  | .object fields => node.ObjectHolds accepts fields
  | _ => True

theorem decides_kind (decides : DecidesAll validate accepts) (value : Json)
    (path : Text) : Decides limit
    (validateKind validate limit node numbers value path)
    (KindHolds accepts node value) := by
  cases value with
  | string content => exact decides_string node.assertions content path
  | number number => exact decides_number numbers node.assertions number path
  | array items => exact decides_array node decides items path
  | object fields => exact decides_object node decides fields path
  | null | boolean _ => exact .nothing trivial

theorem holds_iff (value : Json) : node.Holds .code accepts value ↔
    node.assertions.TypesHold value ∧ node.assertions.ConstHolds .code value ∧
    node.assertions.EnumHolds .code value ∧ KindHolds accepts node value ∧
    node.CompositionHolds accepts value := by
  constructor
  · intro holds
    refine ⟨holds.types, holds.const, holds.enum, ?_, holds.composition⟩
    cases value with
    | string content => exact holds.string content rfl
    | number number => exact holds.number number rfl
    | array items => exact holds.array items rfl
    | object fields => exact holds.object fields rfl
    | null | boolean _ => trivial
  · intro every
    obtain ⟨types, const, enum, kind, composition⟩ := every
    refine ⟨types, const, enum, ?_, ?_, ?_, ?_, composition⟩
    all_goals
      intro inner is
      rw [is] at kind
      exact kind

theorem decides_keywords (decides : DecidesAll validate accepts) (value : Json)
    (path : Text) : Decides limit
    (validateKeywords validate limit node numbers value path)
    (node.Holds .code accepts value) := by
  have typed :
      node.assertions.types.all (fun types => types.any (matchesType value)) =
      true ↔ node.assertions.TypesHold value := by
    rw [Assertions.TypesHold, Option.all_eq_true]
    simp only [any_eq_true, matchesType_iff]
    rfl
  rw [validateKeywords]
  split
  case isTrue matching =>
      refine Decides.congr (.both (decides_given fun _ => Iff.rfl)
        (.both (decides_given fun _ => any_eq_true)
          (.both (decides_kind node numbers decides value path)
            (decides_composition node decides value path)))) ?_
      rw [holds_iff]
      exact (and_iff_right (typed.mp matching)).symm
  case isFalse unmatched =>
      exact .report fun holds => unmatched (typed.mpr holds.types)

end

theorem decides_boolean {accepted : Bool} {path : Text} :
    Decides limit (do spend; validateBoolean limit accepted path)
      (accepted = true) :=
  .after .spend fun _ _ => .require Iff.rfl

theorem decides_node (numbers : NumberFormat) (levels : Nat) :
    DecidesAll (validateNode numbers levels) (NodeAccepts .code levels) := by
  induction levels with
  | zero => exact fun limit accepted value path => decides_boolean.whileRoom
  | succ levels induction =>
    intro limit node value path
    cases node with
    | boolean accepted => exact decides_boolean.whileRoom
    | keywords node =>
      apply Decides.whileRoom
      refine .after .spend fun _ _ => ?_
      exact decides_keywords node numbers induction value path

end MachineBridge.Schemas
