import MachineBridge.Schemas.Keywords

/-!
# The reference semantics

A schema is a JSON value, and its meaning is read from it keyword by keyword,
without compiling it and without a limit of its depth.
-/

namespace MachineBridge.Schemas

open Foundation List

def keyword (name : String) (fields : List (Text × Json)) : Option Json :=
  fields.lookup (text name)

def typeNamed : Json → Option SchemaType
  | .string name => [SchemaType.null, .boolean, .object, .array, .number,
      .integer, .string].find? fun type => type.name == name
  | _ => none

def typeValues : Json → List Json
  | .array names => names
  | name => [name]

def readTypes (value : Json) : List SchemaType :=
  (typeValues value).filterMap typeNamed

def readItems : Json → Option (List Json)
  | .array items => some items
  | _ => none

def readNumber : Json → Option ℚ
  | .number value => some value
  | _ => none

def readDivisor : Json → Option ℚ
  | .number value => if 0 < value then some value else none
  | _ => none

def readCount : Json → Option Nat
  | .number value =>
    if value.den = 1 ∧ 0 ≤ value.num then some value.num.toNat else none
  | _ => none

def readName : Json → Option Text
  | .string name => some name
  | _ => none

/-- The regular expressions of the language: the test of a valid one. -/
abbrev RegExp := Text → Option (Text → Bool)

section

variable (regExp : RegExp)

def readPattern : Json → Option (Text → Bool)
  | .string source => regExp source
  | _ => none

def readProperties : Json → List (Text × Json)
  | .object fields => fields
  | _ => []

def readAdditional : Json → AdditionalProperties Json
  | .boolean allowed => .boolean allowed
  | schema => .schema schema

def readAlternatives (name : String) (fields : List (Text × Json)) :
    List Json := ((keyword name fields).bind readItems).getD []

def readAssertions (fields : List (Text × Json)) : Assertions where
  types := (keyword "type" fields).map readTypes
  constValue := keyword "const" fields
  enumValues := (keyword "enum" fields).bind readItems
  pattern := (keyword "pattern" fields).bind (readPattern regExp)
  minLength := (keyword "minLength" fields).bind readCount
  maxLength := (keyword "maxLength" fields).bind readCount
  minItems := (keyword "minItems" fields).bind readCount
  maxItems := (keyword "maxItems" fields).bind readCount
  minProperties := (keyword "minProperties" fields).bind readCount
  maxProperties := (keyword "maxProperties" fields).bind readCount
  minimum := (keyword "minimum" fields).bind readNumber
  maximum := (keyword "maximum" fields).bind readNumber
  exclusiveMinimum := (keyword "exclusiveMinimum" fields).bind readNumber
  exclusiveMaximum := (keyword "exclusiveMaximum" fields).bind readNumber
  multipleOf := (keyword "multipleOf" fields).bind readDivisor
  required := (((keyword "required" fields).bind readItems).getD []).filterMap
    readName

def readKeywords (fields : List (Text × Json)) : Keywords Json where
  assertions := readAssertions regExp fields
  properties := ((keyword "properties" fields).map readProperties).getD []
  additionalProperties :=
    (keyword "additionalProperties" fields).map readAdditional
  items := keyword "items" fields
  allOf := readAlternatives "allOf" fields
  anyOf := readAlternatives "anyOf" fields
  oneOf := readAlternatives "oneOf" fields
  not := keyword "not" fields
  ifSchema := keyword "if" fields
  thenSchema := keyword "then" fields
  elseSchema := keyword "else" fields

end

/-- A schema accepts a value.  The subschemas of a schema are inside it. -/
def Accepts (regExp : RegExp) (reading : Reading) : Json → Json → Prop
  | .boolean allowed, _ => allowed = true
  | .object fields, value =>
    (readKeywords regExp fields).Holds reading
      (fun schema part => ∃ _ : sizeOf schema < sizeOf (Json.object fields),
        Accepts regExp reading schema part) value
  | _, _ => False
termination_by schema => sizeOf schema
decreasing_by assumption

def Inside (part value : Json) : Prop :=
  part.parts ⊆ value.parts ∧ sizeOf part < sizeOf value

variable {value schema : Json} {fields : List (Text × Json)} {name : String}
  {regExp : RegExp} {other reading : Reading}

theorem Inside.trans {part middle : Json} (inner : Inside part middle)
    (outer : Inside middle value) : Inside part value :=
  ⟨List.Subset.trans inner.1 outer.1, inner.2.trans outer.2⟩

theorem inside_object {field : Text × Json} (member : field ∈ fields) :
    Inside field.2 (.object fields) := by
  refine ⟨Json.parts_subset_field member, ?_⟩
  have smaller := sizeOf_lt_of_mem member
  rw [Prod.mk.sizeOf_spec] at smaller
  rw [Json.object.sizeOf_spec]
  omega

theorem inside_array {items : List Json} {item : Json}
    (member : item ∈ items) : Inside item (.array items) := by
  refine ⟨Json.parts_subset_item member, ?_⟩
  have smaller := sizeOf_lt_of_mem member
  rw [Json.array.sizeOf_spec]
  omega

theorem inside_keyword (given : keyword name fields = some value) :
    Inside value (.object fields) :=
  inside_object (Json.mem_of_lookup given)

theorem inside_items {items : List Json} {item : Json}
    (given : (keyword name fields).bind readItems = some items)
    (member : item ∈ items) : Inside item (.object fields) := by
  obtain ⟨value, found, read⟩ := Option.bind_eq_some_iff.mp given
  cases value with
  | array inner =>
    cases read
    exact (inside_array member).trans (inside_keyword found)
  | null | boolean _ | number _ | string _ | object _ => cases read

theorem inside_alternatives (member : schema ∈ readAlternatives name fields) :
    Inside schema (.object fields) := by
  rw [readAlternatives] at member
  cases given : (keyword name fields).bind readItems with
  | none =>
    rw [given] at member
    cases member
  | some items =>
    rw [given] at member
    exact inside_items given member

theorem inside_properties {property : Text × Json} (member : property ∈
    ((keyword "properties" fields).map readProperties).getD []) : Inside
    property.2 (.object fields) := by
  cases found : keyword "properties" fields with
  | none =>
    rw [found] at member
    cases member
  | some value =>
    rw [found] at member
    cases value with
    | object inner => exact (inside_object member).trans (inside_keyword found)
    | null | boolean _ | number _ | string _ | array _ => cases member

theorem inside_additional {additional : AdditionalProperties Json} (given :
    additional ∈ (keyword "additionalProperties" fields).map readAdditional)
    (member : schema ∈ additional.subschemas) : Inside schema
    (.object fields) := by
  obtain ⟨value, found, read⟩ := Option.mem_map.mp given
  rw [← read] at member
  cases value with
  | boolean allowed => cases member
  | null | number _ | string _ | array _ | object _ =>
    cases mem_singleton.mp member
    exact inside_keyword found

theorem inside_readKeywords
    (member : schema ∈ (readKeywords regExp fields).subschemas) :
    Inside schema (.object fields) := by
  rcases mem_subschemas.mp member with ⟨field, inside, rfl⟩ |
    ⟨additional, given, inside⟩ | given | inside | inside | inside | given |
    given | given | given
  · exact inside_properties inside
  · exact inside_additional given inside
  · exact inside_keyword given
  · exact inside_alternatives inside
  · exact inside_alternatives inside
  · exact inside_alternatives inside
  · exact inside_keyword given
  · exact inside_keyword given
  · exact inside_keyword given
  · exact inside_keyword given

section

variable {regExp : RegExp} {reading : Reading} {value : Json}

theorem accepts_boolean {allowed : Bool} :
    Accepts regExp reading (.boolean allowed) value ↔ allowed = true := by
  rw [Accepts]

theorem accepts_object {fields : List (Text × Json)} :
    Accepts regExp reading (.object fields) value ↔
    (readKeywords regExp fields).Holds reading (Accepts regExp reading) value
    := by
  rw [Accepts]
  have related : Related (fun left right : Json => left = right ∧
        sizeOf left < sizeOf (Json.object fields)) (readKeywords regExp fields)
      (readKeywords regExp fields) :=
    Related.refl fun schema member => ⟨rfl, (inside_readKeywords member).2⟩
  apply holds_iff_of_related related (Agree.refl reading _ value)
  intro first second here part _
  rw [← here.1]
  exact ⟨fun accepted => accepted.2, fun accepted => ⟨here.2, accepted⟩⟩

end

/-- A number which is a `multipleOf` inside a schema. -/
def IsDivisor (divisor : ℚ) (schema : Json) : Prop :=
  ∃ fields, .object fields ∈ schema.parts ∧
    keyword "multipleOf" fields = some (.number divisor)

structure AgreeInside (reading other : Reading) (schema value : Json) :
    Prop where
  equal : ∀ constant ∈ schema.parts, ∀ part ∈ value.parts,
    (reading.equal part constant ↔ other.equal part constant)
  multiple : ∀ number divisor, 0 < divisor → IsDivisor divisor schema →
    .number number ∈ value.parts →
      (reading.multiple number divisor ↔ other.multiple number divisor)

theorem AgreeInside.of_subset {inner part : Json}
    (agree : AgreeInside reading other schema value)
    (within : inner.parts ⊆ schema.parts) (below : part.parts ⊆ value.parts) :
    AgreeInside reading other inner part where
  equal constant known here inside :=
    agree.equal constant (within known) here (below inside)
  multiple number divisor positive known inside := by
    obtain ⟨fields, here, given⟩ := known
    exact agree.multiple number divisor positive ⟨fields, within here, given⟩
      (below inside)

theorem inside_constants {constant : Json}
    (member : constant ∈ (readAssertions regExp fields).constants) :
    constant ∈ (Json.object fields).parts := by
  suffices inside : Inside constant (.object fields) from
    inside.1 (Json.self_mem_parts constant)
  rcases mem_append.mp member with given | listed
  · exact inside_keyword (Option.mem_toList.mp given)
  · cases given : (readAssertions regExp fields).enumValues with
    | none =>
      rw [given] at listed
      cases listed
    | some candidates =>
      rw [given] at listed
      exact inside_items given listed

theorem inside_multipleOf {divisor : ℚ}
    (given : divisor ∈ (readAssertions regExp fields).multipleOf) :
    0 < divisor ∧ IsDivisor divisor (.object fields) := by
  obtain ⟨value, found, read⟩ := Option.bind_eq_some_iff.mp given
  cases value with
  | number inner =>
    rw [readDivisor] at read
    split at read
    case isTrue positive =>
        cases read
        exact ⟨positive, fields, Json.self_mem_parts _, found⟩
    case isFalse => cases read
  | null | boolean _ | string _ | array _ | object _ => cases read

theorem AgreeInside.agree
    (agree : AgreeInside reading other (.object fields) value) :
    Agree reading other (readAssertions regExp fields) value where
  equal constant inside :=
    agree.equal constant (inside_constants inside) value
      (Json.self_mem_parts value)
  multiple number divisor is given :=
    agree.multiple number divisor (inside_multipleOf given).1
      (inside_multipleOf given).2 (is ▸ Json.self_mem_parts value)

/-- Only the parts of a schema and of a value are compared, so readings which
agree on them accept the same. -/
theorem accepts_iff_of_agree (agree : AgreeInside reading other schema value) :
    Accepts regExp reading schema value ↔
    Accepts regExp other schema value := by
  induction size : sizeOf schema using Nat.strongRecOn
    generalizing schema value with
  | ind bound induction =>
    cases schema with
    | boolean allowed => rw [accepts_boolean, accepts_boolean]
    | object fields =>
      rw [accepts_object, accepts_object]
      have related : Related (fun left right : Json => left = right ∧
            Inside left (.object fields)) (readKeywords regExp fields)
          (readKeywords regExp fields) :=
        Related.refl fun schema member => ⟨rfl, inside_readKeywords member⟩
      apply holds_iff_of_related related agree.agree
      intro first second here part below
      rw [← here.1]
      exact induction _ (size ▸ here.2.2) (agree.of_subset here.2.1 below) rfl
    | null | number _ | string _ | array _ => simp only [Accepts]

end MachineBridge.Schemas
