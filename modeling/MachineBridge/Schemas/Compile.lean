import MachineBridge.Schemas.Reference
import MachineBridge.Schemas.Values

/-!
# Compiling schemas

A schema of the catalog is checked and compiled into nodes.  The nodes of a
catalog are counted, and they are nested up to a maximum depth, so that a
compiled schema is a tree of a known height.
-/

namespace MachineBridge.Schemas

open Foundation

abbrev Positive := { number : Nat // 0 < number }

structure Limits where
  (maximumDepth maximumNodes maximumIssues maximumPatternLength : Positive)
  maximumValidationSteps : Positive

/-- `DEFAULT_LIMITS`. -/
def Limits.defaults : Limits where
  maximumDepth := ⟨32, by decide⟩
  maximumNodes := ⟨4096, by decide⟩
  maximumIssues := ⟨16, by decide⟩
  maximumPatternLength := ⟨2048, by decide⟩
  maximumValidationSteps := ⟨65536, by decide⟩

/-- The options as `Number` converts them: none of them need be a number. -/
structure LimitOptions where
  (maximumDepth maximumNodes maximumIssues : Option ℚ := none)
  (maximumPatternLength maximumValidationSteps : Option ℚ := none)

def normalizeLimit (candidate : Option ℚ) (fallback : Positive) : Positive :=
  match candidate with
  | none => fallback
  | some number =>
    if whole : number.den = 1 ∧ 0 < number.num then
      ⟨number.num.toNat, Int.pos_iff_toNat_pos.mp whole.2⟩
    else fallback

def normalizeLimits (value : LimitOptions) : Limits where
  maximumDepth := normalizeLimit value.maximumDepth
    Limits.defaults.maximumDepth
  maximumNodes := normalizeLimit value.maximumNodes
    Limits.defaults.maximumNodes
  maximumIssues := normalizeLimit value.maximumIssues
    Limits.defaults.maximumIssues
  maximumPatternLength := normalizeLimit value.maximumPatternLength
    Limits.defaults.maximumPatternLength
  maximumValidationSteps := normalizeLimit value.maximumValidationSteps
    Limits.defaults.maximumValidationSteps

inductive Node (σ : Type) where
  | boolean (accepted : Bool)
  | keywords (keywords : Keywords σ)

/-- Compiled schemas with a number of levels.  Without levels left a schema
can only be a truth value. -/
@[reducible] def SchemaNode : Nat → Type
  | 0 => Bool
  | levels + 1 => Node (SchemaNode levels)

/-- A computation which counts the nodes and fails with a message. -/
abbrev Compile (α : Type) := StateT Nat (Except Text) α

def reject {α : Type} (message : Text) : Compile α := throw message

def orReject {α : Type} (message : Text) : Option α → Compile α
  | some result => pure result
  | none => reject message

section

variable (regExp : RegExp) (limits : Limits) (label : Text)

def countNode : Compile Unit := do
  let nodes ← get
  set (nodes + 1)
  if limits.maximumNodes.val < nodes + 1 then
    reject (text "tool catalog exceeds maximum schema node count")

def supportedKeywords : List Text :=
  [text "$schema", text "type", text "enum", text "const", text "default",
    text "title", text "description", text "properties", text "required",
    text "additionalProperties", text "items", text "minItems",
    text "maxItems", text "minLength", text "maxLength", text "pattern",
    text "minimum", text "maximum", text "exclusiveMinimum",
    text "exclusiveMaximum", text "multipleOf", text "minProperties",
    text "maxProperties", text "allOf", text "anyOf", text "oneOf",
    text "not", text "if", text "then", text "else", text "x-mcp-header"]

def validateKeywordNames (fields : List (Text × Json)) : Compile Unit :=
  match fields.find? fun field => !supportedKeywords.contains field.1 with
  | some field =>
    reject (label ++ text " uses unsupported JSON Schema keyword: " ++
      field.1)
  | none => pure ()

def dialect : Text := text "https://json-schema.org/draft/2020-12/schema"

def validateDialect (value : Option Json) : Compile Unit :=
  let accepted := match value with
    | none => true
    | some (.string name) => name == dialect || name == dialect ++ text "#"
    | some _ => false
  if accepted then pure ()
  else reject (label ++ text " uses an unsupported JSON Schema dialect")

/-- A keyword which need not be there. -/
def optional {α : Type} (compile : Json → Compile α) :
    Option Json → Compile (Option α)
  | none => pure none
  | some value => do return some (← compile value)

def compileTypes (value : Json) : Compile (List SchemaType) :=
  match (typeValues value).mapM typeNamed with
  | some (type :: types) =>
    if (type :: types).Nodup then pure (type :: types)
    else reject (label ++ text ".type contains duplicates")
  | _ => reject (label ++ text ".type is invalid")

/-- Whether a value is equal to a later one. -/
def hasDuplicates : List Json → Bool
  | [] => false
  | value :: values => values.any (jsonEqual value) || hasDuplicates values

def compileEnum (value : Json) : Compile (List Json) :=
  match value with
  | .array (first :: rest) =>
    if hasDuplicates (first :: rest) then
      reject (label ++ text ".enum contains duplicate values")
    else pure (first :: rest)
  | _ => reject (label ++ text ".enum must be a non-empty array")

def compilePattern (value : Json) : Compile (Text → Bool) :=
  match value with
  | .string source =>
    if limits.maximumPatternLength.val < source.length then
      reject (label ++ text ".pattern is invalid or too large")
    else
      orReject (label ++
        text ".pattern is not a valid ECMAScript regular expression")
        (regExp source)
  | _ => reject (label ++ text ".pattern is invalid or too large")

def nonNegativeInteger (name : String) (value : Json) : Compile Nat :=
  orReject (label ++ text "." ++ text name ++
    text " must be a non-negative integer") (readCount value)

def finiteNumber (name : String) (value : Json) : Compile ℚ :=
  orReject (label ++ text "." ++ text name ++
    text " must be a finite number") (readNumber value)

def compileMultipleOf (value : Json) : Compile ℚ := do
  let divisor ← finiteNumber label "multipleOf" value
  if 0 < divisor then pure divisor
  else reject (label ++ text ".multipleOf must be greater than zero")

def compileRequired (value : Json) : Compile (List Text) :=
  match (readItems value).bind fun names => names.mapM readName with
  | some names =>
    if names.Nodup then pure names
    else reject (label ++ text ".required contains duplicates")
  | none => reject (label ++ text ".required must be an array of strings")

end

section

variable {σ : Type} (compile : Text → Json → Compile σ) (label : Text)

def compileFields : List (Text × Json) → Compile (List (Text × σ))
  | [] => pure []
  | (key, child) :: fields => do
    let node ← compile (label ++ text ".properties." ++ key) child
    let nodes ← compileFields fields
    pure ((key, node) :: nodes)

def compileProperties : Option Json → Compile (List (Text × σ))
  | none => pure []
  | some (.object fields) => compileFields compile label fields
  | some _ => reject (label ++ text ".properties must be an object")

def compileAdditional (value : Json) : Compile (AdditionalProperties σ) :=
  match value with
  | .boolean allowed => pure (.boolean allowed)
  | schema => do
    return .schema (← compile (label ++ text ".additionalProperties") schema)

def compileEach : Nat → List Json → Compile (List σ)
  | _, [] => pure []
  | index, child :: children => do
    let node ← compile (label ++ text "[" ++ decimal index ++ text "]") child
    let nodes ← compileEach (index + 1) children
    pure (node :: nodes)

def compileAlternatives (name : String) :
    Option Json → Compile (List σ)
  | none => pure []
  | some (.array (first :: rest)) =>
    compileEach compile (label ++ text "." ++ text name) 0 (first :: rest)
  | some _ => reject (label ++ text "." ++ text name ++
      text " must be a non-empty array")

def compileSubschema (name : String) : Option Json → Compile (Option σ) :=
  optional (compile (label ++ text "." ++ text name))

variable (regExp : RegExp) (limits : Limits)

/-- The keywords of a schema object, in the order in which the source looks at
them. -/
def compileKeywords (fields : List (Text × Json)) : Compile (Keywords σ) := do
  let given := fun name => keyword name fields
  let count := fun name => optional (nonNegativeInteger label name) (given name)
  let number := fun name => optional (finiteNumber label name) (given name)
  let alternatives := fun name =>
    compileAlternatives compile label name (given name)
  let subschema := fun name => compileSubschema compile label name (given name)
  countNode limits
  validateKeywordNames label fields
  validateDialect label (given "$schema")
  let types ← optional (compileTypes label) (given "type")
  let enumValues ← optional (compileEnum label) (given "enum")
  let pattern ← optional (compilePattern regExp limits label) (given "pattern")
  let minLength ← count "minLength"
  let maxLength ← count "maxLength"
  let minItems ← count "minItems"
  let maxItems ← count "maxItems"
  let minProperties ← count "minProperties"
  let maxProperties ← count "maxProperties"
  let minimum ← number "minimum"
  let maximum ← number "maximum"
  let exclusiveMinimum ← number "exclusiveMinimum"
  let exclusiveMaximum ← number "exclusiveMaximum"
  let multipleOf ← optional (compileMultipleOf label) (given "multipleOf")
  let properties ← compileProperties compile label (given "properties")
  let required ← optional (compileRequired label) (given "required")
  let additionalProperties ←
    optional (compileAdditional compile label) (given "additionalProperties")
  let items ← subschema "items"
  let allOf ← alternatives "allOf"
  let anyOf ← alternatives "anyOf"
  let oneOf ← alternatives "oneOf"
  let not ← subschema "not"
  let ifSchema ← subschema "if"
  let thenSchema ← subschema "then"
  let elseSchema ← subschema "else"
  let constValue := given "const"
  pure {
    assertions := {
      types, constValue, enumValues, pattern, minLength, maxLength, minItems,
      maxItems, minProperties, maxProperties, minimum, maximum,
      exclusiveMinimum, exclusiveMaximum, multipleOf
      required := required.getD [] }
    properties, additionalProperties, items, allOf, anyOf, oneOf, not,
    ifSchema, thenSchema, elseSchema }

end

/-- A schema below a number of levels which are left. -/
def compileSchema (regExp : RegExp) (limits : Limits) :
    (levels : Nat) → Text → Json → Compile (SchemaNode levels)
  | 0, label, schema =>
    match schema with
    | .boolean accepted => pure accepted
    | .object _ => reject (label ++ text " exceeds maximum schema depth")
    | _ => reject (label ++ text " must be an object or boolean schema")
  | levels + 1, label, schema =>
    match schema with
    | .boolean accepted => pure (.boolean accepted)
    | .object fields => do
      return .keywords (← compileKeywords (compileSchema regExp limits levels)
        label regExp limits fields)
    | _ => reject (label ++ text " must be an object or boolean schema")

/-!
## Compiled schemas mean what the schemas mean

A schema which compiles is read without a loss, so its node accepts what the
reference semantics accepts.
-/

def NodeAccepts (reading : Reading) :
    (levels : Nat) → SchemaNode levels → Json → Prop
  | 0, accepted, _ => accepted = true
  | _ + 1, .boolean accepted, _ => accepted = true
  | levels + 1, .keywords keywords, value =>
    keywords.Holds reading (NodeAccepts reading levels) value

theorem yields_optional {α : Type} {compile : Json → Compile α}
    {read : Json → Option α} (given : Option Json) (yields : ∀ value,
      Yields (compile value) fun result => read value = some result) :
    Yields (optional compile given) fun result => result =
    given.bind read := by
  cases given with
  | none => exact .pure rfl
  | some value =>
    apply Yields.map
    exact fun state result done ran => (yields value state result done ran).symm

theorem yields_orReject {α : Type} {message : Text} (option : Option α) :
    Yields (orReject message option) fun result => option = some result := by
  cases option with
  | none => exact .fail
  | some result => exact .pure rfl

variable {regExp : RegExp} {limits : Limits} {label : Text}

theorem filterMap_of_mapM {α β : Type} {read : α → Option β} {items : List α}
    {results : List β} (all : items.mapM read = some results) :
    items.filterMap read = results := by
  induction items generalizing results with
  | nil => exact Option.some.inj all
  | cons item items induction =>
    rw [List.mapM_cons] at all
    cases here : read item with
    | none =>
      rw [here] at all
      cases all
    | some result =>
      cases later : items.mapM read with
      | none =>
        rw [here, later] at all
        cases all
      | some others =>
        rw [here, later] at all
        rw [List.filterMap_cons_some here, induction later]
        exact Option.some.inj all

theorem yields_compileTypes (value : Json) :
    Yields (compileTypes label value) fun types => some (readTypes value) =
    some types := by
  rw [compileTypes]
  split
  case h_1 type types named =>
      split
      case isTrue =>
          apply Yields.pure
          exact congrArg some (filterMap_of_mapM named)
      case isFalse => exact .fail
  case h_2 => exact .fail

theorem yields_nonNegativeInteger (name : String) (value : Json) :
    Yields (nonNegativeInteger label name value) fun count =>
      readCount value = some count := yields_orReject _

theorem yields_finiteNumber (name : String) (value : Json) :
    Yields (finiteNumber label name value) fun number =>
      readNumber value = some number := yields_orReject _

section

variable (value : Json)

theorem yields_compileEnum :
    Yields (compileEnum label value) fun items => readItems value =
    some items := by
  rw [compileEnum.eq_def]
  split
  case h_1 first rest =>
      split
      case isTrue => exact .fail
      case isFalse => exact .pure rfl
  case h_2 => exact .fail

theorem yields_compilePattern : Yields
    (compilePattern regExp limits label value) fun test => readPattern regExp
    value = some test := by
  rw [compilePattern.eq_def]
  split
  case h_1 source =>
      split
      case isTrue => exact .fail
      case isFalse => exact yields_orReject _
  case h_2 => exact .fail

theorem yields_compileMultipleOf :
    Yields (compileMultipleOf label value) fun divisor => readDivisor value =
    some divisor := by
  refine Yields.bind (yields_finiteNumber "multipleOf" value) ?_
  intro divisor read
  split
  case isTrue positive =>
      apply Yields.pure
      cases value with
      | number inner =>
        cases read
        exact if_pos positive
      | null | boolean _ | string _ | array _ | object _ => cases read
  case isFalse => exact .fail

theorem yields_compileRequired : Yields (compileRequired label value) fun names
    => (readItems value).map (List.filterMap readName) = some names := by
  rw [compileRequired]
  split
  case h_1 names read =>
      obtain ⟨items, given, named⟩ := Option.bind_eq_some_iff.mp read
      split
      case isTrue =>
          apply Yields.pure
          rw [given, Option.map_some, filterMap_of_mapM named]
      case isFalse => exact .fail
  case h_2 => exact .fail

end

theorem getD_names (given : Option Json) : (given.bind fun value => (readItems
    value).map (List.filterMap readName)).getD [] =
    ((given.bind readItems).getD []).filterMap readName := by
  cases given with
  | none => rfl
  | some value =>
    rw [Option.bind_some, Option.bind_some]
    cases readItems value with
    | none => rfl
    | some names => rfl

section

variable {σ : Type} {R : σ → Json → Prop} {compile : Text → Json → Compile σ}

/-- Every result of compiling a schema is related to the schema. -/
def CompilesTo (R : σ → Json → Prop) (compile : Text → Json → Compile σ) :
    Prop :=
  ∀ label schema, Yields (compile label schema) fun node => R node schema

section

variable (compiles : CompilesTo R compile)
include compiles

theorem yields_compileFields
    (fields : List (Text × Json)) : Yields (compileFields compile label fields)
    fun nodes => List.Forall₂ (FieldRelated R) nodes fields := by
  induction fields with
  | nil => exact .pure .nil
  | cons field fields induction =>
    obtain ⟨key, child⟩ := field
    refine Yields.bind (compiles _ child) ?_
    intro node related
    refine Yields.bind induction ?_
    intro nodes later
    exact .pure (.cons ⟨rfl, related⟩ later)

theorem yields_compileProperties
    (given : Option Json) : Yields (compileProperties compile label given) fun
    nodes => List.Forall₂ (FieldRelated R) nodes
    ((given.map readProperties).getD []) := by
  rw [compileProperties.eq_def]
  split
  case h_1 => exact .pure .nil
  case h_2 fields => exact yields_compileFields compiles fields
  case h_3 => exact .fail

theorem yields_compileAdditional
    (value : Json) : Yields (compileAdditional compile label value) fun
    additional => AdditionalRelated R additional (readAdditional value) := by
  cases value with
  | boolean allowed => exact .pure (.boolean allowed)
  | null | number _ | string _ | array _ | object _ =>
    refine Yields.bind (compiles _ _) ?_
    intro node related
    exact .pure (.schema related)

theorem yields_compileEach (schemas : List Json) (index : Nat) : Yields
    (compileEach compile label index schemas) fun nodes => List.Forall₂ R nodes
    schemas := by
  induction schemas generalizing index with
  | nil => exact .pure .nil
  | cons schema schemas induction =>
    refine Yields.bind (compiles _ schema) ?_
    intro node related
    refine Yields.bind (induction (index + 1)) ?_
    intro nodes later
    exact .pure (.cons related later)

theorem yields_compileAlternatives
    (name : String) (given : Option Json) : Yields
    (compileAlternatives compile label name given) fun nodes => List.Forall₂ R
    nodes ((given.bind readItems).getD []) := by
  rw [compileAlternatives.eq_def]
  split
  case h_1 => exact .pure .nil
  case h_2 first rest => exact yields_compileEach compiles (first :: rest) 0
  case h_3 => exact .fail

end

theorem yields_optionalRelated {α β : Type} {related : α → β → Prop}
    {compile : Json → Compile α} {read : Json → β} (given : Option Json)
    (yields : ∀ value,
      Yields (compile value) fun node => related node (read value)) : Yields
    (optional compile given) fun result => Option.Rel related result
    (given.map read) := by
  cases given with
  | none => exact .pure .none
  | some value =>
    refine Yields.bind (yields value) ?_
    intro node here
    exact .pure (.some here)

theorem yields_compileSubschema (compiles : CompilesTo R compile)
    (name : String) (given : Option Json) : Yields
    (compileSubschema compile label name given) fun result => Option.Rel R
    result given := by
  have yields := yields_optionalRelated given (compiles (label ++ text "." ++
    text name))
  rw [Option.map_id'] at yields
  exact yields

theorem yields_compileKeywords (compiles : CompilesTo R compile)
    (fields : List (Text × Json)) : Yields
    (compileKeywords compile label regExp limits fields) fun keywords =>
    Related R keywords (readKeywords regExp fields) := by
  refine Yields.after fun _ => Yields.after fun _ => Yields.after fun _ => ?_
  refine Yields.bind (yields_optional _ yields_compileTypes) ?_
  intro types knownTypes
  refine Yields.bind (yields_optional _ yields_compileEnum) ?_
  intro enumValues knownEnumValues
  refine Yields.bind (yields_optional _ yields_compilePattern) ?_
  intro pattern knownPattern
  refine Yields.bind (yields_optional _ (yields_nonNegativeInteger _)) ?_
  intro minLength knownMinLength
  refine Yields.bind (yields_optional _ (yields_nonNegativeInteger _)) ?_
  intro maxLength knownMaxLength
  refine Yields.bind (yields_optional _ (yields_nonNegativeInteger _)) ?_
  intro minItems knownMinItems
  refine Yields.bind (yields_optional _ (yields_nonNegativeInteger _)) ?_
  intro maxItems knownMaxItems
  refine Yields.bind (yields_optional _ (yields_nonNegativeInteger _)) ?_
  intro minProperties knownMinProperties
  refine Yields.bind (yields_optional _ (yields_nonNegativeInteger _)) ?_
  intro maxProperties knownMaxProperties
  refine Yields.bind (yields_optional _ (yields_finiteNumber _)) ?_
  intro minimum knownMinimum
  refine Yields.bind (yields_optional _ (yields_finiteNumber _)) ?_
  intro maximum knownMaximum
  refine Yields.bind (yields_optional _ (yields_finiteNumber _)) ?_
  intro exclusiveMinimum knownExclusiveMinimum
  refine Yields.bind (yields_optional _ (yields_finiteNumber _)) ?_
  intro exclusiveMaximum knownExclusiveMaximum
  refine Yields.bind (yields_optional _ yields_compileMultipleOf) ?_
  intro multipleOf knownMultipleOf
  refine Yields.bind (yields_compileProperties compiles _) ?_
  intro properties relatedProperties
  refine Yields.bind (yields_optional _ yields_compileRequired) ?_
  intro required knownRequired
  refine Yields.bind (yields_optionalRelated _
    (yields_compileAdditional compiles)) ?_
  intro additionalProperties relatedAdditional
  refine Yields.bind (yields_compileSubschema compiles _ _) ?_
  intro items relatedItems
  refine Yields.bind (yields_compileAlternatives compiles _ _) ?_
  intro allOf relatedAllOf
  refine Yields.bind (yields_compileAlternatives compiles _ _) ?_
  intro anyOf relatedAnyOf
  refine Yields.bind (yields_compileAlternatives compiles _ _) ?_
  intro oneOf relatedOneOf
  refine Yields.bind (yields_compileSubschema compiles _ _) ?_
  intro not relatedNot
  refine Yields.bind (yields_compileSubschema compiles _ _) ?_
  intro ifSchema relatedIf
  refine Yields.bind (yields_compileSubschema compiles _ _) ?_
  intro thenSchema relatedThen
  refine Yields.bind (yields_compileSubschema compiles _ _) ?_
  intro elseSchema relatedElse
  apply Yields.pure
  refine ⟨?_, relatedProperties, relatedAdditional, relatedItems, relatedAllOf,
    relatedAnyOf, relatedOneOf, relatedNot, relatedIf, relatedThen,
    relatedElse⟩
  have sameTypes : types = (keyword "type" fields).map readTypes := by
    rw [knownTypes, Option.map_eq_bind]
    rfl
  have sameRequired : required.getD [] =
      (((keyword "required" fields).bind readItems).getD []).filterMap readName
      := by
    rw [knownRequired]
    exact getD_names (keyword "required" fields)
  rw [sameTypes, knownEnumValues, knownPattern, knownMinLength,
    knownMaxLength, knownMinItems, knownMaxItems, knownMinProperties,
    knownMaxProperties, knownMinimum, knownMaximum, knownExclusiveMinimum,
    knownExclusiveMaximum, knownMultipleOf, sameRequired]
  rfl

end

theorem yields_compileSchema (levels : Nat) : CompilesTo
    (fun node schema => ∀ reading value,
      NodeAccepts reading levels node value ↔
      Accepts regExp reading schema value) (compileSchema regExp limits levels)
    := by
  induction levels with
  | zero =>
    intro label schema
    cases schema with
    | boolean accepted =>
      apply Yields.pure
      exact fun reading value => accepts_boolean.symm
    | null | number _ | string _ | array _ | object _ => exact .fail
  | succ levels induction =>
    intro label schema
    cases schema with
    | boolean accepted =>
      apply Yields.pure
      exact fun reading value => accepts_boolean.symm
    | object fields =>
      refine Yields.bind (yields_compileKeywords induction fields) ?_
      intro keywords related
      apply Yields.pure
      intro reading value
      rw [accepts_object]
      apply holds_iff_of_related related (Agree.refl reading _ value)
      exact fun node schema same part _ => same reading part
    | null | number _ | string _ | array _ => exact .fail

end MachineBridge.Schemas
