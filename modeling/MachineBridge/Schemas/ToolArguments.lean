import MachineBridge.Schemas.Validate

/-!
# Validating the arguments of tools

A catalog of tools is compiled once, and the arguments of a call are validated
against the schema of its tool.
-/

namespace MachineBridge.Schemas

open Foundation Check List

def toolName : Json → Option Text
  | .object fields =>
    match keyword "name" fields with
    | some (.string (first :: rest)) => some (first :: rest)
    | _ => none
  | _ => none

/-- `{ type: "object" }`. -/
def objectSchema : Json := .object [(text "type", .string (text "object"))]

/-- `tool.inputSchema ?? { type: "object" }`. -/
def inputSchema : Json → Json
  | .object fields =>
    match keyword "inputSchema" fields with
    | none | some .null => objectSchema
    | some schema => schema
  | _ => objectSchema

def declaresObject {levels : Nat} : SchemaNode (levels + 1) → Bool
  | .boolean _ => false
  | .keywords node =>
    node.assertions.types.any fun types => types.contains .object

/-- The validators by the names of their tools. -/
abbrev Entries (limits : Limits) :=
  List (Text × SchemaNode (limits.maximumDepth.val + 1))

def compileTool (regExp : RegExp) (limits : Limits)
    (validators : Entries limits) (tool : Json) :
    Compile (Entries limits) := do
  let name ← orReject
    (text "tool catalog contains an invalid tool definition") (toolName tool)
  if (validators.lookup name).isSome then
    reject (text "duplicate tool schema: " ++ name)
  else
    let compiled ← compileSchema regExp limits (limits.maximumDepth.val + 1)
      (text "tool " ++ name ++ text ".inputSchema") (inputSchema tool)
    if declaresObject compiled then pure (validators ++ [(name, compiled)])
    else reject (text "tool " ++ name ++
      text " input schema must declare type object")

def compileTools (regExp : RegExp) (limits : Limits) :
    Entries limits → List Json → Compile (Entries limits)
  | validators, [] => pure validators
  | validators, tool :: tools => do
    compileTools regExp limits
      (← compileTool regExp limits validators tool) tools

structure Validators where
  limits : Limits
  entries : Entries limits

def compileToolArgumentValidators (regExp : RegExp) (tools : Json)
    (options : LimitOptions) : Except Text Validators :=
  match tools with
  | .array tools =>
    let limits := normalizeLimits options
    match compileTools regExp limits [] tools 0 with
    | .ok (entries, _) => .ok ⟨limits, entries⟩
    | .error message => .error message
  | _ => .error (text "tool catalog must be an array")

structure ValidationResult where
  (known valid : Bool)
  issues : List Issue

namespace Validators

variable (numbers : NumberFormat) (validators : Validators)

def walk (node : SchemaNode (validators.limits.maximumDepth.val + 1))
    (value : Json) : Except (List Issue) (Unit × CheckState Issue) :=
  validateNode numbers _ validators.limits.maximumIssues.val node value []
    { issues := []
      remaining := validators.limits.maximumValidationSteps.val }

def budgetIssue : Issue where
  instancePath := []
  keyword := text "validationBudget"
  message := text "validation exceeded the bounded work budget"

def pushIssue (limit : Nat) (issues : List Issue) (issue : Issue) :
    List Issue :=
  if limit ≤ issues.length then issues else issues ++ [issue]

def issuesOf :
    Except (List Issue) (Unit × CheckState Issue) → List Issue
  | .ok (_, done) => done.issues
  | .error issues =>
    pushIssue validators.limits.maximumIssues.val issues budgetIssue

def validate (tool : Text) (value : Json) : ValidationResult :=
  match validators.entries.lookup tool with
  | none => ⟨false, false, []⟩
  | some node =>
    let issues := validators.issuesOf (validators.walk numbers node value)
    ⟨true, issues.isEmpty, issues⟩

/-- Whether the budget does not suffice for a value. -/
def exhausted (tool : Text) (value : Json) : Bool :=
  match validators.entries.lookup tool with
  | none => false
  | some node =>
    match validators.walk numbers node value with
    | .ok _ => false
    | .error _ => true

end Validators

/-- A tool has a node which means what its schema means. -/
def CompiledTool (regExp : RegExp) {limits : Limits} (entries : Entries limits)
    (tool : Json) : Prop :=
  ∃ name node, toolName tool = some name ∧
    entries.lookup name = some node ∧
    ∀ reading value, NodeAccepts reading _ node value ↔
      Accepts regExp reading (inputSchema tool) value

theorem lookup_of_isPrefix {α : Type} {entries more : List (Text × α)}
    {name : Text} {node : α} (within : entries <+: more)
    (found : entries.lookup name = some node) :
    more.lookup name = some node := by
  obtain ⟨rest, rfl⟩ := within
  rw [lookup_append, found]
  rfl

section

variable {regExp : RegExp} {limits : Limits}

theorem CompiledTool.extend {entries more : Entries limits} {tool : Json}
    (compiled : CompiledTool regExp entries tool) (within : entries <+: more) :
    CompiledTool regExp more tool := by
  obtain ⟨name, node, named, found, means⟩ := compiled
  exact ⟨name, node, named, lookup_of_isPrefix within found, means⟩

theorem yields_compileTool (validators : Entries limits) (tool : Json) : Yields
    (compileTool regExp limits validators tool) fun entries => validators <+:
    entries ∧ CompiledTool regExp entries tool := by
  refine Yields.bind (yields_orReject (toolName tool)) ?_
  intro name named
  split
  case isTrue => exact .fail
  case isFalse fresh =>
      refine Yields.bind (yields_compileSchema _ _ _) ?_
      intro node means
      split
      case isTrue =>
          apply Yields.pure
          refine ⟨prefix_append _ _, name, node, named, ?_, means⟩
          rw [Option.not_isSome_iff_eq_none] at fresh
          rw [lookup_append, fresh, lookup_cons_self]
          rfl
      case isFalse => exact .fail

theorem yields_compileTools (tools : List Json) (validators : Entries limits) :
    Yields (compileTools regExp limits validators tools) fun entries =>
    validators <+: entries ∧ ∀ tool ∈ tools,
    CompiledTool regExp entries tool := by
  induction tools generalizing validators with
  | nil =>
    apply Yields.pure
    exact ⟨prefix_rfl, forall_mem_nil _⟩
  | cons tool tools induction =>
    refine Yields.bind (yields_compileTool validators tool) ?_
    intro middle first state entries done ran
    obtain ⟨within, every⟩ := induction middle state entries done ran
    refine ⟨first.1.trans within, ?_⟩
    exact forall_mem_cons.mpr ⟨first.2.extend within, every⟩

theorem compiledTool_of_ok {tools : List Json} {options : LimitOptions}
    {validators : Validators} (compiled : compileToolArgumentValidators regExp
    (.array tools) options = .ok validators) : ∀ tool ∈ tools, CompiledTool
    regExp validators.entries tool := by
  rw [compileToolArgumentValidators] at compiled
  split at compiled
  case h_1 entries nodes ran =>
      cases compiled
      exact (yields_compileTools tools [] 0 entries nodes ran).2
  case h_2 => cases compiled

end

end MachineBridge.Schemas
