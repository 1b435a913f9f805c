import MachineBridge.Schemas.ToolArguments

/-!
# Which arguments are accepted

Within the budget the validator accepts what the reference semantics accepts
when a multiple is read as the validator reads it, and beyond the budget it
accepts nothing.  Its tolerance for multiples is larger than the distance of
two integers from `2 ^ 50` on, so it is not exact for all integers.
-/

namespace MachineBridge.Schemas

open Foundation Check List

/-- The specification with the multiples of the validator. -/
def Reading.tolerant : Reading where
  equal := Json.Same
  multiple value divisor := isMultipleOf value divisor = true

/-- Every number in a value and every `multipleOf` in a schema is an integer
below `2 ^ 50`. -/
def SmallMultiples (schema value : Json) : Prop :=
  ∀ number divisor : ℚ, .number number ∈ value.parts →
    IsDivisor divisor schema →
      ∃ integer whole : ℤ, number = integer ∧ divisor = whole ∧
        |integer| < 2 ^ 50 ∧ |whole| < 2 ^ 50

theorem agree_code {schema value : Json} (declared : schema.Distinct)
    (plain : value.Distinct) : AgreeInside .code .tolerant schema value where
  equal constant known part inside :=
    jsonEqual_iff part constant (plain.part inside) (declared.part known)
  multiple _ _ _ _ _ := Iff.rfl

theorem agree_exact {schema value : Json}
    (small : SmallMultiples schema value) :
    AgreeInside .tolerant .exact schema value where
  equal _ _ _ _ := Iff.rfl
  multiple number divisor positive known inside := by
    obtain ⟨integer, whole, rfl, rfl, below, bound⟩ :=
      small number divisor inside known
    have above : 0 < whole := Int.cast_pos.mp positive
    rw [abs_of_pos above] at bound
    exact isMultipleOf_iff_of_small above bound below

theorem inputSchema_distinct {tool : Json} (distinct : tool.Distinct) :
    (inputSchema tool).Distinct := by
  have default : objectSchema.Distinct := by decide
  cases tool with
  | object fields =>
    rw [inputSchema.eq_def]
    dsimp only
    split
    case h_1 => exact default
    case h_2 => exact default
    case h_3 schema _ given =>
        exact distinct.of_subset (inside_keyword given).1
  | null | boolean _ | number _ | string _ | array _ => exact default

section

variable {regExp : RegExp} {options : LimitOptions} {tools : List Json}
  {validators : Validators} {tool value : Json} {name : Text}

section

variable (numbers : NumberFormat)

theorem validate_exhausted
    (beyond : validators.exhausted numbers name value = true) :
    (validators.validate numbers name value).valid = false := by
  rw [Validators.exhausted] at beyond
  rw [Validators.validate]
  split at beyond
  case h_1 => cases beyond
  case h_2 node found =>
      split at beyond
      case h_1 => cases beyond
      case h_2 issues stopped =>
          rw [stopped, Validators.issuesOf, Validators.pushIssue]
          split
          case isTrue full =>
              have some := validators.limits.maximumIssues.property
              cases issues with
              | nil => exact absurd full (Nat.not_le.mpr some)
              | cons issue issues => rfl
          case isFalse => cases issues <;> rfl

theorem validate_within (compiled : compileToolArgumentValidators regExp
    (.array tools) options = .ok validators) (declared : tool.Distinct)
    (plain : value.Distinct) (listed : tool ∈ tools) (named : toolName tool =
    some name) (within : validators.exhausted numbers name value = false) :
    (validators.validate numbers name value).valid = true ↔ Accepts regExp
    .tolerant (inputSchema tool) value := by
  obtain ⟨known, node, here, found, means⟩ :=
    compiledTool_of_ok compiled tool listed
  cases named.symm.trans here
  rw [← accepts_iff_of_agree (agree_code (inputSchema_distinct declared) plain),
    ← means]
  rw [Validators.exhausted, found] at within
  dsimp only at within
  split at within
  case h_1 result walked =>
      have decided := decides_node numbers _ _ node value [] _ result.2 walked
      rw [Validators.validate, found]
      dsimp only
      rw [walked]
      exact List.isEmpty_iff.trans
        (decided.2 validators.limits.maximumIssues.property)
  case h_2 => cases within

end

end

def evenProperty : Json := .object [(text "multipleOf", .number 2)]

def evenSchema : Json :=
  .object [(text "type", .string (text "object")),
    (text "properties", .object [(text "n", evenProperty)])]

def evenTool : Json :=
  .object [(text "name", .string (text "even")),
    (text "inputSchema", evenSchema)]

def evenArguments (number : ℚ) : Json := .object [(text "n", .number number)]

def compiledEven : Except Text Validators :=
  compileToolArgumentValidators (fun _ => none) (.array [evenTool]) {}

theorem accepts_evenSchema {reading : Reading} {number : ℚ} (accepted : Accepts
    (fun _ => none) reading evenSchema (evenArguments number)) :
    reading.multiple number 2 := by
  have object := (accepts_object.mp accepted).object _ rfl
  have field := object.each (text "n", .number number) mem_cons_self
  have inner := accepts_object.mp (field.property evenProperty rfl)
  exact (inner.number number rfl).multipleOf 2 rfl

theorem smallMultiples_even {number : ℤ} (below : |number| < 2 ^ 50) :
    SmallMultiples evenSchema (evenArguments number) := by
  intro value divisor inside known
  obtain ⟨fields, part, given⟩ := known
  have is : value = number := by
    rcases mem_cons.mp inside with impossible | single
    · cases impossible
    · exact Json.number.inj (mem_singleton.mp single)
  have parts : evenSchema.parts = [evenSchema, .string (text "object"),
      .object [(text "n", evenProperty)], evenProperty, .number 2] := rfl
  rw [parts] at part
  simp only [mem_cons, not_mem_nil, or_false] at part
  have two : divisor = 2 := by
    rcases part with same | same | same | same | same
    · cases same
      cases given
    · cases same
    · cases same
      cases given
    · cases same
      exact (Json.number.inj (Option.some.inj given)).symm
    · cases same
  exact ⟨number, 2, is, two, below, by decide⟩

end MachineBridge.Schemas
