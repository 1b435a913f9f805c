import Mathlib.Algebra.BigOperators.Group.List.Lemmas
import Mathlib.Algebra.GroupWithZero.Nat

/-!
# Tool-call capacity

The admission rule which the Worker's pending-call registry and the daemon's
result recovery share: a maximum for all calls, and a smaller one for ordinary
calls, so that control-plane tools always find room.
-/

namespace MachineBridge.Shared

def controlPlaneToolNames : List String := ["diagnose_runtime", "list_roots"]

structure ToolCallCapacityConfig where
  (maximum reserved ordinaryMaximum : Nat)
  reservedTools : List String

def toolCallCapacityConfig (maximumValue reservedValue : Nat) :
    ToolCallCapacityConfig :=
  let maximum := if 0 < maximumValue then maximumValue else 1
  let reserved := min reservedValue (maximum - 1)
  { maximum, reserved
    ordinaryMaximum := maximum - reserved
    reservedTools := controlPlaneToolNames }

/-- How many calls of each tool there are, one entry for a tool. -/
def toolCounts (tools : List String) : List (String × Nat) :=
  tools.dedup.map fun tool => (tool, tools.count tool)

structure ToolCallCapacityUsage where
  (active activeReserved activeOrdinary : Nat)

def toolCallCapacityUsage (active : Nat) (byTool : List (String × Nat))
    (config : ToolCallCapacityConfig) : ToolCallCapacityUsage :=
  let counted := ((byTool.filter fun entry =>
    config.reservedTools.contains entry.1).map Prod.snd).sum
  let activeReserved := min active counted
  { active, activeReserved, activeOrdinary := active - activeReserved }

inductive ToolCallAdmission where
  | admitted
  | totalCapacity
  | ordinaryCapacity
deriving DecidableEq

def toolCallAdmission (active : Nat) (byTool : List (String × Nat))
    (config : ToolCallCapacityConfig) (toolName : String) :
    ToolCallAdmission :=
  let usage := toolCallCapacityUsage active byTool config
  if config.maximum ≤ usage.active then .totalCapacity
  else if config.reserved = 0 || config.reservedTools.contains toolName then
    .admitted
  else if config.ordinaryMaximum ≤ usage.activeOrdinary then
    .ordinaryCapacity
  else .admitted

section

variable (config : ToolCallCapacityConfig)

theorem reserved_toolCounts (tools : List String) : (((toolCounts tools).filter
    fun entry => config.reservedTools.contains entry.1).map Prod.snd).sum =
    tools.countP fun tool => config.reservedTools.contains tool := by
  rw [← List.sum_map_count_dedup_filter_eq_countP]
  simp [toolCounts, List.filter_map, Function.comp_def]

theorem toolCallCapacityUsage_ordinary (tools : List String) :
    (toolCallCapacityUsage tools.length (toolCounts tools)
    config).activeOrdinary = tools.countP fun tool =>
    !config.reservedTools.contains tool := by
  have split := List.length_eq_countP_add_countP
    (fun tool => config.reservedTools.contains tool) (l := tools)
  simp only [toolCallCapacityUsage, reserved_toolCounts]
  have complement : tools.countP
      (fun tool => decide ¬ config.reservedTools.contains tool = true) =
      tools.countP fun tool => !config.reservedTools.contains tool := by
    congr
    funext tool
    cases config.reservedTools.contains tool <;> rfl
  omega

end

theorem admitted_limits {config : ToolCallCapacityConfig} {tools : List String}
    {toolName : String} (admitted : toolCallAdmission tools.length (toolCounts
    tools) config toolName = .admitted) : tools.length < config.maximum ∧
    (config.reserved = 0 ∨ config.reservedTools.contains toolName = true ∨
    (tools.countP fun tool => !config.reservedTools.contains tool) <
    config.ordinaryMaximum) := by
  simp only [toolCallAdmission, toolCallCapacityUsage_ordinary] at admitted
  split at admitted
  · cases admitted
  case isFalse room =>
    constructor
    · simpa [toolCallCapacityUsage] using room
    · split at admitted
      case isTrue special =>
        rcases (Bool.or_eq_true _ _).mp special with none | reserved
        · exact .inl (of_decide_eq_true none)
        · exact .inr (.inl reserved)
      case isFalse =>
        split at admitted
        · cases admitted
        case isFalse ordinary => exact .inr (.inr (Nat.lt_of_not_le ordinary))

theorem admitted_of_limits {config : ToolCallCapacityConfig}
    {tools : List String} {toolName : String}
    (total : tools.length < config.maximum)
    (ordinary : config.reservedTools.contains toolName = false →
      (tools.countP fun tool => !config.reservedTools.contains tool) <
      config.ordinaryMaximum) :
    toolCallAdmission tools.length (toolCounts tools) config toolName =
    .admitted := by
  have room : ¬config.maximum ≤ (toolCallCapacityUsage tools.length
      (toolCounts tools) config).active := Nat.not_le.mpr total
  simp only [toolCallAdmission, toolCallCapacityUsage_ordinary]
  rw [if_neg room]
  split
  case isTrue => rfl
  case isFalse unreserved =>
    apply if_neg
    apply Nat.not_le.mpr
    apply ordinary
    simpa using fun member => unreserved (by simp [member])

end MachineBridge.Shared
