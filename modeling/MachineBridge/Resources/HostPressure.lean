import MachineBridge.Resources.LeaseAccounting
import Mathlib.Algebra.Order.Field.Rat

/-!
# Pressure on the host

A sample of the host tells, for some of its resources, how much of them is in
use.  Every signal which exceeds its threshold is a reason for a state that is
less than green.
-/

namespace MachineBridge.Resources

/-- A sample of the host.  A number which was not sampled is missing. -/
structure HostSnapshot where
  darwin : Bool := false
  (sampledAtMs cpuCores totalMemoryMb : Option ℚ := none)
  thermalWarning : Bool := false
  (memoryFreePercent cpuBusyCores load1 : Option ℚ := none)
  ioSampled : Bool := false
  (ioSampledAtMs diskMbPerS diskIops pageoutsPerS : Option ℚ := none)
  (swapoutsPerS diskFreeBytes diskTotalBytes : Option ℚ := none)
  (psiCpuSomeAvg10 psiMemorySomeAvg10 psiMemoryFullAvg10 : Option ℚ := none)
  (psiIoSomeAvg10 psiIoFullAvg10 : Option ℚ := none)

inductive PressureStatus where
  | green
  | yellow
  | red
deriving DecidableEq

structure PressureMark where
  critical : Bool
  reason : String

structure PressureState where
  state : PressureStatus
  (reasons criticalReasons : List String)

namespace HostSnapshot

variable (host : HostSnapshot)

/-- Missing or zero numbers count as one. -/
def cores : ℚ :=
  match host.cpuCores with
  | none => 1
  | some count => max 1 (if count = 0 then 1 else count)

def memoryMb : ℚ :=
  match host.totalMemoryMb with
  | none => 1024
  | some total => max 1024 (if total = 0 then 1024 else total)

end HostSnapshot

structure PressureThresholds where
  (critical warning : ℚ)
  lowerIsWorse : Bool := false

def thresholdPressure (value : Option ℚ) (thresholds : PressureThresholds)
    (label : String) : List PressureMark :=
  match value with
  | none => []
  | some value =>
    let exceeds (threshold : ℚ) : Bool :=
      if thresholds.lowerIsWorse then value < threshold
      else threshold ≤ value
    if exceeds thresholds.critical then
      [{ critical := true
         reason := label ++ "_critical" }]
    else if exceeds thresholds.warning then
      [{ critical := false
         reason := label }]
    else []

def warnWhen (exceeded : Bool) (reason : String) : List PressureMark :=
  if exceeded then
    [{ critical := false
       reason := reason }]
  else []

def gib : ℚ := 1024 ^ 3

def resourceDiskHardFloorBytes (total : ℚ) : ℚ :=
  if total ≤ 0 then 0 else min (50 * gib) (max (5 * gib) (total * (1 / 10)))

def resourceDiskSoftFloorBytes (total : ℚ) : ℚ :=
  if total ≤ 0 then 0 else min (80 * gib) (max (8 * gib) (total * (3 / 20)))

section Marks

variable (host : HostSnapshot)

def ioPressureFreshMs : ℚ := 5000

/-- A sample of the disk counts only while it is fresh. -/
def ioFresh : Bool :=
  match host.sampledAtMs, host.ioSampledAtMs with
  | some sampledAt, some ioSampledAt =>
    host.ioSampled && decide (ioSampledAt ≤ sampledAt) &&
      decide (sampledAt - ioSampledAt ≤ ioPressureFreshMs)
  | _, _ => false

def freshDiskMbPerS : Option ℚ := if ioFresh host then host.diskMbPerS else none

def freshDiskIops : Option ℚ := if ioFresh host then host.diskIops else none

def markDiskHeadroom : List PressureMark :=
  match host.diskFreeBytes, host.diskTotalBytes with
  | some free, some total =>
    if total ≤ 0 then []
    else if free < resourceDiskHardFloorBytes total then
      [{ critical := true
         reason := "disk_free_headroom_critical" }]
    else warnWhen (free < resourceDiskSoftFloorBytes total)
      "disk_free_headroom"
  | _, _ => []

def stalls (value : Option ℚ) : Bool := decide (10 ≤ value.getD 0)

def markPsiPressure : List PressureMark :=
  thresholdPressure host.psiMemoryFullAvg10
      { critical := 60, warning := 10 } "psi_memory_full" ++
    thresholdPressure host.psiIoFullAvg10
      { critical := 60, warning := 10 } "psi_io_full" ++
    warnWhen (stalls host.psiCpuSomeAvg10) "psi_cpu_some" ++
    warnWhen (stalls host.psiMemorySomeAvg10) "psi_memory_some" ++
    warnWhen (stalls host.psiIoSomeAvg10) "psi_io_some"

def cpuBusy (share : ℚ) : Bool :=
  decide (host.cores * share ≤ host.cpuBusyCores.getD 0)

def diskBusy (mbPerS iops : ℚ) : Bool :=
  decide (mbPerS ≤ (freshDiskMbPerS host).getD 0) ||
    decide (iops ≤ (freshDiskIops host).getD 0)

def psiBacklog : Bool :=
  stalls host.psiCpuSomeAvg10 || stalls host.psiMemorySomeAvg10 ||
    stalls host.psiIoSomeAvg10 || stalls host.psiIoFullAvg10

/-- On Darwin the load alone does not tell that work is waiting. -/
def markCpuLoadPressure : List PressureMark :=
  let busy := warnWhen (host.cpuBusyCores.any fun cpu =>
    host.cores * (9 / 10) ≤ cpu) "cpu_busy"
  match host.load1 with
  | none => busy
  | some load =>
    let corroborated := cpuBusy host (7 / 10) || diskBusy host 50 1250 ||
      psiBacklog host
    busy ++
      warnWhen (decide (host.cores * (5 / 4) ≤ load) &&
        (!host.darwin || corroborated)) "load_backlog" ++
      if decide (host.cores * 2 ≤ load) &&
          (cpuBusy host (3 / 4) || diskBusy host 100 2500) then
        [{ critical := true
           reason := "load_backlog_critical" }]
      else []

def pressureMarks (used : Aggregate) : List PressureMark :=
  (if host.thermalWarning then
      [{ critical := true
         reason := "thermal_warning" }]
    else []) ++
    thresholdPressure host.memoryFreePercent
      { critical := 8, warning := 18, lowerIsWorse := true }
      "memory_pressure" ++
    warnWhen (decide (100 ≤ (freshDiskMbPerS host).getD 0))
      "disk_throughput" ++
    warnWhen (decide (2500 ≤ (freshDiskIops host).getD 0)) "disk_iops" ++
    thresholdPressure host.pageoutsPerS
      { critical := 1024, warning := 256 } "pageout_rate" ++
    thresholdPressure host.swapoutsPerS
      { critical := 512, warning := 128 } "swapout_rate" ++
    markDiskHeadroom host ++ markPsiPressure host ++
    markCpuLoadPressure host ++
    warnWhen (decide (host.cores * 2 < used.heavyLeases)) "heavy_root_count"

end Marks

def resourcePressureState (host : HostSnapshot) (used : Aggregate) :
    PressureState :=
  let marks := pressureMarks host used
  { state :=
      if marks.any PressureMark.critical then .red
      else if marks.isEmpty then .green
      else .yellow
    reasons := marks.map PressureMark.reason
    criticalReasons :=
      (marks.filter PressureMark.critical).map PressureMark.reason }

end MachineBridge.Resources
