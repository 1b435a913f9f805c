import MachineBridge.Resources.HostPressure

/-!
# Admission of requests

A request is admitted if what it adds to the leases stays within the limits for
the state of the host.
-/

namespace MachineBridge.Resources

structure ResourceLimits where
  (cpu io memoryMb cpuOvercommit ioOvercommit memoryOvercommit : ℚ)

def headroom : ResourcePriority → ℚ
  | .background => 2
  | .interactive => 1
  | .ordinary => 3 / 2

def resourceLimits (cores totalMemoryMb : ℚ) (priority : ResourcePriority)
    (state : PressureStatus) (reasons : List String) : ResourceLimits :=
  let constrained := decide (state ≠ .green)
  let cpuPressure := constrained && reasons.any fun reason =>
    reason == "cpu_busy" || reason == "psi_cpu_some"
  let ioPressure := constrained && reasons.any fun reason =>
    reason.startsWith "disk_" || reason.startsWith "psi_io_"
  let memoryPressure := constrained && reasons.any fun reason =>
    reason.startsWith "memory_pressure" || reason.startsWith "pageout_rate" ||
      reason.startsWith "swapout_rate" || reason.startsWith "psi_memory_"
  { cpu := max 1 (cores - headroom priority - if cpuPressure then 1 else 0)
    io := if ioPressure then 1 else 5 / 4
    memoryMb := max 1024
      (totalMemoryMb * if memoryPressure then 11 / 20 else 7 / 10)
    cpuOvercommit := if cpuPressure then 23 / 20 else 27 / 20
    ioOvercommit := if ioPressure then 21 / 20 else 5 / 4
    memoryOvercommit := if memoryPressure then 11 / 10 else 5 / 4 }

def leaseObservedBySample (lease : Lease ValidRequest) (sampledAt : ℚ) :
    Bool :=
  match lease.boundAt with
  | some boundAt => decide (boundAt ≤ sampledAt)
  | none =>
    decide (lease.owner.kind = .process) &&
      decide (lease.acquiredAt ≤ sampledAt)

/-- What leases take of the processors which the sample did not show. -/
def unobservedResourceCpu (leases : List (Lease ValidRequest))
    (accounting : LeaseAccounting) (sampledAtMs : Option ℚ) : ℚ :=
  match sampledAtMs with
  | none => 0
  | some sampledAt =>
    if sampledAt ≤ 0 then 0
    else
      let all := aggregateResourceLeases leases accounting
      let observed := aggregateResourceLeases
        (leases.filter fun lease => leaseObservedBySample lease sampledAt)
        accounting
      max 0 (all.amounts .cpu - observed.amounts .cpu)

def isDiskReclaimRequest (request : ResourceRequest) : Bool :=
  request.family == "disk-reclaim" && request.resourceClass == .io &&
    !request.unbounded && !request.serializeProject &&
    decide (request.cpu ≤ 1 / 4) && decide (request.io ≤ 3 / 4) &&
    decide (request.memoryMb ≤ 256) && decide (request.diskReserveBytes = 0)

def diskReservationFits (host : HostSnapshot) (usedBytes requestedBytes : ℚ) :
    Bool :=
  match host.diskFreeBytes, host.diskTotalBytes with
  | some free, some total =>
    decide (free ≤ 0) || decide (total ≤ 0) ||
      decide (resourceDiskHardFloorBytes total ≤
        free - usedBytes - requestedBytes)
  | _, _ => true

section Evaluation

variable (host : HostSnapshot) (leases : List (Lease ValidRequest))
  (request : ResourceRequest) (accounting : LeaseAccounting)

def pressureOf : PressureState :=
  resourcePressureState host (aggregateResourceLeases leases accounting)

def diskOnlyCritical : Bool :=
  isDiskReclaimRequest request &&
    decide ((pressureOf host leases accounting).state = .red) &&
    decide ((pressureOf host leases accounting).criticalReasons =
      ["disk_free_headroom_critical"])

def admissionLimits : ResourceLimits :=
  let pressure := pressureOf host leases accounting
  resourceLimits host.cores host.memoryMb request.priority
    (if diskOnlyCritical host leases request accounting then .yellow
      else pressure.state)
    pressure.reasons

def declaredAmounts : Amounts
  | .cpu =>
    if request.unbounded then
      (admissionLimits host leases request accounting).cpu
    else max 0 request.cpu
  | .io => max 0 request.io
  | .memoryMb => max 0 request.memoryMb
  | .diskReserveBytes => max 0 request.diskReserveBytes

def chargedRequest : ResourceRequest :=
  { request.withAmounts (declaredAmounts host leases request accounting) with
    unbounded := false }

theorem chargedRequest_heavy :
    (chargedRequest host leases request accounting).heavy = request.heavy :=
  rfl

theorem chargedRequest_amount (key : ResourceKey) :
    (chargedRequest host leases request accounting).amount key =
    declaredAmounts host leases request accounting key := by
  cases key <;> rfl

def requestedAmounts : Amounts :=
  resourceRequestIncrement leases
    (chargedRequest host leases request accounting) accounting

/-- Leases of the same project, other than those above the request. -/
def contends : Bool :=
  request.contentionKey.any fun key => leases.any fun lease =>
    lease.request.val.contentionKey == some key &&
      !accounting.ancestorLeaseIds.contains lease.leaseId

/-- Why the request is not admitted. -/
def refusal : Option String :=
  let used := (aggregateResourceLeases leases accounting).amounts
  let limits := admissionLimits host leases request accounting
  let requested := requestedAmounts host leases request accounting
  let critical := diskOnlyCritical host leases request accounting
  let bestCaseCpuLimit := (resourceLimits host.cores host.memoryMb
    request.priority .green []).cpu
  if !request.unbounded ∧ bestCaseCpuLimit + 1 / 4 < requested .cpu then
    some "cpu_request_exceeds_launch_window"
  else if contends leases request accounting then
    some "project_resource_busy"
  else if (pressureOf host leases accounting).state = .red ∧ !critical then
    some "host_pressure_red"
  else if !isDiskReclaimRequest request ∧
      !diskReservationFits host (used .diskReserveBytes)
        (requested .diskReserveBytes) then
    some "disk_reserve_floor"
  else if limits.cpu * limits.cpuOvercommit + 1 / 100 <
      used .cpu + requested .cpu then
    some "cpu_reservation"
  else if limits.io * limits.ioOvercommit + 1 / 100 <
      used .io + requested .io then
    some "io_reservation"
  else if limits.memoryMb * limits.memoryOvercommit + 1 <
      used .memoryMb + requested .memoryMb then
    some "memory_reservation"
  else if limits.cpu + 1 / 4 <
      host.cpuBusyCores.getD 0 +
        unobservedResourceCpu leases accounting host.sampledAtMs +
        requested .cpu then
    some "cpu_pressure_window"
  else none

def admittedReason : String :=
  if diskOnlyCritical host leases request accounting then
    "admitted_disk_reclaim"
  else if (pressureOf host leases accounting).state = .yellow then
    "admitted_yellow"
  else "admitted_green"

def evaluateResourceAdmission : AdmissionDecision Amounts :=
  if !request.heavy then
    { admitted := true
      reason := "light_bypass" }
  else
    let declared := declaredAmounts host leases request accounting
    match refusal host leases request accounting with
    | some reason =>
      { admitted := false
        reason := reason
        reservation := some declared }
    | none =>
      { admitted := true
        reason := admittedReason host leases request accounting
        reservation := some declared }

structure PressureSnapshot where
  state : PressureStatus
  used : Amounts
  cpuBusyCores : Option ℚ
  unobservedReservedCpu : ℚ
  limits : ResourceLimits
  requested : Option Amounts

def resourcePressureSnapshot : PressureSnapshot :=
  let pressure := pressureOf host leases accounting
  { state := pressure.state
    used := (aggregateResourceLeases leases accounting).amounts
    cpuBusyCores := host.cpuBusyCores
    unobservedReservedCpu :=
      unobservedResourceCpu leases accounting host.sampledAtMs
    limits := resourceLimits host.cores host.memoryMb request.priority
      pressure.state pressure.reasons
    requested :=
      if request.heavy then
        some (resourceRequestIncrement leases request accounting)
      else none }

end Evaluation

end MachineBridge.Resources
