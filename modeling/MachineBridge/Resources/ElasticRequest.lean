import MachineBridge.Resources.Admission
import MachineBridge.Resources.LeaseIncrement
import Mathlib.Data.Rat.Floor

/-!
# Elastic requests

The compiler jobs of an elastic request are a ceiling.  Before each admission
they are lowered to what the host and the leases leave, together with the
processors, and with the memory where the request tells how little it needs.
-/

namespace MachineBridge.Resources

section

variable (request : ResourceRequest)

def isElasticCompilerRequest : Bool :=
  request.elastic.isSome

def markElasticCompilerJobs (enabled : Bool) (memoryFloorMb : Option ℚ) :
    ResourceRequest :=
  if enabled && request.compilerJobs.any (1 < ·) then
    { request with elastic := some (memoryFloorMb.map (max 0)) }
  else request

end

structure ProfileExtra where
  compilerJobs : Option Nat := none
  elasticCompilerJobs : Bool := false
  elasticMemoryFloorMb : Option ℚ := none
  (unbounded serializeProject : Bool := false)

/-- The request for a command which is not light. -/
def profile (family : String) (resourceClass : ResourceClass)
    (cpu io memoryMb diskBytes : ℚ) (priority : ResourcePriority)
    (extra : ProfileExtra) : ResourceRequest :=
  markElasticCompilerJobs
    { family := family
      resourceClass := resourceClass
      priority := priority
      cpu := max 0 cpu
      io := max 0 io
      memoryMb := max 0 memoryMb
      diskReserveBytes := max 0 diskBytes
      heavy := true
      compilerJobs := extra.compilerJobs
      unbounded := extra.unbounded
      serializeProject := extra.serializeProject
      contentionKey := none }
    extra.elasticCompilerJobs extra.elasticMemoryFloorMb

section

variable (request : ResourceRequest)

def memoryFloor : Option ℚ := request.elastic.join

def elasticMemoryMb (compilerJobs : Nat) (jobs : Nat) (floor : Option ℚ) : ℚ :=
  match floor with
  | none => request.memoryMb
  | some floor =>
    min request.memoryMb
      (max floor ⌈request.memoryMb * jobs / compilerJobs⌉)

def coveredAmount (pressure : PressureSnapshot) (key : ResourceKey) : ℚ :=
  match pressure.requested with
  | none => 0
  | some requested => max 0 (request.amount key - requested key)

def availableMemoryMb (pressure : PressureSnapshot) : ℚ :=
  max 0 (pressure.limits.memoryMb * pressure.limits.memoryOvercommit + 1 -
    max 0 (pressure.used .memoryMb) +
    coveredAmount request pressure .memoryMb)

def mostJobs (fits : Nat → Bool) : Nat → Nat
  | 0 => 1
  | jobs + 1 => if fits (jobs + 1) then jobs + 1 else mostJobs fits jobs

def memoryFits (pressure : PressureSnapshot) (compilerJobs : Nat) (floor : ℚ)
    (jobs : Nat) : Bool :=
  decide (elasticMemoryMb request compilerJobs jobs (some floor) ≤
    availableMemoryMb request pressure)

def elasticMemoryJobLimit (pressure : PressureSnapshot)
    (compilerJobs maximumJobs : Nat) (floor : Option ℚ) : Nat :=
  match floor with
  | none => maximumJobs
  | some floor =>
    mostJobs (memoryFits request pressure compilerJobs floor) maximumJobs

def hostAvailable (pressure : PressureSnapshot) : ℤ :=
  ⌊pressure.limits.cpu + 1 / 4 - pressure.cpuBusyCores.getD 0 -
    max 0 pressure.unobservedReservedCpu +
    coveredAmount request pressure .cpu⌋

def reservedAvailable (pressure : PressureSnapshot) : ℤ :=
  ⌊pressure.limits.cpu * pressure.limits.cpuOvercommit + 1 / 100 -
    max 0 (pressure.used .cpu) + coveredAmount request pressure .cpu⌋

def processorJobs (pressure : PressureSnapshot) (compilerJobs : Nat) : Nat :=
  (max 1 (min (compilerJobs : ℤ)
    (min (hostAvailable request pressure)
      (reservedAvailable request pressure)))).toNat

def fittedJobs (pressure : PressureSnapshot) (compilerJobs : Nat) : Nat :=
  let jobs := processorJobs request pressure compilerJobs
  min jobs (elasticMemoryJobLimit request pressure compilerJobs jobs
    (memoryFloor request))

/-- `none` stands for a pressure which is not known. -/
def fitElasticRequestToPressure (pressure : Option PressureSnapshot) :
    ResourceRequest :=
  match request.compilerJobs, pressure with
  | some compilerJobs, some pressure =>
    if !isElasticCompilerRequest request || pressure.state = .red then
      request
    else
      let jobs := fittedJobs request pressure compilerJobs
      if compilerJobs ≤ jobs then request
      else
        { request with
          cpu := min (max 0 request.cpu) jobs
          memoryMb := elasticMemoryMb request compilerJobs jobs
            (memoryFloor request)
          compilerJobs := some jobs }
  | _, _ => request

end

end MachineBridge.Resources
