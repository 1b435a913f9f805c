import MachineBridge.Resources.Lease
import Mathlib.Algebra.Order.Ring.Rat

/-!
# Resource requests

A request states what a command is going to take of the host.  The requests of
leases and of waiters have been validated when they are read.
-/

namespace MachineBridge.Resources

inductive ResourceKey where
  | cpu
  | io
  | memoryMb
  | diskReserveBytes
deriving DecidableEq

abbrev Amounts := ResourceKey → ℚ

inductive ResourceClass where
  | adaptive
  | cpu
  | io
  | mixed
  | unbounded
deriving DecidableEq

/-- `elastic` is the mark of a request whose compiler jobs may be lowered,
with the memory in megabytes below which it does not go. -/
structure ResourceRequest where
  family : String
  resourceClass : ResourceClass
  priority : ResourcePriority
  (cpu io memoryMb diskReserveBytes : ℚ)
  heavy : Bool
  compilerJobs : Option Nat
  (unbounded serializeProject : Bool)
  contentionKey : Option Nat
  elastic : Option (Option ℚ) := none

namespace ResourceRequest

section

variable (request : ResourceRequest)

def amount : Amounts
  | .cpu => request.cpu
  | .io => request.io
  | .memoryMb => request.memoryMb
  | .diskReserveBytes => request.diskReserveBytes

def withAmounts (amounts : Amounts) : ResourceRequest :=
  { request with
    cpu := amounts .cpu
    io := amounts .io
    memoryMb := amounts .memoryMb
    diskReserveBytes := amounts .diskReserveBytes }

end

end ResourceRequest

def familyMatches (family : String) : Bool :=
  match family.toList with
  | [] => false
  | first :: rest =>
    first.isLower && decide (rest.length ≤ 47) &&
      rest.all fun char => char.isLower || char.isDigit || char == '-'

def finiteRange (value minimum maximum : ℚ) : Bool :=
  decide (minimum ≤ value) && decide (value ≤ maximum)

def validCompilerJobs : Option Nat → Bool
  | none => true
  | some jobs => decide (1 ≤ jobs) && decide (jobs ≤ 1024)

def validateResourceRequest (request : ResourceRequest) : Bool :=
  familyMatches request.family && request.heavy &&
    finiteRange request.cpu 0 1024 && finiteRange request.io 0 1024 &&
    finiteRange request.memoryMb 0 (16 * 1024 * 1024) &&
    finiteRange request.diskReserveBytes 0 (1024 ^ 5) &&
    validCompilerJobs request.compilerJobs

/-- The request of a lease or of a waiter. -/
abbrev ValidRequest :=
  { request : ResourceRequest // validateResourceRequest request = true }

theorem ValidRequest.heavy (request : ValidRequest) :
    request.val.heavy = true := by
  have valid := request.property
  simp only [validateResourceRequest, Bool.and_eq_true] at valid
  exact valid.1.1.1.1.1.2

theorem ValidRequest.amount_nonneg (request : ValidRequest)
    (key : ResourceKey) : 0 ≤ request.val.amount key := by
  have valid := request.property
  simp only [validateResourceRequest, finiteRange, Bool.and_eq_true,
    decide_eq_true_eq] at valid
  cases key with
  | cpu => exact valid.1.1.1.1.2.1
  | io => exact valid.1.1.1.2.1
  | memoryMb => exact valid.1.1.2.1
  | diskReserveBytes => exact valid.1.2.1

end MachineBridge.Resources
