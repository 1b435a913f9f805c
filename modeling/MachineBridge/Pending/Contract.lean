import MachineBridge.Foundation.Clock
import MachineBridge.Foundation.Number
import MachineBridge.Foundation.Record
import MachineBridge.Shared.ToolCallCapacity

/-!
# Pending daemon calls

The records of the Worker's pending-call registry.  A promise is the number of
its registration.  Callbacks are represented by what they close over; what a
callback that creates an error returns comes with the event that runs it.
-/

namespace MachineBridge.Pending

open Foundation

abbrev DaemonChannel := Nat

abbrev TimerHandle := Nat

def reconnectGraceMs : Nat := 120000

def reconnectResultDeliveryGraceMs : Nat := 15000

def maximumOrdinaryRelayToolTimeoutMs : Nat := 50000

def maximumRelayToolTimeoutMs : Nat := 315000

def maxPendingReadJobCallsPerAccount : Nat := 8

structure AuthorityRevocation where
  accountId : String
  accountVersion : Nat
  (clientId familyId : Option String := none)

/-- The arguments of a tool: `wait_ms` when it is a safe integer, and the
rest. -/
structure ToolArguments where
  waitMs : Option Int := none
  rest : String := ""

/-- A tool call as it is sent to a daemon.  The redelivery callback of a
pending call closes over the call as it was requested. -/
structure DaemonToolCall where
  tool : String
  arguments : ToolArguments
  timeoutMs : Int
  authority : AuthorityRevocation
  role : String

inductive PendingCallOutcome where
  | value (value : String)
  | error (message : String)
deriving DecidableEq

structure PendingCallRecord where
  id : String
  socket : Option DaemonChannel
  daemonInstanceId : Option String
  reconnectTimeout : Option TimerHandle := none
  reconnectDeadlineAt : Option Rat := none
  clientRequestKey : Option String
  owner : Option AuthorityRevocation
  tool : String
  (startedAt originalDeadlineAt : Rat)
  timeout : Option TimerHandle := none
  deadlineAt : Rat
  remainingTimeoutMs : Int
  redeliverAfterProvenMissing : Option DaemonToolCall
  provenMissingRedeliveryChannel : Option DaemonChannel := none
  settlement : Nat
  signal : Bool

structure RegisterPendingCall where
  id : String
  socket : DaemonChannel
  (daemonInstanceId clientRequestKey : Option String := none)
  authority : Option AuthorityRevocation := none
  tool : String
  timeoutMs : Rat
  redeliverAfterProvenMissing : Option DaemonToolCall := none
  (signal aborted : Bool := false)

def present (value : Option String) : Option String :=
  value.filter (· != "")

namespace PendingCallRecord

section

variable (record : PendingCallRecord)

def requestKey : Option String :=
  present record.clientRequestKey

def isReadJobOf (accountId : String) : Bool :=
  record.tool == "read_job" &&
    record.owner.any (·.accountId == accountId)

end

end PendingCallRecord

def recordMatchesAuthorityRevocation (record : PendingCallRecord)
    (revocation : AuthorityRevocation) : Bool :=
  match record.owner with
  | none => false
  | some owner =>
    owner.accountId == revocation.accountId &&
      owner.accountVersion == revocation.accountVersion &&
      ((present revocation.clientId).isNone ||
        owner.clientId == revocation.clientId) &&
      ((present revocation.familyId).isNone ||
        owner.familyId == revocation.familyId)

end MachineBridge.Pending
