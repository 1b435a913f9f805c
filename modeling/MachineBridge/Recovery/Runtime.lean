import MachineBridge.Foundation.Run
import MachineBridge.Recovery.CallRecovery
import MachineBridge.Shared.ToolCallCapacity

/-!
# Relay calls in the local runtime

One daemon instance: tool calls arrive and complete, the Worker acknowledges
and cancels them, and every reconnect brings a resume offer.  The missing calls
of an offer are computed when it arrives and reported with the readiness
acknowledgement that follows it.  `history` records which calls were started,
which of them the Worker let go of, which results were dropped without
evidence, and what was reported.
-/

namespace MachineBridge.Recovery

open Foundation Shared

variable {Content : Type}

/-- Why the result of a running call will be discarded. -/
inductive SuppressionReason where
  | callerCancelled
  | callerNoLongerWaiting
  | relayReconnectTimeout
deriving DecidableEq

inductive RelayTransport where
  | websocket
  | https
deriving DecidableEq

structure MissingReport where
  callId : String
  started : Bool
deriving DecidableEq

structure RuntimeHistory where
  started : List String := []
  /-- Acknowledged or cancelled by the Worker, or left out of an offer. -/
  released : List String := []
  /-- Completed, with the result dropped and no tombstone left. -/
  forgotten : List String := []
  reports : List MissingReport := []

structure LocalRuntime (Content : Type) where
  activeRelayCalls : Record String String := .empty
  suppressedRelayResults : Record String SuppressionReason := .empty
  recovery : RelayCallRecovery Content := {}
  /-- The missing calls of the last offer, by transport and session. -/
  relayResumeStates : Record (RelayTransport × Nat) (List String) := .empty
  history : RuntimeHistory := {}

inductive RuntimeEvent (Content : Type) where
  /-- `valid` says whether the envelope was accepted; `rejection` is the error
  result of one that was not. -/
  | toolCall (id tool : String) (valid : Bool) (rejection : Content)
      (context : RecoveryContext)
  | complete (id : String) (content : Content) (context : RecoveryContext)
  | toolResultAck (id : String)
  | cancelCall (id : String)
  | helloAck
  | resumeCalls (transport : RelayTransport) (session : Nat)
      (ids : List String) (now : Rat)
  /-- `acknowledged` says that readiness was confirmed and the answer to the
  offer was sent. -/
  | readyAck (transport : RelayTransport) (session : Nat)
      (acknowledged : Bool)
  | disconnected (transport : Option RelayTransport)
  | ready (context : RecoveryContext)
  | pulse (context : RecoveryContext)
  | graceExpired
  | stop

def relayRecoveryCapacity : ToolCallCapacityConfig :=
  toolCallCapacityConfig maxConcurrentToolCalls reservedControlToolCalls

namespace LocalRuntime

section

variable (runtime : LocalRuntime Content)

/-- Retained results count as calls of a tool of their own. -/
def recoveryAdmission (tool : String) : ToolCallAdmission :=
  let tools := List.replicate runtime.recovery.retention.entries.size
    "__relay_retained_result__" ++ runtime.activeRelayCalls.values
  toolCallAdmission tools.length (toolCounts tools) relayRecoveryCapacity tool

def release (ids : List String) : LocalRuntime Content :=
  { runtime with history := { runtime.history with
      released := runtime.history.released ++ ids } }

def handleRelayToolCall (id tool : String) (valid : Bool) (rejection : Content)
    (context : RecoveryContext) : LocalRuntime Content :=
  if !valid then
    if id == "" then runtime
    else { runtime with
      recovery := runtime.recovery.deliver ⟨id, rejection⟩ context }
  else if runtime.activeRelayCalls.contains id then runtime
  else if runtime.recoveryAdmission tool != .admitted then runtime
  else { runtime with
    activeRelayCalls := runtime.activeRelayCalls.set id tool
    history := { runtime.history with
      started := runtime.history.started ++ [id] } }

def settleResult (id : String) (content : Content)
    (context : RecoveryContext) : LocalRuntime Content :=
  match runtime.suppressedRelayResults.get? id with
  | some .relayReconnectTimeout =>
    { runtime with history := { runtime.history with
        forgotten := runtime.history.forgotten ++ [id] } }
  | some _ => runtime
  | none =>
    { runtime with
      recovery := runtime.recovery.deliver ⟨id, content⟩ context
      history := { runtime.history with
        forgotten := if context.recoverable then runtime.history.forgotten
          else runtime.history.forgotten ++ [id] } }

def completeRelayCall (id : String) (content : Content)
    (context : RecoveryContext) : LocalRuntime Content :=
  if !runtime.activeRelayCalls.contains id then runtime
  else
    let settled := runtime.settleResult id content context
    { settled with
      activeRelayCalls := settled.activeRelayCalls.delete id
      suppressedRelayResults := settled.suppressedRelayResults.delete id }

def suppress (reason : SuppressionReason) (id : String) :
    LocalRuntime Content :=
  { runtime with
    suppressedRelayResults := runtime.suppressedRelayResults.set id reason }

def cancelRelayCall (reason : SuppressionReason) (id : String) :
    LocalRuntime Content :=
  let discarded := { runtime with
    recovery := runtime.recovery.acknowledge id }
  if runtime.activeRelayCalls.contains id then discarded.suppress reason id
  else discarded

/-- `clearRelayResumeState`; without a transport every state is cleared. -/
def clearRelayResumeState (transport : Option RelayTransport) :
    LocalRuntime Content :=
  { runtime with
    relayResumeStates := runtime.relayResumeStates.filter fun key _ =>
      transport != none && transport != some key.1 }

/-- `reconcileRelayCalls`, which keeps the missing calls for the report. -/
def handleResumeCalls (transport : RelayTransport) (session : Nat)
    (ids : List String) (now : Rat) : LocalRuntime Content :=
  if runtime.relayResumeStates.contains (transport, session) then runtime
  else
    let cleared := (runtime.clearRelayResumeState (some transport)).release
      (runtime.history.started.filter fun id => !ids.contains id)
    let active := cleared.activeRelayCalls.keys
    let observed := { cleared with
      recovery := cleared.recovery.observe ids now }
    let missing := observed.recovery.missing active ids
    let cancelled := (active.filter fun id => !ids.contains id).foldl
      (fun state id => state.cancelRelayCall .callerNoLongerWaiting id)
      observed
    { cancelled with
      recovery := cancelled.recovery.discardUnoffered ids
      relayResumeStates := cancelled.relayResumeStates.set
        (transport, session) missing }

/-- The missing calls go out with the resume acknowledgement. -/
def reportMissing (missing : List String) : LocalRuntime Content :=
  { runtime with history := { runtime.history with
      reports := runtime.history.reports ++ missing.map fun callId =>
        ⟨callId, runtime.history.started.contains callId⟩ } }

def handleReadyAck (transport : RelayTransport) (session : Nat)
    (acknowledged : Bool) : LocalRuntime Content :=
  match runtime.relayResumeStates.get? (transport, session) with
  | none => runtime
  | some missing =>
    if !acknowledged then runtime
    else
      let reported := runtime.reportMissing missing
      { reported with
        relayResumeStates :=
          reported.relayResumeStates.delete (transport, session) }

def expireGrace : LocalRuntime Content :=
  if !runtime.recovery.reconnectTimer then runtime
  else
    let suppressed := runtime.activeRelayCalls.keys.foldl
      (suppress · .relayReconnectTimeout) runtime
    { suppressed with
      recovery := suppressed.recovery.clearTimer.discardAll }

def step : RuntimeEvent Content → LocalRuntime Content
  | .toolCall id tool valid rejection context =>
    runtime.handleRelayToolCall id tool valid rejection context
  | .complete id content context =>
    runtime.completeRelayCall id content context
  | .toolResultAck id =>
    { runtime.release [id] with
      recovery := runtime.recovery.acknowledge id }
  | .cancelCall id =>
    (runtime.release [id]).cancelRelayCall .callerCancelled id
  | .helloAck => runtime.clearRelayResumeState (some .websocket)
  | .resumeCalls transport session ids now =>
    runtime.handleResumeCalls transport session ids now
  | .readyAck transport session acknowledged =>
    runtime.handleReadyAck transport session acknowledged
  | .disconnected transport =>
    let cleared := runtime.clearRelayResumeState transport
    { cleared with
      recovery := cleared.recovery.disconnected
        cleared.activeRelayCalls.keys }
  | .ready context =>
    { runtime with recovery := runtime.recovery.ready context }
  | .pulse context =>
    { runtime with
      recovery := runtime.recovery.retryUnacknowledged context }
  | .graceExpired => runtime.expireGrace
  | .stop => { runtime with recovery := runtime.recovery.stop }

end

end LocalRuntime

end MachineBridge.Recovery
