import MachineBridge.Foundation.Text
import MachineBridge.Relay.HttpSession

/-!
# The runtime's handling of the handshake

The daemon's runtime answers the two control messages of the handshake: the
resume message leaves the ids it does not know for the session, and the ready
acknowledgement confirms readiness and sends these ids back.  Nothing else in
the program confirms readiness.
-/

namespace MachineBridge.Relay

open Foundation

variable {Content : Type}

def maximumResumedCalls : Nat := 32

/-- `RELAY_CALL_ID` -/
def isRelayCallId (id : String) : Bool :=
  labelled (text "call_") (fits isBase64Url 8 240) (text id)

def normalizeRelayResumeCalls (ids : List String) : Bool :=
  decide (ids.length ≤ maximumResumedCalls) && ids.all isRelayCallId &&
    decide ids.Nodup

/-- The part of the runtime that takes part in the handshake of one session.
`resume` is the entry of `relayResumeStates` under the key of the session. -/
structure RelayControl where
  (expectedServer expectedVersion : String)
  resume : Option (List String) := none

/-- `readinessMismatch` finds nothing. -/
def RelayControl.readinessMatches (control : RelayControl)
    (server version : String) : Bool :=
  (control.expectedServer == "" || server == control.expectedServer) &&
    (control.expectedVersion == "" || version == control.expectedVersion) &&
    server != "" && version != ""

namespace DaemonHttpRelayConnection

variable (sizes : WireSizes Content)

section

variable (connection : DaemonHttpRelayConnection Content)

/-- The checks of `confirmReady` before it queues anything. -/
def mayConfirm (matching : Bool) : Bool :=
  !connection.ended && connection.authenticated && !connection.localReady &&
    matching

/-- `sendForSession` reports a control message as sent. -/
def sendsControl (value : DaemonMessage Content) : Bool :=
  !connection.ended && connection.authenticated &&
    (connection.outbound.enqueue sizes.daemonMessage value).isSome

end

end DaemonHttpRelayConnection

namespace RelayControl

variable (sizes : WireSizes Content) (acknowledgement : List String → Content)

section

variable (control : RelayControl)

/-- `handleResumeCalls`.  `missing` is what `reconcileRelayCalls` returns, and
`effects` what it does with the connection meanwhile. -/
def handleResumeCalls (connection : DaemonHttpRelayConnection Content)
    (ids missing : List String) (effects : List (LocalAction Content)) :
    RelayControl × List (LocalAction Content) :=
  if !normalizeRelayResumeCalls ids || !connection.authenticated ||
      connection.ready then (control, [.interrupt])
  else if control.resume.isSome then (control, [.interrupt])
  else ({ control with resume := some missing }, effects)

/-- The runtime's answer to a ready acknowledgement.  When the readiness
message does not fit, `confirmReady` throws and the handler ends. -/
def handleReadyAck (connection : DaemonHttpRelayConnection Content)
    (server version : String) : RelayControl × List (LocalAction Content) :=
  match control.resume with
  | none => (control, [.interrupt])
  | some missing =>
    let matching := control.readinessMatches server version
    let answer := .resumeCallsAck (acknowledgement missing)
    if !connection.mayConfirm matching then
      (control, [.confirmReady matching, .interrupt])
    else if (connection.outbound.enqueue sizes.daemonMessage
        .httpsReady).isNone then (control, [.confirmReady matching])
    else if !(connection.confirmReady sizes matching).sendsControl sizes
        answer then
      (control, [.confirmReady matching, .sendForSession answer, .interrupt])
    else
      ({ control with resume := none },
        [.confirmReady matching, .sendForSession answer])

end

end RelayControl

/-- A session whose handshake is answered by the runtime. -/
structure RelayRuntime (Content : Type) where
  control : RelayControl
  session : HttpRelaySession Content

inductive RelayRuntimeEvent (Content : Type) where
  /-- An event of the session in which the runtime confirms nothing. -/
  | relay (event : HttpRelayEvent Content)
  /-- A handler hands a control message of the handshake to the runtime. -/
  | handOver (handler : Nat) (missing : List String)
      (effects : List (LocalAction Content))
  /-- The runtime drops its resume states after a disconnect. -/
  | forget

def LocalAction.confirms : LocalAction Content → Bool
  | .confirmReady _ => true
  | _ => false

def HttpRelayEvent.confirms : HttpRelayEvent Content → Bool
  | .daemonActs action => action.confirms
  | .receive _ effects _ => effects.any LocalAction.confirms
  | .advance _ effects _ => effects.any LocalAction.confirms
  | _ => false

section

variable (connection : DaemonHttpRelayConnection Content)

/-- The message a handler hands over next. -/
def DaemonHttpRelayConnection.incoming? (handler : Nat) :
    Option (WorkerMessage Content) :=
  if connection.ended then none
  else match connection.handlers[handler]? with
  | some ⟨none, (seq, message) :: _⟩ =>
    if connection.inbound.classify seq = .new then some message else none
  | _ => none

def WorkerMessage.isHandshake : WorkerMessage Content → Bool
  | .resumeCalls _ => true
  | .readyAck _ _ => true
  | _ => false

/-- The runtime answers a message at once, while it is handed over. -/
def HttpRelayEvent.handsHandshake : HttpRelayEvent Content → Bool
  | .advance handler _ _ =>
    (connection.incoming? handler).any WorkerMessage.isHandshake
  | _ => false

end

namespace RelayRuntime

variable (sizes : WireSizes Content) (acknowledgement : List String → Content)

def start (instanceId : String) (takeover : Option String)
    (server version expectedServer expectedVersion : String) :
    RelayRuntime Content where
  control := { expectedServer, expectedVersion }
  session := HttpRelaySession.start instanceId takeover server version

/-- `handleRuntimeRelayControlMessage` for the handshake; `none` for any other
message. -/
def handleControlMessage (runtime : RelayRuntime Content)
    (missing : List String) (effects : List (LocalAction Content)) :
    WorkerMessage Content → Option (RelayControl × List (LocalAction Content))
  | .resumeCalls ids =>
    some (runtime.control.handleResumeCalls runtime.session.daemon ids
      missing effects)
  | .readyAck server version =>
    some (runtime.control.handleReadyAck sizes acknowledgement
      runtime.session.daemon server version)
  | _ => none

def step (runtime : RelayRuntime Content) :
    RelayRuntimeEvent Content → RelayRuntime Content
  | .relay event =>
    if event.confirms ||
        event.handsHandshake runtime.session.daemon then runtime
    else { runtime with session := runtime.session.step sizes event }
  | .handOver handler missing effects =>
    if effects.any LocalAction.confirms then runtime
    else
      match (runtime.session.daemon.incoming? handler).bind
          (runtime.handleControlMessage sizes acknowledgement missing
            effects) with
      | none => runtime
      | some (control, actions) =>
        { control
          session := runtime.session.step sizes
            (.advance handler actions false) }
  | .forget =>
    { runtime with control := { runtime.control with resume := none } }

theorem step_session (runtime : RelayRuntime Content)
    (event : RelayRuntimeEvent Content) :
    (runtime.step sizes acknowledgement event).session = runtime.session ∨
    ∃ inner, (runtime.step sizes acknowledgement event).session =
    runtime.session.step sizes inner := by
  cases event with
  | relay event =>
    simp only [step]
    split
    · exact .inl rfl
    · exact .inr ⟨event, rfl⟩
  | handOver handler missing effects =>
    simp only [step]
    split
    · exact .inl rfl
    · split
      case h_1 => exact .inl rfl
      case h_2 control actions _ =>
        exact .inr ⟨.advance handler actions false, rfl⟩
  | forget => exact .inl rfl

end RelayRuntime

end MachineBridge.Relay
