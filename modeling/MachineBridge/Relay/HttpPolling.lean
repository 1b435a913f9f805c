import MachineBridge.Foundation.Run
import MachineBridge.Foundation.Text
import MachineBridge.Relay.Sequence
import Mathlib.Data.Rat.Floor

/-!
# Polling over HTTPS

When `DaemonHttpRelayConnection` sends a request, what a request carries, and
when the connection arms its timer.  Times are exact rationals, and the clock
moves between calls of methods only.  A handler of a response that awaits a
control message is kept in `handlers`.  What the callbacks do to the
connection, and the random session ids, come from an environment.
-/

namespace MachineBridge.Relay

open Foundation

def isHttpSessionId : Text → Bool :=
  labelled (text "relay_http_") (fits isBase64Url 43 43)

def isActivationToken : Text → Bool :=
  labelled (text "activate_") (fits isBase64Url 43 43)

def isConnectionId : Text → Bool :=
  labelled (text "connection_") (fits isBase64Url 43 43)

def isDaemonInstanceId : Text → Bool :=
  labelled (text "daemon_") (fits isBase64Url 16 96)

def isCallId : Text → Bool := labelled (text "call_") (fits isBase64Url 8 240)

abbrev HttpSessionId := { id : Text // isHttpSessionId id = true }

abbrev ActivationToken := { token : Text // isActivationToken token = true }

abbrev ConnectionId := { id : Text // isConnectionId id = true }

abbrev DaemonInstanceId := { id : Text // isDaemonInstanceId id = true }

abbrev CallId := { id : Text // isCallId id = true }

/-- The calls the daemon owns, without repetition. -/
structure OwnedCallIds where
  ids : List CallId
  nodup : ids.Nodup

variable {α : Type}

/-- What a daemon tells of itself until the Worker knows its session. -/
structure Descriptor (α : Type) where
  (tools policy relayDiagnostics : α)

/-- The body of a request. -/
structure RelayEnvelope (α : Type) where
  sessionId : Option HttpSessionId
  instanceId : DaemonInstanceId
  activationToken : Option ActivationToken
  ackWorkerSeq : Nat
  ownedCallIds : List CallId
  takeoverWebSocketConnectionId : Option ConnectionId
  descriptor : Option (Descriptor α)
  messages : List (Nat × α)

/-- What is read off messages and requests: the UTF-8 sizes of their JSON
texts, the control messages that may be sent before readiness, and the message
`https_ready`. -/
structure WireFormat (α : Type) where
  messageBytes : α → Nat
  entryBytes : Nat → α → Nat
  envelopeBytes : RelayEnvelope α → Nat
  preReadyControl : α → Bool
  httpsReady : α

/-- What the callbacks of a poll answer. -/
structure PollData (α : Type) where
  ownedCallIds : OwnedCallIds
  descriptor : Descriptor α

/-- A request with the time at which it was started, the instants which the
failures since the last successful exchange imposed, and the queue. -/
structure RequestStart (α : Type) where
  instant : ℚ
  notBefore : List ℚ
  queued : List (Entry α)
  envelope : RelayEnvelope α

structure PollingOptions where
  (pollIntervalMs minimumRequestIntervalMs standbyRetryIntervalMs : Nat)
  (failureBackoffBaseMs failureBackoffMaximumMs livenessTimeoutMs : Nat)
  sessionIdBase : Nat

def httpFallbackMaximumRetryAfterMs : Nat := 3600000

/-- `none` is what is no finite number. -/
def boundedRelayRetryAfterMs : Option ℚ → ℚ
  | none => 0
  | some value =>
    if 0 < value then min ⌈value⌉ httpFallbackMaximumRetryAfterMs else 0

def relayFailureBackoffMs (failures base maximum : Nat) : Nat :=
  min (base * 2 ^ min (failures - 1) 16) (max base maximum)

/-- The part of the connection which decides when a request starts.  `none`
stands for no timer, no request and the time before every request.  Next to
the fields of the source it records the requests that have not settled, those
of them which were not aborted, what the failures since the last successful
exchange imposed, and the requests that were started, the latest first. -/
structure RequestPacing (α : Type) where
  now : ℚ := 0
  closed : Bool := true
  pollTimer : Option ℚ := none
  inFlight : Option Nat := none
  lastRequestStartedAt : Option ℚ := none
  retryNotBeforeAt : ℚ := 0
  requests : Nat := 0
  (unsettled unaborted : List Nat := [])
  imposed : List ℚ := []
  starts : List (RequestStart α) := []

namespace RequestPacing

variable (options : PollingOptions)

section

variable (pacing : RequestPacing α)

def clearPollTimer : RequestPacing α :=
  { pacing with pollTimer := none }

def abort (controller : Nat) : RequestPacing α :=
  { pacing with
    unaborted := pacing.unaborted.filter fun other => other ≠ controller }

/-- Abort the request in flight and forget it. -/
def giveUp : RequestPacing α :=
  match pacing.inFlight with
  | none => pacing
  | some controller => { pacing.abort controller with inFlight := none }

/-- A request is no longer in flight if it still was. -/
def release (controller : Nat) : RequestPacing α :=
  if pacing.inFlight = some controller then { pacing with inFlight := none }
  else pacing

def settle (controller : Nat) : RequestPacing α :=
  { pacing.abort controller with
    unsettled := pacing.unsettled.filter fun other => other ≠ controller }

def earliest : ℚ :=
  match pacing.lastRequestStartedAt with
  | none => pacing.retryNotBeforeAt
  | some started =>
    max (started + options.minimumRequestIntervalMs) pacing.retryNotBeforeAt

def earliestDelay : ℚ :=
  max 0 (pacing.earliest options - pacing.now)

def schedulePoll (delay : ℚ) : RequestPacing α :=
  if pacing.closed || pacing.inFlight.isSome then pacing
  else
    let earliestDelay := pacing.earliestDelay options
    let dueAt := pacing.now + max earliestDelay delay
    let kept := pacing.pollTimer.any fun pollTimerDueAt =>
      decide (pollTimerDueAt ≤ dueAt) &&
        decide (pacing.now + earliestDelay ≤ pollTimerDueAt)
    if kept then pacing else { pacing with pollTimer := some dueAt }

def startRequest (queued : List (Entry α)) (envelope : RelayEnvelope α) :
    RequestPacing α :=
  { pacing with
    lastRequestStartedAt := some pacing.now
    inFlight := some pacing.requests
    requests := pacing.requests + 1
    unsettled := pacing.unsettled ++ [pacing.requests]
    unaborted := pacing.unaborted ++ [pacing.requests]
    starts := ⟨pacing.now, pacing.imposed, queued, envelope⟩ ::
      pacing.starts }

def impose (instant : ℚ) : RequestPacing α :=
  { pacing with
    retryNotBeforeAt := max pacing.retryNotBeforeAt instant
    imposed := instant :: pacing.imposed }

/-- A successful exchange lifts what the failures imposed. -/
def lift : RequestPacing α :=
  { pacing with retryNotBeforeAt := 0, imposed := [] }

end

end RequestPacing

/-- A message of a valid response, as far as its handling reads it. -/
structure InboundMessage where
  seq : Nat
  toolCall : Bool
  positive : 0 < seq
  safe : seq ≤ maxSafeInteger

/-- A handler of a response which awaits a control message. -/
structure SuspendedHandler where
  (controller sessionId : Nat)
  message : InboundMessage
  remaining : List InboundMessage

structure PollingRelay (α : Type) extends RequestPacing α where
  (ready localReady authenticated standby : Bool := false)
  (activeSessionId sessionGeneration : Nat := 0)
  transportSessionId : Option HttpSessionId := none
  activationToken : Option ActivationToken := none
  takeoverWebSocketConnectionId : Option ConnectionId := none
  outbound : RelayOutboundSequence α := {}
  inbound : RelayInboundSequence := {}
  lastSuccessAt : ℚ := 0
  consecutiveFailures : Nat := 0
  handlers : List SuspendedHandler := []
  (callbacks sessions : Nat := 0)

/-- The calls of the methods of a connection; time may pass between them. -/
inductive RelayCall (α : Type) where
  | start (takeover : Option ConnectionId)
  | stop
  | send (value : α)
  | sendForSession (value : α) (expectedSessionId : Nat)
  | confirmReady (matching : Bool)
  | interrupt
  | pass (reading : ℚ)

/-- What the connection does not decide itself.  A callback calls methods of
the connection and may throw. -/
structure PollingEnvironment (α : Type) where
  options : PollingOptions
  wire : WireFormat α
  instanceId : DaemonInstanceId
  sessionId : Nat → HttpSessionId
  callback : Nat → List (RelayCall α) × Bool

namespace PollingRelay

variable (environment : PollingEnvironment α)

def schedulePoll (relay : PollingRelay α) (delay : ℚ) : PollingRelay α :=
  { relay with
    toRequestPacing := relay.toRequestPacing.schedulePoll
      environment.options delay }

section

variable (relay : PollingRelay α)

/-- `resetSession` without its notification. -/
def dropSession : PollingRelay α :=
  { relay with
    ready := false
    localReady := false
    authenticated := false
    activeSessionId := 0
    activationToken := none
    standby := false
    transportSessionId := some (environment.sessionId relay.sessions)
    sessions := relay.sessions + 1
    outbound := .reset
    inbound := .reset }

/-- A new takeover target gives up what is in flight. -/
def start (takeover : Option ConnectionId) : PollingRelay α :=
  let takeoverActivated := takeover.isSome &&
    decide (relay.takeoverWebSocketConnectionId ≠ takeover)
  let relay := { relay with
    takeoverWebSocketConnectionId :=
      takeover.or relay.takeoverWebSocketConnectionId }
  if !relay.closed then
    if takeoverActivated then
      schedulePoll environment { relay with
        standby := false
        toRequestPacing := relay.toRequestPacing.clearPollTimer.giveUp } 0
    else schedulePoll environment relay 0
  else
    schedulePoll environment
      (dropSession environment { relay with closed := false }) 0

def stop : PollingRelay α :=
  if relay.closed then relay
  else { relay with
    toRequestPacing :=
      ({ relay.toRequestPacing with closed := true }).clearPollTimer.giveUp
    ready := false
    localReady := false
    authenticated := false
    activeSessionId := 0
    outbound := .reset
    inbound := .reset
    standby := false
    takeoverWebSocketConnectionId := none }

end

/-- A message that does not fit is not queued. -/
def enqueue (relay : PollingRelay α) (value : α) : PollingRelay α :=
  match relay.outbound.enqueue environment.wire.messageBytes value with
  | none => relay
  | some outbound => schedulePoll environment { relay with outbound } 0

section

variable (relay : PollingRelay α)

def send (value : α) : PollingRelay α :=
  if !relay.ready || relay.closed then relay
  else enqueue environment relay value

def sendForSession (value : α) (expectedSessionId : Nat) : PollingRelay α :=
  if expectedSessionId = 0 || expectedSessionId ≠ relay.activeSessionId then
    relay
  else if relay.closed || !relay.authenticated then relay
  else if !relay.ready && !environment.wire.preReadyControl value then relay
  else enqueue environment relay value

end

variable (reset : PollingRelay α → PollingRelay α)

section

variable (relay : PollingRelay α)

/-- `matching` says that the message names the expected server and version.  A
readiness message which does not fit makes the method throw. -/
def confirmReady (matching : Bool) : PollingRelay α :=
  if relay.closed || !relay.authenticated || relay.localReady then relay
  else if !matching then reset relay
  else
    match relay.outbound.enqueue environment.wire.messageBytes
      environment.wire.httpsReady with
    | none => relay
    | some outbound => { relay with outbound, localReady := true }

def interrupt : PollingRelay α :=
  if relay.closed then relay
  else
    let aborted := relay.inFlight.elim relay.toRequestPacing
      relay.toRequestPacing.abort
    schedulePoll environment
      (reset { relay with toRequestPacing := aborted }) 0

/-- A call of a method.  `reset` is what `resetSession(true)` does. -/
def call : RelayCall α → PollingRelay α
  | .start takeover => start environment relay takeover
  | .stop => stop relay
  | .send value => send environment relay value
  | .sendForSession value expectedSessionId =>
    sendForSession environment relay value expectedSessionId
  | .confirmReady matching => confirmReady environment reset relay matching
  | .interrupt => interrupt environment reset relay
  | .pass reading => { relay with now := max relay.now reading }

def runCallback : PollingRelay α :=
  (environment.callback relay.callbacks).1.foldl (call environment reset)
    { relay with callbacks := relay.callbacks + 1 }

/-- `resetSession(true)`: a session which was ready is reported as ended.  No
session is ready in that callback, so nothing else is reported from it. -/
def resetSession : PollingRelay α :=
  if relay.ready then
    runCallback environment (dropSession environment)
      (dropSession environment relay)
  else dropSession environment relay

def recordFailure (retryAfterMs : Option ℚ) : PollingRelay α :=
  let consecutiveFailures := relay.consecutiveFailures + 1
  let backoff : ℚ := relayFailureBackoffMs consecutiveFailures
    environment.options.failureBackoffBaseMs
    environment.options.failureBackoffMaximumMs
  { relay with
    standby := false
    consecutiveFailures
    toRequestPacing := relay.toRequestPacing.impose
      (relay.now + max backoff (boundedRelayRetryAfterMs retryAfterMs)) }

def handleFailure (retryAfterMs : Option ℚ) : PollingRelay α :=
  let relay := recordFailure environment relay retryAfterMs
  if !relay.ready then relay
  else if max relay.now relay.retryNotBeforeAt <
      relay.lastSuccessAt + environment.options.livenessTimeoutMs then relay
  else resetSession environment relay

def handleSessionFailure : PollingRelay α :=
  resetSession environment (recordFailure environment relay none)

end

inductive ResponsePhase where
  | probing (activationToken : ActivationToken)
  | ready (activationToken : ActivationToken)
  | standby

/-- The body of a response which satisfies `validResponse`. -/
structure ResponseBody where
  phase : ResponsePhase
  ackDaemonSeq : Nat
  messages : List InboundMessage

/-- A response; a body which is no JSON text or which violates the contract is
`none`. -/
structure HttpResponse where
  statusCode : Nat
  retryAfterMs : Option ℚ
  body : Option ResponseBody

/-- How far a handler of a response came: to its end, to an exception, or to a
control message which it awaits. -/
inductive HandlerPause where
  | done
  | threw
  | awaiting (sessionId : Nat) (message : InboundMessage)
      (remaining : List InboundMessage)

section

variable (relay : PollingRelay α)

def authenticate (token : ActivationToken) : PollingRelay α :=
  if relay.authenticated then relay
  else { relay with
    authenticated := true
    sessionGeneration := relay.sessionGeneration + 1
    activeSessionId :=
      environment.options.sessionIdBase + (relay.sessionGeneration + 1)
    activationToken := some token }

def becomeReady : PollingRelay α :=
  if relay.localReady && !relay.ready then
    runCallback environment (resetSession environment)
      { relay with ready := true }
  else relay

/-- The session in which a message was handed over goes on. -/
def inSession (sessionId : Nat) : Bool :=
  !relay.closed && relay.authenticated &&
    decide (relay.activeSessionId = sessionId)

end

/-- The loop over the messages of a response. -/
def deliver : List InboundMessage → PollingRelay α →
    PollingRelay α × HandlerPause
  | [], relay => (relay, .done)
  | message :: messages, relay =>
    match relay.inbound.classify message.seq with
    | .duplicate => deliver messages relay
    | .gap => (handleSessionFailure environment relay, .done)
    | .new =>
      let throws := (environment.callback relay.callbacks).2
      let handled :=
        runCallback environment (resetSession environment) relay
      if throws then (handled, .done)
      else if !message.toolCall then
        (handled, .awaiting relay.activeSessionId message messages)
      else if !handled.inSession relay.activeSessionId then
        (handled, .done)
      else
        match handled.inbound.commit message.seq with
        | none => (handled, .threw)
        | some inbound => deliver messages { handled with inbound }

section

variable (relay : PollingRelay α)

/-- A valid response clears what the failures imposed. -/
def succeed (body : ResponseBody) : PollingRelay α × HandlerPause :=
  let relay := { relay with
    toRequestPacing := relay.toRequestPacing.lift
    lastSuccessAt := relay.now
    consecutiveFailures := 0
    standby := false }
  match body.phase with
  | .standby =>
    ({ resetSession environment relay with standby := true }, .done)
  | .probing token =>
    deliver environment body.messages (authenticate environment relay token)
  | .ready token =>
    deliver environment body.messages
      (becomeReady environment (authenticate environment relay token))

def handleResponse (response : HttpResponse) : PollingRelay α × HandlerPause :=
  let statusCode := response.statusCode
  if statusCode = 404 || statusCode = 405 || statusCode = 426 then
    (handleFailure environment relay none, .done)
  else if statusCode = 401 || statusCode = 403 then
    (handleFailure environment relay none, .done)
  else if statusCode = 409 then
    (handleSessionFailure environment relay, .done)
  else if statusCode < 200 || 300 ≤ statusCode then
    let retryAfterMs := if statusCode = 429 || statusCode = 503 then
      boundedRelayRetryAfterMs response.retryAfterMs else 0
    (handleFailure environment relay (some retryAfterMs), .done)
  else
    match response.body with
    | none => (handleSessionFailure environment relay, .done)
    | some body =>
      match relay.outbound.acknowledge body.ackDaemonSeq with
      | none => (handleSessionFailure environment relay, .done)
      | some outbound => succeed environment { relay with outbound } body

def nextPollDelay : ℚ :=
  if relay.standby then environment.options.standbyRetryIntervalMs
  else if 0 < relay.consecutiveFailures then
    max 0 (relay.retryNotBeforeAt - relay.now)
  else if !relay.authenticated || !relay.ready ||
      !relay.outbound.messages.isEmpty then 0
  else environment.options.pollIntervalMs

/-- The request of a poll: as many messages as the fixed fields leave room
for. -/
def request (data : PollData α) : RelayEnvelope α :=
  let envelope : RelayEnvelope α := {
    sessionId := relay.transportSessionId
    instanceId := environment.instanceId
    activationToken := relay.activationToken
    ackWorkerSeq := relay.inbound.acknowledged
    ownedCallIds := data.ownedCallIds.ids.take 32
    takeoverWebSocketConnectionId := relay.takeoverWebSocketConnectionId
    descriptor :=
      if relay.activationToken.isSome then none else some data.descriptor
    messages := [] }
  let availableBytes : Int := (httpFallbackMaximumEnvelopeBytes : Int) -
    environment.wire.envelopeBytes envelope + 2
  { envelope with
    messages := relay.outbound.snapshot environment.wire.entryBytes
      availableBytes }

def poll (data : PollData α) : PollingRelay α :=
  if relay.closed || relay.inFlight.isSome then relay
  else
    let relay := { relay with
      toRequestPacing := relay.toRequestPacing.clearPollTimer }
    let earliest := relay.earliest environment.options
    if relay.now < earliest then
      schedulePoll environment relay (earliest - relay.now)
    else { relay with
      toRequestPacing := relay.toRequestPacing.startRequest
        relay.outbound.messages (request environment relay data) }

def finishPoll (controller : Nat) : PollingRelay α :=
  let relay := { relay with
    toRequestPacing := relay.toRequestPacing.release controller }
  if relay.closed then relay
  else schedulePoll environment relay (nextPollDelay environment relay)

/-- A poll catches an exception; it is of no interest when the request is no
longer in flight. -/
def catchFailure (controller : Nat) (retryAfterMs : Option ℚ) :
    PollingRelay α :=
  if relay.inFlight ≠ some controller || relay.closed then
    { relay with toRequestPacing := relay.toRequestPacing.release controller }
  else
    finishPoll environment (handleFailure environment relay retryAfterMs)
      controller

end

/-- A poll goes on after a part of its handler. -/
def continuePoll (controller : Nat) :
    PollingRelay α × HandlerPause → PollingRelay α
  | (relay, .done) => finishPoll environment relay controller
  | (relay, .threw) => catchFailure environment relay controller none
  | (relay, .awaiting sessionId message remaining) =>
    { relay with
      handlers := relay.handlers ++
        [⟨controller, sessionId, message, remaining⟩] }

section

variable (relay : PollingRelay α)

def respond (controller : Nat) (response : HttpResponse) : PollingRelay α :=
  if relay.inFlight ≠ some controller || relay.closed then
    { relay with toRequestPacing := relay.toRequestPacing.release controller }
  else
    continuePoll environment controller
      (handleResponse environment relay response)

def resume (handler : SuspendedHandler) (rejected : Bool) : PollingRelay α :=
  if rejected then finishPoll environment relay handler.controller
  else if !relay.inSession handler.sessionId then
    finishPoll environment relay handler.controller
  else
    match relay.inbound.commit handler.message.seq with
    | none => catchFailure environment relay handler.controller none
    | some inbound =>
      continuePoll environment handler.controller
        (deliver environment handler.remaining { relay with inbound })

end

/-- What happens to a connection.  A timer may be early. -/
inductive PollingEvent (α : Type) where
  | call (method : RelayCall α)
  | poll (data : PollData α)
  | timer (data : PollData α)
  | failed (controller : Nat) (retryAfterMs : Option ℚ)
  | responded (controller : Nat) (response : HttpResponse)
  | resumed (index : Nat) (rejected : Bool)

def step (relay : PollingRelay α) :
    PollingEvent α → PollingRelay α
  | .call method => call environment (resetSession environment) relay method
  | .poll data => poll environment relay data
  | .timer data =>
    if relay.pollTimer.isSome then
      poll environment { relay with
        toRequestPacing := relay.toRequestPacing.clearPollTimer } data
    else relay
  | .failed controller retryAfterMs =>
    if controller ∈ relay.unsettled then
      catchFailure environment { relay with
        toRequestPacing := relay.toRequestPacing.settle controller }
        controller retryAfterMs
    else relay
  | .responded controller response =>
    if controller ∈ relay.unsettled then
      respond environment { relay with
        toRequestPacing := relay.toRequestPacing.settle controller }
        controller response
    else relay
  | .resumed index rejected =>
    match relay.handlers[index]? with
    | none => relay
    | some handler =>
      resume environment { relay with
        handlers := relay.handlers.eraseIdx index } handler rejected

/-- The state after some events. -/
def runPolling (events : List (PollingEvent α)) : PollingRelay α :=
  run (step environment) {} events

end PollingRelay

end MachineBridge.Relay
