import MachineBridge.Foundation.Run
import MachineBridge.Foundation.Text

/-!
# The combined relay connection

`ResilientRelayConnection` prefers the WebSocket and keeps the HTTPS transport
as a fallback, which a single timer starts.  Both transports report readiness
and disconnection, and the WebSocket also reports suspicion and recovery.  Next
to the connection the model keeps what it notified and what it sent.
-/

namespace MachineBridge.Relay.Failover

open Foundation

inductive Transport where
  | websocket
  | https
deriving DecidableEq

/-- `/^connection_[A-Za-z0-9_-]{43}$/` -/
def isConnectionId (content : Text) : Bool :=
  labelled (text "connection_") (fits isBase64Url 43 43) content

structure OutgoingMessage where
  type : String
  content : Nat

/-- The part of `RelayConnection` which the combined connection uses. -/
structure WebSocketTransport where
  closed : Bool := true
  (authenticated ready : Bool := false)
  (sessionGeneration activeSessionId : Nat := 0)
  lastDisconnectedConnectionId : Text := []

namespace WebSocketTransport

section

variable (websocket : WebSocketTransport)

def start : WebSocketTransport :=
  { websocket with closed := false }

def stop : WebSocketTransport :=
  { websocket with
    closed := true
    authenticated := false
    ready := false
    activeSessionId := 0
    lastDisconnectedConnectionId := [] }

/-- An acknowledged hello begins a session. -/
def authenticate : WebSocketTransport :=
  if websocket.closed || websocket.authenticated then websocket
  else { websocket with
    authenticated := true
    sessionGeneration := websocket.sessionGeneration + 1
    activeSessionId := websocket.sessionGeneration + 1 }

/-- The socket closes.  The connection which was ready is remembered, when the
Worker had named it. -/
def close (connectionId : Text) : WebSocketTransport :=
  { websocket with
    authenticated := false
    ready := false
    activeSessionId := 0
    lastDisconnectedConnectionId :=
      if websocket.ready && !connectionId.isEmpty then connectionId
      else websocket.lastDisconnectedConnectionId }

def currentSessionId : Nat :=
  if websocket.authenticated then websocket.activeSessionId else 0

def preReadyControl (message : OutgoingMessage) : Bool :=
  ["relay_probe_result", "resume_calls_ack",
    "authority_revoke_ack"].contains message.type

def accepts (message : OutgoingMessage) (sessionId : Nat) : Bool :=
  sessionId != 0 && sessionId == websocket.activeSessionId &&
    websocket.authenticated && (websocket.ready || preReadyControl message)

end

end WebSocketTransport

/-- The part of `DaemonHttpRelayConnection` which the combined connection
uses. -/
structure HttpTransport where
  closed : Bool := true
  (authenticated ready : Bool := false)
  (sessionGeneration activeSessionId : Nat := 0)
  takeoverWebSocket : Bool := false
  takeoverWebSocketConnectionId : Text := []

structure StartOptions where
  takeoverWebSocket : Bool := false
  takeoverWebSocketConnectionId : Text := []

namespace HttpTransport

def sessionIdBase : Nat := 1000000000

section

variable (http : HttpTransport)

def resetSession : HttpTransport :=
  { http with
    authenticated := false
    ready := false
    activeSessionId := 0 }

def noteTakeover (options : StartOptions) : HttpTransport :=
  if options.takeoverWebSocket &&
      isConnectionId options.takeoverWebSocketConnectionId then
    { http with
      takeoverWebSocket := true
      takeoverWebSocketConnectionId := options.takeoverWebSocketConnectionId }
  else http

def start (options : StartOptions) : HttpTransport :=
  let http := http.noteTakeover options
  if http.closed then { http with closed := false }.resetSession else http

def stop : HttpTransport :=
  if http.closed then http
  else { http.resetSession with
    closed := true
    takeoverWebSocket := false
    takeoverWebSocketConnectionId := [] }

def authenticate : HttpTransport :=
  if http.closed || http.authenticated then http
  else { http with
    authenticated := true
    sessionGeneration := http.sessionGeneration + 1
    activeSessionId := sessionIdBase + (http.sessionGeneration + 1) }

/-- A response confirms that the session is ready. -/
def becomeReady : HttpTransport :=
  if http.closed then http else { http.authenticate with ready := true }

def currentSessionId : Nat :=
  if http.authenticated then http.activeSessionId else 0

def preReadyControl (message : OutgoingMessage) : Bool :=
  ["resume_calls_ack", "authority_revoke_ack"].contains message.type

def accepts (message : OutgoingMessage) (sessionId : Nat) : Bool :=
  sessionId != 0 && sessionId == http.activeSessionId && !http.closed &&
    http.authenticated && (http.ready || preReadyControl message)

end

end HttpTransport

structure FallbackTimer where
  delay : Nat
  takeoverWebSocket : Bool
  takeoverWebSocketConnectionId : Text
  allowReadyWebSocket : Bool

/-- What an observer of the combined connection sees, with its stops between. -/
inductive Notification where
  | ready (transport : Transport)
  | disconnected (transport : Transport)
  | stopped
deriving DecidableEq

/-- A message, the transport which took it and the active one at that time. -/
structure SentMessage where
  message : OutgoingMessage
  transport : Transport
  active : Option Transport

structure ResilientRelayConnection where
  activeTransport : Option Transport := none
  closed : Bool := true
  fallbackDelayMs : Nat := 1500
  fallbackTimer : Option FallbackTimer := none
  websocket : WebSocketTransport := {}
  http : HttpTransport := {}
  notifications : List Notification := []
  sent : List SentMessage := []

namespace ResilientRelayConnection

variable (relay : ResilientRelayConnection)

def notify (notification : Notification) : ResilientRelayConnection :=
  { relay with notifications := notification :: relay.notifications }

def clearFallbackTimer : ResilientRelayConnection :=
  { relay with fallbackTimer := none }

def armFallback (delay : Nat) (takeoverConnectionId : Text)
    (allowReadyWebSocket : Bool) : ResilientRelayConnection :=
  let takeoverWebSocket := isConnectionId takeoverConnectionId
  if relay.closed then relay
  else if !relay.http.closed then
    if takeoverWebSocket then { relay with
      http := relay.http.start {
        takeoverWebSocket := true
        takeoverWebSocketConnectionId := takeoverConnectionId } }
    else relay
  else if relay.fallbackTimer.isSome then relay
  else { relay with
    fallbackTimer := some {
      delay
      takeoverWebSocket
      takeoverWebSocketConnectionId := takeoverConnectionId
      allowReadyWebSocket } }

/-- The callback of the fallback timer. -/
def fireFallback : ResilientRelayConnection :=
  match relay.fallbackTimer with
  | none => relay
  | some timer =>
    let relay := relay.clearFallbackTimer
    if relay.closed ||
        (!timer.allowReadyWebSocket && relay.websocket.ready) then relay
    else { relay with
      http := relay.http.start {
        takeoverWebSocket := timer.takeoverWebSocket
        takeoverWebSocketConnectionId :=
          if timer.takeoverWebSocket then
            timer.takeoverWebSocketConnectionId
          else [] } }

def start : ResilientRelayConnection :=
  if !relay.closed then relay
  else { relay with
    closed := false
    websocket := relay.websocket.start }.armFallback relay.fallbackDelayMs []
      false

def stop : ResilientRelayConnection :=
  if relay.closed then relay
  else { relay with
    closed := true
    fallbackTimer := none
    websocket := relay.websocket.stop
    http := relay.http.stop
    activeTransport := none }.notify .stopped

/-- The transport takes over, and the observer is told when there was none. -/
def activate (transport : Transport) : ResilientRelayConnection :=
  let activated := { relay with activeTransport := some transport }
  if relay.activeTransport.isSome then activated
  else activated.notify (.ready transport)

def stopFallback : ResilientRelayConnection :=
  { relay with http := relay.http.stop }.clearFallbackTimer

def handleReady : Transport → ResilientRelayConnection
  | .websocket =>
    if relay.closed then relay
    else relay.stopFallback.activate .websocket
  | .https =>
    if relay.closed then relay
    else if relay.websocket.ready then relay.stopFallback
    else relay.activate .https

def deactivate (transport : Transport) : ResilientRelayConnection :=
  { relay with activeTransport := none }.notify (.disconnected transport)

def handleDisconnect : Transport → ResilientRelayConnection
  | .websocket =>
    if relay.closed then relay
    else
      let wasPrimary := relay.activeTransport == some .websocket
      let takeoverConnectionId :=
        if wasPrimary then relay.websocket.lastDisconnectedConnectionId
        else []
      let relay := relay.armFallback 0 takeoverConnectionId false
      if wasPrimary then relay.deactivate .websocket else relay
  | .https =>
    if relay.closed then relay
    else if relay.activeTransport == some .https then
      relay.deactivate .https
    else relay

def handleDegraded : ResilientRelayConnection :=
  if relay.closed || relay.activeTransport != some .websocket then relay
  else relay.armFallback 0 [] true

def handleRecovered : ResilientRelayConnection :=
  if relay.closed || relay.activeTransport != some .websocket then relay
  else relay.stopFallback

section

variable (message : OutgoingMessage)

def record (transport : Transport) : ResilientRelayConnection :=
  { relay with
    sent := ⟨message, transport, relay.activeTransport⟩ :: relay.sent }

def send : ResilientRelayConnection :=
  match relay.activeTransport with
  | some .websocket =>
    if relay.websocket.ready then relay.record message .websocket else relay
  | some .https =>
    if relay.http.ready && !relay.http.closed then
      relay.record message .https
    else relay
  | none => relay

def sendForSession (sessionId : Nat) : ResilientRelayConnection :=
  if sessionId != 0 && sessionId == relay.http.currentSessionId then
    if relay.http.accepts message sessionId then relay.record message .https
    else relay
  else if relay.websocket.accepts message sessionId then
    relay.record message .websocket
  else relay

end

end ResilientRelayConnection

inductive RelayEvent where
  | start
  | stop
  | websocketAuthenticated
  | websocketReady
  | websocketDisconnected (connectionId : Text)
  | websocketFailed
  | websocketDegraded
  | websocketRecovered
  | httpAuthenticated
  | httpReady
  | httpDisconnected
  | fallbackTimer
  | send (message : OutgoingMessage)
  | sendForSession (message : OutgoingMessage) (sessionId : Nat)

namespace ResilientRelayConnection

/-- The reports come in every order, also in those which a transport by itself
would not produce; only a WebSocket which is closed reports nothing.  One which
fails for good is closed before it reports that it is gone. -/
def step (relay : ResilientRelayConnection) :
    RelayEvent → ResilientRelayConnection
  | .start => relay.start
  | .stop => relay.stop
  | .websocketAuthenticated =>
    { relay with websocket := relay.websocket.authenticate }
  | .websocketReady =>
    if relay.websocket.closed then relay
    else { relay with
      websocket := { relay.websocket.authenticate with ready := true }
      }.handleReady .websocket
  | .websocketDisconnected connectionId =>
    if relay.websocket.closed then relay
    else { relay with
      websocket := relay.websocket.close connectionId
      }.handleDisconnect .websocket
  | .websocketFailed =>
    if relay.websocket.closed then relay
    else { relay with
      websocket := { relay.websocket.close [] with closed := true }
      }.handleDisconnect .websocket
  | .websocketDegraded => relay.handleDegraded
  | .websocketRecovered => relay.handleRecovered
  | .httpAuthenticated => { relay with http := relay.http.authenticate }
  | .httpReady =>
    { relay with http := relay.http.becomeReady }.handleReady .https
  | .httpDisconnected =>
    { relay with http := relay.http.resetSession }.handleDisconnect .https
  | .fallbackTimer => relay.fireFallback
  | .send message => relay.send message
  | .sendForSession message sessionId => relay.sendForSession message sessionId

end ResilientRelayConnection

end MachineBridge.Relay.Failover
