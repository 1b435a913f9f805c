import MachineBridge.Relay.Failover

/-!
# Failover

A watcher follows the connection: the last report of each transport, whether the
WebSocket is under suspicion, and which takeover waits for the fallback.  Along
every run the notifications alternate between two stops, the active transport is
the one that is ready, and the fallback runs or is about to run whenever the
WebSocket is not active.
-/

namespace MachineBridge.Relay.Failover

open Foundation ResilientRelayConnection List

/-- The latest notification says that the connection is ready. -/
def announced : List Notification → Bool
  | .ready _ :: _ => true
  | _ => false

/-- From the latest to the first: readiness and disconnection alternate, and a
stop begins anew. -/
def Alternating : List Notification → Prop
  | [] => True
  | .ready _ :: earlier => announced earlier = false ∧ Alternating earlier
  | .disconnected _ :: earlier =>
    announced earlier = true ∧ Alternating earlier
  | .stopped :: earlier => Alternating earlier

structure Watched where
  relay : ResilientRelayConnection
  (websocketUp httpsUp suspected : Bool := false)
  captured : Option Text := none

namespace Watched

/-- The last report of a transport was that it is ready. -/
def up (watched : Watched) : Transport → Bool
  | .websocket => watched.websocketUp
  | .https => watched.httpsUp

def websocketReport : RelayEvent → Option Bool
  | .websocketReady => some true
  | .websocketDisconnected _ => some false
  | .websocketFailed => some false
  | _ => none

def httpsReport : RelayEvent → Option Bool
  | .httpReady => some true
  | .httpDisconnected => some false
  | _ => none

section

variable (relay : ResilientRelayConnection)

/-- The connection which the WebSocket names when it disconnects. -/
def disconnected : RelayEvent → Option Text
  | .websocketDisconnected connectionId =>
    some (relay.websocket.close connectionId).lastDisconnectedConnectionId
  | .websocketFailed => some relay.websocket.lastDisconnectedConnectionId
  | _ => none

/-- A takeover is captured when the active WebSocket disconnects, unless the
fallback timer is armed already. -/
def capture (event : RelayEvent) : Option Text :=
  (disconnected relay event).filter fun connectionId =>
    isConnectionId connectionId &&
      relay.activeTransport == some .websocket && relay.fallbackTimer.isNone

end

/-- The takeover waits until the WebSocket is ready again or the connection is
stopped. -/
def awaits (captured : Option Text) (relay : ResilientRelayConnection) :
    RelayEvent → Option Text
  | .websocketReady => if relay.websocket.closed then captured else none
  | .stop => none
  | event => (capture relay event).or captured

/-- Suspicion lasts until the WebSocket recovers or is ready again. -/
def suspicion (suspected : Bool) (relay : ResilientRelayConnection) :
    RelayEvent → Bool
  | .websocketDegraded => suspected || relay.activeTransport == some .websocket
  | .websocketRecovered =>
    suspected && relay.activeTransport != some .websocket
  | .websocketReady => suspected && relay.websocket.closed
  | _ => suspected

def step (watched : Watched) (event : RelayEvent) : Watched where
  relay := watched.relay.step event
  websocketUp := (websocketReport event).getD watched.websocketUp
  httpsUp := (httpsReport event).getD watched.httpsUp
  suspected := suspicion watched.suspected watched.relay event
  captured := awaits watched.captured watched.relay event

def initial (fallbackDelayMs : Nat) : Watched :=
  { relay := { fallbackDelayMs } }

end Watched

/-- What holds of a connection at every moment. -/
structure FailedOver (watched : Watched) : Prop where
  alternating : Alternating watched.relay.notifications
  active : ∀ transport, watched.relay.activeTransport = some transport →
    watched.up transport = true
  primary : watched.relay.websocket.ready = true ↔
    watched.relay.activeTransport = some .websocket
  sent : ∀ message ∈ watched.relay.sent,
    message.active = some message.transport ∨
      WebSocketTransport.preReadyControl message.message = true
  exclusive : watched.relay.activeTransport = some .websocket →
    watched.suspected = false →
    watched.relay.http.closed = true ∧ watched.relay.fallbackTimer = none
  fallback : watched.relay.closed = false →
    watched.relay.activeTransport ≠ some .websocket →
    watched.relay.http.closed = false ∨
      watched.relay.fallbackTimer.isSome = true
  takeover : ∀ connectionId, watched.captured = some connectionId →
    watched.relay.http.closed = false →
    watched.relay.http.takeoverWebSocketConnectionId = connectionId

@[simp] theorem start_closed (http : HttpTransport) (options : StartOptions) :
    (http.start options).closed = false := by
  simp only [HttpTransport.start, HttpTransport.noteTakeover,
    HttpTransport.resetSession]
  split <;> split <;> simp_all

variable {http : HttpTransport} {connectionId : Text} {watched : Watched}

theorem start_ready {options : StartOptions}
    (ready : (http.start options).ready = true) :
    http.ready = true ∧ http.closed = false := by
  simp only [HttpTransport.start, HttpTransport.noteTakeover,
    HttpTransport.resetSession] at ready
  split at ready <;> split at ready <;> simp_all

theorem start_takeover (named : isConnectionId connectionId = true) :
    (http.start {
      takeoverWebSocket := true
      takeoverWebSocketConnectionId := connectionId
      }).takeoverWebSocketConnectionId = connectionId := by
  simp only [HttpTransport.start, HttpTransport.noteTakeover,
    HttpTransport.resetSession, named, Bool.and_self, if_true]
  split <;> rfl

@[simp] theorem stop_closed (http : HttpTransport) :
    http.stop.closed = true := by
  simp only [HttpTransport.stop]
  split <;> simp_all

theorem stop_ready (known : http.ready = true → http.closed = false) :
    http.stop.ready = false := by
  simp only [HttpTransport.stop, HttpTransport.resetSession]
  split <;> simp_all

section

variable (http : HttpTransport)

@[simp] theorem becomeReady_closed :
    http.becomeReady.closed = http.closed := by
  simp only [HttpTransport.becomeReady, HttpTransport.authenticate]
  split <;> try split
  all_goals rfl

@[simp] theorem becomeReady_takeover :
    http.becomeReady.takeoverWebSocketConnectionId =
    http.takeoverWebSocketConnectionId := by
  simp only [HttpTransport.becomeReady, HttpTransport.authenticate]
  split <;> try split
  all_goals rfl

@[simp] theorem httpAuthenticate_fields :
    http.authenticate.closed = http.closed ∧
    http.authenticate.ready = http.ready ∧
    http.authenticate.takeoverWebSocketConnectionId =
    http.takeoverWebSocketConnectionId := by
  simp only [HttpTransport.authenticate]
  split <;> exact ⟨rfl, rfl, rfl⟩

end

section

variable (websocket : WebSocketTransport)

@[simp] theorem websocketAuthenticate_fields :
    websocket.authenticate.closed = websocket.closed ∧
    websocket.authenticate.ready = websocket.ready := by
  simp only [WebSocketTransport.authenticate]
  split <;> exact ⟨rfl, rfl⟩

@[simp] theorem close_unnamed :
    (websocket.close []).lastDisconnectedConnectionId =
    websocket.lastDisconnectedConnectionId := by
  simp [WebSocketTransport.close]

end

/-- What every operation keeps, also between two steps of one event. -/
structure RelayConsistent (relay : ResilientRelayConnection) : Prop where
  websocket : relay.websocket.ready = true → relay.websocket.closed = false
  https : relay.http.ready = true →
    relay.http.closed = false ∧ relay.activeTransport = some .https
  stopped : relay.closed = true → relay.activeTransport = none ∧
    relay.websocket.closed = true ∧ relay.http.closed = true ∧
      relay.fallbackTimer = none
  alternating : Alternating relay.notifications
  latest : announced relay.notifications = relay.activeTransport.isSome
  sent : ∀ message ∈ relay.sent, message.active = some message.transport ∨
    WebSocketTransport.preReadyControl message.message = true

section

variable (relay : ResilientRelayConnection)

/-- The WebSocket is active exactly when it is ready. -/
def Primary : Prop :=
  relay.websocket.ready = true ↔ relay.activeTransport = some .websocket

/-- The fallback runs or its timer is armed. -/
def Covered : Prop :=
  relay.http.closed = false ∨ relay.fallbackTimer.isSome = true

end

structure RelayInvariant (relay : ResilientRelayConnection) : Prop where
  consistent : RelayConsistent relay
  primary : Primary relay
  fallback : relay.closed = false →
    relay.activeTransport ≠ some .websocket → Covered relay

section Operations

variable {relay : ResilientRelayConnection}

/-- Arming the fallback changes nothing but the fallback and its timer. -/
structure Armed (relay armed : ResilientRelayConnection) : Prop where
  active : armed.activeTransport = relay.activeTransport
  closed : armed.closed = relay.closed
  websocket : armed.websocket = relay.websocket
  notifications : armed.notifications = relay.notifications
  sent : armed.sent = relay.sent
  httpClosed : armed.http.closed = relay.http.closed
  httpReady : armed.http.ready = true → relay.http.ready = true
  timer : relay.closed = true → armed.fallbackTimer = relay.fallbackTimer

variable {allowReadyWebSocket : Bool} {connectionId : Text} {delay : Nat}
  {transport : Transport} {websocket : WebSocketTransport}
  {message : OutgoingMessage}

theorem armFallback_armed : Armed relay
    (relay.armFallback delay connectionId allowReadyWebSocket) := by
  simp only [armFallback]
  split
  case isTrue => exact ⟨rfl, rfl, rfl, rfl, rfl, rfl, id, fun _ => rfl⟩
  split
  case isTrue running =>
    rw [Bool.not_eq_true'] at running
    split
    case isTrue =>
      exact ⟨rfl, rfl, rfl, rfl, rfl, by simp [running],
        fun ready => (start_ready ready).1, fun _ => rfl⟩
    case isFalse => exact ⟨rfl, rfl, rfl, rfl, rfl, rfl, id, fun _ => rfl⟩
  split
  case isTrue => exact ⟨rfl, rfl, rfl, rfl, rfl, rfl, id, fun _ => rfl⟩
  case isFalse open' _ _ =>
    exact ⟨rfl, rfl, rfl, rfl, rfl, rfl, id, fun closed => absurd closed open'⟩

theorem armFallback_covered (started : relay.closed = false) :
    Covered (relay.armFallback delay connectionId allowReadyWebSocket) := by
  simp only [armFallback, started, Bool.false_eq_true, if_false]
  split
  case isTrue running =>
    left
    split
    case isTrue => simp
    case isFalse => simpa using running
  split
  case isTrue armed => exact .inr armed
  case isFalse => exact .inr rfl

theorem RelayConsistent.armed {armed : ResilientRelayConnection}
    (consistent : RelayConsistent relay) (arms : Armed relay armed) :
    RelayConsistent armed where
  websocket := by
    rw [arms.websocket]
    exact consistent.websocket
  https := by
    intro ready
    rw [arms.httpClosed, arms.active]
    exact consistent.https (arms.httpReady ready)
  stopped := by
    rw [arms.closed, arms.active, arms.websocket, arms.httpClosed]
    intro closed
    rw [arms.timer closed]
    exact consistent.stopped closed
  alternating := by
    rw [arms.notifications]
    exact consistent.alternating
  latest := by
    rw [arms.notifications, arms.active]
    exact consistent.latest
  sent := by
    rw [arms.sent]
    exact consistent.sent

theorem RelayConsistent.stopFallback (consistent : RelayConsistent relay) :
    RelayConsistent relay.stopFallback where
  __ := consistent
  https := by
    intro ready
    have silent : relay.http.stop.ready = false :=
      stop_ready fun ready => (consistent.https ready).1
    rw [show relay.stopFallback.http.ready = relay.http.stop.ready from rfl,
      silent] at ready
    cases ready
  stopped := fun closed =>
    have ⟨inactive, socket, _, _⟩ := consistent.stopped closed
    ⟨inactive, socket, stop_closed _, rfl⟩

theorem RelayConsistent.activate (consistent : RelayConsistent relay)
    (started : relay.closed = false)
    (https : relay.http.ready = true → transport = .https) :
    RelayConsistent (relay.activate transport) := by
  have bound : ∀ active : Option Transport, (relay.http.ready = true →
        relay.http.closed = false ∧ some transport = some .https) := by
    intro _ ready
    exact ⟨(consistent.https ready).1, by rw [https ready]⟩
  simp only [ResilientRelayConnection.activate]
  split
  case isTrue present =>
    refine { consistent with https := bound none, stopped := ?_, latest := ?_ }
    · intro closed
      rw [show relay.closed = true from closed] at started
      cases started
    · rw [show announced relay.notifications = true from
        consistent.latest.trans present]
      rfl
  case isFalse absent =>
    have quiet : announced relay.notifications = false := by
      rw [consistent.latest]
      simpa using absent
    refine ⟨consistent.websocket, bound none, ?_,
      ⟨quiet, consistent.alternating⟩, rfl, consistent.sent⟩
    intro closed
    rw [show relay.closed = true from closed] at started
    cases started

theorem RelayConsistent.deactivate (consistent : RelayConsistent relay)
    (active : relay.activeTransport = some transport)
    (https : relay.http.ready = false) :
    RelayConsistent (relay.deactivate transport) where
  __ := consistent
  https := by
    intro ready
    rw [show relay.http.ready = true from ready] at https
    cases https
  stopped := fun closed =>
    have ⟨_, socket, fallback, timer⟩ := consistent.stopped closed
    ⟨rfl, socket, fallback, timer⟩
  alternating := by
    refine ⟨?_, consistent.alternating⟩
    rw [consistent.latest, active]
    rfl
  latest := rfl

section

variable (consistent : RelayConsistent relay)
include consistent

theorem RelayConsistent.withWebsocket
    (ready : websocket.ready = true → websocket.closed = false)
    (stopped : relay.closed = true → websocket.closed = true) :
    RelayConsistent { relay with websocket } where
  websocket := ready
  __ := consistent
  stopped := fun closed =>
    have ⟨inactive, _, fallback, timer⟩ := consistent.stopped closed
    ⟨inactive, stopped closed, fallback, timer⟩

theorem RelayConsistent.withHttp {http : HttpTransport}
    (ready : http.ready = true →
      http.closed = false ∧ relay.activeTransport = some .https)
    (stopped : relay.closed = true → http.closed = true) :
    RelayConsistent { relay with http } where
  __ := consistent
  https := ready
  stopped := fun closed =>
    have ⟨inactive, socket, _, timer⟩ := consistent.stopped closed
    ⟨inactive, socket, stopped closed, timer⟩

theorem RelayConsistent.reset :
    RelayConsistent { relay with http := relay.http.resetSession } :=
  consistent.withHttp nofun fun closed => (consistent.stopped closed).2.2.1

end

theorem RelayConsistent.clearFallbackTimer
    (consistent : RelayConsistent relay) :
    RelayConsistent relay.clearFallbackTimer where
  __ := consistent
  stopped := fun closed =>
    have ⟨inactive, socket, fallback, _⟩ := consistent.stopped closed
    ⟨inactive, socket, fallback, rfl⟩

theorem RelayConsistent.record (consistent : RelayConsistent relay)
    (known : relay.activeTransport = some transport ∨
      WebSocketTransport.preReadyControl message = true) :
    RelayConsistent (relay.record message transport) where
  __ := consistent
  sent := by
    intro sent member
    rcases mem_cons.mp member with rfl | earlier
    · exact known
    · exact consistent.sent sent earlier

theorem active_of_websocketReady (invariant : RelayInvariant relay)
    (ready : relay.websocket.ready = true) :
    relay.activeTransport = some .websocket :=
  invariant.primary.mp ready

theorem websocket_quiet (invariant : RelayInvariant relay)
    (inactive : relay.activeTransport ≠ some .websocket) :
    relay.websocket.ready = false := by
  cases ready : relay.websocket.ready with
  | false => rfl
  | true => exact absurd (invariant.primary.mp ready) inactive

theorem http_quiet (consistent : RelayConsistent relay)
    (inactive : relay.activeTransport ≠ some .https) :
    relay.http.ready = false := by
  cases ready : relay.http.ready with
  | false => rfl
  | true => exact absurd (consistent.https ready).2 inactive

theorem started_of_socket (consistent : RelayConsistent relay)
    (socket : relay.websocket.closed = false) : relay.closed = false := by
  cases closed : relay.closed with
  | false => rfl
  | true =>
    rw [(consistent.stopped closed).2.1] at socket
    cases socket

theorem Armed.covered {armed : ResilientRelayConnection}
    (arms : Armed relay armed) (invariant : RelayInvariant relay)
    (covered : armed.closed = false → Covered armed) :
    RelayInvariant armed where
  consistent := invariant.consistent.armed arms
  primary := by
    rw [Primary, arms.websocket, arms.active]
    exact invariant.primary
  fallback := fun started _ => covered started

theorem RelayInvariant.armFallback (invariant : RelayInvariant relay) :
    RelayInvariant (relay.armFallback delay connectionId allowReadyWebSocket)
    := by
  apply armFallback_armed.covered invariant
  rw [armFallback_armed.closed]
  exact fun started => armFallback_covered started

theorem RelayInvariant.start (invariant : RelayInvariant relay) :
    RelayInvariant relay.start := by
  rw [ResilientRelayConnection.start]
  split
  case isTrue => exact invariant
  case isFalse closed =>
    rw [Bool.not_eq_true, Bool.not_eq_false'] at closed
    obtain ⟨inactive, -, fallback, timer⟩ :=
      invariant.consistent.stopped closed
    have quiet := websocket_quiet invariant (by simp [inactive])
    have silent := http_quiet invariant.consistent (by simp [inactive])
    have opened : RelayConsistent { relay with
        closed := false
        websocket := relay.websocket.start } := by
      refine { invariant.consistent with
        websocket := fun _ => rfl, https := ?_, stopped := nofun }
      intro ready
      rw [show relay.http.ready = true from ready] at silent
      cases silent
    refine ⟨opened.armed armFallback_armed, ?_,
      fun started _ => armFallback_covered rfl⟩
    rw [Primary, armFallback_armed.websocket, armFallback_armed.active]
    show relay.websocket.ready = true ↔ relay.activeTransport = _
    rw [quiet, inactive]
    simp

theorem RelayInvariant.stop (invariant : RelayInvariant relay) :
    RelayInvariant relay.stop := by
  rw [ResilientRelayConnection.stop]
  split
  case isTrue => exact invariant
  case isFalse =>
    have silent : relay.http.stop.ready = false :=
      stop_ready fun ready => (invariant.consistent.https ready).1
    refine ⟨⟨nofun, ?_, fun _ => ⟨rfl, rfl, stop_closed _, rfl⟩,
      invariant.consistent.alternating, rfl, invariant.consistent.sent⟩,
      ⟨nofun, nofun⟩, nofun⟩
    intro ready
    rw [show relay.http.stop.ready = true from ready] at silent
    cases silent

theorem activate_active :
    (relay.activate transport).activeTransport = some transport := by
  rw [activate]
  split <;> rfl

theorem activate_closed :
    (relay.activate transport).closed = relay.closed := by
  rw [activate]
  split <;> rfl

theorem activate_websocket :
    (relay.activate transport).websocket = relay.websocket := by
  rw [activate]
  split <;> rfl

theorem activate_http : (relay.activate transport).http = relay.http := by
  rw [activate]
  split <;> rfl

theorem activate_fallbackTimer :
    (relay.activate transport).fallbackTimer = relay.fallbackTimer := by
  rw [activate]
  split <;> rfl

section

variable (started : relay.closed = false)
include started

theorem handleReady_websocket :
    relay.handleReady .websocket = relay.stopFallback.activate .websocket := by
  simp only [handleReady, started, Bool.false_eq_true, if_false]

theorem handleDisconnect_primary
    (primary : relay.activeTransport = some .websocket) :
    relay.handleDisconnect .websocket = (relay.armFallback 0
    relay.websocket.lastDisconnectedConnectionId false).deactivate
    .websocket := by
  simp only [handleDisconnect, started, primary, Bool.false_eq_true, if_false,
    beq_self_eq_true, if_true]

theorem handleDisconnect_secondary
    (secondary : relay.activeTransport ≠ some .websocket) :
    relay.handleDisconnect .websocket = relay.armFallback 0 [] false := by
  simp only [handleDisconnect, started, Bool.false_eq_true, if_false,
    beq_eq_false_iff_ne.mpr secondary]

end

theorem RelayInvariant.websocketReady (invariant : RelayInvariant relay)
    (socket : relay.websocket.closed = false) (ready : websocket.ready = true)
    (opened : websocket.closed = false) :
    RelayInvariant ({ relay with websocket }.handleReady .websocket) := by
  have started := started_of_socket invariant.consistent socket
  have changed : RelayConsistent { relay with websocket } :=
    invariant.consistent.withWebsocket (fun _ => opened)
      fun closed => by rw [started] at closed; cases closed
  rw [handleReady_websocket]
  swap
  · exact started
  refine ⟨changed.stopFallback.activate started ?_, ?_, ?_⟩
  · intro running
    have silent : relay.http.stop.ready = false :=
      stop_ready fun ready => (invariant.consistent.https ready).1
    rw [show relay.http.stop.ready = true from running] at silent
    cases silent
  · rw [Primary, activate_active, activate_websocket]
    exact ⟨fun _ => rfl, fun _ => ready⟩
  · intro _ inactive
    exact absurd activate_active inactive

theorem RelayInvariant.websocketGone (invariant : RelayInvariant relay)
    (socket : relay.websocket.closed = false) (gone : websocket.ready = false) :
    RelayInvariant ({ relay with websocket }.handleDisconnect .websocket) := by
  have started := started_of_socket invariant.consistent socket
  have changed : RelayConsistent { relay with websocket } :=
    invariant.consistent.withWebsocket
      (fun ready => by rw [gone] at ready; cases ready)
      fun closed => by rw [started] at closed; cases closed
  by_cases primary : relay.activeTransport = some .websocket
  · rw [handleDisconnect_primary]
    case started => exact started
    case primary => exact primary
    refine ⟨(changed.armed armFallback_armed).deactivate ?_ ?_, ?_,
      fun _ _ => armFallback_covered (by exact started)⟩
    · rw [armFallback_armed.active]
      exact primary
    · apply http_quiet (changed.armed armFallback_armed)
      rw [armFallback_armed.active]
      exact fun https => by simp [primary] at https
    · refine ⟨fun ready => ?_, nofun⟩
      rw [deactivate, notify, armFallback_armed.websocket] at ready
      rw [show websocket.ready = true from ready] at gone
      cases gone
  · rw [handleDisconnect_secondary]
    case started => exact started
    case secondary => exact primary
    refine ⟨changed.armed armFallback_armed, ?_,
      fun _ _ => armFallback_covered (by exact started)⟩
    rw [Primary, armFallback_armed.websocket, armFallback_armed.active]
    exact ⟨fun ready => by simp [gone] at ready,
      fun active => absurd active primary⟩

theorem RelayInvariant.stopFallback (invariant : RelayInvariant relay)
    (primary : relay.activeTransport = some .websocket) :
    RelayInvariant relay.stopFallback where
  consistent := invariant.consistent.stopFallback
  primary := invariant.primary
  fallback := fun _ inactive => absurd primary inactive

theorem RelayInvariant.httpReady (invariant : RelayInvariant relay)
    {http : HttpTransport} (closed : http.closed = relay.http.closed)
    (ready : http.ready = true → http.closed = false) :
    RelayInvariant ({ relay with http }.handleReady .https) := by
  simp only [handleReady]
  split
  case isTrue stopped =>
    have quiet : http.ready = true → http.closed = false ∧
        relay.activeTransport = some .https := by
      intro known
      have opened := ready known
      rw [closed, (invariant.consistent.stopped stopped).2.2.1] at opened
      cases opened
    refine ⟨invariant.consistent.withHttp quiet ?_, invariant.primary, ?_⟩
    · intro stopped
      rw [closed]
      exact (invariant.consistent.stopped stopped).2.2.1
    · intro started
      rw [show relay.closed = false from started] at stopped
      cases stopped
  case isFalse started =>
    rw [Bool.not_eq_true] at started
    have contrary {goal : Prop} (stopped : relay.closed = true) : goal := by
      rw [show relay.closed = false from started] at stopped
      cases stopped
    split
    case isTrue socket =>
      have primary := active_of_websocketReady invariant socket
      have silent : http.stop.ready = false := stop_ready ready
      refine ⟨?_, invariant.primary, fun _ inactive => absurd primary inactive⟩
      exact (invariant.consistent.withHttp
        (fun running => by rw [silent] at running; cases running)
        fun _ => stop_closed _).clearFallbackTimer
    case isFalse socket =>
      rw [Bool.not_eq_true] at socket
      have quiet : relay.websocket.ready = false := socket
      have reordered : ({ relay with http }).activate .https =
          { relay.activate .https with http } := by
        simp only [activate]
        split <;> rfl
      rw [reordered]
      refine ⟨(invariant.consistent.activate started fun _ => rfl).withHttp
        (fun known => ⟨ready known, activate_active⟩)
        (fun stopped => contrary (activate_closed ▸ stopped)), ?_, ?_⟩
      · rw [Primary, activate_websocket, activate_active]
        simp [quiet]
      · intro _ _
        have inactive : relay.activeTransport ≠ some .websocket :=
          fun primary => by simp [invariant.primary.mpr primary] at quiet
        rw [Covered, activate_fallbackTimer, closed]
        exact invariant.fallback started inactive

theorem RelayInvariant.httpDisconnected (invariant : RelayInvariant relay) :
    RelayInvariant ({ relay with
      http := relay.http.resetSession }.handleDisconnect .https) := by
  have reset := invariant.consistent.reset
  have kept : RelayInvariant { relay with http := relay.http.resetSession } :=
    ⟨reset, invariant.primary, invariant.fallback⟩
  simp only [handleDisconnect]
  split
  case isTrue => exact kept
  case isFalse =>
    split
    case isTrue active =>
      rw [beq_iff_eq] at active
      refine ⟨reset.deactivate active rfl, ⟨fun ready => ?_, nofun⟩,
        fun started _ => ?_⟩
      · rw [invariant.primary.mp ready] at active
        cases active
      · apply invariant.fallback started
        rw [active]
        nofun
    case isFalse => exact kept

theorem RelayInvariant.fireFallback (invariant : RelayInvariant relay) :
    RelayInvariant relay.fireFallback := by
  simp only [ResilientRelayConnection.fireFallback]
  split
  case h_1 => exact invariant
  case h_2 timer armed =>
    have started : relay.closed = false := by
      cases closed : relay.closed with
      | false => rfl
      | true =>
        rw [(invariant.consistent.stopped closed).2.2.2] at armed
        cases armed
    have cleared := invariant.consistent.clearFallbackTimer
    split
    case isTrue skipped =>
      refine ⟨cleared, invariant.primary, fun _ inactive => ?_⟩
      have quiet := websocket_quiet invariant inactive
      simp [clearFallbackTimer, started, quiet] at skipped
    case isFalse =>
      refine ⟨cleared.withHttp ?_ ?_, invariant.primary,
        fun _ _ => .inl (start_closed _ _)⟩
      · intro ready
        exact ⟨start_closed _ _,
          (invariant.consistent.https (start_ready ready).1).2⟩
      · intro closed
        rw [show relay.closed = true from closed] at started
        cases started

/-- A send records a message, or it changes nothing. -/
def Recorded (relay after : ResilientRelayConnection) : Prop :=
  after = relay ∨ ∃ message transport, after = relay.record message transport ∧
    (relay.activeTransport = some transport ∨
      WebSocketTransport.preReadyControl message = true)

theorem RelayInvariant.recorded (invariant : RelayInvariant relay)
    {after : ResilientRelayConnection} (sent : Recorded relay after) :
    RelayInvariant after := by
  rcases sent with rfl | ⟨message, transport, rfl, known⟩
  · exact invariant
  · exact ⟨invariant.consistent.record known, invariant.primary,
      invariant.fallback⟩

theorem send_recorded (message : OutgoingMessage) :
    Recorded relay (relay.send message) := by
  rw [ResilientRelayConnection.send]
  split
  case h_1 active | h_2 active =>
    split
    case isTrue => exact .inr ⟨message, _, rfl, .inl active⟩
    case isFalse => exact .inl rfl
  case h_3 => exact .inl rfl

theorem http_preReadyControl
    (control : HttpTransport.preReadyControl message = true) :
    WebSocketTransport.preReadyControl message = true := by
  simp only [HttpTransport.preReadyControl, WebSocketTransport.preReadyControl,
    contains_eq_mem, decide_eq_true_eq, mem_cons, not_mem_nil] at control ⊢
  tauto

theorem RelayInvariant.sendForSession_recorded
    (invariant : RelayInvariant relay) (message : OutgoingMessage)
    (sessionId : Nat) :
    Recorded relay (relay.sendForSession message sessionId) := by
  rw [ResilientRelayConnection.sendForSession]
  split
  case isTrue =>
    split
    case isTrue accepted =>
      refine .inr ⟨message, _, rfl, ?_⟩
      simp only [HttpTransport.accepts, Bool.and_eq_true,
        Bool.or_eq_true] at accepted
      rcases accepted.2 with ready | control
      · exact .inl (invariant.consistent.https ready).2
      · exact .inr (http_preReadyControl control)
    case isFalse => exact .inl rfl
  case isFalse =>
    split
    case isTrue accepted =>
      refine .inr ⟨message, _, rfl, ?_⟩
      simp only [WebSocketTransport.accepts, Bool.and_eq_true,
        Bool.or_eq_true] at accepted
      rcases accepted.2 with ready | control
      · exact .inl (invariant.primary.mp ready)
      · exact .inr control
    case isFalse => exact .inl rfl

theorem RelayInvariant.handleDegraded (invariant : RelayInvariant relay) :
    RelayInvariant relay.handleDegraded := by
  rw [ResilientRelayConnection.handleDegraded]
  split
  case isTrue => exact invariant
  case isFalse => exact invariant.armFallback

theorem RelayInvariant.handleRecovered (invariant : RelayInvariant relay) :
    RelayInvariant relay.handleRecovered := by
  rw [ResilientRelayConnection.handleRecovered]
  split
  case isTrue => exact invariant
  case isFalse active =>
    simp only [Bool.or_eq_true, not_or, bne_iff_ne, ne_eq, not_not] at active
    exact invariant.stopFallback active.2

theorem becomeReady_ready (consistent : RelayConsistent relay)
    (ready : relay.http.becomeReady.ready = true) :
    relay.http.closed = false := by
  cases closed : relay.http.closed with
  | false => rfl
  | true =>
    rw [HttpTransport.becomeReady, if_pos closed] at ready
    rw [(consistent.https ready).1] at closed
    cases closed

theorem RelayInvariant.step (invariant : RelayInvariant relay)
    (event : RelayEvent) : RelayInvariant (relay.step event) := by
  cases event with
  | start => exact invariant.start
  | stop => exact invariant.stop
  | websocketAuthenticated =>
    obtain ⟨closed, ready⟩ := websocketAuthenticate_fields relay.websocket
    refine ⟨invariant.consistent.withWebsocket ?_ ?_, ?_, invariant.fallback⟩
    · rw [closed, ready]
      exact invariant.consistent.websocket
    · rw [closed]
      exact fun stopped => (invariant.consistent.stopped stopped).2.1
    · show relay.websocket.authenticate.ready = true ↔ _
      rw [ready]
      exact invariant.primary
  | websocketReady =>
    rw [ResilientRelayConnection.step]
    split
    case isTrue => exact invariant
    case isFalse socket =>
      rw [Bool.not_eq_true] at socket
      apply invariant.websocketReady socket rfl
      exact (websocketAuthenticate_fields relay.websocket).1.trans socket
  | websocketDisconnected connectionId | websocketFailed =>
    rw [ResilientRelayConnection.step]
    split
    case isTrue => exact invariant
    case isFalse socket =>
      rw [Bool.not_eq_true] at socket
      exact invariant.websocketGone socket rfl
  | websocketDegraded => exact invariant.handleDegraded
  | websocketRecovered => exact invariant.handleRecovered
  | httpAuthenticated =>
    obtain ⟨closed, ready, -⟩ := httpAuthenticate_fields relay.http
    refine ⟨invariant.consistent.withHttp ?_ ?_, invariant.primary, ?_⟩
    · rw [closed, ready]
      exact invariant.consistent.https
    · rw [closed]
      exact fun stopped => (invariant.consistent.stopped stopped).2.2.1
    · show _ → _ → relay.http.authenticate.closed = false ∨ _
      rw [closed]
      exact invariant.fallback
  | httpReady =>
    apply invariant.httpReady (becomeReady_closed _)
    intro ready
    rw [becomeReady_closed]
    exact becomeReady_ready invariant.consistent ready
  | httpDisconnected => exact invariant.httpDisconnected
  | fallbackTimer => exact invariant.fireFallback
  | send message => exact invariant.recorded (send_recorded message)
  | sendForSession message sessionId =>
    exact invariant.recorded
      (invariant.sendForSession_recorded message sessionId)

end Operations

/-- A captured takeover is noted by the fallback which runs, or the timer will
hand it over. -/
structure Awaited (relay : ResilientRelayConnection) (connectionId : Text) :
    Prop where
  named : isConnectionId connectionId = true
  started : relay.closed = false
  quiet : relay.websocket.ready = false
  noted : relay.http.closed = false →
    relay.http.takeoverWebSocketConnectionId = connectionId ∧
      relay.fallbackTimer = none
  armed : relay.http.closed = true →
    ∃ delay, relay.fallbackTimer = some {
      delay
      takeoverWebSocket := true
      takeoverWebSocketConnectionId := connectionId
      allowReadyWebSocket := false }

structure WatchedInvariant (watched : Watched) : Prop where
  relay : RelayInvariant watched.relay
  active : ∀ transport, watched.relay.activeTransport = some transport →
    watched.up transport = true
  exclusive : watched.relay.activeTransport = some .websocket →
    watched.suspected = false →
    watched.relay.http.closed = true ∧ watched.relay.fallbackTimer = none
  takeover : ∀ connectionId, watched.captured = some connectionId →
    Awaited watched.relay connectionId

theorem watchedInvariant_initial (fallbackDelayMs : Nat) :
    WatchedInvariant (Watched.initial fallbackDelayMs) where
  relay := by
    refine ⟨⟨nofun, nofun, ?_, trivial, rfl, by simp [Watched.initial]⟩,
      ⟨nofun, nofun⟩, nofun⟩
    exact fun _ => ⟨rfl, rfl, rfl, rfl⟩
  active := nofun
  exclusive := nofun
  takeover := nofun

section Active

variable {relay : ResilientRelayConnection} {transport : Transport}

theorem start_active :
    relay.start.activeTransport = relay.activeTransport := by
  rw [ResilientRelayConnection.start]
  split
  case isTrue => rfl
  case isFalse => exact armFallback_armed.active

theorem Recorded.active {after : ResilientRelayConnection}
    (sent : Recorded relay after) :
    after.activeTransport = relay.activeTransport := by
  rcases sent with rfl | ⟨_, _, rfl, _⟩
  · rfl
  · rfl

theorem fireFallback_active :
    relay.fireFallback.activeTransport = relay.activeTransport := by
  simp only [ResilientRelayConnection.fireFallback]
  split
  case h_1 => rfl
  case h_2 =>
    split
    case isTrue => rfl
    case isFalse => rfl

theorem handleDegraded_active :
    relay.handleDegraded.activeTransport = relay.activeTransport := by
  rw [ResilientRelayConnection.handleDegraded]
  split
  case isTrue => rfl
  case isFalse => exact armFallback_armed.active

theorem handleRecovered_active :
    relay.handleRecovered.activeTransport = relay.activeTransport := by
  rw [ResilientRelayConnection.handleRecovered]
  split <;> rfl

theorem websocketGone_active (started : relay.closed = false) (active :
    (relay.handleDisconnect .websocket).activeTransport = some transport) :
    transport = .https ∧ relay.activeTransport = some transport := by
  by_cases primary : relay.activeTransport = some .websocket
  · rw [handleDisconnect_primary started primary] at active
    cases active
  · rw [handleDisconnect_secondary started primary,
      armFallback_armed.active] at active
    refine ⟨?_, active⟩
    cases transport with
    | websocket => exact absurd active primary
    | https => rfl

theorem httpGone_active (consistent : RelayConsistent relay)
    (active : (relay.handleDisconnect .https).activeTransport = some transport)
    : transport = .websocket ∧ relay.activeTransport = some transport := by
  simp only [handleDisconnect] at active
  split at active
  case isTrue closed =>
    rw [(consistent.stopped closed).1] at active
    cases active
  case isFalse =>
    split at active
    case isTrue => cases active
    case isFalse secondary =>
      refine ⟨?_, active⟩
      cases transport with
      | websocket => rfl
      | https => simp [active] at secondary

theorem httpReady_active
    (active : (relay.handleReady .https).activeTransport = some transport) :
    transport = .https ∨ relay.activeTransport = some transport := by
  simp only [handleReady] at active
  split at active
  case isTrue => exact .inr active
  case isFalse =>
    split at active
    case isTrue => exact .inr active
    case isFalse =>
      rw [activate_active] at active
      exact .inl (Option.some.inj active).symm

end Active

theorem WatchedInvariant.step_active (invariant : WatchedInvariant watched)
    (event : RelayEvent) {transport : Transport}
    (active : (watched.relay.step event).activeTransport = some transport) :
    (watched.step event).up transport = true := by
  have consistent := invariant.relay.consistent
  have before := invariant.active transport
  cases event with
  | start =>
    have kept := start_active.symm.trans active
    cases transport <;> exact before kept
  | stop =>
    rw [ResilientRelayConnection.step, ResilientRelayConnection.stop] at active
    split at active
    case isTrue => cases transport <;> exact before active
    case isFalse => cases active
  | websocketAuthenticated => cases transport <;> exact before active
  | websocketReady =>
    cases transport with
    | websocket => rfl
    | https =>
      rw [ResilientRelayConnection.step] at active
      split at active
      case isTrue => exact before active
      case isFalse socket =>
        rw [Bool.not_eq_true] at socket
        have started := started_of_socket consistent socket
        rw [handleReady_websocket] at active
        · rw [activate_active] at active
          cases active
        · exact started
  | websocketDisconnected connectionId | websocketFailed =>
    rw [ResilientRelayConnection.step] at active
    split at active
    case isTrue socket =>
      cases transport with
      | websocket =>
        rw [consistent.websocket (invariant.relay.primary.mpr active)]
          at socket
        cases socket
      | https => exact before active
    case isFalse socket =>
      rw [Bool.not_eq_true] at socket
      have started := started_of_socket consistent socket
      obtain ⟨rfl, kept⟩ := websocketGone_active (by exact started) active
      exact before kept
  | websocketDegraded =>
    have kept := handleDegraded_active.symm.trans active
    cases transport <;> exact before kept
  | websocketRecovered =>
    have kept := handleRecovered_active.symm.trans active
    cases transport <;> exact before kept
  | httpAuthenticated => cases transport <;> exact before active
  | httpReady =>
    cases transport with
    | websocket =>
      rcases httpReady_active active with other | kept
      · cases other
      · exact before kept
    | https => rfl
  | httpDisconnected =>
    obtain ⟨rfl, kept⟩ := httpGone_active consistent.reset active
    exact before kept
  | fallbackTimer =>
    have kept := fireFallback_active.symm.trans active
    cases transport <;> exact before kept
  | send message =>
    have kept := (send_recorded message).active.symm.trans active
    cases transport <;> exact before kept
  | sendForSession message sessionId =>
    have sent := invariant.relay.sendForSession_recorded message sessionId
    have kept := sent.active.symm.trans active
    cases transport <;> exact before kept

theorem Recorded.exclusive {relay after : ResilientRelayConnection}
    (sent : Recorded relay after)
    (active : after.activeTransport = some .websocket)
    (before : relay.activeTransport = some .websocket →
      relay.http.closed = true ∧ relay.fallbackTimer = none) :
    after.http.closed = true ∧ after.fallbackTimer = none := by
  rcases sent with rfl | ⟨_, _, rfl, _⟩
  · exact before active
  · exact before active

theorem WatchedInvariant.step_exclusive (invariant : WatchedInvariant watched)
    (event : RelayEvent)
    (active : (watched.relay.step event).activeTransport = some .websocket)
    (calm : (watched.step event).suspected = false) :
    (watched.relay.step event).http.closed = true ∧
    (watched.relay.step event).fallbackTimer = none := by
  have consistent := invariant.relay.consistent
  have before := invariant.exclusive
  cases event with
  | start =>
    rw [ResilientRelayConnection.step,
      ResilientRelayConnection.start] at active ⊢
    split at active
    case isTrue started =>
      rw [if_pos started]
      exact before active calm
    case isFalse closed =>
      rw [Bool.not_eq_true, Bool.not_eq_false'] at closed
      rw [armFallback_armed.active] at active
      cases (consistent.stopped closed).1.symm.trans active
  | stop =>
    rw [ResilientRelayConnection.step,
      ResilientRelayConnection.stop] at active ⊢
    split at active
    case isTrue closed =>
      rw [if_pos closed]
      exact before active calm
    case isFalse => cases active
  | websocketAuthenticated => exact before active calm
  | websocketReady =>
    rw [ResilientRelayConnection.step] at active ⊢
    split at active
    case isTrue socket =>
      rw [if_pos socket]
      apply before active
      simpa [Watched.step, Watched.suspicion, socket] using calm
    case isFalse socket =>
      rw [if_neg socket]
      rw [Bool.not_eq_true] at socket
      have started := started_of_socket consistent socket
      rw [handleReady_websocket]
      · rw [activate_http, activate_fallbackTimer]
        exact ⟨stop_closed _, rfl⟩
      · exact started
  | websocketDisconnected connectionId | websocketFailed =>
    rw [ResilientRelayConnection.step] at active ⊢
    split at active
    case isTrue socket =>
      rw [if_pos socket]
      exact before active calm
    case isFalse socket =>
      rw [Bool.not_eq_true] at socket
      have started := started_of_socket consistent socket
      cases (websocketGone_active (by exact started) active).1
  | websocketDegraded =>
    have kept := handleDegraded_active.symm.trans active
    simp [Watched.step, Watched.suspicion, kept] at calm
  | websocketRecovered =>
    have kept := handleRecovered_active.symm.trans active
    have started : watched.relay.closed = false := by
      cases closed : watched.relay.closed with
      | false => rfl
      | true => cases (consistent.stopped closed).1.symm.trans kept
    rw [ResilientRelayConnection.step,
      ResilientRelayConnection.handleRecovered, started, kept]
    exact ⟨stop_closed _, rfl⟩
  | httpAuthenticated =>
    obtain ⟨closed, timer⟩ := before active calm
    exact ⟨(httpAuthenticate_fields _).1.trans closed, timer⟩
  | httpReady =>
    simp only [ResilientRelayConnection.step, handleReady] at active ⊢
    split at active
    case isTrue closed =>
      rw [if_pos closed]
      obtain ⟨idle, timer⟩ := before active calm
      exact ⟨(becomeReady_closed _).trans idle, timer⟩
    case isFalse started =>
      rw [if_neg started]
      split at active
      case isTrue ready =>
        rw [if_pos ready]
        exact ⟨stop_closed _, rfl⟩
      case isFalse =>
        rw [activate_active] at active
        cases active
  | httpDisconnected =>
    obtain ⟨-, kept⟩ := httpGone_active consistent.reset active
    obtain ⟨idle, timer⟩ := before kept calm
    simp only [ResilientRelayConnection.step, handleDisconnect]
    split
    case isTrue => exact ⟨idle, timer⟩
    case isFalse => split <;> exact ⟨idle, timer⟩
  | fallbackTimer =>
    have kept := fireFallback_active.symm.trans active
    obtain ⟨idle, timer⟩ := before kept calm
    simp only [ResilientRelayConnection.step,
      ResilientRelayConnection.fireFallback, timer]
    exact ⟨idle, trivial⟩
  | send message => exact (send_recorded message).exclusive active (before · calm)
  | sendForSession message sessionId =>
    have sent := invariant.relay.sendForSession_recorded message sessionId
    exact sent.exclusive active (before · calm)

section Takeover

variable {relay after : ResilientRelayConnection} {connectionId : Text}

theorem Awaited.kept (awaited : Awaited relay connectionId) (started :
    after.closed = relay.closed) (quiet : after.websocket.ready =
    relay.websocket.ready) (running : after.http.closed = relay.http.closed)
    (noted : after.http.takeoverWebSocketConnectionId =
    relay.http.takeoverWebSocketConnectionId) (armed : after.fallbackTimer =
    relay.fallbackTimer) : Awaited after connectionId where
  named := awaited.named
  started := started.trans awaited.started
  quiet := quiet.trans awaited.quiet
  noted := by
    rw [running, noted, armed]
    exact awaited.noted
  armed := by
    rw [running, armed]
    exact awaited.armed

theorem Awaited.inactive (awaited : Awaited relay connectionId)
    (invariant : RelayInvariant relay) :
    relay.activeTransport ≠ some .websocket := by
  intro active
  cases awaited.quiet.symm.trans (invariant.primary.mpr active)

theorem Awaited.armFallback (awaited : Awaited relay connectionId)
    {delay : Nat} {allowReadyWebSocket : Bool} :
    relay.armFallback delay [] allowReadyWebSocket = relay := by
  rw [ResilientRelayConnection.armFallback]
  simp only [awaited.started, Bool.false_eq_true, if_false]
  split
  case isTrue => rfl
  case isFalse idle =>
    rw [Bool.not_eq_true, Bool.not_eq_false'] at idle
    obtain ⟨_, armed⟩ := awaited.armed idle
    simp [armed]

theorem Awaited.websocketGone (awaited : Awaited relay connectionId)
    (invariant : RelayInvariant relay) {websocket : WebSocketTransport}
    (gone : websocket.ready = false) :
    Awaited ({ relay with websocket }.handleDisconnect .websocket)
      connectionId := by
  have kept : Awaited { relay with websocket } connectionId :=
    awaited.kept rfl (gone.trans awaited.quiet.symm) rfl rfl rfl
  rw [handleDisconnect_secondary]
  · rw [kept.armFallback]
    exact kept
  · exact awaited.started
  · exact awaited.inactive invariant

theorem awaited_captured (started : relay.closed = false)
    (primary : relay.activeTransport = some .websocket)
    (quiet : relay.websocket.ready = false)
    (unarmed : relay.fallbackTimer = none)
    (named : isConnectionId relay.websocket.lastDisconnectedConnectionId = true)
    : Awaited (relay.handleDisconnect .websocket)
    relay.websocket.lastDisconnectedConnectionId := by
  rw [handleDisconnect_primary started primary,
    ResilientRelayConnection.armFallback]
  simp only [named, unarmed, if_true, Option.isSome_none, Bool.false_eq_true,
    if_false]
  split
  case isTrue closed => simp [started] at closed
  split
  case isTrue =>
    exact ⟨named, started, quiet, fun _ => ⟨start_takeover named, rfl⟩,
      fun idle => by simp [deactivate, notify] at idle⟩
  case isFalse idle =>
    refine ⟨named, started, quiet, fun running => ?_, fun _ => ⟨0, rfl⟩⟩
    simp [show relay.http.closed = false from running] at idle

theorem Awaited.fireFallback (awaited : Awaited relay connectionId) :
    Awaited relay.fireFallback connectionId := by
  cases running : relay.http.closed with
  | false =>
    have unarmed := (awaited.noted running).2
    simp only [ResilientRelayConnection.fireFallback, unarmed]
    exact awaited
  | true =>
    obtain ⟨delay, armed⟩ := awaited.armed running
    simp only [ResilientRelayConnection.fireFallback, armed,
      clearFallbackTimer, awaited.started, awaited.quiet, if_true,
      Bool.and_false, Bool.or_false, Bool.false_eq_true, if_false]
    refine ⟨awaited.named, rfl, awaited.quiet,
      fun _ => ⟨start_takeover awaited.named, rfl⟩, ?_⟩
    intro idle
    rw [start_closed] at idle
    cases idle

theorem Awaited.recorded (awaited : Awaited relay connectionId)
    (sent : Recorded relay after) : Awaited after connectionId := by
  rcases sent with rfl | ⟨_, _, rfl, _⟩
  · exact awaited
  · exact awaited.kept rfl rfl rfl rfl rfl

theorem Awaited.httpReady (awaited : Awaited relay connectionId) :
    Awaited (relay.step .httpReady) connectionId := by
  have kept : Awaited { relay with http := relay.http.becomeReady }
      connectionId :=
    awaited.kept rfl rfl (becomeReady_closed _) (becomeReady_takeover _) rfl
  simp only [ResilientRelayConnection.step, handleReady]
  split
  case isTrue => exact kept
  case isFalse =>
    split
    case isTrue ready => cases awaited.quiet.symm.trans ready
    case isFalse =>
      exact kept.kept activate_closed (by rw [activate_websocket])
        (by rw [activate_http]) (by rw [activate_http]) activate_fallbackTimer

theorem Awaited.httpDisconnected (awaited : Awaited relay connectionId) :
    Awaited (relay.step .httpDisconnected) connectionId := by
  simp only [ResilientRelayConnection.step, handleDisconnect]
  split
  case isTrue => exact awaited.kept rfl rfl rfl rfl rfl
  case isFalse => split <;> exact awaited.kept rfl rfl rfl rfl rfl

end Takeover

section

variable (invariant : WatchedInvariant watched)
include invariant

theorem WatchedInvariant.websocketGone_takeover
    {websocket : WebSocketTransport}
    (gone : websocket.ready = false)
    (captured : ((some websocket.lastDisconnectedConnectionId).filter
      fun connectionId => isConnectionId connectionId &&
        watched.relay.activeTransport == some .websocket &&
        watched.relay.fallbackTimer.isNone).or watched.captured =
          some connectionId) :
    Awaited (if watched.relay.websocket.closed then watched.relay
      else { watched.relay with websocket }.handleDisconnect .websocket)
      connectionId := by
  rw [Option.filter_some] at captured
  split at captured
  case isTrue taken =>
    simp only [Bool.and_eq_true, beq_iff_eq, Option.isNone_iff_eq_none] at taken
    obtain ⟨⟨named, primary⟩, unarmed⟩ := taken
    cases captured
    have socket := invariant.relay.consistent.websocket
      (invariant.relay.primary.mpr primary)
    have started := started_of_socket invariant.relay.consistent socket
    rw [socket]
    exact awaited_captured (by exact started) primary gone unarmed named
  case isFalse =>
    have awaited := invariant.takeover connectionId captured
    split
    case isTrue => exact awaited
    case isFalse => exact awaited.websocketGone invariant.relay gone

theorem WatchedInvariant.step_takeover (event : RelayEvent)
    (captured : (watched.step event).captured = some connectionId) :
    Awaited (watched.relay.step event) connectionId := by
  have before := invariant.takeover connectionId
  cases event with
  | start =>
    have awaited := before captured
    rw [ResilientRelayConnection.step, ResilientRelayConnection.start,
      awaited.started]
    exact awaited
  | stop => cases captured
  | websocketAuthenticated =>
    exact (before captured).kept rfl (websocketAuthenticate_fields _).2 rfl
      rfl rfl
  | websocketReady =>
    rw [ResilientRelayConnection.step]
    simp only [Watched.step, Watched.awaits] at captured
    split
    case isTrue socket =>
      rw [if_pos socket] at captured
      exact before captured
    case isFalse socket =>
      rw [if_neg socket] at captured
      cases captured
  | websocketDisconnected name =>
    exact invariant.websocketGone_takeover rfl captured
  | websocketFailed =>
    apply invariant.websocketGone_takeover rfl
    have same := close_unnamed watched.relay.websocket
    rw [show WebSocketTransport.lastDisconnectedConnectionId _ = _ from same]
    exact captured
  | websocketDegraded =>
    have awaited := before captured
    have inactive := awaited.inactive invariant.relay
    rw [ResilientRelayConnection.step, ResilientRelayConnection.handleDegraded]
    simpa [inactive] using awaited
  | websocketRecovered =>
    have awaited := before captured
    have inactive := awaited.inactive invariant.relay
    rw [ResilientRelayConnection.step,
      ResilientRelayConnection.handleRecovered]
    simpa [inactive] using awaited
  | httpAuthenticated =>
    obtain ⟨closed, -, noted⟩ := httpAuthenticate_fields watched.relay.http
    exact (before captured).kept rfl rfl closed noted rfl
  | httpReady => exact (before captured).httpReady
  | httpDisconnected => exact (before captured).httpDisconnected
  | fallbackTimer => exact (before captured).fireFallback
  | send message => exact (before captured).recorded (send_recorded message)
  | sendForSession message sessionId =>
    exact (before captured).recorded
      (invariant.relay.sendForSession_recorded message sessionId)

theorem failedOver_of_invariant : FailedOver watched where
  __ := invariant.relay.consistent
  __ := invariant
  __ := invariant.relay
  takeover := fun connectionId captured =>
    fun running => ((invariant.takeover connectionId captured).noted running).1

end

theorem WatchedInvariant.step (invariant : WatchedInvariant watched)
    (event : RelayEvent) : WatchedInvariant (watched.step event) where
  relay := invariant.relay.step event
  active := fun _ active => invariant.step_active event active
  exclusive := invariant.step_exclusive event
  takeover := fun _ captured => invariant.step_takeover event captured

/-- Without regard to stops: no two notifications of one kind in a row. -/
def strictlyAlternating : List Notification → Bool
  | .ready _ :: .ready _ :: _ => false
  | .disconnected _ :: .disconnected _ :: _ => false
  | _ :: earlier => strictlyAlternating earlier
  | [] => true

def notices (relay : ResilientRelayConnection) : List Notification :=
  relay.notifications.filter (· != .stopped)

/-- A stop is not notified, so the next start is followed by a second
readiness. -/
def restarted : Watched :=
  run Watched.step (Watched.initial 1500)
    [.start, .websocketReady, .stop, .start, .websocketReady]

end MachineBridge.Relay.Failover
