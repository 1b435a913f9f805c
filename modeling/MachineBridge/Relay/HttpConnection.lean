import MachineBridge.Relay.HttpController

/-!
# The daemon's side of an HTTPS relay session

`DaemonHttpRelayConnection` from one reset of the session to the next.  The
response handlers are coroutines: one that awaits a control message stays in
`handlers` and can overlap with the handler of a later exchange, because a
takeover gives up the exchange in flight.  `history` records what was enqueued,
dropped, handed to the message handler and committed.
-/

namespace MachineBridge.Relay

open Foundation List

variable {Content : Type}

/-- The exchange in flight: none, one that waits for its response, or one whose
response is being handled. -/
inductive InFlight where
  | idle
  | waiting (exchange : Nat)
  | handling (handler : Nat)
deriving DecidableEq

/-- A run of `handleResponse`: the message whose handler it awaits, and the
messages of the response that are left. -/
structure ResponseHandler (Content : Type) where
  awaiting : Option (Nat × WorkerMessage Content) := none
  remaining : List (Nat × WorkerMessage Content) := []

/-- Handing a message to the message handler, and its completion there. -/
inductive MessageHandling (Content : Type) where
  | handed (seq : Nat) (message : WorkerMessage Content)
  | completed (seq : Nat)

def MessageHandling.toolCallSeq? : MessageHandling Content → Option Nat
  | .handed seq message => if message.isToolCall then some seq else none
  | .completed _ => none

/-- What happened in the session on the daemon's side. -/
structure DaemonHistory (Content : Type) where
  adopted : Option Nat := none
  (enqueued dropped : List (DaemonMessage Content) := [])
  committed : List (WorkerMessage Content) := []
  handlings : List (MessageHandling Content) := []

structure DaemonHttpRelayConnection (Content : Type) where
  instanceId : String
  takeoverWebSocketConnectionId : Option String := none
  /-- The session was stopped or reset. -/
  ended : Bool := false
  (ready localReady authenticated : Bool := false)
  activationToken : Option Nat := none
  outbound : RelayOutboundSequence (DaemonMessage Content) := {}
  inbound : RelayInboundSequence := {}
  inFlight : InFlight := .idle
  handlers : List (ResponseHandler Content) := []
  history : DaemonHistory Content := {}

/-- What the daemon does with the connection on its own account, at any time
and from within the callbacks. -/
inductive LocalAction (Content : Type) where
  | send (value : DaemonMessage Content)
  | sendForSession (value : DaemonMessage Content)
  | confirmReady (matching : Bool)
  | takeover (connectionId : String)
  | interrupt

namespace DaemonHttpRelayConnection

variable (sizes : WireSizes Content)

def resetSession (connection : DaemonHttpRelayConnection Content) :
    DaemonHttpRelayConnection Content :=
  { connection with
    ended := true
    ready := false
    localReady := false
    authenticated := false
    activationToken := none
    outbound := .reset
    inbound := .reset }

/-- A full queue leaves the connection as it is. -/
def enqueue (connection : DaemonHttpRelayConnection Content)
    (value : DaemonMessage Content) : DaemonHttpRelayConnection Content :=
  match connection.outbound.enqueue sizes.daemonMessage value with
  | none => connection
  | some outbound =>
    { connection with
      outbound
      history := { connection.history with
        enqueued := connection.history.enqueued ++ [value] } }

section

variable (connection : DaemonHttpRelayConnection Content)

def send (value : DaemonMessage Content) : DaemonHttpRelayConnection Content :=
  if !connection.ready || connection.ended then connection
  else connection.enqueue sizes value

def preReadyControl : DaemonMessage Content → Bool
  | .resumeCallsAck _ => true
  | .authorityRevokeAck _ => true
  | _ => false

def sendForSession (value : DaemonMessage Content) :
    DaemonHttpRelayConnection Content :=
  if connection.ended || !connection.authenticated then connection
  else if !connection.ready && !preReadyControl value then connection
  else connection.enqueue sizes value

/-- When the readiness message does not fit, the source throws before it sets
`localReady`. -/
def confirmReady (matching : Bool) : DaemonHttpRelayConnection Content :=
  if connection.ended || !connection.authenticated || connection.localReady
  then connection
  else if !matching then connection.resetSession
  else
    match connection.outbound.enqueue sizes.daemonMessage .httpsReady with
    | none => connection
    | some _ => { connection.enqueue sizes .httpsReady with localReady := true }

/-- `start` with a takeover target while the session runs: a new target gives
up the exchange in flight. -/
def takeover (connectionId : String) : DaemonHttpRelayConnection Content :=
  if connection.ended then connection
  else if connection.takeoverWebSocketConnectionId = some connectionId then
    connection
  else { connection with
    takeoverWebSocketConnectionId := some connectionId
    inFlight := .idle }

def act : LocalAction Content → DaemonHttpRelayConnection Content
  | .send value => connection.send sizes value
  | .sendForSession value => connection.sendForSession sizes value
  | .confirmReady matching => connection.confirmReady sizes matching
  | .takeover connectionId => connection.takeover connectionId
  | .interrupt => connection.resetSession

def actAll (actions : List (LocalAction Content)) :
    DaemonHttpRelayConnection Content :=
  actions.foldl (act sizes) connection

/-- The request of a poll.  `availableBytes` is what the fixed fields leave of
the envelope. -/
def request (availableBytes : Int) : DaemonHttpExchange Content where
  instanceId := connection.instanceId
  activationToken := connection.activationToken
  ackWorkerSeq := connection.inbound.acknowledged
  takeoverWebSocketConnectionId := connection.takeoverWebSocketConnectionId
  messages := connection.outbound.snapshot sizes.daemonEntry availableBytes

/-- `handleFailure`: a ready session whose liveness has expired is reset. -/
def handleFailure (expired : Bool) : DaemonHttpRelayConnection Content :=
  if connection.ready && expired then connection.resetSession
  else { connection with inFlight := .idle }

end

/-- `validResponse` on the fields the Worker fills in. -/
def validResponse (phase : RelayPhase) (activationToken : Option Nat)
    (ackDaemonSeq : Nat) (messages : List (Nat × WorkerMessage Content)) :
    Bool :=
  isSafeInteger ackDaemonSeq && decide (messages.length ≤ 64) &&
    (phase == .standby || activationToken.isSome) &&
    messages.all fun message =>
      isSafeInteger message.1 && decide (0 < message.1)

def acknowledge (connection : DaemonHttpRelayConnection Content)
    (sequence : Nat) : Option (DaemonHttpRelayConnection Content) :=
  (connection.outbound.acknowledge sequence).map fun outbound =>
    { connection with
      outbound
      history := { connection.history with
        dropped := connection.history.dropped ++
          (connection.outbound.removed sequence).map Entry.payload } }

section

variable (connection : DaemonHttpRelayConnection Content)

/-- The first successful response authenticates the session. -/
def authenticate (activationToken : Option Nat) :
    DaemonHttpRelayConnection Content :=
  if connection.authenticated then connection
  else { connection with
    authenticated := true
    activationToken
    history := { connection.history with adopted := activationToken } }

/-- `onReady` runs once both sides are ready. -/
def becomeReady (phase : RelayPhase) (effects : List (LocalAction Content)) :
    DaemonHttpRelayConnection Content :=
  if phase == .ready && connection.localReady && !connection.ready then
    { connection with ready := true }.actAll sizes effects
  else connection

/-- The part of `handleResponse` before its loop; the loop becomes a handler of
its own. -/
def handleResponse (effects : List (LocalAction Content)) (expired : Bool) :
    RelayResponse Content → DaemonHttpRelayConnection Content
  | .failure => connection.handleFailure expired
  | .conflict => connection.resetSession
  | .envelope phase activationToken ackDaemonSeq messages =>
    if !validResponse phase activationToken ackDaemonSeq messages then
      connection.resetSession
    else
      match connection.acknowledge ackDaemonSeq with
      | none => connection.resetSession
      | some acknowledged =>
        if phase == .standby then acknowledged.resetSession
        else
          let opened : DaemonHttpRelayConnection Content :=
            { acknowledged.authenticate activationToken with
              inFlight := .handling acknowledged.handlers.length
              handlers := acknowledged.handlers ++
                [{ remaining := messages }] }
          opened.becomeReady sizes phase effects

/-- A handler that returned leaves no exchange in flight. -/
def finishHandler (handler : Nat) : DaemonHttpRelayConnection Content :=
  { connection with
    handlers := connection.handlers.set handler {}
    inFlight := if connection.inFlight = .handling handler then .idle
      else connection.inFlight }

def logHandling (handling : MessageHandling Content) :
    DaemonHttpRelayConnection Content :=
  { connection with
    history := { connection.history with
      handlings := connection.history.handlings ++ [handling] } }

/-- A handler commits the message it completed and goes on.  When the number
is no longer the next one the source throws, and only the handler of the
exchange in flight reports that failure. -/
def commitMessage (handler seq : Nat) (message : WorkerMessage Content)
    (remaining : List (Nat × WorkerMessage Content)) (expired : Bool) :
    DaemonHttpRelayConnection Content :=
  match connection.inbound.commit seq with
  | some inbound =>
    { connection with
      inbound
      handlers := connection.handlers.set handler { remaining }
      history := { connection.history with
        committed := connection.history.committed ++ [message] } }
  | none =>
    if connection.inFlight = .handling handler then
      (connection.finishHandler handler).handleFailure expired
    else connection.finishHandler handler

/-- `handleRelayData` throws at once only for a message that is too large; the
runtime's `handleMessage` is asynchronous. -/
def maxRelayMessageBytes : Nat := 8388608

/-- One round of the loop of `handleResponse`. -/
def advanceHandler (handler : Nat) (effects : List (LocalAction Content))
    (threw : Bool) : DaemonHttpRelayConnection Content :=
  if connection.ended then connection
  else match connection.handlers[handler]? with
  | some ⟨none, []⟩ => connection.finishHandler handler
  | some ⟨none, (seq, message) :: remaining⟩ =>
    match connection.inbound.classify seq with
    | .duplicate =>
      { connection with
        handlers := connection.handlers.set handler { remaining } }
    | .gap => connection.resetSession
    | .new =>
      let after := (connection.logHandling
        (.handed seq message)).actAll sizes effects
      if after.ended then after
      else if threw &&
          decide (maxRelayMessageBytes < sizes.workerMessage message) then
        after.finishHandler handler
      else if message.isToolCall then
        (after.logHandling (.completed seq)).commitMessage handler seq
          message remaining false
      else
        { after with
          handlers := after.handlers.set handler
            { awaiting := some (seq, message), remaining } }
  | _ => connection

def settleHandler (handler : Nat) (fulfilled expired : Bool) :
    DaemonHttpRelayConnection Content :=
  if connection.ended then connection
  else match connection.handlers[handler]? with
  | some ⟨some (seq, message), remaining⟩ =>
    if fulfilled then
      (connection.logHandling (.completed seq)).commitMessage handler seq
        message remaining expired
    else connection.finishHandler handler
  | _ => connection

end

/-- What local actions can do: enqueue messages, give up the exchange in
flight, or end the session. -/
structure Acts (connection next : DaemonHttpRelayConnection Content) :
    Prop where
  enqueued_isPrefix :
    connection.history.enqueued <+: next.history.enqueued
  history_eq : next.history =
    { connection.history with enqueued := next.history.enqueued }
  handlers_eq : next.handlers = connection.handlers
  inFlight_eq : next.inFlight = connection.inFlight ∨ next.inFlight = .idle
  open_before : next.ended = false → connection.ended = false
  inbound_eq : next.ended = false → next.inbound = connection.inbound
  token_eq : next.ended = false →
    next.activationToken = connection.activationToken
  authenticated_eq : next.ended = false →
    next.authenticated = connection.authenticated
  acknowledged_eq : next.ended = false →
    next.outbound.acknowledged = connection.outbound.acknowledged
  carries : next.ended = false →
    connection.outbound.Carries sizes.daemonMessage
      connection.history.enqueued →
    next.outbound.Carries sizes.daemonMessage next.history.enqueued

variable {sizes}

namespace Acts

theorem refl (connection : DaemonHttpRelayConnection Content) :
    Acts sizes connection connection :=
  ⟨prefix_rfl, rfl, rfl, .inl rfl, id, fun _ => rfl, fun _ => rfl,
    fun _ => rfl, fun _ => rfl, fun _ => id⟩

theorem trans {first second third : DaemonHttpRelayConnection Content}
    (left : Acts sizes first second) (right : Acts sizes second third) :
    Acts sizes first third where
  enqueued_isPrefix := left.enqueued_isPrefix.trans right.enqueued_isPrefix
  history_eq := by rw [right.history_eq, left.history_eq]
  handlers_eq := right.handlers_eq.trans left.handlers_eq
  inFlight_eq := by
    rcases right.inFlight_eq with same | idle
    · rw [same]
      exact left.inFlight_eq
    · exact .inr idle
  open_before := fun live => left.open_before (right.open_before live)
  inbound_eq := fun live =>
    (right.inbound_eq live).trans (left.inbound_eq (right.open_before live))
  token_eq := fun live =>
    (right.token_eq live).trans (left.token_eq (right.open_before live))
  authenticated_eq := fun live =>
    (right.authenticated_eq live).trans
      (left.authenticated_eq (right.open_before live))
  acknowledged_eq := fun live =>
    (right.acknowledged_eq live).trans
      (left.acknowledged_eq (right.open_before live))
  carries := fun live kept =>
    right.carries live (left.carries (right.open_before live) kept)

end Acts

section

variable (connection : DaemonHttpRelayConnection Content)

theorem resetSession_acts : Acts sizes connection connection.resetSession :=
  ⟨prefix_rfl, rfl, rfl, .inl rfl, nofun, nofun, nofun, nofun, nofun, nofun⟩

theorem enqueue_acts (value : DaemonMessage Content) :
    Acts sizes connection (connection.enqueue sizes value) := by
  unfold enqueue
  split
  case h_1 => exact .refl connection
  case h_2 outbound accepted =>
    have queue := RelayOutboundSequence.enqueue_toQueue
      sizes.daemonMessage accepted
    refine ⟨prefix_append _ _, rfl, rfl, .inl rfl, id, fun _ => rfl,
      fun _ => rfl, fun _ => rfl, fun _ => ?_, fun _ carries => ?_⟩
    · simp [queue, Queue.push]
    · rw [queue]
      exact carries.push value

theorem act_acts (action : LocalAction Content) :
    Acts sizes connection (connection.act sizes action) := by
  cases action with
  | send value =>
    simp only [act, send]
    split
    · exact .refl connection
    · exact enqueue_acts connection value
  | sendForSession value =>
    simp only [act, sendForSession]
    split
    · exact .refl connection
    · split
      · exact .refl connection
      · exact enqueue_acts connection value
  | confirmReady matching =>
    simp only [act, confirmReady]
    split
    · exact .refl connection
    · split
      · exact resetSession_acts connection
      · split
        case h_1 => exact .refl connection
        case h_2 =>
          have queued :
              Acts sizes connection (connection.enqueue sizes .httpsReady) :=
            enqueue_acts connection .httpsReady
          exact ⟨queued.enqueued_isPrefix, queued.history_eq,
            queued.handlers_eq, queued.inFlight_eq, queued.open_before,
            queued.inbound_eq, queued.token_eq, queued.authenticated_eq,
            queued.acknowledged_eq, queued.carries⟩
  | takeover connectionId =>
    simp only [act, takeover]
    split
    · exact .refl connection
    · split
      · exact .refl connection
      · exact ⟨prefix_rfl, rfl, rfl, .inr rfl, id, fun _ => rfl,
          fun _ => rfl, fun _ => rfl, fun _ => rfl, fun _ => id⟩
  | interrupt => exact resetSession_acts connection

theorem actAll_acts (actions : List (LocalAction Content)) :
    Acts sizes connection (connection.actAll sizes actions) := by
  induction actions generalizing connection with
  | nil => exact .refl connection
  | cons action actions induction =>
    exact (act_acts connection action).trans (induction _)

theorem becomeReady_acts (phase : RelayPhase)
    (effects : List (LocalAction Content)) :
    Acts sizes connection (connection.becomeReady sizes phase effects) := by
  unfold becomeReady
  split
  · have ready : Acts sizes connection { connection with ready := true } :=
      ⟨prefix_rfl, rfl, rfl, .inl rfl, id, fun _ => rfl, fun _ => rfl,
        fun _ => rfl, fun _ => rfl, fun _ => id⟩
    exact ready.trans (actAll_acts _ effects)
  · exact .refl connection

@[simp] theorem authenticate_handlers (activationToken : Option Nat) :
    (connection.authenticate activationToken).handlers =
    connection.handlers := by
  unfold authenticate
  split <;> rfl

end

end DaemonHttpRelayConnection

end MachineBridge.Relay
