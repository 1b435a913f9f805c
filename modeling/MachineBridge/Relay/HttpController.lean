import MachineBridge.Relay.HttpChannel

/-!
# The Worker's side of an HTTPS exchange

`handleDaemonHttpRelay` for the requests of one transport session.  What the
request does not decide (other sessions, WebSocket candidates, storage, and the
outcome of handling a message) is an `ExchangeEnvironment`.  An exchange is
processed as one step.
-/

namespace MachineBridge.Relay

open Foundation

variable {Content : Type}

structure DaemonHttpExchange (Content : Type) where
  instanceId : String
  activationToken : Option Nat
  ackWorkerSeq : Nat
  takeoverWebSocketConnectionId : Option String
  messages : List (Nat × DaemonMessage Content)

inductive RelayPhase where
  | probing
  | ready
  | standby
deriving DecidableEq

/-- `conflict` is status 409 and `failure` any other unsuccessful status. -/
inductive RelayResponse (Content : Type) where
  | envelope (phase : RelayPhase) (activationToken : Option Nat)
      (ackDaemonSeq : Nat) (messages : List (Nat × WorkerMessage Content))
  | conflict
  | failure

/-- How the handling of a daemon message ended: accepted, refused, or cut short
by an exception.  Messages may have been sent to the channel meanwhile. -/
inductive Handling (Content : Type) where
  | ok (sends : List (WorkerMessage Content))
  | invalid
  | threw (sends : List (WorkerMessage Content))

/-- The daemon messages handed on for handling, and those whose handling was
cut short, which leaves them with the daemon. -/
structure HandlingLog (Content : Type) where
  (handed interrupted : List (DaemonMessage Content) := [])

namespace HandlingLog

section

variable (log : HandlingLog Content)

def hand (payload : DaemonMessage Content) : HandlingLog Content :=
  { log with handed := log.handed ++ [payload] }

def interrupt (payload : DaemonMessage Content) : HandlingLog Content :=
  { log with interrupted := log.interrupted ++ [payload] }

end

end HandlingLog

/-- What the processing of the messages of a request leads to. -/
inductive Accepted (Content : Type) where
  | continued (channel : DaemonHttpChannel Content)
  | invalidated (channel : DaemonHttpChannel Content)
  | threw (channel : DaemonHttpChannel Content)

def Accepted.channel : Accepted Content → DaemonHttpChannel Content
  | .continued channel => channel
  | .invalidated channel => channel
  | .threw channel => channel

/-- `handleReadyDaemonMessage` knows no `https_ready` and refuses a resume
acknowledgement on a channel that is not ready.  Every other outcome depends on
state outside the channel. -/
def handlingOf (ready : Bool) (payload : DaemonMessage Content)
    (handlings : List (Handling Content)) : Handling Content :=
  match payload with
  | .httpsReady => .invalid
  | .resumeCallsAck _ =>
    if ready then handlings.head?.getD (.ok []) else .invalid
  | _ => handlings.head?.getD (.ok [])

/-- The loop over the messages of a request.  `probing` is the loop of a
channel that was not ready when the request arrived. -/
def acceptMessages (sizes : WireSizes Content) (probing : Bool) :
    DaemonHttpChannel Content → HandlingLog Content →
      List (Nat × DaemonMessage Content) → List (Handling Content) →
      Accepted Content × HandlingLog Content
  | channel, log, [], _ => (.continued channel, log)
  | channel, log, (seq, payload) :: messages, handlings =>
    match channel.acceptDaemonSequence seq with
    | .duplicate => acceptMessages sizes probing channel log messages handlings
    | .gap => (.invalidated channel, log)
    | .new =>
      if probing && payload.isHttpsReady then
        if !channel.handshake.offered ||
            !channel.outbound.messages.isEmpty then
          (.invalidated channel, log)
        else
          acceptMessages sizes probing
            (channel.verifyReady.commitDaemonSequence seq)
            (log.hand payload) messages handlings
      else
        match handlingOf channel.verifiedReady payload handlings with
        | .ok sends =>
          acceptMessages sizes probing
            (((channel.process payload).trySendAll sizes
              sends).commitDaemonSequence seq)
            (log.hand payload) messages handlings.tail
        | .invalid => (.invalidated channel, log.hand payload)
        | .threw sends =>
          (.threw ((channel.process payload).trySendAll sizes sends),
            log.interrupt payload)

/-- What an exchange reads besides the session itself. -/
structure ExchangeEnvironment (Content : Type) where
  authorized : Bool := true
  otherInstanceReady : Bool := false
  /-- Instance and connection of every ready WebSocket. -/
  readySockets : List (String × String) := []
  candidateCapacity : Bool := true
  reboundCallIds : List String := []
  revocations : List AuthorityRevocationRecord := []
  handlings : List (Handling Content) := []

/-- The Worker's state for one transport session: the channel the registry
holds, and what was queued on every channel it ever held. -/
structure HttpRelayWorker (Content : Type) where
  (server version : String)
  channel : Option (DaemonHttpChannel Content) := none
  nextToken : Nat := 0
  histories : Nat → ChannelHistory Content := fun _ => {}
  log : HandlingLog Content := {}

namespace HttpRelayWorker

section

variable (worker : HttpRelayWorker Content)

/-- The registry holds the current state of a channel. -/
def put (channel : DaemonHttpChannel Content) : HttpRelayWorker Content :=
  { worker with
    channel := some channel
    histories := Function.update worker.histories channel.activationToken
      channel.history }

def close : HttpRelayWorker Content :=
  { worker with channel := none }

end

end HttpRelayWorker

/-- The part of `normalizeDaemonHttpExchange` a daemon can violate. -/
def normalizeDaemonHttpExchange (exchange : DaemonHttpExchange Content) :
    Bool :=
  isSafeInteger exchange.ackWorkerSeq &&
    decide (exchange.messages.length ≤ 64) &&
    exchange.messages.all fun message =>
      isSafeInteger message.1 && decide (0 < message.1)

def takesOver (environment : ExchangeEnvironment Content)
    (exchange : DaemonHttpExchange Content) : Bool :=
  match exchange.takeoverWebSocketConnectionId with
  | none => false
  | some connectionId =>
    match environment.readySockets.find? (·.2 == connectionId) with
    | none => false
    | some target =>
      environment.readySockets.length == 1 &&
        target.1 == exchange.instanceId

section

variable (sizes : WireSizes Content)

/-- The end of a successful exchange: the handshake advances, and the response
carries the channel's queue.  When the handshake throws, the exchange fails. -/
def finishExchange (environment : ExchangeEnvironment Content)
    (worker : HttpRelayWorker Content) (channel : DaemonHttpChannel Content) :
    HttpRelayWorker Content × RelayResponse Content :=
  let (advanced, threw) := channel.advanceHandshake sizes worker.server
    worker.version environment.revocations
  (worker.put advanced,
    if threw then .failure
    else .envelope (if advanced.verifiedReady then .ready else .probing)
      (some advanced.activationToken) advanced.acknowledgedDaemonSeq
      (advanced.outboundMessages sizes))

def handleDaemonHttpRelay (environment : ExchangeEnvironment Content)
    (worker : HttpRelayWorker Content)
    (exchange : DaemonHttpExchange Content) :
    HttpRelayWorker Content × RelayResponse Content :=
  if !environment.authorized then (worker, .failure)
  else if !normalizeDaemonHttpExchange exchange then (worker, .failure)
  else match worker.channel with
  | none =>
    if exchange.activationToken.isSome || exchange.ackWorkerSeq != 0 ||
        !exchange.messages.isEmpty then (worker, .conflict)
    else if environment.otherInstanceReady then
      (worker, .envelope .standby none 0 [])
    else if !environment.readySockets.isEmpty &&
        !takesOver environment exchange then
      (worker, .envelope .standby none 0 [])
    else if !environment.candidateCapacity then (worker, .failure)
    else
      let candidate : DaemonHttpChannel Content :=
        { activationToken := worker.nextToken
          instanceId := exchange.instanceId
          handshake := { ids := environment.reboundCallIds } }
      finishExchange sizes environment
        { worker with nextToken := worker.nextToken + 1 } candidate
  | some channel =>
    if !environment.readySockets.isEmpty then
      (worker.close, .envelope .standby none 0 [])
    else if channel.instanceId != exchange.instanceId then
      (worker, .conflict)
    else if exchange.activationToken != some channel.activationToken then
      (worker, .conflict)
    else match channel.acknowledgeWorker exchange.ackWorkerSeq with
    | none => (worker, .conflict)
    | some acknowledged =>
      let (accepted, log) := acceptMessages sizes
        (!channel.verifiedReady) acknowledged worker.log
        exchange.messages environment.handlings
      match accepted with
      | .continued after =>
        finishExchange sizes environment { worker with log } after
      | .invalidated after =>
        (({ worker with log }.put after).close, .conflict)
      | .threw after => ({ worker with log }.put after, .failure)

end

end MachineBridge.Relay
