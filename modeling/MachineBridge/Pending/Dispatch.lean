import Mathlib.Data.List.Sort
import MachineBridge.Pending.Registry

/-!
# Dispatch and redelivery of daemon calls

The Worker sends a tool call when it registers it, and may send it once more
when the daemon that came back proves that it never received it.  Channels
appear and close at any time; what a channel was offered is kept in its
reconciliation.  `sent` and `dispatched` record what happened.
-/

namespace MachineBridge.Pending

open Foundation Shared

/-- The random call identifiers, no two of them equal. -/
structure CallIds where
  token : Nat → String
  injective : Function.Injective token

/-- A closed channel stays closed. -/
inductive ChannelState where
  | candidate
  | open
  | closed
deriving DecidableEq

structure ResumeReconciliation where
  expectedIds : List String
  acknowledgedMissingKey : Option (List String) := none

structure DaemonHandshake where
  ids : List String
  offered : Bool := false

inductive DaemonMessage where
  | toolCall (id : String) (call : DaemonToolCall)
  | resumeCalls (ids : List String)
  | toolResultAck (id : String)

/-- A message sent on a channel, the reading of the clock it was decided with,
and whether it repeats a call. -/
structure DaemonSend where
  channel : DaemonChannel
  message : DaemonMessage
  sentAt : Rat := 0
  redelivery : Bool := false

/-- The original dispatch of a call: when it started and how long it may
execute. -/
structure DaemonDispatch where
  id : String
  startedAt : Rat
  timeoutMs : Int

structure Worker where
  calls : PendingCalls := .start 32 2
  channels : Record DaemonChannel ChannelState := .empty
  reconciliations : Record DaemonChannel ResumeReconciliation := .empty
  handshakes : Record DaemonChannel DaemonHandshake := .empty
  /-- How many call identifiers have been drawn. -/
  drawn : Nat := 0
  dispatched : List DaemonDispatch := []
  sent : List DaemonSend := []

structure ToolCallRequest where
  call : DaemonToolCall
  socket : DaemonChannel
  daemonInstanceId : String
  /-- Whether the channel has a ready attachment which lists the tool. -/
  attached : Bool := true
  requestKey : Option String := none
  settlementTimeoutMs : Int
  (signal aborted : Bool := false)
  /-- Whether the channel takes the message. -/
  sent : Bool := true

inductive WorkerEvent where
  | callDaemonTool (request : ToolCallRequest)
  /-- An operation of the registry that other parts of the Worker start. -/
  | operation (event : PendingEvent)
  | resume (task : Nat) (error : Option String) (sent : Bool)
  | toolResult (channel : DaemonChannel) (id : String)
      (outcome : PendingCallOutcome) (acknowledged : Bool)
  | resumeCallsAck (channel : DaemonChannel) (missingIds : List String)
  | probeResult (daemonInstanceId : String) (channel : DaemonChannel)
      (sent : Bool)
  | httpSession (daemonInstanceId : String) (channel : DaemonChannel)
  /-- `room` says whether the queue of the channel has room for the offer. -/
  | advanceHandshake (channel : DaemonChannel) (room : Bool)
  | opened (channel : DaemonChannel)
  | closed (channel : DaemonChannel)

def defaultManagedJobReadWaitMs : Int := 40000

def maximumManagedJobReadWaitMs : Int := 60000

def managedJobReadExecutionHeadroomMs : Int := 10000

def isSafeInt (number : Int) : Bool :=
  -(maxSafeInteger : Int) ≤ number && number ≤ (maxSafeInteger : Int)

def managedJobReadArgumentsWithinExecutionBudget (args : ToolArguments)
    (executionTimeoutMs : Int) : ToolArguments :=
  let requestedWaitMs := match args.waitMs with
    | some waitMs => max 0 (min waitMs maximumManagedJobReadWaitMs)
    | none => defaultManagedJobReadWaitMs
  let executionMs :=
    if isSafeInt executionTimeoutMs then max 0 executionTimeoutMs else 0
  let availableWaitMs := max 0 (min maximumManagedJobReadWaitMs
    (executionMs - managedJobReadExecutionHeadroomMs))
  if requestedWaitMs ≤ availableWaitMs then args
  else { args with waitMs := some availableWaitMs }

def managedJobReadExecutionBudgetHasHeadroom (executionTimeoutMs : Int) :
    Bool :=
  isSafeInt executionTimeoutMs &&
    managedJobReadExecutionHeadroomMs ≤ executionTimeoutMs

def daemonToolRedeliveryArguments (name : String) (args : ToolArguments)
    (remainingExecutionMs : Int) : Option ToolArguments :=
  if !isSafeInt remainingExecutionMs || remainingExecutionMs < 1000 then none
  else if name != "read_job" then some args
  else if managedJobReadExecutionBudgetHasHeadroom remainingExecutionMs then
    some (managedJobReadArgumentsWithinExecutionBudget args
      remainingExecutionMs)
  else some { args with waitMs := some 0 }

def isTokenCharacter (character : Char) : Bool :=
  character.isAlphanum || character == '_' || character == '-'

def isRelayCallId (id : String) : Bool :=
  let rest := id.toList.drop 5
  "call_".toList.isPrefixOf id.toList && 8 ≤ rest.length &&
    rest.length ≤ 240 && rest.all isTokenCharacter

def daemonResumeMissingCallIds (value : List String) : Option (List String) :=
  if 32 < value.length then none
  else if value.all isRelayCallId && value.Nodup then some value
  else none

/-- The serialised sorted identifiers, by which acknowledgements are
compared. -/
def missingKey (missingIds : List String) : List String :=
  missingIds.insertionSort (· ≤ ·)

namespace Worker

section

variable (worker : Worker)

def channelState (channel : DaemonChannel) : ChannelState :=
  (worker.channels.get? channel).getD .candidate

def isOpen (channel : DaemonChannel) : Bool :=
  worker.channelState channel == .open

def withRegistry (registry : PendingCallRegistry) : Worker :=
  { worker with calls := { worker.calls with registry } }

def send (message : DaemonSend) : Worker :=
  { worker with sent := worker.sent ++ [message] }

def closeChannel (channel : DaemonChannel) : Worker :=
  { worker with channels := worker.channels.set channel .closed }

def openChannel (channel : DaemonChannel) : Worker :=
  if worker.channelState channel = .closed then worker
  else { worker with channels := worker.channels.set channel .open }

end

def registration (request : ToolCallRequest) (id : String) :
    RegisterPendingCall :=
  { id
    socket := request.socket
    daemonInstanceId := some request.daemonInstanceId
    clientRequestKey := request.requestKey
    authority := some request.call.authority
    tool := request.call.tool
    timeoutMs := request.settlementTimeoutMs
    redeliverAfterProvenMissing := some request.call
    signal := request.signal }

/-- The arguments of the original dispatch. -/
def daemonArgs (call : DaemonToolCall) : ToolArguments :=
  if call.tool == "read_job" then
    managedJobReadArgumentsWithinExecutionBudget call.arguments call.timeoutMs
  else call.arguments

section

variable (clock : Clock)

def dispatchable (worker : Worker) (request : ToolCallRequest) : Bool :=
  let snapshot := worker.calls.registry.snapshot clock
  !request.aborted && worker.isOpen request.socket &&
    toolCallAdmission snapshot.active snapshot.byTool
      (toolCallCapacityConfig 32 2) request.call.tool == .admitted

def sendToolCall (worker : Worker) (request : ToolCallRequest) (id : String)
    (startedAt : Rat) : Worker :=
  let noted := { worker with dispatched := worker.dispatched ++
    [⟨id, startedAt, request.call.timeoutMs⟩] }
  if request.sent then
    noted.send
      { channel := request.socket
        message := .toolCall id
          { request.call with arguments := daemonArgs request.call }
        sentAt := startedAt }
  else noted

/-- The dispatch, up to the failure of the send. -/
def callDaemonTool (ids : CallIds) (worker : Worker)
    (request : ToolCallRequest) : Worker :=
  if request.call.tool == "read_job" &&
      !managedJobReadExecutionBudgetHasHeadroom request.call.timeoutMs then
    worker
  else if request.daemonInstanceId == "" || !request.attached then worker
  else
    let id := ids.token worker.drawn
    let drawn := { worker with drawn := worker.drawn + 1 }
    if !worker.dispatchable clock request then drawn
    else
      let registry := drawn.calls.registry.tick
      let registered := registry.register clock (registration request id)
      let next := drawn.withRegistry registered.1
      match registered.2 with
      | .error _ => next
      | .ok _ =>
        next.sendToolCall request id (registry.tick.deadlines.now clock)

/-- `beginDaemonResumeReconciliation`. -/
def beginReconciliation (worker : Worker) (channel : DaemonChannel)
    (ids : List String) : Worker :=
  { worker with
    reconciliations := worker.reconciliations.set channel ⟨ids, none⟩ }

/-- `daemonResumeAcknowledgement`: the answer is whether an accepted
acknowledgement repeats an earlier one. -/
def daemonResumeAcknowledgement (worker : Worker) (channel : DaemonChannel)
    (missingIds : List String) : Worker × Option Bool :=
  match worker.reconciliations.get? channel with
  | none => (worker, none)
  | some reconciliation =>
    if (daemonResumeMissingCallIds missingIds).isNone ||
        !worker.isOpen channel then (worker, none)
    else if missingIds.any (!reconciliation.expectedIds.contains ·) then
      (worker, none)
    else
      let key := missingKey missingIds
      match reconciliation.acknowledgedMissingKey with
      | some acknowledged =>
        (worker, if acknowledged = key then some true else none)
      | none =>
        let acknowledged := { reconciliation with
          acknowledgedMissingKey := some key }
        ({ worker with
          reconciliations :=
            worker.reconciliations.set channel acknowledged }, some false)

/-- The handling of `resume_calls_ack`: the missing calls of a first
acknowledgement are redelivered or rejected. -/
def resumeCallsAck (worker : Worker) (channel : DaemonChannel)
    (missingIds : List String) : Worker :=
  let (next, duplicate) :=
    worker.daemonResumeAcknowledgement channel missingIds
  if duplicate = some false then
    { next with
      calls := next.calls.rejectSocketIds missingIds channel
        "pending daemon call was not received" true }
  else next

def remainingExecutionMs (call : DaemonToolCall) (startedAt now : Rat) : Int :=
  min call.timeoutMs ⌊startedAt + call.timeoutMs - now⌋

/-- The call as it is sent once more, when enough of its budget is left. -/
def redeliveredCall (call : DaemonToolCall) (startedAt now : Rat) :
    Option DaemonToolCall :=
  let timeoutMs := remainingExecutionMs call startedAt now
  (daemonToolRedeliveryArguments call.tool call.arguments timeoutMs).map
    fun args => { call with arguments := args, timeoutMs }

def mark (worker : Worker) (record : PendingCallRecord)
    (channel : DaemonChannel) : Worker :=
  worker.withRegistry (worker.calls.registry.store
    ⟨worker.calls.registry.deadlines,
      { record with provenMissingRedeliveryChannel := some channel }, none⟩)

def tick (worker : Worker) : Worker :=
  worker.withRegistry worker.calls.registry.tick

/-- The `beforeReject` callback of proven missing calls, with its answer. -/
def redeliverProvenMissing (worker : Worker) (record : PendingCallRecord)
    (channel : DaemonChannel) (sent : Bool) : Worker × Bool :=
  match record.provenMissingRedeliveryChannel,
      record.redeliverAfterProvenMissing with
  | some redelivered, _ => (worker, redelivered == channel)
  | none, none => (worker, false)
  | none, some call =>
    let now := worker.calls.registry.deadlines.now clock
    match redeliveredCall call record.startedAt now with
    | none => (worker.tick, false)
    | some again =>
      if worker.isOpen channel && sent then
        ((worker.tick.mark record channel).send
          { channel
            message := .toolCall record.id again
            sentAt := now
            redelivery := true }, true)
      else (worker.tick, false)

end

/-- The record whose `beforeReject` callback a task is to ask. -/
def askedRecord (worker : Worker) (index : Nat) :
    Option (PendingCallRecord × DaemonChannel) :=
  match worker.calls.tasks[index]? with
  | none => none
  | some task =>
    match task.failing, task.ids, task.socket with
    | none, id :: _, some channel =>
      match worker.calls.registry.byId.get? id with
      | none => none
      | some record =>
        if task.beforeReject && record.socket == some channel then
          some (record, channel)
        else none
    | _, _, _ => none

def resume (clock : Clock) (worker : Worker) (index : Nat)
    (error : Option String) (sent : Bool) : Worker :=
  match worker.askedRecord index with
  | none => { worker with calls := worker.calls.resume index false error }
  | some (record, channel) =>
    let (asked, kept) :=
      worker.redeliverProvenMissing clock record channel sent
    { asked with calls := asked.calls.resume index kept error }

def settleResult (registry : PendingCallRegistry) (channel : DaemonChannel)
    (id : String) (outcome : PendingCallOutcome) :
    PendingCallRegistry × Bool :=
  if registry.resultOwnership id channel ≠ .owned then (registry, false)
  else
    match outcome with
    | .value value => registry.resolve id channel value
    | .error error => registry.reject id error (some channel)

/-- The handling of `tool_result`.  `acknowledged` says whether the channel
takes the acknowledgement. -/
def toolResult (worker : Worker) (channel : DaemonChannel) (id : String)
    (outcome : PendingCallOutcome) (acknowledged : Bool) : Worker :=
  let ownership := worker.calls.registry.resultOwnership id channel
  let (registry, matched) :=
    settleResult worker.calls.registry channel id outcome
  let settled := worker.withRegistry registry
  if (matched || ownership == .missing) && worker.isOpen channel &&
      acknowledged then
    settled.send { channel, message := .toolResultAck id }
  else settled

section

variable (clock : Clock)

/-- Move the calls of an instance to a channel; the moved calls are none when
the operation threw. -/
def rebind (worker : Worker) (daemonInstanceId : String)
    (channel : DaemonChannel) : Worker × List String :=
  let (registry, rebound) := worker.calls.registry.rebindInstance clock
    daemonInstanceId channel
  (worker.withRegistry registry,
    match rebound with
    | .ok ids => ids
    | .error _ => [])

/-- A WebSocket has answered its readiness probe: it is offered the calls that
moved to it, and closed when the offer cannot be sent. -/
def probeResult (worker : Worker) (daemonInstanceId : String)
    (channel : DaemonChannel) (sent : Bool) : Worker :=
  let (moved, ids) := worker.rebind clock daemonInstanceId channel
  let begun := moved.beginReconciliation channel ids
  if sent then begun.send { channel, message := .resumeCalls ids }
  else begun.closeChannel channel

/-- A new HTTP session keeps the calls that moved to it for its handshake. -/
def httpSession (worker : Worker) (daemonInstanceId : String)
    (channel : DaemonChannel) : Worker :=
  let (moved, ids) := worker.rebind clock daemonInstanceId channel
  { moved with handshakes := moved.handshakes.set channel ⟨ids, false⟩ }

end

/-- The offer of an HTTP session; a closed channel throws at the send. -/
def advanceHandshake (worker : Worker) (channel : DaemonChannel)
    (room : Bool) : Worker :=
  match worker.handshakes.get? channel with
  | none => worker
  | some handshake =>
    if handshake.offered || !room then worker
    else
      let begun := worker.beginReconciliation channel handshake.ids
      if worker.channelState channel = .closed then begun
      else
        let offered :=
          begun.send { channel, message := .resumeCalls handshake.ids }
        { offered with
          handshakes := offered.handshakes.set channel
            { handshake with offered := true } }

/-- The operations of the registry that others start: registrations and the
tasks of missing calls have events of their own. -/
def isOperation : PendingEvent → Bool
  | .register _ => false
  | .rejectSocketIds _ _ _ _ => false
  | .resume _ _ _ => false
  | _ => true

def step (clock : Clock) (ids : CallIds) (worker : Worker) :
    WorkerEvent → Worker
  | .callDaemonTool request => worker.callDaemonTool clock ids request
  | .operation event =>
    if isOperation event then
      { worker with calls := worker.calls.step clock event }
    else worker
  | .resume task error sent => worker.resume clock task error sent
  | .toolResult channel id outcome acknowledged =>
    worker.toolResult channel id outcome acknowledged
  | .resumeCallsAck channel missingIds =>
    worker.resumeCallsAck channel missingIds
  | .probeResult daemonInstanceId channel sent =>
    worker.probeResult clock daemonInstanceId channel sent
  | .httpSession daemonInstanceId channel =>
    worker.httpSession clock daemonInstanceId channel
  | .advanceHandshake channel room => worker.advanceHandshake channel room
  | .opened channel => worker.openChannel channel
  | .closed channel => worker.closeChannel channel

end Worker

end MachineBridge.Pending
