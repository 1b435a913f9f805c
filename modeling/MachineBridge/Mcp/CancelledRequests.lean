import MachineBridge.Foundation.Run
import MachineBridge.Mcp.RequestCancellation

/-!
# Requests of response streams and their cancellation

The Worker handles direct requests and cancel controls of response-stream
identities.  A handler runs up to its next `await` in one step, so a daemon
call is registered and sent in the step of the callback which checks its
authority.  The pending calls are those with a request key, by that key.
-/

namespace MachineBridge.Mcp

open Foundation

abbrev CallId := Nat

inductive RequestKind where
  /-- `tools/call`, whose response is a stream. -/
  | streamed
  /-- A method other than a streamed tool call which needs the daemon. -/
  | daemonBacked
  /-- `subscriptions/listen` for changes of the list of tools. -/
  | subscription
  /-- A method which needs no daemon. -/
  | workerOnly
deriving DecidableEq

/-- A request in progress. -/
structure McpRequest where
  kind : RequestKind
  /-- The signal of the request itself. -/
  aborted : Bool := false
  /-- A daemon call threw, and no other one follows. -/
  failed : Bool := false

inductive CallOutcome where
  | value
  | error
  | cancelled
deriving DecidableEq

structure McpWorker where
  clock : Nat
  cancellations : McpRequestCancellationRegistry
  requests : Record RequestKey McpRequest := .empty
  used : List RequestKey := []
  subscriptions : List RequestKey := []
  pending : Record RequestKey CallId := .empty
  settlements : List (CallId × CallOutcome) := []
  /-- The tool calls sent to a daemon. -/
  dispatches : List (RequestKey × CallId) := []
  /-- When each identity was last cancelled. -/
  cancelledAt : Record RequestKey Nat := .empty

/-- `delay` and `wait` are what the clock moves on before the first and the
second reading of an operation. -/
inductive McpEvent where
  | advance (elapsed : Nat)
  /-- `room` is the answer of the capacity of subscriptions. -/
  | start (key : RequestKey) (kind : RequestKind) (room : Bool)
      (delay wait : Nat)
  /-- A request reaches the registration of its next daemon call. -/
  | callTool (key : RequestKey) (call : CallId) (admitted sent : Bool)
  /-- A request fails before it has registered its next call. -/
  | fail (key : RequestKey)
  /-- The daemon answers, or the call times out or loses its channel. -/
  | settle (key : RequestKey) (outcome : CallOutcome)
  /-- A daemon proves that it has not received a pending call. -/
  | redeliver (key : RequestKey)
  | finish (key : RequestKey)
  | closeStream (key : RequestKey)
  /-- The lease of a subscription expires, or its stream is closed. -/
  | closeSubscription (key : RequestKey)
  | cancel (key : RequestKey) (delay wait : Nat)

namespace McpWorker

def new (clock : Nat) (tombstoneTtlMs maximumTombstones : Option Int) :
    McpWorker :=
  { clock
    cancellations := .new tombstoneTtlMs maximumTombstones }

variable (worker : McpWorker)

/-- The signal which is handed to the daemon calls of a request. -/
def aborted (key : RequestKey) : Bool :=
  (worker.requests.get? key).any fun request =>
    if request.kind = .streamed then
      worker.cancellations.active.get? key == some true
    else request.aborted

section

variable (key : RequestKey)

def setRequest (change : McpRequest → McpRequest) : McpWorker :=
  match worker.requests.get? key with
  | none => worker
  | some request =>
    { worker with requests := worker.requests.set key (change request) }

def failRequest : McpWorker :=
  worker.setRequest key fun request => { request with failed := true }

/-- The pending call of an identity is settled, once; an error is thrown in
its request. -/
def settle (outcome : CallOutcome) : McpWorker :=
  match worker.pending.get? key with
  | none => worker
  | some call =>
    let settled := { worker with
      pending := worker.pending.delete key
      settlements := worker.settlements ++ [(call, outcome)] }
    if outcome = .value then settled else settled.failRequest key

/-- `handleRequest`; each identity is used by one request. -/
def start (kind : RequestKind) (room : Bool) (delay wait : Nat) : McpWorker :=
  let now := worker.clock + delay
  let later := now + wait
  let arrived := { worker with clock := later }
  if key ∈ worker.used then arrived
  else
    let arrived := { arrived with used := worker.used ++ [key] }
    match kind with
    | .streamed =>
      match worker.cancellations.openRequest key false now later with
      | (cancellations, true) =>
        { arrived with
          cancellations
          requests := arrived.requests.set key { kind } }
      | (cancellations, false) => { arrived with cancellations }
    | .daemonBacked | .workerOnly =>
      { arrived with requests := arrived.requests.set key { kind } }
    | .subscription =>
      if room then
        { arrived with subscriptions := worker.subscriptions ++ [key] }
      else arrived

/-- The callback of `runWithCurrentAuthority` in `callDaemonTool`. -/
def callTool (call : CallId) (admitted sent : Bool) : McpWorker :=
  match worker.requests.get? key with
  | none => worker
  | some request =>
    if request.kind = .workerOnly ∨ request.failed ∨
        worker.pending.contains key then worker
    else if worker.aborted key ∨ admitted = false then
      worker.failRequest key
    else
      let dispatched := { worker with
        pending := worker.pending.set key call
        dispatches := worker.dispatches ++ [(key, call)] }
      if sent then dispatched else dispatched.settle key .error

/-- A pending call is sent once more. -/
def redeliver : McpWorker :=
  match worker.pending.get? key with
  | none => worker
  | some call =>
    { worker with dispatches := worker.dispatches ++ [(key, call)] }

/-- The response of a request is complete, and its lease is released. -/
def finish : McpWorker :=
  if worker.pending.contains key then worker
  else
    { worker with
      requests := worker.requests.delete key
      cancellations := worker.cancellations.release key }

/-- The signal of a request is aborted, and with it its pending call. -/
def closeStream : McpWorker :=
  if worker.requests.contains key then
    let closed := worker.setRequest key fun request =>
      { request with aborted := true }
    let closed := { closed with
      cancellations := closed.cancellations.cancelLease key }
    closed.settle key .cancelled
  else worker

def closeSubscription : McpWorker :=
  { worker with subscriptions := worker.subscriptions.filter (· ≠ key) }

/-- `handleControl` of a cancellation: an open request is aborted, which
settles its call, a subscription is closed, and a call which is still pending
is cancelled. -/
def handleControl (delay wait : Nat) : McpWorker :=
  let now := worker.clock + delay
  let later := now + wait
  let cancelled := { worker with
    clock := later
    cancelledAt := worker.cancelledAt.set key later
    cancellations := worker.cancellations.cancel key now later }
  let aborted :=
    if worker.cancellations.active.contains key then
      cancelled.settle key .cancelled
    else cancelled
  (aborted.closeSubscription key).settle key .cancelled

end

def step (worker : McpWorker) : McpEvent → McpWorker
  | .advance elapsed => { worker with clock := worker.clock + elapsed }
  | .start key kind room delay wait => worker.start key kind room delay wait
  | .callTool key call admitted sent => worker.callTool key call admitted sent
  | .fail key =>
    if worker.pending.contains key then worker else worker.failRequest key
  | .settle key outcome => worker.settle key outcome
  | .redeliver key => worker.redeliver key
  | .finish key => worker.finish key
  | .closeStream key => worker.closeStream key
  | .closeSubscription key => worker.closeSubscription key
  | .cancel key delay wait => worker.handleControl key delay wait

end McpWorker

end MachineBridge.Mcp
