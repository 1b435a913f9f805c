import MachineBridge.Pending.Dispatch

/-!
# Calls which wait for a ready daemon

A call takes the ready channel at once, or waits for one.  Either way it then
waits for the lock under which its authority is checked again and it is
registered.  Pieces under the lock run in the order in which they asked for it,
and everything else may happen in between.
-/

namespace MachineBridge.Pending

open Foundation Shared

inductive WorkerErrorCode where
  | limitExceeded
  | conflict
  | cancelled
  | unavailable
  | authorizationDenied
  /-- An error which is not a `WorkerToolError`. -/
  | internal
deriving DecidableEq

structure WorkerToolError where
  code : WorkerErrorCode
  message : String
  retryable : Bool := false

/-- A call before its registration. -/
structure ReadyCall where
  arrival : Nat
  tool : String
  authority : AuthorityRevocation
  /-- The call was admitted as a waiter. -/
  waited : Bool := false

structure ReadyDispatch where
  worker : Worker := {}
  draining : List DaemonChannel := []
  /-- In the order in which they were admitted. -/
  waiters : List ReadyCall := []
  /-- The calls which took a channel, in the order in which they asked for
  the lock. -/
  dispatching : List (ReadyCall × DaemonChannel) := []
  arrivals : Nat := 0
  /-- The calls that were registered, by their arrival. -/
  registered : List Nat := []
  /-- The calls that failed before their registration. -/
  refused : List (ReadyCall × WorkerToolError) := []

def workerPendingCallCapacity : ToolCallCapacityConfig :=
  toolCallCapacityConfig 32 2

def assertWorkerPendingCallAdmission (tools : List String) (tool : String) :
    Except WorkerToolError Unit :=
  match toolCallAdmission tools.length (toolCounts tools)
      workerPendingCallCapacity tool with
  | .admitted => .ok ()
  | .ordinaryCapacity => .error
      { code := .limitExceeded
        message := s!"ordinary daemon-call capacity reached ({workerPendingCallCapacity.ordinaryMaximum}); control-plane capacity is reserved for diagnosis and recovery"
        retryable := true }
  | .totalCapacity => .error
      { code := .limitExceeded
        message := "too many concurrent daemon tool calls"
        retryable := true }

def countedTool (tool : String) : String :=
  if tool == "" then "unknown" else tool

namespace ReadyCall

def isReadJobOf (call : ReadyCall) (accountId : String) : Bool :=
  call.tool == "read_job" && call.authority.accountId == accountId

/-- `readyWaiterMatchesRevocation`. -/
def matchesRevocation (waiter : ReadyCall) (revocation : AuthorityRevocation) :
    Bool :=
  let owner := waiter.authority
  owner.accountId != "" && owner.accountId == revocation.accountId &&
    owner.accountVersion == revocation.accountVersion &&
    ((present revocation.clientId).isNone ||
      owner.clientId == revocation.clientId) &&
    ((present revocation.familyId).isNone ||
      owner.familyId == revocation.familyId)

end ReadyCall

def assertReadyWaiterReadJobCapacity (waiters : List ReadyCall)
    (call : ReadyCall) (activeReadJobCallsForAccount : Nat) :
    Except WorkerToolError Unit :=
  let accountId := call.authority.accountId
  if call.tool != "read_job" || accountId == "" then .ok ()
  else if activeReadJobCallsForAccount +
      waiters.countP (·.isReadJobOf accountId) <
        maxPendingReadJobCallsPerAccount then .ok ()
  else .error
    { code := .limitExceeded
      message := s!"managed-job read capacity reached for this account ({maxPendingReadJobCallsPerAccount})"
      retryable := true }

def registrationError : PendingCallRegistrationError → WorkerToolError
  | .delay message => { code := .internal, message }
  | .registration .conflict message retryable =>
    { code := .conflict, message, retryable }
  | .registration .limitExceeded message retryable =>
    { code := .limitExceeded, message, retryable }

namespace Worker

def pendingTools (worker : Worker) : List String :=
  worker.calls.registry.byId.values.map (·.tool)

/-- What is done under the lock: the call is registered and sent, or fails. -/
def runWithCurrentAuthority (clock : Clock) (ids : CallIds) (worker : Worker)
    (authorized : Bool) (request : ToolCallRequest) :
    Worker × Option WorkerToolError :=
  let id := ids.token worker.drawn
  let drawn := { worker with drawn := worker.drawn + 1 }
  if !authorized then
    (drawn, some
      { code := .authorizationDenied
        message := "tool authority was revoked before daemon dispatch" })
  else if request.aborted then
    (drawn, some
      { code := .cancelled
        message := "tool call cancelled before daemon dispatch" })
  else if !worker.isOpen request.socket then
    (drawn, some
      { code := .unavailable
        message := "local daemon changed before dispatch; retry the call"
        retryable := true })
  else
    match assertWorkerPendingCallAdmission worker.pendingTools
        request.call.tool with
    | .error error => (drawn, some error)
    | .ok () =>
      let registry := drawn.calls.registry.tick
      let registered := registry.register clock (registration request id)
      let next := drawn.withRegistry registered.1
      match registered.2 with
      | .error error => (next, some (registrationError error))
      | .ok _ =>
        (next.sendToolCall request id
          (registry.tick.deadlines.now clock), none)

end Worker

namespace ReadyDispatch

section

variable (state : ReadyDispatch)

/-- The first ready channel.  `choice` is the first of the live channels which
the registry prefers; a channel which drains is not ready. -/
def readyDaemonChannel (choice : Option DaemonChannel) :
    Option DaemonChannel :=
  choice.filter fun channel =>
    state.worker.isOpen channel && !state.draining.contains channel

def immediateReadyDaemonForDispatch (choice : Option DaemonChannel) :
    Option DaemonChannel :=
  if state.waiters.isEmpty then state.readyDaemonChannel choice else none

def refuse (call : ReadyCall) (error : WorkerToolError) : ReadyDispatch :=
  { state with refused := state.refused ++ [(call, error)] }

def waitForReadyDaemon (call : ReadyCall) :
    Except WorkerToolError ReadyDispatch :=
  match assertReadyWaiterReadJobCapacity state.waiters call
      (pendingReadJobCallsForAccount
        state.worker.calls.registry.byId.values
        call.authority.accountId) with
  | .error error => .error error
  | .ok () =>
    match assertWorkerPendingCallAdmission
        (state.worker.pendingTools ++
          state.waiters.map fun waiter => countedTool waiter.tool)
        (countedTool call.tool) with
    | .error error => .error error
    | .ok () => .ok
        { state with
          waiters := state.waiters ++ [{ call with waited := true }] }

def callDaemonTool (tool : String) (authority : AuthorityRevocation)
    (choice : Option DaemonChannel) (aborted : Bool) : ReadyDispatch :=
  let call : ReadyCall := { arrival := state.arrivals, tool, authority }
  let next := { state with arrivals := state.arrivals + 1 }
  match next.immediateReadyDaemonForDispatch choice with
  | some channel =>
    { next with dispatching := next.dispatching ++ [(call, channel)] }
  | none =>
    if aborted then
      next.refuse call
        { code := .cancelled
          message := "tool call cancelled before local daemon dispatch" }
    else
      match next.waitForReadyDaemon call with
      | .error error => next.refuse call error
      | .ok waiting => waiting

def notifyReadyDaemon (choice : Option DaemonChannel) : ReadyDispatch :=
  match state.readyDaemonChannel choice with
  | none => state
  | some channel =>
    { state with
      waiters := []
      dispatching := state.dispatching ++
        state.waiters.map fun waiter => (waiter, channel) }

def finishWaiters (condition : ReadyCall → Bool) (error : WorkerToolError) :
    ReadyDispatch :=
  { state with
    waiters := state.waiters.filter fun waiter => !condition waiter
    refused := state.refused ++
      (state.waiters.filter condition).map fun waiter => (waiter, error) }

/-- The timer of a waiter. -/
def expire (arrival graceMs : Nat) : ReadyDispatch :=
  state.finishWaiters (·.arrival == arrival)
    { code := .unavailable
      message := s!"local daemon did not reconnect within {(graceMs + 999) / 1000} seconds; keep the CLI start command running"
      retryable := true }

def abort (arrival : Nat) : ReadyDispatch :=
  state.finishWaiters (·.arrival == arrival)
    { code := .cancelled
      message :=
        "tool call cancelled while waiting for local daemon recovery" }

def cancelReadyDaemonAuthority (revocation : AuthorityRevocation) :
    ReadyDispatch :=
  state.finishWaiters (·.matchesRevocation revocation)
    { code := .authorizationDenied
      message := "tool call authorization was revoked while waiting for local daemon recovery" }

end

/-- What a call with a channel may lack before it asks for the lock. -/
inductive Unprepared where
  | readHeadroom
  | instanceIdentity
  | disabledTool (name : String)

def Unprepared.error : Unprepared → WorkerToolError
  | .readHeadroom =>
    { code := .unavailable
      message := "local daemon recovery left insufficient managed-job read execution headroom; retry the call"
      retryable := true }
  | .instanceIdentity =>
    { code := .unavailable
      message := "local daemon connection is missing its instance identity"
      retryable := true }
  | .disabledTool name =>
    { code := .authorizationDenied
      message := s!"tool disabled by local daemon policy: {name}" }

/-- A call with a channel fails before it asks for the lock. -/
def abandon (state : ReadyDispatch) (arrival : Nat) (reason : Unprepared) :
    ReadyDispatch :=
  { state with
    dispatching := state.dispatching.filter fun entry =>
      entry.1.arrival != arrival
    refused := state.refused ++ (state.dispatching.filter fun entry =>
      entry.1.arrival == arrival).map fun entry => (entry.1, reason.error) }

def requestOf (call : ReadyCall) (channel : DaemonChannel)
    (request : ToolCallRequest) : ToolCallRequest :=
  { request with
    call := { request.call with
      tool := call.tool, authority := call.authority }
    socket := channel }

/-- A call which asks for the lock lacks nothing. -/
def prepared (request : ToolCallRequest) : Bool :=
  !(request.call.tool == "read_job" &&
    !managedJobReadExecutionBudgetHasHeadroom request.call.timeoutMs) &&
    !(request.daemonInstanceId == "" || !request.attached)

/-- The next call has the lock. -/
def dispatch (clock : Clock) (ids : CallIds) (state : ReadyDispatch)
    (authorized : Bool) (request : ToolCallRequest) : ReadyDispatch :=
  match state.dispatching with
  | [] => state
  | (call, channel) :: dispatching =>
    let own := requestOf call channel request
    if !prepared own then state
    else
      let (worker, failed) :=
        state.worker.runWithCurrentAuthority clock ids authorized own
      let next := { state with worker, dispatching }
      match failed with
      | none => { next with registered := next.registered ++ [call.arrival] }
      | some error => next.refuse call error

def beginDrain (state : ReadyDispatch) (channel : DaemonChannel) :
    ReadyDispatch :=
  if !state.worker.isOpen channel || state.draining.contains channel then
    state
  else { state with draining := state.draining ++ [channel] }

end ReadyDispatch

inductive ReadyEvent where
  | callDaemonTool (tool : String) (authority : AuthorityRevocation)
      (choice : Option DaemonChannel) (aborted : Bool)
  | notifyReadyDaemon (choice : Option DaemonChannel)
  | expire (arrival graceMs : Nat)
  | abort (arrival : Nat)
  | cancelAuthority (revocation : AuthorityRevocation)
  | abandon (arrival : Nat) (reason : ReadyDispatch.Unprepared)
  | dispatch (authorized : Bool) (request : ToolCallRequest)
  | beginDrain (channel : DaemonChannel)
  | worker (event : WorkerEvent)

/-- A call is registered only under the lock. -/
def WorkerEvent.isDispatch : WorkerEvent → Bool
  | .callDaemonTool _ => true
  | _ => false

namespace ReadyDispatch

def step (clock : Clock) (ids : CallIds) (state : ReadyDispatch) :
    ReadyEvent → ReadyDispatch
  | .callDaemonTool tool authority choice aborted =>
    state.callDaemonTool tool authority choice aborted
  | .notifyReadyDaemon choice => state.notifyReadyDaemon choice
  | .expire arrival graceMs => state.expire arrival graceMs
  | .abort arrival => state.abort arrival
  | .cancelAuthority revocation => state.cancelReadyDaemonAuthority revocation
  | .abandon arrival reason => state.abandon arrival reason
  | .dispatch authorized request => state.dispatch clock ids authorized request
  | .beginDrain channel => state.beginDrain channel
  | .worker event =>
    if event.isDispatch then state
    else { state with worker := state.worker.step clock ids event }

end ReadyDispatch

end MachineBridge.Pending
