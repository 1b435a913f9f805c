import MachineBridge.Foundation.Run
import MachineBridge.Pending.Deadlines

/-!
# The pending-call registry

An asynchronous operation runs up to its first `await`, and the rest of it is a
task: the calls it has still to visit, and the call whose error callback is
running.  Other operations may happen wherever a task stops, so every order of
awaits and every re-entrant callback is a run of the events below.
-/

namespace MachineBridge.Pending

open Foundation Shared

inductive PendingCallRegistrationCode where
  | conflict
  | limitExceeded
deriving DecidableEq

/-- The errors of a registration: a `RangeError` or `TypeError` of the delay,
or a registration error. -/
inductive PendingCallRegistrationError where
  | delay (message : String)
  | registration (code : PendingCallRegistrationCode) (message : String)
      (retryable : Bool)

structure PendingSettlement where
  promise : Nat
  outcome : PendingCallOutcome
deriving DecidableEq

structure PendingCallRegistry where
  capacity : ToolCallCapacityConfig
  byId : Record String PendingCallRecord := .empty
  byRequestKey : Record String String := .empty
  deadlines : PendingCallDeadlines := {}
  nextPromise : Nat := 0
  settlements : List PendingSettlement := []

structure PendingRegistrySnapshot where
  (active detached requestKeys maximum ordinaryCapacity reservedCapacity : Nat)
  (activeReserved activeOrdinary : Nat)
  oldestMs : Rat
  byTool : List (String × Nat)

section

variable (records : List PendingCallRecord)

def pendingRegistrySnapshot (requestKeyCount : Nat) (now : Rat)
    (config : ToolCallCapacityConfig) : PendingRegistrySnapshot :=
  let byTool := toolCounts (records.map (·.tool))
  let usage := toolCallCapacityUsage records.length byTool config
  { active := records.length
    detached := records.countP (·.socket.isNone)
    requestKeys := requestKeyCount
    maximum := config.maximum
    ordinaryCapacity := config.ordinaryMaximum
    reservedCapacity := config.reserved
    activeReserved := usage.activeReserved
    activeOrdinary := usage.activeOrdinary
    oldestMs := records.foldl
      (fun oldest record => max oldest (now - record.startedAt)) 0
    byTool }

def pendingReadJobCallsForAccount (accountId : String) : Nat :=
  if accountId == "" then 0 else records.countP (·.isReadJobOf accountId)

end

def pendingCallTimeoutMaximumMs (tool : String) : Nat :=
  if tool == "read_job" then maximumRelayToolTimeoutMs
  else maximumOrdinaryRelayToolTimeoutMs

structure PendingRegistrationState where
  records : List PendingCallRecord
  active : Nat
  byTool : List (String × Nat)
  capacity : ToolCallCapacityConfig
  (idExists requestKeyExists : Bool)

section

variable (input : RegisterPendingCall)

def readJobCapacityReached (records : List PendingCallRecord) : Bool :=
  input.tool == "read_job" &&
    (present (input.authority.map (·.accountId))).any fun accountId =>
      maxPendingReadJobCallsPerAccount ≤
        pendingReadJobCallsForAccount records accountId

def assertPendingCallRegistration (state : PendingRegistrationState) :
    Except PendingCallRegistrationError Int :=
  match boundedPendingDelayMs input.timeoutMs
      (pendingCallTimeoutMaximumMs input.tool) with
  | .error message => .error (.delay message)
  | .ok timeoutMs =>
    match toolCallAdmission state.active state.byTool state.capacity
        input.tool with
    | .ordinaryCapacity => .error (.registration .limitExceeded
        s!"ordinary daemon-call capacity reached ({state.capacity.ordinaryMaximum}); control-plane capacity is reserved for diagnosis and recovery"
        true)
    | .totalCapacity => .error (.registration .limitExceeded
        "too many concurrent daemon tool calls" true)
    | .admitted =>
      if state.idExists then
        .error (.registration .conflict
          "duplicate internal daemon call id" false)
      else if state.requestKeyExists then
        .error (.registration .conflict
          "duplicate in-flight response-stream request key" false)
      else if readJobCapacityReached input state.records then
        .error (.registration .limitExceeded
          s!"managed-job read capacity reached for this account ({maxPendingReadJobCallsPerAccount})"
          true)
      else .ok timeoutMs

end

namespace PendingCallRegistry

def new (maximum reservedCapacity : Nat) : PendingCallRegistry :=
  { capacity := toolCallCapacityConfig maximum reservedCapacity }

def hasRequestKey (registry : PendingCallRegistry)
    (requestKey : Option String) : Bool :=
  (present requestKey).any registry.byRequestKey.contains

inductive ResultOwnership where
  | owned
  | missing
  | stale
deriving DecidableEq

section

variable (registry : PendingCallRegistry)

def resultOwnership (id : String) (socket : DaemonChannel) : ResultOwnership :=
  match registry.byId.get? id with
  | none => .missing
  | some record => if record.socket = some socket then .owned else .stale

def idsWhere (condition : PendingCallRecord → Bool) : List String :=
  (registry.byId.values.filter condition).map (·.id)

end

section

variable (clock : Clock)

def snapshot (registry : PendingCallRegistry) : PendingRegistrySnapshot :=
  pendingRegistrySnapshot registry.byId.values registry.byRequestKey.size
    (registry.deadlines.now clock) registry.capacity

/-- One reading of the clock. -/
def tick (registry : PendingCallRegistry) : PendingCallRegistry :=
  { registry with deadlines := registry.deadlines.tick }

/-- The result also says how long the accepted call may take. -/
def assertCanRegister (registry : PendingCallRegistry)
    (input : RegisterPendingCall) : Except PendingCallRegistrationError Int :=
  let snapshot := registry.snapshot clock
  assertPendingCallRegistration input
    { records := registry.byId.values
      active := snapshot.active
      byTool := snapshot.byTool
      capacity := registry.capacity
      idExists := registry.byId.contains input.id
      requestKeyExists := registry.hasRequestKey input.clientRequestKey }

def newRecord (input : RegisterPendingCall) (timeoutMs : Int) (startedAt : Rat)
    (settlement : Nat) : PendingCallRecord :=
  { id := input.id
    socket := some input.socket
    daemonInstanceId := input.daemonInstanceId
    clientRequestKey := input.clientRequestKey
    owner := input.authority
    tool := if input.tool == "" then "unknown" else input.tool
    startedAt
    originalDeadlineAt := startedAt + timeoutMs
    deadlineAt := startedAt + timeoutMs
    remainingTimeoutMs := timeoutMs
    redeliverAfterProvenMissing := input.redeliverAfterProvenMissing
    settlement
    signal := input.signal }

/-- Replace a record together with the timers. -/
def store (registry : PendingCallRegistry) (armed : Armed) :
    PendingCallRegistry :=
  { registry with
    byId := registry.byId.set armed.record.id armed.record
    deadlines := armed.deadlines }

def add (registry : PendingCallRegistry) (input : RegisterPendingCall)
    (timeoutMs : Int) : PendingCallRegistry :=
  let record := newRecord input timeoutMs (registry.deadlines.now clock)
    registry.nextPromise
  let armed := registry.tick.deadlines.armOperation clock record timeoutMs
  { registry.store armed with
    byRequestKey := match record.requestKey with
      | none => registry.byRequestKey
      | some requestKey => registry.byRequestKey.set requestKey input.id
    nextPromise := registry.nextPromise + 1 }

/-- The promise of an accepted call is the number of its registration. -/
def register (registry : PendingCallRegistry) (input : RegisterPendingCall) :
    PendingCallRegistry × Except PendingCallRegistrationError Nat :=
  match registry.assertCanRegister clock input with
  | .error error => (registry.tick, .error error)
  | .ok timeoutMs =>
    (registry.tick.add clock input timeoutMs, .ok registry.nextPromise)

end

section

variable (registry : PendingCallRegistry)

/-- Remove a record with its timers and its request key. -/
def take (record : PendingCallRecord) : PendingCallRegistry :=
  { registry with
    deadlines := registry.deadlines.clear record
    byId := registry.byId.delete record.id
    byRequestKey := match record.requestKey with
      | none => registry.byRequestKey
      | some requestKey =>
        if registry.byRequestKey.get? requestKey = some record.id then
          registry.byRequestKey.delete requestKey
        else registry.byRequestKey }

/-- The registry, and whether a call was settled. -/
def finish (id : String) (outcome : PendingCallOutcome) :
    PendingCallRegistry × Bool :=
  match registry.byId.get? id with
  | none => (registry, false)
  | some record =>
    ({ registry.take record with
        settlements := registry.settlements ++
          [⟨record.settlement, outcome⟩] }, true)

def resolve (id : String) (socket : DaemonChannel) (value : String) :
    PendingCallRegistry × Bool :=
  match registry.byId.get? id with
  | none => (registry, false)
  | some record =>
    if record.socket ≠ some socket then (registry, false)
    else registry.finish id (.value value)

def reject (id : String) (error : String) (socket : Option DaemonChannel) :
    PendingCallRegistry × Bool :=
  match registry.byId.get? id with
  | none => (registry, false)
  | some record =>
    if socket.isSome ∧ record.socket ≠ socket then (registry, false)
    else registry.finish id (.error error)

end

/-- A loop that re-arms timers: it stops where arming throws. -/
structure Rearming where
  registry : PendingCallRegistry
  visited : List String := []
  error : Option String := none

def Rearming.visit (loop : Rearming) (armed : Armed) : Rearming :=
  { registry := loop.registry.store armed
    visited := match armed.error with
      | none => loop.visited ++ [armed.record.id]
      | some _ => loop.visited
    error := armed.error }

section

variable (clock : Clock)

/-- One pass of the loop of `detachSocket`. -/
def detachRecord (maximumGrace : Int) (deadlines : PendingCallDeadlines)
    (record : PendingCallRecord) : Armed :=
  let (paused, bare) :=
    deadlines.pauseOperation clock { record with socket := none }
  let settled := pendingCallReconnectSettlement bare (paused.now clock)
  let delay := min maximumGrace settled.remainingTimeoutMs
  paused.tick.armReconnect clock settled delay

/-- One pass of the loop of `rebindInstance`. -/
def rebindRecord (socket : DaemonChannel) (deadlines : PendingCallDeadlines)
    (record : PendingCallRecord) : Armed :=
  let (quiet, bare) :=
    if record.socket.isSome then deadlines.pauseOperation clock record
    else deadlines.clearReconnect record
  let settled := pendingCallReconnectSettlement bare (quiet.now clock)
  let remainingTimeoutMs :=
    roundedUp (settled.deadlineAt - quiet.tick.now clock)
  quiet.tick.tick.armOperation clock { settled with socket := some socket }
    remainingTimeoutMs

/-- Whether the loop of `rebindInstance` passes over a record. -/
def rebinds (daemonInstanceId : String) (socket : DaemonChannel)
    (record : PendingCallRecord) : Bool :=
  record.daemonInstanceId == some daemonInstanceId &&
    record.socket != some socket

/-- Visit the record of an identifier, unless the loop has been left. -/
def rearm (arm : PendingCallDeadlines → PendingCallRecord → Armed)
    (selects : PendingCallRecord → Bool) (loop : Rearming) (id : String) :
    Rearming :=
  match loop.error, loop.registry.byId.get? id with
  | none, some record =>
    if selects record then
      loop.visit (arm loop.registry.deadlines record)
    else loop
  | _, _ => loop

/-- The number of detached calls, unless the grace is refused. -/
def detachSocket (registry : PendingCallRegistry) (socket : DaemonChannel)
    (graceMs : Rat) : PendingCallRegistry × Except String Nat :=
  match boundedPendingDelayMs graceMs reconnectGraceMs with
  | .error message => (registry, .error message)
  | .ok maximumGrace =>
    let loop := run (rearm (detachRecord clock maximumGrace)
      (·.socket == some socket)) ⟨registry, [], none⟩ registry.byId.keys
    (loop.registry, match loop.error with
      | none => .ok loop.visited.length
      | some message => .error message)

/-- The identifiers of the calls that moved to the channel. -/
def rebindInstance (registry : PendingCallRegistry) (daemonInstanceId : String)
    (socket : DaemonChannel) :
    PendingCallRegistry × Except String (List String) :=
  if daemonInstanceId == "" then (registry, .ok [])
  else
    let loop := run (rearm (rebindRecord clock socket)
      (rebinds daemonInstanceId socket)) ⟨registry, [], none⟩
      registry.byId.keys
    (loop.registry, match loop.error with
      | none => .ok loop.visited
      | some message => .error message)

end

end PendingCallRegistry

/-- How a task fails a call: with the text for a missing error, or as
`expireRecord` does. -/
inductive PendingTaskKind where
  | fail (fallback : String)
  | expire

/-- The rest of an asynchronous operation.  `failing` is the call whose error
callback is running, with the fallback text; `socket` is the channel the calls
have to be on. -/
structure PendingTask where
  kind : PendingTaskKind
  ids : List String
  socket : Option DaemonChannel := none
  /-- Whether the operation was given a `beforeReject` callback. -/
  beforeReject : Bool := false
  failing : Option (String × String) := none

def PendingTaskKind.fallback (kind : PendingTaskKind)
    (record : PendingCallRecord) : String :=
  match kind with
  | .fail fallback => fallback
  | .expire =>
    if record.socket.isSome then "pending daemon call timed out"
    else "pending daemon reconnect expired"

structure PendingCalls where
  registry : PendingCallRegistry
  tasks : List PendingTask := []

inductive PendingEvent where
  | register (input : RegisterPendingCall)
  | resolve (id : String) (socket : DaemonChannel) (value : String)
  | reject (id error : String) (socket : Option DaemonChannel)
  | cancelRequest (requestKey : String)
  | cancelAuthority (revocation : AuthorityRevocation)
  | rejectSocket (socket : DaemonChannel)
  | rejectSocketIds (ids : List String) (socket : DaemonChannel)
      (fallback : String) (beforeReject : Bool)
  | detachSocket (socket : DaemonChannel) (graceMs : Rat)
  | rebindInstance (daemonInstanceId : String) (socket : DaemonChannel)
  | expireDue (now : Option Rat)
  /-- The scheduler runs the callback of a live timer. -/
  | timer (handle : TimerHandle)
  | abort (id : String)
  /-- A task goes on: `kept` is the answer of its `beforeReject` callback, and
  `error` what the callback that creates the error returned. -/
  | resume (task : Nat) (kept : Bool) (error : Option String)

namespace PendingCalls

def start (maximum reservedCapacity : Nat) : PendingCalls :=
  ⟨.new maximum reservedCapacity, []⟩

def spawn (calls : PendingCalls) (task : PendingTask) : PendingCalls :=
  { calls with tasks := calls.tasks ++ [task] }

/-- `fail` of one call. -/
def fail (calls : PendingCalls) (id fallback : String) : PendingCalls :=
  calls.spawn { kind := .fail fallback, ids := [id] }

def register (clock : Clock) (calls : PendingCalls)
    (input : RegisterPendingCall) : PendingCalls :=
  let registered := calls.registry.register clock input
  let next := { calls with registry := registered.1 }
  match registered.2 with
  | .error _ => next
  | .ok _ =>
    if input.signal && input.aborted then
      next.fail input.id "pending daemon call was cancelled"
    else next

section

variable (calls : PendingCalls)

def cancelRequest (requestKey : String) : PendingCalls :=
  match present (calls.registry.byRequestKey.get? requestKey) with
  | none => calls
  | some id => calls.fail id "pending daemon call was cancelled"

def cancelAuthority (revocation : AuthorityRevocation) : PendingCalls :=
  calls.spawn
    { kind := .fail "pending daemon authority was revoked"
      ids := calls.registry.idsWhere
        (recordMatchesAuthorityRevocation · revocation) }

def rejectSocketIds (ids : List String) (socket : DaemonChannel)
    (fallback : String) (beforeReject : Bool) : PendingCalls :=
  calls.spawn
    { kind := .fail fallback, ids, socket := some socket, beforeReject }

def rejectSocket (socket : DaemonChannel) : PendingCalls :=
  calls.rejectSocketIds
    (calls.registry.idsWhere (·.socket == some socket)) socket
    "pending daemon call failed" false

/-- `expireRecord` of each call. -/
def expireRecords (ids : List String) : PendingCalls :=
  calls.spawn { kind := .expire, ids }

end

def expireDue (clock : Clock) (calls : PendingCalls) (now : Option Rat) :
    PendingCalls :=
  let reading := now.getD (calls.registry.deadlines.now clock)
  let ticked := if now.isSome then calls
    else { calls with registry := calls.registry.tick }
  ticked.expireRecords
    (calls.registry.idsWhere (PendingCallDeadlines.isDue · reading))

/-- The callback of a timer: `expireOperation` or `expireReconnect`. -/
def timer (calls : PendingCalls) (handle : TimerHandle) : PendingCalls :=
  match calls.registry.deadlines.timers.find? (·.handle == handle) with
  | none => calls
  | some timer =>
    match calls.registry.byId.get? timer.callId with
    | none => calls
    | some record =>
      if timer.kind = .reconnect ∧ record.socket.isSome then calls
      else calls.expireRecords [record.id]

def abort (calls : PendingCalls) (id : String) : PendingCalls :=
  match calls.registry.byId.get? id with
  | none => calls
  | some record =>
    if record.signal then
      calls.fail id "pending daemon call was cancelled"
    else calls

/-- Whether a task goes on to fail a record: `rejectSocketIds` looks at its
channel again and asks the callback. -/
def fails (task : PendingTask) (record : PendingCallRecord) (kept : Bool) :
    Bool :=
  (task.socket.isNone || record.socket == task.socket) &&
    !(task.beforeReject && kept)

def replaceTask (calls : PendingCalls) (index : Nat) (task : PendingTask) :
    PendingCalls :=
  { calls with tasks := calls.tasks.set index task }

/-- One piece of a task: the callback of the next call starts, or the callback
has returned and the call is settled. -/
def resume (calls : PendingCalls) (index : Nat) (kept : Bool)
    (error : Option String) : PendingCalls :=
  match calls.tasks[index]? with
  | none => calls
  | some task =>
    match task.failing, task.ids with
    | some (id, fallback), _ =>
      let finished := calls.registry.finish id
        (.error (error.getD fallback))
      { calls with registry := finished.1 }.replaceTask index
        { task with failing := none }
    | none, [] => { calls with tasks := calls.tasks.eraseIdx index }
    | none, id :: rest =>
      match calls.registry.byId.get? id with
      | none => calls.replaceTask index { task with ids := rest }
      | some record =>
        calls.replaceTask index { task with
          ids := rest
          failing := if fails task record kept then
            some (id, task.kind.fallback record) else none }

def step (clock : Clock) (calls : PendingCalls) :
    PendingEvent → PendingCalls
  | .register input => calls.register clock input
  | .resolve id socket value =>
    { calls with registry := (calls.registry.resolve id socket value).1 }
  | .reject id error socket =>
    { calls with registry := (calls.registry.reject id error socket).1 }
  | .cancelRequest requestKey => calls.cancelRequest requestKey
  | .cancelAuthority revocation => calls.cancelAuthority revocation
  | .rejectSocket socket => calls.rejectSocket socket
  | .rejectSocketIds ids socket fallback beforeReject =>
    calls.rejectSocketIds ids socket fallback beforeReject
  | .detachSocket socket graceMs =>
    { calls with
      registry := (calls.registry.detachSocket clock socket graceMs).1 }
  | .rebindInstance daemonInstanceId socket =>
    { calls with registry :=
        (calls.registry.rebindInstance clock daemonInstanceId socket).1 }
  | .expireDue now => calls.expireDue clock now
  | .timer handle => calls.timer handle
  | .abort id => calls.abort id
  | .resume task kept error => calls.resume task kept error

end PendingCalls

end MachineBridge.Pending
