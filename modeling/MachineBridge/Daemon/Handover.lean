import MachineBridge.Daemon.Registry
import MachineBridge.Foundation.Run

/-!
# Handover between WebSockets of a daemon

Each handler runs up to an `await` as one step, and the rest of it is a task
which goes on in a later step.  A cleanup expires its socket at once and
detaches the calls in a step of its own.  The clients, the verification of a
signature and the success of a transmission are parameters of the events.
-/

namespace MachineBridge.Daemon

open Foundation

inductive HandoverTask where
  /-- `handleHello` waits for the verification. -/
  | hello (socket : SocketId) (connectionId : Option Nat)
      (instanceId : String)
  /-- `handleProbeResult` waits for the stored revocations. -/
  | probe (socket : SocketId)
  /-- The failed socket is being invalidated. -/
  | fallback (instanceId : String) (socket : Option SocketId)
      (https : Option SessionId)
  /-- The replaced channels are being retired. -/
  | retire (sockets : List SocketId) (https : List SessionId)
  /-- `callDaemonTool` waits for the current authority. -/
  | dispatch (socket : SocketId) (instanceId : String)

/-- A tool call as it is sent: the state of its socket at that moment. -/
structure ToolDispatch where
  socket : SocketId
  role : DaemonRole
  acknowledged : Bool

structure HandoverWorker where
  registry : DaemonRegistry := {}
  clock : Int := 0
  tasks : Record Nat HandoverTask := .empty
  nextTask : Nat := 0
  /-- The cleanups which have begun, with the identity of the daemon. -/
  cleaning : List (SocketId × Option String) := []
  /-- The sockets whose cleanup has taken effect, once for each time. -/
  cleanups : List SocketId := []
  /-- The sockets to which `resume_calls` and `ready_ack` were sent. -/
  acknowledged : List SocketId := []
  dispatches : List ToolDispatch := []

inductive HandoverEvent where
  | advance (elapsed : Nat)
  | accept (socket : SocketId) (connectionId : Nat)
  | hello (socket : SocketId) (instanceId : Option String)
  | helloVerified (task : Nat) (authenticated : Bool) (probeId : Nat)
      (sent : Bool)
  | probeResult (socket : SocketId) (probeId : Nat)
  | promote (task : Nat) (sent : Bool)
  /-- A fallback or a retirement goes on. -/
  | resume (task : Nat)
  /-- A heartbeat or a message of a ready daemon. -/
  | message (socket : SocketId)
  | drain (socket : SocketId)
  | close (socket : SocketId)
  | error (socket : SocketId) (isOpen : Bool)
  /-- A missed liveness deadline or a failed transmission. -/
  | invalidate (socket : SocketId)
  /-- A protocol error. -/
  | reject (socket : SocketId)
  /-- The cleanup of a socket detaches its calls. -/
  | cleanup
  | select (socket : SocketId)
  | dispatch (task : Nat) (call : CallId) (timeoutMs : Int)
  | settle (call : CallId)
  | httpReady (session : SessionId) (instanceId : String)
  | httpDispatch (session : SessionId) (call : CallId) (timeoutMs : Int)
  | httpTakeover (session : SessionId)
  | httpClose (session : SessionId)
deriving DecidableEq

namespace HandoverWorker

variable (worker : HandoverWorker)

def start : HandoverWorker := {}

def spawn (task : HandoverTask) : HandoverWorker :=
  { worker with
    tasks := worker.tasks.set worker.nextTask task
    nextTask := worker.nextTask + 1 }

section

variable (task : Nat)

def endTask : HandoverWorker :=
  { worker with tasks := worker.tasks.delete task }

def closeSocket (socket : SocketId) : HandoverWorker :=
  { worker with registry := worker.registry.closeSocket socket }

/-- The socket expires; the detachment of its calls is left to a task. -/
def cleanupDaemonSocket (socket : SocketId) : HandoverWorker :=
  { worker with
    registry := (worker.registry.beginCleanup socket).1
    cleaning := match (worker.registry.beginCleanup socket).2 with
      | none => worker.cleaning
      | some attachment =>
        worker.cleaning ++ [(socket, attachment.instanceId)] }

def invalidateDaemonSocket (socket : SocketId) : HandoverWorker :=
  (worker.cleanupDaemonSocket socket).closeSocket socket

/-- The operation of the cleanup which began first. -/
def detachCleaned : HandoverWorker :=
  match worker.cleaning with
  | [] => worker
  | (socket, instanceId) :: rest =>
    { worker with
      registry := worker.registry.detachDaemonChannelCalls
        (.socket socket) instanceId worker.clock
      cleaning := rest
      cleanups := worker.cleanups ++ [socket] }

def nonReadySockets : List SocketId :=
  (worker.registry.sockets.filter fun _ socket =>
    socket.attachment.role != .daemon && socket.isOpen).keys

def acceptDaemonWebSocket (socket : SocketId) (connectionId : Nat) :
    HandoverWorker :=
  if worker.registry.sockets.contains socket then worker
  else
    let closed := run closeSocket worker worker.nonReadySockets
    { closed with
      registry :=
        closed.registry.beginCandidate socket connectionId worker.clock }

def handleHello (socket : SocketId) (instanceId : Option String) :
    HandoverWorker :=
  match worker.registry.attachment socket with
  | none => worker.closeSocket socket
  | some attachment =>
    if attachment.role ≠ .candidate ∨
        isFreshDaemonCandidate attachment worker.clock = false ∨
        attachment.hasChallenge = false then
      worker.closeSocket socket
    else
      match instanceId.filter (· ≠ "") with
      | none => worker.closeSocket socket
      | some instanceId =>
        worker.spawn (.hello socket attachment.connectionId instanceId)

/-- The rest of `handleHello`, once the signature is verified or not. -/
def helloVerified (socket : SocketId) (connectionId : Option Nat)
    (instanceId : String) (authenticated : Bool) (probeId : Nat)
    (sent : Bool) : HandoverWorker :=
  match connectionId with
  | none => worker.closeSocket socket
  | some connectionId =>
    if authenticated = false then worker.closeSocket socket
    else
      let probing := { worker with
        registry := worker.registry.beginProbe socket probeId connectionId
          instanceId worker.clock }
      if sent then probing else probing.invalidateDaemonSocket socket

def touchSocket (socket : SocketId) : HandoverWorker :=
  { worker with
    registry := (worker.registry.touch socket worker.clock).1 }

/-- A message other than a hello: only a probing or ready daemon may send one,
and a probing daemon only the result of its probe or a heartbeat. -/
def handleMessage (socket : SocketId) : HandoverWorker :=
  match worker.registry.attachment socket with
  | none => worker.closeSocket socket
  | some attachment =>
    if attachment.role = .probing ∨ attachment.role = .daemon then
      worker.touchSocket socket
    else worker.closeSocket socket

def handleProbeResult (socket : SocketId) (probeId : Nat) : HandoverWorker :=
  match worker.registry.attachment socket with
  | none => worker.closeSocket socket
  | some attachment =>
    if attachment.role = .daemon then
      (worker.touchSocket socket).closeSocket socket
    else if attachment.role = .probing ∧
        attachment.probeId = some probeId then
      worker.spawn (.probe socket)
    else worker.closeSocket socket

/-- One pass of the loops over the replaced channels. -/
def retireNext (sockets : List SocketId) (https : List SessionId) :
    HandoverWorker :=
  match sockets, https with
  | socket :: rest, https =>
    let retired := worker.invalidateDaemonSocket socket
    { retired with tasks := retired.tasks.set task (.retire rest https) }
  | [], session :: rest =>
    { worker with
      registry := worker.registry.invalidateHttpChannel session worker.clock
      tasks := worker.tasks.set task (.retire [] rest) }
  | [], [] => worker.endTask task

def httpReadyChannels : List SessionId :=
  (worker.registry.http.filter fun _ channel => channel.ready).keys

/-- The rest of `handleProbeResult`: the socket is promoted, takes over the
calls of its daemon and is acknowledged. -/
def promoteSocket (socket : SocketId) (sent : Bool) : HandoverWorker :=
  match worker.registry.promote socket worker.clock with
  | (_, none) => (worker.endTask task).closeSocket socket
  | (registry, some ready) =>
    let promoted := { worker with registry }
    match ready.instanceId, ready.connectionId with
    | some instanceId, some _ =>
      let previousSockets :=
        promoted.registry.readyRoleSockets.filter (· ≠ socket)
      let previousHttp := promoted.httpReadyChannels
      let bound := { promoted with
        registry := promoted.registry.rebindInstance instanceId
          (.socket socket) worker.clock }
      if sent then
        { bound with
          acknowledged := socket :: bound.acknowledged }.retireNext task
            previousSockets previousHttp
      else
        let failed := bound.invalidateDaemonSocket socket
        { failed with
          tasks := failed.tasks.set task (.fallback instanceId
            (previousSockets.find? fun other =>
              (registry.attachment other).any
                (·.instanceId = some instanceId))
            (previousHttp.find? fun session =>
              registry.httpReadyInstance session = some instanceId)) }
    | _, _ => (promoted.endTask task).invalidateDaemonSocket socket

end

/-- The calls return to a channel which is still open. -/
def rebindFallback (instanceId : String) (socket : Option SocketId)
    (https : Option SessionId) : HandoverWorker :=
  match socket.filter fun socket =>
      (worker.registry.sockets.get? socket).any DaemonSocket.isOpen with
  | some socket =>
    { worker with
      registry := worker.registry.rebindInstance instanceId (.socket socket)
        worker.clock }
  | none =>
    match https.filter fun session =>
        (worker.registry.http.get? session).any HttpChannel.ready with
    | some session =>
      { worker with
        registry := worker.registry.rebindInstance instanceId
          (.https session) worker.clock }
    | none => worker

section

variable (socket : SocketId)

def drainSocket : HandoverWorker :=
  match worker.registry.attachment socket with
  | none => worker
  | some attachment =>
    if attachment.role = .daemon then
      { worker with
        registry := worker.registry.serializeAttachment socket
          { attachment with draining := true } }
    else worker

def selectSocket : HandoverWorker :=
  match worker.registry.attachment socket with
  | none => worker
  | some attachment =>
    match attachment.role, attachment.instanceId with
    | .daemon, some instanceId => worker.spawn (.dispatch socket instanceId)
    | _, _ => worker

/-- The callback of `runWithCurrentAuthority`: the socket is checked again
before the call is registered and sent. -/
def dispatchCall (instanceId : String) (call : CallId) (timeoutMs : Int) :
    HandoverWorker :=
  match worker.registry.sockets.get? socket with
  | none => worker
  | some info =>
    if info.isOpen ∧ info.attachment.role = .daemon ∧
        worker.registry.pending.contains call = false then
      { worker with
        registry := worker.registry.registerCall call (.socket socket)
          instanceId timeoutMs worker.clock
        dispatches := worker.dispatches ++ [{
          socket
          role := info.attachment.role
          acknowledged := worker.acknowledged.contains socket }] }
    else worker

def httpDispatch (session : SessionId) (call : CallId) (timeoutMs : Int) :
    HandoverWorker :=
  match worker.registry.httpReadyInstance session with
  | none => worker
  | some instanceId =>
    { worker with
      registry := worker.registry.registerCall call (.https session)
        instanceId timeoutMs worker.clock }

/-- A verified HTTP channel takes over the calls of its daemon. -/
def httpTakeover (session : SessionId) : HandoverWorker :=
  match worker.registry.httpReadyInstance session with
  | none => worker
  | some instanceId =>
    { worker with
      registry := worker.registry.rebindInstance instanceId
        (.https session) worker.clock }

def httpReady (session : SessionId) (instanceId : String) : HandoverWorker :=
  if worker.registry.http.contains session then worker
  else
    { worker with
      registry := { worker.registry with
        http := worker.registry.http.set session {
          instanceId := some instanceId
          activated := true
          ready := true
          activatedMs := worker.clock
          lastSeenMs := worker.clock } } }

/-- Closed by the platform, or after an error. -/
def endSocket (isOpen : Bool) : HandoverWorker :=
  let cleaned := worker.cleanupDaemonSocket socket
  if isOpen then cleaned else cleaned.closeSocket socket

end

def step (worker : HandoverWorker) : HandoverEvent → HandoverWorker
  | .advance elapsed => { worker with clock := worker.clock + elapsed }
  | .accept socket connectionId =>
    worker.acceptDaemonWebSocket socket connectionId
  | .hello socket instanceId => worker.handleHello socket instanceId
  | .helloVerified task authenticated probeId sent =>
    match worker.tasks.get? task with
    | some (.hello socket connectionId instanceId) =>
      (worker.endTask task).helloVerified socket connectionId instanceId
        authenticated probeId sent
    | _ => worker
  | .probeResult socket probeId => worker.handleProbeResult socket probeId
  | .promote task sent =>
    match worker.tasks.get? task with
    | some (.probe socket) => worker.promoteSocket task socket sent
    | _ => worker
  | .resume task =>
    match worker.tasks.get? task with
    | some (.fallback instanceId socket https) =>
      (worker.endTask task).rebindFallback instanceId socket https
    | some (.retire sockets https) => worker.retireNext task sockets https
    | _ => worker
  | .message socket => worker.handleMessage socket
  | .drain socket => worker.drainSocket socket
  | .close socket => worker.endSocket socket false
  | .error socket isOpen => worker.endSocket socket isOpen
  | .invalidate socket => worker.invalidateDaemonSocket socket
  | .reject socket => worker.closeSocket socket
  | .cleanup => worker.detachCleaned
  | .select socket => worker.selectSocket socket
  | .dispatch task call timeoutMs =>
    match worker.tasks.get? task with
    | some (.dispatch socket instanceId) =>
      (worker.endTask task).dispatchCall socket instanceId call timeoutMs
    | _ => worker
  | .settle call => { worker with registry := worker.registry.settleCall call }
  | .httpReady session instanceId => worker.httpReady session instanceId
  | .httpDispatch session call timeoutMs =>
    worker.httpDispatch session call timeoutMs
  | .httpTakeover session => worker.httpTakeover session
  | .httpClose session =>
    { worker with
      registry :=
        worker.registry.invalidateHttpChannel session worker.clock }

end HandoverWorker

end MachineBridge.Daemon
