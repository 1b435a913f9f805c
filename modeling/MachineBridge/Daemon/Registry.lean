import MachineBridge.Foundation.Record
import Mathlib.Data.List.Sort

/-!
# Daemon channels of the Worker

A WebSocket of a daemon carries an attachment with its role; an HTTP channel
lives in a registry of its own.  Pending calls are bound to a channel or wait
for their daemon to reconnect.  Times are whole milliseconds of one clock, and
a time stamp which does not parse is missing.
-/

namespace MachineBridge.Daemon

open Foundation

abbrev SocketId := Nat

abbrev SessionId := Nat

abbrev CallId := Nat

inductive DaemonRole where
  | candidate
  | probing
  | daemon
  | expired
deriving DecidableEq

structure DaemonAttachment where
  role : DaemonRole
  connectedAt : Option Int
  lastSeenAt : Option Int := none
  probeId : Option Nat := none
  instanceId : Option String := none
  connectionId : Option Nat := none
  draining : Bool := false
  /-- Its authentication challenge is complete. -/
  hasChallenge : Bool := false

structure DaemonSocket where
  attachment : DaemonAttachment
  /-- `readyState` is `OPEN`. -/
  isOpen : Bool := true
  /-- A cleanup task is registered. -/
  cleaned : Bool := false

/-- A channel of calls: a WebSocket or an HTTP session. -/
inductive DaemonChannel where
  | socket (id : SocketId)
  | https (session : SessionId)
deriving DecidableEq

structure HttpChannel where
  instanceId : Option String
  activated : Bool := false
  ready : Bool := false
  activatedMs : Int := 0
  lastSeenMs : Int

/-- What the registries of deadlines read of a pending call. -/
structure PendingCall where
  channel : Option DaemonChannel
  daemonInstanceId : String
  (originalDeadlineAt deadlineAt : Int)
  reconnectDeadlineAt : Option Int := none

structure DaemonRegistry where
  sockets : Record SocketId DaemonSocket := .empty
  http : Record SessionId HttpChannel := .empty
  pending : Record CallId PendingCall := .empty

def helloTimeoutMs : Int := 10000

def readyTimeoutMs : Int := 15000

def livenessTimeoutMs : Int := 90000

def httpFallbackLivenessTimeoutMs : Int := 90000

def reconnectGraceMs : Int := 120000

def reconnectResultDeliveryGraceMs : Int := 15000

namespace DaemonAttachment

variable (attachment : DaemonAttachment)

def helloDeadline : Option Int :=
  attachment.connectedAt.map (· + helloTimeoutMs)

def daemonReadyDeadlineMs : Option Int :=
  if attachment.role = .probing then
    attachment.connectedAt.map (· + readyTimeoutMs)
  else none

def daemonLivenessDeadlineMs : Option Int :=
  attachment.lastSeenAt.map (· + livenessTimeoutMs)

/-- The earlier one of two deadlines which both exist. -/
def probeDeadline : Option Int :=
  match attachment.daemonReadyDeadlineMs,
      attachment.daemonLivenessDeadlineMs with
  | some ready, some live => some (min ready live)
  | _, _ => none

/-- The deadline of a socket in its role; missing when it is invalid. -/
def deadline : Option Int :=
  match attachment.role with
  | .candidate => attachment.helloDeadline
  | .probing => attachment.probeDeadline
  | .daemon => attachment.daemonLivenessDeadlineMs
  | .expired => none

end DaemonAttachment

def isFreshDaemonCandidate (attachment : DaemonAttachment) (now : Int) :
    Bool :=
  attachment.connectedAt.any fun connectedAt =>
    0 ≤ now - connectedAt && now - connectedAt ≤ helloTimeoutMs

namespace PendingCall

section

variable (call : PendingCall)

/-- When the call's live timer settles it. -/
def dueAt : Option Int :=
  if call.channel.isSome then some call.deadlineAt
  else call.reconnectDeadlineAt

/-- `extendSettlementForReconnect` -/
def extendSettlement : PendingCall :=
  { call with
    deadlineAt := max call.deadlineAt
      (call.originalDeadlineAt + reconnectResultDeliveryGraceMs) }

/-- The call waits for its daemon. -/
def detach (now : Int) : PendingCall :=
  let settled := { call with channel := none }.extendSettlement
  let remaining := max 1 (settled.deadlineAt - now)
  { settled with
    reconnectDeadlineAt := some (now + min reconnectGraceMs remaining) }

def rebind (channel : DaemonChannel) (now : Int) : PendingCall :=
  let settled := call.extendSettlement
  { settled with
    channel := some channel
    reconnectDeadlineAt := none
    deadlineAt := now + max 1 (settled.deadlineAt - now) }

end

end PendingCall

namespace DaemonRegistry

variable (registry : DaemonRegistry)

def attachment (id : SocketId) : Option DaemonAttachment :=
  (registry.sockets.get? id).map DaemonSocket.attachment

def openSockets (role : DaemonRole) : List SocketId :=
  (registry.sockets.filter fun _ socket =>
    socket.attachment.role == role && socket.isOpen).keys

def candidateSockets : List SocketId := registry.openSockets .candidate

def probingSockets : List SocketId := registry.openSockets .probing

def connectedAt (id : SocketId) : Int :=
  ((registry.attachment id).bind DaemonAttachment.connectedAt).getD 0

/-- The sockets in role `daemon`, the latest connection first. -/
def readyRoleSockets : List SocketId :=
  (registry.openSockets .daemon).insertionSort fun left right =>
    registry.connectedAt right ≤ registry.connectedAt left

section

variable (id : SocketId)

def setSocket (change : DaemonSocket → DaemonSocket) : DaemonRegistry :=
  match registry.sockets.get? id with
  | none => registry
  | some socket =>
    { registry with sockets := registry.sockets.set id (change socket) }

def serializeAttachment (attachment : DaemonAttachment) : DaemonRegistry :=
  registry.setSocket id fun socket => { socket with attachment }

def closeSocket : DaemonRegistry :=
  registry.setSocket id fun socket => { socket with isOpen := false }

end

section

variable (channel : DaemonChannel)

def rejectSocket : DaemonRegistry :=
  { registry with
    pending := registry.pending.filter fun _ call =>
      call.channel != some channel }

def detachSocket (now : Int) : DaemonRegistry :=
  { registry with
    pending := registry.pending.map fun call =>
      if call.channel = some channel then call.detach now else call }

end

def rebindInstance (instanceId : String) (channel : DaemonChannel)
    (now : Int) : DaemonRegistry :=
  if instanceId = "" then registry
  else
    { registry with
      pending := registry.pending.map fun call =>
        if call.daemonInstanceId = instanceId ∧
            call.channel ≠ some channel then
          call.rebind channel now
        else call }

def detachDaemonChannelCalls (channel : DaemonChannel)
    (instanceId : Option String) (now : Int) : DaemonRegistry :=
  if instanceId.isSome then registry.detachSocket channel now
  else registry.rejectSocket channel

def beginCandidate (id connectionId : Nat) (now : Int) : DaemonRegistry :=
  { registry with
    sockets := registry.sockets.set id
      { attachment := {
          role := .candidate
          connectedAt := some now
          connectionId := some connectionId
          hasChallenge := true } } }

def beginProbe (id probeId connectionId : Nat) (instanceId : String)
    (connectedAt : Int) : DaemonRegistry :=
  registry.serializeAttachment id {
    role := .probing
    connectedAt := some connectedAt
    lastSeenAt := some connectedAt
    probeId := some probeId
    instanceId := some instanceId
    connectionId := some connectionId }

section

variable (id : SocketId)

def promote (lastSeenAt : Int) : DaemonRegistry × Option DaemonAttachment :=
  match registry.attachment id with
  | none => (registry, none)
  | some attachment =>
    if attachment.role = .probing then
      let ready := { attachment with
        role := .daemon
        lastSeenAt := some lastSeenAt
        probeId := none }
      (registry.serializeAttachment id ready, some ready)
    else (registry, none)

def touch (lastSeenAt : Int) : DaemonRegistry × Option DaemonAttachment :=
  match registry.attachment id with
  | none => (registry, none)
  | some attachment =>
    if attachment.role = .probing ∨ attachment.role = .daemon then
      let touched := { attachment with lastSeenAt := some lastSeenAt }
      (registry.serializeAttachment id touched, some touched)
    else (registry, none)

/-- What an expired socket still says. -/
def expiredAttachment (attachment : DaemonAttachment) : DaemonAttachment :=
  { attachment with
    role := .expired
    probeId := none
    hasChallenge := false }

def expire : DaemonRegistry :=
  match registry.attachment id with
  | none => registry
  | some attachment =>
    if attachment.role = .expired then registry
    else registry.serializeAttachment id (expiredAttachment attachment)

def beginCleanup : DaemonRegistry × Option DaemonAttachment :=
  match registry.sockets.get? id with
  | none => (registry, none)
  | some socket =>
    if socket.cleaned then (registry, none)
    else
      ((registry.expire id).setSocket id fun socket =>
        { socket with cleaned := true }, some socket.attachment)

/-- A cleanup up to its end: the socket expires and its calls are detached
once. -/
def cleanupDaemonSocket (now : Int) : DaemonRegistry :=
  match registry.beginCleanup id with
  | (begun, some attachment) =>
    begun.detachDaemonChannelCalls (.socket id) attachment.instanceId now
  | (begun, none) => begun

def invalidateDaemonSocket (now : Int) : DaemonRegistry :=
  (registry.cleanupDaemonSocket id now).closeSocket id

end

def httpStale (now : Int) (channel : HttpChannel) : Bool :=
  httpFallbackLivenessTimeoutMs ≤ now - channel.lastSeenMs

def closeHttp (session : SessionId) : DaemonRegistry :=
  { registry with http := registry.http.delete session }

def pruneCandidates (now : Int) : DaemonRegistry :=
  { registry with
    http := registry.http.filter fun _ channel =>
      channel.activated || !httpStale now channel }

def staleOwned (now : Int) : List SessionId :=
  (registry.http.filter fun _ channel =>
    channel.activated && httpStale now channel).keys

section

variable (session : SessionId)

def setHttp (change : HttpChannel → HttpChannel) : DaemonRegistry :=
  match registry.http.get? session with
  | none => registry
  | some channel =>
    { registry with http := registry.http.set session (change channel) }

def touchHttp (now : Int) : DaemonRegistry :=
  registry.setHttp session fun channel => { channel with lastSeenMs := now }

/-- The candidate which was seen least recently. -/
def oldestCandidate : Option SessionId :=
  ((registry.http.filter fun _ channel => !channel.activated).entries.foldl
    (fun oldest entry => match oldest with
      | none => some entry
      | some first =>
        if entry.2.lastSeenMs < first.2.lastSeenMs then some entry
        else some first) none).map Prod.fst

def beginHttpCandidate (instanceId : Option String) (now : Int) :
    DaemonRegistry :=
  if registry.http.contains session then registry.touchHttp session now
  else
    let pruned := registry.pruneCandidates now
    let room : Option DaemonRegistry :=
      if 2 ≤ pruned.http.size then
        pruned.oldestCandidate.map pruned.closeHttp
      else some pruned
    match room with
    | none => pruned
    | some room =>
      { room with
        http := room.http.set session { instanceId, lastSeenMs := now } }

def activateHttp (now : Int) : DaemonRegistry :=
  registry.setHttp session fun channel =>
    { channel with activated := true, activatedMs := now, lastSeenMs := now }

def verifyHttpReady (now : Int) : DaemonRegistry :=
  registry.setHttp session fun channel =>
    if channel.activated then
      { channel with ready := true, lastSeenMs := now }
    else channel

/-- The identity of an HTTP channel counts once it is ready. -/
def httpReadyInstance : Option String :=
  ((registry.http.get? session).filter HttpChannel.ready).bind
    HttpChannel.instanceId

def invalidateHttpChannel (now : Int) : DaemonRegistry :=
  (registry.detachDaemonChannelCalls (.https session)
    (registry.httpReadyInstance session) now).closeHttp session

end

def registerCall (id : CallId) (channel : DaemonChannel)
    (daemonInstanceId : String) (timeoutMs now : Int) : DaemonRegistry :=
  if registry.pending.contains id then registry
  else
    { registry with
      pending := registry.pending.set id {
        channel := some channel
        daemonInstanceId
        originalDeadlineAt := now + timeoutMs
        deadlineAt := now + timeoutMs } }

def settleCall (id : CallId) : DaemonRegistry :=
  { registry with pending := registry.pending.delete id }

def expireDue (now : Int) : DaemonRegistry :=
  { registry with
    pending := registry.pending.filter fun _ call =>
      !call.dueAt.any (· ≤ now) }

@[simp] theorem get?_setSocket (id other : SocketId)
    (change : DaemonSocket → DaemonSocket) :
    (registry.setSocket id change).sockets.get? other = if other = id then
    (registry.sockets.get? id).map change else registry.sockets.get? other :=
    by
  unfold setSocket
  cases found : registry.sockets.get? id with
  | none =>
    by_cases same : other = id
    · simp [same, found]
    · simp [same]
  | some socket => simp

@[simp] theorem pending_setSocket (id : SocketId)
    (change : DaemonSocket → DaemonSocket) :
    (registry.setSocket id change).pending = registry.pending := by
  unfold setSocket
  split <;> rfl

section

variable (channel : DaemonChannel)

@[simp] theorem sockets_detachDaemonChannelCalls (instanceId : Option String)
    (now : Int) :
    (registry.detachDaemonChannelCalls channel instanceId now).sockets =
    registry.sockets := by
  unfold detachDaemonChannelCalls
  split <;> rfl

@[simp] theorem http_detachDaemonChannelCalls (instanceId : Option String)
    (now : Int) :
    (registry.detachDaemonChannelCalls channel instanceId now).http =
    registry.http := by
  unfold detachDaemonChannelCalls
  split <;> rfl

end

variable {id other : SocketId}

theorem get?_expire_of_ne (differ : other ≠ id) :
    (registry.expire id).sockets.get? other = registry.sockets.get? other := by
  unfold expire serializeAttachment
  split
  · rfl
  · split
    · rfl
    · rw [get?_setSocket, if_neg differ]

theorem get?_beginCleanup_of_ne (differ : other ≠ id) :
    (registry.beginCleanup id).1.sockets.get? other =
    registry.sockets.get? other := by
  unfold beginCleanup
  split
  · rfl
  · split
    · rfl
    · rw [get?_setSocket, if_neg differ, get?_expire_of_ne registry differ]

theorem sockets_cleanupDaemonSocket (id : SocketId) (now : Int) :
    (registry.cleanupDaemonSocket id now).sockets =
    (registry.beginCleanup id).1.sockets := by
  unfold cleanupDaemonSocket
  split
  case h_1 begun attachment started =>
    rw [sockets_detachDaemonChannelCalls, started]
  case h_2 begun started => rw [started]

theorem get?_invalidateDaemonSocket_of_ne (now : Int) (differ : other ≠ id) :
    (registry.invalidateDaemonSocket id now).sockets.get? other =
    registry.sockets.get? other := by
  rw [invalidateDaemonSocket, closeSocket, get?_setSocket, if_neg differ,
    sockets_cleanupDaemonSocket, get?_beginCleanup_of_ne registry differ]

theorem invalidateDaemonSocket_closed {now : Int} {socket : DaemonSocket}
    (found : (registry.invalidateDaemonSocket id now).sockets.get? id = some
    socket) : socket.isOpen = false := by
  rw [invalidateDaemonSocket, closeSocket, get?_setSocket, if_pos rfl] at found
  obtain ⟨before, -, same⟩ := Option.map_eq_some_iff.mp found
  rw [← same]

theorem mem_openSockets {role : DaemonRole} : id ∈ registry.openSockets role ↔
    ∃ socket, registry.sockets.get? id = some socket ∧
    socket.attachment.role = role ∧ socket.isOpen = true := by
  rw [openSockets, Record.mem_keys]
  simp only [Record.mem_filter, Record.get?_eq_some, Bool.and_eq_true,
    beq_iff_eq]

theorem mem_readyRoleSockets : id ∈ registry.readyRoleSockets ↔ ∃ socket,
    registry.sockets.get? id = some socket ∧ socket.attachment.role = .daemon ∧
    socket.isOpen = true := by
  rw [readyRoleSockets, List.mem_insertionSort, mem_openSockets]

end DaemonRegistry

end MachineBridge.Daemon
