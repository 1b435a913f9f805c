import MachineBridge.Daemon.Registry

/-!
# The minimum behind the runtime alarm

An invocation sweeps the registries for the earliest deadline, reads the stored
alarm and then sets, keeps or deletes it.  The sweep before the read and the
decision after it are single steps; a missing deadline is infinitely late.
-/

namespace MachineBridge.Daemon

open Foundation List

def earlier : Option Int → Option Int → Option Int
  | none, other => other
  | first, none => first
  | some first, some other => some (min first other)

def Below (deadline : Option Int) (time : Int) : Prop :=
  ∃ value, deadline = some value ∧ value ≤ time

namespace DaemonRegistry

variable (registry : DaemonRegistry)

def socketDeadlines : List Int :=
  (registry.sockets.values.filter DaemonSocket.isOpen).filterMap
    (·.attachment.deadline)

def httpDeadlines : List Int :=
  registry.http.values.map (·.lastSeenMs + httpFallbackLivenessTimeoutMs)

def pendingDeadlines : List Int :=
  registry.pending.values.filterMap PendingCall.dueAt

def daemonDeadlines : List Int :=
  registry.socketDeadlines ++ registry.httpDeadlines

def deadlines : List Int :=
  registry.daemonDeadlines ++ registry.pendingDeadlines

end DaemonRegistry

structure AlarmSweep where
  registry : DaemonRegistry
  nextDeadline : Option Int := none

section

variable (now : Int)

/-- One pass of a loop over sockets: an invalid or expired deadline invalidates
the socket. -/
def AlarmSweep.visit (deadlineOf : DaemonAttachment → Option Int)
    (expires : Int → Bool) (sweep : AlarmSweep) (id : SocketId) : AlarmSweep :=
  match (sweep.registry.attachment id).bind deadlineOf with
  | none =>
    { sweep with registry := sweep.registry.invalidateDaemonSocket id now }
  | some deadline =>
    if expires deadline then
      { sweep with
        registry := sweep.registry.invalidateDaemonSocket id now }
    else
      { sweep with
        nextDeadline := earlier sweep.nextDeadline (some deadline) }

def AlarmSweep.visitAll (deadlineOf : DaemonAttachment → Option Int)
    (expires : Int → Bool) (sockets : DaemonRegistry → List SocketId)
    (sweep : AlarmSweep) : AlarmSweep :=
  (sockets sweep.registry).foldl (AlarmSweep.visit now deadlineOf expires)
    sweep

def sweepSockets (expires : Int → Bool) (registry : DaemonRegistry) :
    AlarmSweep :=
  let candidates := AlarmSweep.visitAll now DaemonAttachment.helloDeadline
    expires DaemonRegistry.candidateSockets { registry }
  let probing := candidates.visitAll now DaemonAttachment.probeDeadline
    expires DaemonRegistry.probingSockets
  probing.visitAll now DaemonAttachment.daemonLivenessDeadlineMs expires
    DaemonRegistry.readyRoleSockets

/-- `nextDeadline(now)` of the HTTP registry. -/
def httpNextDeadline (registry : DaemonRegistry) : Option Int :=
  registry.httpDeadlines.min?.map fun first => max (now + 1) first

end

/-- `now` is the time stamp of the invocation, `clock` the reading of the
registry. -/
def pendingAlarmDeadline (now clock : Int) (registry : DaemonRegistry) :
    Option Int :=
  registry.pendingDeadlines.min?.map fun first =>
    now + max 1 (max 0 (first - clock))

/-- What scheduling computes before it reads the stored alarm. -/
def scheduleSweep (now : Int) (registry : DaemonRegistry) : AlarmSweep :=
  let sockets := sweepSockets now (fun _ => false) registry
  let pruned := sockets.registry.pruneCandidates now
  { registry := pruned
    nextDeadline := earlier sockets.nextDeadline (httpNextDeadline now pruned) }

/-- What the alarm handler computes before it reads the stored alarm. -/
def processSweep (now : Int) (registry : DaemonRegistry) : AlarmSweep :=
  let sockets := sweepSockets now (fun deadline => deadline ≤ now)
    (registry.expireDue now)
  let pruned := sockets.registry.pruneCandidates now
  let owned := (pruned.staleOwned now).foldl
    (fun registry session => registry.invalidateHttpChannel session now) pruned
  { registry := owned
    nextDeadline := earlier
      (earlier sockets.nextDeadline (httpNextDeadline now owned))
      (pendingAlarmDeadline now now owned) }

inductive AlarmAction where
  | noop
  | delete
  | set (target : Int)

def writeEarliestRuntimeAlarm (now : Int) (nextDeadline current : Option Int) :
    AlarmAction :=
  match nextDeadline with
  | none => if current.isNone then .noop else .delete
  | some deadline =>
    let target := max now deadline
    if current.any fun current => now < current && current ≤ target then
      .noop
    else .set target

theorem Below.trans {deadline : Option Int} {time later : Int}
    (below : Below deadline time) (order : time ≤ later) :
    Below deadline later := by
  obtain ⟨value, same, within⟩ := below
  exact ⟨value, same, le_trans within order⟩

theorem below_earlier_left {first : Option Int} (second : Option Int)
    {time : Int} (below : Below first time) :
    Below (earlier first second) time := by
  obtain ⟨value, rfl, within⟩ := below
  cases second with
  | none => exact ⟨value, rfl, within⟩
  | some other => exact ⟨min value other, rfl,
      le_trans (min_le_left value other) within⟩

theorem below_earlier_right (first : Option Int) {second : Option Int}
    {time : Int} (below : Below second time) :
    Below (earlier first second) time := by
  obtain ⟨value, rfl, within⟩ := below
  cases first with
  | none => exact ⟨value, rfl, within⟩
  | some other => exact ⟨min other value, rfl,
      le_trans (min_le_right other value) within⟩

namespace DaemonRegistry

theorem mem_socketDeadlines {registry : DaemonRegistry} {deadline : Int} :
    deadline ∈ registry.socketDeadlines ↔ ∃ id socket,
    registry.sockets.get? id = some socket ∧ socket.isOpen = true ∧
    socket.attachment.deadline = some deadline := by
  simp only [socketDeadlines, mem_filterMap, List.mem_filter,
    Record.mem_values, Record.get?_eq_some]
  constructor
  · rintro ⟨socket, ⟨⟨id, stored⟩, isOpen⟩, same⟩
    exact ⟨id, socket, stored, isOpen, same⟩
  · rintro ⟨id, socket, stored, isOpen, same⟩
    exact ⟨socket, ⟨⟨id, stored⟩, isOpen⟩, same⟩

end DaemonRegistry

/-- What a loop over sockets leaves: open sockets are the ones before it, and
the deadlines of the visited ones are counted. -/
structure Swept (deadlineOf : DaemonAttachment → Option Int)
    (visited : List SocketId) (before after : AlarmSweep) : Prop where
  kept : ∀ id socket, after.registry.sockets.get? id = some socket →
    socket.isOpen = true → before.registry.sockets.get? id = some socket
  counted : ∀ id ∈ visited, ∀ socket,
    after.registry.sockets.get? id = some socket → socket.isOpen = true →
    ∃ deadline, deadlineOf socket.attachment = some deadline ∧
      Below after.nextDeadline deadline
  lower : ∀ time, Below before.nextDeadline time →
    Below after.nextDeadline time

section Sweep

variable (now : Int) (deadlineOf : DaemonAttachment → Option Int)
  (expires : Int → Bool)

theorem swept_invalidated (sweep : AlarmSweep) (id : SocketId) :
    Swept deadlineOf [id] sweep
      { sweep with
        registry := sweep.registry.invalidateDaemonSocket id now } := by
  constructor
  · intro other socket found isOpen
    by_cases same : other = id
    · subst same
      have closed := DaemonRegistry.invalidateDaemonSocket_closed _ found
      exact absurd isOpen (by simp [closed])
    · rwa [DaemonRegistry.get?_invalidateDaemonSocket_of_ne _ now same]
        at found
  · intro other member socket found isOpen
    rw [mem_singleton.mp member] at found
    have closed := DaemonRegistry.invalidateDaemonSocket_closed _ found
    exact absurd isOpen (by simp [closed])
  · intro time below
    exact below

theorem visit_swept (sweep : AlarmSweep) (id : SocketId) :
    Swept deadlineOf [id] sweep (sweep.visit now deadlineOf expires id) := by
  unfold AlarmSweep.visit
  split
  case h_1 => exact swept_invalidated now deadlineOf sweep id
  case h_2 deadline valid =>
    split
    case isTrue => exact swept_invalidated now deadlineOf sweep id
    case isFalse =>
      constructor
      · intro other socket found _
        exact found
      · intro other member socket found _
        rw [mem_singleton.mp member] at found
        refine ⟨deadline, ?_, below_earlier_right _ ⟨deadline, rfl, le_rfl⟩⟩
        simpa [DaemonRegistry.attachment, found] using valid
      · intro time below
        exact below_earlier_left _ below

theorem Swept.trans {deadlineOf : DaemonAttachment → Option Int}
    {first second : List SocketId} {start middle finish : AlarmSweep}
    (one : Swept deadlineOf first start middle)
    (other : Swept deadlineOf second middle finish) :
    Swept deadlineOf (first ++ second) start finish := by
  constructor
  · intro id socket found isOpen
    exact one.kept id socket (other.kept id socket found isOpen) isOpen
  · intro id member socket found isOpen
    rcases mem_append.mp member with early | late
    · obtain ⟨deadline, same, below⟩ := one.counted id early socket
        (other.kept id socket found isOpen) isOpen
      exact ⟨deadline, same, other.lower deadline below⟩
    · exact other.counted id late socket found isOpen
  · intro time below
    exact other.lower time (one.lower time below)

theorem foldl_swept (ids : List SocketId) (sweep : AlarmSweep) : Swept
    deadlineOf ids sweep
    (ids.foldl (AlarmSweep.visit now deadlineOf expires) sweep) := by
  induction ids generalizing sweep with
  | nil =>
    constructor
    · intro id socket found _
      exact found
    · intro id member
      cases member
    · intro time below
      exact below
  | cons id ids induction =>
    have head := visit_swept now deadlineOf expires sweep id
    exact head.trans (induction _)

/-- A loop over the open sockets of a role. -/
def Lists (sockets : DaemonRegistry → List SocketId) (role : DaemonRole) :
    Prop :=
  ∀ registry id socket, registry.sockets.get? id = some socket →
    socket.attachment.role = role → socket.isOpen = true →
    id ∈ sockets registry

theorem candidateSockets_lists :
    Lists DaemonRegistry.candidateSockets .candidate := by
  intro registry id socket found role isOpen
  exact (registry.mem_openSockets).mpr ⟨socket, found, role, isOpen⟩

theorem probingSockets_lists :
    Lists DaemonRegistry.probingSockets .probing := by
  intro registry id socket found role isOpen
  exact (registry.mem_openSockets).mpr ⟨socket, found, role, isOpen⟩

theorem readyRoleSockets_lists :
    Lists DaemonRegistry.readyRoleSockets .daemon := by
  intro registry id socket found role isOpen
  exact (registry.mem_readyRoleSockets).mpr ⟨socket, found, role, isOpen⟩

theorem visitAll_counted {role : DaemonRole} {sockets : DaemonRegistry → List
    SocketId} (lists : Lists sockets role) {sweep : AlarmSweep} {id : SocketId}
    {socket : DaemonSocket} (found : (sweep.visitAll now deadlineOf expires
    sockets).registry.sockets.get? id = some socket) (isOpen : socket.isOpen =
    true) (same : socket.attachment.role = role) : ∃ deadline, deadlineOf
    socket.attachment = some deadline ∧ Below (sweep.visitAll now deadlineOf
    expires sockets).nextDeadline deadline := by
  have swept := foldl_swept now deadlineOf expires (sockets sweep.registry)
    sweep
  have before := swept.kept id socket found isOpen
  have visited := lists sweep.registry id socket before same isOpen
  exact swept.counted id visited socket found isOpen

end Sweep

theorem sweepSockets_below {now : Int} {expires : Int → Bool}
    {registry : DaemonRegistry} {deadline : Int} (member : deadline ∈
    (sweepSockets now expires registry).registry.socketDeadlines) : Below
    (sweepSockets now expires registry).nextDeadline deadline := by
  obtain ⟨id, socket, found, isOpen, same⟩ :=
    DaemonRegistry.mem_socketDeadlines.mp member
  unfold sweepSockets at found ⊢
  dsimp only at found ⊢
  generalize atCandidates : AlarmSweep.visitAll now
    DaemonAttachment.helloDeadline expires DaemonRegistry.candidateSockets
    { registry } =
    candidates at found ⊢
  generalize atProbing : candidates.visitAll now DaemonAttachment.probeDeadline
    expires DaemonRegistry.probingSockets = probing at found ⊢
  have last := foldl_swept now DaemonAttachment.daemonLivenessDeadlineMs
    expires probing.registry.readyRoleSockets probing
  have middle := foldl_swept now DaemonAttachment.probeDeadline expires
    candidates.registry.probingSockets candidates
  have foundProbing := last.kept id socket found isOpen
  have foundCandidates := middle.kept id socket
    (by rwa [← atProbing] at foundProbing) isOpen
  cases role : socket.attachment.role with
  | candidate =>
    rw [← atCandidates] at foundCandidates
    obtain ⟨value, valid, below⟩ := visitAll_counted now _ expires
      candidateSockets_lists foundCandidates isOpen role
    rw [DaemonAttachment.deadline, role] at same
    have equal := Option.some.inj (valid.symm.trans same)
    rw [atCandidates, equal] at below
    apply last.lower
    rw [← atProbing]
    exact middle.lower _ below
  | probing =>
    rw [← atProbing] at foundProbing
    obtain ⟨value, valid, below⟩ := visitAll_counted now _ expires
      probingSockets_lists foundProbing isOpen role
    rw [DaemonAttachment.deadline, role] at same
    have equal := Option.some.inj (valid.symm.trans same)
    rw [atProbing, equal] at below
    exact last.lower _ below
  | daemon =>
    obtain ⟨value, valid, below⟩ := visitAll_counted now _ expires
      readyRoleSockets_lists found isOpen role
    rw [DaemonAttachment.deadline, role] at same
    have equal := Option.some.inj (valid.symm.trans same)
    rwa [equal] at below
  | expired =>
    rw [DaemonAttachment.deadline, role] at same
    cases same

theorem min?_below {deadlines : List Int} {deadline : Int}
    (member : deadline ∈ deadlines) :
    ∃ first, deadlines.min? = some first ∧ first ≤ deadline := by
  cases least : deadlines.min? with
  | none =>
    rw [min?_eq_none_iff] at least
    simp [least] at member
  | some first =>
    exact ⟨first, rfl, (min?_eq_some_iff.mp least).2 deadline member⟩

theorem httpNextDeadline_below {now deadline : Int} {registry : DaemonRegistry}
    (member : deadline ∈ registry.httpDeadlines) :
    Below (httpNextDeadline now registry) (max deadline (now + 1)) := by
  obtain ⟨first, least, within⟩ := min?_below member
  rw [httpNextDeadline, least]
  refine ⟨max (now + 1) first, rfl, ?_⟩
  omega

theorem pendingAlarmDeadline_below {now clock deadline : Int}
    {registry : DaemonRegistry} (passed : now ≤ clock)
    (member : deadline ∈ registry.pendingDeadlines) : Below
    (pendingAlarmDeadline now clock registry) (max deadline (now + 1)) := by
  obtain ⟨first, least, within⟩ := min?_below member
  rw [pendingAlarmDeadline, least]
  refine ⟨now + max 1 (max 0 (first - clock)), rfl, ?_⟩
  omega

theorem socketDeadlines_pruneCandidates (registry : DaemonRegistry)
    (now : Int) :
    (registry.pruneCandidates now).socketDeadlines =
      registry.socketDeadlines := rfl

theorem scheduleSweep_below {now deadline : Int} {registry : DaemonRegistry}
    (member : deadline ∈ (scheduleSweep now registry).registry.daemonDeadlines)
    : Below (scheduleSweep now registry).nextDeadline (max deadline (now + 1))
    := by
  have counted := @sweepSockets_below now (fun _ => false) registry deadline
  unfold scheduleSweep at member ⊢
  rw [DaemonRegistry.daemonDeadlines, mem_append,
    socketDeadlines_pruneCandidates] at member
  rcases member with socket | http
  · apply below_earlier_left
    exact (counted socket).trans (le_max_left _ _)
  · exact below_earlier_right _ (httpNextDeadline_below http)

theorem foldl_invalidateHttp_sockets (now : Int) (sessions : List SessionId)
    (registry : DaemonRegistry) : (sessions.foldl (fun registry session =>
    registry.invalidateHttpChannel session now) registry).sockets =
    registry.sockets := by
  induction sessions generalizing registry with
  | nil => rfl
  | cons session sessions induction =>
    rw [foldl_cons, induction]
    simp [DaemonRegistry.invalidateHttpChannel, DaemonRegistry.closeHttp]

theorem processSweep_below {now deadline : Int} {registry : DaemonRegistry}
    (member : deadline ∈ (processSweep now registry).registry.deadlines) :
    Below (processSweep now registry).nextDeadline (max deadline (now + 1)) :=
    by
  have counted := @sweepSockets_below now (fun deadline => deadline ≤ now)
    (registry.expireDue now) deadline
  unfold processSweep at member ⊢
  dsimp only at member ⊢
  generalize sweepSockets now (fun deadline => deadline ≤ now)
    (registry.expireDue now) = sockets at member counted ⊢
  have unchanged := foldl_invalidateHttp_sockets now
    ((sockets.registry.pruneCandidates now).staleOwned now)
    (sockets.registry.pruneCandidates now)
  generalize ((sockets.registry.pruneCandidates now).staleOwned now).foldl
    (fun registry session => registry.invalidateHttpChannel session now)
    (sockets.registry.pruneCandidates now) = owned at member unchanged ⊢
  have same : owned.socketDeadlines = sockets.registry.socketDeadlines := by
    rw [DaemonRegistry.socketDeadlines, unchanged]
    rfl
  rw [DaemonRegistry.deadlines, mem_append,
    DaemonRegistry.daemonDeadlines, mem_append, same] at member
  rcases member with (socket | http) | pending
  · apply below_earlier_left
    apply below_earlier_left
    exact (counted socket).trans (le_max_left _ _)
  · apply below_earlier_left
    exact below_earlier_right _ (httpNextDeadline_below http)
  · exact below_earlier_right _ (pendingAlarmDeadline_below le_rfl pending)

end MachineBridge.Daemon
