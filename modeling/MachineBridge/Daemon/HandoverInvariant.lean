import MachineBridge.Daemon.Handover

/-!
# What a handover keeps

The role of a socket moves forward, and a ready or expired socket keeps the
identity of its daemon.  Every pending call of a socket is on a ready one of
its daemon, or on an expired one whose cleanup is still to take effect.
-/

namespace MachineBridge.Daemon

open Foundation List

def DaemonRole.rank : DaemonRole → Nat
  | .candidate => 0
  | .probing => 1
  | .daemon => 2
  | .expired => 3

theorem DaemonRole.expired_of_rank {role : DaemonRole} (last : 3 ≤ role.rank) :
    role = .expired := by
  cases role with
  | expired => rfl
  | candidate | probing | daemon => exact absurd last (by decide)

/-- A socket goes on in its life. -/
structure SocketAdvances (before after : DaemonSocket) : Prop where
  forward : before.attachment.role.rank ≤ after.attachment.role.rank
  identity : 2 ≤ before.attachment.role.rank →
    after.attachment.instanceId = before.attachment.instanceId

theorem SocketAdvances.refl (socket : DaemonSocket) :
    SocketAdvances socket socket := by
  constructor
  · exact Nat.le_refl _
  · intro _
    rfl

theorem SocketAdvances.trans {first second third : DaemonSocket}
    (one : SocketAdvances first second) (other : SocketAdvances second third) :
    SocketAdvances first third := by
  constructor
  · exact Nat.le_trans one.forward other.forward
  · intro established
    rw [other.identity (Nat.le_trans established one.forward),
      one.identity established]

/-- Every socket is kept and goes on in its life. -/
def Advances (before after : DaemonRegistry) : Prop :=
  ∀ id socket, before.sockets.get? id = some socket →
    ∃ next, after.sockets.get? id = some next ∧ SocketAdvances socket next

theorem Advances.of_sockets {before after : DaemonRegistry}
    (same : after.sockets = before.sockets) : Advances before after := by
  intro id socket found
  exact ⟨socket, by rw [same, found], .refl socket⟩

theorem Advances.refl (registry : DaemonRegistry) :
    Advances registry registry := .of_sockets rfl

theorem Advances.trans {first second third : DaemonRegistry}
    (one : Advances first second) (other : Advances second third) :
    Advances first third := by
  intro id socket found
  obtain ⟨middle, foundMiddle, early⟩ := one id socket found
  obtain ⟨last, foundLast, late⟩ := other id middle foundMiddle
  exact ⟨last, foundLast, early.trans late⟩

namespace DaemonRegistry

variable {registry : DaemonRegistry} {id : SocketId}

theorem setSocket_advances {change : DaemonSocket → DaemonSocket}
    (advances : ∀ socket, registry.sockets.get? id = some socket →
      SocketAdvances socket (change socket)) :
    Advances registry (registry.setSocket id change) := by
  intro other socket found
  by_cases same : other = id
  · subst same
    refine ⟨change socket, ?_, advances socket found⟩
    rw [get?_setSocket, if_pos rfl, found, Option.map_some]
  · refine ⟨socket, ?_, .refl socket⟩
    rw [get?_setSocket, if_neg same, found]

theorem attachment_eq_some {attachment : DaemonAttachment} :
    registry.attachment id = some attachment ↔ ∃ socket,
    registry.sockets.get? id = some socket ∧
    socket.attachment = attachment := by
  rw [DaemonRegistry.attachment, Option.map_eq_some_iff]

theorem beginCleanup_cases (registry : DaemonRegistry) (id : SocketId) :
    registry.beginCleanup id = (registry, none) ∨
      ∃ socket, registry.sockets.get? id = some socket ∧
        socket.cleaned = false ∧
        registry.beginCleanup id =
          ((registry.expire id).setSocket id fun socket =>
            { socket with cleaned := true }, some socket.attachment) := by
  unfold beginCleanup
  cases found : registry.sockets.get? id with
  | none => exact .inl rfl
  | some socket =>
    dsimp only
    split
    case isTrue => exact .inl rfl
    case isFalse fresh => exact .inr ⟨socket, rfl, by simpa using fresh, rfl⟩

def cleanedSocket (socket : DaemonSocket) : DaemonSocket :=
  { socket with
    attachment :=
      if socket.attachment.role = .expired then socket.attachment
      else expiredAttachment socket.attachment
    cleaned := true }

theorem get?_beginCleanup {socket : DaemonSocket}
    (found : registry.sockets.get? id = some socket)
    (fresh : socket.cleaned = false) :
    (registry.beginCleanup id).1.sockets.get? id =
    some (cleanedSocket socket) := by
  have expired : (registry.expire id).sockets.get? id =
      some { socket with
        attachment :=
          if socket.attachment.role = .expired then socket.attachment
          else expiredAttachment socket.attachment } := by
    unfold expire attachment
    rw [found, Option.map_some]
    dsimp only
    split
    case isTrue => exact found
    case isFalse =>
      rw [serializeAttachment, get?_setSocket, if_pos rfl, found,
        Option.map_some]
  unfold beginCleanup
  rw [found]
  dsimp only
  rw [if_neg (by simp [fresh]), get?_setSocket, if_pos rfl, expired,
    Option.map_some, cleanedSocket]

theorem cleanedSocket_role (socket : DaemonSocket) :
    (cleanedSocket socket).attachment.role = .expired := by
  unfold cleanedSocket
  split
  case isTrue expired => exact expired
  case isFalse => rfl

theorem cleanedSocket_advances (socket : DaemonSocket) :
    SocketAdvances socket (cleanedSocket socket) := by
  constructor
  · rw [cleanedSocket_role]
    cases socket.attachment.role <;> decide
  · intro _
    unfold cleanedSocket
    split <;> rfl

theorem beginCleanup_advances :
    Advances registry (registry.beginCleanup id).1 := by
  intro other socket found
  by_cases same : other = id
  · subst same
    cases fresh : socket.cleaned with
    | true =>
      refine ⟨socket, ?_, .refl socket⟩
      unfold beginCleanup
      simp [fresh, found]
    | false =>
      exact ⟨_, get?_beginCleanup found fresh, cleanedSocket_advances socket⟩
  · refine ⟨socket, ?_, .refl socket⟩
    rw [get?_beginCleanup_of_ne registry same, found]

theorem beginCleanup_cleaned {socket : DaemonSocket}
    (found : (registry.beginCleanup id).1.sockets.get? id = some socket) :
    socket.cleaned = true := by
  cases stored : registry.sockets.get? id with
  | none =>
    rw [beginCleanup, stored] at found
    rw [stored] at found
    cases found
  | some before =>
    cases fresh : before.cleaned with
    | false =>
      rw [get?_beginCleanup stored fresh] at found
      cases found
      rfl
    | true =>
      rw [beginCleanup, stored] at found
      dsimp only at found
      rw [if_pos fresh] at found
      rw [stored] at found
      cases found
      exact fresh

end DaemonRegistry

def PendingCall.Placed (call : PendingCall) : Prop :=
  call.channel = none → call.reconnectDeadlineAt.isSome = true

theorem PendingCall.detach_placed (call : PendingCall) (now : Int) :
    (call.detach now).Placed := by
  intro _
  rfl

namespace DaemonRegistry

variable {registry : DaemonRegistry} {call : CallId} {info : PendingCall}

variable {channel : DaemonChannel} {now : Int}

theorem get?_detachSocket
    (found : (registry.detachSocket channel now).pending.get? call = some info)
    : (registry.pending.get? call = some info ∧ info.channel ≠ some channel) ∨
    (info.channel = none ∧ info.Placed) := by
  rw [detachSocket, Record.get?_map] at found
  obtain ⟨old, stored, same⟩ := Option.map_eq_some_iff.mp found
  split at same
  case isTrue =>
    right
    rw [← same]
    exact ⟨rfl, old.detach_placed now⟩
  case isFalse differ =>
    left
    rw [← same]
    exact ⟨stored, differ⟩

theorem get?_detachDaemonChannelCalls {instanceId : Option String} (found :
    (registry.detachDaemonChannelCalls channel instanceId now).pending.get?
    call = some info) : (registry.pending.get? call = some info ∧ info.channel
    ≠ some channel) ∨ (info.channel = none ∧ info.Placed) := by
  unfold detachDaemonChannelCalls at found
  split at found
  case isTrue => exact get?_detachSocket found
  case isFalse =>
    left
    rw [rejectSocket, Record.get?_eq_some, Record.mem_filter] at found
    obtain ⟨stored, differ⟩ := found
    exact ⟨Record.get?_eq_some.mpr stored, by simpa using differ⟩

theorem get?_rebindInstance {instanceId : String} (found :
    (registry.rebindInstance instanceId channel now).pending.get? call = some
    info) : registry.pending.get? call = some info ∨
    (info.daemonInstanceId = instanceId ∧ info.channel = some channel) := by
  unfold rebindInstance at found
  split at found
  case isTrue => exact .inl found
  case isFalse =>
    rw [Record.get?_map] at found
    obtain ⟨old, stored, same⟩ := Option.map_eq_some_iff.mp found
    split at same
    case isTrue moved =>
      right
      rw [← same]
      exact ⟨moved.1, rfl⟩
    case isFalse =>
      left
      rw [← same]
      exact stored

theorem get?_registerCall {id : CallId} {instanceId : String} {timeoutMs : Int}
    (found : (registry.registerCall id channel instanceId timeoutMs
    now).pending.get? call = some info) : registry.pending.get? call = some
    info ∨
    (info.daemonInstanceId = instanceId ∧ info.channel = some channel) := by
  unfold registerCall at found
  split at found
  case isTrue => exact .inl found
  case isFalse =>
    rw [Record.get?_set] at found
    split at found
    case isTrue =>
      right
      cases found
      exact ⟨rfl, rfl⟩
    case isFalse => exact .inl found

section

variable (registry : DaemonRegistry)

@[simp] theorem sockets_rebindInstance (instanceId : String)
    (channel : DaemonChannel) (now : Int) :
    (registry.rebindInstance instanceId channel now).sockets =
    registry.sockets := by
  unfold rebindInstance
  split <;> rfl

@[simp] theorem sockets_registerCall (id : CallId) (channel : DaemonChannel)
    (instanceId : String) (timeoutMs now : Int) :
    (registry.registerCall id channel instanceId timeoutMs now).sockets =
    registry.sockets := by
  unfold registerCall
  split <;> rfl

@[simp] theorem sockets_invalidateHttpChannel (session : SessionId)
    (now : Int) : (registry.invalidateHttpChannel session now).sockets =
    registry.sockets := by
  simp [invalidateHttpChannel, closeHttp]

end

end DaemonRegistry

namespace HandoverWorker

def Established (registry : DaemonRegistry) (id : SocketId)
    (instanceId : String) : Prop :=
  ∃ socket, registry.sockets.get? id = some socket ∧
    socket.attachment.instanceId = some instanceId ∧
    2 ≤ socket.attachment.role.rank

theorem Established.advances {before after : DaemonRegistry} {id : SocketId}
    {instanceId : String} (established : Established before id instanceId)
    (advances : Advances before after) : Established after id instanceId := by
  obtain ⟨socket, found, same, rank⟩ := established
  obtain ⟨next, foundNext, step⟩ := advances id socket found
  refine ⟨next, foundNext, ?_, Nat.le_trans rank step.forward⟩
  rw [step.identity rank, same]

/-- The sockets whose cleanup has not yet taken effect. -/
def outstanding (worker : HandoverWorker) : List SocketId :=
  worker.cleaning.map Prod.fst

/-- The channels for which a task stands by. -/
def Holds (task : HandoverTask) (id : SocketId) (instanceId : String) : Prop :=
  task = .dispatch id instanceId ∨
    ∃ https, task = .fallback instanceId (some id) https

/-- What holds of the sockets and their cleanups. -/
structure SocketInvariant (worker : HandoverWorker) : Prop where
  cleaned : ∀ id socket, worker.registry.sockets.get? id = some socket →
    (socket.cleaned = true ↔ socket.attachment.role = .expired)
  begun : ∀ id, id ∈ worker.outstanding ∨ id ∈ worker.cleanups →
    ∃ socket, worker.registry.sockets.get? id = some socket ∧
      socket.cleaned = true
  once : (worker.outstanding ++ worker.cleanups).Nodup

/-- A socket on which calls of a daemon may be: it is ready, or its cleanup is
still to detach them. -/
def Serves (worker : HandoverWorker) (id : SocketId) (instanceId : String) :
    Prop :=
  ∃ socket, worker.registry.sockets.get? id = some socket ∧
    socket.attachment.instanceId = some instanceId ∧
    (socket.attachment.role = .daemon ∨
      socket.attachment.role = .expired ∧ id ∈ worker.outstanding)

/-- What holds of the pending calls and the tasks. -/
structure CallInvariant (worker : HandoverWorker) : Prop where
  bound : ∀ call info id, worker.registry.pending.get? call = some info →
    info.channel = some (.socket id) → worker.Serves id info.daemonInstanceId
  placed : ∀ call info, worker.registry.pending.get? call = some info →
    info.Placed
  held : ∀ task kept id instanceId, worker.tasks.get? task = some kept →
    Holds kept id instanceId → Established worker.registry id instanceId

/-- A step which moves sockets on and leaves the calls alone. -/
structure Rearranges (before after : HandoverWorker) : Prop where
  advances : Advances before.registry after.registry
  pending : after.registry.pending = before.registry.pending
  tasks : after.tasks = before.tasks
  outstanding : ∀ id ∈ before.outstanding, id ∈ after.outstanding
  expiring : ∀ id socket next, before.registry.sockets.get? id = some socket →
    after.registry.sockets.get? id = some next →
    socket.attachment.role = .daemon → next.attachment.role = .expired →
    id ∈ after.outstanding

theorem Rearranges.refl (worker : HandoverWorker) :
    Rearranges worker worker := by
  constructor
  · exact .refl _
  · rfl
  · rfl
  · intro id member
    exact member
  · intro id socket next found foundNext role expired
    rw [found] at foundNext
    cases foundNext
    rw [role] at expired
    cases expired

theorem daemon_or_expired {before after : DaemonSocket}
    (step : SocketAdvances before after)
    (role : before.attachment.role = .daemon) :
    after.attachment.role = .daemon ∨ after.attachment.role = .expired := by
  have rank := step.forward
  rw [role] at rank
  cases next : after.attachment.role with
  | daemon => exact .inl rfl
  | expired => exact .inr rfl
  | candidate | probing =>
    rw [next] at rank
    exact absurd rank (by decide)

theorem Rearranges.trans {first second third : HandoverWorker}
    (one : Rearranges first second) (other : Rearranges second third) :
    Rearranges first third := by
  constructor
  · exact one.advances.trans other.advances
  · rw [other.pending, one.pending]
  · rw [other.tasks, one.tasks]
  · intro id member
    exact other.outstanding id (one.outstanding id member)
  · intro id socket last found foundLast role expired
    obtain ⟨middle, foundMiddle, step⟩ := one.advances id socket found
    rcases daemon_or_expired step role with ready | early
    · exact other.expiring id middle last foundMiddle foundLast ready expired
    · exact other.outstanding id
        (one.expiring id socket middle found foundMiddle role early)

theorem Serves.rearranged {before after : HandoverWorker} {id : SocketId}
    {instanceId : String} (serves : before.Serves id instanceId)
    (step : Rearranges before after) : after.Serves id instanceId := by
  obtain ⟨socket, found, same, ready | ⟨expired, member⟩⟩ := serves
  · obtain ⟨next, foundNext, advance⟩ := step.advances id socket found
    refine ⟨next, foundNext, ?_, ?_⟩
    · rw [advance.identity (by rw [ready]; decide), same]
    · rcases daemon_or_expired advance ready with still | late
      · exact .inl still
      · exact .inr ⟨late,
          step.expiring id socket next found foundNext ready late⟩
  · obtain ⟨next, foundNext, advance⟩ := step.advances id socket found
    refine ⟨next, foundNext, ?_, .inr ⟨?_, step.outstanding id member⟩⟩
    · rw [advance.identity (by rw [expired]; decide), same]
    · apply DaemonRole.expired_of_rank
      have rank := advance.forward
      rwa [expired] at rank

theorem CallInvariant.rearranged {before after : HandoverWorker}
    (invariant : before.CallInvariant) (step : Rearranges before after) :
    after.CallInvariant := by
  constructor
  · intro call info id found channel
    rw [step.pending] at found
    exact (invariant.bound call info id found channel).rearranged step
  · intro call info found
    rw [step.pending] at found
    exact invariant.placed call info found
  · intro task kept id instanceId found holds
    rw [step.tasks] at found
    exact (invariant.held task kept id instanceId found holds).advances
      step.advances

section Socket

variable {worker : HandoverWorker} {id : SocketId}

theorem setSocket_rearranges {change : DaemonSocket → DaemonSocket}
    (advances : ∀ socket, worker.registry.sockets.get? id = some socket →
      SocketAdvances socket (change socket))
    (stays : ∀ socket, worker.registry.sockets.get? id = some socket →
      ((change socket).attachment.role = .expired ↔
        socket.attachment.role = .expired)) :
    Rearranges worker
      { worker with registry := worker.registry.setSocket id change } := by
  constructor
  · exact DaemonRegistry.setSocket_advances advances
  · exact DaemonRegistry.pending_setSocket _ _ _
  · rfl
  · intro other member
    exact member
  · intro other socket next found foundNext role expired
    rw [DaemonRegistry.get?_setSocket] at foundNext
    split at foundNext
    case isFalse =>
      rw [found] at foundNext
      cases foundNext
      rw [role] at expired
      cases expired
    case isTrue same =>
      subst same
      rw [found] at foundNext
      cases foundNext
      rw [(stays socket found).mp expired] at role
      cases role

theorem SocketInvariant.setSocket {change : DaemonSocket → DaemonSocket}
    (invariant : worker.SocketInvariant)
    (same : ∀ socket, (change socket).cleaned = socket.cleaned)
    (stays : ∀ socket, worker.registry.sockets.get? id = some socket →
      ((change socket).attachment.role = .expired ↔
        socket.attachment.role = .expired)) :
    SocketInvariant
      { worker with registry := worker.registry.setSocket id change } := by
  constructor
  · intro other next found
    rw [DaemonRegistry.get?_setSocket] at found
    split at found
    case isFalse => exact invariant.cleaned other next found
    case isTrue =>
      obtain ⟨socket, stored, equal⟩ := Option.map_eq_some_iff.mp found
      rw [← equal, same, stays socket stored]
      exact invariant.cleaned id socket stored
  · intro other member
    obtain ⟨socket, found, cleaned⟩ := invariant.begun other member
    by_cases equal : other = id
    · subst equal
      refine ⟨change socket, ?_, by rw [same, cleaned]⟩
      rw [DaemonRegistry.get?_setSocket, if_pos rfl, found, Option.map_some]
    · refine ⟨socket, ?_, cleaned⟩
      rw [DaemonRegistry.get?_setSocket, if_neg equal, found]
  · exact invariant.once

theorem closeSocket_rearranges : Rearranges worker (worker.closeSocket id) :=
  setSocket_rearranges (fun _ _ => ⟨Nat.le_refl _, fun _ => rfl⟩)
    fun _ _ => Iff.rfl

theorem cleanupDaemonSocket_cases (worker : HandoverWorker) (id : SocketId) :
    worker.cleanupDaemonSocket id = worker ∨
      ∃ socket, worker.registry.sockets.get? id = some socket ∧
        socket.cleaned = false ∧
        worker.cleanupDaemonSocket id =
          { worker with
            registry := (worker.registry.beginCleanup id).1
            cleaning := worker.cleaning ++
              [(id, socket.attachment.instanceId)] } := by
  rcases worker.registry.beginCleanup_cases id with none | begins
  · left
    rw [cleanupDaemonSocket, none]
  · right
    obtain ⟨socket, found, fresh, same⟩ := begins
    refine ⟨socket, found, fresh, ?_⟩
    rw [cleanupDaemonSocket, same]

theorem cleanupDaemonSocket_rearranges :
    Rearranges worker (worker.cleanupDaemonSocket id) := by
  rcases cleanupDaemonSocket_cases worker id with same | begins
  · rw [same]
    exact .refl worker
  · obtain ⟨socket, stored, fresh, same⟩ := begins
    rw [same]
    have member : id ∈ outstanding { worker with
        registry := (worker.registry.beginCleanup id).1
        cleaning := worker.cleaning ++
          [(id, socket.attachment.instanceId)] } := by
      simp [outstanding]
    constructor
    · exact DaemonRegistry.beginCleanup_advances
    · rcases worker.registry.beginCleanup_cases id with none | ⟨_, _, _, eq⟩
      · rw [none]
      · rw [eq]
        rw [DaemonRegistry.pending_setSocket]
        unfold DaemonRegistry.expire DaemonRegistry.serializeAttachment
        split
        · rfl
        · split
          · rfl
          · exact DaemonRegistry.pending_setSocket _ _ _
    · rfl
    · intro other before
      simp only [outstanding, map_append, mem_append]
      exact .inl before
    · intro other before next found foundNext role expired
      by_cases equal : other = id
      · rw [equal]
        exact member
      · dsimp only at foundNext
        rw [DaemonRegistry.get?_beginCleanup_of_ne _ equal, found] at foundNext
        cases foundNext
        rw [role] at expired
        cases expired

theorem SocketInvariant.cleanupDaemonSocket
    (invariant : worker.SocketInvariant) :
    (worker.cleanupDaemonSocket id).SocketInvariant := by
  rcases cleanupDaemonSocket_cases worker id with same | begins
  · rw [same]
    exact invariant
  · obtain ⟨socket, stored, fresh, same⟩ := begins
    rw [same]
    have after := DaemonRegistry.get?_beginCleanup stored fresh
    constructor
    · intro other next found
      by_cases equal : other = id
      · subst equal
        rw [after] at found
        cases found
        constructor
        · intro _
          exact DaemonRegistry.cleanedSocket_role socket
        · intro _
          rfl
      · dsimp only at found
        rw [DaemonRegistry.get?_beginCleanup_of_ne _ equal] at found
        exact invariant.cleaned other next found
    · intro other member
      by_cases equal : other = id
      · exact ⟨_, by rw [equal]; exact after, rfl⟩
      · have old : other ∈ worker.outstanding ∨ other ∈ worker.cleanups := by
          simpa [outstanding, equal] using member
        obtain ⟨before, found, cleaned⟩ := invariant.begun other old
        refine ⟨before, ?_, cleaned⟩
        rw [DaemonRegistry.get?_beginCleanup_of_ne _ equal, found]
    · have absent : id ∉ worker.outstanding ++ worker.cleanups := by
        intro member
        obtain ⟨before, found, cleaned⟩ :=
          invariant.begun id (mem_append.mp member)
        rw [stored] at found
        cases found
        rw [fresh] at cleaned
        cases cleaned
      have nodup := nodup_cons.mpr ⟨absent, invariant.once⟩
      apply (List.Perm.nodup_iff _).mp nodup
      simp only [outstanding, map_append, map_cons, map_nil,
        append_assoc, singleton_append]
      exact perm_middle.symm

theorem invalidateDaemonSocket_rearranges :
    Rearranges worker (worker.invalidateDaemonSocket id) :=
  cleanupDaemonSocket_rearranges.trans closeSocket_rearranges

theorem invalidateDaemonSocket_expired (invariant : worker.SocketInvariant)
    {socket : DaemonSocket} (found : (worker.invalidateDaemonSocket
    id).registry.sockets.get? id = some socket) : socket.attachment.role =
    .expired := by
  rw [HandoverWorker.invalidateDaemonSocket, HandoverWorker.closeSocket,
    DaemonRegistry.closeSocket, DaemonRegistry.get?_setSocket, if_pos rfl]
    at found
  obtain ⟨cleaned, stored, same⟩ := Option.map_eq_some_iff.mp found
  rw [← same]
  exact (invariant.cleanupDaemonSocket.cleaned id cleaned stored).mp
    (DaemonRegistry.beginCleanup_cleaned stored)

end Socket

end HandoverWorker

end MachineBridge.Daemon
