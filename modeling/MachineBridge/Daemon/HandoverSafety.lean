import MachineBridge.Daemon.HandoverRun

/-!
# Safety of the handover

The steps of tool calls and of the HTTP channels, the condition under which no
handler disturbs a socket which has moved on, and what every run under it
keeps.
-/

namespace MachineBridge.Daemon

open Foundation List

/-- The socket which an event ends: it closes or fails, or is invalidated. -/
def HandoverEvent.ended : HandoverEvent → Option SocketId
  | .close socket => some socket
  | .error socket _ => some socket
  | .invalidate socket => some socket
  | _ => none

namespace HandoverWorker

def role (worker : HandoverWorker) (id : SocketId) : Option DaemonRole :=
  (worker.registry.sockets.get? id).map (·.attachment.role)

variable {id : SocketId} {worker : HandoverWorker}

theorem role_eq_some {role : DaemonRole} : worker.role id = some role ↔
    ∃ socket, worker.registry.sockets.get? id = some socket ∧
    socket.attachment.role = role := by
  rw [HandoverWorker.role, Option.map_eq_some_iff]

theorem role_advances {before after : HandoverWorker} {role : DaemonRole}
    (advances : Advances before.registry after.registry)
    (found : before.role id = some role) :
    ∃ next, after.role id = some next ∧ role.rank ≤ next.rank := by
  obtain ⟨socket, stored, same⟩ := role_eq_some.mp found
  obtain ⟨next, kept, step⟩ := advances id socket stored
  refine ⟨next.attachment.role, role_eq_some.mpr ⟨next, kept, rfl⟩, ?_⟩
  rw [← same]
  exact step.forward

section

variable (worker : HandoverWorker)

/-- The handler of a hello finds its socket in the role in which it left it, or
probing. -/
def stillAuthenticates (task : Nat) (authenticated : Bool) : Bool :=
  match worker.tasks.get? task with
  | some (.hello socket (some _) _) =>
    !authenticated || (worker.registry.sockets.get? socket).all fun info =>
      info.attachment.role == .candidate ||
        info.attachment.role == .probing
  | _ => true

/-- A fallback socket which is open still serves its daemon, or its cleanup is
still to come, or there is no call of the daemon. -/
def fallbackServes (task : Nat) : Bool :=
  match worker.tasks.get? task with
  | some (.fallback instanceId (some socket) _) =>
    (worker.registry.sockets.get? socket).all fun info =>
      !info.isOpen || info.attachment.role != .expired ||
        worker.outstanding.contains socket ||
        worker.registry.pending.entries.all fun entry =>
          entry.2.daemonInstanceId != instanceId
  | _ => true

/-- No handler returns to a socket which another event has moved on. -/
def undisturbed : HandoverEvent → Bool
  | .helloVerified task authenticated _ _ =>
    worker.stillAuthenticates task authenticated
  | .resume task => worker.fallbackServes task
  | _ => true

end

theorem stillAuthenticates_early {task : Nat} {socket : SocketId}
    {connectionId : Option Nat} {instanceId : String} {authenticated : Bool}
    (kept : worker.tasks.get? task = some (.hello socket connectionId
    instanceId)) (condition : worker.stillAuthenticates task authenticated =
    true) (verified : authenticated = true) (identified : connectionId.isSome =
    true) (info : DaemonSocket) (found : worker.registry.sockets.get? socket =
    some info) : info.attachment.role.rank ≤ 1 := by
  obtain ⟨connection, rfl⟩ := Option.isSome_iff_exists.mp identified
  unfold stillAuthenticates at condition
  rw [kept] at condition
  simp only [verified, found, Bool.not_true, Bool.false_or, Option.all_some,
    Bool.or_eq_true, beq_iff_eq] at condition
  rcases condition with candidate | probing
  · rw [candidate]
    decide
  · rw [probing]
    decide

theorem fallbackServes_valid {task : Nat} {instanceId : String}
    {https : Option SessionId} (kept : worker.tasks.get? task = some (.fallback
    instanceId (some id) https))
    (condition : worker.fallbackServes task = true) (info : DaemonSocket)
    (found : worker.registry.sockets.get? id = some info)
    (isOpen : info.isOpen = true) (expired : info.attachment.role = .expired) :
    id ∈ worker.outstanding ∨ ∀ call pending, worker.registry.pending.get? call
    = some pending → pending.daemonInstanceId ≠ instanceId := by
  unfold fallbackServes at condition
  rw [kept] at condition
  simp only [found, isOpen, expired, Option.all_some, Bool.not_true,
    bne_self_eq_false, Bool.false_or, Bool.or_eq_true,
    contains_iff_mem, all_eq_true, bne_iff_ne] at condition
  rcases condition with member | none
  · exact .inl member
  · right
    intro call pending stored
    exact none (call, pending) (Record.get?_eq_some.mp stored)

section CallSteps

variable {worker : HandoverWorker}

variable {instanceId : String} {id : SocketId} {call : CallId}
  {session : SessionId}

theorem HandoverInvariant.noCalls {channel : DaemonChannel} {now : Int}
    (invariant : worker.HandoverInvariant)
    (none : ∀ call info, worker.registry.pending.get? call = some info →
      info.daemonInstanceId ≠ instanceId) :
    HandoverInvariant { worker with
      registry := worker.registry.rebindInstance instanceId channel now } := by
  apply invariant.setCalls
  · exact DaemonRegistry.sockets_rebindInstance _ _ _ _
  · intro call info found
    left
    unfold DaemonRegistry.rebindInstance at found
    split at found
    case isTrue => exact found
    case isFalse =>
      rw [Record.get?_map] at found
      obtain ⟨old, stored, same⟩ := Option.map_eq_some_iff.mp found
      rw [if_neg fun moved => none call old stored moved.1] at same
      rw [← same, stored]

theorem Established.serves
    (established : Established worker.registry id instanceId)
    (valid : ∀ socket, worker.registry.sockets.get? id = some socket →
      socket.attachment.role = .expired → id ∈ worker.outstanding) :
    worker.Serves id instanceId := by
  obtain ⟨socket, found, same, rank⟩ := established
  refine ⟨socket, found, same, ?_⟩
  cases role : socket.attachment.role with
  | daemon => exact .inl rfl
  | expired => exact .inr ⟨rfl, valid socket found role⟩
  | candidate | probing =>
    rw [role] at rank
    exact absurd rank (by decide)

theorem rebindFallback_progresses {socket : Option SocketId}
    {https : Option SessionId} (valid : ∀ id, socket = some id →
      Established worker.registry id instanceId ∧ ∀ info,
      worker.registry.sockets.get? id = some info → info.isOpen = true →
      info.attachment.role = .expired → id ∈ worker.outstanding ∨
      ∀ call pending, worker.registry.pending.get? call = some pending →
      pending.daemonInstanceId ≠ instanceId) :
    Progresses worker (worker.rebindFallback instanceId socket https) := by
  unfold rebindFallback
  split
  case h_1 id chosen =>
    obtain ⟨same, isOpen⟩ := Option.filter_eq_some_iff.mp chosen
    obtain ⟨established, serves⟩ := valid id same
    refine ⟨.of_sockets (DaemonRegistry.sockets_rebindInstance _ _ _ _), ?_⟩
    intro invariant
    by_cases none : ∀ call pending, worker.registry.pending.get? call = some
        pending → pending.daemonInstanceId ≠ instanceId
    case pos => exact invariant.noCalls none
    case neg =>
      apply invariant.rebind
      intro other equal
      cases equal
      apply established.serves
      intro info found expired
      rw [found] at isOpen
      rcases serves info found isOpen expired with member | absent
      · exact member
      · exact absurd absent none
  case h_2 =>
    split
    case h_1 session chosen =>
      refine ⟨.of_sockets (DaemonRegistry.sockets_rebindInstance _ _ _ _), ?_⟩
      intro invariant
      apply invariant.rebind
      intro id same
      cases same
    case h_2 => exact .refl worker

theorem selectSocket_progresses :
    Progresses worker (worker.selectSocket id) := by
  unfold selectSocket
  split
  case h_1 => exact .refl worker
  case h_2 attachment stored =>
    split
    case h_1 instanceId role identity =>
      refine ⟨.refl _, fun invariant => invariant.spawn ?_⟩
      intro other name holds
      rcases holds with same | ⟨https, same⟩
      · cases same
        obtain ⟨socket, found, equal⟩ :=
          DaemonRegistry.attachment_eq_some.mp stored
        refine ⟨socket, found, ?_, ?_⟩
        · rw [equal, identity]
        · rw [equal, role]
          decide
      · cases same
    case h_2 => exact .refl worker

theorem HandoverInvariant.send {dispatch : ToolDispatch}
    (invariant : worker.HandoverInvariant)
    (role : dispatch.role = .daemon)
    (acknowledged : dispatch.acknowledged = true) :
    HandoverInvariant
      { worker with dispatches := worker.dispatches ++ [dispatch] } := by
  constructor
  · exact ⟨invariant.sockets.cleaned, invariant.sockets.begun,
      invariant.sockets.once⟩
  · exact ⟨invariant.calls.bound, invariant.calls.placed, invariant.calls.held⟩
  · constructor
    · exact invariant.acks.ready
    · intro other member
      rcases mem_append.mp member with old | new
      · exact invariant.acks.sent other old
      · rw [mem_singleton.mp new]
        exact ⟨role, acknowledged⟩

theorem dispatchCall_progresses {timeoutMs : Int}
    (established : Established worker.registry id instanceId) :
    Progresses worker (worker.dispatchCall id instanceId call timeoutMs) := by
  unfold dispatchCall
  split
  case h_1 => exact .refl worker
  case h_2 info found =>
    split
    case isFalse => exact .refl worker
    case isTrue ready =>
      obtain ⟨-, role, -⟩ := ready
      refine ⟨.of_sockets (DaemonRegistry.sockets_registerCall _ _ _ _ _ _),
        ?_⟩
      intro invariant
      have serves : ∀ other, DaemonChannel.socket id = .socket other →
          worker.Serves other instanceId := by
        intro other same
        cases same
        apply established.serves
        intro socket stored expired
        rw [found] at stored
        cases stored
        rw [role] at expired
        cases expired
      apply (invariant.register serves).send
      · exact role
      · exact contains_iff_mem.mpr (invariant.acks.ready id info found role)

theorem httpDispatch_progresses {timeoutMs : Int} :
    Progresses worker (worker.httpDispatch session call timeoutMs) := by
  unfold httpDispatch
  split
  case h_1 => exact .refl worker
  case h_2 instanceId ready =>
    refine ⟨.of_sockets (DaemonRegistry.sockets_registerCall _ _ _ _ _ _), ?_⟩
    intro invariant
    apply invariant.register
    intro id same
    cases same

theorem httpTakeover_progresses :
    Progresses worker (worker.httpTakeover session) := by
  unfold httpTakeover
  split
  case h_1 => exact .refl worker
  case h_2 instanceId ready =>
    refine ⟨.of_sockets (DaemonRegistry.sockets_rebindInstance _ _ _ _), ?_⟩
    intro invariant
    apply invariant.rebind
    intro id same
    cases same

theorem httpReady_progresses :
    Progresses worker (worker.httpReady session instanceId) := by
  unfold httpReady
  split
  case isTrue => exact .refl worker
  case isFalse =>
    refine ⟨.of_sockets rfl, ?_⟩
    intro invariant
    apply invariant.setCalls
    · rfl
    · intro call info found
      exact .inl found

theorem settle_progresses :
    Progresses worker
      { worker with registry := worker.registry.settleCall call } :=
  ⟨.of_sockets rfl, HandoverInvariant.settle⟩

theorem advance_progresses {clock : Int} :
    Progresses worker { worker with clock } := by
  refine ⟨.refl _, ?_⟩
  intro invariant
  constructor
  · exact ⟨invariant.sockets.cleaned, invariant.sockets.begun,
      invariant.sockets.once⟩
  · exact ⟨invariant.calls.bound, invariant.calls.placed, invariant.calls.held⟩
  · exact ⟨invariant.acks.ready, invariant.acks.sent⟩

end CallSteps

theorem step_progresses {event : HandoverEvent}
    (invariant : worker.HandoverInvariant)
    (condition : worker.undisturbed event = true) :
    Progresses worker (worker.step event) := by
  cases event with
  | advance elapsed => exact advance_progresses
  | accept socket connectionId => exact acceptDaemonWebSocket_moves.progresses
  | hello socket instanceId => exact handleHello_progresses
  | helloVerified task authenticated probeId sent =>
    unfold step
    dsimp only
    split
    case h_2 => exact .refl worker
    case h_1 socket connectionId instanceId kept =>
      have early := stillAuthenticates_early kept condition
      apply endTask_progresses.trans
      exact helloVerified_progresses early
  | probeResult socket probeId => exact handleProbeResult_progresses
  | promote task sent =>
    unfold step
    dsimp only
    split
    case h_1 socket kept => exact promoteSocket_progresses
    case h_2 => exact .refl worker
  | resume task =>
    unfold step
    dsimp only
    split
    case h_1 instanceId socket https kept =>
      apply endTask_progresses.trans
      apply rebindFallback_progresses
      intro id same
      rw [same] at kept
      have valid := fallbackServes_valid kept condition
      constructor
      · exact invariant.calls.held task _ id instanceId kept
          (.inr ⟨https, rfl⟩)
      · exact valid
    case h_2 sockets https kept => exact retireNext_progresses
    case h_3 => exact .refl worker
  | message socket => exact handleMessage_moves.progresses
  | drain socket => exact drainSocket_moves.progresses
  | close socket =>
    have moves : Moves worker (worker.endSocket socket false) :=
      endSocket_moves
    exact moves.progresses
  | error socket isOpen =>
    have moves : Moves worker (worker.endSocket socket isOpen) :=
      endSocket_moves
    exact moves.progresses
  | invalidate socket => exact invalidateDaemonSocket_moves.progresses
  | reject socket => exact closeSocket_moves.progresses
  | cleanup => exact detachCleaned_progresses
  | select socket => exact selectSocket_progresses
  | dispatch task call timeoutMs =>
    unfold step
    dsimp only
    split
    case h_2 => exact .refl worker
    case h_1 socket instanceId kept =>
      apply endTask_progresses.trans
      apply dispatchCall_progresses
      exact invariant.calls.held task _ socket instanceId kept (.inl rfl)
  | settle call => exact settle_progresses
  | httpReady session instanceId => exact httpReady_progresses
  | httpDispatch session call timeoutMs => exact httpDispatch_progresses
  | httpTakeover session => exact httpTakeover_progresses
  | httpClose session => exact invalidateHttp_progresses session

theorem start_invariant : start.HandoverInvariant := by
  constructor
  · constructor
    · intro id socket found
      cases found
    · intro id member
      rcases member with member | member <;> cases member
    · exact nodup_nil
  · constructor
    · intro call info id found
      cases found
    · intro call info found
      cases found
    · intro task kept id instanceId found
      cases found
  · constructor
    · intro id socket found
      cases found
    · intro dispatch member
      cases member

theorem run_progresses {events : List HandoverEvent}
    (invariant : worker.HandoverInvariant) (meets : Meets step (fun worker
    event => worker.undisturbed event = true) worker events) : Advances
    worker.registry (run step worker events).registry ∧
    (run step worker events).HandoverInvariant := by
  induction events generalizing worker with
  | nil => exact ⟨.refl _, invariant⟩
  | cons event events induction =>
    obtain ⟨condition, rest⟩ := meets
    have one := step_progresses invariant condition
    obtain ⟨advances, kept⟩ := induction (one.invariant invariant) rest
    exact ⟨one.advances.trans advances, kept⟩

theorem cleanupDaemonSocket_role (invariant : worker.SocketInvariant)
    {role : DaemonRole} (before : worker.role id = some role) :
    (worker.cleanupDaemonSocket id).role id = some .expired := by
  obtain ⟨socket, found, -⟩ := role_eq_some.mp before
  obtain ⟨next, after, -⟩ :=
    cleanupDaemonSocket_rearranges.advances id socket found
  refine role_eq_some.mpr ⟨next, after, ?_⟩
  exact (invariant.cleanupDaemonSocket.cleaned id next after).mp
    (DaemonRegistry.beginCleanup_cleaned after)

theorem expired_advances {after : HandoverWorker}
    (advances : Advances worker.registry after.registry)
    (expired : worker.role id = some .expired) :
    after.role id = some .expired := by
  obtain ⟨next, same, rank⟩ := role_advances advances expired
  rw [same, DaemonRole.expired_of_rank rank]

theorem step_ended {event : HandoverEvent} {role : DaemonRole}
    (invariant : worker.SocketInvariant) (ended : event.ended = some id)
    (before : worker.role id = some role) :
    (worker.step event).role id = some .expired := by
  have cleaned := cleanupDaemonSocket_role invariant before
  have closed : ((worker.cleanupDaemonSocket id).closeSocket id).role id =
      some .expired :=
    expired_advances closeSocket_rearranges.advances cleaned
  cases event <;> cases ended
  case close => exact closed
  case invalidate => exact closed
  case error isOpen =>
    cases isOpen with
    | true => exact cleaned
    | false => exact closed

/-- What holds of a whole run. -/
structure HandsOver (events : List HandoverEvent) : Prop where
  /-- Roles move forward, and the last one is kept. -/
  forward : ∀ before after id role, events = before ++ after →
    (run step start before).role id = some role →
    ∃ next, (run step start events).role id = some next ∧
      role.rank ≤ next.rank
  ended : ∀ before event after id role, events = before ++ event :: after →
    event.ended = some id → (run step start before).role id = some role →
    (run step start events).role id = some .expired
  dispatched : ∀ dispatch ∈ (run step start events).dispatches,
    dispatch.role = .daemon ∧ dispatch.acknowledged = true
  once : (run step start events).cleanups.Nodup
  /-- A call of a socket is on a ready one of its daemon, unless the cleanup
  which detaches it is the next to run. -/
  bound : ∀ call info id,
    (run step start events).registry.pending.get? call = some info →
    info.channel = some (.socket id) →
    (run step start events).Serves id info.daemonInstanceId
  waiting : ∀ call info,
    (run step start events).registry.pending.get? call = some info →
    info.channel = none → info.reconnectDeadlineAt.isSome = true

/-- As long as no handler returns to a socket which has moved on, the roles of
all sockets move forward and no call is left behind. -/
theorem run_handsOver {events : List HandoverEvent} (meets : Meets step (fun
    worker event => worker.undisturbed event = true) start events) : HandsOver
    events := by
  have last := (run_progresses start_invariant meets).2
  constructor
  · intro before after id role split found
    rw [split] at meets ⊢
    obtain ⟨early, late⟩ := meets_append.mp meets
    have middle := (run_progresses start_invariant early).2
    rw [run_append]
    exact role_advances (run_progresses middle late).1 found
  · intro before event after id role split ended found
    rw [split] at meets ⊢
    obtain ⟨early, condition, late⟩ := meets_append.mp meets
    have middle := (run_progresses start_invariant early).2
    have expired := step_ended middle.sockets ended found
    have next := (step_progresses middle condition).invariant middle
    rw [run_append, run_cons]
    exact expired_advances (run_progresses next late).1 expired
  · exact last.acks.sent
  · exact (nodup_append.mp last.sockets.once).2.1
  · exact last.calls.bound
  · exact last.calls.placed

/-- A daemon connects a second time, and its first socket is replaced while a
call is pending; the replacement then closes. -/
def secondConnection : List HandoverEvent :=
  [.accept 1 10, .hello 1 (some "daemon"), .helloVerified 0 true 5 true,
    .probeResult 1 5, .promote 1 true, .resume 1, .select 1,
    .dispatch 2 7 60000, .accept 2 11, .hello 2 (some "daemon"),
    .helloVerified 3 true 6 true, .probeResult 2 6, .promote 4 true,
    .cleanup, .resume 4, .close 2, .cleanup]

theorem secondConnection_handsOver : HandsOver secondConnection :=
  run_handsOver (by decide)

/-- A socket closes while the signature of its hello is being verified. -/
def closeBeforeVerification : List HandoverEvent :=
  [.accept 1 10, .hello 1 (some "daemon"), .close 1, .cleanup,
    .helloVerified 0 true 5 true]

theorem closeBeforeVerification_leavesExpired :
    ¬ HandsOver closeBeforeVerification := by
  intro claimed
  obtain ⟨next, same, rank⟩ := claimed.forward (closeBeforeVerification.take 4)
    (closeBeforeVerification.drop 4) 1 .expired (by decide) (by decide +kernel)
  have probing :
      (run step start closeBeforeVerification).role 1 = some .probing := by
    decide
  cases same
  exact absurd rank (by decide)

end HandoverWorker

end MachineBridge.Daemon
