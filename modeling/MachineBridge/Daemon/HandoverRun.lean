import MachineBridge.Daemon.HandoverInvariant

/-!
# Runs of the handover

Every event keeps the invariant and moves every role forward, as long as no
handler returns to a socket which another event has moved on in the meantime.
-/

namespace MachineBridge.Daemon

open Foundation List

namespace HandoverWorker

/-- Ready sockets are acknowledged, and calls are sent to them only. -/
structure AckInvariant (worker : HandoverWorker) : Prop where
  ready : ∀ id socket, worker.registry.sockets.get? id = some socket →
    socket.attachment.role = .daemon → id ∈ worker.acknowledged
  sent : ∀ dispatch ∈ worker.dispatches,
    dispatch.role = .daemon ∧ dispatch.acknowledged = true

structure HandoverInvariant (worker : HandoverWorker) : Prop where
  sockets : worker.SocketInvariant
  calls : worker.CallInvariant
  acks : worker.AckInvariant

/-- No socket becomes ready. -/
def PromotesNone (before after : HandoverWorker) : Prop :=
  ∀ id next, after.registry.sockets.get? id = some next →
    next.attachment.role = .daemon →
    ∃ socket, before.registry.sockets.get? id = some socket ∧
      socket.attachment.role = .daemon

/-- A step which moves sockets on, none of them to readiness. -/
structure Moves (before after : HandoverWorker) : Prop where
  rearranges : Rearranges before after
  sockets : before.SocketInvariant → after.SocketInvariant
  promotesNone : PromotesNone before after
  acknowledged : after.acknowledged = before.acknowledged
  dispatches : after.dispatches = before.dispatches

theorem Moves.refl (worker : HandoverWorker) : Moves worker worker := by
  constructor
  · exact .refl worker
  · exact id
  · intro id socket found role
    exact ⟨socket, found, role⟩
  · rfl
  · rfl

theorem Moves.trans {first second third : HandoverWorker}
    (one : Moves first second) (other : Moves second third) :
    Moves first third := by
  constructor
  · exact one.rearranges.trans other.rearranges
  · intro invariant
    exact other.sockets (one.sockets invariant)
  · intro id last found role
    obtain ⟨middle, foundMiddle, ready⟩ := other.promotesNone id last found role
    exact one.promotesNone id middle foundMiddle ready
  · rw [other.acknowledged, one.acknowledged]
  · rw [other.dispatches, one.dispatches]

variable {after before : HandoverWorker}

theorem AckInvariant.promotesNone (invariant : before.AckInvariant)
    (none : PromotesNone before after)
    (acknowledged : after.acknowledged = before.acknowledged)
    (dispatches : after.dispatches = before.dispatches) :
    after.AckInvariant := by
  constructor
  · intro id socket found role
    obtain ⟨old, foundOld, ready⟩ := none id socket found role
    rw [acknowledged]
    exact invariant.ready id old foundOld ready
  · rw [dispatches]
    exact invariant.sent

theorem HandoverInvariant.moves (invariant : before.HandoverInvariant)
    (moves : Moves before after) : after.HandoverInvariant := by
  constructor
  · exact moves.sockets invariant.sockets
  · exact invariant.calls.rearranged moves.rearranges
  · exact invariant.acks.promotesNone moves.promotesNone moves.acknowledged
      moves.dispatches

section Sockets

variable {worker : HandoverWorker} {id : SocketId}

theorem setSocket_moves {change : DaemonSocket → DaemonSocket}
    (same : ∀ socket, (change socket).cleaned = socket.cleaned)
    (advances : ∀ socket, worker.registry.sockets.get? id = some socket →
      SocketAdvances socket (change socket))
    (stays : ∀ socket, worker.registry.sockets.get? id = some socket →
      ((change socket).attachment.role = .expired ↔
        socket.attachment.role = .expired) ∧
      ((change socket).attachment.role = .daemon →
        socket.attachment.role = .daemon)) :
    Moves worker
      { worker with registry := worker.registry.setSocket id change } := by
  constructor
  · exact setSocket_rearranges advances fun socket found =>
      (stays socket found).1
  · intro invariant
    exact invariant.setSocket same fun socket found => (stays socket found).1
  · intro other next found role
    rw [DaemonRegistry.get?_setSocket] at found
    split at found
    case isTrue equal =>
      obtain ⟨socket, stored, changed⟩ := Option.map_eq_some_iff.mp found
      rw [← changed] at role
      exact ⟨socket, by rw [equal, stored], (stays socket stored).2 role⟩
    case isFalse => exact ⟨next, found, role⟩
  · rfl
  · rfl

theorem closeSocket_moves : Moves worker (worker.closeSocket id) := by
  apply setSocket_moves
  · intro socket
    rfl
  · intro socket _
    exact ⟨Nat.le_refl _, fun _ => rfl⟩
  · intro socket _
    exact ⟨Iff.rfl, fun role => role⟩

theorem serializeAttachment_moves {attachment next : DaemonAttachment}
    (stored : worker.registry.attachment id = some attachment)
    (role : next.role = attachment.role)
    (identity : next.instanceId = attachment.instanceId) :
    Moves worker
      { worker with
        registry := worker.registry.serializeAttachment id next } := by
  obtain ⟨socket, found, same⟩ := DaemonRegistry.attachment_eq_some.mp stored
  have only : ∀ other, worker.registry.sockets.get? id = some other →
      other.attachment = attachment := by
    intro other foundOther
    rw [found] at foundOther
    cases foundOther
    exact same
  apply setSocket_moves
  · intro other
    rfl
  · intro other foundOther
    constructor
    · rw [only other foundOther, role]
    · intro _
      rw [only other foundOther]
      exact identity
  · intro other foundOther
    rw [only other foundOther]
    rw [role]
    exact ⟨Iff.rfl, fun ready => ready⟩

theorem cleanupDaemonSocket_moves :
    Moves worker (worker.cleanupDaemonSocket id) := by
  constructor
  · exact cleanupDaemonSocket_rearranges
  · intro invariant
    exact invariant.cleanupDaemonSocket
  · intro other next found role
    by_cases equal : other = id
    · subst equal
      rcases worker.registry.beginCleanup_cases other with none | begins
      · have unchanged : (worker.cleanupDaemonSocket other).registry =
            worker.registry := by
          rw [cleanupDaemonSocket, none]
        rw [unchanged] at found
        exact ⟨next, found, role⟩
      · obtain ⟨socket, stored, fresh, -⟩ := begins
        have after := DaemonRegistry.get?_beginCleanup stored fresh
        have changed := Option.some.inj (found.symm.trans after)
        rw [changed, DaemonRegistry.cleanedSocket_role] at role
        cases role
    · refine ⟨next, ?_, role⟩
      rw [← found]
      exact (DaemonRegistry.get?_beginCleanup_of_ne _ equal).symm
  · rfl
  · rfl

theorem invalidateDaemonSocket_moves :
    Moves worker (worker.invalidateDaemonSocket id) :=
  cleanupDaemonSocket_moves.trans closeSocket_moves

theorem invalidateDaemonSocket_advances (worker : HandoverWorker)
    (id : SocketId) :
    Advances worker.registry (worker.invalidateDaemonSocket id).registry :=
  invalidateDaemonSocket_rearranges.advances

theorem endSocket_moves {isOpen : Bool} :
    Moves worker (worker.endSocket id isOpen) := by
  unfold endSocket
  split
  case isTrue => exact cleanupDaemonSocket_moves
  case isFalse => exact cleanupDaemonSocket_moves.trans closeSocket_moves

theorem touchSocket_moves : Moves worker (worker.touchSocket id) := by
  unfold touchSocket DaemonRegistry.touch
  cases stored : worker.registry.attachment id with
  | none => exact .refl worker
  | some attachment =>
    dsimp only
    split
    case isTrue => exact serializeAttachment_moves stored rfl rfl
    case isFalse => exact .refl worker

theorem drainSocket_moves : Moves worker (worker.drainSocket id) := by
  unfold drainSocket
  split
  case h_1 => exact .refl worker
  case h_2 attachment stored =>
    split
    case isTrue => exact serializeAttachment_moves stored rfl rfl
    case isFalse => exact .refl worker

theorem handleMessage_moves : Moves worker (worker.handleMessage id) := by
  unfold handleMessage
  split
  case h_1 => exact closeSocket_moves
  case h_2 attachment stored =>
    split
    case isTrue => exact touchSocket_moves
    case isFalse => exact closeSocket_moves

variable {connectionId : Nat}

theorem beginCandidate_moves {now : Int}
    (fresh : worker.registry.sockets.get? id = none) :
    Moves worker
      { worker with
        registry := worker.registry.beginCandidate id connectionId now } := by
  have other : ∀ key socket, worker.registry.sockets.get? key = some socket →
      (worker.registry.beginCandidate id connectionId now).sockets.get? key =
      some socket := by
    intro key socket found
    have differ : key ≠ id := by
      rintro rfl
      rw [fresh] at found
      cases found
    simp [DaemonRegistry.beginCandidate, differ, found]
  constructor
  · constructor
    · intro key socket found
      exact ⟨socket, other key socket found, .refl socket⟩
    · rfl
    · rfl
    · intro key member
      exact member
    · intro key socket next found foundNext role expired
      rw [other key socket found] at foundNext
      cases foundNext
      rw [role] at expired
      cases expired
  · intro invariant
    constructor
    · intro key socket found
      simp only [DaemonRegistry.beginCandidate, Record.get?_set] at found
      split at found
      case isTrue =>
        cases found
        constructor
        · intro cleaned
          cases cleaned
        · intro expired
          cases expired
      case isFalse => exact invariant.cleaned key socket found
    · intro key member
      obtain ⟨socket, found, cleaned⟩ := invariant.begun key member
      exact ⟨socket, other key socket found, cleaned⟩
    · exact invariant.once
  · intro key next found role
    simp only [DaemonRegistry.beginCandidate, Record.get?_set] at found
    split at found
    case isTrue =>
      cases found
      cases role
    case isFalse => exact ⟨next, found, role⟩
  · rfl
  · rfl

section

variable (sockets : List SocketId)

theorem closeAll_moves (worker : HandoverWorker) :
    Moves worker (run closeSocket worker sockets) := by
  induction sockets generalizing worker with
  | nil => exact .refl worker
  | cons socket sockets induction =>
    exact closeSocket_moves.trans (induction (worker.closeSocket socket))

theorem closeAll_absent {worker : HandoverWorker}
    (absent : worker.registry.sockets.get? id = none) :
    (run closeSocket worker sockets).registry.sockets.get? id = none := by
  induction sockets generalizing worker with
  | nil => exact absent
  | cons socket sockets induction =>
    apply induction
    rw [closeSocket, DaemonRegistry.closeSocket, DaemonRegistry.get?_setSocket]
    split
    case isTrue same => rw [← same, absent, Option.map_none]
    case isFalse => exact absent

end

theorem acceptDaemonWebSocket_moves :
    Moves worker (worker.acceptDaemonWebSocket id connectionId) := by
  unfold acceptDaemonWebSocket
  split
  case isTrue => exact .refl worker
  case isFalse absent =>
    have missing : worker.registry.sockets.get? id = none := by
      simpa [Record.contains] using absent
    have moves := closeAll_moves worker.nonReadySockets worker
    exact moves.trans (beginCandidate_moves
      (closeAll_absent worker.nonReadySockets missing))

theorem beginProbe_moves {probeId : Nat} {instanceId : String} {now : Int}
    (early : ∀ socket, worker.registry.sockets.get? id = some socket →
      socket.attachment.role.rank ≤ 1) :
    Moves worker
      { worker with
        registry := worker.registry.beginProbe id probeId connectionId
          instanceId now } := by
  apply setSocket_moves
  · intro socket
    rfl
  · intro socket found
    constructor
    · exact early socket found
    · intro established
      exact absurd (early socket found) (by omega)
  · intro socket found
    have role := early socket found
    constructor
    · constructor
      · intro expired
        cases expired
      · intro expired
        rw [expired] at role
        exact absurd role (by decide)
    · intro ready
      cases ready

end Sockets

section Tasks

variable {worker : HandoverWorker}

theorem HandoverInvariant.setTasks {tasks : Record Nat HandoverTask}
    {nextTask : Nat} (invariant : worker.HandoverInvariant)
    (new : ∀ task kept, tasks.get? task = some kept →
      worker.tasks.get? task = some kept ∨
      ∀ id instanceId, Holds kept id instanceId →
        Established worker.registry id instanceId) :
    HandoverInvariant { worker with tasks, nextTask } := by
  refine ⟨⟨invariant.sockets.cleaned, invariant.sockets.begun,
    invariant.sockets.once⟩, ⟨invariant.calls.bound, invariant.calls.placed,
    ?_⟩, ⟨invariant.acks.ready, invariant.acks.sent⟩⟩
  intro task kept id instanceId found holds
  rcases new task kept found with old | valid
  · exact invariant.calls.held task kept id instanceId old holds
  · exact valid id instanceId holds

theorem HandoverInvariant.setTask {task : Nat} {kept : HandoverTask}
    (invariant : worker.HandoverInvariant)
    (valid : ∀ id instanceId, Holds kept id instanceId →
      Established worker.registry id instanceId) :
    HandoverInvariant { worker with tasks := worker.tasks.set task kept } := by
  apply invariant.setTasks
  intro other found stored
  rw [Record.get?_set] at stored
  split at stored
  case isTrue =>
    cases stored
    exact .inr valid
  case isFalse => exact .inl stored

theorem HandoverInvariant.spawn {kept : HandoverTask}
    (invariant : worker.HandoverInvariant) (valid : ∀ id instanceId,
      Holds kept id instanceId → Established worker.registry id instanceId) :
    (worker.spawn kept).HandoverInvariant := by
  apply invariant.setTasks
  intro other found stored
  rw [Record.get?_set] at stored
  split at stored
  case isTrue =>
    cases stored
    exact .inr valid
  case isFalse => exact .inl stored

theorem HandoverInvariant.endTask {task : Nat}
    (invariant : worker.HandoverInvariant) :
    (worker.endTask task).HandoverInvariant := by
  apply invariant.setTasks
  intro other found stored
  rw [Record.get?_delete] at stored
  split at stored
  case isTrue => cases stored
  case isFalse => exact .inl stored

end Tasks

section Calls

variable {worker : HandoverWorker}

theorem HandoverInvariant.setCalls {registry : DaemonRegistry}
    (invariant : worker.HandoverInvariant)
    (same : registry.sockets = worker.registry.sockets)
    (calls : ∀ call info, registry.pending.get? call = some info →
      worker.registry.pending.get? call = some info ∨
      (info.channel = none ∧ info.Placed) ∨
      ∃ channel, info.channel = some channel ∧ ∀ id,
        channel = .socket id → worker.Serves id info.daemonInstanceId) :
    HandoverInvariant { worker with registry } := by
  have advances : Advances worker.registry registry := .of_sockets same
  have serves : ∀ {id instanceId}, worker.Serves id instanceId →
      Serves { worker with registry } id instanceId := by
    rintro id instanceId ⟨socket, found, rest⟩
    exact ⟨socket, by rw [← same] at found; exact found, rest⟩
  constructor
  · constructor
    · intro id socket found
      rw [same] at found
      exact invariant.sockets.cleaned id socket found
    · intro id member
      obtain ⟨socket, found, cleaned⟩ := invariant.sockets.begun id member
      exact ⟨socket, by dsimp only; rw [same, found], cleaned⟩
    · exact invariant.sockets.once
  · constructor
    · intro call info id found channel
      rcases calls call info found with old | ⟨none, -⟩ | ⟨other, on, valid⟩
      · exact serves (invariant.calls.bound call info id old channel)
      · rw [none] at channel
        cases channel
      · rw [on] at channel
        exact serves (valid id (Option.some.inj channel))
    · intro call info found
      rcases calls call info found with old | ⟨-, placed⟩ | ⟨other, on, -⟩
      · exact invariant.calls.placed call info old
      · exact placed
      · intro none
        rw [on] at none
        cases none
    · intro task kept id instanceId found holds
      exact (invariant.calls.held task kept id instanceId found
        holds).advances advances
  · constructor
    · intro id socket found role
      rw [same] at found
      exact invariant.acks.ready id socket found role
    · exact invariant.acks.sent

theorem HandoverInvariant.rebind {instanceId : String}
    {channel : DaemonChannel} {now : Int}
    (invariant : worker.HandoverInvariant)
    (serves : ∀ id, channel = .socket id → worker.Serves id instanceId) :
    HandoverInvariant { worker with
      registry := worker.registry.rebindInstance instanceId channel now } := by
  apply invariant.setCalls
  · exact DaemonRegistry.sockets_rebindInstance _ _ _ _
  · intro call info found
    rcases DaemonRegistry.get?_rebindInstance found with old | ⟨same, on⟩
    · exact .inl old
    · refine .inr (.inr ⟨channel, on, ?_⟩)
      rw [same]
      exact serves

theorem HandoverInvariant.register {call : CallId} {instanceId : String}
    {channel : DaemonChannel} {timeoutMs now : Int}
    (invariant : worker.HandoverInvariant)
    (serves : ∀ id, channel = .socket id → worker.Serves id instanceId) :
    HandoverInvariant { worker with
      registry := worker.registry.registerCall call channel instanceId
        timeoutMs now } := by
  apply invariant.setCalls
  · exact DaemonRegistry.sockets_registerCall _ _ _ _ _ _
  · intro other info found
    rcases DaemonRegistry.get?_registerCall found with old | ⟨same, on⟩
    · exact .inl old
    · refine .inr (.inr ⟨channel, on, ?_⟩)
      rw [same]
      exact serves

theorem HandoverInvariant.invalidateHttp {session : SessionId} {now : Int}
    (invariant : worker.HandoverInvariant) :
    HandoverInvariant { worker with
      registry := worker.registry.invalidateHttpChannel session now } := by
  apply invariant.setCalls
  · exact DaemonRegistry.sockets_invalidateHttpChannel _ _ _
  · intro call info found
    rcases DaemonRegistry.get?_detachDaemonChannelCalls found with
      ⟨old, -⟩ | detached
    · exact .inl old
    · exact .inr (.inl detached)

theorem HandoverInvariant.settle {call : CallId}
    (invariant : worker.HandoverInvariant) :
    HandoverInvariant { worker with
      registry := worker.registry.settleCall call } := by
  apply invariant.setCalls
  · rfl
  · intro other info found
    rw [DaemonRegistry.settleCall, Record.get?_delete] at found
    split at found
    case isTrue => cases found
    case isFalse => exact .inl found

theorem HandoverInvariant.detachCleaned
    (invariant : worker.HandoverInvariant) :
    worker.detachCleaned.HandoverInvariant := by
  unfold HandoverWorker.detachCleaned
  split
  case h_1 => exact invariant
  case h_2 socket instanceId rest cleaning =>
    have same := DaemonRegistry.sockets_detachDaemonChannelCalls
      worker.registry (.socket socket) instanceId worker.clock
    have listed : worker.outstanding = socket :: rest.map Prod.fst := by
      rw [outstanding, cleaning, map_cons]
    constructor
    · constructor
      · intro id info found
        rw [same] at found
        exact invariant.sockets.cleaned id info found
      · intro id member
        have old : id ∈ worker.outstanding ∨ id ∈ worker.cleanups := by
          rw [listed]
          simp only [outstanding, mem_append, mem_singleton] at member
          simp only [mem_cons]
          tauto
        obtain ⟨info, found, cleaned⟩ := invariant.sockets.begun id old
        exact ⟨info, by dsimp only; rw [same, found], cleaned⟩
      · have once := invariant.sockets.once
        rw [listed] at once
        apply (List.Perm.nodup_iff _).mp once
        rw [← append_assoc]
        exact (perm_append_singleton _ _).symm
    · constructor
      · intro call info id found channel
        rcases DaemonRegistry.get?_detachDaemonChannelCalls found with
          ⟨old, differ⟩ | ⟨none, -⟩
        · obtain ⟨info', foundSocket, identity, role⟩ :=
            invariant.calls.bound call info id old channel
          refine ⟨info', by dsimp only; rw [same, foundSocket], identity, ?_⟩
          rcases role with ready | ⟨expired, member⟩
          · exact .inl ready
          · refine .inr ⟨expired, ?_⟩
            rw [listed] at member
            rcases mem_cons.mp member with equal | later
            · rw [channel, equal] at differ
              exact absurd rfl differ
            · exact later
        · rw [none] at channel
          cases channel
      · intro call info found
        rcases DaemonRegistry.get?_detachDaemonChannelCalls found with
          ⟨old, -⟩ | ⟨-, placed⟩
        · exact invariant.calls.placed call info old
        · exact placed
      · intro task kept id other found holds
        exact (invariant.calls.held task kept id other found holds).advances
          (.of_sockets same)
    · constructor
      · intro id info found role
        rw [same] at found
        exact invariant.acks.ready id info found role
      · exact invariant.acks.sent

end Calls

/-- A step which keeps the invariant and moves every socket on. -/
structure Progresses (before after : HandoverWorker) : Prop where
  advances : Advances before.registry after.registry
  invariant : before.HandoverInvariant → after.HandoverInvariant

theorem Progresses.refl (worker : HandoverWorker) :
    Progresses worker worker := ⟨.refl _, id⟩

theorem Progresses.trans {first second third : HandoverWorker}
    (one : Progresses first second) (other : Progresses second third) :
    Progresses first third := by
  constructor
  · exact one.advances.trans other.advances
  · intro invariant
    exact other.invariant (one.invariant invariant)

theorem Moves.progresses (moves : Moves before after) :
    Progresses before after :=
  ⟨moves.rearranges.advances, fun invariant => invariant.moves moves⟩

section Steps

variable {worker : HandoverWorker}

variable {task : Nat} {id : SocketId}

theorem endTask_progresses : Progresses worker (worker.endTask task) :=
  ⟨.refl _, HandoverInvariant.endTask⟩

theorem setTask_progresses {kept : HandoverTask}
    (free : ∀ id instanceId, ¬ Holds kept id instanceId) :
    Progresses worker { worker with tasks := worker.tasks.set task kept } := by
  refine ⟨.refl _, ?_⟩
  intro invariant
  apply invariant.setTask
  intro id instanceId holds
  exact absurd holds (free id instanceId)

theorem handleHello_progresses {instanceId : Option String} :
    Progresses worker (worker.handleHello id instanceId) := by
  unfold handleHello
  split
  case h_1 => exact closeSocket_moves.progresses
  case h_2 attachment stored =>
    split
    case isTrue => exact closeSocket_moves.progresses
    case isFalse =>
      split
      case h_1 => exact closeSocket_moves.progresses
      case h_2 name chosen =>
        refine ⟨.refl _, fun invariant => invariant.spawn ?_⟩
        rintro other held (same | ⟨https, same⟩) <;> cases same

theorem helloVerified_progresses {connectionId : Option Nat}
    {instanceId : String} {authenticated : Bool} {probeId : Nat} {sent : Bool}
    (early : authenticated = true → connectionId.isSome = true → ∀ socket,
      worker.registry.sockets.get? id = some socket →
      socket.attachment.role.rank ≤ 1) : Progresses worker
    (worker.helloVerified id connectionId instanceId authenticated probeId sent)
    := by
  unfold helloVerified
  split
  case h_1 => exact closeSocket_moves.progresses
  case h_2 connection =>
    split
    case isTrue => exact closeSocket_moves.progresses
    case isFalse verified =>
      have probing := early (by simpa using verified) rfl
      split
      case isTrue => exact (beginProbe_moves probing).progresses
      case isFalse =>
        exact ((beginProbe_moves probing).trans
          invalidateDaemonSocket_moves).progresses

theorem handleProbeResult_progresses {probeId : Nat} :
    Progresses worker (worker.handleProbeResult id probeId) := by
  unfold handleProbeResult
  split
  case h_1 => exact closeSocket_moves.progresses
  case h_2 attachment stored =>
    split
    case isTrue => exact (touchSocket_moves.trans closeSocket_moves).progresses
    case isFalse =>
      split
      case isTrue =>
        refine ⟨.refl _, fun invariant => invariant.spawn ?_⟩
        rintro other held (same | ⟨https, same⟩) <;> cases same
      case isFalse => exact closeSocket_moves.progresses

theorem invalidateHttp_progresses (session : SessionId) :
    Progresses worker { worker with
      registry :=
        worker.registry.invalidateHttpChannel session worker.clock } :=
  ⟨.of_sockets (DaemonRegistry.sockets_invalidateHttpChannel _ _ _),
    HandoverInvariant.invalidateHttp⟩

theorem retireNext_progresses {sockets : List SocketId}
    {https : List SessionId} :
    Progresses worker (worker.retireNext task sockets https) := by
  have free : ∀ sockets https id instanceId,
      ¬ Holds (.retire sockets https) id instanceId := by
    rintro sockets https id instanceId (same | ⟨https', same⟩) <;> cases same
  unfold retireNext
  split
  case h_1 socket rest =>
    exact invalidateDaemonSocket_moves.progresses.trans
      (setTask_progresses (free _ _))
  case h_2 session rest =>
    exact (invalidateHttp_progresses session).trans
      (setTask_progresses (free _ _))
  case h_3 => exact endTask_progresses

theorem detachCleaned_progresses : Progresses worker worker.detachCleaned := by
  refine ⟨?_, HandoverInvariant.detachCleaned⟩
  unfold HandoverWorker.detachCleaned
  split
  case h_1 => exact .refl _
  case h_2 =>
    exact .of_sockets (DaemonRegistry.sockets_detachDaemonChannelCalls _ _ _ _)

end Steps

section Promotion

variable {worker : HandoverWorker} {id : SocketId}

/-- A probing socket which becomes ready and is acknowledged. -/
def promoted (worker : HandoverWorker) (id : SocketId)
    (ready : DaemonAttachment) : HandoverWorker :=
  { worker with
    registry := worker.registry.serializeAttachment id ready
    acknowledged := id :: worker.acknowledged }

theorem promote_some {registry : DaemonRegistry} {ready : DaemonAttachment}
    (done : worker.registry.promote id worker.clock = (registry, some ready)) :
    ∃ socket, worker.registry.sockets.get? id = some socket ∧
    socket.attachment.role = .probing ∧ ready.role = .daemon ∧
    ready.instanceId = socket.attachment.instanceId ∧
    registry = worker.registry.serializeAttachment id ready := by
  unfold DaemonRegistry.promote at done
  cases stored : worker.registry.attachment id with
  | none =>
    rw [stored] at done
    cases done
  | some attachment =>
    rw [stored] at done
    obtain ⟨socket, found, same⟩ := DaemonRegistry.attachment_eq_some.mp stored
    dsimp only at done
    split at done
    case isFalse => cases done
    case isTrue probing =>
      cases done
      refine ⟨socket, found, ?_, rfl, ?_, rfl⟩
      · rw [same, probing]
      · rw [same]

variable {ready : DaemonAttachment} {socket : DaemonSocket}
  (found : worker.registry.sockets.get? id = some socket)
  (probing : socket.attachment.role = .probing) (daemon : ready.role = .daemon)

include found probing daemon

theorem promoted_advances :
    Advances worker.registry (worker.promoted id ready).registry := by
  apply DaemonRegistry.setSocket_advances
  intro other foundOther
  rw [found] at foundOther
  cases foundOther
  constructor
  · rw [probing, daemon]
    decide
  · intro established
    rw [probing] at established
    exact absurd established (by decide)

theorem promoted_invariant (invariant : worker.HandoverInvariant) :
    (worker.promoted id ready).HandoverInvariant := by
  have only : ∀ other, worker.registry.sockets.get? id = some other →
      (ready.role = .expired ↔ other.attachment.role = .expired) := by
    intro other foundOther
    rw [found] at foundOther
    cases foundOther
    rw [probing, daemon]
    decide
  have rearranges : Rearranges worker { worker with
      registry := worker.registry.serializeAttachment id ready } := by
    apply setSocket_rearranges _ only
    intro other foundOther
    rw [found] at foundOther
    cases foundOther
    constructor
    · rw [probing, daemon]
      decide
    · intro established
      rw [probing] at established
      exact absurd established (by decide)
  have sockets : SocketInvariant { worker with
      registry := worker.registry.serializeAttachment id ready } :=
    invariant.sockets.setSocket (fun _ => rfl) only
  have calls := invariant.calls.rearranged rearranges
  constructor
  · exact ⟨sockets.cleaned, sockets.begun, sockets.once⟩
  · exact ⟨calls.bound, calls.placed, calls.held⟩
  · constructor
    · intro other next foundNext role
      simp only [promoted, DaemonRegistry.serializeAttachment,
        DaemonRegistry.get?_setSocket] at foundNext
      split at foundNext
      case isTrue same => exact same ▸ mem_cons_self
      case isFalse =>
        apply mem_cons_of_mem
        exact invariant.acks.ready other next foundNext role
    · exact invariant.acks.sent

omit found probing daemon

theorem HandoverInvariant.unacknowledged
    (invariant : HandoverInvariant
      { worker with acknowledged := id :: worker.acknowledged })
    (expired : ∀ socket, worker.registry.sockets.get? id = some socket →
      socket.attachment.role = .expired) : worker.HandoverInvariant := by
  constructor
  · exact ⟨invariant.sockets.cleaned, invariant.sockets.begun,
      invariant.sockets.once⟩
  · exact ⟨invariant.calls.bound, invariant.calls.placed, invariant.calls.held⟩
  · constructor
    · intro other next foundNext role
      rcases mem_cons.mp (invariant.acks.ready other next foundNext role)
        with same | member
      · rw [same] at foundNext
        rw [expired next foundNext] at role
        cases role
      · exact member
    · exact invariant.acks.sent

def taken (worker : HandoverWorker) (id : SocketId) (ready : DaemonAttachment)
    (instanceId : String) : HandoverWorker :=
  { worker.promoted id ready with
    registry := (worker.promoted id ready).registry.rebindInstance instanceId
      (.socket id) worker.clock }

variable {instanceId : String}

theorem taken_progresses
    (found : worker.registry.sockets.get? id = some socket)
    (probing : socket.attachment.role = .probing)
    (daemon : ready.role = .daemon)
    (identity : ready.instanceId = some instanceId) :
    Progresses worker (worker.taken id ready instanceId) := by
  have promotion : Progresses worker (worker.promoted id ready) :=
    ⟨promoted_advances found probing daemon,
      promoted_invariant found probing daemon⟩
  have rebinding : Progresses (worker.promoted id ready)
      (worker.taken id ready instanceId) := by
    refine ⟨.of_sockets (DaemonRegistry.sockets_rebindInstance _ _ _ _), ?_⟩
    intro invariant
    apply invariant.rebind
    rintro other same
    cases same
    refine ⟨{ socket with attachment := ready }, ?_, identity, .inl daemon⟩
    simp [promoted, DaemonRegistry.serializeAttachment, found]
  exact promotion.trans rebinding

theorem fallback_established {registry : DaemonRegistry} {other : SocketId}
    (chosen : ((registry.readyRoleSockets.filter (· ≠ id)).find? fun other =>
    (registry.attachment other).any (·.instanceId = some instanceId)) = some
    other) : Established registry other instanceId := by
  have listed := mem_of_find?_eq_some chosen
  have same := find?_some chosen
  obtain ⟨socket, found, role, -⟩ := (registry.mem_readyRoleSockets).mp
    (List.mem_filter.mp listed).1
  refine ⟨socket, found, ?_, by rw [role]; decide⟩
  simpa [DaemonRegistry.attachment, found] using same

section

variable (found : worker.registry.sockets.get? id = some socket)
include found

theorem failed_invariant (probing : socket.attachment.role = .probing)
    (daemon : ready.role = .daemon)
    (identity : ready.instanceId = some instanceId)
    (invariant : worker.HandoverInvariant) :
    HandoverInvariant (invalidateDaemonSocket
      { worker.taken id ready instanceId with
        acknowledged := worker.acknowledged } id) := by
  have before := (taken_progresses found probing daemon identity).invariant
    invariant
  have after : HandoverInvariant
      (invalidateDaemonSocket (worker.taken id ready instanceId) id) :=
    before.moves invalidateDaemonSocket_moves
  apply after.unacknowledged
  intro other foundOther
  exact invalidateDaemonSocket_expired before.sockets foundOther

theorem nameless_invariant (probing : socket.attachment.role = .probing)
    (daemon : ready.role = .daemon) (invariant : worker.HandoverInvariant) :
    HandoverInvariant (invalidateDaemonSocket { worker with
      registry := worker.registry.serializeAttachment id ready } id) := by
  have before := promoted_invariant found probing daemon invariant
  have after : HandoverInvariant
      (invalidateDaemonSocket (worker.promoted id ready) id) :=
    before.moves invalidateDaemonSocket_moves
  apply after.unacknowledged
  intro other foundOther
  exact invalidateDaemonSocket_expired before.sockets foundOther

end

end Promotion

section TaskSteps

variable {worker : HandoverWorker}

theorem failed_progresses {task : Nat} {id : SocketId} {instanceId : String}
    {registry : DaemonRegistry} {ready : DaemonAttachment}
    {previous : List SocketId} {https : Option SessionId}
    (done : worker.registry.promote id worker.clock = (registry, some ready))
    (identity : ready.instanceId = some instanceId)
    (listed : previous = registry.readyRoleSockets.filter (· ≠ id)) :
    Progresses worker
      (let failed := invalidateDaemonSocket { worker with
          registry := registry.rebindInstance instanceId (.socket id)
            worker.clock } id
       { failed with
          tasks := failed.tasks.set task (.fallback instanceId
            (previous.find? fun other =>
              (registry.attachment other).any
                (·.instanceId = some instanceId)) https) }) := by
  obtain ⟨socket, found, probing, daemon, -, same⟩ := promote_some done
  have advances : Advances registry (invalidateDaemonSocket { worker with
      registry := registry.rebindInstance instanceId (.socket id)
        worker.clock } id).registry := by
    have rebinding : Advances registry
        (registry.rebindInstance instanceId (.socket id) worker.clock) :=
      .of_sockets (DaemonRegistry.sockets_rebindInstance _ _ _ _)
    apply rebinding.trans
    exact invalidateDaemonSocket_advances { worker with
      registry := registry.rebindInstance instanceId (.socket id)
        worker.clock } id
  have promotion : Advances worker.registry registry := by
    rw [same]
    exact promoted_advances found probing daemon
  constructor
  · exact promotion.trans advances
  · intro invariant
    have after := failed_invariant found probing daemon identity invariant
    rw [taken, promoted] at after
    rw [← same] at after
    apply after.setTask
    intro other name holds
    rcases holds with differ | ⟨channel, equal⟩
    · cases differ
    · injection equal with sameName chosen
      subst sameName
      rw [listed] at chosen
      exact (fallback_established chosen).advances advances

theorem promoteSocket_progresses {task : Nat} {id : SocketId} {sent : Bool} :
    Progresses worker (worker.promoteSocket task id sent) := by
  unfold promoteSocket
  split
  case h_1 => exact endTask_progresses.trans closeSocket_moves.progresses
  case h_2 registry ready done =>
    obtain ⟨socket, found, probing, daemon, -, same⟩ := promote_some done
    split
    case h_1 instanceId _ identity _ =>
      split
      case isTrue =>
        have taking := taken_progresses found probing daemon identity
        rw [taken, promoted] at taking
        rw [← same] at taking
        exact taking.trans retireNext_progresses
      case isFalse => exact failed_progresses done identity rfl
    case h_2 =>
      have ending : Progresses worker (worker.endTask task) :=
        endTask_progresses
      apply ending.trans
      constructor
      · rw [same]
        exact (promoted_advances found probing daemon).trans
          (invalidateDaemonSocket_advances _ id)
      · intro invariant
        have ended : (worker.endTask task).registry.sockets.get? id =
            some socket := found
        have after := nameless_invariant ended probing daemon invariant
        rw [same]
        exact after

end TaskSteps

end HandoverWorker

end MachineBridge.Daemon
