import MachineBridge.Relay.HttpDelivery
import MachineBridge.Relay.HttpReadiness
import MachineBridge.Relay.RuntimeControl

/-!
# Runs of the readiness handshake

The daemon becomes ready only on a response of a ready channel.  Such a channel
has an acknowledged handshake, so the daemon has committed the ready
acknowledgement by then, and the runtime confirms readiness only on handling
it.
-/

namespace MachineBridge.Relay

open Foundation List

variable {Content : Type} {sizes : WireSizes Content}

namespace DaemonHttpRelayConnection

/-- A change of the connection that does not make it remotely ready. -/
structure Steady (Confirms : Prop)
    (connection next : DaemonHttpRelayConnection Content) : Prop where
  ready : next.ready = true → connection.ready = true
  confirmed : next.ready = true → connection.localReady = true →
    next.localReady = true
  reported : next.localReady = true → connection.localReady = true ∨
    Confirms ∧ .httpsReady ∈ next.history.enqueued
  enqueued_isPrefix :
    connection.history.enqueued <+: next.history.enqueued
  handlings_isPrefix :
    connection.history.handlings <+: next.history.handlings

namespace Steady

variable {Confirms : Prop}

theorem refl (connection : DaemonHttpRelayConnection Content) :
    Steady Confirms connection connection :=
  ⟨id, fun _ => id, .inl, prefix_rfl, prefix_rfl⟩

theorem trans {first second third : DaemonHttpRelayConnection Content}
    (left : Steady Confirms first second)
    (right : Steady Confirms second third) : Steady Confirms first third where
  ready := fun ready => left.ready (right.ready ready)
  confirmed := fun ready confirmed =>
    right.confirmed ready (left.confirmed (right.ready ready) confirmed)
  reported := by
    intro reported
    rcases right.reported reported with earlier | new
    · rcases left.reported earlier with first | ⟨confirms, enqueued⟩
      · exact .inl first
      · exact .inr ⟨confirms, right.enqueued_isPrefix.subset enqueued⟩
    · exact .inr new
  enqueued_isPrefix := left.enqueued_isPrefix.trans right.enqueued_isPrefix
  handlings_isPrefix := left.handlings_isPrefix.trans right.handlings_isPrefix

theorem mono {Other : Prop}
    {connection next : DaemonHttpRelayConnection Content}
    (steady : Steady Confirms connection next) (weaker : Confirms → Other) :
    Steady Other connection next :=
  { steady with
    reported := fun reported =>
      (steady.reported reported).imp_right fun ⟨confirms, enqueued⟩ =>
        ⟨weaker confirms, enqueued⟩ }

theorem reports {connection next : DaemonHttpRelayConnection Content}
    (steady : Steady Confirms connection next) :
    (next.localReady = true → connection.localReady = true ∨ Confirms) ∧
    connection.history.handlings <+: next.history.handlings :=
  ⟨fun reported => (steady.reported reported).imp_right And.left,
    steady.handlings_isPrefix⟩

end Steady

structure SameReadiness (connection other : DaemonHttpRelayConnection Content) :
    Prop where
  ready_eq : connection.ready = other.ready
  localReady_eq : connection.localReady = other.localReady
  enqueued_eq : connection.history.enqueued = other.history.enqueued
  handlings_eq : connection.history.handlings = other.history.handlings

theorem SameReadiness.trans
    {first second third : DaemonHttpRelayConnection Content}
    (left : SameReadiness first second) (right : SameReadiness second third) :
    SameReadiness first third :=
  ⟨left.ready_eq.trans right.ready_eq,
    left.localReady_eq.trans right.localReady_eq,
    left.enqueued_eq.trans right.enqueued_eq,
    left.handlings_eq.trans right.handlings_eq⟩

theorem Steady.of_same {Confirms : Prop}
    {connection other next : DaemonHttpRelayConnection Content}
    (steady : Steady Confirms other next)
    (same : other.SameReadiness connection) :
    Steady Confirms connection next where
  ready := fun ready => same.ready_eq.symm.trans (steady.ready ready)
  confirmed := fun ready confirmed =>
    steady.confirmed ready (same.localReady_eq.trans confirmed)
  reported := fun reported =>
    (steady.reported reported).imp_left same.localReady_eq.symm.trans
  enqueued_isPrefix := same.enqueued_eq ▸ steady.enqueued_isPrefix
  handlings_isPrefix := same.handlings_eq ▸ steady.handlings_isPrefix

theorem authenticate_same (connection : DaemonHttpRelayConnection Content)
    (activationToken : Option Nat) :
    (connection.authenticate activationToken).SameReadiness connection := by
  unfold authenticate
  split <;> exact ⟨rfl, rfl, rfl, rfl⟩

section Changes

variable {Confirms : Prop} (connection : DaemonHttpRelayConnection Content)

theorem resetSession_steady :
    Steady Confirms connection connection.resetSession :=
  ⟨nofun, nofun, nofun, prefix_rfl, prefix_rfl⟩

theorem enqueue_steady (value : DaemonMessage Content) :
    Steady Confirms connection (connection.enqueue sizes value) := by
  unfold enqueue
  split
  · exact .refl connection
  · exact ⟨id, fun _ => id, .inl, prefix_append _ _, prefix_rfl⟩

theorem act_steady (action : LocalAction Content) : Steady
    (action.confirms = true) connection (connection.act sizes action) := by
  cases action with
  | send value =>
    simp only [act, send]
    split
    · exact .refl connection
    · exact enqueue_steady connection value
  | sendForSession value =>
    simp only [act, sendForSession]
    split
    · exact .refl connection
    · split
      · exact .refl connection
      · exact enqueue_steady connection value
  | confirmReady matching =>
    simp only [act, confirmReady]
    split
    · exact .refl connection
    · split
      · exact resetSession_steady connection
      · split
        case h_1 => exact .refl connection
        case h_2 outbound accepted =>
          have queued :
              Steady True connection (connection.enqueue sizes .httpsReady) :=
            enqueue_steady connection .httpsReady
          refine { queued with
            confirmed := fun _ _ => rfl, reported := fun _ => .inr ⟨rfl, ?_⟩ }
          simp [enqueue, accepted]
  | takeover connectionId =>
    simp only [act, takeover]
    split
    · exact .refl connection
    · split
      · exact .refl connection
      · exact ⟨id, fun _ => id, .inl, prefix_rfl, prefix_rfl⟩
  | interrupt => exact resetSession_steady connection

theorem actAll_steady (actions : List (LocalAction Content)) : Steady
    (actions.any LocalAction.confirms = true) connection
    (connection.actAll sizes actions) := by
  induction actions generalizing connection with
  | nil => exact .refl connection
  | cons action actions induction =>
    have first : Steady _ connection (connection.act sizes action) :=
      act_steady connection action
    have rest := induction (connection.act sizes action)
    refine (first.mono ?_).trans (rest.mono ?_)
    · intro confirms
      simp [confirms]
    · intro confirms
      rw [any_cons, confirms, Bool.or_true]

theorem handleFailure_steady (expired : Bool) :
    Steady Confirms connection (connection.handleFailure expired) := by
  unfold handleFailure
  split
  · exact resetSession_steady connection
  · exact ⟨id, fun _ => id, .inl, prefix_rfl, prefix_rfl⟩

theorem finishHandler_steady (handler : Nat) :
    Steady Confirms connection (connection.finishHandler handler) :=
  ⟨id, fun _ => id, .inl, prefix_rfl, prefix_rfl⟩

theorem logHandling_steady (handling : MessageHandling Content) :
    Steady Confirms connection (connection.logHandling handling) :=
  ⟨id, fun _ => id, .inl, prefix_rfl, prefix_append _ _⟩

theorem commitMessage_steady (handler seq : Nat)
    (message : WorkerMessage Content)
    (remaining : List (Nat × WorkerMessage Content)) (expired : Bool) : Steady
    Confirms connection
    (connection.commitMessage handler seq message remaining expired) := by
  unfold commitMessage
  split
  · exact ⟨id, fun _ => id, .inl, prefix_rfl, prefix_rfl⟩
  · have finished : Steady Confirms connection
        (connection.finishHandler handler) :=
      finishHandler_steady connection handler
    split
    · exact finished.trans (handleFailure_steady _ expired)
    · exact finished

theorem settleHandler_steady (handler : Nat) (fulfilled expired : Bool) :
    Steady Confirms connection
    (connection.settleHandler handler fulfilled expired) := by
  unfold settleHandler
  split
  · exact .refl connection
  · split
    · split
      · exact (logHandling_steady connection _).trans
          (commitMessage_steady _ _ _ _ _ _)
      · exact finishHandler_steady connection handler
    · exact .refl connection

theorem advanceHandler_steady (handler : Nat)
    (effects : List (LocalAction Content)) (threw : Bool) : Steady
    (effects.any LocalAction.confirms = true) connection
    (connection.advanceHandler sizes handler effects threw) := by
  unfold advanceHandler
  split
  · exact .refl connection
  · split
    case h_1 => exact finishHandler_steady connection handler
    case h_2 seq message remaining _ =>
      split
      case h_1 => exact ⟨id, fun _ => id, .inl, prefix_rfl, prefix_rfl⟩
      case h_2 => exact resetSession_steady connection
      case h_3 =>
        have acted : Steady (effects.any LocalAction.confirms = true)
            connection ((connection.logHandling
              (.handed seq message)).actAll sizes effects) :=
          (logHandling_steady connection _).trans (actAll_steady _ effects)
        dsimp only
        split
        · exact acted
        · split
          · exact acted.trans (finishHandler_steady _ handler)
          · split
            · exact acted.trans ((logHandling_steady _ _).trans
                (commitMessage_steady _ _ _ _ _ _))
            · exact acted.trans ⟨id, fun _ => id, .inl, prefix_rfl, prefix_rfl⟩
    case h_3 => exact .refl connection

theorem becomeReady_steady (sizes : WireSizes Content) (phase : RelayPhase)
    (effects : List (LocalAction Content)) :
    let next := connection.becomeReady sizes phase effects
    Steady (effects.any LocalAction.confirms = true) connection next ∨
      phase = .ready ∧ connection.localReady = true ∧
        Steady (effects.any LocalAction.confirms = true)
          { connection with ready := true } next := by
  unfold becomeReady
  split
  case isTrue both =>
    simp only [Bool.and_eq_true, beq_iff_eq] at both
    exact .inr ⟨both.1.1, both.1.2, actAll_steady _ effects⟩
  case isFalse => exact .inl (.refl connection)

/-- Taking a response makes the connection ready only when it reported local
readiness and the response says that the Worker is ready. -/
theorem handleResponse_steady (effects : List (LocalAction Content))
    (expired : Bool) (response : RelayResponse Content) :
    let next := connection.handleResponse sizes effects expired response
    Steady (effects.any LocalAction.confirms = true) connection next ∨
      (∃ token sequence messages,
        response = .envelope .ready token sequence messages) ∧
      connection.localReady = true ∧
        Steady (effects.any LocalAction.confirms = true)
          { connection with ready := true } next := by
  cases response with
  | failure => exact .inl (handleFailure_steady connection expired)
  | conflict => exact .inl (resetSession_steady connection)
  | envelope phase activationToken ackDaemonSeq messages =>
    simp only [handleResponse]
    split
    · exact .inl (resetSession_steady connection)
    · split
      case h_1 => exact .inl (resetSession_steady connection)
      case h_2 acknowledged accepted =>
        obtain ⟨outbound, -, same⟩ := Option.map_eq_some_iff.mp accepted
        have acknowledge : acknowledged.SameReadiness connection := by
          rw [← same]
          exact ⟨rfl, rfl, rfl, rfl⟩
        split
        · exact .inl ((resetSession_steady acknowledged).of_same acknowledge)
        · have opened := (authenticate_same acknowledged
            activationToken).trans acknowledge
          rcases becomeReady_steady
            { acknowledged.authenticate activationToken with
              inFlight := .handling acknowledged.handlers.length
              handlers := acknowledged.handlers ++
                [{ remaining := messages }] } sizes phase effects with
            steady | ⟨ready, reported, steady⟩
          · exact .inl (steady.of_same
              ⟨opened.ready_eq, opened.localReady_eq, opened.enqueued_eq,
                opened.handlings_eq⟩)
          · subst ready
            refine .inr ⟨⟨_, _, _, rfl⟩, opened.localReady_eq.symm.trans
              reported, steady.of_same ?_⟩
            exact { opened with ready_eq := rfl }

end Changes

end DaemonHttpRelayConnection

namespace HttpRelaySession

variable {session : HttpRelaySession Content} {server version : String}

/-- The order of the handshake, on both sides of the session. -/
structure Handshake (sizes : WireSizes Content) (server version : String)
    (session : HttpRelaySession Content) : Prop where
  worker : session.worker.Handshaken sizes server version
  responses : ∀ request response, (request, response) ∈ session.responses →
    ReadyEvidence server version session.worker response
  reported : session.daemon.localReady = true →
    .httpsReady ∈ session.daemon.history.enqueued
  ready_reported : session.daemon.ready = true →
    session.daemon.localReady = true
  ready_handed : session.daemon.ready = true →
    .httpsReady ∈ session.worker.log.handed
  ready_committed : session.daemon.ready = true →
    Offered server version session.daemon.history.committed

theorem start_handshake (instanceId : String) (takeover : Option String)
    (server version : String) : Handshake sizes server version
    (start instanceId takeover server version : HttpRelaySession Content) where
  worker := ⟨rfl, rfl, fun _ => historyOk_nil, nofun⟩
  responses := nofun
  reported := nofun
  ready_reported := nofun
  ready_handed := nofun
  ready_committed := nofun

theorem Handshake.withDaemon {Confirms : Prop}
    (handshake : Handshake sizes server version session)
    {daemon : DaemonHttpRelayConnection Content}
    (steady : session.daemon.Steady Confirms daemon)
    (grows : session.daemon.history.Grows daemon.history) :
    Handshake sizes server version { session with daemon } where
  __ := handshake
  reported := by
    intro reported
    rcases steady.reported reported with earlier | ⟨-, enqueued⟩
    · exact grows.enqueued_isPrefix.subset (handshake.reported earlier)
    · exact enqueued
  ready_reported := fun ready => steady.confirmed ready
    (handshake.ready_reported (steady.ready ready))
  ready_handed := fun ready => handshake.ready_handed (steady.ready ready)
  ready_committed := fun ready =>
    (handshake.ready_committed (steady.ready ready)).grow
      grows.committed_isPrefix

theorem Handshake.withWorker (handshake : Handshake sizes server version session)
    {worker : HttpRelayWorker Content}
    (kept : worker.Handshaken sizes server version)
    (grows : WorkerGrows session.worker worker) :
    Handshake sizes server version { session with worker } where
  worker := kept
  responses := fun request response member =>
    (handshake.responses request response member).grow grows
  __ := handshake
  ready_handed := fun ready =>
    grows.handed_isPrefix.subset (handshake.ready_handed ready)

section

variable (invariant : Invariant sizes none session)
include invariant

theorem released_committed
    (token : Nat) : (session.worker.histories token).released <+:
    session.daemon.history.committed := by
  by_cases adopted : session.daemon.history.adopted = some token
  · exact invariant.worker.released_isPrefix token adopted
  · have nothing : (session.worker.histories token).released = [] :=
      invariant.worker.released_nil token adopted
    rw [nothing]
    exact nil_prefix

theorem receive_handshake (handshake : Handshake sizes server version session)
    {request : Nat} {body : RelayResponse Content}
    (member : (request, body) ∈ session.responses)
    (live : session.daemon.ended = false)
    (effects : List (LocalAction Content)) (expired : Bool) :
    Handshake sizes server version { session with
      daemon := session.daemon.handleResponse sizes effects expired body } := by
  have grows : session.daemon.history.Grows
      (session.daemon.handleResponse sizes effects expired body).history :=
    DaemonHttpRelayConnection.handleResponse_grows _
      (invariant.live live).authenticated_eq effects expired body
  rcases DaemonHttpRelayConnection.handleResponse_steady session.daemon
    effects expired body with steady | ⟨shape, reported, steady⟩
  · exact handshake.withDaemon steady grows
  · obtain ⟨token, sequence, messages, rfl⟩ := shape
    obtain ⟨⟨named, -, offered⟩, handed⟩ :=
      handshake.responses request _ member
    have committed : Offered server version session.daemon.history.committed :=
      offered.grow (released_committed invariant named)
    have opened : Handshake sizes server version
        { session with daemon := { session.daemon with ready := true } } :=
      ⟨handshake.worker, handshake.responses, handshake.reported,
        fun _ => reported, fun _ => handed, fun _ => committed⟩
    exact opened.withDaemon steady grows

theorem step_handshake (handshake : Handshake sizes server version session)
    (event : HttpRelayEvent Content) :
    Handshake sizes server version (session.step sizes event) := by
  obtain ⟨daemon, worker⟩ := step_grows invariant event
  cases event with
  | daemonActs action =>
    exact handshake.withDaemon
      (DaemonHttpRelayConnection.act_steady _ action) daemon
  | poll availableBytes =>
    simp only [step]
    split
    · exact handshake
    · exact ⟨handshake.worker, handshake.responses, handshake.reported,
        handshake.ready_reported, handshake.ready_handed,
        handshake.ready_committed⟩
  | exchange request environment =>
    simp only [step] at worker ⊢
    split
    case h_1 => exact handshake
    case h_2 exchange found =>
      rw [found] at worker
      obtain ⟨kept, evidence⟩ := handleDaemonHttpRelay_handshaken
        environment exchange handshake.worker
      have after := handshake.withWorker kept worker
      refine { after with responses := ?_ }
      intro other response member
      rcases mem_append.mp member with old | new
      · exact after.responses other response old
      · obtain ⟨rfl, rfl⟩ := Prod.mk.inj (mem_singleton.mp new)
        exact evidence
  | receive response effects expired =>
    simp only [step]
    split
    case h_1 => exact handshake
    case h_2 request body found =>
      split
      · exact handshake
      case isFalse waits =>
        simp only [Bool.or_eq_true, not_or, Bool.not_eq_true] at waits
        exact receive_handshake invariant handshake
          (mem_of_getElem? found) waits.1 effects expired
  | fail expired =>
    simp only [step]
    split
    · have failed : session.daemon.Steady False
          (session.daemon.handleFailure expired) :=
        DaemonHttpRelayConnection.handleFailure_steady _ expired
      exact handshake.withDaemon failed
        (DaemonHttpRelayConnection.handleFailure_grows _ expired)
    · exact handshake
  | garbled =>
    simp only [step]
    split
    · have reset : session.daemon.Steady False
          session.daemon.resetSession :=
        DaemonHttpRelayConnection.resetSession_steady _
      exact handshake.withDaemon reset (.refl _)
    · exact handshake
  | advance handler effects threw =>
    exact handshake.withDaemon
      (DaemonHttpRelayConnection.advanceHandler_steady _ handler effects
        threw) daemon
  | settle handler fulfilled expired =>
    have settled : session.daemon.Steady False
        (session.daemon.settleHandler handler fulfilled expired) :=
      DaemonHttpRelayConnection.settleHandler_steady _ handler fulfilled
        expired
    exact handshake.withDaemon settled daemon
  | workerSend message =>
    simp only [step] at worker ⊢
    split
    case h_1 => exact handshake
    case h_2 channel held =>
      rw [held] at worker
      exact handshake.withWorker (handshake.worker.send held message) worker
  | workerRevoke records =>
    simp only [step] at worker ⊢
    split
    case h_1 => exact handshake
    case h_2 channel held =>
      rw [held] at worker
      exact handshake.withWorker (handshake.worker.revoke held records) worker
  | workerClose => exact handshake.withWorker handshake.worker.close worker

end

theorem step_reports (sizes : WireSizes Content)
    (session : HttpRelaySession Content) (event : HttpRelayEvent Content) :
    ((session.step sizes event).daemon.localReady = true →
      session.daemon.localReady = true ∨ event.confirms = true) ∧
    session.daemon.history.handlings <+:
    (session.step sizes event).daemon.history.handlings := by
  have still : (session.daemon.localReady = true →
      session.daemon.localReady = true ∨ event.confirms = true) ∧
      session.daemon.history.handlings <+:
        session.daemon.history.handlings := ⟨.inl, prefix_rfl⟩
  cases event with
  | daemonActs action =>
    exact (DaemonHttpRelayConnection.act_steady _ action).reports
  | poll availableBytes | exchange request environment =>
    simp only [step]
    split <;> exact still
  | receive response effects expired =>
    simp only [step]
    split
    case h_1 => exact still
    case h_2 request body found =>
      split
      · exact still
      · rcases DaemonHttpRelayConnection.handleResponse_steady
          session.daemon effects expired body with steady | ⟨-, -, steady⟩
        · exact steady.reports
        · exact steady.reports
  | fail expired =>
    simp only [step]
    split
    · exact (DaemonHttpRelayConnection.handleFailure_steady _ expired).reports
    · exact still
  | garbled =>
    simp only [step]
    split
    · exact (DaemonHttpRelayConnection.resetSession_steady _).reports
    · exact still
  | advance handler effects threw =>
    exact (DaemonHttpRelayConnection.advanceHandler_steady _ handler effects
      threw).reports
  | settle handler fulfilled expired =>
    exact (DaemonHttpRelayConnection.settleHandler_steady _ handler
      fulfilled expired).reports
  | workerSend message | workerRevoke records =>
    simp only [step]
    split <;> exact still
  | workerClose => exact still

end HttpRelaySession

/-- The resume message and after it the ready acknowledgement were handed to the
runtime. -/
def HandshakeReceived (handlings : List (MessageHandling Content)) : Prop :=
  ∃ before resumeSeq ids between readySeq server version after,
    handlings = before ++ .handed resumeSeq (.resumeCalls ids) ::
      (between ++ .handed readySeq (.readyAck server version) :: after)

theorem HandshakeReceived.grow {before after : List (MessageHandling Content)}
    (received : HandshakeReceived before) (grown : before <+: after) :
    HandshakeReceived after := by
  obtain ⟨start, resumeSeq, ids, between, readySeq, server, version, rest,
    rfl⟩ := received
  obtain ⟨more, rfl⟩ := grown
  exact ⟨start, resumeSeq, ids, between, readySeq, server, version,
    rest ++ more, by simp⟩

theorem handshakeReceived_append {handlings : List (MessageHandling Content)}
    {resumeSeq readySeq : Nat} {ids : List String} {server version : String}
    (resumed : .handed resumeSeq (.resumeCalls ids) ∈ handlings) :
    HandshakeReceived
    (handlings ++ [.handed readySeq (.readyAck server version)]) := by
  obtain ⟨before, between, rfl⟩ := append_of_mem resumed
  exact ⟨before, resumeSeq, ids, between, readySeq, server, version, [],
    by simp⟩

theorem DaemonHttpRelayConnection.advanceHandler_hands
    {connection : DaemonHttpRelayConnection Content} {handler : Nat}
    {message : WorkerMessage Content}
    (incoming : connection.incoming? handler = some message)
    (control : message.isToolCall = false)
    (effects : List (LocalAction Content)) (threw : Bool) : ∃ seq,
    connection.history.handlings ++ [.handed seq message] <+:
    (connection.advanceHandler sizes handler effects threw).history.handlings
    := by
  unfold incoming? at incoming
  split at incoming
  · cases incoming
  case isFalse live =>
    split at incoming
    case h_2 => cases incoming
    case h_1 seq first remaining found =>
      split at incoming
      case isFalse => cases incoming
      case isTrue new =>
        cases incoming
        have acted : Steady (effects.any LocalAction.confirms = true)
            (connection.logHandling (.handed seq message))
            ((connection.logHandling (.handed seq message)).actAll sizes
              effects) := actAll_steady _ effects
        refine ⟨seq, ?_⟩
        rw [advanceHandler, if_neg live]
        simp only [found, new, control, Bool.false_eq_true, if_false]
        refine acted.handlings_isPrefix.trans ?_
        split
        · exact prefix_rfl
        · split <;> exact prefix_rfl

namespace RelayRuntime

variable {runtime : RelayRuntime Content} {server version : String}
  {acknowledgement : List String → Content}

structure Invariant (sizes : WireSizes Content) (server version : String)
    (runtime : RelayRuntime Content) : Prop where
  session : HttpRelaySession.Invariant sizes none runtime.session
  handshake : HttpRelaySession.Handshake sizes server version runtime.session
  resumed : runtime.control.resume.isSome = true →
    ∃ seq ids, .handed seq (.resumeCalls ids) ∈
      runtime.session.daemon.history.handlings
  received : runtime.session.daemon.localReady = true →
    HandshakeReceived runtime.session.daemon.history.handlings

theorem start_invariant (instanceId : String) (takeover : Option String)
    (server version expectedServer expectedVersion : String) : Invariant sizes
    server version (start instanceId takeover server version expectedServer
    expectedVersion : RelayRuntime Content) where
  session := HttpRelaySession.start_invariant instanceId takeover server
    version
  handshake := HttpRelaySession.start_handshake instanceId takeover server
    version
  resumed := nofun
  received := nofun

variable {connection : DaemonHttpRelayConnection Content}
  {control : RelayControl}

theorem handleResumeCalls_confirms {ids missing : List String}
    {effects : List (LocalAction Content)}
    (unconfirmed : effects.any LocalAction.confirms = false) :
    (control.handleResumeCalls connection ids missing effects).2.any
    LocalAction.confirms = false := by
  unfold RelayControl.handleResumeCalls
  split
  · rfl
  · split
    · rfl
    · exact unconfirmed

theorem handleReadyAck_confirms (unresumed : control.resume = none) :
    (control.handleReadyAck sizes acknowledgement connection server
    version).2.any LocalAction.confirms = false := by
  unfold RelayControl.handleReadyAck
  rw [unresumed]
  rfl

theorem handleReadyAck_resume (kept : (control.handleReadyAck sizes
    acknowledgement connection server version).1.resume.isSome = true) :
    control.resume.isSome = true := by
  unfold RelayControl.handleReadyAck at kept
  split at kept
  case h_1 => exact kept
  case h_2 missing waiting =>
    rw [waiting]
    rfl

theorem handOver_received (invariant : Invariant sizes server version runtime)
    {handler : Nat} {missing : List String}
    {effects : List (LocalAction Content)}
    (unconfirmed : effects.any LocalAction.confirms = false)
    {message : WorkerMessage Content}
    (incoming : runtime.session.daemon.incoming? handler = some message)
    {actions : List (LocalAction Content)}
    (answer : runtime.handleControlMessage sizes acknowledgement missing
      effects message = some (control, actions)) :
    let next := runtime.session.step sizes (.advance handler actions false)
    (control.resume.isSome = true → ∃ seq ids,
      .handed seq (.resumeCalls ids) ∈ next.daemon.history.handlings) ∧
      (next.daemon.localReady = true →
        HandshakeReceived next.daemon.history.handlings) := by
  obtain ⟨reported, grown⟩ := HttpRelaySession.step_reports sizes
    runtime.session (.advance handler actions false)
  have resumed : runtime.control.resume.isSome = true → ∃ seq ids, .handed seq
      (.resumeCalls ids) ∈ (runtime.session.step sizes (.advance handler
      actions false)).daemon.history.handlings := by
    intro some
    obtain ⟨seq, ids, member⟩ := invariant.resumed some
    exact ⟨seq, ids, grown.subset member⟩
  have unchanged : actions.any LocalAction.confirms = false →
      (runtime.session.step sizes
        (.advance handler actions false)).daemon.localReady = true →
      HandshakeReceived (runtime.session.step sizes
        (.advance handler actions false)).daemon.history.handlings := by
    intro none confirmed
    rcases reported confirmed with earlier | confirms
    · exact (invariant.received earlier).grow grown
    · rw [HttpRelayEvent.confirms, none] at confirms
      cases confirms
  have handed : message.isToolCall = false → ∃ seq,
      runtime.session.daemon.history.handlings ++ [.handed seq message] <+:
        (runtime.session.step sizes
          (.advance handler actions false)).daemon.history.handlings :=
    fun isControl => DaemonHttpRelayConnection.advanceHandler_hands incoming
      isControl actions false
  cases message with
  | resumeCalls ids =>
    obtain ⟨seq, added⟩ := handed rfl
    refine ⟨fun _ => ⟨seq, ids, added.subset (by simp)⟩, unchanged ?_⟩
    have same : (runtime.control.handleResumeCalls runtime.session.daemon
        ids missing effects).2 = actions :=
      congrArg Prod.snd (Option.some.inj answer)
    rw [← same]
    exact handleResumeCalls_confirms unconfirmed
  | readyAck named version =>
    obtain ⟨seq, added⟩ := handed rfl
    have same : runtime.control.handleReadyAck sizes acknowledgement
        runtime.session.daemon named version = (control, actions) :=
      Option.some.inj answer
    have left : (runtime.control.handleReadyAck sizes acknowledgement
        runtime.session.daemon named version).1 = control :=
      congrArg Prod.fst same
    have right : (runtime.control.handleReadyAck sizes acknowledgement
        runtime.session.daemon named version).2 = actions :=
      congrArg Prod.snd same
    constructor
    · intro some
      apply resumed
      rw [← left] at some
      exact handleReadyAck_resume some
    cases waiting : runtime.control.resume with
    | none =>
      apply unchanged
      rw [← right]
      exact handleReadyAck_confirms waiting
    | some missing =>
      intro _
      obtain ⟨resumeSeq, ids, member⟩ := invariant.resumed (by simp [waiting])
      exact (handshakeReceived_append member).grow added
  | authorityRevoke => cases answer
  | toolCall => cases answer
  | other => cases answer

theorem step_invariant (invariant : Invariant sizes server version runtime)
    (event : RelayRuntimeEvent Content) : Invariant sizes server version
    (runtime.step sizes acknowledgement event) := by
  have session : HttpRelaySession.Invariant sizes none
      (runtime.step sizes acknowledgement event).session ∧
      HttpRelaySession.Handshake sizes server version
      (runtime.step sizes acknowledgement event).session := by
    rcases step_session sizes acknowledgement runtime event with
      same | ⟨inner, stepped⟩
    · rw [same]
      exact ⟨invariant.session, invariant.handshake⟩
    · rw [stepped]
      exact ⟨HttpRelaySession.step_invariant invariant.session inner,
        HttpRelaySession.step_handshake invariant.session
          invariant.handshake inner⟩
  have records : ((runtime.step sizes acknowledgement
      event).control.resume.isSome = true → ∃ seq ids, .handed seq
      (.resumeCalls ids) ∈ (runtime.step sizes acknowledgement
      event).session.daemon.history.handlings) ∧ ((runtime.step sizes
      acknowledgement event).session.daemon.localReady = true →
      HandshakeReceived (runtime.step sizes acknowledgement
      event).session.daemon.history.handlings) := by
    cases event with
    | relay inner =>
      simp only [step]
      split
      · exact ⟨invariant.resumed, invariant.received⟩
      case isFalse quiet =>
        simp only [Bool.or_eq_true, not_or, Bool.not_eq_true] at quiet
        obtain ⟨reported, grown⟩ :=
          HttpRelaySession.step_reports sizes runtime.session inner
        constructor
        · intro some
          obtain ⟨seq, ids, member⟩ := invariant.resumed some
          exact ⟨seq, ids, grown.subset member⟩
        · intro confirmed
          rcases reported confirmed with earlier | confirms
          · exact (invariant.received earlier).grow grown
          · rw [quiet.1] at confirms
            cases confirms
    | handOver handler missing effects =>
      simp only [step]
      split
      · exact ⟨invariant.resumed, invariant.received⟩
      case isFalse unconfirmed =>
        split
        case h_1 => exact ⟨invariant.resumed, invariant.received⟩
        case h_2 control actions found =>
          obtain ⟨message, incoming, answer⟩ :=
            Option.bind_eq_some_iff.mp found
          exact handOver_received invariant (by simpa using unconfirmed)
            incoming answer
    | forget => exact ⟨by rintro ⟨⟩, invariant.received⟩
  exact ⟨session.1, session.2, records.1, records.2⟩

theorem run_invariant (sizes : WireSizes Content) (acknowledgement : List
    String → Content) (instanceId : String) (takeover : Option String)
    (server version expectedServer expectedVersion : String)
    (events : List (RelayRuntimeEvent Content)) : Invariant sizes server
    version (run (step sizes acknowledgement) (start instanceId takeover server
    version expectedServer expectedVersion) events) := by
  have preserved : ∀ (state : RelayRuntime Content) event,
      Invariant sizes server version state → Invariant sizes server version
      (state.step sizes acknowledgement event) :=
    fun _ event invariant => step_invariant invariant event
  exact run_induction preserved
    (start_invariant instanceId takeover server version expectedServer
      expectedVersion) events

/-- The Worker queues a tool call and processes a resume acknowledgement only on
a channel whose handshake was offered and acknowledged by the daemon before;
and the daemon is ready only after it reported local readiness, which the Worker
has taken, in answer to the ready acknowledgement of the session. -/
theorem handshake_ordered (sizes : WireSizes Content)
    (acknowledgement : List String → Content) (instanceId : String)
    (takeover : Option String)
    (server version expectedServer expectedVersion : String)
    (events : List (RelayRuntimeEvent Content)) :
    let session := (run (step sizes acknowledgement)
      (start instanceId takeover server version expectedServer
        expectedVersion) events).session
    (∀ token, CallsAdmitted (session.worker.histories token) ∧
      ∀ admission ∈ (session.worker.histories token).admitted,
        admission.AfterHandshake server version) ∧
      (∀ token, (session.worker.histories token).released <+:
        session.daemon.history.committed) ∧
      (session.daemon.localReady = true →
        .httpsReady ∈ session.daemon.history.enqueued ∧
        HandshakeReceived session.daemon.history.handlings) ∧
      (session.daemon.ready = true →
        session.daemon.localReady = true ∧
        .httpsReady ∈ session.worker.log.handed ∧
        .readyAck server version ∈ session.daemon.history.committed) := by
  intro session
  have invariant := run_invariant sizes acknowledgement instanceId takeover
    server version expectedServer expectedVersion events
  have handshake : HttpRelaySession.Handshake sizes server version session :=
    invariant.handshake
  refine ⟨fun token => ?_, fun token => ?_, fun reported => ?_,
    fun ready => ?_⟩
  · have ok := handshake.worker.histories token
    exact ⟨ok.calls, ok.admitted⟩
  · exact HttpRelaySession.released_committed invariant.session token
  · exact ⟨handshake.reported reported, invariant.received reported⟩
  · exact ⟨handshake.ready_reported ready, handshake.ready_handed ready,
      (handshake.ready_committed ready).readyAck_mem⟩

/-- A complete handshake: both sides get ready, and the Worker takes up a tool
call and the resume acknowledgement. -/
example :
    let sizes : WireSizes (List String) :=
      ⟨fun _ => 1, fun _ _ => 1, fun _ => 1, fun _ _ => 1⟩
    let session := (run (step sizes id)
      (start "instance" none "server" "version" "server" "version")
      [.relay (.poll 64), .relay (.exchange 0 {}),
        .relay (.receive 0 [] false), .handOver 0 [] [],
        .relay (.settle 0 true false), .handOver 0 [] [],
        .relay (.settle 0 true false), .relay (.advance 0 [] false),
        .relay (.poll 64), .relay (.exchange 1 {}),
        .relay (.receive 1 [] false),
        .relay (.workerSend (.toolCall ["call"]))]).session
    session.daemon.ready = true ∧
      (session.worker.histories 0).admitted.map Admission.work =
        [.resumeCallsAck [], .toolCall ["call"]] := by
  decide

end RelayRuntime

end MachineBridge.Relay
