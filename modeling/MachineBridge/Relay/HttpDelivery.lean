import MachineBridge.Relay.HttpRun

/-!
# Delivery in both directions of an HTTPS relay session

Each direction of a session is a reliable stream: what the receiver took is a
prefix of what the sender queued, and the sender lets go only of what was
taken.  Every event of the session is a sequence of steps of these streams.
-/

namespace MachineBridge.Relay

open Foundation List

variable {Content : Type} {sizes : WireSizes Content}

structure DaemonHistory.Grows (before after : DaemonHistory Content) :
    Prop where
  adopted_eq : ∀ token, before.adopted = some token →
    after.adopted = some token
  enqueued_isPrefix : before.enqueued <+: after.enqueued
  dropped_isPrefix : before.dropped <+: after.dropped
  committed_isPrefix : before.committed <+: after.committed

namespace DaemonHistory.Grows

theorem refl (history : DaemonHistory Content) : Grows history history :=
  ⟨fun _ => id, prefix_rfl, prefix_rfl, prefix_rfl⟩

theorem trans {first second third : DaemonHistory Content}
    (left : Grows first second) (right : Grows second third) :
    Grows first third :=
  ⟨fun token same => right.adopted_eq token (left.adopted_eq token same),
    left.enqueued_isPrefix.trans right.enqueued_isPrefix,
    left.dropped_isPrefix.trans right.dropped_isPrefix,
    left.committed_isPrefix.trans right.committed_isPrefix⟩

end DaemonHistory.Grows

namespace DaemonHttpRelayConnection

theorem Acts.grows {connection next : DaemonHttpRelayConnection Content}
    (acts : Acts sizes connection next) :
    connection.history.Grows next.history := by
  rw [acts.history_eq]
  exact ⟨fun _ => id, acts.enqueued_isPrefix, prefix_rfl, prefix_rfl⟩

theorem becomeReady_grows {history : DaemonHistory Content}
    {connection : DaemonHttpRelayConnection Content}
    (same : connection.history = history) (phase : RelayPhase)
    (effects : List (LocalAction Content)) :
    history.Grows (connection.becomeReady sizes phase effects).history := by
  rw [← same]
  exact (becomeReady_acts connection phase effects).grows

section

variable (connection : DaemonHttpRelayConnection Content)

theorem handleFailure_grows (expired : Bool) :
    connection.history.Grows (connection.handleFailure expired).history := by
  unfold handleFailure
  split <;> exact .refl _

theorem handleResponse_grows (authenticated : connection.authenticated =
    connection.history.adopted.isSome) (effects : List (LocalAction Content))
    (expired : Bool) (response : RelayResponse Content) :
    connection.history.Grows
    (connection.handleResponse sizes effects expired response).history := by
  cases response with
  | failure => exact handleFailure_grows connection expired
  | conflict => exact .refl _
  | envelope phase activationToken ackDaemonSeq messages =>
    simp only [handleResponse]
    split
    · exact .refl _
    · split
      case h_1 => exact .refl _
      case h_2 acknowledged accepted =>
        obtain ⟨outbound, -, same⟩ := Option.map_eq_some_iff.mp accepted
        have dropped : connection.history.Grows acknowledged.history := by
          rw [← same]
          exact ⟨fun _ => id, prefix_rfl, prefix_append _ _, prefix_rfl⟩
        have adopted : acknowledged.history.Grows
            (acknowledged.authenticate activationToken).history := by
          unfold authenticate
          split
          · exact .refl _
          case isFalse new =>
            refine ⟨fun token chosen => ?_, prefix_rfl, prefix_rfl, prefix_rfl⟩
            rw [← same] at new chosen
            simp only [authenticated] at new chosen
            rw [chosen] at new
            exact absurd rfl new
        split
        · exact dropped
        · refine (dropped.trans adopted).trans ?_
          refine becomeReady_grows ?_ phase effects
          rfl

theorem commitMessage_grows (handler seq : Nat)
    (message : WorkerMessage Content)
    (remaining : List (Nat × WorkerMessage Content)) (expired : Bool) :
    connection.history.Grows
    (connection.commitMessage handler seq message remaining expired).history :=
    by
  unfold commitMessage
  split
  · exact ⟨fun _ => id, prefix_rfl, prefix_rfl, prefix_append _ _⟩
  · split
    · exact handleFailure_grows (connection.finishHandler handler) expired
    · exact .refl _

theorem logHandling_grows (handling : MessageHandling Content) :
    connection.history.Grows (connection.logHandling handling).history :=
  ⟨fun _ => id, prefix_rfl, prefix_rfl, prefix_rfl⟩

theorem advanceHandler_grows (handler : Nat)
    (effects : List (LocalAction Content)) (threw : Bool) :
    connection.history.Grows
    (connection.advanceHandler sizes handler effects threw).history := by
  unfold advanceHandler
  split
  · exact .refl _
  · split
    case h_1 => exact .refl _
    case h_2 seq message remaining _ =>
      split
      · exact .refl _
      · exact .refl _
      · have handed : connection.history.Grows ((connection.logHandling
            (.handed seq message)).actAll sizes effects).history :=
          (logHandling_grows connection _).trans (actAll_acts _ effects).grows
        dsimp only
        split
        · exact handed
        · split
          · exact handed
          · split
            · exact (handed.trans (logHandling_grows _ _)).trans
                (commitMessage_grows _ handler seq message remaining false)
            · exact handed
    case h_3 => exact .refl _

theorem settleHandler_grows (handler : Nat) (fulfilled expired : Bool) :
    connection.history.Grows
    (connection.settleHandler handler fulfilled expired).history := by
  unfold settleHandler
  split
  · exact .refl _
  · split
    case h_1 seq message remaining _ =>
      split
      · exact (logHandling_grows _ _).trans
          (commitMessage_grows _ handler seq message remaining expired)
      · exact .refl _
    case h_2 => exact .refl _

end

end DaemonHttpRelayConnection

namespace HttpRelaySession

variable {session : HttpRelaySession Content}

theorem queued_grows {channel next : DaemonHttpChannel Content}
    (invariant : Invariant sizes none session)
    (held : session.worker.channel = some channel)
    (queues : channel.Queues sizes next) :
    WorkerGrows session.worker (session.worker.put next) :=
  HttpRelayWorker.put_grows
    ((invariant.worker.fits held).extends queues.toExtends)

theorem step_grows (invariant : Invariant sizes none session)
    (event : HttpRelayEvent Content) :
    session.daemon.history.Grows (session.step sizes event).daemon.history ∧
    WorkerGrows session.worker (session.step sizes event).worker := by
  have still : session.daemon.history.Grows session.daemon.history := .refl _
  have idle : WorkerGrows session.worker session.worker := .refl _
  cases event with
  | daemonActs action =>
    have acts : session.daemon.Acts sizes (session.daemon.act sizes action) :=
      DaemonHttpRelayConnection.act_acts _ action
    exact ⟨acts.grows, idle⟩
  | poll availableBytes =>
    simp only [step]
    split <;> exact ⟨still, idle⟩
  | exchange request environment =>
    simp only [step]
    split
    case h_1 => exact ⟨still, idle⟩
    case h_2 exchange found =>
      exact ⟨still, (handleDaemonHttpRelay_spec environment
        invariant.worker (invariant.requests exchange
          (mem_of_getElem? found))).grows⟩
  | receive response effects expired =>
    simp only [step]
    split
    case h_1 => exact ⟨still, idle⟩
    case h_2 request body found =>
      split
      · exact ⟨still, idle⟩
      case isFalse waits =>
        simp only [Bool.or_eq_true, not_or, Bool.not_eq_true] at waits
        exact ⟨DaemonHttpRelayConnection.handleResponse_grows _ (invariant.live
          waits.1).authenticated_eq effects expired body, idle⟩
  | fail expired =>
    simp only [step]
    split
    · exact ⟨DaemonHttpRelayConnection.handleFailure_grows _ expired, idle⟩
    · exact ⟨still, idle⟩
  | garbled =>
    simp only [step]
    split <;> exact ⟨still, idle⟩
  | advance handler effects threw =>
    exact ⟨DaemonHttpRelayConnection.advanceHandler_grows _ handler effects
      threw, idle⟩
  | settle handler fulfilled expired =>
    exact ⟨DaemonHttpRelayConnection.settleHandler_grows _ handler fulfilled
      expired, idle⟩
  | workerSend message =>
    simp only [step]
    split
    case h_1 => exact ⟨still, idle⟩
    case h_2 channel held =>
      exact ⟨still, queued_grows invariant held
        (DaemonHttpChannel.trySend_queues channel message)⟩
  | workerRevoke records =>
    simp only [step]
    split
    case h_1 => exact ⟨still, idle⟩
    case h_2 channel held =>
      exact ⟨still, queued_grows invariant held
        (DaemonHttpChannel.queueRevocations_queues channel records)⟩
  | workerClose => exact ⟨still, idle.close⟩

/-- What was queued and released on the channel the daemon adopted. -/
def adoptedHistory (session : HttpRelaySession Content) :
    ChannelHistory Content :=
  match session.daemon.history.adopted with
  | none => {}
  | some token => session.worker.histories token

theorem committed_isPrefix (invariant : Invariant sizes none session) :
    session.daemon.history.committed <+: session.adoptedHistory.queued := by
  unfold adoptedHistory
  split
  case h_1 unadopted =>
    have nothing : session.daemon.history.committed = [] :=
      invariant.worker.committed_nil unadopted
    exact nothing ▸ nil_prefix
  case h_2 token adopted => exact invariant.worker.committed_isPrefix token adopted

/-- The Worker hands on the daemon's messages in order, each one once, and the
daemon drops a message only after the Worker has handed it on. -/
theorem daemonMessages_inOrder (sizes : WireSizes Content)
    (instanceId : String) (takeover : Option String) (server version : String)
    (events : List (HttpRelayEvent Content)) :
    let session := run (step sizes)
      (start instanceId takeover server version) events
    session.worker.log.handed <+: session.daemon.history.enqueued ∧
      session.daemon.history.dropped <+: session.worker.log.handed := by
  intro session
  have invariant : Invariant sizes none session :=
    run_invariant instanceId takeover server version events
  exact ⟨invariant.worker.handed_isPrefix, invariant.dropped⟩

/-- The daemon commits the messages of its channel in order, each one once;
hands a message over again only while no handling of it has completed; hands no
tool call over twice; and the Worker keeps a message until it is committed. -/
theorem workerMessages_inOrder (sizes : WireSizes Content)
    (instanceId : String) (takeover : Option String) (server version : String)
    (events : List (HttpRelayEvent Content)) :
    let session := run (step sizes)
      (start instanceId takeover server version) events
    session.daemon.history.committed <+: session.adoptedHistory.queued ∧
      (∀ seq message,
        .handed seq message ∈ session.daemon.history.handlings →
        0 < seq ∧ session.adoptedHistory.queued[seq - 1]? = some message) ∧
      HandedBeforeCompletion session.daemon.history.handlings ∧
      (session.daemon.history.handlings.filterMap
        MessageHandling.toolCallSeq?).Nodup ∧
      (∀ token, session.daemon.history.adopted = some token →
        (session.worker.histories token).released <+:
          session.daemon.history.committed) ∧
      ∀ token, session.daemon.history.adopted ≠ some token →
        (session.worker.histories token).released = [] := by
  intro session
  have invariant : Invariant sizes none session :=
    run_invariant instanceId takeover server version events
  refine ⟨committed_isPrefix invariant, ?_, invariant.log.again,
    invariant.log.toolCalls_nodup, invariant.worker.released_isPrefix,
    invariant.worker.released_nil⟩
  intro seq message member
  obtain ⟨-, positive, token, adopted, stored⟩ :=
    invariant.log.genuine seq message member
  refine ⟨positive, ?_⟩
  simp only [adoptedHistory, adopted]
  exact stored

end HttpRelaySession

end MachineBridge.Relay
