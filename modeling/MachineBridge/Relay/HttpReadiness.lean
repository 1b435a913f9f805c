import MachineBridge.Relay.HttpWorkerInvariant

/-!
# Readiness of the Worker's channel

A channel takes up guarded work only after its handshake: the control messages
were queued, and the daemon acknowledged all of them.  Every exchange and every
other event of the Worker keeps this.
-/

namespace MachineBridge.Relay

open Foundation List

variable {Content : Type} {sizes : WireSizes Content}
variable {server version : String}

def WorkerMessage.isControl : WorkerMessage Content → Bool
  | .resumeCalls _ => true
  | .authorityRevoke _ => true
  | .readyAck _ _ => true
  | _ => false

theorem WorkerMessage.guarded?_of_isControl {message : WorkerMessage Content}
    (control : message.isControl = true) : message.guarded? = none := by
  cases message with
  | resumeCalls => rfl
  | authorityRevoke => rfl
  | readyAck => rfl
  | toolCall => cases control
  | other => cases control

/-- What a channel has queued when its handshake is offered: the resume message,
the revocations, and the ready acknowledgement at the end. -/
def ControlMessages (server version : String)
    (messages : List (WorkerMessage Content)) : Prop :=
  ∃ before ids between,
    messages = before ++ .resumeCalls ids ::
      (between ++ [.readyAck server version]) ∧
    ∀ message ∈ before ++ between, message.isControl = true

def Offered (server version : String)
    (messages : List (WorkerMessage Content)) : Prop :=
  ∃ control, ControlMessages server version control ∧ control <+: messages

theorem Offered.grow {before after : List (WorkerMessage Content)}
    (offered : Offered server version before) (grown : before <+: after) :
    Offered server version after := by
  obtain ⟨control, messages, isPrefix⟩ := offered
  exact ⟨control, messages, isPrefix.trans grown⟩

theorem Offered.readyAck_mem {messages : List (WorkerMessage Content)}
    (offered : Offered server version messages) :
    .readyAck server version ∈ messages := by
  obtain ⟨control, ⟨before, ids, between, rfl, -⟩, isPrefix⟩ := offered
  exact isPrefix.subset (by simp)

/-- The handshake was queued and acknowledged before the work was taken up. -/
def Admission.AfterHandshake (server version : String)
    (admission : Admission Content) : Prop :=
  ∃ control, ControlMessages server version control ∧
    control <+: admission.queued ∧ control <+: admission.released

/-- A tool call is recorded with what was queued before it. -/
def CallsAdmitted (history : ChannelHistory Content) : Prop :=
  ∀ before content after,
    history.queued = before ++ .toolCall content :: after →
    ∃ admission ∈ history.admitted,
      admission.work = .toolCall content ∧ admission.queued = before

structure HistoryOk (server version : String)
    (history : ChannelHistory Content) : Prop where
  admitted : ∀ admission ∈ history.admitted,
    admission.AfterHandshake server version
  calls : CallsAdmitted history

theorem historyOk_nil :
    HistoryOk server version ({} : ChannelHistory Content) where
  admitted := nofun
  calls := by
    intro before content after split
    simp at split

namespace DaemonHttpChannel

/-- A channel that keeps the order of the handshake. -/
structure Handshaken (sizes : WireSizes Content) (server version : String)
    (channel : DaemonHttpChannel Content) : Prop
    extends channel.WellFormed sizes where
  history : HistoryOk server version channel.history
  unoffered : channel.handshake.offered = false →
    ∀ message ∈ channel.history.queued, message.isControl = true
  offered : channel.handshake.offered = true →
    Offered server version channel.history.queued
  ready_offered : channel.verifiedReady = true →
    channel.handshake.offered = true
  ready : channel.verifiedReady = true →
    Offered server version channel.history.released

variable {channel next : DaemonHttpChannel Content}
  {payload : DaemonMessage Content} {log : HandlingLog Content}

theorem Handshaken.afterHandshake (ok : Handshaken sizes server version
    channel) (ready : channel.verifiedReady = true) (work : GuardedWork
    Content) : (Admission.mk work channel.history.queued
    channel.history.released).AfterHandshake server version := by
  obtain ⟨control, messages, isPrefix⟩ := ok.ready ready
  refine ⟨control, messages, isPrefix.trans ?_, isPrefix⟩
  rw [ok.released_eq]
  exact take_prefix _ _

theorem mem_recordAdmission {history : ChannelHistory Content}
    {work : Option (GuardedWork Content)} {admission : Admission Content}
    (member : admission ∈ (history.recordAdmission work).admitted) :
    admission ∈ history.admitted ∨ ∃ guarded, work = some guarded ∧
    admission = ⟨guarded, history.queued, history.released⟩ := by
  rcases mem_append.mp member with old | new
  · exact .inl old
  · obtain ⟨guarded, found, same⟩ := List.mem_map.mp new
    exact .inr ⟨guarded, by simpa using found, same.symm⟩

theorem Handshaken.recordAdmission
    (ok : Handshaken sizes server version channel)
    {work : Option (GuardedWork Content)}
    (guarded : work = none ∨ channel.verifiedReady = true) :
    ∀ admission ∈ (channel.history.recordAdmission work).admitted,
    admission.AfterHandshake server version := by
  intro admission member
  rcases mem_recordAdmission member with old | ⟨item, same, shape⟩
  · exact ok.history.admitted admission old
  · rcases guarded with none | ready
    · rw [none] at same
      cases same
    · rw [shape]
      exact ok.afterHandshake ready item

theorem callsAdmitted_queue {history : ChannelHistory Content}
    (calls : CallsAdmitted history) (message : WorkerMessage Content) :
    CallsAdmitted { history.recordAdmission message.guarded? with
      queued := history.queued ++ [message] } := by
  intro before content after split
  rcases eq_nil_or_concat after with last | ⟨rest, final, shape⟩
  · subst last
    obtain ⟨same, tail⟩ := append_inj' split rfl
    cases tail
    refine ⟨⟨.toolCall content, history.queued, history.released⟩, ?_, rfl,
      same⟩
    simp [ChannelHistory.recordAdmission, WorkerMessage.guarded?]
  · subst shape
    rw [concat_eq_append, ← cons_append, ← append_assoc] at split
    obtain ⟨same, -⟩ := append_inj' split rfl
    obtain ⟨admission, member, found⟩ := calls before content rest same
    exact ⟨admission, mem_append_left _ member, found⟩

theorem send_handshaken {message : WorkerMessage Content}
    (ok : Handshaken sizes server version channel)
    (guarded : message.isControl = true ∨ channel.verifiedReady = true)
    (sent : channel.send sizes message = some next) :
    Handshaken sizes server version next ∧ next.handshake = channel.handshake ∧
    next.verifiedReady = channel.verifiedReady ∧
    next.history.queued = channel.history.queued ++ [message] := by
  have wellFormed := (send_queues sent).wellFormed ok.toWellFormed
  unfold send at sent
  split at sent
  · cases sent
  · cases sent
    have grown : channel.history.queued <+:
        channel.history.queued ++ [message] := prefix_append _ _
    have work : message.guarded? = none ∨ channel.verifiedReady = true :=
      guarded.imp_left WorkerMessage.guarded?_of_isControl
    refine ⟨⟨wellFormed, ⟨ok.recordAdmission work, callsAdmitted_queue
      ok.history.calls message⟩, ?_, ?_, ok.ready_offered, ok.ready⟩, rfl,
      rfl, rfl⟩
    · intro unoffered other member
      rcases mem_append.mp member with old | new
      · exact ok.unoffered unoffered other old
      · rw [mem_singleton.mp new]
        rcases guarded with control | ready
        · exact control
        · rw [ok.ready_offered ready] at unoffered
          cases unoffered
    · intro offered
      exact (ok.offered offered).grow grown

section

variable (ok : Handshaken sizes server version channel)
include ok

theorem trySend_handshaken (message : WorkerMessage Content) :
    Handshaken sizes server version (channel.trySend sizes message) ∧
    (channel.trySend sizes message).verifiedReady = channel.verifiedReady := by
  unfold trySend
  split
  case isTrue ready =>
    cases sent : channel.send sizes message with
    | none => exact ⟨ok, rfl⟩
    | some next =>
      obtain ⟨after, -, same, -⟩ := send_handshaken ok (.inr ready) sent
      exact ⟨after, same⟩
  case isFalse => exact ⟨ok, rfl⟩

theorem trySendAll_handshaken (messages : List (WorkerMessage Content)) :
    Handshaken sizes server version (channel.trySendAll sizes messages) ∧
    (channel.trySendAll sizes messages).verifiedReady =
    channel.verifiedReady := by
  induction messages generalizing channel with
  | nil => exact ⟨ok, rfl⟩
  | cons message messages induction =>
    obtain ⟨after, same⟩ := trySend_handshaken ok message
    obtain ⟨final, still⟩ := induction after
    exact ⟨final, still.trans same⟩

theorem queueRevocations_handshaken
    (records : List AuthorityRevocationRecord) :
    let next := channel.queueRevocations sizes records
    Handshaken sizes server version next ∧
      next.handshake = channel.handshake ∧
      next.verifiedReady = channel.verifiedReady ∧
      ∃ revocations, next.history.queued =
          channel.history.queued ++ revocations ∧
        ∀ message ∈ revocations, message.isControl = true := by
  induction records generalizing channel with
  | nil => exact ⟨ok, rfl, rfl, [], by simp [queueRevocations],
      List.forall_mem_nil _⟩
  | cons record records induction =>
    unfold queueRevocations
    split
    · exact induction ok
    · split
      case h_1 =>
        exact ⟨ok, rfl, rfl, [], by simp, List.forall_mem_nil _⟩
      case h_2 queued sent =>
        obtain ⟨after, handshake, same, appended⟩ :=
          send_handshaken ok (.inl rfl) sent
        obtain ⟨final, handshakeEq, readyEq, revocations, split, control⟩ :=
          induction after
        refine ⟨final, handshakeEq.trans handshake, readyEq.trans same,
          .authorityRevoke record :: revocations, ?_, ?_⟩
        · rw [split, appended, append_assoc, singleton_append]
        · intro message member
          rcases mem_cons.mp member with first | rest
          · rw [first]
            rfl
          · exact control message rest

theorem advanceHandshake_handshaken
    (records : List AuthorityRevocationRecord) :
    let next := (channel.advanceHandshake sizes server version records).1
    Handshaken sizes server version next ∧
      next.verifiedReady = channel.verifiedReady := by
  unfold advanceHandshake
  split
  case isTrue due =>
    simp only [Bool.and_eq_true, Bool.not_eq_true'] at due
    have unoffered : channel.handshake.offered = false := due.1.1
    split
    case h_1 => exact ⟨ok, rfl⟩
    case h_2 resumed sent =>
      obtain ⟨okResumed, handshake, same, appended⟩ :=
        send_handshaken ok (.inl rfl) sent
      obtain ⟨okRevoked, handshakeEq, readyEq, revocations, split, control⟩ :=
        queueRevocations_handshaken okResumed records
      dsimp only
      split
      case h_1 => exact ⟨okRevoked, readyEq.trans same⟩
      case h_2 acknowledged last =>
        obtain ⟨okLast, -, still, final⟩ :=
          send_handshaken okRevoked (.inl rfl) last
        have shape :
            ControlMessages server version acknowledged.history.queued := by
          refine ⟨channel.history.queued, channel.handshake.ids, revocations,
            ?_, ?_⟩
          · rw [final, split, appended]
            simp
          · intro message member
            rcases mem_append.mp member with old | new
            · exact ok.unoffered unoffered message old
            · exact control message new
        exact ⟨⟨⟨okLast.carries, okLast.released_eq, okLast.bounded⟩,
          okLast.history, nofun, fun _ => ⟨_, shape, prefix_rfl⟩, fun _ => rfl,
          okLast.ready⟩, still.trans (readyEq.trans same)⟩
  case isFalse =>
    obtain ⟨after, -, same, -⟩ := queueRevocations_handshaken ok records
    exact ⟨after, same⟩

end

section

variable (ok : Handshaken sizes server version channel)
include ok

theorem process_handshaken
    (guarded : payload.guarded? = none ∨ channel.verifiedReady = true) :
    Handshaken sizes server version (channel.process payload) := by
  refine ⟨(process_queues channel payload).wellFormed ok.toWellFormed,
    ⟨ok.recordAdmission guarded, ?_⟩, ok.unoffered, ok.offered, ok.ready_offered,
    ok.ready⟩
  intro before content after split
  obtain ⟨admission, member, found⟩ :=
    ok.history.calls before content after split
  exact ⟨admission, mem_append_left _ member, found⟩

theorem commitDaemonSequence_handshaken (sequence : Nat) :
    Handshaken sizes server version (channel.commitDaemonSequence sequence) :=
  ⟨⟨ok.carries, ok.released_eq, ok.bounded⟩, ok.history, ok.unoffered,
    ok.offered, ok.ready_offered, ok.ready⟩

theorem verifyReady_handshaken (offered : channel.handshake.offered = true)
    (acknowledged : channel.outbound.messages = []) :
    Handshaken sizes server version channel.verifyReady := by
  have released : channel.history.released = channel.history.queued := by
    rw [ok.released_eq]
    exact ok.carries.take_acknowledged acknowledged
  refine ⟨⟨ok.carries, ok.released_eq, ok.bounded⟩, ok.history,
    ok.unoffered, ok.offered, fun _ => offered, fun _ => ?_⟩
  dsimp only [verifyReady]
  rw [released]
  exact ok.offered offered

end

theorem acknowledgeWorker_handshaken {sequence : Nat}
    (ok : Handshaken sizes server version channel)
    (accepted : channel.acknowledgeWorker sequence = some next) :
    Handshaken sizes server version next ∧
    next.verifiedReady = channel.verifiedReady := by
  obtain ⟨wellFormed, -⟩ := acknowledgeWorker_spec ok.toWellFormed accepted
  obtain ⟨outbound, -, rfl⟩ := Option.map_eq_some_iff.mp accepted
  refine ⟨⟨wellFormed, ⟨ok.history.admitted, ok.history.calls⟩, ok.unoffered,
    ok.offered, ok.ready_offered, fun ready => ?_⟩, rfl⟩
  exact (ok.ready ready).grow (prefix_append _ _)

/-- A ready channel has also taken the daemon's readiness message. -/
structure Announced (sizes : WireSizes Content) (server version : String)
    (log : HandlingLog Content) (channel : DaemonHttpChannel Content) : Prop
    extends Handshaken sizes server version channel where
  reported : channel.verifiedReady = true → .httpsReady ∈ log.handed

theorem Announced.grow {next : HandlingLog Content}
    (ok : Announced sizes server version log channel)
    (grows : log.handed <+: next.handed) :
    Announced sizes server version next channel :=
  ⟨ok.toHandshaken, fun ready => grows.subset (ok.reported ready)⟩

theorem Announced.rechannel (ok : Announced sizes server version log channel)
    (after : Handshaken sizes server version next)
    (same : next.verifiedReady = channel.verifiedReady) :
    Announced sizes server version log next :=
  ⟨after, fun ready => ok.reported (same ▸ ready)⟩

theorem guarded_of_handlingOf {ready : Bool}
    {handlings : List (Handling Content)}
    (handled : handlingOf ready payload handlings ≠ .invalid) :
    payload.guarded? = none ∨ ready = true := by
  cases payload with
  | httpsReady => exact .inl rfl
  | resumeCallsAck content =>
    right
    cases ready with
    | true => rfl
    | false => exact absurd rfl handled
  | authorityRevokeAck content => exact .inl rfl
  | other content => exact .inl rfl

theorem handled_announced {handlings : List (Handling Content)}
    (ok : Announced sizes server version log channel)
    (handled : handlingOf channel.verifiedReady payload handlings ≠ .invalid)
    (sends : List (WorkerMessage Content)) : Announced sizes server version log
    ((channel.process payload).trySendAll sizes sends) := by
  have processed : Handshaken sizes server version (channel.process payload) :=
    process_handshaken ok.toHandshaken (guarded_of_handlingOf handled)
  obtain ⟨after, same⟩ := trySendAll_handshaken processed sends
  exact ok.rechannel after same

theorem acceptMessages_announced (probing : Bool)
    (messages : List (Nat × DaemonMessage Content))
    (handlings : List (Handling Content))
    (ok : Announced sizes server version log channel) :
    let result := acceptMessages sizes probing channel log messages handlings
    result.1.channel.Announced sizes server version result.2 := by
  induction messages generalizing channel log handlings with
  | nil => exact ok
  | cons message messages induction =>
    obtain ⟨seq, payload⟩ := message
    have handed : log.handed <+: (log.hand payload).handed := prefix_append _ _
    unfold acceptMessages
    cases channel.acceptDaemonSequence seq with
    | duplicate => exact induction handlings ok
    | gap => exact ok
    | new =>
      dsimp only
      split
      case isTrue isReady =>
        split
        · exact ok
        case isFalse complete =>
          simp only [Bool.or_eq_true, Bool.not_eq_true', not_or,
            Bool.not_eq_false, List.isEmpty_iff] at complete
          simp only [Bool.and_eq_true] at isReady
          have verified := commitDaemonSequence_handshaken
            (verifyReady_handshaken ok.toHandshaken complete.1
              complete.2) seq
          apply induction
          refine ⟨verified, fun _ => ?_⟩
          cases payload with
          | httpsReady => exact mem_append_right _ (mem_singleton.mpr rfl)
          | resumeCallsAck | authorityRevokeAck | other => cases isReady.2
      case isFalse =>
        split
        case h_1 sends outcome =>
          have after := handled_announced ok
            (by rw [outcome]; nofun) sends
          have committed := commitDaemonSequence_handshaken
            after.toHandshaken seq
          apply induction
          exact (after.rechannel committed rfl).grow handed
        case h_2 => exact ok.grow handed
        case h_3 sends outcome =>
          have after := handled_announced ok
            (by rw [outcome]; nofun) sends
          exact after.grow prefix_rfl

end DaemonHttpChannel

theorem acceptMessages_grows (sizes : WireSizes Content) (probing : Bool)
    (channel : DaemonHttpChannel Content) (log : HandlingLog Content)
    (messages : List (Nat × DaemonMessage Content))
    (handlings : List (Handling Content)) : log.handed <+:
    (acceptMessages sizes probing channel log messages handlings).2.handed :=
    by
  induction messages generalizing channel log handlings with
  | nil => exact prefix_rfl
  | cons message messages induction =>
    obtain ⟨seq, payload⟩ := message
    have handed : log.handed <+: (log.hand payload).handed := prefix_append _ _
    unfold acceptMessages
    cases channel.acceptDaemonSequence seq with
    | duplicate => exact induction channel log handlings
    | gap => exact prefix_rfl
    | new =>
      dsimp only
      split
      · split
        · exact prefix_rfl
        · exact handed.trans (induction _ _ _)
      · split
        · exact handed.trans (induction _ _ _)
        · exact handed
        · exact prefix_rfl

namespace HttpRelayWorker

structure Handshaken (sizes : WireSizes Content) (server version : String)
    (worker : HttpRelayWorker Content) : Prop where
  server_eq : worker.server = server
  version_eq : worker.version = version
  histories : ∀ token, HistoryOk server version (worker.histories token)
  channel : ∀ channel, worker.channel = some channel →
    channel.Announced sizes server version worker.log

variable {worker : HttpRelayWorker Content}

theorem Handshaken.put {channel : DaemonHttpChannel Content}
    (ok : worker.Handshaken sizes server version)
    (announced : channel.Announced sizes server version worker.log) :
    (worker.put channel).Handshaken sizes server version where
  __ := ok
  histories := by
    intro token
    by_cases same : token = channel.activationToken
    · subst same
      simpa [HttpRelayWorker.put] using announced.history
    · simpa [HttpRelayWorker.put, Function.update_of_ne same]
        using ok.histories token
  channel := by
    intro other held
    cases held
    exact announced

theorem Handshaken.close (ok : worker.Handshaken sizes server version) :
    worker.close.Handshaken sizes server version :=
  { ok with channel := nofun }

theorem Handshaken.withLog {log : HandlingLog Content}
    (ok : worker.Handshaken sizes server version)
    (grows : worker.log.handed <+: log.handed) :
    { worker with log }.Handshaken sizes server version :=
  ⟨ok.server_eq, ok.version_eq, ok.histories, fun channel held =>
    (ok.channel channel held).grow grows⟩

end HttpRelayWorker

/-- A response that says the Worker is ready names a channel whose handshake
was acknowledged. -/
def ReadyEvidence (server version : String)
    (worker : HttpRelayWorker Content) : RelayResponse Content → Prop
  | .envelope .ready token _ _ =>
    (∃ named, token = some named ∧
      Offered server version (worker.histories named).released) ∧
    .httpsReady ∈ worker.log.handed
  | _ => True

variable {worker : HttpRelayWorker Content}
  {channel : DaemonHttpChannel Content}

theorem ReadyEvidence.grow {next : HttpRelayWorker Content}
    {response : RelayResponse Content}
    (evidence : ReadyEvidence server version worker response)
    (grows : WorkerGrows worker next) :
    ReadyEvidence server version next response := by
  unfold ReadyEvidence at evidence ⊢
  split
  case h_1 token _ _ =>
    obtain ⟨⟨named, same, offered⟩, handed⟩ := evidence
    exact ⟨⟨named, same, offered.grow (grows.released_isPrefix named)⟩,
      grows.handed_isPrefix.subset handed⟩
  case h_2 => trivial

theorem finishExchange_handshaken {environment : ExchangeEnvironment Content}
    (ok : worker.Handshaken sizes server version)
    (announced : channel.Announced sizes server version worker.log) :
    let result := finishExchange sizes environment worker channel
    result.1.Handshaken sizes server version ∧
      ReadyEvidence server version result.1 result.2 := by
  obtain ⟨after, same⟩ := DaemonHttpChannel.advanceHandshake_handshaken
    announced.toHandshaken environment.revocations
  have kept := announced.rechannel after same
  simp only [finishExchange, ok.server_eq, ok.version_eq]
  generalize channel.advanceHandshake sizes server version
    environment.revocations = result at after same kept ⊢
  obtain ⟨advanced, threw⟩ := result
  refine ⟨ok.put kept, ?_⟩
  cases threw with
  | true => trivial
  | false =>
    cases ready : advanced.verifiedReady with
    | false => simp [ReadyEvidence]
    | true =>
      have released : Offered server version
          ((worker.put advanced).histories advanced.activationToken).released
          := by
        simpa [HttpRelayWorker.put] using kept.ready ready
      exact ⟨⟨_, rfl, released⟩, kept.reported ready⟩

theorem newChannel_announced (token : Nat) (instanceId : String)
    (ids : List String) (log : HandlingLog Content) :
    ({ activationToken := token, instanceId, handshake := { ids } } :
      DaemonHttpChannel Content).Announced sizes server version log where
  carries := Queue.carries_nil _
  released_eq := rfl
  bounded := by simp
  history := historyOk_nil
  unoffered := by simp
  offered := by simp
  ready_offered := by simp
  ready := by simp
  reported := by simp

theorem handleDaemonHttpRelay_handshaken
    (environment : ExchangeEnvironment Content)
    (exchange : DaemonHttpExchange Content)
    (ok : worker.Handshaken sizes server version) :
    let result := handleDaemonHttpRelay sizes environment worker exchange
    result.1.Handshaken sizes server version ∧
      ReadyEvidence server version result.1 result.2 := by
  unfold handleDaemonHttpRelay
  split
  · exact ⟨ok, trivial⟩
  · split
    · exact ⟨ok, trivial⟩
    · cases held : worker.channel with
      | none =>
        dsimp only
        split
        · exact ⟨ok, trivial⟩
        · split
          · exact ⟨ok, trivial⟩
          · split
            · exact ⟨ok, trivial⟩
            · split
              · exact ⟨ok, trivial⟩
              · refine finishExchange_handshaken ?_
                  (newChannel_announced _ _ _ _)
                exact { ok with channel := nofun }
      | some channel =>
        dsimp only
        split
        · exact ⟨ok.close, trivial⟩
        · split
          · exact ⟨ok, trivial⟩
          · split
            · exact ⟨ok, trivial⟩
            · cases acknowledged :
                  channel.acknowledgeWorker exchange.ackWorkerSeq with
              | none => exact ⟨ok, trivial⟩
              | some next =>
                have before := ok.channel channel held
                obtain ⟨after, same⟩ :=
                  DaemonHttpChannel.acknowledgeWorker_handshaken
                    before.toHandshaken acknowledged
                have accepted :=
                  DaemonHttpChannel.acceptMessages_announced
                    (!channel.verifiedReady) exchange.messages
                    environment.handlings (before.rechannel after same)
                have grows := acceptMessages_grows sizes
                  (!channel.verifiedReady) next worker.log
                  exchange.messages environment.handlings
                dsimp only
                generalize acceptMessages sizes (!channel.verifiedReady)
                  next worker.log exchange.messages
                  environment.handlings = result at accepted grows ⊢
                obtain ⟨outcome, log⟩ := result
                have logged : HttpRelayWorker.Handshaken sizes server
                    version { worker with channel := some channel, log } := by
                  rw [← held]
                  exact ok.withLog grows
                cases outcome with
                | continued last =>
                  exact finishExchange_handshaken logged accepted
                | invalidated last =>
                  exact ⟨(logged.put accepted).close, trivial⟩
                | threw last => exact ⟨logged.put accepted, trivial⟩

theorem HttpRelayWorker.Handshaken.send
    (ok : worker.Handshaken sizes server version)
    (held : worker.channel = some channel) (message : WorkerMessage Content) :
    (worker.put (channel.trySend sizes message)).Handshaken sizes server
    version := by
  have before := ok.channel channel held
  obtain ⟨after, same⟩ :=
    DaemonHttpChannel.trySend_handshaken before.toHandshaken message
  exact ok.put (before.rechannel after same)

theorem HttpRelayWorker.Handshaken.revoke
    (ok : worker.Handshaken sizes server version)
    (held : worker.channel = some channel)
    (records : List AuthorityRevocationRecord) :
    (worker.put (channel.queueRevocations sizes records)).Handshaken sizes
    server version := by
  have before := ok.channel channel held
  obtain ⟨after, -, same, -⟩ :=
    DaemonHttpChannel.queueRevocations_handshaken before.toHandshaken records
  exact ok.put (before.rechannel after same)

end MachineBridge.Relay
