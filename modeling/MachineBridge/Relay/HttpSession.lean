import MachineBridge.Foundation.Run
import MachineBridge.Relay.HttpConnection
import MachineBridge.Relay.HttpWorkerInvariant

/-!
# One HTTPS relay session

The daemon, the Worker, and every request and response of the session.  A
request can reach the Worker any number of times and in any order, its response
can be lost, and the events of both sides interleave freely.  Between two
messages of one response the model also admits events that the program runs
only later.
-/

namespace MachineBridge.Relay

open Foundation List

variable {Content : Type}

structure HttpRelaySession (Content : Type) where
  daemon : DaemonHttpRelayConnection Content
  worker : HttpRelayWorker Content
  requests : List (DaemonHttpExchange Content) := []
  responses : List (Nat × RelayResponse Content) := []

inductive HttpRelayEvent (Content : Type) where
  | daemonActs (action : LocalAction Content)
  | poll (availableBytes : Int)
  /-- A request reaches the Worker. -/
  | exchange (request : Nat) (environment : ExchangeEnvironment Content)
  /-- A response reaches the daemon. -/
  | receive (response : Nat) (effects : List (LocalAction Content))
      (expired : Bool)
  /-- The exchange in flight fails without a response. -/
  | fail (expired : Bool)
  /-- The response of the exchange in flight violates the contract. -/
  | garbled
  | advance (handler : Nat) (effects : List (LocalAction Content))
      (threw : Bool)
  | settle (handler : Nat) (fulfilled expired : Bool)
  | workerSend (message : WorkerMessage Content)
  | workerRevoke (records : List AuthorityRevocationRecord)
  /-- The Worker closes the channel: liveness, replacement, detachment. -/
  | workerClose

namespace HttpRelaySession

variable (sizes : WireSizes Content)

def start (instanceId : String) (takeover : Option String)
    (server version : String) : HttpRelaySession Content where
  daemon := { instanceId, takeoverWebSocketConnectionId := takeover }
  worker := { server, version }

section

variable (session : HttpRelaySession Content)

/-- Whether the daemon still waits for a response. -/
def awaitsResponse : Bool :=
  match session.daemon.inFlight with
  | .waiting _ => !session.daemon.ended
  | _ => false

def step : HttpRelayEvent Content → HttpRelaySession Content
  | .daemonActs action =>
    { session with daemon := session.daemon.act sizes action }
  | .poll availableBytes =>
    if session.daemon.ended || session.daemon.inFlight != .idle then session
    else { session with
      requests := session.requests ++
        [session.daemon.request sizes availableBytes]
      daemon := { session.daemon with
        inFlight := .waiting session.requests.length } }
  | .exchange request environment =>
    match session.requests[request]? with
    | none => session
    | some exchange =>
      let result := handleDaemonHttpRelay sizes environment
        session.worker exchange
      { session with
        worker := result.1
        responses := session.responses ++ [(request, result.2)] }
  | .receive response effects expired =>
    match session.responses[response]? with
    | none => session
    | some (request, body) =>
      if session.daemon.ended ||
          session.daemon.inFlight != .waiting request then session
      else { session with
        daemon := session.daemon.handleResponse sizes effects expired
          body }
  | .fail expired =>
    if session.awaitsResponse then
      { session with daemon := session.daemon.handleFailure expired }
    else session
  | .garbled =>
    if session.awaitsResponse then
      { session with daemon := session.daemon.resetSession }
    else session
  | .advance handler effects threw =>
    { session with
      daemon := session.daemon.advanceHandler sizes handler effects threw }
  | .settle handler fulfilled expired =>
    { session with
      daemon := session.daemon.settleHandler handler fulfilled expired }
  | .workerSend message =>
    match session.worker.channel with
    | none => session
    | some channel =>
      { session with
        worker := session.worker.put (channel.trySend sizes message) }
  | .workerRevoke records =>
    match session.worker.channel with
    | none => session
    | some channel =>
      { session with
        worker := session.worker.put
          (channel.queueRevocations sizes records) }
  | .workerClose => { session with worker := session.worker.close }

end

/-- The daemon's side as the Worker's invariant refers to it. -/
def view (daemon : DaemonHttpRelayConnection Content) :
    DaemonView Content where
  adopted := daemon.history.adopted
  enqueued := daemon.history.enqueued
  committed := daemon.history.committed

/-- A message of the Worker under the number it was queued with. -/
def Genuine (adopted : Option Nat) (worker : HttpRelayWorker Content)
    (item : Nat × WorkerMessage Content) : Prop :=
  item.1 ≤ maxSafeInteger ∧ 0 < item.1 ∧
    ∃ token, adopted = some token ∧
      (worker.histories token).queued[item.1 - 1]? = some item.2

/-- What holds of a connection whose session goes on.  Within one round of a
handler `pending` is the message that is handled but not committed. -/
structure LiveOk (sizes : WireSizes Content) (pending : Option Nat)
    (requests : List (DaemonHttpExchange Content))
    (worker : HttpRelayWorker Content)
    (daemon : DaemonHttpRelayConnection Content) : Prop where
  token_eq : daemon.activationToken = daemon.history.adopted
  authenticated_eq : daemon.authenticated = daemon.history.adopted.isSome
  carries : daemon.outbound.Carries sizes.daemonMessage
    daemon.history.enqueued
  dropped_eq : daemon.history.dropped =
    daemon.history.enqueued.take daemon.outbound.acknowledged
  inbound_eq : daemon.inbound.acknowledged = daemon.history.committed.length
  waiting : ∀ request, daemon.inFlight = .waiting request →
    ∃ exchange, requests[request]? = some exchange ∧
      exchange.activationToken = daemon.history.adopted
  handlers : ∀ handler ∈ daemon.handlers, ∀ item,
    handler.awaiting = some item ∨ item ∈ handler.remaining →
    Genuine daemon.history.adopted worker item
  awaiting_le : ∀ handler ∈ daemon.handlers, ∀ item,
    handler.awaiting = some item → item.1 ≤ daemon.inbound.acknowledged + 1
  completed_le : ∀ seq, .completed seq ∈ daemon.history.handlings →
    seq ≤ daemon.inbound.acknowledged ∨ pending = some seq
  toolCalls_le : ∀ seq ∈ daemon.history.handlings.filterMap
    MessageHandling.toolCallSeq?,
    seq ≤ daemon.inbound.acknowledged ∨ pending = some seq

/-- A message is handed over (again) only when no earlier handling of it has
completed. -/
def HandedBeforeCompletion (handlings : List (MessageHandling Content)) :
    Prop :=
  ∀ before seq message after,
    handlings = before ++ .handed seq message :: after →
    .completed seq ∉ before

theorem HandedBeforeCompletion.append
    {handlings : List (MessageHandling Content)}
    {handling : MessageHandling Content}
    (holds : HandedBeforeCompletion handlings) (fresh : ∀ seq message,
      handling = .handed seq message → .completed seq ∉ handlings) :
    HandedBeforeCompletion (handlings ++ [handling]) := by
  intro before seq message after split
  rcases eq_nil_or_concat after with last | ⟨rest, final, shape⟩
  · subst last
    obtain ⟨same, tail⟩ := append_inj' split rfl
    exact same ▸ fresh seq message (singleton_inj.mp tail)
  · subst shape
    rw [concat_eq_append, ← cons_append, ← append_assoc] at split
    obtain ⟨same, -⟩ := append_inj' split rfl
    exact holds before seq message rest same

/-- What holds of the message handler's history, also after the session. -/
structure LogOk (worker : HttpRelayWorker Content)
    (history : DaemonHistory Content) : Prop where
  genuine : ∀ seq message, .handed seq message ∈ history.handlings →
    Genuine history.adopted worker (seq, message)
  again : HandedBeforeCompletion history.handlings
  toolCalls_nodup :
    (history.handlings.filterMap MessageHandling.toolCallSeq?).Nodup

structure Invariant (sizes : WireSizes Content) (pending : Option Nat)
    (session : HttpRelaySession Content) : Prop where
  worker : WorkerInvariant sizes (view session.daemon) session.worker
  requests : ∀ exchange ∈ session.requests,
    ExchangeOk (view session.daemon) exchange
  responses : ∀ request response, (request, response) ∈ session.responses →
    ∃ exchange, session.requests[request]? = some exchange ∧
      ResponseOk session.daemon.history.adopted session.worker exchange
        response
  dropped : session.daemon.history.dropped <+: session.worker.log.handed
  live : session.daemon.ended = false →
    LiveOk sizes pending session.requests session.worker session.daemon
  log : LogOk session.worker session.daemon.history

variable {sizes}

theorem start_invariant (instanceId : String) (takeover : Option String)
    (server version : String) : Invariant sizes none
    (start instanceId takeover server version : HttpRelaySession Content) where
  worker := {
    fresh := fun _ _ => rfl
    bounded := nofun
    adopted_lt := nofun
    handed_isPrefix := prefix_rfl
    handed_nil := fun _ => rfl
    committed_isPrefix := nofun
    committed_nil := fun _ => rfl
    released_isPrefix := nofun
    released_nil := fun _ _ => rfl
    channel_token := by simp [start]
    channel_history := by simp [start]
    channel_wellFormed := by simp [start]
    channel_sequence := by simp [start] }
  requests := by simp [start]
  responses := by simp [start]
  dropped := prefix_rfl
  live := fun _ => {
    token_eq := rfl
    authenticated_eq := rfl
    carries := Queue.carries_nil _
    dropped_eq := rfl
    inbound_eq := rfl
    waiting := by simp [start]
    handlers := by simp [start]
    awaiting_le := by simp [start]
    completed_le := by simp [start]
    toolCalls_le := by simp [start] }
  log := {
    genuine := by simp [start]
    again := fun before _ _ _ split => by simp [start] at split
    toolCalls_nodup := nodup_nil }

variable {worker : HttpRelayWorker Content} {pending : Option Nat}
  {session : HttpRelaySession Content}

theorem Genuine.grow {adopted : Option Nat} {next : HttpRelayWorker Content}
    {item : Nat × WorkerMessage Content}
    (genuine : Genuine adopted worker item) (grows : WorkerGrows worker next) :
    Genuine adopted next item := by
  obtain ⟨safe, positive, token, adoptedEq, stored⟩ := genuine
  exact ⟨safe, positive, token, adoptedEq,
    getElem?_of_prefix (grows.queued_isPrefix token) stored⟩

theorem LogOk.grow {next : HttpRelayWorker Content}
    {history : DaemonHistory Content} (log : LogOk worker history)
    (grows : WorkerGrows worker next) : LogOk next history :=
  ⟨fun seq message member => (log.genuine seq message member).grow grows,
    log.again, log.toolCalls_nodup⟩

section

variable (invariant : Invariant sizes pending session)
include invariant

theorem Invariant.withWorker
    (kept : WorkerInvariant sizes (view session.daemon) worker)
    (grows : WorkerGrows session.worker worker) :
    Invariant sizes pending { session with worker } where
  worker := kept
  requests := invariant.requests
  responses := by
    intro request response member
    obtain ⟨exchange, found, ok⟩ := invariant.responses request response member
    exact ⟨exchange, found, ok.grow grows⟩
  dropped := invariant.dropped.trans grows.handed_isPrefix
  live := fun live =>
    { invariant.live live with
      handlers := fun handler member item part =>
        ((invariant.live live).handlers handler member item part).grow grows }
  log := invariant.log.grow grows

theorem exchange_invariant
    (request : Nat) (environment : ExchangeEnvironment Content) : Invariant
    sizes pending (session.step sizes (.exchange request environment)) := by
  unfold step
  dsimp only
  split
  case h_1 => exact invariant
  case h_2 exchange found =>
    have result := handleDaemonHttpRelay_spec environment invariant.worker
      (invariant.requests exchange (mem_of_getElem? found))
    have grown := invariant.withWorker result.invariant result.grows
    exact {
      __ := grown
      responses := by
        intro other response member
        rcases mem_append.mp member with old | new
        · exact grown.responses other response old
        · obtain ⟨rfl, rfl⟩ := Prod.mk.inj (mem_singleton.mp new)
          exact ⟨exchange, found, result.response⟩
      log := grown.log }

end

theorem queued_invariant {channel next : DaemonHttpChannel Content}
    (invariant : Invariant sizes pending session)
    (held : session.worker.channel = some channel)
    (queues : channel.Queues sizes next) :
    Invariant sizes pending { session with worker := session.worker.put next } := by
  have fits := (invariant.worker.fits held).extends queues.toExtends
  refine invariant.withWorker (.put invariant.worker.toRecordsOk fits ?_)
    (HttpRelayWorker.put_grows fits)
  rw [queues.daemonSeq_eq, queues.token_eq]
  exact invariant.worker.channel_sequence channel held

theorem acts_invariant {daemon : DaemonHttpRelayConnection Content}
    (invariant : Invariant sizes pending session)
    (acts : session.daemon.Acts sizes daemon) :
    Invariant sizes pending { session with daemon } := by
  obtain ⟨adopted, dropped, committed, handlings⟩ :
      daemon.history.adopted = session.daemon.history.adopted ∧
      daemon.history.dropped = session.daemon.history.dropped ∧
      daemon.history.committed = session.daemon.history.committed ∧
      daemon.history.handlings = session.daemon.history.handlings := by
    rw [acts.history_eq]
    exact ⟨rfl, rfl, rfl, rfl⟩
  have views : view daemon = { view session.daemon with
      enqueued := daemon.history.enqueued } := by
    simp [view, adopted, committed]
  refine {
    worker := ?_
    requests := ?_
    responses := ?_
    dropped := ?_
    live := ?_
    log := ?_ }
  · rw [views]
    exact { invariant.worker with
      handed_isPrefix := invariant.worker.handed_isPrefix.trans
        acts.enqueued_isPrefix }
  · intro exchange member
    rw [views]
    exact (invariant.requests exchange member).grow (fun _ => id)
      acts.enqueued_isPrefix prefix_rfl
  · intro request response member
    rw [adopted]
    exact invariant.responses request response member
  · rw [dropped]
    exact invariant.dropped
  · intro live
    have before := invariant.live (acts.open_before live)
    exact {
      token_eq := by rw [acts.token_eq live, adopted]; exact before.token_eq
      authenticated_eq := by
        rw [acts.authenticated_eq live, adopted]
        exact before.authenticated_eq
      carries := acts.carries live before.carries
      dropped_eq := by
        rw [dropped, acts.acknowledged_eq live, before.dropped_eq,
          prefix_iff_eq_take.mp acts.enqueued_isPrefix, take_take,
          Nat.min_eq_left before.carries.acknowledged_le]
      inbound_eq := by
        rw [acts.inbound_eq live, committed]
        exact before.inbound_eq
      waiting := by
        intro request waits
        rw [adopted]
        rcases acts.inFlight_eq with same | idle
        · exact before.waiting request (same.symm.trans waits)
        · rw [idle] at waits
          cases waits
      handlers := by
        rw [acts.handlers_eq, adopted]
        exact before.handlers
      awaiting_le := by
        rw [acts.handlers_eq, acts.inbound_eq live]
        exact before.awaiting_le
      completed_le := by
        rw [handlings, acts.inbound_eq live]
        exact before.completed_le
      toolCalls_le := by
        rw [handlings, acts.inbound_eq live]
        exact before.toolCalls_le }
  · exact ⟨by rw [handlings, adopted]; exact invariant.log.genuine,
      by rw [handlings]; exact invariant.log.again,
      by rw [handlings]; exact invariant.log.toolCalls_nodup⟩

end HttpRelaySession

end MachineBridge.Relay
