import MachineBridge.Relay.HttpController

/-!
# What an exchange preserves on the Worker

The invariant relates the Worker's state to the daemon's side of the session:
the activation token the daemon adopted, the messages it enqueued and the
messages it committed.  Only the channel of the adopted token is ever
acknowledged or receives daemon messages, so a channel that was opened again by
a duplicated first request stays untouched.
-/

namespace MachineBridge.Relay

open Foundation List

variable {Content : Type} {sizes : WireSizes Content}

/-- What the Worker may assume about the daemon's side. -/
structure DaemonView (Content : Type) where
  adopted : Option Nat
  enqueued : List (DaemonMessage Content)
  committed : List (WorkerMessage Content)

/-- A request that the daemon has sent. -/
structure ExchangeOk (view : DaemonView Content)
    (exchange : DaemonHttpExchange Content) : Prop where
  adopted : ∀ token, exchange.activationToken = some token →
    view.adopted = some token
  acknowledged : exchange.ackWorkerSeq ≤ view.committed.length
  messages : ∀ item ∈ exchange.messages, item.1 ≤ maxSafeInteger →
    0 < item.1 ∧ view.enqueued[item.1 - 1]? = some item.2

/-- How far a channel has taken the daemon's messages. -/
def expectedSequence (adopted : Option Nat) (token : Nat)
    (log : HandlingLog Content) : Nat :=
  if adopted = some token then log.handed.length else 0

/-- The Worker's records of a session, without the channel it holds now. -/
structure RecordsOk (sizes : WireSizes Content) (view : DaemonView Content)
    (worker : HttpRelayWorker Content) : Prop where
  fresh : ∀ token, worker.nextToken ≤ token → worker.histories token = {}
  bounded : ∀ token, ∀ message ∈ (worker.histories token).queued,
    sizes.workerMessage message ≤ httpFallbackMaximumMessageBytes
  adopted_lt : ∀ token, view.adopted = some token → token < worker.nextToken
  handed_isPrefix : worker.log.handed <+: view.enqueued
  handed_nil : view.adopted = none → worker.log.handed = []
  committed_isPrefix : ∀ token, view.adopted = some token →
    view.committed <+: (worker.histories token).queued
  committed_nil : view.adopted = none → view.committed = []
  released_isPrefix : ∀ token, view.adopted = some token →
    (worker.histories token).released <+: view.committed
  released_nil : ∀ token, view.adopted ≠ some token →
    (worker.histories token).released = []

/-- A channel which the Worker's records can be brought up to. -/
structure Fits (sizes : WireSizes Content) (view : DaemonView Content)
    (worker : HttpRelayWorker Content) (channel : DaemonHttpChannel Content) :
    Prop where
  token_lt : channel.activationToken < worker.nextToken
  wellFormed : channel.WellFormed sizes
  queued_isPrefix : (worker.histories channel.activationToken).queued <+:
    channel.history.queued
  released_grows : (worker.histories channel.activationToken).released <+:
    channel.history.released
  released_isPrefix : view.adopted = some channel.activationToken →
    channel.history.released <+: view.committed
  released_nil : view.adopted ≠ some channel.activationToken →
    channel.history.released = []

structure WorkerInvariant (sizes : WireSizes Content)
    (view : DaemonView Content) (worker : HttpRelayWorker Content) :
    Prop extends RecordsOk sizes view worker where
  channel_token : ∀ channel, worker.channel = some channel →
    channel.activationToken < worker.nextToken
  channel_history : ∀ channel, worker.channel = some channel →
    worker.histories channel.activationToken = channel.history
  channel_wellFormed : ∀ channel, worker.channel = some channel →
    channel.WellFormed sizes
  channel_sequence : ∀ channel, worker.channel = some channel →
    channel.acknowledgedDaemonSeq =
      expectedSequence view.adopted channel.activationToken worker.log

/-- A response whose claims about the Worker are true. -/
def ResponseOk (adopted : Option Nat) (worker : HttpRelayWorker Content)
    (exchange : DaemonHttpExchange Content) :
    RelayResponse Content → Prop
  | .envelope phase activationToken ackDaemonSeq messages =>
    (phase = .standby ∧ ackDaemonSeq = 0) ∨
    ∃ token, activationToken = some token ∧ token < worker.nextToken ∧
      (∀ sent, exchange.activationToken = some sent → token = sent) ∧
      ackDaemonSeq ≤ expectedSequence adopted token worker.log ∧
      ∀ item ∈ messages, item.1 ≤ maxSafeInteger →
        0 < item.1 ∧
        (worker.histories token).queued[item.1 - 1]? = some item.2
  | .conflict => True
  | .failure => True

structure WorkerGrows (worker next : HttpRelayWorker Content) : Prop where
  nextToken_le : worker.nextToken ≤ next.nextToken
  queued_isPrefix : ∀ token, (worker.histories token).queued <+:
    (next.histories token).queued
  released_isPrefix : ∀ token, (worker.histories token).released <+:
    (next.histories token).released
  handed_isPrefix : worker.log.handed <+: next.log.handed

theorem WorkerGrows.refl (worker : HttpRelayWorker Content) :
    WorkerGrows worker worker :=
  ⟨Nat.le_refl _, fun _ => prefix_rfl, fun _ => prefix_rfl, prefix_rfl⟩

theorem WorkerGrows.trans {first second third : HttpRelayWorker Content}
    (left : WorkerGrows first second) (right : WorkerGrows second third) :
    WorkerGrows first third :=
  ⟨Nat.le_trans left.nextToken_le right.nextToken_le,
    fun token => (left.queued_isPrefix token).trans (right.queued_isPrefix token),
    fun token =>
      (left.released_isPrefix token).trans (right.released_isPrefix token),
    left.handed_isPrefix.trans right.handed_isPrefix⟩

theorem getElem?_of_prefix {α : Type} {before after : List α}
    (grown : before <+: after) {index : Nat} {item : α}
    (found : before[index]? = some item) : after[index]? = some item := by
  obtain ⟨rest, same⟩ := grown
  subst same
  obtain ⟨bound, -⟩ := List.getElem?_eq_some_iff.mp found
  rw [getElem?_append_left bound]
  exact found

variable {exchange : DaemonHttpExchange Content} {log : HandlingLog Content}
  {worker : HttpRelayWorker Content} {channel : DaemonHttpChannel Content}
  {view : DaemonView Content}

theorem ExchangeOk.grow {before after : DaemonView Content}
    (ok : ExchangeOk before exchange) (adopted : ∀ token,
      before.adopted = some token → after.adopted = some token)
    (enqueued : before.enqueued <+: after.enqueued)
    (committed : before.committed <+: after.committed) :
    ExchangeOk after exchange where
  adopted := fun token sent => adopted token (ok.adopted token sent)
  acknowledged := Nat.le_trans ok.acknowledged committed.length_le
  messages := fun item member safe =>
    ⟨(ok.messages item member safe).1,
      getElem?_of_prefix enqueued (ok.messages item member safe).2⟩

theorem expectedSequence_grow {adopted : Option Nat} {token : Nat}
    {next : HandlingLog Content} (grows : log.handed <+: next.handed) :
    expectedSequence adopted token log ≤
    expectedSequence adopted token next := by
  unfold expectedSequence
  split
  · exact grows.length_le
  · exact Nat.le_refl 0

theorem ResponseOk.grow {adopted : Option Nat} {next : HttpRelayWorker Content}
    {response : RelayResponse Content}
    (ok : ResponseOk adopted worker exchange response)
    (grows : WorkerGrows worker next) :
    ResponseOk adopted next exchange response := by
  cases response with
  | envelope phase activationToken ackDaemonSeq messages =>
    rcases ok with standby | ⟨token, same, bound, sent, position, stored⟩
    · exact .inl standby
    · exact .inr ⟨token, same, Nat.lt_of_lt_of_le bound grows.nextToken_le,
        sent, Nat.le_trans position
          (expectedSequence_grow grows.handed_isPrefix),
        fun item member safe =>
          ⟨(stored item member safe).1,
            getElem?_of_prefix (grows.queued_isPrefix token)
              (stored item member safe).2⟩⟩
  | conflict => trivial
  | failure => trivial

/-- What the loop over the messages of a request leads to. -/
structure AcceptedOk (sizes : WireSizes Content)
    (enqueued : List (DaemonMessage Content))
    (channel : DaemonHttpChannel Content) (log : HandlingLog Content)
    (result : Accepted Content × HandlingLog Content) : Prop where
  extended : channel.Extends sizes result.1.channel
  handed_isPrefix : result.2.handed <+: enqueued
  handed_grows : log.handed <+: result.2.handed
  position : (∀ after, result.1 ≠ .invalidated after) →
    result.1.channel.acknowledgedDaemonSeq = result.2.handed.length

theorem AcceptedOk.of_extends {enqueued : List (DaemonMessage Content)}
    {middle : DaemonHttpChannel Content} {between : HandlingLog Content}
    {result : Accepted Content × HandlingLog Content}
    (extended : channel.Extends sizes middle)
    (grows : log.handed <+: between.handed)
    (rest : AcceptedOk sizes enqueued middle between result) :
    AcceptedOk sizes enqueued channel log result where
  extended := extended.trans rest.extended
  __ := rest
  handed_grows := grows.trans rest.handed_grows

theorem prefix_concat {α : Type} {before whole : List α} {item : α}
    (before_isPrefix : before <+: whole)
    (next : whole[before.length]? = some item) :
    before ++ [item] <+: whole := by
  obtain ⟨rest, split⟩ := before_isPrefix
  subst split
  cases rest with
  | nil => simp at next
  | cons first rest =>
    have same : first = item := by simpa using next
    subst same
    exact ⟨rest, by simp⟩

theorem acceptMessages_spec {enqueued : List (DaemonMessage Content)}
    {probing : Bool} {messages : List (Nat × DaemonMessage Content)}
    (genuine : ∀ item ∈ messages, item.1 ≤ maxSafeInteger → 0 < item.1 ∧
      enqueued[item.1 - 1]? = some item.2)
    {handlings : List (Handling Content)}
    (position : channel.acknowledgedDaemonSeq = log.handed.length)
    (handed : log.handed <+: enqueued) : AcceptedOk sizes enqueued channel log
    (acceptMessages sizes probing channel log messages handlings) := by
  induction messages generalizing channel log handlings with
  | nil => exact ⟨.refl channel, handed, prefix_rfl, fun _ => position⟩
  | cons message messages induction =>
    obtain ⟨seq, payload⟩ := message
    have later := fun item member => genuine item (mem_cons_of_mem _ member)
    have stopped :
        AcceptedOk sizes enqueued channel log (.invalidated channel, log) :=
      ⟨.refl channel, handed, prefix_rfl,
        fun open' => absurd rfl (open' channel)⟩
    unfold acceptMessages
    cases classified : channel.acceptDaemonSequence seq with
    | duplicate => exact induction later position handed
    | gap => exact stopped
    | new =>
      obtain ⟨safe, contiguous⟩ := classifySequence_new classified
      have next : enqueued[log.handed.length]? = some payload := by
        have found := (genuine _ mem_cons_self safe).2
        simpa [contiguous, position] using found
      have taken : (log.hand payload).handed <+: enqueued :=
        prefix_concat handed next
      have grows : log.handed <+: (log.hand payload).handed :=
        prefix_append _ _
      have committed : seq = (log.hand payload).handed.length := by
        simp [HandlingLog.hand, contiguous, position]
      dsimp only
      split
      · split
        · exact stopped
        · exact .of_extends
            ((DaemonHttpChannel.verifyReady_queues channel).toExtends.trans
              (DaemonHttpChannel.commitDaemonSequence_extends _ seq))
            grows (induction later committed taken)
      · split
        case h_1 sends _ =>
          have handled : channel.Queues sizes
              ((channel.process payload).trySendAll sizes sends) :=
            (DaemonHttpChannel.process_queues channel payload).trans
              (DaemonHttpChannel.trySendAll_queues _ sends)
          exact .of_extends
            (handled.toExtends.trans
              (DaemonHttpChannel.commitDaemonSequence_extends _ seq))
            grows (induction later committed taken)
        case h_2 =>
          exact ⟨.refl channel, taken, grows,
            fun open' => absurd rfl (open' channel)⟩
        case h_3 sends _ =>
          have queued : channel.Queues sizes
              ((channel.process payload).trySendAll sizes sends) :=
            (DaemonHttpChannel.process_queues channel payload).trans
              (DaemonHttpChannel.trySendAll_queues _ sends)
          exact ⟨queued.toExtends, handed, prefix_rfl,
            fun _ => queued.daemonSeq_eq.trans position⟩

theorem Fits.extends {next : DaemonHttpChannel Content}
    (fits : Fits sizes view worker channel)
    (extended : channel.Extends sizes next) : Fits sizes view worker next where
  token_lt := by rw [extended.token_eq]; exact fits.token_lt
  wellFormed := extended.wellFormed fits.wellFormed
  queued_isPrefix := by
    rw [extended.token_eq]
    exact fits.queued_isPrefix.trans extended.queued_isPrefix
  released_grows := by
    rw [extended.token_eq, extended.released_eq]
    exact fits.released_grows
  released_isPrefix := by
    rw [extended.token_eq, extended.released_eq]
    exact fits.released_isPrefix
  released_nil := by
    rw [extended.token_eq, extended.released_eq]
    exact fits.released_nil

theorem Fits.withLog (fits : Fits sizes view worker channel) :
    Fits sizes view { worker with log } channel :=
  ⟨fits.token_lt, fits.wellFormed, fits.queued_isPrefix, fits.released_grows,
    fits.released_isPrefix, fits.released_nil⟩

theorem RecordsOk.withLog (records : RecordsOk sizes view worker)
    (handed : log.handed <+: view.enqueued)
    (nil : view.adopted = none → log.handed = []) :
    RecordsOk sizes view { worker with log } :=
  { records with handed_isPrefix := handed, handed_nil := nil }

theorem WorkerInvariant.fits (invariant : WorkerInvariant sizes view worker)
    (held : worker.channel = some channel) :
    Fits sizes view worker channel := by
  have same := invariant.channel_history channel held
  exact {
    token_lt := invariant.channel_token channel held
    wellFormed := invariant.channel_wellFormed channel held
    queued_isPrefix := same ▸ prefix_rfl
    released_grows := same ▸ prefix_rfl
    released_isPrefix := fun adopted => by
      rw [← same]
      exact invariant.released_isPrefix _ adopted
    released_nil := fun other => by
      rw [← same]
      exact invariant.released_nil _ other }

theorem HttpRelayWorker.put_grows (fits : Fits sizes view worker channel) :
    WorkerGrows worker (worker.put channel) where
  nextToken_le := Nat.le_refl _
  queued_isPrefix := by
    intro token
    by_cases same : token = channel.activationToken
    · subst same
      simpa [HttpRelayWorker.put] using fits.queued_isPrefix
    · simp [HttpRelayWorker.put, Function.update_of_ne same]
  released_isPrefix := by
    intro token
    by_cases same : token = channel.activationToken
    · subst same
      simpa [HttpRelayWorker.put] using fits.released_grows
    · simp [HttpRelayWorker.put, Function.update_of_ne same]
  handed_isPrefix := prefix_rfl

theorem RecordsOk.put (records : RecordsOk sizes view worker)
    (fits : Fits sizes view worker channel) :
    RecordsOk sizes view (worker.put channel) where
  fresh := by
    intro token unused
    have other : token ≠ channel.activationToken := by
      intro same
      subst same
      exact absurd fits.token_lt (Nat.not_lt.mpr unused)
    simpa [HttpRelayWorker.put, Function.update_of_ne other]
      using records.fresh token unused
  bounded := by
    intro token
    by_cases same : token = channel.activationToken
    · subst same
      simpa [HttpRelayWorker.put] using fits.wellFormed.bounded
    · simpa [HttpRelayWorker.put, Function.update_of_ne same]
        using records.bounded token
  __ := records
  committed_isPrefix := fun token adopted =>
    (records.committed_isPrefix token adopted).trans
      ((HttpRelayWorker.put_grows fits).queued_isPrefix token)
  released_isPrefix := by
    intro token adopted
    by_cases same : token = channel.activationToken
    · subst same
      simpa [HttpRelayWorker.put] using fits.released_isPrefix adopted
    · simpa [HttpRelayWorker.put, Function.update_of_ne same]
        using records.released_isPrefix token adopted
  released_nil := by
    intro token other
    by_cases same : token = channel.activationToken
    · subst same
      simpa [HttpRelayWorker.put] using fits.released_nil other
    · simpa [HttpRelayWorker.put, Function.update_of_ne same]
        using records.released_nil token other

theorem WorkerInvariant.put (records : RecordsOk sizes view worker)
    (fits : Fits sizes view worker channel) (sequence :
    channel.acknowledgedDaemonSeq = expectedSequence view.adopted
    channel.activationToken worker.log) : WorkerInvariant sizes view
    (worker.put channel) where
  toRecordsOk := records.put fits
  channel_token := by
    intro other held
    cases held
    exact fits.token_lt
  channel_history := by
    intro other held
    cases held
    simp [HttpRelayWorker.put]
  channel_wellFormed := by
    intro other held
    cases held
    exact fits.wellFormed
  channel_sequence := by
    intro other held
    cases held
    exact sequence

theorem RecordsOk.close (records : RecordsOk sizes view worker) :
    WorkerInvariant sizes view worker.close where
  toRecordsOk := ⟨records.fresh, records.bounded, records.adopted_lt,
    records.handed_isPrefix, records.handed_nil, records.committed_isPrefix,
    records.committed_nil, records.released_isPrefix, records.released_nil⟩
  channel_token := fun _ held => by cases held
  channel_history := fun _ held => by cases held
  channel_wellFormed := fun _ held => by cases held
  channel_sequence := fun _ held => by cases held

theorem WorkerGrows.close {next : HttpRelayWorker Content}
    (grows : WorkerGrows worker next) : WorkerGrows worker next.close :=
  ⟨grows.nextToken_le, grows.queued_isPrefix, grows.released_isPrefix,
    grows.handed_isPrefix⟩

theorem Fits.acknowledge {next : DaemonHttpChannel Content} {sequence : Nat}
    (records : RecordsOk sizes view worker)
    (fits : Fits sizes view worker channel)
    (adopted : view.adopted = some channel.activationToken)
    (committed : sequence ≤ view.committed.length)
    (accepted : channel.acknowledgeWorker sequence = some next) :
    Fits sizes view worker next := by
  obtain ⟨wellFormed, token, -, queued, released⟩ :=
    DaemonHttpChannel.acknowledgeWorker_spec fits.wellFormed accepted
  have committedPrefix := (records.committed_isPrefix _ adopted).trans
    fits.queued_isPrefix
  have earlier : channel.outbound.acknowledged ≤ view.committed.length := by
    have bound := fits.wellFormed.carries.acknowledged_le
    have shorter := (fits.released_isPrefix adopted).length_le
    rw [fits.wellFormed.released_eq, length_take,
      Nat.min_eq_left bound] at shorter
    exact shorter
  refine ⟨by rw [token]; exact fits.token_lt, wellFormed, ?_, ?_, ?_, ?_⟩
  · rw [token, queued]
    exact fits.queued_isPrefix
  · rw [token, released]
    refine fits.released_grows.trans ?_
    rw [fits.wellFormed.released_eq]
    exact take_prefix_take_left (Nat.le_max_left _ _)
  · intro _
    rw [released, prefix_iff_eq_take.mp committedPrefix]
    exact take_prefix_take_left (by omega)
  · intro other
    rw [token] at other
    exact absurd adopted other

theorem finishExchange_spec (environment : ExchangeEnvironment Content)
    (records : RecordsOk sizes view worker) (fits : Fits sizes view worker
    channel) (sequence : channel.acknowledgedDaemonSeq = expectedSequence
    view.adopted channel.activationToken worker.log) (token : ∀ sent,
    exchange.activationToken = some sent → channel.activationToken = sent) :
    WorkerInvariant sizes view (finishExchange sizes environment worker
    channel).1 ∧ WorkerGrows worker (finishExchange sizes environment worker
    channel).1 ∧ ResponseOk view.adopted (finishExchange sizes environment
    worker channel).1 exchange (finishExchange sizes environment worker
    channel).2 := by
  have queues : channel.Queues sizes (channel.advanceHandshake sizes
      worker.server worker.version environment.revocations).1 :=
    DaemonHttpChannel.advanceHandshake_queues channel worker.server
      worker.version environment.revocations
  unfold finishExchange
  generalize channel.advanceHandshake sizes worker.server worker.version
    environment.revocations = result at queues
  obtain ⟨advanced, threw⟩ := result
  have after := fits.extends queues.toExtends
  have position : advanced.acknowledgedDaemonSeq =
      expectedSequence view.adopted advanced.activationToken worker.log := by
    rw [queues.daemonSeq_eq, sequence, queues.token_eq]
  refine ⟨.put records after position, HttpRelayWorker.put_grows after, ?_⟩
  dsimp only
  split
  · trivial
  · refine .inr ⟨_, rfl, after.token_lt, ?_, ?_, ?_⟩
    · intro sent equality
      rw [queues.token_eq]
      exact token sent equality
    · rw [position]
      exact Nat.le_refl _
    · intro item member safe
      have stored := DaemonHttpChannel.mem_outboundMessages
        after.wellFormed member safe
      simpa [HttpRelayWorker.put] using stored

/-- What an exchange leads to, for any of its outcomes. -/
structure ExchangeResult (sizes : WireSizes Content)
    (view : DaemonView Content) (exchange : DaemonHttpExchange Content)
    (worker : HttpRelayWorker Content)
    (result : HttpRelayWorker Content × RelayResponse Content) : Prop where
  invariant : WorkerInvariant sizes view result.1
  grows : WorkerGrows worker result.1
  response : ResponseOk view.adopted result.1 exchange result.2

private theorem openExchange_spec {environment : ExchangeEnvironment Content}
    (invariant : WorkerInvariant sizes view worker)
    (first : exchange.activationToken = none) :
    ExchangeResult sizes view exchange worker
      (finishExchange sizes environment
        { worker with nextToken := worker.nextToken + 1 }
        { activationToken := worker.nextToken
          instanceId := exchange.instanceId
          handshake := { ids := environment.reboundCallIds } }) := by
  have records : RecordsOk sizes view
      { worker with nextToken := worker.nextToken + 1 } :=
    { invariant.toRecordsOk with
      fresh := fun token unused =>
        invariant.fresh token (Nat.le_of_succ_le unused)
      adopted_lt := fun token adopted =>
        Nat.lt_succ_of_lt (invariant.adopted_lt token adopted) }
  have unused : view.adopted ≠ some worker.nextToken := by
    intro adopted
    exact Nat.lt_irrefl _ (invariant.adopted_lt _ adopted)
  have fits : Fits sizes view
      { worker with nextToken := worker.nextToken + 1 }
      { activationToken := worker.nextToken
        instanceId := exchange.instanceId
        handshake := { ids := environment.reboundCallIds } } :=
    { token_lt := Nat.lt_succ_self _
      wellFormed := ⟨Queue.carries_nil _, rfl, fun _ member => by
        cases member⟩
      queued_isPrefix := by
        simp [invariant.fresh worker.nextToken (Nat.le_refl _)]
      released_grows := by
        simp [invariant.fresh worker.nextToken (Nat.le_refl _)]
      released_isPrefix := fun adopted => absurd adopted unused
      released_nil := fun _ => rfl }
  obtain ⟨after, grows, response⟩ :=
    finishExchange_spec environment records fits
      (by simp [expectedSequence, unused])
      (fun sent equality => by rw [first] at equality; cases equality)
  exact ⟨after, { grows with
    nextToken_le := Nat.le_of_succ_le grows.nextToken_le }, response⟩

private theorem acceptedExchange_spec
    {environment : ExchangeEnvironment Content}
    (records : RecordsOk sizes view worker)
    (fits : Fits sizes view worker channel)
    (adopted : view.adopted = some channel.activationToken)
    (same : exchange.activationToken = some channel.activationToken)
    {result : Accepted Content × HandlingLog Content}
    (accepted : AcceptedOk sizes view.enqueued channel worker.log result) :
    ExchangeResult sizes view exchange worker
      (match result.1 with
        | .continued after => finishExchange sizes environment
            { worker with log := result.2 } after
        | .invalidated after =>
          (({ worker with log := result.2 }.put after).close, .conflict)
        | .threw after =>
          ({ worker with log := result.2 }.put after, .failure)) := by
  obtain ⟨outcome, log⟩ := result
  have after : RecordsOk sizes view { worker with log } :=
    records.withLog accepted.handed_isPrefix
      (fun none => by rw [adopted] at none; cases none)
  have fitsAfter : Fits sizes view { worker with log } outcome.channel :=
    (fits.extends accepted.extended).withLog
  have grows : WorkerGrows worker { worker with log } :=
    ⟨Nat.le_refl _, fun _ => prefix_rfl, fun _ => prefix_rfl,
      accepted.handed_grows⟩
  have token := accepted.extended.token_eq
  have position : (∀ closed, outcome ≠ .invalidated closed) →
      outcome.channel.acknowledgedDaemonSeq =
      expectedSequence view.adopted outcome.channel.activationToken log := by
    intro open'
    rw [accepted.position open', token, expectedSequence, if_pos adopted]
  cases outcome with
  | continued next =>
    obtain ⟨kept, growsNext, response⟩ :=
      finishExchange_spec environment after fitsAfter
        (position (fun _ => by simp)) (fun sent equality => by
          rw [same] at equality
          exact token.trans (Option.some.inj equality))
    exact ⟨kept, grows.trans growsNext, response⟩
  | invalidated next =>
    exact ⟨(after.put fitsAfter).close,
      (grows.trans (HttpRelayWorker.put_grows fitsAfter)).close, trivial⟩
  | threw next =>
    exact ⟨.put after fitsAfter (position (fun _ => by simp)),
      grows.trans (HttpRelayWorker.put_grows fitsAfter), trivial⟩

theorem handleDaemonHttpRelay_spec (environment : ExchangeEnvironment Content)
    (invariant : WorkerInvariant sizes view worker)
    (genuine : ExchangeOk view exchange) : ExchangeResult sizes view exchange
    worker (handleDaemonHttpRelay sizes environment worker exchange) := by
  have unchanged : ∀ response,
      ResponseOk view.adopted worker exchange response →
      ExchangeResult sizes view exchange worker (worker, response) :=
    fun response ok => ⟨invariant, .refl worker, ok⟩
  unfold handleDaemonHttpRelay
  split
  · exact unchanged _ trivial
  · split
    · exact unchanged _ trivial
    · cases held : worker.channel with
      | none =>
        dsimp only
        split
        · exact unchanged _ trivial
        case isFalse first =>
          have noToken : exchange.activationToken = none := by
            simp only [Bool.or_eq_true, not_or, Option.isSome_iff_ne_none,
              ne_eq, not_not] at first
            exact first.1.1
          split
          · exact unchanged _ (.inl ⟨rfl, rfl⟩)
          · split
            · exact unchanged _ (.inl ⟨rfl, rfl⟩)
            · split
              · exact unchanged _ trivial
              · exact openExchange_spec invariant noToken
      | some channel =>
        have fits := invariant.fits held
        dsimp only
        split
        · exact ⟨invariant.toRecordsOk.close, (WorkerGrows.refl _).close,
            .inl ⟨rfl, rfl⟩⟩
        · split
          · exact unchanged _ trivial
          · split
            · exact unchanged _ trivial
            case isFalse matching =>
              have same :
                  exchange.activationToken = some channel.activationToken := by
                simpa using matching
              have adopted := genuine.adopted _ same
              cases acknowledged : channel.acknowledgeWorker
                  exchange.ackWorkerSeq with
              | none => exact unchanged _ trivial
              | some next =>
                obtain ⟨-, token, sequence, -, -⟩ :=
                  DaemonHttpChannel.acknowledgeWorker_spec
                    fits.wellFormed acknowledged
                have fitsNext := fits.acknowledge invariant.toRecordsOk
                  adopted genuine.acknowledged acknowledged
                have position :
                    next.acknowledgedDaemonSeq = worker.log.handed.length := by
                  rw [sequence, invariant.channel_sequence _ held,
                    expectedSequence, if_pos adopted]
                exact acceptedExchange_spec invariant.toRecordsOk
                  fitsNext (token ▸ adopted) (token ▸ same)
                  (acceptMessages_spec genuine.messages position
                    invariant.handed_isPrefix)

end MachineBridge.Relay
