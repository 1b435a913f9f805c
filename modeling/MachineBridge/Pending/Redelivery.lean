import MachineBridge.Pending.Dispatch
import MachineBridge.Pending.RegistryRun

/-!
# Redelivery is safe

A call is sent when it is dispatched, and once more at most: on a channel that
was offered it, and while its original execution budget lasts.  A result
settles a call only on the channel the call is bound to.
-/

namespace MachineBridge.Pending

open Foundation Shared List

variable {clock : Clock} {config : ToolCallCapacityConfig}

namespace PendingCallRegistry

/-- Every record goes back to one of the same call, which was redelivered on
the same channel. -/
def Inherits (before after : PendingCallRegistry) : Prop :=
  ∀ id record, (id, record) ∈ after.byId.entries → ∃ previous,
    (id, previous) ∈ before.byId.entries ∧
      previous.identity = record.identity ∧
      previous.provenMissingRedeliveryChannel =
        record.provenMissingRedeliveryChannel

theorem Inherits.refl (registry : PendingCallRegistry) :
    Inherits registry registry :=
  fun _ record member => ⟨record, member, rfl, rfl⟩

theorem Inherits.trans {first second third : PendingCallRegistry}
    (earlier : Inherits first second) (later : Inherits second third) :
    Inherits first third := by
  intro id record member
  obtain ⟨middle, stored, same, mark⟩ := later id record member
  obtain ⟨previous, old, alsoSame, alsoMark⟩ := earlier id middle stored
  exact ⟨previous, old, alsoSame.trans same, alsoMark.trans mark⟩

variable {registry : PendingCallRegistry}

theorem store_inherits (invariant : registry.Invariant clock config)
    {id : String} {record : PendingCallRecord} {armed : Armed}
    (member : (id, record) ∈ registry.byId.entries)
    (rearmed : Rearmed clock registry.deadlines record armed) :
    Inherits registry (registry.store armed) := by
  intro other stored current
  rcases (mem_store invariant member rearmed.same).mp current with
    ⟨rfl, rfl⟩ | ⟨-, old⟩
  · exact ⟨record, member, rearmed.same.symm, rearmed.redelivery.symm⟩
  · exact ⟨stored, old, rfl, rfl⟩

theorem rearm_inherits {arm : PendingCallDeadlines → PendingCallRecord → Armed}
    {selects : PendingCallRecord → Bool}
    (arms : ∀ (registry : PendingCallRegistry) id record,
      registry.Invariant clock config → (id, record) ∈ registry.byId.entries →
      selects record = true →
      Rearmed clock registry.deadlines record (arm registry.deadlines record))
    (invariant : registry.Invariant clock config) (ids : List String) :
    Inherits registry
    (run (rearm arm selects) ⟨registry, [], none⟩ ids).registry := by
  have preserved : ∀ (loop : Rearming) id, Sound clock config loop ∧
      Inherits registry loop.registry →
      Sound clock config (rearm arm selects loop id) ∧
      Inherits registry (rearm arm selects loop id).registry := by
    rintro loop id ⟨sound, inherits⟩
    refine ⟨rearm_sound arms loop id sound, inherits.trans ?_⟩
    cases found : loop.registry.byId.get? id with
    | none =>
      simp only [rearm, sound.error, found]
      exact .refl _
    | some record =>
      simp only [rearm, sound.error, found]
      split
      case isTrue selected =>
        have member := Record.get?_eq_some.mp found
        exact store_inherits sound.invariant member
          (arms loop.registry id record sound.invariant member selected)
      case isFalse => exact .refl _
  exact (run_induction preserved ⟨⟨invariant, rfl⟩, .refl registry⟩ ids).2

theorem detachSocket_inherits (invariant : registry.Invariant clock config)
    (socket : DaemonChannel) (graceMs : Rat) :
    Inherits registry (registry.detachSocket clock socket graceMs).1 := by
  simp only [detachSocket]
  split
  · exact .refl registry
  · rename_i maximumGrace accepted
    obtain ⟨-, positive, limit⟩ := boundedPendingDelayMs_ok accepted
    exact rearm_inherits (detachRecord_arms positive limit) invariant _

theorem rebindInstance_inherits (invariant : registry.Invariant clock config)
    (daemonInstanceId : String) (socket : DaemonChannel) : Inherits registry
    (registry.rebindInstance clock daemonInstanceId socket).1 := by
  simp only [rebindInstance]
  split
  · exact .refl registry
  · exact rearm_inherits (rebindRecord_arms daemonInstanceId socket)
      invariant _

theorem finish_inherits (invariant : registry.Invariant clock config)
    (id : String) (outcome : PendingCallOutcome) :
    Inherits registry (registry.finish id outcome).1 := by
  cases found : registry.byId.get? id with
  | none =>
    simp only [finish, found]
    exact .refl registry
  | some record =>
    have member := Record.get?_eq_some.mp found
    rw [finish_of_record member]
    intro other stored current
    exact ⟨stored, ((mem_settled invariant member).mp current).2, rfl, rfl⟩

theorem resolve_inherits (invariant : registry.Invariant clock config)
    (id : String) (socket : DaemonChannel) (value : String) :
    Inherits registry (registry.resolve id socket value).1 := by
  simp only [resolve]
  split
  · exact .refl registry
  · split
    · exact .refl registry
    · exact finish_inherits invariant id _

theorem reject_inherits (invariant : registry.Invariant clock config)
    (id error : String) (socket : Option DaemonChannel) :
    Inherits registry (registry.reject id error socket).1 := by
  simp only [reject]
  split
  · exact .refl registry
  · split
    · exact .refl registry
    · exact finish_inherits invariant id _

end PendingCallRegistry

namespace PendingCalls

open PendingCallRegistry

def askingTasks (calls : PendingCalls) : List PendingTask :=
  calls.tasks.filter (·.beforeReject)

theorem spawn_askingTasks {calls : PendingCalls} {task : PendingTask}
    (silent : task.beforeReject = false) :
    (calls.spawn task).askingTasks = calls.askingTasks := by
  simp [askingTasks, spawn, silent]

theorem operation_inherits {calls : PendingCalls}
    (invariant : calls.registry.Invariant clock config) {event : PendingEvent}
    (operation : Worker.isOperation event = true) :
    Inherits calls.registry (calls.step clock event).registry ∧
    (calls.step clock event).askingTasks = calls.askingTasks := by
  cases event with
  | register input
  | rejectSocketIds ids socket fallback beforeReject
  | resume index kept error => cases operation
  | resolve id socket value =>
    exact ⟨resolve_inherits invariant id socket value, rfl⟩
  | reject id error socket =>
    exact ⟨reject_inherits invariant id error socket, rfl⟩
  | cancelRequest requestKey =>
    simp only [step, cancelRequest]
    split
    · exact ⟨.refl _, rfl⟩
    · exact ⟨.refl _, spawn_askingTasks rfl⟩
  | cancelAuthority revocation
  | rejectSocket socket => exact ⟨.refl _, spawn_askingTasks rfl⟩
  | detachSocket socket graceMs =>
    exact ⟨detachSocket_inherits invariant socket graceMs, rfl⟩
  | rebindInstance daemonInstanceId socket =>
    exact ⟨rebindInstance_inherits invariant daemonInstanceId socket, rfl⟩
  | expireDue now =>
    simp only [step, expireDue]
    split
    · exact ⟨.refl _, spawn_askingTasks rfl⟩
    · exact ⟨.refl _, spawn_askingTasks rfl⟩
  | timer handle =>
    simp only [step, timer]
    split
    · exact ⟨.refl _, rfl⟩
    · split
      · exact ⟨.refl _, rfl⟩
      · split
        · exact ⟨.refl _, rfl⟩
        · exact ⟨.refl _, spawn_askingTasks rfl⟩
  | abort id =>
    simp only [step, abort]
    split
    · exact ⟨.refl _, rfl⟩
    · split
      · exact ⟨.refl _, spawn_askingTasks rfl⟩
      · exact ⟨.refl _, rfl⟩

theorem resume_askingTasks (calls : PendingCalls) (index : Nat) (kept : Bool)
    (error : Option String) :
    ∀ task ∈ (calls.resume index kept error).askingTasks,
    ∃ earlier ∈ calls.askingTasks, earlier.socket = task.socket ∧
    ∀ id ∈ task.ids, id ∈ earlier.ids := by
  have unchanged : ∀ task ∈ calls.askingTasks, ∃ earlier ∈ calls.askingTasks,
      earlier.socket = task.socket ∧ ∀ id ∈ task.ids, id ∈ earlier.ids :=
    fun task member => ⟨task, member, rfl, fun _ listed => listed⟩
  have replaced : ∀ (old : PendingTask), calls.tasks[index]? = some old →
      ∀ (registry : PendingCallRegistry) (new : PendingTask),
        new.beforeReject = old.beforeReject → new.socket = old.socket →
        (∀ id ∈ new.ids, id ∈ old.ids) →
        ∀ task ∈ ({ calls with registry }.replaceTask index new).askingTasks,
          ∃ earlier ∈ calls.askingTasks, earlier.socket = task.socket ∧
            ∀ id ∈ task.ids, id ∈ earlier.ids := by
    intro old found registry new asks socket fewer task member
    obtain ⟨stored, asking⟩ := List.mem_filter.mp member
    rcases mem_or_eq_of_mem_set stored with before | rfl
    · exact unchanged task (List.mem_filter.mpr ⟨before, asking⟩)
    · rw [asks] at asking
      exact ⟨old, List.mem_filter.mpr
        ⟨mem_of_getElem? found, asking⟩, socket.symm, fewer⟩
  simp only [resume]
  split
  · exact unchanged
  · rename_i old found
    split
    · exact replaced old found _ _ rfl rfl (fun _ listed => listed)
    · intro task member
      obtain ⟨stored, asking⟩ := List.mem_filter.mp member
      exact unchanged task (List.mem_filter.mpr
        ⟨mem_of_mem_eraseIdx stored, asking⟩)
    · rename_i id rest _ listed
      have fewer : ∀ other ∈ rest, other ∈ old.ids := by
        intro other member
        rw [listed]
        exact mem_cons_of_mem id member
      split
      · exact replaced old found _ _ rfl rfl fewer
      · exact replaced old found _ _ rfl rfl fewer

end PendingCalls

namespace DaemonSend

/-- A message which sends a call. -/
def sends (send : DaemonSend) (id : String) : Bool :=
  match send.message with
  | .toolCall other _ => other == id
  | _ => false

theorem sends_of_message {send : DaemonSend} {id : String}
    {call : DaemonToolCall} (message : send.message = .toolCall id call)
    (other : String) : send.sends other = (id == other) := by
  simp [sends, message]

end DaemonSend

def Offered (sent : List DaemonSend) (channel : DaemonChannel) (id : String) :
    Prop :=
  ∃ send ∈ sent, send.channel = channel ∧
    ∃ ids, send.message = .resumeCalls ids ∧ id ∈ ids

theorem Offered.append {sent : List DaemonSend} {channel : DaemonChannel}
    {id : String} (offered : Offered sent channel id)
    (more : List DaemonSend) : Offered (sent ++ more) channel id := by
  obtain ⟨send, member, rest⟩ := offered
  exact ⟨send, mem_append_left more member, rest⟩

/-- How often a call was sent, originally or again. -/
def sendCount (redelivery : Bool) (id : String) (sent : List DaemonSend) :
    Nat :=
  sent.countP fun send => send.redelivery == redelivery && send.sends id

theorem sendCount_append (redelivery : Bool) (id : String)
    (sent : List DaemonSend) (send : DaemonSend) :
    sendCount redelivery id (sent ++ [send]) = sendCount redelivery id sent +
    if send.redelivery == redelivery && send.sends id then 1 else 0 := by
  simp only [sendCount, countP_append, countP_singleton]

theorem countP_sends (id : String) (sent : List DaemonSend) :
    (sent.countP fun send => send.sends id) = sendCount false id sent +
    sendCount true id sent := by
  induction sent with
  | nil => rfl
  | cons send sent induction =>
    simp only [sendCount, countP_cons] at induction ⊢
    cases send.redelivery <;> cases send.sends id <;>
      simp only [Bool.and_false, Bool.and_true, BEq.rfl, reduceIte,
        Bool.false_eq_true, Nat.add_zero, beq_iff_eq, reduceCtorEq] <;>
      omega

section

variable (dispatched : List DaemonDispatch)

/-- A redelivery follows the offer of the call on its channel, and ends within
the budget of the original dispatch. -/
def Justified (before : List DaemonSend) (send : DaemonSend) : Prop :=
  send.redelivery = true → ∀ id call, send.message = .toolCall id call →
    Offered before send.channel id ∧ 1000 ≤ call.timeoutMs ∧
      ∃ dispatch ∈ dispatched, dispatch.id = id ∧
        send.sentAt + call.timeoutMs ≤
          dispatch.startedAt + dispatch.timeoutMs

def EachJustified (sent : List DaemonSend) : Prop :=
  ∀ before send after, sent = before ++ send :: after →
    Justified dispatched before send

end

theorem Justified.more {dispatched : List DaemonDispatch}
    {before : List DaemonSend} {send : DaemonSend}
    (justified : Justified dispatched before send)
    (more : List DaemonDispatch) :
    Justified (dispatched ++ more) before send := by
  intro redelivery id call message
  obtain ⟨offered, budget, dispatch, member, rest⟩ :=
    justified redelivery id call message
  exact ⟨offered, budget, dispatch, mem_append_left more member, rest⟩

theorem EachJustified.append {dispatched : List DaemonDispatch}
    {sent : List DaemonSend} (each : EachJustified dispatched sent)
    {send : DaemonSend} (justified : Justified dispatched sent send) :
    EachJustified dispatched (sent ++ [send]) := by
  intro before current after split
  rcases eq_nil_or_concat after with rfl | ⟨rest, last, rfl⟩
  · obtain ⟨rfl, same⟩ := append_inj' split rfl
    cases same
    exact justified
  · rw [concat_eq_append, ← cons_append, ← append_assoc] at split
    obtain ⟨old, -⟩ := append_inj' split rfl
    exact each before current rest old

namespace Worker

def DispatchOf (dispatched : List DaemonDispatch) (id : String)
    (record : PendingCallRecord) : Prop :=
  ∃ call, record.redeliverAfterProvenMissing = some call ∧
    ∃ dispatch ∈ dispatched, dispatch.id = id ∧
      dispatch.startedAt = record.startedAt ∧
      dispatch.timeoutMs = call.timeoutMs

structure Invariant (clock : Clock) (ids : CallIds) (worker : Worker) :
    Prop where
  registry : worker.calls.registry.Invariant clock
    (toolCallCapacityConfig 32 2)
  known : ∀ id record, (id, record) ∈ worker.calls.registry.byId.entries →
    ∃ number < worker.drawn, ids.token number = id
  used : ∀ id redelivery, 0 < sendCount redelivery id worker.sent →
    ∃ number < worker.drawn, ids.token number = id
  once : ∀ id redelivery, sendCount redelivery id worker.sent ≤ 1
  unmarked : ∀ id record, (id, record) ∈ worker.calls.registry.byId.entries →
    record.provenMissingRedeliveryChannel = none →
    sendCount true id worker.sent = 0
  dispatch : ∀ id record, (id, record) ∈ worker.calls.registry.byId.entries →
    DispatchOf worker.dispatched id record
  drawn : ∀ dispatch ∈ worker.dispatched,
    ∃ number < worker.drawn, ids.token number = dispatch.id
  distinct : (worker.dispatched.map (·.id)).Nodup
  expected : ∀ channel reconciliation,
    (channel, reconciliation) ∈ worker.reconciliations.entries →
    worker.channelState channel = .closed ∨
      ∀ id ∈ reconciliation.expectedIds, Offered worker.sent channel id
  asking : ∀ task ∈ worker.calls.askingTasks, ∃ channel,
    task.socket = some channel ∧
      ∀ id ∈ task.ids, Offered worker.sent channel id
  justified : EachJustified worker.dispatched worker.sent

variable {ids : CallIds} {worker : Worker}

theorem start_invariant : ({} : Worker).Invariant clock ids where
  registry := PendingCallRegistry.start_invariant 32 2
  known := by
    intro id record member
    cases member
  used := by
    intro id redelivery sent
    exact absurd sent (Nat.lt_irrefl 0)
  once := fun _ _ => Nat.zero_le 1
  unmarked := fun _ _ _ _ => rfl
  dispatch := by
    intro id record member
    cases member
  drawn := by
    intro dispatch member
    cases member
  distinct := nodup_nil
  expected := by
    intro channel reconciliation member
    cases member
  asking := by
    intro task member
    cases member
  justified := by
    intro before send after split
    have lengths := congrArg List.length split
    simp at lengths

theorem withCalls_invariant (invariant : worker.Invariant clock ids)
    {calls : PendingCalls}
    (registry : calls.registry.Invariant clock (toolCallCapacityConfig 32 2))
    (inherits : PendingCallRegistry.Inherits worker.calls.registry
      calls.registry)
    (asking : ∀ task ∈ calls.askingTasks, ∃ channel,
      task.socket = some channel ∧
        ∀ id ∈ task.ids, Offered worker.sent channel id) :
    ({ worker with calls } : Worker).Invariant clock ids where
  registry := registry
  known := by
    intro id record member
    obtain ⟨previous, old, -, -⟩ := inherits id record member
    exact invariant.known id previous old
  __ := invariant
  unmarked := by
    intro id record member unmarked
    obtain ⟨previous, old, -, mark⟩ := inherits id record member
    exact invariant.unmarked id previous old (mark.trans unmarked)
  dispatch := by
    intro id record member
    obtain ⟨previous, old, same, -⟩ := inherits id record member
    obtain ⟨call, closure, dispatch, dispatched, number, started, budget⟩ :=
      invariant.dispatch id previous old
    exact ⟨call, (PendingCallRecord.identity_redelivery same).symm.trans
      closure, dispatch, dispatched, number, started.trans
      (PendingCallRecord.identity_startedAt same), budget⟩
  asking := asking

theorem send_invariant (invariant : worker.Invariant clock ids)
    (send : DaemonSend) (quiet : ∀ id, send.sends id = false) :
    (worker.send send).Invariant clock ids := by
  have counts : ∀ redelivery id,
      sendCount redelivery id (worker.sent ++ [send]) =
      sendCount redelivery id worker.sent := by
    intro redelivery id
    rw [sendCount_append, quiet, Bool.and_false]
    rfl
  constructor
  case registry => exact invariant.registry
  case known => exact invariant.known
  case used =>
      intro id redelivery sent
      rw [Worker.send, counts] at sent
      exact invariant.used id redelivery sent
  case once =>
      intro id redelivery
      rw [Worker.send, counts]
      exact invariant.once id redelivery
  case unmarked =>
      intro id record member unmarked
      rw [Worker.send, counts]
      exact invariant.unmarked id record member unmarked
  case dispatch => exact invariant.dispatch
  case drawn => exact invariant.drawn
  case distinct => exact invariant.distinct
  case expected =>
      intro channel reconciliation member
      rcases invariant.expected channel reconciliation member with
        closed | offered
      · exact .inl closed
      · exact .inr fun id listed => (offered id listed).append [send]
  case asking =>
      intro task member
      obtain ⟨channel, socket, offered⟩ := invariant.asking task member
      exact ⟨channel, socket, fun id listed => (offered id listed).append _⟩
  case justified =>
      apply invariant.justified.append
      intro _ id call message
      have sends := quiet id
      rw [DaemonSend.sends_of_message message] at sends
      simp at sends

theorem operation_invariant (invariant : worker.Invariant clock ids)
    {event : PendingEvent} (operation : isOperation event = true) :
    ({ worker with calls := worker.calls.step clock event } :
      Worker).Invariant clock ids := by
  obtain ⟨inherits, asking⟩ :=
    PendingCalls.operation_inherits invariant.registry operation
  apply withCalls_invariant invariant
    (PendingCalls.step_invariant _ event invariant.registry) inherits
  rw [asking]
  exact invariant.asking

variable {registry : PendingCallRegistry} {channel : DaemonChannel}
  {id : String} {record : PendingCallRecord}

theorem withRegistry_invariant (invariant : worker.Invariant clock ids)
    (sound : registry.Invariant clock (toolCallCapacityConfig 32 2))
    (inherits : PendingCallRegistry.Inherits worker.calls.registry registry) :
    (worker.withRegistry registry).Invariant clock ids :=
  withCalls_invariant invariant sound inherits invariant.asking

theorem tick_invariant (invariant : worker.Invariant clock ids) :
    worker.tick.Invariant clock ids :=
  withRegistry_invariant invariant
    (PendingCallRegistry.tick_invariant invariant.registry) (.refl _)

theorem settleResult_keeps (invariant : registry.Invariant clock config)
    (channel : DaemonChannel) (id : String) (outcome : PendingCallOutcome) :
    (settleResult registry channel id outcome).1.Invariant clock config ∧
    PendingCallRegistry.Inherits registry
    (settleResult registry channel id outcome).1 := by
  simp only [settleResult]
  split
  · exact ⟨invariant, .refl registry⟩
  · cases outcome with
    | value value =>
      exact ⟨PendingCallRegistry.resolve_invariant invariant id channel
          value,
        PendingCallRegistry.resolve_inherits invariant id channel value⟩
    | error error =>
      exact ⟨PendingCallRegistry.reject_invariant invariant id error
          channel,
        PendingCallRegistry.reject_inherits invariant id error channel⟩

theorem toolResult_invariant (invariant : worker.Invariant clock ids)
    (channel : DaemonChannel) (id : String) (outcome : PendingCallOutcome)
    (acknowledged : Bool) :
    (worker.toolResult channel id outcome acknowledged).Invariant clock ids :=
    by
  obtain ⟨sound, inherits⟩ :=
    settleResult_keeps invariant.registry channel id outcome
  have settled := withRegistry_invariant invariant sound inherits
  simp only [toolResult]
  split
  · exact send_invariant settled _ fun _ => rfl
  · exact settled

theorem rebind_invariant (invariant : worker.Invariant clock ids)
    (daemonInstanceId : String) (channel : DaemonChannel) :
    (worker.rebind clock daemonInstanceId channel).1.Invariant clock ids :=
  withRegistry_invariant invariant
    (PendingCallRegistry.rebindInstance_invariant invariant.registry
      daemonInstanceId channel)
    (PendingCallRegistry.rebindInstance_inherits invariant.registry
      daemonInstanceId channel)

theorem channelState_set (worker : Worker) (channel other : DaemonChannel)
    (state : ChannelState) :
    ({ worker with channels := worker.channels.set channel state } :
      Worker).channelState other =
      if other = channel then state else worker.channelState other := by
  simp only [channelState, Record.get?_set]
  split <;> rfl

theorem channels_invariant (invariant : worker.Invariant clock ids)
    (channel : DaemonChannel) {state : ChannelState}
    (closed : worker.channelState channel = .closed → state = .closed) :
    ({ worker with channels := worker.channels.set channel state } :
      Worker).Invariant clock ids where
  __ := invariant
  expected := by
    intro other reconciliation member
    rcases invariant.expected other reconciliation member with
      before | offered
    · left
      rw [channelState_set]
      split
      case isTrue same =>
        rw [same] at before
        exact closed before
      case isFalse => exact before
    · exact .inr offered

theorem reconciliations_invariant (invariant : worker.Invariant clock ids)
    (channel : DaemonChannel) (reconciliation : ResumeReconciliation)
    (expected : worker.channelState channel = .closed ∨
      ∀ id ∈ reconciliation.expectedIds, Offered worker.sent channel id) :
    ({ worker with reconciliations :=
        worker.reconciliations.set channel reconciliation } :
      Worker).Invariant clock ids where
  __ := invariant
  expected := by
    intro other stored member
    rcases Record.mem_set.mp member with ⟨rfl, rfl⟩ | ⟨-, old⟩
    · exact expected
    · exact invariant.expected other stored old

theorem offered_of_send (sent : List DaemonSend) (channel : DaemonChannel)
    (offer : List String) :
    ∀ id ∈ offer,
      Offered (sent ++ [{ channel, message := .resumeCalls offer }])
        channel id := by
  intro id listed
  exact ⟨_, mem_append_right _ (mem_singleton_self _), rfl, offer, rfl, listed⟩

theorem offer_invariant (invariant : worker.Invariant clock ids)
    (channel : DaemonChannel) (offer : List String) :
    ((worker.beginReconciliation channel offer).send
      { channel, message := .resumeCalls offer }).Invariant clock ids := by
  have sent := send_invariant invariant
    { channel, message := .resumeCalls offer } fun _ => rfl
  exact reconciliations_invariant sent channel ⟨offer, none⟩
    (.inr (offered_of_send worker.sent channel offer))

theorem probeResult_invariant (invariant : worker.Invariant clock ids)
    (daemonInstanceId : String) (channel : DaemonChannel) (sent : Bool) :
    (worker.probeResult clock daemonInstanceId channel sent).Invariant clock
    ids := by
  have moved := rebind_invariant invariant daemonInstanceId channel
  simp only [probeResult]
  split
  · exact offer_invariant moved channel _
  · have closed := channels_invariant moved channel
      fun _ => Eq.refl ChannelState.closed
    apply reconciliations_invariant closed
    left
    rw [channelState_set, if_pos rfl]

theorem advanceHandshake_invariant (invariant : worker.Invariant clock ids)
    (channel : DaemonChannel) (room : Bool) :
    (worker.advanceHandshake channel room).Invariant clock ids := by
  cases found : worker.handshakes.get? channel with
  | none =>
    simp only [advanceHandshake, found]
    exact invariant
  | some handshake =>
    simp only [advanceHandshake, found]
    split
    · exact invariant
    · split
      case isTrue closed =>
        exact reconciliations_invariant invariant channel
          ⟨handshake.ids, none⟩ (.inl closed)
      case isFalse =>
        have offered := offer_invariant invariant channel handshake.ids
        exact ⟨offered.registry, offered.known, offered.used, offered.once,
          offered.unmarked, offered.dispatch, offered.drawn, offered.distinct,
          offered.expected, offered.asking, offered.justified⟩

theorem httpSession_invariant (invariant : worker.Invariant clock ids)
    (daemonInstanceId : String) (channel : DaemonChannel) :
    (worker.httpSession clock daemonInstanceId channel).Invariant clock ids :=
    by
  have moved := rebind_invariant invariant daemonInstanceId channel
  exact ⟨moved.registry, moved.known, moved.used, moved.once,
    moved.unmarked, moved.dispatch, moved.drawn, moved.distinct,
    moved.expected, moved.asking, moved.justified⟩

theorem openChannel_invariant (invariant : worker.Invariant clock ids)
    (channel : DaemonChannel) :
    (worker.openChannel channel).Invariant clock ids := by
  simp only [openChannel]
  split
  case isTrue => exact invariant
  case isFalse different =>
    exact channels_invariant invariant channel
      fun closed => absurd closed different

theorem rejectMissing_invariant (invariant : worker.Invariant clock ids)
    {missingIds : List String} {fallback : String}
    (offered : ∀ id ∈ missingIds, Offered worker.sent channel id) :
    ({ worker with
      calls := worker.calls.rejectSocketIds missingIds channel fallback
        true } : Worker).Invariant clock ids := by
  apply withCalls_invariant invariant
  · exact invariant.registry
  · exact .refl _
  · intro task stored
    obtain ⟨member, asks⟩ := List.mem_filter.mp stored
    rcases mem_append.mp member with old | new
    · exact invariant.asking task (List.mem_filter.mpr ⟨old, asks⟩)
    · rw [mem_singleton.mp new]
      exact ⟨channel, rfl, offered⟩

theorem resumeCallsAck_invariant (invariant : worker.Invariant clock ids)
    (channel : DaemonChannel) (missingIds : List String) :
    (worker.resumeCallsAck channel missingIds).Invariant clock ids := by
  simp only [resumeCallsAck, daemonResumeAcknowledgement]
  cases found : worker.reconciliations.get? channel with
  | none => exact invariant
  | some reconciliation =>
    simp only
    split
    · exact invariant
    rename_i readable
    split
    · exact invariant
    rename_i listed
    have member := Record.get?_eq_some.mp found
    have opened : worker.channelState channel ≠ .closed := by
      intro closed
      simp [isOpen, closed] at readable
    have offered : ∀ id ∈ reconciliation.expectedIds,
        Offered worker.sent channel id := by
      rcases invariant.expected channel reconciliation member with
        closed | offered
      · exact absurd closed opened
      · exact offered
    cases key : reconciliation.acknowledgedMissingKey with
    | some acknowledged =>
      simp only
      split <;> exact invariant
    | none =>
      have begun := reconciliations_invariant invariant channel
        { reconciliation with
          acknowledgedMissingKey := some (missingKey missingIds) }
        (.inr offered)
      apply rejectMissing_invariant begun
      intro id missing
      apply offered
      by_contra absent
      exact listed (any_eq_true.mpr ⟨id, missing, by simpa using absent⟩)

theorem fresh_of_drawn {number : Nat}
    (used : ∃ earlier < number, ids.token earlier = id) :
    id ≠ ids.token number := by
  obtain ⟨earlier, before, same⟩ := used
  intro equal
  have numbers := ids.injective (same.trans equal)
  omega

theorem drawn_invariant (invariant : worker.Invariant clock ids) :
    ({ worker with drawn := worker.drawn + 1 } : Worker).Invariant clock
      ids := by
  have later : ∀ {id}, (∃ number < worker.drawn, ids.token number = id) →
      ∃ number < worker.drawn + 1, ids.token number = id := by
    rintro id ⟨number, before, same⟩
    exact ⟨number, Nat.lt_succ_of_lt before, same⟩
  exact ⟨invariant.registry, fun id record member => later (invariant.known id
    record member), fun id redelivery sent => later (invariant.used id
    redelivery sent), invariant.once, invariant.unmarked, invariant.dispatch,
    fun dispatch member => later (invariant.drawn dispatch member),
    invariant.distinct, invariant.expected, invariant.asking,
    invariant.justified⟩

theorem sendCount_fresh (invariant : worker.Invariant clock ids)
    (redelivery : Bool) :
    sendCount redelivery (ids.token worker.drawn) worker.sent = 0 := by
  apply Nat.eq_zero_of_not_pos
  intro sent
  exact fresh_of_drawn (invariant.used _ redelivery sent) rfl

theorem mem_register {input : RegisterPendingCall} {promise : Nat}
    (registered : (registry.register clock input).2 = .ok promise)
    {stored : PendingCallRecord} :
    (id, stored) ∈ (registry.register clock input).1.byId.entries →
    (id = input.id ∧ stored.startedAt = registry.tick.deadlines.now clock ∧
      stored.redeliverAfterProvenMissing = input.redeliverAfterProvenMissing) ∨
    (id, stored) ∈ registry.byId.entries := by
  cases checked : registry.assertCanRegister clock input with
  | error error =>
    simp only [PendingCallRegistry.register, checked] at registered
    cases registered
  | ok timeoutMs =>
    simp only [PendingCallRegistry.register, checked]
    have checks := PendingCallRegistry.accepted_of_ok checked
    have accepted : registry.tick.Accepted input timeoutMs :=
      ⟨checks.positive, checks.limit, checks.admitted, checks.newId,
        checks.newKey, checks.readJobs⟩
    intro current
    rcases (PendingCallRegistry.mem_add accepted).mp current with
      ⟨rfl, rfl⟩ | old
    · exact .inl ⟨rfl, rfl, rfl⟩
    · exact .inr old

theorem register_error {input : RegisterPendingCall}
    {error : PendingCallRegistrationError}
    (refused : (registry.register clock input).2 = .error error) :
    (registry.register clock input).1 = registry.tick := by
  cases checked : registry.assertCanRegister clock input with
  | error => simp only [PendingCallRegistry.register, checked]
  | ok timeoutMs =>
    simp only [PendingCallRegistry.register, checked] at refused
    cases refused

theorem noted_invariant (invariant : worker.Invariant clock ids)
    (sound : registry.Invariant clock (toolCallCapacityConfig 32 2))
    (startedAt : Rat) (call : DaemonToolCall)
    (records : ∀ id record, (id, record) ∈ registry.byId.entries →
      (id = ids.token worker.drawn ∧ record.startedAt = startedAt ∧
        record.redeliverAfterProvenMissing = some call) ∨
        (id, record) ∈ worker.calls.registry.byId.entries) :
    ({ worker with
      calls := { worker.calls with registry }
      drawn := worker.drawn + 1
      dispatched := worker.dispatched ++
        [⟨ids.token worker.drawn, startedAt, call.timeoutMs⟩] } :
      Worker).Invariant clock ids := by
  have drawn := drawn_invariant invariant
  constructor
  case registry => exact sound
  case known =>
      intro id record member
      rcases records id record member with ⟨rfl, -⟩ | old
      · exact ⟨worker.drawn, Nat.lt_succ_self _, rfl⟩
      · exact drawn.known id record old
  case used => exact drawn.used
  case once => exact invariant.once
  case unmarked =>
      intro id record member unmarked
      rcases records id record member with ⟨rfl, -⟩ | old
      · exact sendCount_fresh invariant true
      · exact invariant.unmarked id record old unmarked
  case dispatch =>
      intro id record member
      rcases records id record member with ⟨rfl, started, closure⟩ | old
      · exact ⟨call, closure, _, mem_append_right _
          (mem_singleton_self _), rfl, started.symm, rfl⟩
      · obtain ⟨call, closure, dispatch, noted, rest⟩ :=
          invariant.dispatch id record old
        exact ⟨call, closure, dispatch, mem_append_left _ noted, rest⟩
  case drawn =>
      intro dispatch member
      rcases mem_append.mp member with old | new
      · exact drawn.drawn dispatch old
      · rw [mem_singleton.mp new]
        exact ⟨worker.drawn, Nat.lt_succ_self _, rfl⟩
  case distinct =>
      rw [map_append, map_singleton, ← concat_eq_append, nodup_concat]
      refine ⟨?_, invariant.distinct⟩
      intro repeated
      obtain ⟨dispatch, old, same⟩ := List.mem_map.mp repeated
      exact fresh_of_drawn (invariant.drawn dispatch old) same
  case expected => exact invariant.expected
  case asking => exact invariant.asking
  case justified =>
      intro before send after split
      exact (invariant.justified before send after split).more _

/-- A call may be sent when it was not sent that way before, and a redelivery
when it is justified and the pending call is marked. -/
theorem sendCall_invariant (invariant : worker.Invariant clock ids)
    {send : DaemonSend} {call : DaemonToolCall}
    (message : send.message = .toolCall id call)
    (known : ∃ number < worker.drawn, ids.token number = id)
    (first : sendCount send.redelivery id worker.sent = 0)
    (marked : send.redelivery = true → ∀ record,
      (id, record) ∈ worker.calls.registry.byId.entries →
      record.provenMissingRedeliveryChannel ≠ none)
    (justified : Justified worker.dispatched worker.sent send) :
    (worker.send send).Invariant clock ids := by
  have counts : ∀ redelivery other,
      sendCount redelivery other (worker.sent ++ [send]) =
      sendCount redelivery other worker.sent + if send.redelivery =
      redelivery ∧ id = other then 1 else 0 := by
    intro redelivery other
    rw [sendCount_append, DaemonSend.sends_of_message message]
    simp
  constructor
  case registry => exact invariant.registry
  case known => exact invariant.known
  case used =>
      intro other redelivery sent
      rw [Worker.send, counts] at sent
      split at sent
      case isTrue same =>
        rw [← same.2]
        exact known
      case isFalse => exact invariant.used other redelivery sent
  case once =>
      intro other redelivery
      rw [Worker.send, counts]
      split
      case isTrue same => rw [← same.1, ← same.2, first]
      case isFalse => exact invariant.once other redelivery
  case unmarked =>
      intro other record member unmarked
      rw [Worker.send, counts, invariant.unmarked other record member unmarked]
      split
      case isTrue same =>
        obtain ⟨again, rfl⟩ := same
        exact absurd unmarked (marked again record member)
      case isFalse => rfl
  case dispatch => exact invariant.dispatch
  case drawn => exact invariant.drawn
  case distinct => exact invariant.distinct
  case expected =>
      intro channel reconciliation member
      rcases invariant.expected channel reconciliation member with
        closed | offered
      · exact .inl closed
      · exact .inr fun id listed => (offered id listed).append [send]
  case asking =>
      intro task member
      obtain ⟨channel, socket, offered⟩ := invariant.asking task member
      exact ⟨channel, socket, fun id listed => (offered id listed).append _⟩
  case justified => exact invariant.justified.append justified

theorem callDaemonTool_invariant (invariant : worker.Invariant clock ids)
    (request : ToolCallRequest) :
    (worker.callDaemonTool clock ids request).Invariant clock ids := by
  simp only [callDaemonTool]
  split
  · exact invariant
  split
  · exact invariant
  have drawn := drawn_invariant invariant
  split
  · exact drawn
  have ticked := PendingCallRegistry.tick_invariant invariant.registry
  have sound := PendingCallRegistry.register_invariant ticked
    (registration request (ids.token worker.drawn))
  cases outcome : (worker.calls.registry.tick.register clock
      (registration request (ids.token worker.drawn))).2 with
  | error error =>
    apply withRegistry_invariant drawn sound
    rw [register_error outcome]
    exact .refl _
  | ok promise =>
    simp only [sendToolCall]
    have noted := noted_invariant invariant sound
      (worker.calls.registry.tick.tick.deadlines.now clock) request.call
      (fun id record member => mem_register outcome member)
    split
    · apply sendCall_invariant noted rfl
      · exact ⟨worker.drawn, Nat.lt_succ_self _, rfl⟩
      · exact sendCount_fresh invariant false
      · intro again
        cases again
      · intro again
        cases again
    · exact noted

section Mark

variable {registry : PendingCallRegistry} {id : String}
  {record : PendingCallRecord}

def marked (record : PendingCallRecord) (channel : DaemonChannel) :
    PendingCallRecord :=
  { record with provenMissingRedeliveryChannel := some channel }

theorem mark_registry (invariant : registry.Invariant clock config)
    (member : (id, record) ∈ registry.byId.entries) (channel : DaemonChannel) :
    (registry.store ⟨registry.deadlines, marked record channel, none⟩).Invariant
    clock config where
  capacity := invariant.capacity
  indexed := PendingCallRegistry.store_indexed invariant member rfl
  within := PendingCallRegistry.store_within invariant member rfl
  promised := PendingCallRegistry.store_promised invariant member rfl
  timed := by
    constructor
    · intro other stored current
      rcases (PendingCallRegistry.mem_store invariant member rfl).mp current
        with ⟨rfl, rfl⟩ | ⟨-, old⟩
      · exact invariant.timed.owned other record member
      · exact invariant.timed.owned other stored old
    · intro timer live
      obtain ⟨owner, stored, slot⟩ := invariant.timed.live timer live
      by_cases same : timer.callId = id
      · refine ⟨marked record channel,
          (PendingCallRegistry.mem_store invariant member rfl).mpr
            (.inl ⟨same, rfl⟩), ?_⟩
        rw [same] at stored
        rw [Record.value_unique stored member] at slot
        exact slot
      · exact ⟨owner, (PendingCallRegistry.mem_store invariant member
          rfl).mpr (.inr ⟨same, stored⟩), slot⟩
    · exact invariant.timed.distinct
    · exact invariant.timed.fresh
  timely := by
    intro other stored current
    rcases (PendingCallRegistry.mem_store invariant member rfl).mp current
      with ⟨rfl, rfl⟩ | ⟨-, old⟩
    · have timely := invariant.timely other record member
      exact ⟨timely.original, timely.deadline⟩
    · exact invariant.timely other stored old

end Mark

theorem mark_invariant (invariant : worker.Invariant clock ids)
    (member : (id, record) ∈ worker.calls.registry.byId.entries)
    (channel : DaemonChannel) :
    (worker.mark record channel).Invariant clock ids := by
  have records : ∀ {other stored}, (other, stored) ∈
      (worker.mark record channel).calls.registry.byId.entries →
      (other = id ∧ stored = marked record channel) ∨
      (other ≠ id ∧ (other, stored) ∈ worker.calls.registry.byId.entries) :=
    (PendingCallRegistry.mem_store invariant.registry member rfl).mp
  constructor
  case registry => exact mark_registry invariant.registry member channel
  case known =>
      intro other stored current
      rcases records current with ⟨rfl, -⟩ | ⟨-, old⟩
      · exact invariant.known other record member
      · exact invariant.known other stored old
  case used => exact invariant.used
  case once => exact invariant.once
  case unmarked =>
      intro other stored current unmarked
      rcases records current with ⟨-, rfl⟩ | ⟨-, old⟩
      · cases unmarked
      · exact invariant.unmarked other stored old unmarked
  case dispatch =>
      intro other stored current
      rcases records current with ⟨rfl, rfl⟩ | ⟨-, old⟩
      · exact invariant.dispatch other record member
      · exact invariant.dispatch other stored old
  case drawn => exact invariant.drawn
  case distinct => exact invariant.distinct
  case expected => exact invariant.expected
  case asking => exact invariant.asking
  case justified => exact invariant.justified

theorem redeliveredCall_budget {call again : DaemonToolCall}
    {startedAt now : Rat}
    (redelivered : redeliveredCall call startedAt now = some again) :
    1000 ≤ again.timeoutMs ∧
    now + again.timeoutMs ≤ startedAt + call.timeoutMs := by
  obtain ⟨args, accepted, rfl⟩ := Option.map_eq_some_iff.mp redelivered
  constructor
  · simp only [daemonToolRedeliveryArguments] at accepted
    split at accepted
    · cases accepted
    case isFalse enough =>
      rw [Bool.or_eq_true, not_or, decide_eq_true_eq] at enough
      exact Int.not_lt.mp enough.2
  · have floor : (remainingExecutionMs call startedAt now : Rat) ≤
        startedAt + call.timeoutMs - now := by
      have least : remainingExecutionMs call startedAt now ≤
          ⌊startedAt + call.timeoutMs - now⌋ := min_le_right _ _
      exact Int.le_floor.mp least
    linarith

theorem redeliverProvenMissing_invariant
    (invariant : worker.Invariant clock ids)
    (member : (id, record) ∈ worker.calls.registry.byId.entries)
    (offered : Offered worker.sent channel id) (sent : Bool) :
    (worker.redeliverProvenMissing clock record channel sent).1.Invariant clock
    ids := by
  simp only [redeliverProvenMissing]
  split
  · exact invariant
  · exact invariant
  rename_i call unmarked closure
  split
  · exact tick_invariant invariant
  rename_i again redelivered
  split
  · have number := invariant.registry.idOf member
    obtain ⟨budget, within⟩ := redeliveredCall_budget redelivered
    apply sendCall_invariant
      (mark_invariant (tick_invariant invariant) member channel) rfl
    · rw [number]
      exact invariant.known id record member
    · rw [number]
      exact invariant.unmarked id record member unmarked
    · intro _ stored current
      rcases (PendingCallRegistry.mem_store
        (PendingCallRegistry.tick_invariant invariant.registry) member
          rfl).mp current with ⟨-, rfl⟩ | ⟨different, -⟩
      · exact Option.some_ne_none channel
      · exact absurd number different
    · intro _ other sentCall message
      cases message
      rw [number]
      refine ⟨offered, budget, ?_⟩
      obtain ⟨original, alsoClosure, dispatch, noted, same, started,
        timeout⟩ := invariant.dispatch id record member
      rw [closure] at alsoClosure
      cases alsoClosure
      refine ⟨dispatch, noted, same, ?_⟩
      rw [started, timeout]
      exact within
  · exact tick_invariant invariant

theorem resumeCalls_invariant (invariant : worker.Invariant clock ids)
    (index : Nat) (kept : Bool) (error : Option String) :
    ({ worker with calls := worker.calls.resume index kept error } :
      Worker).Invariant clock ids := by
  have asking : ∀ task ∈ (worker.calls.resume index kept error).askingTasks,
      ∃ channel, task.socket = some channel ∧ ∀ id ∈ task.ids,
      Offered worker.sent channel id := by
    intro task member
    obtain ⟨earlier, old, socket, fewer⟩ :=
      PendingCalls.resume_askingTasks worker.calls index kept error task member
    obtain ⟨channel, bound, offered⟩ := invariant.asking earlier old
    exact ⟨channel, socket.symm.trans bound,
      fun id listed => offered id (fewer id listed)⟩
  rcases PendingCalls.resume_registry worker.calls index kept error with
    same | ⟨id, outcome, finished⟩
  · apply withCalls_invariant invariant _ _ asking
    · rw [same]
      exact invariant.registry
    · rw [same]
      exact .refl _
  · apply withCalls_invariant invariant _ _ asking
    · rw [finished]
      exact PendingCallRegistry.finish_invariant invariant.registry id outcome
    · rw [finished]
      exact PendingCallRegistry.finish_inherits invariant.registry id outcome

theorem askedRecord_offered (invariant : worker.Invariant clock ids)
    {index : Nat} (asked : worker.askedRecord index = some (record, channel)) :
    ∃ id, (id, record) ∈ worker.calls.registry.byId.entries ∧
    Offered worker.sent channel id := by
  simp only [askedRecord] at asked
  split at asked
  · cases asked
  rename_i task found
  split at asked
  case h_2 => cases asked
  rename_i id rest socket failing listed bound
  split at asked
  · cases asked
  rename_i stored present
  split at asked
  case isFalse => cases asked
  rename_i asks
  cases asked
  have asking : task ∈ worker.calls.askingTasks :=
    List.mem_filter.mpr ⟨mem_of_getElem? found,
      (Bool.and_eq_true_iff.mp asks).1⟩
  obtain ⟨own, same, offered⟩ := invariant.asking task asking
  rw [bound] at same
  cases same
  refine ⟨id, Record.get?_eq_some.mp present, offered id ?_⟩
  rw [listed]
  exact mem_cons_self

theorem resume_invariant (invariant : worker.Invariant clock ids) (index : Nat)
    (error : Option String) (sent : Bool) :
    (worker.resume clock index error sent).Invariant clock ids := by
  simp only [resume]
  split
  · exact resumeCalls_invariant invariant index false error
  · rename_i record channel asked
    obtain ⟨id, member, offered⟩ := askedRecord_offered invariant asked
    exact resumeCalls_invariant (redeliverProvenMissing_invariant invariant
      member offered sent) index _ error

theorem step_invariant (worker : Worker) (event : WorkerEvent)
    (invariant : worker.Invariant clock ids) :
    (worker.step clock ids event).Invariant clock ids := by
  cases event with
  | callDaemonTool request => exact callDaemonTool_invariant invariant request
  | operation event =>
    simp only [step]
    split
    case isTrue operation => exact operation_invariant invariant operation
    case isFalse => exact invariant
  | resume task error sent => exact resume_invariant invariant task error sent
  | toolResult channel id outcome acknowledged =>
    exact toolResult_invariant invariant channel id outcome acknowledged
  | resumeCallsAck channel missingIds =>
    exact resumeCallsAck_invariant invariant channel missingIds
  | probeResult daemonInstanceId channel sent =>
    exact probeResult_invariant invariant daemonInstanceId channel sent
  | httpSession daemonInstanceId channel =>
    exact httpSession_invariant invariant daemonInstanceId channel
  | advanceHandshake channel room =>
    exact advanceHandshake_invariant invariant channel room
  | opened channel => exact openChannel_invariant invariant channel
  | closed channel => exact channels_invariant invariant channel fun _ => rfl

theorem run_invariant (clock : Clock) (ids : CallIds)
    (events : List WorkerEvent) :
    (run (step clock ids) {} events).Invariant clock ids := by
  have preserved : ∀ (worker : Worker) event, worker.Invariant clock ids →
      (worker.step clock ids event).Invariant clock ids :=
    fun worker event invariant => step_invariant worker event invariant
  exact run_induction preserved start_invariant events

theorem toolResult_settlements (worker : Worker) (channel : DaemonChannel)
    (id : String) (outcome : PendingCallOutcome) (acknowledged : Bool) :
    let after := worker.toolResult channel id outcome acknowledged
    after.calls.registry.settlements = worker.calls.registry.settlements ∨
      ∃ record, worker.calls.registry.byId.get? id = some record ∧
        record.socket = some channel ∧
        after.calls.registry.settlements =
          worker.calls.registry.settlements ++
            [⟨record.settlement, outcome⟩] := by
  have result :
      (worker.toolResult channel id outcome acknowledged).calls.registry =
      (settleResult worker.calls.registry channel id outcome).1 := by
    simp only [toolResult]
    split <;> rfl
  simp only [result]
  cases found : worker.calls.registry.byId.get? id with
  | none =>
    left
    simp [settleResult, PendingCallRegistry.resultOwnership, found]
  | some record =>
    by_cases bound : record.socket = some channel
    · refine .inr ⟨record, rfl, bound, ?_⟩
      have member := Record.get?_eq_some.mp found
      cases outcome with
      | value value =>
        simp only [settleResult, PendingCallRegistry.resultOwnership,
          found, bound, if_true, ne_eq, not_true_eq_false, if_false,
          PendingCallRegistry.resolve,
          PendingCallRegistry.finish_of_record member]
        rfl
      | error error =>
        simp only [settleResult, PendingCallRegistry.resultOwnership,
          found, bound, if_true, ne_eq, not_true_eq_false, if_false,
          PendingCallRegistry.reject, and_false,
          PendingCallRegistry.finish_of_record member]
        rfl
    · left
      simp [settleResult, PendingCallRegistry.resultOwnership, found, bound]

/-- What holds of the calls a Worker sends and settles: a call is sent at most
twice, once originally and once again; a redelivery follows the offer of the
call on that channel and ends within the original execution budget; and a
result settles only a call bound to the channel it arrived on. -/
structure DeliversSafely (worker : Worker) : Prop where
  twice : ∀ id, (worker.sent.countP fun send => send.sends id) ≤ 2
  once : ∀ id redelivery, sendCount redelivery id worker.sent ≤ 1
  dispatches : (worker.dispatched.map (·.id)).Nodup
  justified : EachJustified worker.dispatched worker.sent
  settled : ∀ channel id outcome acknowledged,
    (worker.toolResult channel id outcome
      acknowledged).calls.registry.settlements =
        worker.calls.registry.settlements ∨
      ∃ record, worker.calls.registry.byId.get? id = some record ∧
        record.socket = some channel ∧
        (worker.toolResult channel id outcome
          acknowledged).calls.registry.settlements =
          worker.calls.registry.settlements ++
            [⟨record.settlement, outcome⟩]

end Worker

end MachineBridge.Pending
