import MachineBridge.Mcp.CancellationRun

/-!
# Cancelled requests stay cancelled

What the Worker knows of an identity is consistent in every run.  From it, a
cancellation of an identity in progress makes it quiet, and one which comes
early stands until its request starts.
-/

namespace MachineBridge.Mcp

open Foundation List

namespace McpWorker

/-- A request has a lease just when it is streamed; an identity without a
request in progress has no pending call. -/
structure Registered (worker : McpWorker) (key : RequestKey) : Prop where
  lease : (worker.cancellations.active.get? key).isSome = true ↔
    ∃ request, worker.requests.get? key = some request ∧
      request.kind = .streamed
  known : key ∉ worker.used → worker.requests.get? key = none ∧
    worker.pending.get? key = none ∧ key ∉ worker.subscriptions
  owned : (worker.pending.get? key).isSome = true →
    (worker.requests.get? key).isSome = true

theorem Registered.untouched {before after : McpWorker} {key : RequestKey}
    (registered : before.Registered key)
    (untouched : Untouched before after key) : after.Registered key := by
  constructor
  · rw [untouched.active, untouched.requests]
    exact registered.lease
  · rw [untouched.used, untouched.requests, untouched.pending,
      untouched.subscriptions]
    exact registered.known
  · rw [untouched.pending, untouched.requests]
    exact registered.owned

section Consistency

variable {worker : McpWorker} {key : RequestKey}

theorem Registered.inactive (registered : worker.Registered key)
    (fresh : key ∉ worker.used) :
    worker.cancellations.active.get? key = none := by
  cases found : worker.cancellations.active.get? key with
  | none => rfl
  | some aborted =>
    obtain ⟨request, stored, -⟩ := registered.lease.mp (by rw [found]; rfl)
    rw [(registered.known fresh).1] at stored
    cases stored

theorem Registered.setRequest {change : McpRequest → McpRequest}
    (registered : worker.Registered key)
    (kind : ∀ request, (change request).kind = request.kind) :
    (worker.setRequest key change).Registered key := by
  unfold McpWorker.setRequest
  split
  case h_1 => exact registered
  case h_2 request found =>
    constructor
    · rw [registered.lease]
      simp only [Record.get?_set, if_pos, Option.some.injEq, found,
        exists_eq_left', kind]
    · intro fresh
      rw [(registered.known fresh).1] at found
      cases found
    · intro _
      simp

theorem Registered.failRequest (registered : worker.Registered key) :
    (worker.failRequest key).Registered key :=
  registered.setRequest fun _ => rfl

theorem Registered.settle {outcome : CallOutcome}
    (registered : worker.Registered key) :
    (worker.settle key outcome).Registered key := by
  unfold McpWorker.settle
  split
  case h_1 => exact registered
  case h_2 call found =>
    have settled : Registered { worker with
        pending := worker.pending.delete key
        settlements := worker.settlements ++ [(call, outcome)] } key := by
      refine ⟨registered.lease, ?_, ?_⟩
      · intro fresh
        obtain ⟨none, -, closed⟩ := registered.known fresh
        exact ⟨none, by simp, closed⟩
      · intro some
        simp at some
    split
    case isTrue => exact settled
    case isFalse => exact settled.failRequest

variable {delay wait : Nat}

theorem Registered.start {kind : RequestKind} {room : Bool}
    (registered : worker.Registered key) :
    (worker.start key kind room delay wait).Registered key := by
  unfold McpWorker.start
  split
  case isTrue => exact ⟨registered.lease, registered.known, registered.owned⟩
  case isFalse fresh =>
    have inactive := registered.inactive fresh
    have used : key ∈ worker.used ++ [key] := by simp
    cases kind with
    | streamed =>
      have absent : worker.cancellations.active.contains key = false := by
        rw [Record.contains, inactive, Option.isSome_none]
      simp only [McpRequestCancellationRegistry.openRequest,
        McpRequestCancellationRegistry.active_prune, absent]
      refine ⟨?_, fun unused => absurd used unused, ?_⟩
      · simp
      · intro _
        simp
    | daemonBacked | workerOnly =>
      refine ⟨?_, fun unused => absurd used unused, ?_⟩
      · simp [inactive]
      · intro _
        simp
    | subscription =>
      dsimp only
      split
      case isTrue | isFalse =>
        exact ⟨registered.lease, fun unused => absurd used unused,
          registered.owned⟩

theorem Registered.callTool {call : CallId} {admitted sent : Bool}
    (registered : worker.Registered key) :
    (worker.callTool key call admitted sent).Registered key := by
  unfold McpWorker.callTool
  split
  case h_1 => exact registered
  case h_2 request found =>
    split
    case isTrue => exact registered
    case isFalse =>
      split
      case isTrue => exact registered.failRequest
      case isFalse =>
        have dispatched : Registered { worker with
            pending := worker.pending.set key call
            dispatches := worker.dispatches ++ [(key, call)] } key := by
          refine ⟨registered.lease, ?_, ?_⟩
          · intro fresh
            rw [(registered.known fresh).1] at found
            cases found
          · intro _
            rw [found]
            rfl
        split
        case isTrue => exact dispatched
        case isFalse => exact dispatched.settle

theorem Registered.finish (registered : worker.Registered key) :
    (worker.finish key).Registered key := by
  unfold McpWorker.finish
  split
  case isTrue => exact registered
  case isFalse absent =>
    refine ⟨?_, ?_, ?_⟩
    · simp [McpRequestCancellationRegistry.release]
    · intro fresh
      obtain ⟨none, idle, closed⟩ := registered.known fresh
      exact ⟨by simp, idle, closed⟩
    · intro some
      exact absurd some absent

theorem Registered.setActive {cancellations : McpRequestCancellationRegistry}
    (registered : worker.Registered key)
    (same : (cancellations.active.get? key).isSome =
      (worker.cancellations.active.get? key).isSome) :
    Registered { worker with cancellations } key := by
  refine ⟨?_, registered.known, registered.owned⟩
  rw [same]
  exact registered.lease

theorem isSome_abort {active : Option Bool} :
    (if active.isSome then some true else active).isSome = active.isSome := by
  cases active <;> rfl

theorem Registered.closeStream (registered : worker.Registered key) :
    (worker.closeStream key).Registered key := by
  unfold McpWorker.closeStream
  split
  case isFalse => exact registered
  case isTrue =>
    have marked : (worker.setRequest key fun request =>
        { request with aborted := true }).Registered key :=
      registered.setRequest fun _ => rfl
    apply Registered.settle
    apply marked.setActive
    rw [McpRequestCancellationRegistry.get?_active_cancelLease]
    simp only [true_and]
    exact isSome_abort

theorem Registered.closeSubscription (registered : worker.Registered key) :
    (worker.closeSubscription key).Registered key := by
  refine ⟨registered.lease, ?_, registered.owned⟩
  intro fresh
  obtain ⟨none, idle, closed⟩ := registered.known fresh
  refine ⟨none, idle, ?_⟩
  simp [McpWorker.closeSubscription]

theorem Registered.controlled (registered : worker.Registered key) :
    (worker.controlled key delay wait).Registered key := by
  have cancelled : Registered { worker with
      cancellations := worker.cancellations.cancel key (worker.clock + delay)
        (worker.clock + delay + wait) } key := by
    apply registered.setActive
    rw [McpRequestCancellationRegistry.get?_active_cancel]
    simp only [true_and]
    exact isSome_abort
  exact ⟨cancelled.lease, cancelled.known, cancelled.owned⟩

theorem Registered.handleControl (registered : worker.Registered key) :
    (worker.handleControl key delay wait).Registered key := by
  apply Registered.settle
  apply Registered.closeSubscription
  split
  case isTrue => exact registered.controlled.settle
  case isFalse => exact registered.controlled

theorem step_registered {event : McpEvent}
    (registered : worker.Registered key) :
    (worker.step event).Registered key := by
  by_cases about : event.key = some key
  case neg => exact registered.untouched (step_untouched about)
  case pos =>
    cases event <;> cases about
    case start kind room delay wait => exact registered.start
    case callTool call admitted sent => exact registered.callTool
    case fail =>
      unfold step
      dsimp only
      split
      case isTrue => exact registered
      case isFalse => exact registered.failRequest
    case settle outcome => exact registered.settle
    case redeliver =>
      unfold step redeliver
      dsimp only
      split
      case h_1 => exact registered
      case h_2 => exact ⟨registered.lease, registered.known, registered.owned⟩
    case finish => exact registered.finish
    case closeStream => exact registered.closeStream
    case closeSubscription => exact registered.closeSubscription
    case cancel delay wait => exact registered.handleControl

theorem new_registered {clock : Nat} {tombstoneTtlMs : Option Int}
    {maximumTombstones : Option Int} :
    (new clock tombstoneTtlMs maximumTombstones).Registered key := by
  constructor
  · simp [new, McpRequestCancellationRegistry.new]
  · intro _
    exact ⟨rfl, rfl, not_mem_nil⟩
  · intro some
    cases some

theorem run_registered (registered : worker.Registered key)
    (events : List McpEvent) : (run step worker events).Registered key := by
  induction events generalizing worker with
  | nil => exact registered
  | cons event events induction => exact induction (step_registered registered)

end Consistency

section Control

variable {worker : McpWorker} {key : RequestKey}

variable {outcome : CallOutcome} {delay wait : Nat}

theorem settle_idle : (worker.settle key outcome).pending.get? key = none := by
  unfold settle
  cases found : worker.pending.get? key with
  | none => exact found
  | some call =>
    dsimp only
    split
    case isTrue => simp
    case isFalse =>
      unfold failRequest setRequest
      split <;> simp

theorem settle_used : (worker.settle key outcome).used = worker.used := by
  unfold settle failRequest setRequest
  split
  case h_1 => rfl
  case h_2 =>
    dsimp only
    split
    case isTrue => rfl
    case isFalse => split <;> rfl

theorem settle_subscriptions :
    (worker.settle key outcome).subscriptions = worker.subscriptions := by
  unfold settle failRequest setRequest
  split
  case h_1 => rfl
  case h_2 =>
    dsimp only
    split
    case isTrue => rfl
    case isFalse => split <;> rfl

theorem settle_dispatches :
    (worker.settle key outcome).dispatches = worker.dispatches := by
  unfold settle failRequest setRequest
  split
  case h_1 => rfl
  case h_2 =>
    dsimp only
    split
    case isTrue => rfl
    case isFalse => split <;> rfl

theorem settle_settlements : (worker.settle key outcome).settlements =
    worker.settlements ++
    ((worker.pending.get? key).toList.map fun call => (call, outcome)) := by
  unfold settle failRequest setRequest
  cases found : worker.pending.get? key with
  | none => simp
  | some call =>
    dsimp only
    split
    case isTrue => rfl
    case isFalse => split <;> rfl

theorem settle_cancelled {next : McpRequest}
    (stored : (worker.settle key .cancelled).requests.get? key = some next) :
    ∃ request, worker.requests.get? key = some request ∧
    next.kind = request.kind ∧ next.aborted = request.aborted ∧
    (request.failed = true ∨ (worker.pending.get? key).isSome = true →
      next.failed = true) := by
  unfold settle at stored
  cases found : worker.pending.get? key with
  | none =>
    rw [found] at stored
    refine ⟨next, stored, rfl, rfl, ?_⟩
    simpa using failed
  | some call =>
    rw [found] at stored
    dsimp only at stored
    rw [if_neg (by decide), failRequest, get?_setRequest, if_pos rfl] at stored
    obtain ⟨request, before, same⟩ := Option.map_eq_some_iff.mp stored
    refine ⟨request, before, ?_, ?_, ?_⟩
    · rw [← same]
    · rw [← same]
    · intro _
      rw [← same]

/-- Whether a cancellation reaches the request of an identity: its lease, its
pending call, or no further call. -/
def reachable (worker : McpWorker) (key : RequestKey) : Bool :=
  (worker.requests.get? key).all fun request =>
    request.kind == .streamed || request.kind == .workerOnly ||
      request.failed || request.aborted || worker.pending.contains key

theorem handleControl_request {next : McpRequest} (stored :
    (worker.handleControl key delay wait).requests.get? key = some next) : ∃
    request, worker.requests.get? key = some request ∧ next.kind = request.kind
    ∧ next.aborted = request.aborted ∧ (request.failed = true ∨
    (worker.pending.get? key).isSome = true → next.failed = true) := by
  obtain ⟨middle, found, kind, aborted, failed⟩ := settle_cancelled stored
  split at found
  case isFalse absent =>
    rw [if_neg absent] at failed
    exact ⟨middle, found, kind, aborted, failed⟩
  case isTrue contained =>
    obtain ⟨request, before, first, own, settled⟩ := settle_cancelled found
    refine ⟨request, before, kind.trans first, aborted.trans own, ?_⟩
    intro stops
    exact failed (.inl (settled stops))

theorem handleControl_aborted
    (streamed : worker.cancellations.active.contains key = true) :
    (worker.handleControl key delay wait).cancellations.active.get? key =
    some true := by
  have settled : (worker.handleControl key delay wait).cancellations =
      (worker.controlled key delay wait).cancellations := by
    rw [handleControl_eq, if_pos streamed, settle_steady.cancellations]
    exact settle_steady.cancellations
  rw [settled]
  unfold controlled
  rw [McpRequestCancellationRegistry.get?_active_cancel,
    if_pos ⟨rfl, streamed⟩]

theorem handleControl_quiet (registered : worker.Registered key)
    (used : key ∈ worker.used) (reaches : worker.reachable key = true) :
    (worker.handleControl key delay wait).Quiet key := by
  constructor
  · rw [handleControl_eq, settle_used]
    unfold closeSubscription
    split
    case isTrue =>
      rw [settle_used]
      exact used
    case isFalse => exact used
  · exact settle_idle
  · rw [handleControl_eq, settle_subscriptions]
    simp [closeSubscription]
  · intro next stored
    obtain ⟨request, found, kind, own, failed⟩ := handleControl_request stored
    unfold reachable at reaches
    rw [found] at reaches
    simp only [Option.all_some, Bool.or_eq_true, beq_iff_eq] at reaches
    rcases reaches with (((streamed | only) | stopped) | aborted) | pending
    · right
      right
      have lease := registered.lease.mpr ⟨request, found, streamed⟩
      unfold McpWorker.aborted
      rw [stored, Option.any_some, if_pos (kind.trans streamed),
        handleControl_aborted lease]
      rfl
    · exact .inr (.inl (kind.trans only))
    · exact .inl (failed (.inl stopped))
    · by_cases streamed : request.kind = .streamed
      · right
        right
        have lease := registered.lease.mpr ⟨request, found, streamed⟩
        unfold McpWorker.aborted
        rw [stored, Option.any_some, if_pos (kind.trans streamed),
          handleControl_aborted lease]
        rfl
      · right
        right
        unfold McpWorker.aborted
        rw [stored, Option.any_some, kind, if_neg streamed, own, aborted]
    · exact .inl (failed (.inr pending))

theorem handleControl_dispatches :
    (worker.handleControl key delay wait).dispatches = worker.dispatches := by
  rw [handleControl_eq, settle_dispatches]
  unfold closeSubscription
  split
  case isTrue => exact settle_dispatches
  case isFalse => rfl

theorem handleControl_settles {call : CallId}
    (pending : worker.pending.get? key = some call) : (call, .cancelled) ∈
    (worker.handleControl key delay wait).settlements := by
  rw [handleControl_eq, settle_settlements]
  split
  case isTrue =>
    apply mem_append_left
    unfold closeSubscription
    rw [settle_settlements]
    apply mem_append_right
    rw [show (worker.controlled key delay wait).pending.get? key = some call
      from pending]
    exact mem_singleton.mpr rfl
  case isFalse =>
    apply mem_append_right
    rw [show ((worker.controlled key delay wait).closeSubscription
      key).pending.get? key = some call from pending]
    exact mem_singleton.mpr rfl

end Control

/-- What the registry and the clock keep for an identity until a time. -/
structure Keeps (before after : McpWorker) (key : RequestKey) (time : Nat) :
    Prop where
  lifetime : after.cancellations.tombstoneTtlMs =
    before.cancellations.tombstoneTtlMs
  clock : before.clock ≤ after.clock
  stands : after.clock < time → before.cancellations.Stands key time →
    after.cancellations.Stands key time
  cancelledAt : after.cancelledAt.get? key = before.cancelledAt.get? key

section Early

variable {worker : McpWorker} {key other : RequestKey} {time : Nat}

theorem Steady.keeps {before after : McpWorker}
    (steady : Steady before after) : Keeps before after key time := by
  constructor
  · rw [steady.cancellations]
  · rw [steady.clock]
  · intro _ stands
    rw [steady.cancellations]
    exact stands
  · rw [steady.cancelledAt]

theorem Armed.keeps {before after : McpWorker} (armed : before.Armed key time)
    (keeps : Keeps before after key time)
    (used : key ∈ after.used ↔ key ∈ before.used) : after.Armed key time := by
  constructor
  · rw [used]
    exact armed.fresh
  · intro early
    exact keeps.stands early
      (armed.stands (Nat.lt_of_le_of_lt keeps.clock early))
  · rw [keeps.lifetime]
    exact Nat.le_trans armed.reach (Nat.add_le_add_right keeps.clock _)
  · rw [keeps.cancelledAt, keeps.lifetime]
    exact armed.remembered

variable {delay wait : Nat} {event : McpEvent}

theorem start_keeps {kind : RequestKind} {room : Bool} (differ : key ≠ other) :
    Keeps worker (worker.start other kind room delay wait) key time := by
  have later : worker.clock ≤ worker.clock + delay + wait := by omega
  unfold start
  split
  case isTrue => exact ⟨rfl, later, fun _ stands => stands, rfl⟩
  case isFalse =>
    cases kind with
    | streamed =>
      have lifetime : (worker.cancellations.openRequest other false
          (worker.clock + delay) (worker.clock + delay +
          wait)).1.tombstoneTtlMs = worker.cancellations.tombstoneTtlMs :=
        McpRequestCancellationRegistry.tombstoneTtlMs_openRequest
      have stands : worker.clock + delay + wait < time →
          worker.cancellations.Stands key time →
          (worker.cancellations.openRequest other false (worker.clock + delay)
          (worker.clock + delay + wait)).1.Stands key time := by
        intro early stands
        exact stands.openRequest (by omega) differ
      dsimp only
      split
      case h_1 cancellations opened | h_2 cancellations opened =>
        rw [opened] at lifetime stands
        exact ⟨lifetime, later, stands, rfl⟩
    | daemonBacked
    | workerOnly => exact ⟨rfl, later, fun _ stands => stands, rfl⟩
    | subscription =>
      dsimp only
      split
      case isTrue | isFalse => exact ⟨rfl, later, fun _ stands => stands, rfl⟩

theorem finish_keeps : Keeps worker (worker.finish other) key time := by
  unfold finish
  split
  case isTrue => exact (Steady.refl worker).keeps
  case isFalse => exact ⟨rfl, Nat.le_refl _, fun _ stands => stands, rfl⟩

theorem closeStream_steady :
    Steady worker (worker.closeStream other) ∨
      Steady { worker with
        cancellations := worker.cancellations.cancelLease other }
        (worker.closeStream other) := by
  unfold closeStream
  split
  case isFalse => exact .inl (.refl worker)
  case isTrue =>
    right
    have marked : Steady worker (worker.setRequest other fun request =>
        { request with aborted := true }) := setRequest_steady
    apply Steady.trans _ settle_steady
    constructor
    · exact marked.clock
    · dsimp only
      rw [marked.cancellations]
    · exact marked.cancelledAt

theorem closeStream_keeps :
    Keeps worker (worker.closeStream other) key time := by
  rcases closeStream_steady with steady | steady
  · exact steady.keeps
  · constructor
    · rw [steady.cancellations]
      exact McpRequestCancellationRegistry.tombstoneTtlMs_cancelLease
    · exact steady.clock.ge
    · intro _ stands
      rw [steady.cancellations]
      unfold McpRequestCancellationRegistry.cancelLease
      split
      case isTrue => exact stands
      case isFalse => exact stands
    · rw [steady.cancelledAt]

theorem handleControl_steady : Steady (worker.controlled other delay wait)
    (worker.handleControl other delay wait) := by
  apply Steady.trans _ settle_steady
  split
  case isTrue =>
    have first : Steady (worker.controlled other delay wait)
        ((worker.controlled other delay wait).settle other .cancelled) :=
      settle_steady
    exact first.trans ⟨rfl, rfl, rfl⟩
  case isFalse => exact ⟨rfl, rfl, rfl⟩

theorem handleControl_keeps (differ : other ≠ key) :
    Keeps worker (worker.handleControl other delay wait) key time := by
  have controlled :
      Keeps worker (worker.controlled other delay wait) key time := by
    constructor
    · exact McpRequestCancellationRegistry.tombstoneTtlMs_cancel
    · unfold McpWorker.controlled
      dsimp only
      omega
    · intro early stands
      unfold McpWorker.controlled at early ⊢
      dsimp only at early ⊢
      apply stands.cancel (by omega)
      intro same
      exact absurd same differ
    · unfold McpWorker.controlled
      rw [Record.get?_set, if_neg (Ne.symm differ)]
  have kept : Keeps (worker.controlled other delay wait)
      (worker.handleControl other delay wait) key time :=
    handleControl_steady.keeps
  constructor
  · rw [kept.lifetime, controlled.lifetime]
  · exact Nat.le_trans controlled.clock kept.clock
  · intro early stands
    apply kept.stands early
    exact controlled.stands (Nat.lt_of_le_of_lt kept.clock early) stands
  · rw [kept.cancelledAt, controlled.cancelledAt]

theorem step_keeps (differ : event.key ≠ some key) :
    Keeps worker (worker.step event) key time := by
  cases event with
  | advance elapsed =>
    exact ⟨rfl, Nat.le_add_right _ _, fun _ stands => stands, rfl⟩
  | start other kind room delay wait =>
    exact start_keeps fun same => differ (congrArg some same.symm)
  | callTool other call admitted sent => exact callTool_steady.keeps
  | fail other =>
    unfold step
    dsimp only
    split
    case isTrue => exact (Steady.refl worker).keeps
    case isFalse => exact setRequest_steady.keeps
  | settle other outcome => exact settle_steady.keeps
  | redeliver other => exact redeliver_steady.keeps
  | finish other => exact finish_keeps
  | closeStream other => exact closeStream_keeps
  | closeSubscription other =>
    exact ⟨rfl, Nat.le_refl _, fun _ stands => stands, rfl⟩
  | cancel other delay wait =>
    exact handleControl_keeps fun same => differ (congrArg some same)

theorem step_lifetime : (worker.step event).cancellations.tombstoneTtlMs =
    worker.cancellations.tombstoneTtlMs := by
  cases event with
  | advance elapsed => rfl
  | start other kind room delay wait =>
    unfold step start
    dsimp only
    split
    case isTrue => rfl
    case isFalse =>
      cases kind with
      | streamed =>
        have lifetime : (worker.cancellations.openRequest other false
            (worker.clock + delay) (worker.clock + delay +
            wait)).1.tombstoneTtlMs = worker.cancellations.tombstoneTtlMs :=
          McpRequestCancellationRegistry.tombstoneTtlMs_openRequest
        dsimp only
        split
        case h_1 cancellations opened | h_2 cancellations opened =>
          rw [opened] at lifetime
          exact lifetime
      | daemonBacked => rfl
      | workerOnly => rfl
      | subscription =>
        dsimp only
        split <;> rfl
  | callTool other call admitted sent =>
    exact congrArg _ callTool_steady.cancellations
  | fail other =>
    unfold step
    dsimp only
    split
    case isTrue => rfl
    case isFalse => exact congrArg _ setRequest_steady.cancellations
  | settle other outcome => exact congrArg _ settle_steady.cancellations
  | redeliver other => exact congrArg _ redeliver_steady.cancellations
  | finish other =>
    unfold step finish
    dsimp only
    split <;> rfl
  | closeStream other =>
    rcases closeStream_steady with steady | steady
    · exact congrArg _ steady.cancellations
    · unfold step
      rw [steady.cancellations]
      exact McpRequestCancellationRegistry.tombstoneTtlMs_cancelLease
  | closeSubscription other => rfl
  | cancel other delay wait =>
    unfold step
    rw [handleControl_steady.cancellations]
    exact McpRequestCancellationRegistry.tombstoneTtlMs_cancel

theorem Armed.handleControl (registered : worker.Registered key)
    (armed : worker.Armed key time) :
    (worker.handleControl key delay wait).Armed key time := by
  obtain ⟨-, idle, -⟩ := registered.known armed.fresh
  have inactive := registered.inactive armed.fresh
  have reach := armed.reach
  rw [handleControl_of_idle idle]
  have lifetime : (worker.cancellations.cancel key (worker.clock + delay)
      (worker.clock + delay + wait)).tombstoneTtlMs =
        worker.cancellations.tombstoneTtlMs :=
    McpRequestCancellationRegistry.tombstoneTtlMs_cancel
  unfold controlled closeSubscription
  constructor
  · exact armed.fresh
  · intro _
    have stands : (worker.cancellations.cancel key (worker.clock + delay)
        (worker.clock + delay + wait)).Stands key (worker.clock + delay + wait
        + worker.cancellations.tombstoneTtlMs) := by
      apply McpRequestCancellationRegistry.cancel_stands
      rw [Record.contains, inactive, Option.isSome_none]
    exact stands.mono (by omega)
  · dsimp only
    omega
  · dsimp only
    refine ⟨worker.clock + delay + wait, ?_, by omega⟩
    rw [Record.get?_set, if_pos rfl]

theorem step_armed (registered : worker.Registered key)
    (armed : worker.Armed key time)
    (later : ∀ kind room delay wait, event ≠ .start key kind room delay wait) :
    (worker.step event).Armed key time ∧
    (worker.step event).dispatchesOf key = worker.dispatchesOf key := by
  by_cases about : event.key = some key
  case neg =>
    have untouched : Untouched worker (worker.step event) key :=
      step_untouched about
    exact ⟨armed.keeps (step_keeps about) untouched.used, untouched.dispatches⟩
  case pos =>
    obtain ⟨none, idle, -⟩ := registered.known armed.fresh
    cases event <;> cases about
    case start kind room delay wait =>
      exact absurd rfl (later kind room delay wait)
    case callTool call admitted sent =>
      unfold step callTool
      dsimp only
      rw [none]
      exact ⟨armed, rfl⟩
    case fail =>
      unfold step failRequest setRequest
      dsimp only
      rw [none, ite_self]
      exact ⟨armed, rfl⟩
    case settle outcome =>
      unfold step
      dsimp only
      rw [settle_of_idle idle]
      exact ⟨armed, rfl⟩
    case redeliver =>
      unfold step redeliver
      dsimp only
      rw [idle]
      exact ⟨armed, rfl⟩
    case finish =>
      have used : key ∈ (worker.finish key).used ↔ key ∈ worker.used := by
        unfold finish
        split <;> rfl
      refine ⟨armed.keeps finish_keeps used, ?_⟩
      unfold step finish
      dsimp only
      split <;> rfl
    case closeStream =>
      unfold step closeStream
      dsimp only
      rw [Record.contains, none]
      exact ⟨armed, rfl⟩
    case closeSubscription =>
      exact ⟨⟨armed.fresh, armed.stands, armed.reach, armed.remembered⟩, rfl⟩
    case cancel delay wait =>
      refine ⟨armed.handleControl registered, ?_⟩
      unfold step dispatchesOf
      rw [handleControl_dispatches]

end Early

end McpWorker

end MachineBridge.Mcp
