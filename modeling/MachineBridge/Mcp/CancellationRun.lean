import MachineBridge.Mcp.CancelledRequests

/-!
# Cancellation holds in every run

An event about one identity leaves the others alone.  A cancelled identity is
quiet from then on: it has no pending call and no subscription, and its request
registers no further call.
-/

namespace MachineBridge.Mcp

open Foundation

def McpEvent.key : McpEvent → Option RequestKey
  | .advance _ => none
  | .start key _ _ _ _ => some key
  | .callTool key _ _ _ => some key
  | .fail key => some key
  | .settle key _ => some key
  | .redeliver key => some key
  | .finish key => some key
  | .closeStream key => some key
  | .closeSubscription key => some key
  | .cancel key _ _ => some key

namespace McpWorker

/-- The tool calls which were sent for an identity. -/
def dispatchesOf (worker : McpWorker) (key : RequestKey) :
    List (RequestKey × CallId) :=
  worker.dispatches.filter (·.1 = key)

/-- What a worker knows of an identity stays the same. -/
structure Untouched (before after : McpWorker) (key : RequestKey) : Prop where
  requests : after.requests.get? key = before.requests.get? key
  active : after.cancellations.active.get? key =
    before.cancellations.active.get? key
  pending : after.pending.get? key = before.pending.get? key
  subscriptions : key ∈ after.subscriptions ↔ key ∈ before.subscriptions
  used : key ∈ after.used ↔ key ∈ before.used
  dispatches : after.dispatchesOf key = before.dispatchesOf key

theorem Untouched.refl (worker : McpWorker) (key : RequestKey) :
    Untouched worker worker key := ⟨rfl, rfl, rfl, Iff.rfl, Iff.rfl, rfl⟩

theorem Untouched.trans {first second third : McpWorker} {key : RequestKey}
    (one : Untouched first second key) (other : Untouched second third key) :
    Untouched first third key := by
  constructor
  · rw [other.requests, one.requests]
  · rw [other.active, one.active]
  · rw [other.pending, one.pending]
  · rw [other.subscriptions, one.subscriptions]
  · rw [other.used, one.used]
  · rw [other.dispatches, one.dispatches]

theorem Untouched.aborted {before after : McpWorker} {key : RequestKey}
    (untouched : Untouched before after key) :
    after.aborted key = before.aborted key := by
  rw [McpWorker.aborted, McpWorker.aborted, untouched.requests,
    untouched.active]

section Operations

variable {worker : McpWorker} {key other : RequestKey}

theorem get?_setRequest {change : McpRequest → McpRequest} :
    (worker.setRequest other change).requests.get? key = if key = other then
    (worker.requests.get? key).map change else worker.requests.get? key := by
  unfold setRequest
  cases found : worker.requests.get? other with
  | none =>
    dsimp only
    split
    case isTrue same => rw [same, found, Option.map_none]
    case isFalse => rfl
  | some request =>
    rw [Record.get?_set]
    split
    case isTrue same => rw [same, found, Option.map_some]
    case isFalse => rfl

theorem setRequest_untouched {change : McpRequest → McpRequest}
    (differ : key ≠ other) :
    Untouched worker (worker.setRequest other change) key := by
  constructor
  · rw [get?_setRequest, if_neg differ]
  all_goals
    unfold setRequest
    split
  all_goals first | exact Iff.rfl | rfl

theorem settle_untouched {outcome : CallOutcome} (differ : key ≠ other) :
    Untouched worker (worker.settle other outcome) key := by
  unfold settle
  split
  case h_1 => exact .refl worker key
  case h_2 call found =>
    have settled : Untouched worker { worker with
        pending := worker.pending.delete other
        settlements := worker.settlements ++ [(call, outcome)] } key := by
      constructor
      · rfl
      · rfl
      · dsimp only
        rw [Record.get?_delete, if_neg differ]
      · exact Iff.rfl
      · exact Iff.rfl
      · rfl
    split
    case isTrue => exact settled
    case isFalse => exact settled.trans (setRequest_untouched differ)

theorem closeSubscription_untouched (differ : key ≠ other) :
    Untouched worker (worker.closeSubscription other) key := by
  constructor
  · rfl
  · rfl
  · rfl
  · simp [closeSubscription, differ]
  · exact Iff.rfl
  · rfl

theorem dispatch_untouched {call : CallId} (differ : key ≠ other) :
    dispatchesOf { worker with
      dispatches := worker.dispatches ++ [(other, call)] } key =
      worker.dispatchesOf key := by
  simp [dispatchesOf, Ne.symm differ]

theorem start_untouched {kind : RequestKind} {room : Bool} {delay wait : Nat}
    (differ : key ≠ other) :
    Untouched worker (worker.start other kind room delay wait) key := by
  have used : key ∈ worker.used ++ [other] ↔ key ∈ worker.used := by
    simp [differ]
  have subscriptions : key ∈ worker.subscriptions ++ [other] ↔
      key ∈ worker.subscriptions := by
    simp [differ]
  have requests (request : McpRequest) :
      (worker.requests.set other request).get? key =
      worker.requests.get? key := by
    rw [Record.get?_set, if_neg differ]
  unfold start
  split
  case isTrue => exact ⟨rfl, rfl, rfl, Iff.rfl, Iff.rfl, rfl⟩
  case isFalse =>
    cases kind with
    | streamed =>
      have active : (worker.cancellations.openRequest other false
          (worker.clock + delay) (worker.clock + delay + wait)).1.active.get?
            key = worker.cancellations.active.get? key :=
        McpRequestCancellationRegistry.get?_active_openRequest differ
      dsimp only
      split
      case h_1 cancellations opened =>
        rw [opened] at active
        exact ⟨requests _, active, rfl, Iff.rfl, used, rfl⟩
      case h_2 cancellations opened =>
        rw [opened] at active
        exact ⟨rfl, active, rfl, Iff.rfl, used, rfl⟩
    | daemonBacked
    | workerOnly => exact ⟨requests _, rfl, rfl, Iff.rfl, used, rfl⟩
    | subscription =>
      dsimp only
      split
      case isTrue => exact ⟨rfl, rfl, rfl, subscriptions, used, rfl⟩
      case isFalse => exact ⟨rfl, rfl, rfl, Iff.rfl, used, rfl⟩

theorem callTool_untouched {call : CallId} {admitted sent : Bool}
    (differ : key ≠ other) :
    Untouched worker (worker.callTool other call admitted sent) key := by
  unfold callTool
  split
  case h_1 => exact .refl worker key
  case h_2 request found =>
    split
    case isTrue => exact .refl worker key
    case isFalse =>
      split
      case isTrue => exact setRequest_untouched differ
      case isFalse =>
        have dispatched : Untouched worker { worker with
            pending := worker.pending.set other call
            dispatches := worker.dispatches ++ [(other, call)] } key := by
          constructor
          · rfl
          · rfl
          · dsimp only
            rw [Record.get?_set, if_neg differ]
          · exact Iff.rfl
          · exact Iff.rfl
          · exact dispatch_untouched differ
        split
        case isTrue => exact dispatched
        case isFalse => exact dispatched.trans (settle_untouched differ)

section

variable (differ : key ≠ other)
include differ

theorem redeliver_untouched :
    Untouched worker (worker.redeliver other) key := by
  unfold redeliver
  split
  case h_1 => exact .refl worker key
  case h_2 call found =>
    exact ⟨rfl, rfl, rfl, Iff.rfl, Iff.rfl, dispatch_untouched differ⟩

theorem finish_untouched : Untouched worker (worker.finish other) key := by
  unfold finish
  split
  case isTrue => exact .refl worker key
  case isFalse =>
    refine ⟨?_, ?_, rfl, Iff.rfl, Iff.rfl, rfl⟩
    · dsimp only
      rw [Record.get?_delete, if_neg differ]
    · dsimp only
      rw [McpRequestCancellationRegistry.release, Record.get?_delete,
        if_neg differ]

theorem closeStream_untouched :
    Untouched worker (worker.closeStream other) key := by
  unfold closeStream
  split
  case isFalse => exact .refl worker key
  case isTrue =>
    have marked : Untouched worker (worker.setRequest other fun request =>
        { request with aborted := true }) key := setRequest_untouched differ
    apply Untouched.trans _ (settle_untouched differ)
    apply marked.trans
    refine ⟨rfl, ?_, rfl, Iff.rfl, Iff.rfl, rfl⟩
    rw [McpRequestCancellationRegistry.get?_active_cancelLease,
      if_neg fun both => differ both.1]

end

theorem handleControl_untouched {delay wait : Nat} (differ : key ≠ other) :
    Untouched worker (worker.handleControl other delay wait) key := by
  have cancelled : Untouched worker { worker with
      clock := worker.clock + delay + wait
      cancelledAt := worker.cancelledAt.set other (worker.clock + delay + wait)
      cancellations := worker.cancellations.cancel other
        (worker.clock + delay) (worker.clock + delay + wait) } key := by
    refine ⟨rfl, ?_, rfl, Iff.rfl, Iff.rfl, rfl⟩
    rw [McpRequestCancellationRegistry.get?_active_cancel,
      if_neg fun both => differ both.1]
  unfold handleControl
  apply Untouched.trans _ (settle_untouched differ)
  apply Untouched.trans _ (closeSubscription_untouched differ)
  split
  case isTrue => exact cancelled.trans (settle_untouched differ)
  case isFalse => exact cancelled

end Operations

theorem step_untouched {worker : McpWorker} {event : McpEvent}
    {key : RequestKey} (differ : event.key ≠ some key) :
    Untouched worker (worker.step event) key := by
  cases event with
  | advance elapsed => exact ⟨rfl, rfl, rfl, Iff.rfl, Iff.rfl, rfl⟩
  | start other kind room delay wait =>
    exact start_untouched fun same => differ (congrArg some same.symm)
  | callTool other call admitted sent =>
    exact callTool_untouched fun same => differ (congrArg some same.symm)
  | fail other =>
    unfold step
    dsimp only
    split
    case isTrue => exact .refl worker key
    case isFalse =>
      exact setRequest_untouched fun same => differ (congrArg some same.symm)
  | settle other outcome =>
    exact settle_untouched fun same => differ (congrArg some same.symm)
  | redeliver other =>
    exact redeliver_untouched fun same => differ (congrArg some same.symm)
  | finish other =>
    exact finish_untouched fun same => differ (congrArg some same.symm)
  | closeStream other =>
    exact closeStream_untouched fun same => differ (congrArg some same.symm)
  | closeSubscription other =>
    exact closeSubscription_untouched
      fun same => differ (congrArg some same.symm)
  | cancel other delay wait =>
    exact handleControl_untouched fun same => differ (congrArg some same.symm)

/-- Nothing more happens for an identity: it is used, has no pending call and
no subscription, and its request makes no further call. -/
structure Quiet (worker : McpWorker) (key : RequestKey) : Prop where
  used : key ∈ worker.used
  idle : worker.pending.get? key = none
  closed : key ∉ worker.subscriptions
  stopped : ∀ request, worker.requests.get? key = some request →
    request.failed = true ∨ request.kind = .workerOnly ∨
      worker.aborted key = true

theorem Quiet.untouched {before after : McpWorker} {key : RequestKey}
    (quiet : before.Quiet key) (untouched : Untouched before after key) :
    after.Quiet key := by
  constructor
  · exact untouched.used.mpr quiet.used
  · rw [untouched.pending]
    exact quiet.idle
  · rw [untouched.subscriptions]
    exact quiet.closed
  · rw [untouched.requests, untouched.aborted]
    exact quiet.stopped

section Quietness

variable {worker : McpWorker} {key : RequestKey}

theorem settle_of_idle {outcome : CallOutcome}
    (idle : worker.pending.get? key = none) :
    worker.settle key outcome = worker := by
  rw [settle, idle]

theorem Quiet.failRequest (quiet : worker.Quiet key) :
    (worker.failRequest key).Quiet key ∧
    (worker.failRequest key).dispatchesOf key = worker.dispatchesOf key := by
  unfold McpWorker.failRequest setRequest
  split
  case h_1 => exact ⟨quiet, rfl⟩
  case h_2 request found =>
    refine ⟨{ quiet with stopped := ?_ }, rfl⟩
    intro next stored
    left
    simp only [Record.get?_set, if_pos, Option.some.injEq] at stored
    rw [← stored]

theorem Quiet.callTool {call : CallId} {admitted sent : Bool}
    (quiet : worker.Quiet key) :
    (worker.callTool key call admitted sent).Quiet key ∧
    (worker.callTool key call admitted sent).dispatchesOf key =
    worker.dispatchesOf key := by
  unfold McpWorker.callTool
  split
  case h_1 => exact ⟨quiet, rfl⟩
  case h_2 request found =>
    split
    case isTrue => exact ⟨quiet, rfl⟩
    case isFalse goes =>
      split
      case isTrue => exact quiet.failRequest
      case isFalse unaborted =>
        exfalso
        rcases quiet.stopped request found with failed | only | aborted
        · exact goes (.inr (.inl failed))
        · exact goes (.inl only)
        · exact unaborted (.inl aborted)

theorem Quiet.finish (quiet : worker.Quiet key) :
    (worker.finish key).Quiet key := by
  unfold McpWorker.finish
  split
  case isTrue => exact quiet
  case isFalse =>
    refine { quiet with stopped := ?_ }
    intro request found
    simp at found

theorem aborted_setActive {cancellations : McpRequestCancellationRegistry}
    (aborts : worker.cancellations.active.get? key = some true →
      cancellations.active.get? key = some true)
    (aborted : worker.aborted key = true) :
    McpWorker.aborted { worker with cancellations } key = true := by
  unfold McpWorker.aborted at aborted ⊢
  cases found : worker.requests.get? key with
  | none =>
    rw [found] at aborted
    cases aborted
  | some request =>
    rw [found] at aborted
    simp only [Option.any_some] at aborted ⊢
    split
    case isTrue streamed =>
      rw [if_pos streamed] at aborted
      simpa using aborts (by simpa using aborted)
    case isFalse other =>
      rw [if_neg other] at aborted
      exact aborted

variable {delay wait : Nat}

theorem Quiet.start {kind : RequestKind} {room : Bool}
    (quiet : worker.Quiet key) :
    (worker.start key kind room delay wait).Quiet key ∧
    (worker.start key kind room delay wait).dispatchesOf key =
    worker.dispatchesOf key := by
  unfold McpWorker.start
  rw [if_pos quiet.used]
  exact ⟨⟨quiet.used, quiet.idle, quiet.closed, quiet.stopped⟩, rfl⟩

theorem Quiet.closeSubscription (quiet : worker.Quiet key) :
    (worker.closeSubscription key).Quiet key := by
  refine { quiet with closed := ?_ }
  simp [McpWorker.closeSubscription]

theorem Quiet.closeStream (quiet : worker.Quiet key) :
    (worker.closeStream key).Quiet key ∧
    (worker.closeStream key).dispatchesOf key = worker.dispatchesOf key := by
  unfold McpWorker.closeStream
  cases found : worker.requests.get? key with
  | none =>
    rw [Record.contains, found]
    exact ⟨quiet, rfl⟩
  | some request =>
    rw [Record.contains, found]
    dsimp only [Option.isSome_some]
    rw [if_pos rfl, setRequest, found]
    rw [settle_of_idle (by exact quiet.idle)]
    refine ⟨{ quiet with stopped := ?_ }, rfl⟩
    intro next stored
    simp only [Record.get?_set, if_pos, Option.some.injEq] at stored
    rw [← stored]
    rcases quiet.stopped request found with failed | only | aborted
    · exact .inl failed
    · exact .inr (.inl only)
    · right
      right
      unfold McpWorker.aborted at aborted ⊢
      rw [found] at aborted
      simp only [Option.any_some, Record.get?_set, if_pos] at aborted ⊢
      split
      case isFalse => rfl
      case isTrue streamed =>
        rw [if_pos streamed, beq_iff_eq] at aborted
        rw [McpRequestCancellationRegistry.get?_active_cancelLease,
          Record.contains, aborted, ite_self]
        rfl

/-- The worker once the registry knows of a cancellation. -/
def controlled (worker : McpWorker) (key : RequestKey) (delay wait : Nat) :
    McpWorker :=
  { worker with
    clock := worker.clock + delay + wait
    cancelledAt := worker.cancelledAt.set key (worker.clock + delay + wait)
    cancellations := worker.cancellations.cancel key (worker.clock + delay)
      (worker.clock + delay + wait) }

theorem handleControl_eq :
    worker.handleControl key delay wait =
      ((if worker.cancellations.active.contains key then
          (worker.controlled key delay wait).settle key .cancelled
        else worker.controlled key delay wait).closeSubscription key).settle
          key .cancelled := rfl

theorem handleControl_of_idle (idle : worker.pending.get? key = none) :
    worker.handleControl key delay wait =
    (worker.controlled key delay wait).closeSubscription key := by
  have still : (worker.controlled key delay wait).settle key .cancelled =
      worker.controlled key delay wait := settle_of_idle idle
  rw [handleControl_eq, still, ite_self]
  exact settle_of_idle idle

theorem Quiet.handleControl (quiet : worker.Quiet key) :
    (worker.handleControl key delay wait).Quiet key ∧
    (worker.handleControl key delay wait).dispatchesOf key =
    worker.dispatchesOf key := by
  have cancelled : (worker.controlled key delay wait).Quiet key := by
    refine { quiet with stopped := ?_ }
    intro request found
    rcases quiet.stopped request found with failed | only | aborted
    · exact .inl failed
    · exact .inr (.inl only)
    · right
      right
      apply aborted_setActive _ aborted
      intro active
      unfold controlled
      rw [McpRequestCancellationRegistry.get?_active_cancel, active]
      split <;> rfl
  rw [handleControl_of_idle quiet.idle]
  exact ⟨cancelled.closeSubscription, rfl⟩

theorem step_quiet {event : McpEvent} (quiet : worker.Quiet key) :
    (worker.step event).Quiet key ∧
    (worker.step event).dispatchesOf key = worker.dispatchesOf key := by
  by_cases about : event.key = some key
  case neg =>
    have untouched : Untouched worker (worker.step event) key :=
      step_untouched about
    exact ⟨quiet.untouched untouched, untouched.dispatches⟩
  case pos =>
    cases event <;> cases about
    case start kind room delay wait => exact quiet.start
    case callTool call admitted sent => exact quiet.callTool
    case fail =>
      unfold step
      dsimp only
      split
      case isTrue => exact ⟨quiet, rfl⟩
      case isFalse => exact quiet.failRequest
    case settle outcome =>
      unfold step
      dsimp only
      rw [settle_of_idle quiet.idle]
      exact ⟨quiet, rfl⟩
    case redeliver =>
      unfold step redeliver
      dsimp only
      rw [quiet.idle]
      exact ⟨quiet, rfl⟩
    case finish =>
      refine ⟨quiet.finish, ?_⟩
      unfold step McpWorker.finish
      dsimp only
      split <;> rfl
    case closeStream => exact quiet.closeStream
    case closeSubscription => exact ⟨quiet.closeSubscription, rfl⟩
    case cancel delay wait => exact quiet.handleControl

theorem run_quiet (quiet : worker.Quiet key) (events : List McpEvent) :
    (run step worker events).Quiet key ∧
    (run step worker events).dispatchesOf key = worker.dispatchesOf key := by
  induction events generalizing worker with
  | nil => exact ⟨quiet, rfl⟩
  | cons event events induction =>
    have step : (worker.step event).Quiet key ∧
        (worker.step event).dispatchesOf key = worker.dispatchesOf key :=
      step_quiet quiet
    obtain ⟨next, same⟩ := step
    obtain ⟨last, rest⟩ := induction next
    exact ⟨last, rest.trans same⟩

end Quietness

/-- The registry of cancellations is not concerned. -/
structure Steady (before after : McpWorker) : Prop where
  clock : after.clock = before.clock
  cancellations : after.cancellations = before.cancellations
  cancelledAt : after.cancelledAt = before.cancelledAt

theorem Steady.refl (worker : McpWorker) : Steady worker worker :=
  ⟨rfl, rfl, rfl⟩

theorem Steady.trans {first second third : McpWorker}
    (one : Steady first second) (other : Steady second third) :
    Steady first third := by
  constructor
  · rw [other.clock, one.clock]
  · rw [other.cancellations, one.cancellations]
  · rw [other.cancelledAt, one.cancelledAt]

section Fresh

variable {worker : McpWorker} {key other : RequestKey}

theorem setRequest_steady {change : McpRequest → McpRequest} :
    Steady worker (worker.setRequest key change) := by
  unfold setRequest
  split
  case h_1 => exact .refl worker
  case h_2 => exact ⟨rfl, rfl, rfl⟩

theorem settle_steady {outcome : CallOutcome} :
    Steady worker (worker.settle key outcome) := by
  unfold settle
  split
  case h_1 => exact .refl worker
  case h_2 call found =>
    split
    case isTrue => exact ⟨rfl, rfl, rfl⟩
    case isFalse =>
      have removed : Steady worker { worker with
          pending := worker.pending.delete key
          settlements := worker.settlements ++ [(call, outcome)] } :=
        ⟨rfl, rfl, rfl⟩
      exact removed.trans setRequest_steady

theorem callTool_steady {call : CallId} {admitted sent : Bool} :
    Steady worker (worker.callTool key call admitted sent) := by
  unfold callTool
  split
  case h_1 => exact .refl worker
  case h_2 request found =>
    split
    case isTrue => exact .refl worker
    case isFalse =>
      split
      case isTrue => exact setRequest_steady
      case isFalse =>
        have dispatched : Steady worker { worker with
            pending := worker.pending.set key call
            dispatches := worker.dispatches ++ [(key, call)] } :=
          ⟨rfl, rfl, rfl⟩
        split
        case isTrue => exact dispatched
        case isFalse => exact dispatched.trans settle_steady

theorem redeliver_steady : Steady worker (worker.redeliver key) := by
  unfold redeliver
  split
  case h_1 => exact .refl worker
  case h_2 => exact ⟨rfl, rfl, rfl⟩

/-- The cancellation of an identity which has not been used stands. -/
structure Armed (worker : McpWorker) (key : RequestKey) (time : Nat) :
    Prop where
  fresh : key ∉ worker.used
  stands : worker.clock < time → worker.cancellations.Stands key time
  reach : time ≤ worker.clock + worker.cancellations.tombstoneTtlMs
  remembered : ∃ last, worker.cancelledAt.get? key = some last ∧
    time ≤ last + worker.cancellations.tombstoneTtlMs

end Fresh

end McpWorker

end MachineBridge.Mcp
