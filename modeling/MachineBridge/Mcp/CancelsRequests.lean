import MachineBridge.Mcp.CancellationSafety

/-!
# What a cancellation promises

A cancelled request is quiet from its cancellation, or from its start when the
cancellation comes first; and no request is aborted without a reason.
-/

namespace MachineBridge.Mcp

open Foundation List

namespace McpWorker

/-- Whether a request may start: one which does not look at the cancelled
identities has not been cancelled within the lifetime of a tombstone. -/
def uncancelled (worker : McpWorker) (key : RequestKey) (kind : RequestKind)
    (room : Bool) (delay wait : Nat) : Bool :=
  kind == .streamed || kind == .workerOnly ||
    (kind == .subscription && !room) ||
    (worker.cancelledAt.get? key).all fun last => decide
      (last + worker.cancellations.tombstoneTtlMs ≤
        worker.clock + delay + wait)

def answered (worker : McpWorker) : McpEvent → Bool
  | .start key kind room delay wait =>
    worker.uncancelled key kind room delay wait
  | .cancel key _ _ => worker.reachable key
  | _ => true

section Promises

variable {worker : McpWorker} {key : RequestKey} {time : Nat}

variable {delay wait : Nat}

theorem start_clock {kind : RequestKind} {room : Bool} :
    (worker.start key kind room delay wait).clock = worker.clock + delay +
    wait := by
  unfold McpWorker.start
  split
  case isTrue => rfl
  case isFalse =>
    cases kind with
    | streamed =>
      dsimp only
      split <;> rfl
    | daemonBacked => rfl
    | workerOnly => rfl
    | subscription =>
      dsimp only
      split <;> rfl

theorem Armed.start {kind : RequestKind} {room : Bool}
    (registered : worker.Registered key) (armed : worker.Armed key time)
    (early : worker.clock + delay + wait < time)
    (condition : worker.uncancelled key kind room delay wait = true) :
    (worker.start key kind room delay wait).Quiet key ∧
    (worker.start key kind room delay wait).dispatchesOf key =
    worker.dispatchesOf key := by
  obtain ⟨none, idle, closed⟩ := registered.known armed.fresh
  have inactive := registered.inactive armed.fresh
  have used : key ∈ worker.used ++ [key] := by simp
  have stale : (worker.cancelledAt.get? key).all (fun last => decide
      (last + worker.cancellations.tombstoneTtlMs ≤
        worker.clock + delay + wait)) = false := by
    obtain ⟨last, found, reach⟩ := armed.remembered
    rw [found, Option.all_some, decide_eq_false_iff_not]
    omega
  unfold McpWorker.start
  rw [if_neg armed.fresh]
  cases kind with
  | streamed =>
    have absent : worker.cancellations.active.contains key = false := by
      rw [Record.contains, inactive, Option.isSome_none]
    have stands := armed.stands (by omega)
    have aborts : (worker.cancellations.openRequest key false
        (worker.clock + delay) (worker.clock + delay + wait)).1.active.get?
          key = some true := stands.aborts (by omega) early absent
    dsimp only
    split
    case h_1 cancellations opened =>
      rw [opened] at aborts
      refine ⟨⟨used, idle, closed, ?_⟩, rfl⟩
      intro request found
      right
      right
      unfold aborted
      rw [found, Option.any_some]
      simp only [Record.get?_set, if_pos, Option.some.injEq] at found
      rw [← found, if_pos rfl, aborts]
      rfl
    case h_2 cancellations opened =>
      refine ⟨⟨used, idle, closed, ?_⟩, rfl⟩
      intro request found
      rw [none] at found
      cases found
  | daemonBacked =>
    unfold uncancelled at condition
    rw [stale] at condition
    cases condition
  | workerOnly =>
    refine ⟨⟨used, idle, closed, ?_⟩, rfl⟩
    intro request found
    simp only [Record.get?_set, if_pos, Option.some.injEq] at found
    rw [← found]
    exact .inr (.inl rfl)
  | subscription =>
    unfold uncancelled at condition
    rw [stale] at condition
    cases room with
    | true => cases condition
    | false =>
      refine ⟨⟨used, idle, closed, ?_⟩, rfl⟩
      intro request found
      dsimp only at found
      rw [if_neg (by decide)] at found
      rw [none] at found
      cases found

theorem handleControl_armed (registered : worker.Registered key)
    (fresh : key ∉ worker.used) : (worker.handleControl key delay wait).Armed
    key ((worker.handleControl key delay wait).clock +
    worker.cancellations.tombstoneTtlMs) := by
  obtain ⟨-, idle, -⟩ := registered.known fresh
  have inactive := registered.inactive fresh
  have lifetime : (worker.cancellations.cancel key (worker.clock + delay)
      (worker.clock + delay + wait)).tombstoneTtlMs =
        worker.cancellations.tombstoneTtlMs :=
    McpRequestCancellationRegistry.tombstoneTtlMs_cancel
  rw [handleControl_of_idle idle]
  unfold controlled closeSubscription
  constructor
  · exact fresh
  · intro _
    apply McpRequestCancellationRegistry.cancel_stands
    rw [Record.contains, inactive, Option.isSome_none]
  · dsimp only
    rw [lifetime]
  · dsimp only
    rw [lifetime]
    refine ⟨worker.clock + delay + wait, ?_, Nat.le_refl _⟩
    rw [Record.get?_set, if_pos rfl]

theorem run_armed {events : List McpEvent} (registered : worker.Registered key)
    (armed : worker.Armed key time) (meets : Meets step (fun worker event =>
    worker.answered event = true) worker events) (early : ∀ before kind room
    delay wait after, events = before ++ .start key kind room delay wait ::
    after → (run step worker (before ++ [.start key kind room delay
    wait])).clock < time) : (run step worker events).dispatchesOf key =
    worker.dispatchesOf key ∧ key ∉
    (run step worker events).subscriptions := by
  induction events generalizing worker with
  | nil => exact ⟨rfl, (registered.known armed.fresh).2.2⟩
  | cons event events induction =>
    obtain ⟨condition, rest⟩ := meets
    have next : (worker.step event).Registered key :=
      step_registered registered
    by_cases starts : ∃ kind room delay wait,
        event = .start key kind room delay wait
    case pos =>
      obtain ⟨kind, room, delay, wait, rfl⟩ := starts
      have first := early [] kind room delay wait events rfl
      have clock : worker.clock + delay + wait ≤
          (worker.start key kind room delay wait).clock :=
        start_clock.ge
      have quiet := armed.start registered
        (Nat.lt_of_le_of_lt clock first) condition
      obtain ⟨last, same⟩ := run_quiet quiet.1 events
      exact ⟨same.trans quiet.2, last.closed⟩
    case neg =>
      have later : ∀ kind room delay wait,
          event ≠ .start key kind room delay wait := by
        intro kind room delay wait same
        exact starts ⟨kind, room, delay, wait, same⟩
      obtain ⟨still, same⟩ := step_armed registered armed later
      obtain ⟨dispatches, closed⟩ := induction next still rest (by
        intro before kind room delay wait after split
        exact early (event :: before) kind room delay wait after
          (by rw [split, cons_append]))
      exact ⟨dispatches.trans same, closed⟩

end Promises

/-- An event which withdraws an identity: a cancel control, or the end of its
own stream. -/
def withdraws (key : RequestKey) : McpEvent → Prop
  | .cancel other _ _ => other = key
  | .closeStream other => other = key
  | _ => False

/-- The request of an identity started while the registry failed closed. -/
def Refused (initial : McpWorker) (events : List McpEvent) (key : RequestKey) :
    Prop :=
  ∃ before kind room delay wait after,
    events = before ++ .start key kind room delay wait :: after ∧
      (run step initial before).clock + delay + wait <
        (run step initial before).cancellations.failClosedUntil

structure Explained (initial : McpWorker) (events : List McpEvent) :
    Prop where
  tombstones : ∀ key expiresAt,
    (run step initial events).cancellations.cancelledBeforeOpen.get? key =
      some expiresAt → ∃ event ∈ events, withdraws key event
  aborted : ∀ key, (run step initial events).aborted key = true →
    (∃ event ∈ events, withdraws key event) ∨ Refused initial events key

section Reasons

variable {worker : McpWorker} {key other : RequestKey}

theorem aborted_setRequest {change : McpRequest → McpRequest}
    (kind : ∀ request, (change request).kind = request.kind)
    (own : ∀ request, (change request).aborted = request.aborted) :
    (worker.setRequest other change).aborted key = worker.aborted key := by
  have steady : Steady worker (worker.setRequest other change) :=
    setRequest_steady
  unfold McpWorker.aborted
  rw [steady.cancellations, get?_setRequest]
  split
  case isFalse => rfl
  case isTrue =>
    cases worker.requests.get? key with
    | none => rfl
    | some request =>
      rw [Option.map_some, Option.any_some, Option.any_some, kind, own]

theorem aborted_failRequest :
    (worker.failRequest other).aborted key = worker.aborted key :=
  aborted_setRequest (fun _ => rfl) fun _ => rfl

theorem aborted_settle {outcome : CallOutcome} :
    (worker.settle other outcome).aborted key = worker.aborted key := by
  unfold settle
  split
  case h_1 => rfl
  case h_2 call found =>
    split
    case isTrue => rfl
    case isFalse => exact aborted_failRequest

theorem aborted_callTool {call : CallId} {admitted sent : Bool} :
    (worker.callTool other call admitted sent).aborted key =
    worker.aborted key := by
  unfold callTool
  split
  case h_1 => rfl
  case h_2 request found =>
    split
    case isTrue => rfl
    case isFalse =>
      split
      case isTrue => exact aborted_failRequest
      case isFalse =>
        split
        case isTrue => rfl
        case isFalse => exact aborted_settle

theorem start_aborted {kind : RequestKind} {room : Bool} {delay wait : Nat}
    (registered : worker.Registered key)
    (aborted : (worker.start key kind room delay wait).aborted key = true) :
    worker.aborted key = true ∨
    (worker.cancellations.cancelledBeforeOpen.get? key).isSome = true ∨
    worker.clock + delay + wait < worker.cancellations.failClosedUntil := by
  unfold McpWorker.start at aborted
  split at aborted
  case isTrue => exact .inl aborted
  case isFalse fresh =>
    have inactive := registered.inactive fresh
    cases kind with
    | streamed =>
      have absent : worker.cancellations.active.contains key = false := by
        rw [Record.contains, inactive, Option.isSome_none]
      have reasons : (worker.cancellations.openRequest key false
          (worker.clock + delay) (worker.clock + delay + wait)).1.active.get?
            key = some true → false = true ∨
              (worker.cancellations.cancelledBeforeOpen.get? key).isSome =
                true ∨
              worker.clock + delay + wait <
                worker.cancellations.failClosedUntil :=
        McpRequestCancellationRegistry.openRequest_aborted absent
      right
      dsimp only at aborted
      split at aborted
      case h_1 cancellations opened =>
        rw [opened] at reasons
        have active : cancellations.active.get? key = some true := by
          simpa [McpWorker.aborted] using aborted
        simpa using reasons active
      case h_2 cancellations opened =>
        rw [opened] at reasons
        have active : cancellations.active.get? key = some true := by
          unfold McpWorker.aborted at aborted
          rw [(registered.known fresh).1] at aborted
          cases aborted
        simpa using reasons active
    | daemonBacked | workerOnly => simp [McpWorker.aborted] at aborted
    | subscription =>
      left
      dsimp only at aborted
      split at aborted
      case isTrue => exact aborted
      case isFalse => exact aborted

variable {event : McpEvent}

theorem Steady.tombstone {before after : McpWorker} {expiresAt : Nat}
    (steady : Steady before after)
    (found : after.cancellations.cancelledBeforeOpen.get? key = some expiresAt)
    : withdraws key event ∨
    before.cancellations.cancelledBeforeOpen.get? key = some expiresAt := by
  rw [steady.cancellations] at found
  exact .inr found

theorem step_tombstone {expiresAt : Nat} (found : (worker.step
    event).cancellations.cancelledBeforeOpen.get? key = some expiresAt) :
    withdraws key event ∨ worker.cancellations.cancelledBeforeOpen.get? key =
    some expiresAt := by
  cases event with
  | advance elapsed => exact .inr found
  | start other kind room delay wait =>
    right
    unfold step start at found
    dsimp only at found
    split at found
    case isTrue => exact found
    case isFalse =>
      cases kind with
      | streamed =>
        dsimp only at found
        split at found
        case h_1 cancellations opened | h_2 cancellations opened =>
          apply McpRequestCancellationRegistry.get?_openRequest
          rw [opened]
          exact found
      | daemonBacked => exact found
      | workerOnly => exact found
      | subscription =>
        dsimp only at found
        split at found
        case isTrue => exact found
        case isFalse => exact found
  | callTool other call admitted sent => exact callTool_steady.tombstone found
  | fail other =>
    unfold step at found
    dsimp only at found
    split at found
    case isTrue => exact .inr found
    case isFalse => exact setRequest_steady.tombstone found
  | settle other outcome => exact settle_steady.tombstone found
  | redeliver other => exact redeliver_steady.tombstone found
  | finish other =>
    right
    unfold step finish at found
    dsimp only at found
    split at found
    case isTrue => exact found
    case isFalse => exact found
  | closeStream other =>
    right
    have before : (worker.closeStream
        other).cancellations.cancelledBeforeOpen.get? key =
          some expiresAt := found
    rcases closeStream_steady with steady | steady
    · rw [steady.cancellations] at before
      exact before
    · rw [steady.cancellations] at before
      unfold McpRequestCancellationRegistry.cancelLease at before
      split at before
      case isTrue => exact before
      case isFalse => exact before
  | closeSubscription other => exact .inr found
  | cancel other delay wait =>
    have before : (worker.handleControl other delay
        wait).cancellations.cancelledBeforeOpen.get? key =
          some expiresAt := found
    rw [handleControl_steady.cancellations] at before
    rcases McpRequestCancellationRegistry.get?_cancel before with same | old
    · exact .inl same.symm
    · exact .inr old

theorem step_aborted (registered : worker.Registered key)
    (aborted : (worker.step event).aborted key = true) :
    worker.aborted key = true ∨ withdraws key event ∨ ∃ kind room delay wait,
    event = .start key kind room delay wait ∧
    ((worker.cancellations.cancelledBeforeOpen.get? key).isSome = true ∨
      worker.clock + delay + wait < worker.cancellations.failClosedUntil) := by
  by_cases about : event.key = some key
  case neg =>
    have untouched : Untouched worker (worker.step event) key :=
      step_untouched about
    rw [untouched.aborted] at aborted
    exact .inl aborted
  case pos =>
    cases event <;> cases about
    case start kind room delay wait =>
      rcases start_aborted registered aborted with old | reason
      · exact .inl old
      · exact .inr (.inr ⟨kind, room, delay, wait, rfl, reason⟩)
    case callTool call admitted sent =>
      left
      rw [← aborted_callTool]
      exact aborted
    case fail =>
      left
      unfold step at aborted
      dsimp only at aborted
      split at aborted
      case isTrue => exact aborted
      case isFalse =>
        rw [← aborted_failRequest]
        exact aborted
    case settle outcome =>
      left
      rw [← aborted_settle]
      exact aborted
    case redeliver =>
      left
      unfold step redeliver at aborted
      dsimp only at aborted
      split at aborted
      case h_1 => exact aborted
      case h_2 => exact aborted
    case finish =>
      left
      unfold step McpWorker.finish at aborted
      dsimp only at aborted
      split at aborted
      case isTrue => exact aborted
      case isFalse => simp [McpWorker.aborted] at aborted
    case closeStream => exact .inr (.inl rfl)
    case closeSubscription => exact .inl aborted
    case cancel delay wait => exact .inr (.inl rfl)

end Reasons

theorem run_explained {initial : McpWorker}
    (fresh : initial.cancellations.cancelledBeforeOpen = .empty)
    (idle : initial.requests = .empty)
    (registered : ∀ key, initial.Registered key) (events : List McpEvent) :
    Explained initial events := by
  induction events using List.reverseRecOn with
  | nil =>
    constructor
    · intro key expiresAt found
      rw [run_nil, fresh] at found
      cases found
    · intro key aborted
      unfold McpWorker.aborted at aborted
      rw [run_nil, idle] at aborted
      cases aborted
  | append_singleton events event induction =>
    have earlier : ∀ key, (∃ event ∈ events, withdraws key event) →
        ∃ other ∈ events ++ [event], withdraws key other := by
      intro key ⟨other, member, withdrawn⟩
      exact ⟨other, mem_append_left _ member, withdrawn⟩
    have now : ∀ key, withdraws key event → ∃ other ∈ events ++ [event],
        withdraws key other := by
      intro key withdrawn
      exact ⟨event, mem_append_right _ (mem_singleton.mpr rfl), withdrawn⟩
    constructor
    · intro key expiresAt found
      rw [run_append, run_cons, run_nil] at found
      rcases step_tombstone found with withdrawn | old
      · exact now key withdrawn
      · exact earlier key (induction.tombstones key expiresAt old)
    · intro key aborted
      rw [run_append, run_cons, run_nil] at aborted
      rcases step_aborted (run_registered (registered key) events) aborted
        with old | withdrawn | starts
      · rcases induction.aborted key old with withdrawn | refused
        · exact .inl (earlier key withdrawn)
        · right
          obtain ⟨before, kind, room, delay, wait, after, split, failing⟩ :=
            refused
          refine ⟨before, kind, room, delay, wait, after ++ [event], ?_,
            failing⟩
          rw [split, append_assoc, cons_append]
      · exact .inl (now key withdrawn)
      · obtain ⟨kind, room, delay, wait, rfl, reason⟩ := starts
        rcases reason with tombstone | failing
        · left
          obtain ⟨expiresAt, stored⟩ := Option.isSome_iff_exists.mp tombstone
          exact earlier key (induction.tombstones key expiresAt stored)
        · right
          exact ⟨events, kind, room, delay, wait, [], rfl, failing⟩

/-- What every cancellation of a run achieves. -/
structure Cancels (initial : McpWorker) (events : List McpEvent) : Prop where
  /-- From the cancellation of an identity in use on, no call is sent for it
  and it has no subscription. -/
  inUse : ∀ before key delay wait after,
    events = before ++ .cancel key delay wait :: after →
    key ∈ (run step initial before).used →
    (run step initial events).dispatchesOf key =
        (run step initial before).dispatchesOf key ∧
      key ∉ (run step initial events).subscriptions
  /-- So it is when the request starts less than the lifetime of a tombstone
  after the cancellation. -/
  early : ∀ before key delay wait after,
    events = before ++ .cancel key delay wait :: after →
    key ∉ (run step initial before).used →
    (∀ middle kind room pause hold rest,
      after = middle ++ .start key kind room pause hold :: rest →
      (run step initial (before ++ .cancel key delay wait ::
          (middle ++ [.start key kind room pause hold]))).clock <
        (run step initial (before ++ [.cancel key delay wait])).clock +
          initial.cancellations.tombstoneTtlMs) →
    (run step initial events).dispatchesOf key =
        (run step initial before).dispatchesOf key ∧
      key ∉ (run step initial events).subscriptions
  settled : ∀ before key delay wait after call,
    events = before ++ .cancel key delay wait :: after →
    (run step initial before).pending.get? key = some call →
    (call, .cancelled) ∈ (run step initial
      (before ++ [.cancel key delay wait])).settlements
  aborted : ∀ key, (run step initial events).aborted key = true →
    (∃ event ∈ events, withdraws key event) ∨ Refused initial events key

theorem run_lifetime {initial : McpWorker} (events : List McpEvent) :
    (run step initial events).cancellations.tombstoneTtlMs =
    initial.cancellations.tombstoneTtlMs := by
  induction events generalizing initial with
  | nil => rfl
  | cons event events induction =>
    rw [run_cons, induction]
    exact step_lifetime

/-- When every cancellation meets a request which looks for it, cancellations
of response streams hold in every run. -/
theorem run_cancels {clock : Nat} {tombstoneTtlMs : Option Int}
    {maximumTombstones : Option Int} {events : List McpEvent} (meets : Meets
    step (fun worker event => worker.answered event = true) (new clock
    tombstoneTtlMs maximumTombstones) events) : Cancels
    (new clock tombstoneTtlMs maximumTombstones) events := by
  have registered : ∀ key (before : List McpEvent),
      (run step (new clock tombstoneTtlMs maximumTombstones) before).Registered
      key :=
    fun key before => run_registered new_registered before
  constructor
  · intro before key delay wait after split used
    rw [split] at meets ⊢
    obtain ⟨-, reaches, -⟩ := meets_append.mp meets
    have quiet : ((run step (new clock tombstoneTtlMs maximumTombstones)
        before).handleControl key delay wait).Quiet key :=
      handleControl_quiet (registered key before) used reaches
    obtain ⟨last, same⟩ := run_quiet quiet after
    rw [run_append, run_cons]
    refine ⟨same.trans ?_, last.closed⟩
    unfold dispatchesOf
    rw [handleControl_dispatches]
  · intro before key delay wait after split fresh early
    rw [split] at meets ⊢
    obtain ⟨-, -, rest⟩ := meets_append.mp meets
    have armed : ((run step (new clock tombstoneTtlMs maximumTombstones)
        before).handleControl key delay wait).Armed key _ :=
      handleControl_armed (registered key before) fresh
    have next : ((run step (new clock tombstoneTtlMs maximumTombstones)
        before).step (.cancel key delay wait)).Registered key :=
      step_registered (registered key before)
    have quiet := run_armed next armed rest (by
      intro middle kind room pause hold late same
      have unexpired := early middle kind room pause hold late same
      simp only [run_append, run_cons, run_nil] at unexpired ⊢
      rw [run_lifetime]
      exact unexpired)
    rw [run_append, run_cons]
    refine ⟨quiet.1.trans ?_, quiet.2⟩
    unfold dispatchesOf step
    rw [handleControl_dispatches]
  · intro before key delay wait after call split pending
    rw [run_append, run_cons, run_nil]
    exact handleControl_settles pending
  · exact (run_explained rfl rfl (fun key => new_registered) events).aborted

/-- A streamed call is cancelled while it is pending, another one and a
subscription when it is not, and a third one before it starts, beyond the
single tombstone there is room for. -/
def cancelledStreams : List McpEvent :=
  [.start "first" .streamed true 0 0, .callTool "first" 1 true true,
    .cancel "first" 1 0, .finish "first", .start "list" .subscription true 0 0,
    .cancel "list" 0 0, .cancel "second" 1 1, .cancel "third" 0 0,
    .start "third" .streamed true 2 3, .callTool "third" 2 true true,
    .start "second" .streamed true 0 0, .callTool "second" 3 true true]

theorem cancelledStreams_cancels :
    Cancels (new 1000 (some 60000) (some 1)) cancelledStreams :=
  run_cancels (by decide)

def cancelledPrompt : List McpEvent :=
  [.start "prompt" .daemonBacked true 0 0, .cancel "prompt" 0 0,
    .callTool "prompt" 1 true true]

theorem cancelledPrompt_dispatches :
    ¬ Cancels (new 1000 none none) cancelledPrompt := by
  intro claimed
  obtain ⟨same, -⟩ := claimed.inUse (cancelledPrompt.take 1) "prompt" 0 0
    (cancelledPrompt.drop 2) rfl (by decide)
  exact absurd same (by decide)

end McpWorker

end MachineBridge.Mcp
