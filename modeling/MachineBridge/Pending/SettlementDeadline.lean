import MachineBridge.Pending.RegistryRun

/-!
# The absolute settlement deadline

A reconnect may extend the settlement of a call to the end of one fixed grace
after its original deadline.  Re-arming rounds the remaining time up to whole
milliseconds and adds it to a reading of the clock, so the timer is due by the
end of the grace only where nothing is rounded and no time passes in between.
-/

namespace MachineBridge.Pending

open Foundation Shared PendingCallDeadlines

variable {clock : Clock} {config : ToolCallCapacityConfig}

namespace PendingCallRecord

section

variable (record : PendingCallRecord)

/-- The original deadline and the fixed result-delivery grace. -/
def graceEnd : Rat :=
  record.originalDeadlineAt + reconnectResultDeliveryGraceMs

/-- The timer is due by the end of the grace. -/
def SettlesWithinGrace : Prop :=
  ∀ due ∈ dueAt record, due ≤ record.graceEnd

end

instance (record : PendingCallRecord) : Decidable record.SettlesWithinGrace :=
  inferInstanceAs (Decidable (∀ due ∈ dueAt record, due ≤ record.graceEnd))

/-- The same of the deadline kept for the next reconnect. -/
structure Punctual (record : PendingCallRecord) : Prop where
  within : record.SettlesWithinGrace
  deadline : record.deadlineAt ≤ record.graceEnd

theorem settlesWithinGrace_bound {record : PendingCallRecord}
    (bound : record.socket.isSome = true) :
    record.SettlesWithinGrace ↔ record.deadlineAt ≤ record.graceEnd := by
  simp [SettlesWithinGrace, dueAt, bound]

theorem settlesWithinGrace_detached {record : PendingCallRecord}
    (detached : record.socket.isSome = false) {due : Rat}
    (armed : record.reconnectDeadlineAt = some due) :
    record.SettlesWithinGrace ↔ due ≤ record.graceEnd := by
  simp [SettlesWithinGrace, dueAt, detached, armed]

end PendingCallRecord

/-- A positive whole number of milliseconds before a deadline. -/
def WholeBefore (deadline now : Rat) : Prop :=
  1 ≤ deadline - now ∧ (⌈deadline - now⌉ : Rat) = deadline - now

instance (deadline now : Rat) : Decidable (WholeBefore deadline now) :=
  inferInstanceAs (Decidable (_ ∧ _))

/-- Rounding the rest of a deadline up and adding it to a later reading stays
within the deadline only where nothing is rounded and no time has passed. -/
theorem rearmed_within_iff {deadline before after : Rat}
    (order : before ≤ after) :
    after + roundedUp (deadline - before) ≤ deadline ↔ after = before ∧
    WholeBefore deadline before := by
  have above := le_roundedUp (deadline - before)
  constructor
  · intro within
    have same : after = before := le_antisymm (by linarith) order
    have whole : (roundedUp (deadline - before) : Rat) = deadline - before :=
      le_antisymm (by linarith) above
    exact ⟨same, roundedUp_eq_iff.mp whole⟩
  · rintro ⟨rfl, whole⟩
    have equal := roundedUp_eq_iff.mpr whole
    linarith

namespace PendingCallRegistry

def SettlesWithinGrace (registry : PendingCallRegistry) : Prop :=
  ∀ record ∈ registry.byId.values, record.SettlesWithinGrace

instance (registry : PendingCallRegistry) :
    Decidable registry.SettlesWithinGrace :=
  inferInstanceAs (Decidable (∀ record ∈ registry.byId.values,
    record.SettlesWithinGrace))

/-- The readings with which `rebindInstance` moves a call: the one the rest is
computed from is a whole time before the end of the grace, and no time passes
until the timer is armed. -/
def RebindsInStep (clock : Clock) (deadlines : PendingCallDeadlines)
    (record : PendingCallRecord) : Prop :=
  let reads := deadlines.reads + quietReads record
  clock.reading (reads + 2) = clock.reading (reads + 1) ∧
    WholeBefore record.graceEnd (clock.reading (reads + 1))

/-- The readings with which `detachSocket` arms the reconnect timer: the
reconnect grace ends in time, or the rest does as it does on a rebind. -/
def DetachesInStep (clock : Clock) (maximumGrace : Int)
    (deadlines : PendingCallDeadlines) (record : PendingCallRecord) : Prop :=
  clock.reading (deadlines.reads + 2) + maximumGrace ≤ record.graceEnd ∨
    (clock.reading (deadlines.reads + 2) =
        clock.reading (deadlines.reads + 1) ∧
      WholeBefore record.graceEnd (clock.reading (deadlines.reads + 1)))

/-- The condition of one pass of a re-arming loop. -/
def VisitsInStep (selects : PendingCallRecord → Bool)
    (condition : PendingCallDeadlines → PendingCallRecord → Prop)
    (loop : Rearming) (id : String) : Prop :=
  ∀ record ∈ loop.registry.byId.get? id, selects record = true →
    condition loop.registry.deadlines record

variable {record : PendingCallRecord} {deadlines : PendingCallDeadlines}
  {socket : DaemonChannel} {maximumGrace : Int}

theorem max_graceEnd (punctual : record.Punctual) : max record.deadlineAt
    (record.originalDeadlineAt + reconnectResultDeliveryGraceMs) =
    record.graceEnd :=
  max_eq_right punctual.deadline

theorem rebindRecord_within_iff {timer : TimerHandle}
    (holds : record.Holds timer) (timely : record.Timely (deadlines.now clock))
    (punctual : record.Punctual) :
    (rebindRecord clock socket deadlines record).record.SettlesWithinGrace ↔
    RebindsInStep clock deadlines record := by
  rw [rebindRecord_eq holds timely,
    PendingCallRecord.settlesWithinGrace_bound rfl]
  simp only [max_graceEnd punctual]
  exact rearmed_within_iff (clock.reading_le (Nat.le_succ _))

theorem rebindRecord_punctual {timer : TimerHandle}
    (holds : record.Holds timer) (timely : record.Timely (deadlines.now clock))
    (punctual : record.Punctual)
    (inStep : RebindsInStep clock deadlines record) :
    (rebindRecord clock socket deadlines record).record.Punctual := by
  have within :
      (rebindRecord clock socket deadlines record).record.SettlesWithinGrace :=
    (rebindRecord_within_iff holds timely punctual).mpr inStep
  refine ⟨within, ?_⟩
  rw [rebindRecord_eq holds timely] at within ⊢
  exact (PendingCallRecord.settlesWithinGrace_bound rfl).mp within

theorem detachRecord_within_iff (positive : 1 ≤ maximumGrace)
    (limit : maximumGrace ≤ reconnectGraceMs)
    (bare : record.reconnectTimeout = none) (punctual : record.Punctual) :
    (detachRecord clock maximumGrace deadlines record).record.SettlesWithinGrace
    ↔ DetachesInStep clock maximumGrace deadlines record := by
  rw [detachRecord_eq positive limit bare,
    PendingCallRecord.settlesWithinGrace_detached rfl rfl]
  simp only [max_graceEnd punctual, Int.cast_min]
  have order : clock.reading (deadlines.reads + 1) ≤
      clock.reading (deadlines.reads + 2) := clock.reading_le (Nat.le_succ _)
  rw [DetachesInStep, ← rearmed_within_iff order, ← min_add_add_left,
    min_le_iff]
  rfl

theorem detachRecord_punctual (positive : 1 ≤ maximumGrace)
    (limit : maximumGrace ≤ reconnectGraceMs)
    (bare : record.reconnectTimeout = none) (punctual : record.Punctual)
    (inStep : DetachesInStep clock maximumGrace deadlines record) :
    (detachRecord clock maximumGrace deadlines record).record.Punctual := by
  refine ⟨(detachRecord_within_iff positive limit bare punctual).mpr inStep,
    ?_⟩
  rw [detachRecord_eq positive limit bare]
  exact le_of_eq (max_graceEnd punctual)

def Punctual (registry : PendingCallRegistry) : Prop :=
  ∀ id record, (id, record) ∈ registry.byId.entries → record.Punctual

theorem Punctual.settlesWithinGrace {registry : PendingCallRegistry}
    (punctual : registry.Punctual) : registry.SettlesWithinGrace := by
  intro record stored
  obtain ⟨id, member⟩ := Record.mem_values.mp stored
  exact (punctual id record member).within

/-- The condition of a pass decides about the record it re-arms. -/
structure Decides (clock : Clock) (config : ToolCallCapacityConfig)
    (arm : PendingCallDeadlines → PendingCallRecord → Armed)
    (selects : PendingCallRecord → Bool)
    (condition : PendingCallDeadlines → PendingCallRecord → Prop) :
    Prop where
  rearmed : ∀ (registry : PendingCallRegistry) id record,
    registry.Invariant clock config →
    (id, record) ∈ registry.byId.entries → selects record = true →
    Rearmed clock registry.deadlines record (arm registry.deadlines record)
  kept : ∀ (registry : PendingCallRegistry) id record,
    registry.Invariant clock config →
    (id, record) ∈ registry.byId.entries → selects record = true →
    record.Punctual → condition registry.deadlines record →
    (arm registry.deadlines record).record.Punctual
  needed : ∀ (registry : PendingCallRegistry) id record,
    registry.Invariant clock config →
    (id, record) ∈ registry.byId.entries → selects record = true →
    record.Punctual →
    (arm registry.deadlines record).record.SettlesWithinGrace →
    condition registry.deadlines record

section Loop

variable {arm : PendingCallDeadlines → PendingCallRecord → Armed}
  {selects : PendingCallRecord → Bool}
  {condition : PendingCallDeadlines → PendingCallRecord → Prop}

variable {loop : Rearming} {ids : List String}

section

variable (decides : Decides clock config arm selects condition)
include decides

theorem rearm_get? (sound : Sound clock config loop) (id other : String) :
    (rearm arm selects loop id).registry.byId.get? other = if other = id then
    (loop.registry.byId.get? id).map fun record => if selects record then
    (arm loop.registry.deadlines record).record else record else
    loop.registry.byId.get? other := by
  obtain ⟨invariant, error⟩ := sound
  cases found : loop.registry.byId.get? id with
  | none =>
    simp only [rearm, error, found, Option.map_none]
    split
    case isTrue equal => rw [equal, found]
    case isFalse => rfl
  | some record =>
    simp only [rearm, error, found, Option.map_some]
    split
    case isTrue selected =>
      have member := Record.get?_eq_some.mp found
      have rearmed := decides.rearmed loop.registry id record invariant
        member selected
      have same : (arm loop.registry.deadlines record).record.id = id := by
        rw [PendingCallRecord.identity_id rearmed.same, invariant.idOf member]
      simp only [Rearming.visit, store, same, Record.get?_set]
    case isFalse =>
      split
      case isTrue equal => rw [equal, found]
      case isFalse => rfl

theorem run_rearm_get?
    (sound : Sound clock config loop) {id : String} (absent : id ∉ ids) :
    (run (rearm arm selects) loop ids).registry.byId.get? id =
    loop.registry.byId.get? id := by
  induction ids generalizing loop with
  | nil => rfl
  | cons other ids induction =>
    rw [List.mem_cons, not_or] at absent
    rw [run_cons, induction (rearm_sound decides.rearmed loop other sound)
      absent.2, rearm_get? decides sound, if_neg absent.1]

theorem rearm_punctual {id : String} (sound : Sound clock config loop)
    (punctual : loop.registry.Punctual)
    (inStep : VisitsInStep selects condition loop id) :
    (rearm arm selects loop id).registry.Punctual := by
  intro other stored current
  have found := Record.get?_eq_some.mpr current
  rw [rearm_get? decides sound] at found
  split at found
  case isFalse => exact punctual other stored (Record.get?_eq_some.mp found)
  case isTrue equal =>
    obtain ⟨record, old, same⟩ := Option.map_eq_some_iff.mp found
    have member := Record.get?_eq_some.mp old
    subst same
    split
    case isTrue selected =>
      exact decides.kept _ id record sound.invariant member selected
        (punctual id record member) (inStep record old selected)
    case isFalse => exact punctual id record member

theorem run_rearm_iff
    (sound : Sound clock config loop) (punctual : loop.registry.Punctual)
    (distinct : ids.Nodup) :
    (run (rearm arm selects) loop ids).registry.SettlesWithinGrace ↔
    Meets (rearm arm selects) (VisitsInStep selects condition) loop ids := by
  induction ids generalizing loop with
  | nil =>
    constructor
    · intro _
      trivial
    · intro _
      exact punctual.settlesWithinGrace
  | cons id ids induction =>
    obtain ⟨absent, distinct⟩ := List.nodup_cons.mp distinct
    have next := rearm_sound decides.rearmed loop id sound
    constructor
    · intro within
      have inStep : VisitsInStep selects condition loop id := by
        intro record found selected
        have member := Record.get?_eq_some.mp found
        apply decides.needed _ id record sound.invariant member selected
          (punctual id record member)
        have final := run_rearm_get? decides next absent
        rw [rearm_get? decides sound, if_pos rfl, found, Option.map_some,
          if_pos selected] at final
        exact within _ (Record.mem_values.mpr
          ⟨id, Record.get?_eq_some.mp final⟩)
      exact ⟨inStep, (induction next
        (rearm_punctual decides sound punctual inStep) distinct).mp within⟩
    · rintro ⟨inStep, rest⟩
      exact (induction next (rearm_punctual decides sound punctual inStep)
        distinct).mpr rest

theorem run_rearm_punctual
    (sound : Sound clock config loop) (punctual : loop.registry.Punctual)
    (meets : Meets (rearm arm selects) (VisitsInStep selects condition) loop
    ids) : (run (rearm arm selects) loop ids).registry.Punctual := by
  have preserved : ∀ loop id, VisitsInStep selects condition loop id →
      Sound clock config loop ∧ loop.registry.Punctual →
      Sound clock config (rearm arm selects loop id) ∧
      (rearm arm selects loop id).registry.Punctual := by
    rintro loop id inStep ⟨sound, punctual⟩
    exact ⟨rearm_sound decides.rearmed loop id sound,
      rearm_punctual decides sound punctual inStep⟩
  exact (run_induction_of_meets preserved ⟨sound, punctual⟩ meets).2

end

end Loop

theorem detachRecord_decides (positive : 1 ≤ maximumGrace)
    (limit : maximumGrace ≤ reconnectGraceMs) : Decides clock config
    (detachRecord clock maximumGrace) (·.socket == some socket)
    (DetachesInStep clock maximumGrace) := by
  have slot : ∀ (registry : PendingCallRegistry) id record,
      registry.Invariant clock config → (id, record) ∈ registry.byId.entries →
      (record.socket == some socket) = true →
      record.reconnectTimeout = none := by
    intro registry id record invariant member selected
    obtain ⟨timer, holds, -⟩ := invariant.timed.owned id record member
    have bound : record.socket = some socket := by simpa using selected
    rcases holds.slots with ⟨-, -, bare⟩ | ⟨detached, -, -⟩
    · exact bare
    · simp [bound] at detached
  constructor
  · exact detachRecord_arms positive limit
  · intro registry id record invariant member selected punctual inStep
    exact detachRecord_punctual positive limit
      (slot registry id record invariant member selected) punctual inStep
  · intro registry id record invariant member selected punctual within
    exact (detachRecord_within_iff positive limit
      (slot registry id record invariant member selected) punctual).mp within

theorem rebindRecord_decides {daemonInstanceId : String} : Decides clock config
    (rebindRecord clock socket) (rebinds daemonInstanceId socket)
    (RebindsInStep clock) := by
  constructor
  · exact rebindRecord_arms daemonInstanceId socket
  · intro registry id record invariant member _ punctual inStep
    obtain ⟨timer, holds, -⟩ := invariant.timed.owned id record member
    exact rebindRecord_punctual holds (invariant.timely id record member)
      punctual inStep
  · intro registry id record invariant member _ punctual within
    obtain ⟨timer, holds, -⟩ := invariant.timed.owned id record member
    exact (rebindRecord_within_iff holds
      (invariant.timely id record member) punctual).mp within

end PendingCallRegistry

namespace PendingCalls

open PendingCallRegistry

/-- The clock readings under which an event keeps every call within its grace:
a new call is armed within the grace of its start, and every re-armed call is
in step. -/
def InStep (clock : Clock) (calls : PendingCalls) : PendingEvent → Prop
  | .register input =>
    match calls.registry.assertCanRegister clock input with
    | .error _ => True
    | .ok _ =>
      clock.reading (calls.registry.deadlines.reads + 2) ≤
        clock.reading (calls.registry.deadlines.reads + 1) +
          reconnectResultDeliveryGraceMs
  | .detachSocket socket graceMs =>
    match boundedPendingDelayMs graceMs reconnectGraceMs with
    | .error _ => True
    | .ok maximumGrace =>
      Meets (rearm (detachRecord clock maximumGrace)
          (·.socket == some socket))
        (VisitsInStep (·.socket == some socket)
          (DetachesInStep clock maximumGrace))
        ⟨calls.registry, [], none⟩ calls.registry.byId.keys
  | .rebindInstance daemonInstanceId socket =>
    daemonInstanceId = "" ∨
      Meets (rearm (rebindRecord clock socket)
          (rebinds daemonInstanceId socket))
        (VisitsInStep (rebinds daemonInstanceId socket)
          (RebindsInStep clock))
        ⟨calls.registry, [], none⟩ calls.registry.byId.keys
  | _ => True

/-- What the condition preserves. -/
structure InOrder (clock : Clock) (config : ToolCallCapacityConfig)
    (calls : PendingCalls) : Prop where
  invariant : calls.registry.Invariant clock config
  punctual : calls.registry.Punctual

section Steps

variable {maximum reserved : Nat} {calls : PendingCalls}

theorem finish_punctual (order : InOrder clock config calls) (id : String)
    (outcome : PendingCallOutcome) :
    (calls.registry.finish id outcome).1.Punctual := by
  cases found : calls.registry.byId.get? id with
  | none =>
    simp only [finish, found]
    exact order.punctual
  | some record =>
    have member := Record.get?_eq_some.mp found
    rw [finish_of_record member]
    intro other stored current
    exact order.punctual other stored
      ((mem_settled order.invariant member).mp current).2

theorem register_iff
    (order : InOrder clock (toolCallCapacityConfig maximum reserved) calls)
    (input : RegisterPendingCall) : ((InStep clock calls (.register input)) →
      (calls.registry.register clock input).1.Punctual) ∧
    ((calls.registry.register clock input).1.SettlesWithinGrace →
      InStep clock calls (.register input)) := by
  cases checked : calls.registry.assertCanRegister clock input with
  | error error =>
    simp only [InStep, PendingCallRegistry.register, checked]
    exact ⟨fun _ => order.punctual, fun _ => trivial⟩
  | ok timeoutMs =>
    simp only [InStep, PendingCallRegistry.register, checked]
    have checks := accepted_of_ok checked
    have accepted : calls.registry.tick.Accepted input timeoutMs :=
      ⟨checks.positive, checks.limit, checks.admitted, checks.newId,
        checks.newKey, checks.readJobs⟩
    have due :
        (calls.registry.tick.registered clock input timeoutMs).deadlineAt ≤
        (calls.registry.tick.registered clock input timeoutMs).graceEnd ↔
        clock.reading (calls.registry.deadlines.reads + 2) ≤
        clock.reading (calls.registry.deadlines.reads + 1) +
        reconnectResultDeliveryGraceMs := by
      change clock.reading (calls.registry.deadlines.reads + 2) + timeoutMs ≤
        clock.reading (calls.registry.deadlines.reads + 1) + timeoutMs +
          reconnectResultDeliveryGraceMs ↔ _
      constructor <;> intro bound <;> linarith
    constructor
    · intro soon id stored current
      rcases (mem_add accepted).mp current with ⟨-, rfl⟩ | old
      · have deadline := due.mpr soon
        exact ⟨(PendingCallRecord.settlesWithinGrace_bound rfl).mpr deadline,
          deadline⟩
      · exact order.punctual id stored old
    · intro within
      apply due.mp
      apply (PendingCallRecord.settlesWithinGrace_bound rfl).mp
      apply within
      exact Record.mem_values.mpr ⟨_, (mem_add accepted).mpr (.inl ⟨rfl, rfl⟩)⟩

theorem detachSocket_iff (order : InOrder clock config calls)
    (socket : DaemonChannel) (graceMs : Rat) :
    ((InStep clock calls (.detachSocket socket graceMs)) →
      (calls.registry.detachSocket clock socket graceMs).1.Punctual) ∧
    ((calls.registry.detachSocket clock socket graceMs).1.SettlesWithinGrace →
      InStep clock calls (.detachSocket socket graceMs)) := by
  cases accepted : boundedPendingDelayMs graceMs reconnectGraceMs with
  | error message =>
    simp only [InStep, PendingCallRegistry.detachSocket, accepted]
    exact ⟨fun _ => order.punctual, fun _ => trivial⟩
  | ok maximumGrace =>
    simp only [InStep, PendingCallRegistry.detachSocket, accepted]
    obtain ⟨-, positive, limit⟩ := boundedPendingDelayMs_ok accepted
    have decides : Decides clock config (detachRecord clock maximumGrace)
        (·.socket == some socket) (DetachesInStep clock maximumGrace) :=
      detachRecord_decides positive limit
    have start : Sound clock config ⟨calls.registry, [], none⟩ :=
      ⟨order.invariant, rfl⟩
    exact ⟨run_rearm_punctual decides start order.punctual,
      (run_rearm_iff decides start order.punctual
        calls.registry.byId.keys_nodup).mp⟩

theorem rebindInstance_iff (order : InOrder clock config calls)
    (daemonInstanceId : String) (socket : DaemonChannel) : ((InStep clock calls
    (.rebindInstance daemonInstanceId socket)) → (calls.registry.rebindInstance
    clock daemonInstanceId socket).1.Punctual) ∧
    ((calls.registry.rebindInstance clock daemonInstanceId
    socket).1.SettlesWithinGrace → InStep clock calls (.rebindInstance
    daemonInstanceId socket)) := by
  simp only [InStep, PendingCallRegistry.rebindInstance]
  split
  case isTrue empty =>
    exact ⟨fun _ => order.punctual, fun _ => .inl (beq_iff_eq.mp empty)⟩
  case isFalse named =>
    have start : Sound clock config ⟨calls.registry, [], none⟩ :=
      ⟨order.invariant, rfl⟩
    constructor
    · rintro (empty | meets)
      · exact absurd (beq_iff_eq.mpr empty) named
      · exact run_rearm_punctual rebindRecord_decides start order.punctual
          meets
    · intro within
      exact .inr ((run_rearm_iff rebindRecord_decides start order.punctual
        calls.registry.byId.keys_nodup).mp within)

theorem step_iff
    (order : InOrder clock (toolCallCapacityConfig maximum reserved) calls)
    (event : PendingEvent) :
    (InStep clock calls event → (calls.step clock event).registry.Punctual) ∧
    ((calls.step clock event).registry.SettlesWithinGrace →
      InStep clock calls event) := by
  cases event with
  | register input =>
    have registered := register_iff order input
    simp only [step, register]
    split
    · exact registered
    · split <;> exact registered
  | resolve id socket value =>
    refine ⟨fun _ => ?_, fun _ => trivial⟩
    simp only [step, PendingCallRegistry.resolve]
    split
    · exact order.punctual
    · split
      · exact order.punctual
      · exact finish_punctual order id _
  | reject id error socket =>
    refine ⟨fun _ => ?_, fun _ => trivial⟩
    simp only [step, PendingCallRegistry.reject]
    split
    · exact order.punctual
    · split
      · exact order.punctual
      · exact finish_punctual order id _
  | cancelRequest requestKey =>
    refine ⟨fun _ => ?_, fun _ => trivial⟩
    simp only [step, cancelRequest]
    split <;> exact order.punctual
  | cancelAuthority revocation =>
    exact ⟨fun _ => order.punctual, fun _ => trivial⟩
  | rejectSocket socket => exact ⟨fun _ => order.punctual, fun _ => trivial⟩
  | rejectSocketIds ids socket fallback beforeReject =>
    exact ⟨fun _ => order.punctual, fun _ => trivial⟩
  | detachSocket socket graceMs => exact detachSocket_iff order socket graceMs
  | rebindInstance daemonInstanceId socket =>
    exact rebindInstance_iff order daemonInstanceId socket
  | expireDue now =>
    refine ⟨fun _ => ?_, fun _ => trivial⟩
    simp only [step, expireDue]
    split <;> exact order.punctual
  | timer handle =>
    refine ⟨fun _ => ?_, fun _ => trivial⟩
    simp only [step, timer]
    split
    · exact order.punctual
    · split
      · exact order.punctual
      · split <;> exact order.punctual
  | abort id =>
    refine ⟨fun _ => ?_, fun _ => trivial⟩
    simp only [step, abort]
    split
    · exact order.punctual
    · split <;> exact order.punctual
  | resume index kept error =>
    refine ⟨fun _ => ?_, fun _ => trivial⟩
    rcases resume_registry calls index kept error with same |
      ⟨id, outcome, finished⟩
    · simp only [step, same]
      exact order.punctual
    · simp only [step, finished]
      exact finish_punctual order id outcome

end Steps

/-- A clock with a step of three quarters of a millisecond, which stands still
during an operation on one call. -/
def fractionalClock : Clock where
  reading := fun count => (count / 3 : Nat) * (3 / 4)
  monotone := by
    intro earlier later order
    have quotient := Nat.div_le_div_right (c := 3) order
    have cast : ((earlier / 3 : Nat) : Rat) ≤ ((later / 3 : Nat) : Rat) :=
      Nat.cast_le.mpr quotient
    linarith

def threeReconnects : List PendingEvent :=
  [.register
      { id := "call_one"
        socket := 1
        daemonInstanceId := some "a"
        tool := "read_file"
        timeoutMs := 50000 },
    .detachSocket 1 120000, .rebindInstance "a" 2,
    .detachSocket 2 120000, .rebindInstance "a" 3,
    .detachSocket 3 120000, .rebindInstance "a" 4]

example : (run (step fractionalClock) (start 32 2)
    threeReconnects).registry.byId.values.map (fun record => record.deadlineAt
    - record.graceEnd) = [3 / 2] := by
  decide +kernel

end PendingCalls

end MachineBridge.Pending
