import MachineBridge.Pending.Registry

/-!
# What the registry owns

The invariant of the pending-call registry: its two indexes agree, its limits
hold, every promise is held by one record or settled once, and every record
owns one live timer.  An operation replaces a record and its timer, adds a
record, or takes one out.
-/

namespace MachineBridge.Pending

open Foundation Shared List

namespace PendingCallRecord

section

variable (record : PendingCallRecord)

/-- What neither a reconnect nor a redelivery changes. -/
def identity : PendingCallRecord :=
  { record with
    socket := none
    reconnectTimeout := none
    reconnectDeadlineAt := none
    timeout := none
    deadlineAt := 0
    remainingTimeoutMs := 0
    provenMissingRedeliveryChannel := none }

def timerKind : TimerKind :=
  if record.socket.isSome then .operation else .reconnect

def handle : TimerKind → Option TimerHandle
  | .operation => record.timeout
  | .reconnect => record.reconnectTimeout

/-- A record holds a timer in the slot of its own kind only. -/
def Holds (timer : TimerHandle) : Prop :=
  ∀ kind, record.handle kind =
    if kind = record.timerKind then some timer else none

end

/-- Deadlines are at most so far ahead of the clock. -/
structure Timely (now : Rat) (record : PendingCallRecord) : Prop where
  original : record.originalDeadlineAt ≤ now + maximumRelayToolTimeoutMs
  deadline : record.deadlineAt ≤
    now + (maximumRelayToolTimeoutMs + reconnectResultDeliveryGraceMs : Nat)

theorem Timely.later {now later : Rat} {record : PendingCallRecord}
    (timely : record.Timely now) (order : now ≤ later) :
    record.Timely later where
  original := timely.original.trans (add_le_add_left order _)
  deadline := timely.deadline.trans (add_le_add_left order _)

section Identity

variable {left right : PendingCallRecord}
  (same : left.identity = right.identity)

include same

theorem identity_id : left.id = right.id := (congrArg (·.id) same :)

theorem identity_tool : left.tool = right.tool := (congrArg (·.tool) same :)

theorem identity_settlement : left.settlement = right.settlement :=
  (congrArg (·.settlement) same :)

theorem identity_startedAt : left.startedAt = right.startedAt :=
  (congrArg (·.startedAt) same :)

theorem identity_redelivery :
    left.redeliverAfterProvenMissing = right.redeliverAfterProvenMissing :=
  (congrArg (·.redeliverAfterProvenMissing) same :)

theorem identity_requestKey : left.requestKey = right.requestKey :=
  (congrArg (·.requestKey) same :)

theorem identity_isReadJobOf (accountId : String) :
    left.isReadJobOf accountId = right.isReadJobOf accountId :=
  congrArg (fun record => record.isReadJobOf accountId) same

end Identity

theorem Holds.slots {record : PendingCallRecord} {timer : TimerHandle}
    (holds : record.Holds timer) : (record.socket.isSome = true ∧
      record.timeout = some timer ∧ record.reconnectTimeout = none) ∨
    (record.socket.isSome = false ∧ record.timeout = none ∧
      record.reconnectTimeout = some timer) := by
  have operation := holds .operation
  have reconnect := holds .reconnect
  simp only [handle, timerKind] at operation reconnect
  cases bound : record.socket.isSome <;>
    simp [bound] at operation reconnect <;>
    simp [operation, reconnect]

end PendingCallRecord

/-- The limits of a registry, by the calls it holds. -/
structure WithinCapacity (config : ToolCallCapacityConfig)
    (records : List PendingCallRecord) : Prop where
  total : records.length ≤ config.maximum
  ordinary : (records.countP fun record =>
    !config.reservedTools.contains record.tool) ≤ config.ordinaryMaximum
  readJobs : ∀ accountId,
    pendingReadJobCallsForAccount records accountId ≤
      maxPendingReadJobCallsPerAccount

namespace PendingCallRegistry

/-- The indexes describe the same records. -/
structure Indexed (registry : PendingCallRegistry) : Prop where
  ids : ∀ id record, (id, record) ∈ registry.byId.entries → record.id = id
  keys : ∀ requestKey id, (requestKey, id) ∈ registry.byRequestKey.entries ↔
    ∃ record, (id, record) ∈ registry.byId.entries ∧
      record.requestKey = some requestKey

/-- A promise is held by one record until it is settled. -/
structure Promised (registry : PendingCallRegistry) : Prop where
  once : (registry.settlements.map (·.promise)).Nodup
  issued : ∀ id record, (id, record) ∈ registry.byId.entries →
    record.settlement < registry.nextPromise
  distinct : ∀ id record other, (id, record) ∈ registry.byId.entries →
    ∀ another, (other, another) ∈ registry.byId.entries →
      record.settlement = another.settlement → id = other
  settled : ∀ promise, promise ∈ registry.settlements.map (·.promise) ↔
    promise < registry.nextPromise ∧
      ∀ id record, (id, record) ∈ registry.byId.entries →
        record.settlement ≠ promise

/-- A record owns one live timer, and a live timer has an owner. -/
structure Timed (registry : PendingCallRegistry) : Prop where
  owned : ∀ id record, (id, record) ∈ registry.byId.entries →
    ∃ timer, record.Holds timer ∧
      ⟨timer, id, record.timerKind⟩ ∈ registry.deadlines.timers
  live : ∀ timer ∈ registry.deadlines.timers, ∃ record,
    (timer.callId, record) ∈ registry.byId.entries ∧
      record.handle timer.kind = some timer.handle
  distinct : (registry.deadlines.timers.map (·.handle)).Nodup
  fresh : ∀ timer ∈ registry.deadlines.timers,
    timer.handle < registry.deadlines.nextTimer

structure Invariant (clock : Clock) (config : ToolCallCapacityConfig)
    (registry : PendingCallRegistry) : Prop where
  capacity : registry.capacity = config
  indexed : registry.Indexed
  within : WithinCapacity config registry.byId.values
  promised : registry.Promised
  timed : registry.Timed
  timely : ∀ id record, (id, record) ∈ registry.byId.entries →
    record.Timely (registry.deadlines.now clock)

variable {id : String} {record : PendingCallRecord}
  {registry : PendingCallRegistry}

theorem Timed.callId_iff (timed : registry.Timed)
    (member : (id, record) ∈ registry.byId.entries) {handle : TimerHandle}
    (holds : record.Holds handle) {timer : PendingTimer}
    (live : timer ∈ registry.deadlines.timers) :
    timer.callId = id ↔ timer = ⟨handle, id, record.timerKind⟩ := by
  constructor
  · intro same
    obtain ⟨owner, stored, slot⟩ := timed.live timer live
    rw [same] at stored
    have equal := Record.value_unique stored member
    subst equal
    rw [holds timer.kind] at slot
    split at slot
    case isTrue kind =>
      have number := Option.some.inj slot
      cases timer
      simp only at same kind number
      rw [same, kind, number]
    case isFalse => cases slot
  · rintro rfl
    rfl

theorem Timed.handle_iff (timed : registry.Timed)
    (member : (id, record) ∈ registry.byId.entries) {handle : TimerHandle}
    (holds : record.Holds handle) {timer : PendingTimer}
    (live : timer ∈ registry.deadlines.timers) :
    timer.handle = handle ↔ timer.callId = id := by
  obtain ⟨other, alsoHolds, own⟩ := timed.owned id record member
  have equal : other = handle := by
    have first := alsoHolds record.timerKind
    have second := holds record.timerKind
    rw [first, if_pos rfl, if_pos rfl] at second
    exact Option.some.inj second
  subst equal
  rw [timed.callId_iff member holds live]
  constructor
  · intro same
    exact inj_on_of_nodup_map timed.distinct live own same
  · rintro rfl
    rfl

theorem Timed.clear (timed : registry.Timed)
    (member : (id, record) ∈ registry.byId.entries) :
    (registry.deadlines.clear record).timers =
    registry.deadlines.timers.filter (·.callId != id) := by
  obtain ⟨handle, holds, -⟩ := timed.owned id record member
  have cleared : registry.deadlines.clear record =
      registry.deadlines.clearTimeout (some handle) := by
    rcases holds.slots with ⟨-, timeout, reconnect⟩ |
      ⟨-, timeout, reconnect⟩ <;>
    simp [PendingCallDeadlines.clear, timeout, reconnect]
  rw [cleared, PendingCallDeadlines.clearTimeout]
  apply filter_congr
  intro timer live
  have same := timed.handle_iff member holds live
  rw [Bool.eq_iff_iff, bne_iff_ne, bne_iff_ne, ne_eq, Option.some.injEq, same]

theorem Timed.timers_of_record (timed : registry.Timed)
    (member : (id, record) ∈ registry.byId.entries) : ∃ handle,
    record.Holds handle ∧ registry.deadlines.timers.filter (·.callId == id) =
    [⟨handle, id, record.timerKind⟩] := by
  obtain ⟨handle, holds, own⟩ := timed.owned id record member
  refine ⟨handle, holds, ?_⟩
  have nodup : (registry.deadlines.timers.filter (·.callId == id)).Nodup :=
    timed.distinct.of_map.filter _
  have permutation : (registry.deadlines.timers.filter (·.callId == id)).Perm
      [⟨handle, id, record.timerKind⟩] := by
    rw [perm_ext_iff_of_nodup nodup (nodup_singleton _)]
    intro timer
    rw [List.mem_filter, beq_iff_eq, mem_singleton]
    constructor
    · rintro ⟨live, same⟩
      exact (timed.callId_iff member holds live).mp same
    · rintro rfl
      exact ⟨own, rfl⟩
  exact perm_singleton.mp permutation

theorem Timed.timers_of_missing (timed : registry.Timed)
    (missing : registry.byId.get? id = none) :
    registry.deadlines.timers.filter (·.callId == id) = [] := by
  rw [filter_eq_nil_iff]
  intro timer live same
  obtain ⟨record, stored, -⟩ := timed.live timer live
  have equal : timer.callId = id := beq_iff_eq.mp same
  rw [equal] at stored
  exact Record.get?_eq_none.mp missing (Record.mem_keys.mpr ⟨_, stored⟩)

end PendingCallRegistry

end MachineBridge.Pending
