import MachineBridge.Pending.Ownership

/-!
# The registry keeps its invariant

Arming never throws: a rounded-up remainder stays below the largest delay of a
timer, because deadlines are bounded ahead of the clock.
-/

namespace MachineBridge.Pending

open Foundation Shared List

variable {clock : Clock} {config : ToolCallCapacityConfig}

/-- What a pass of a re-arming loop does to a record and the timers. -/
structure Rearmed (clock : Clock) (deadlines : PendingCallDeadlines)
    (record : PendingCallRecord) (armed : Armed) : Prop where
  error : armed.error = none
  same : armed.record.identity = record.identity
  redelivery : armed.record.provenMissingRedeliveryChannel =
    record.provenMissingRedeliveryChannel
  holds : armed.record.Holds deadlines.nextTimer
  timers : armed.deadlines.timers = (deadlines.clear record).timers ++
    [⟨deadlines.nextTimer, record.id, armed.record.timerKind⟩]
  next : armed.deadlines.nextTimer = deadlines.nextTimer + 1
  reads : deadlines.reads ≤ armed.deadlines.reads
  timely : armed.record.Timely (armed.deadlines.now clock)

namespace WithinCapacity

theorem congr {before after : List PendingCallRecord}
    (same : after.map (·.identity) = before.map (·.identity))
    (within : WithinCapacity config before) : WithinCapacity config after := by
  have lengths : after.length = before.length := by
    simpa using congrArg List.length same
  have counts (condition : PendingCallRecord → Bool)
      (respects : ∀ left right : PendingCallRecord,
        left.identity = right.identity → condition left = condition right) :
      after.countP condition = before.countP condition := by
    induction after generalizing before with
    | nil =>
      cases before with
      | nil => rfl
      | cons => cases same
    | cons record after induction =>
      cases before with
      | nil => cases same
      | cons other before =>
        obtain ⟨head, tail⟩ := List.cons.inj same
        rw [countP_cons, countP_cons, respects _ _ head]
        congr 1
        apply induction tail
        · constructor
          · exact Nat.le_of_succ_le within.total
          · exact (sublist_cons_self other before).countP_le.trans
              within.ordinary
          · intro accountId
            refine le_trans ?_ (within.readJobs accountId)
            simp only [pendingReadJobCallsForAccount]
            split
            · exact Nat.le_refl _
            · exact (sublist_cons_self other before).countP_le
        · simpa using lengths
  constructor
  · rw [lengths]
    exact within.total
  · rw [counts]
    · exact within.ordinary
    · intro left right identity
      rw [PendingCallRecord.identity_tool identity]
  · intro accountId
    have equal : pendingReadJobCallsForAccount after accountId =
        pendingReadJobCallsForAccount before accountId := by
      simp only [pendingReadJobCallsForAccount]
      split
      · rfl
      · apply counts
        intro left right identity
        exact PendingCallRecord.identity_isReadJobOf identity accountId
    rw [equal]
    exact within.readJobs accountId

theorem sublist {before after : List PendingCallRecord}
    (fewer : after.Sublist before) (within : WithinCapacity config before) :
    WithinCapacity config after := by
  constructor
  · exact fewer.length_le.trans within.total
  · exact fewer.countP_le.trans within.ordinary
  · intro accountId
    refine le_trans ?_ (within.readJobs accountId)
    simp only [pendingReadJobCallsForAccount]
    split
    · exact Nat.le_refl _
    · exact fewer.countP_le

end WithinCapacity

namespace PendingCallRegistry

variable {record : PendingCallRecord} {deadlines : PendingCallDeadlines}

theorem Invariant.idOf {registry : PendingCallRegistry}
    (invariant : registry.Invariant clock config) {id : String}
    (member : (id, record) ∈ registry.byId.entries) : record.id = id :=
  invariant.indexed.ids id record member

theorem start_invariant (maximum reservedCapacity : Nat) :
    (new maximum reservedCapacity).Invariant clock
    (toolCallCapacityConfig maximum reservedCapacity) where
  capacity := rfl
  indexed := ⟨by simp [new], by simp [new]⟩
  within := ⟨by simp [new, Record.values], by simp [new, Record.values],
    by simp [new, Record.values, pendingReadJobCallsForAccount]⟩
  promised := ⟨by simp [new], by simp [new], by simp [new], by simp [new]⟩
  timed := ⟨by simp [new], by simp [new], by simp [new], by simp [new]⟩
  timely := by simp [new]

theorem tick_invariant {registry : PendingCallRegistry}
    (invariant : registry.Invariant clock config) :
    registry.tick.Invariant clock config where
  __ := invariant
  indexed := ⟨invariant.indexed.ids, invariant.indexed.keys⟩
  promised := ⟨invariant.promised.once, invariant.promised.issued,
    invariant.promised.distinct, invariant.promised.settled⟩
  timed := ⟨invariant.timed.owned, invariant.timed.live,
    invariant.timed.distinct, invariant.timed.fresh⟩
  timely := fun id record member =>
    (invariant.timely id record member).later
      (clock.reading_le (Nat.le_succ _))

section Store

variable {registry : PendingCallRegistry} {id : String}
  {record : PendingCallRecord} {armed : Armed}

variable {other : String}

theorem mem_store (invariant : registry.Invariant clock config)
    (member : (id, record) ∈ registry.byId.entries)
    (same : armed.record.identity = record.identity)
    {stored : PendingCallRecord} :
    (other, stored) ∈ (registry.store armed).byId.entries ↔
    (other = id ∧ stored = armed.record) ∨
    (other ≠ id ∧ (other, stored) ∈ registry.byId.entries) := by
  have number : armed.record.id = id := by
    rw [PendingCallRecord.identity_id same, invariant.idOf member]
  simp [store, number]

theorem store_predecessor (invariant : registry.Invariant clock config)
    (member : (id, record) ∈ registry.byId.entries)
    (same : armed.record.identity = record.identity)
    {stored : PendingCallRecord}
    (current : (other, stored) ∈ (registry.store armed).byId.entries) :
    ∃ previous, (other, previous) ∈ registry.byId.entries ∧
    previous.identity = stored.identity := by
  rcases (mem_store invariant member same).mp current with
    ⟨rfl, rfl⟩ | ⟨-, old⟩
  · exact ⟨record, member, same.symm⟩
  · exact ⟨stored, old, rfl⟩

theorem store_successor (invariant : registry.Invariant clock config)
    (member : (id, record) ∈ registry.byId.entries)
    (same : armed.record.identity = record.identity)
    {previous : PendingCallRecord}
    (old : (other, previous) ∈ registry.byId.entries) : ∃ stored,
    (other, stored) ∈ (registry.store armed).byId.entries ∧
    stored.identity = previous.identity := by
  by_cases equal : other = id
  · subst equal
    refine ⟨armed.record,
      (mem_store invariant member same).mpr (.inl ⟨rfl, rfl⟩), ?_⟩
    rw [same, Record.value_unique member old]
  · exact ⟨previous,
      (mem_store invariant member same).mpr (.inr ⟨equal, old⟩), rfl⟩

theorem store_indexed (invariant : registry.Invariant clock config)
    (member : (id, record) ∈ registry.byId.entries)
    (same : armed.record.identity = record.identity) :
    (registry.store armed).Indexed where
  ids := by
    intro other stored current
    obtain ⟨previous, old, identity⟩ :=
      store_predecessor invariant member same current
    rw [← PendingCallRecord.identity_id identity, invariant.idOf old]
  keys := by
    intro requestKey other
    change (requestKey, other) ∈ registry.byRequestKey.entries ↔ _
    rw [invariant.indexed.keys]
    constructor
    · rintro ⟨previous, old, key⟩
      obtain ⟨stored, current, identity⟩ :=
        store_successor invariant member same old
      exact ⟨stored, current,
        (PendingCallRecord.identity_requestKey identity).trans key⟩
    · rintro ⟨stored, current, key⟩
      obtain ⟨previous, old, identity⟩ :=
        store_predecessor invariant member same current
      exact ⟨previous, old,
        (PendingCallRecord.identity_requestKey identity).trans key⟩

theorem store_within (invariant : registry.Invariant clock config)
    (member : (id, record) ∈ registry.byId.entries)
    (same : armed.record.identity = record.identity) :
    WithinCapacity config (registry.store armed).byId.values := by
  have number : armed.record.id = id := by
    rw [PendingCallRecord.identity_id same, invariant.idOf member]
  apply WithinCapacity.congr _ invariant.within
  rw [store, number]
  exact Record.map_values_set _ member same

theorem store_promised (invariant : registry.Invariant clock config)
    (member : (id, record) ∈ registry.byId.entries)
    (same : armed.record.identity = record.identity) :
    (registry.store armed).Promised where
  once := invariant.promised.once
  issued := by
    intro other stored current
    obtain ⟨previous, old, identity⟩ :=
      store_predecessor invariant member same current
    rw [← PendingCallRecord.identity_settlement identity]
    exact invariant.promised.issued other previous old
  distinct := by
    intro one stored another current further alsoCurrent equal
    obtain ⟨first, old, identity⟩ :=
      store_predecessor invariant member same current
    obtain ⟨second, alsoOld, alsoIdentity⟩ :=
      store_predecessor invariant member same alsoCurrent
    apply invariant.promised.distinct one first another old second alsoOld
    rw [PendingCallRecord.identity_settlement identity, equal,
      PendingCallRecord.identity_settlement alsoIdentity]
  settled := by
    intro promise
    change promise ∈ registry.settlements.map (·.promise) ↔ _
    rw [invariant.promised.settled]
    apply and_congr_right
    intro _
    constructor
    · intro free other stored current held
      obtain ⟨previous, old, identity⟩ :=
        store_predecessor invariant member same current
      apply free other previous old
      rw [PendingCallRecord.identity_settlement identity, held]
    · intro free other previous old held
      obtain ⟨stored, current, identity⟩ :=
        store_successor invariant member same old
      apply free other stored current
      rw [PendingCallRecord.identity_settlement identity, held]

theorem mem_timers_store (invariant : registry.Invariant clock config)
    (member : (id, record) ∈ registry.byId.entries)
    (rearmed : Rearmed clock registry.deadlines record armed)
    {timer : PendingTimer} : timer ∈ (registry.store armed).deadlines.timers ↔
    (timer ∈ registry.deadlines.timers ∧ timer.callId ≠ id) ∨
    timer = ⟨registry.deadlines.nextTimer, id, armed.record.timerKind⟩ := by
  change timer ∈ armed.deadlines.timers ↔ _
  rw [rearmed.timers, invariant.timed.clear member, mem_append,
    List.mem_filter, bne_iff_ne, mem_singleton, invariant.idOf member]

theorem store_timed (invariant : registry.Invariant clock config)
    (member : (id, record) ∈ registry.byId.entries)
    (rearmed : Rearmed clock registry.deadlines record armed) :
    (registry.store armed).Timed where
  owned := by
    intro other stored current
    rcases (mem_store invariant member rearmed.same).mp current with
      ⟨rfl, rfl⟩ | ⟨different, old⟩
    · exact ⟨_, rearmed.holds,
        (mem_timers_store invariant member rearmed).mpr (.inr rfl)⟩
    · obtain ⟨handle, holds, live⟩ := invariant.timed.owned other stored old
      exact ⟨handle, holds, (mem_timers_store invariant member rearmed).mpr
        (.inl ⟨live, different⟩)⟩
  live := by
    intro timer current
    rcases (mem_timers_store invariant member rearmed).mp current with
      ⟨live, different⟩ | rfl
    · obtain ⟨owner, stored, slot⟩ := invariant.timed.live timer live
      exact ⟨owner, (mem_store invariant member rearmed.same).mpr
        (.inr ⟨different, stored⟩), slot⟩
    · refine ⟨armed.record,
        (mem_store invariant member rearmed.same).mpr (.inl ⟨rfl, rfl⟩), ?_⟩
      rw [rearmed.holds, if_pos rfl]
  distinct := by
    change (armed.deadlines.timers.map (·.handle)).Nodup
    rw [rearmed.timers, map_append, map_singleton,
      ← concat_eq_append, nodup_concat]
    constructor
    · intro repeated
      obtain ⟨timer, live, same⟩ := List.mem_map.mp repeated
      rw [invariant.timed.clear member] at live
      have fresh := invariant.timed.fresh timer (List.mem_filter.mp live).1
      rw [same] at fresh
      exact Nat.lt_irrefl _ fresh
    · rw [invariant.timed.clear member]
      exact invariant.timed.distinct.sublist (filter_sublist.map _)
  fresh := by
    intro timer current
    change timer.handle < armed.deadlines.nextTimer
    rw [rearmed.next]
    rcases (mem_timers_store invariant member rearmed).mp current with
      ⟨live, -⟩ | rfl
    · exact Nat.lt_succ_of_lt (invariant.timed.fresh timer live)
    · exact Nat.lt_succ_self _

theorem store_invariant (invariant : registry.Invariant clock config)
    (member : (id, record) ∈ registry.byId.entries)
    (rearmed : Rearmed clock registry.deadlines record armed) :
    (registry.store armed).Invariant clock config where
  capacity := invariant.capacity
  indexed := store_indexed invariant member rearmed.same
  within := store_within invariant member rearmed.same
  promised := store_promised invariant member rearmed.same
  timed := store_timed invariant member rearmed
  timely := by
    intro other stored current
    rcases (mem_store invariant member rearmed.same).mp current with
      ⟨rfl, rfl⟩ | ⟨-, old⟩
    · exact rearmed.timely
    · exact (invariant.timely other stored old).later
        (clock.reading_le rearmed.reads)

end Store

theorem settlement_timely {now later : Rat} (timely : record.Timely now)
    (reading : Rat) (order : now ≤ later) :
    (pendingCallReconnectSettlement record reading).Timely later where
  original := timely.original.trans (add_le_add_left order _)
  deadline := by
    have recovery := add_le_add_left timely.original
      (reconnectResultDeliveryGraceMs : Rat)
    have bound : max record.deadlineAt
        (record.originalDeadlineAt + reconnectResultDeliveryGraceMs) ≤ now +
        (maximumRelayToolTimeoutMs + reconnectResultDeliveryGraceMs : Nat) :=
        by
      apply max_le timely.deadline
      push_cast
      linarith
    exact bound.trans (add_le_add_left order _)

theorem remaining_le {now : Rat} (timely : record.Timely now) :
    roundedUp (record.deadlineAt - now) ≤
    (maximumRelayToolTimeoutMs + reconnectResultDeliveryGraceMs : Nat) := by
  apply roundedUp_le
  · decide
  · have deadline := timely.deadline
    push_cast at deadline ⊢
    linarith

theorem armOperation_bare {delay : Int} (bare : record.timeout = none)
    (positive : 1 ≤ delay) (within : delay ≤ 2147483647) :
    deadlines.armOperation clock record (delay : Rat) =
      { deadlines := deadlines.tick.setTimeout record.id .operation
        record := { record with
          remainingTimeoutMs := delay
          deadlineAt := deadlines.now clock + delay
          timeout := some deadlines.nextTimer } } := by
  rw [PendingCallDeadlines.armOperation, bare,
    boundedPendingDelayMs_cast positive within]
  simp

theorem armReconnect_bare {delay : Int} (bare : record.reconnectTimeout = none)
    (positive : 1 ≤ delay) (within : delay ≤ 2147483647) :
    deadlines.armReconnect clock record (delay : Rat) =
      { deadlines := deadlines.tick.setTimeout record.id .reconnect
        record := { record with
          reconnectDeadlineAt := some (deadlines.now clock + delay)
          reconnectTimeout := some deadlines.nextTimer } } := by
  rw [PendingCallDeadlines.armReconnect, bare,
    boundedPendingDelayMs_cast positive within]
  simp

theorem detachRecord_eq {maximumGrace : Int} (positive : 1 ≤ maximumGrace)
    (limit : maximumGrace ≤ reconnectGraceMs)
    (bare : record.reconnectTimeout = none) :
    detachRecord clock maximumGrace deadlines record =
      let deadlineAt := max record.deadlineAt
        (record.originalDeadlineAt + reconnectResultDeliveryGraceMs)
      let remainingTimeoutMs :=
        roundedUp (deadlineAt - deadlines.tick.now clock)
      { deadlines := (deadlines.tick.tick.tick.clear record).setTimeout
          record.id .reconnect
        record := { record with
          socket := none
          timeout := none
          deadlineAt
          remainingTimeoutMs
          reconnectDeadlineAt := some (deadlines.tick.tick.now clock +
            (min maximumGrace remainingTimeoutMs : Int))
          reconnectTimeout := some deadlines.nextTimer } } := by
  simp only [detachRecord, PendingCallDeadlines.pauseOperation,
    pendingCallReconnectSettlement]
  rw [armReconnect_bare]
  · simp only [PendingCallDeadlines.clear, bare,
      PendingCallDeadlines.clearTimeout_none]
    rfl
  · exact bare
  · exact le_min positive (one_le_roundedUp _)
  · apply (min_le_left _ _).trans (limit.trans _)
    decide

theorem detachRecord_rearmed {maximumGrace : Int} (positive : 1 ≤ maximumGrace)
    (limit : maximumGrace ≤ reconnectGraceMs)
    (bare : record.reconnectTimeout = none)
    (timely : record.Timely (deadlines.now clock)) : Rearmed clock deadlines
    record (detachRecord clock maximumGrace deadlines record) := by
  rw [detachRecord_eq positive limit bare]
  constructor
  case error => rfl
  case same => rfl
  case redelivery => rfl
  case holds => intro kind; cases kind <;> rfl
  case timers => rfl
  case next => rfl
  case reads => exact Nat.le_add_right _ 3
  case timely =>
      have later : deadlines.now clock ≤ deadlines.tick.tick.tick.now clock :=
        clock.reading_le (Nat.le_add_right _ 3)
      have settled := settlement_timely timely 0 later
      exact ⟨settled.original, settled.deadline⟩

/-- How often a pass of `rebindInstance` has read the clock before it settles
the deadline. -/
def quietReads (record : PendingCallRecord) : Nat :=
  if record.socket.isSome then 1 else 0

theorem rebindRecord_eq {socket : DaemonChannel} {timer : TimerHandle}
    (holds : record.Holds timer) (timely : record.Timely (deadlines.now clock)) :
    rebindRecord clock socket deadlines record =
      let reads := deadlines.reads + quietReads record
      let deadlineAt := max record.deadlineAt
        (record.originalDeadlineAt + reconnectResultDeliveryGraceMs)
      let remainingTimeoutMs :=
        roundedUp (deadlineAt - clock.reading (reads + 1))
      { deadlines := { (deadlines.clear record).setTimeout
          record.id .operation with reads := reads + 3 }
        record := { record with
          socket := some socket
          timeout := some deadlines.nextTimer
          reconnectTimeout := none
          reconnectDeadlineAt := if record.socket.isSome then
            record.reconnectDeadlineAt else none
          deadlineAt := clock.reading (reads + 2) + remainingTimeoutMs
          remainingTimeoutMs } } := by
  have later : deadlines.now clock ≤
      clock.reading (deadlines.reads + quietReads record + 1) :=
    clock.reading_le (by omega)
  have within := remaining_le (settlement_timely timely 0 later)
  have small : roundedUp (max record.deadlineAt (record.originalDeadlineAt +
      reconnectResultDeliveryGraceMs) - clock.reading (deadlines.reads +
      quietReads record + 1)) ≤ 2147483647 :=
    within.trans (by decide)
  rcases holds.slots with ⟨bound, timeout, reconnect⟩ |
    ⟨detached, timeout, reconnect⟩
  · simp only [quietReads, bound, if_true] at small ⊢
    simp only [rebindRecord, bound, if_true,
      PendingCallDeadlines.pauseOperation, pendingCallReconnectSettlement]
    rw [armOperation_bare]
    · simp only [PendingCallDeadlines.clear, reconnect,
        PendingCallDeadlines.clearTimeout_none]
      rfl
    · rfl
    · exact one_le_roundedUp _
    · exact small
  · simp only [quietReads, detached, Bool.false_eq_true, if_false,
      Nat.add_zero] at small ⊢
    simp only [rebindRecord, detached, Bool.false_eq_true, if_false,
      PendingCallDeadlines.clearReconnect, pendingCallReconnectSettlement]
    rw [armOperation_bare]
    · simp only [PendingCallDeadlines.clear, timeout,
        PendingCallDeadlines.clearTimeout_none]
      rfl
    · exact timeout
    · exact one_le_roundedUp _
    · exact small

theorem rebindRecord_rearmed {socket : DaemonChannel} {timer : TimerHandle}
    (holds : record.Holds timer)
    (timely : record.Timely (deadlines.now clock)) : Rearmed clock deadlines
    record (rebindRecord clock socket deadlines record) := by
  rw [rebindRecord_eq holds timely]
  constructor
  case error => rfl
  case same => rfl
  case redelivery => rfl
  case holds => intro kind; cases kind <;> rfl
  case timers => rfl
  case next => rfl
  case reads =>
      change deadlines.reads ≤ deadlines.reads + quietReads record + 3
      omega
  case timely =>
      constructor
      · exact timely.original.trans (add_le_add_left
          (clock.reading_le (by simp; omega)) _)
      · have settled := remaining_le (settlement_timely timely 0
          (clock.reading_le (show deadlines.reads ≤
            deadlines.reads + quietReads record + 1 by omega)))
        have arm := clock.reading_le
          (show deadlines.reads + quietReads record + 2 ≤
            deadlines.reads + quietReads record + 3 by omega)
        exact add_le_add arm (by exact_mod_cast settled)

end PendingCallRegistry

end MachineBridge.Pending
