import MachineBridge.Pending.RegistryInvariant

/-!
# Runs of the pending-call registry

Every operation, in any order and with any callback between two pieces of a
task, keeps the invariant of the registry.
-/

namespace MachineBridge.Pending

open Foundation Shared List

variable {clock : Clock} {config : ToolCallCapacityConfig}

namespace PendingCallRegistry

/-- A loop has not been left, and its registry is in order. -/
structure Sound (clock : Clock) (config : ToolCallCapacityConfig)
    (loop : Rearming) : Prop where
  invariant : loop.registry.Invariant clock config
  error : loop.error = none

theorem rearm_sound {arm : PendingCallDeadlines → PendingCallRecord → Armed}
    {selects : PendingCallRecord → Bool}
    (arms : ∀ (registry : PendingCallRegistry) id record,
      registry.Invariant clock config → (id, record) ∈ registry.byId.entries →
      selects record = true →
      Rearmed clock registry.deadlines record (arm registry.deadlines record))
    (loop : Rearming) (id : String) (sound : Sound clock config loop) :
    Sound clock config (rearm arm selects loop id) := by
  obtain ⟨invariant, error⟩ := sound
  cases found : loop.registry.byId.get? id with
  | none =>
    simp only [rearm, error, found]
    exact ⟨invariant, error⟩
  | some record =>
    simp only [rearm, error, found]
    split
    case isTrue selected =>
      have member := Record.get?_eq_some.mp found
      have rearmed := arms loop.registry id record invariant member selected
      exact ⟨store_invariant invariant member rearmed, rearmed.error⟩
    case isFalse => exact ⟨invariant, error⟩

theorem detachRecord_arms {maximumGrace : Int} {socket : DaemonChannel}
    (positive : 1 ≤ maximumGrace) (limit : maximumGrace ≤ reconnectGraceMs)
    (registry : PendingCallRegistry) (id : String) (record : PendingCallRecord)
    (invariant : registry.Invariant clock config)
    (member : (id, record) ∈ registry.byId.entries)
    (selected : (record.socket == some socket) = true) : Rearmed clock
    registry.deadlines record
    (detachRecord clock maximumGrace registry.deadlines record) := by
  obtain ⟨timer, holds, -⟩ := invariant.timed.owned id record member
  have bound : record.socket = some socket := by simpa using selected
  rcases holds.slots with ⟨-, -, bare⟩ | ⟨detached, -, -⟩
  · exact detachRecord_rearmed positive limit bare
      (invariant.timely id record member)
  · simp [bound] at detached

variable {registry : PendingCallRegistry}

theorem detachSocket_invariant (invariant : registry.Invariant clock config)
    (socket : DaemonChannel) (graceMs : Rat) :
    (registry.detachSocket clock socket graceMs).1.Invariant clock config := by
  simp only [detachSocket]
  split
  · exact invariant
  · rename_i maximumGrace accepted
    obtain ⟨-, positive, limit⟩ := boundedPendingDelayMs_ok accepted
    have start : Sound clock config ⟨registry, [], none⟩ := ⟨invariant, rfl⟩
    exact (run_induction (rearm_sound (detachRecord_arms positive limit))
      start registry.byId.keys).invariant

theorem rebindRecord_arms (daemonInstanceId : String) (socket : DaemonChannel)
    (registry : PendingCallRegistry) (id : String) (record : PendingCallRecord)
    (invariant : registry.Invariant clock config)
    (member : (id, record) ∈ registry.byId.entries)
    (_ : rebinds daemonInstanceId socket record = true) : Rearmed clock
    registry.deadlines record
    (rebindRecord clock socket registry.deadlines record) := by
  obtain ⟨timer, holds, -⟩ := invariant.timed.owned id record member
  exact rebindRecord_rearmed holds (invariant.timely id record member)

theorem rebindInstance_invariant (invariant : registry.Invariant clock config)
    (daemonInstanceId : String) (socket : DaemonChannel) :
    (registry.rebindInstance clock daemonInstanceId socket).1.Invariant clock
    config := by
  simp only [rebindInstance]
  split
  · exact invariant
  · have start : Sound clock config ⟨registry, [], none⟩ := ⟨invariant, rfl⟩
    exact (run_induction (rearm_sound (rebindRecord_arms daemonInstanceId
      socket)) start registry.byId.keys).invariant

structure Accepted (registry : PendingCallRegistry)
    (input : RegisterPendingCall) (timeoutMs : Int) : Prop where
  positive : 1 ≤ timeoutMs
  limit : timeoutMs ≤ maximumRelayToolTimeoutMs
  admitted : toolCallAdmission (registry.byId.values.map (·.tool)).length
    (toolCounts (registry.byId.values.map (·.tool))) registry.capacity
      input.tool = .admitted
  newId : input.id ∉ registry.byId.keys
  newKey : ∀ requestKey, present input.clientRequestKey = some requestKey →
    requestKey ∉ registry.byRequestKey.keys
  readJobs : readJobCapacityReached input registry.byId.values = false

theorem accepted_of_ok {input : RegisterPendingCall} {timeoutMs : Int}
    (accepted : registry.assertCanRegister clock input = .ok timeoutMs) :
    registry.Accepted input timeoutMs := by
  simp only [assertCanRegister, assertPendingCallRegistration, snapshot,
    pendingRegistrySnapshot] at accepted
  split at accepted
  · cases accepted
  rename_i delay bounded
  obtain ⟨-, positive, limit⟩ := boundedPendingDelayMs_ok bounded
  split at accepted
  · cases accepted
  · cases accepted
  rename_i admitted
  split at accepted
  · cases accepted
  rename_i newId
  split at accepted
  · cases accepted
  rename_i newKey
  split at accepted
  · cases accepted
  rename_i readJobs
  cases accepted
  constructor
  · exact positive
  · apply limit.trans
    simp only [pendingCallTimeoutMaximumMs]
    split <;> decide
  · rw [length_map]
    exact admitted
  · intro old
    exact newId (Record.contains_iff.mpr old)
  · intro requestKey key old
    apply newKey
    simp only [hasRequestKey, key, Option.any_some]
    exact Record.contains_iff.mpr old
  · exact eq_false_of_ne_true readJobs

/-- The record of an accepted call, with its timer. -/
def registered (clock : Clock) (registry : PendingCallRegistry)
    (input : RegisterPendingCall) (timeoutMs : Int) : PendingCallRecord :=
  let record := newRecord input timeoutMs (registry.deadlines.now clock)
    registry.nextPromise
  { record with
    deadlineAt := registry.deadlines.tick.now clock + timeoutMs
    timeout := some registry.deadlines.nextTimer }

theorem add_eq {input : RegisterPendingCall} {timeoutMs : Int}
    (accepted : registry.Accepted input timeoutMs) :
    registry.add clock input timeoutMs =
      { registry with
        byId := registry.byId.set input.id
          (registry.registered clock input timeoutMs)
        deadlines := registry.deadlines.tick.tick.setTimeout input.id
          .operation
        byRequestKey := match present input.clientRequestKey with
          | none => registry.byRequestKey
          | some requestKey => registry.byRequestKey.set requestKey input.id
        nextPromise := registry.nextPromise + 1 } := by
  have small : timeoutMs ≤ 2147483647 :=
    accepted.limit.trans (by decide)
  simp only [add]
  rw [armOperation_bare]
  · rfl
  · rfl
  · exact accepted.positive
  · exact small

section Add

variable {registry : PendingCallRegistry} {input : RegisterPendingCall}
  {timeoutMs : Int}

theorem add_within {maximum reserved : Nat} (invariant : registry.Invariant
    clock (toolCallCapacityConfig maximum reserved))
    (accepted : registry.Accepted input timeoutMs) : WithinCapacity
    (toolCallCapacityConfig maximum reserved)
    (registry.byId.values ++ [registry.registered clock input timeoutMs]) := by
  have admitted := accepted.admitted
  rw [invariant.capacity] at admitted
  obtain ⟨room, ordinary⟩ := admitted_limits admitted
  rw [length_map] at room
  constructor
  · rw [length_append, length_singleton]
    exact room
  · rw [countP_append, countP_singleton]
    rcases ordinary with none | special | fewer
    · have whole : (toolCallCapacityConfig maximum reserved).ordinaryMaximum =
          (toolCallCapacityConfig maximum reserved).maximum := by
        simp only [toolCallCapacityConfig] at none ⊢
        omega
      have count := countP_le_length
        (p := fun record : PendingCallRecord =>
          !(toolCallCapacityConfig maximum reserved).reservedTools.contains
            record.tool) (l := registry.byId.values)
      split <;> omega
    · have stored : (registry.registered clock input timeoutMs).tool =
          input.tool := by
        apply if_neg
        intro empty
        rw [beq_iff_eq.mp empty] at special
        simp [toolCallCapacityConfig, controlPlaneToolNames] at special
      rw [stored, special]
      simpa using invariant.within.ordinary
    · rw [countP_map] at fewer
      have count : List.countP ((fun tool =>
          !(toolCallCapacityConfig maximum reserved).reservedTools.contains
            tool) ∘ fun record : PendingCallRecord => record.tool)
          registry.byId.values + 1 ≤
          (toolCallCapacityConfig maximum reserved).ordinaryMaximum := fewer
      refine le_trans ?_ count
      apply Nat.add_le_add_left
      split <;> decide
  · intro accountId
    simp only [pendingReadJobCallsForAccount]
    split
    · exact Nat.zero_le _
    case isFalse named =>
      have before := invariant.within.readJobs accountId
      simp only [pendingReadJobCallsForAccount, named] at before
      rw [countP_append, countP_singleton]
      split
      case isFalse => simpa using before
      case isTrue counted =>
        obtain ⟨tool, owner⟩ := Bool.and_eq_true_iff.mp counted
        have called : input.tool = "read_job" := by
          simp only [registered, newRecord] at tool
          split at tool
          · simp at tool
          · exact beq_iff_eq.mp tool
        cases authority : input.authority with
        | none => simp [registered, newRecord, authority] at owner
        | some holder =>
          have account : holder.accountId = accountId := by
            simpa [registered, newRecord, authority] using owner
          have reached := accepted.readJobs
          simp [readJobCapacityReached, called, authority, account,
            present, pendingReadJobCallsForAccount] at reached
          have nonempty : accountId ≠ "" := by simpa using named
          have room := reached nonempty
          rw [if_neg nonempty] at room
          exact room

theorem mem_add (accepted : registry.Accepted input timeoutMs) {id : String}
    {stored : PendingCallRecord} :
    (id, stored) ∈ (registry.add clock input timeoutMs).byId.entries ↔
    (id = input.id ∧ stored = registry.registered clock input timeoutMs) ∨
    (id, stored) ∈ registry.byId.entries := by
  rw [add_eq accepted, Record.mem_set]
  apply or_congr_right
  constructor
  · exact And.right
  · intro old
    refine ⟨?_, old⟩
    rintro rfl
    exact accepted.newId (Record.mem_keys.mpr ⟨stored, old⟩)

theorem add_indexed (invariant : registry.Invariant clock config)
    (accepted : registry.Accepted input timeoutMs) :
    (registry.add clock input timeoutMs).Indexed where
  ids := by
    intro id stored current
    rcases (mem_add accepted).mp current with ⟨rfl, rfl⟩ | old
    · rfl
    · exact invariant.idOf old
  keys := by
    intro requestKey id
    have keys : (requestKey, id) ∈
        (registry.add clock input timeoutMs).byRequestKey.entries ↔
        (id = input.id ∧ present input.clientRequestKey = some requestKey) ∨
        (requestKey, id) ∈ registry.byRequestKey.entries := by
      rw [add_eq accepted]
      cases key : present input.clientRequestKey with
      | none => simp
      | some own =>
        have newKey := accepted.newKey own key
        rw [Record.mem_set]
        constructor
        · rintro (⟨rfl, rfl⟩ | ⟨-, old⟩)
          · exact .inl ⟨rfl, rfl⟩
          · exact .inr old
        · rintro (⟨rfl, same⟩ | old)
          · exact .inl ⟨(Option.some.inj same).symm, rfl⟩
          · refine .inr ⟨?_, old⟩
            rintro rfl
            exact newKey (Record.mem_keys.mpr ⟨id, old⟩)
    rw [keys, invariant.indexed.keys]
    constructor
    · rintro (⟨rfl, own⟩ | ⟨stored, old, key⟩)
      · exact ⟨_, (mem_add accepted).mpr (.inl ⟨rfl, rfl⟩), own⟩
      · exact ⟨stored, (mem_add accepted).mpr (.inr old), key⟩
    · rintro ⟨stored, current, key⟩
      rcases (mem_add accepted).mp current with ⟨rfl, rfl⟩ | old
      · exact .inl ⟨rfl, key⟩
      · exact .inr ⟨stored, old, key⟩

theorem add_promised (invariant : registry.Invariant clock config)
    (accepted : registry.Accepted input timeoutMs) :
    (registry.add clock input timeoutMs).Promised := by
  have settlements : (registry.add clock input timeoutMs).settlements =
      registry.settlements := by rw [add_eq accepted]
  have next : (registry.add clock input timeoutMs).nextPromise =
      registry.nextPromise + 1 := by rw [add_eq accepted]
  have own : (registry.registered clock input timeoutMs).settlement =
      registry.nextPromise := rfl
  constructor
  · rw [settlements]
    exact invariant.promised.once
  · intro id stored current
    rcases (mem_add accepted).mp current with ⟨rfl, rfl⟩ | old
    · rw [own]
      exact Nat.lt_succ_self _
    · exact Nat.lt_succ_of_lt (invariant.promised.issued id stored old)
  · intro id stored other current another alsoCurrent same
    rcases (mem_add accepted).mp current with ⟨rfl, rfl⟩ | old <;>
      rcases (mem_add accepted).mp alsoCurrent with ⟨rfl, rfl⟩ | alsoOld
    · rfl
    · have issued := invariant.promised.issued other another alsoOld
      rw [← same, own] at issued
      exact absurd issued (Nat.lt_irrefl _)
    · have issued := invariant.promised.issued id stored old
      rw [same, own] at issued
      exact absurd issued (Nat.lt_irrefl _)
    · exact invariant.promised.distinct id stored other old another alsoOld
        same
  · intro promise
    rw [settlements, next, invariant.promised.settled]
    constructor
    · rintro ⟨issued, free⟩
      refine ⟨Nat.lt_succ_of_lt issued, ?_⟩
      intro id stored current
      rcases (mem_add accepted).mp current with ⟨rfl, rfl⟩ | old
      · rw [own]
        exact (Nat.ne_of_lt issued).symm
      · exact free id stored old
    · rintro ⟨issued, free⟩
      have other := free _ _ ((mem_add accepted).mpr (.inl ⟨rfl, rfl⟩))
      refine ⟨by omega, ?_⟩
      intro id stored old
      exact free id stored ((mem_add accepted).mpr (.inr old))

theorem add_timed (invariant : registry.Invariant clock config)
    (accepted : registry.Accepted input timeoutMs) :
    (registry.add clock input timeoutMs).Timed := by
  have timers : (registry.add clock input timeoutMs).deadlines.timers =
      registry.deadlines.timers ++
      [⟨registry.deadlines.nextTimer, input.id, .operation⟩] := by
    rw [add_eq accepted]
    rfl
  have next : (registry.add clock input timeoutMs).deadlines.nextTimer =
      registry.deadlines.nextTimer + 1 := by
    rw [add_eq accepted]
    rfl
  have holds : (registry.registered clock input timeoutMs).Holds
      registry.deadlines.nextTimer := by
    intro kind
    cases kind <;> rfl
  constructor
  · intro id stored current
    rw [timers]
    rcases (mem_add accepted).mp current with ⟨rfl, rfl⟩ | old
    · exact ⟨_, holds, mem_append_right _ (mem_singleton_self _)⟩
    · obtain ⟨timer, holds, live⟩ := invariant.timed.owned id stored old
      exact ⟨timer, holds, mem_append_left _ live⟩
  · intro timer current
    rw [timers, mem_append, mem_singleton] at current
    rcases current with live | rfl
    · obtain ⟨owner, stored, slot⟩ := invariant.timed.live timer live
      exact ⟨owner, (mem_add accepted).mpr (.inr stored), slot⟩
    · exact ⟨_, (mem_add accepted).mpr (.inl ⟨rfl, rfl⟩), rfl⟩
  · rw [timers, map_append, map_singleton, ← concat_eq_append, nodup_concat]
    refine ⟨?_, invariant.timed.distinct⟩
    intro repeated
    obtain ⟨timer, live, same⟩ := List.mem_map.mp repeated
    have fresh := invariant.timed.fresh timer live
    rw [same] at fresh
    exact Nat.lt_irrefl _ fresh
  · intro timer current
    rw [next]
    rw [timers, mem_append, mem_singleton] at current
    rcases current with live | rfl
    · exact Nat.lt_succ_of_lt (invariant.timed.fresh timer live)
    · exact Nat.lt_succ_self _

theorem registered_timely (accepted : registry.Accepted input timeoutMs) :
    (registry.registered clock input timeoutMs).Timely
    (registry.deadlines.tick.tick.now clock) where
  original := by
    have limit : (timeoutMs : Rat) ≤ maximumRelayToolTimeoutMs := by
      exact_mod_cast accepted.limit
    exact add_le_add (clock.reading_le (Nat.le_add_right _ 2)) limit
  deadline := by
    have limit : (timeoutMs : Rat) ≤
        (maximumRelayToolTimeoutMs + reconnectResultDeliveryGraceMs : Nat) :=
        by
      have larger := accepted.limit.trans (Int.ofNat_le.mpr
        (Nat.le_add_right _ reconnectResultDeliveryGraceMs))
      exact_mod_cast larger
    exact add_le_add (clock.reading_le (Nat.le_add_right _ 1)) limit

theorem add_invariant {maximum reserved : Nat} (invariant : registry.Invariant
    clock (toolCallCapacityConfig maximum reserved)) (accepted :
    registry.Accepted input timeoutMs) : (registry.add clock input
    timeoutMs).Invariant clock (toolCallCapacityConfig maximum reserved) where
  capacity := by rw [add_eq accepted, invariant.capacity]
  indexed := add_indexed invariant accepted
  within := by
    rw [add_eq accepted, Record.values_set_of_not_mem accepted.newId]
    exact add_within invariant accepted
  promised := add_promised invariant accepted
  timed := add_timed invariant accepted
  timely := by
    intro id stored current
    rw [add_eq accepted]
    rcases (mem_add accepted).mp current with ⟨rfl, rfl⟩ | old
    · exact registered_timely accepted
    · exact (invariant.timely id stored old).later
        (clock.reading_le (Nat.le_add_right _ 2))

end Add

theorem register_invariant {maximum reserved : Nat} (invariant :
    registry.Invariant clock (toolCallCapacityConfig maximum reserved))
    (input : RegisterPendingCall) : (registry.register clock input).1.Invariant
    clock (toolCallCapacityConfig maximum reserved) := by
  simp only [register]
  split
  · exact tick_invariant invariant
  · rename_i timeoutMs checked
    have accepted := accepted_of_ok checked
    apply add_invariant (tick_invariant invariant)
    exact ⟨accepted.positive, accepted.limit, accepted.admitted,
      accepted.newId, accepted.newKey, accepted.readJobs⟩

def settled (registry : PendingCallRegistry) (record : PendingCallRecord)
    (outcome : PendingCallOutcome) : PendingCallRegistry :=
  { registry.take record with
    settlements := registry.settlements ++ [⟨record.settlement, outcome⟩] }

theorem finish_of_record {id : String} {record : PendingCallRecord}
    (member : (id, record) ∈ registry.byId.entries)
    (outcome : PendingCallOutcome) :
    registry.finish id outcome = (registry.settled record outcome, true) := by
  simp only [finish, Record.get?_eq_some.mpr member, settled]

section Settle

variable {registry : PendingCallRegistry} {id : String}
  {record : PendingCallRecord} {outcome : PendingCallOutcome}

theorem mem_settled (invariant : registry.Invariant clock config)
    (member : (id, record) ∈ registry.byId.entries) {other : String}
    {stored : PendingCallRecord} :
    (other, stored) ∈ (registry.settled record outcome).byId.entries ↔
    other ≠ id ∧ (other, stored) ∈ registry.byId.entries := by
  simp [settled, take, invariant.idOf member]

theorem settled_indexed (invariant : registry.Invariant clock config)
    (member : (id, record) ∈ registry.byId.entries) :
    (registry.settled record outcome).Indexed where
  ids := by
    intro other stored current
    exact invariant.idOf ((mem_settled invariant member).mp current).2
  keys := by
    intro requestKey other
    have keys : (requestKey, other) ∈
        (registry.settled record outcome).byRequestKey.entries ↔ other ≠ id ∧
        (requestKey, other) ∈ registry.byRequestKey.entries := by
      have own : ∀ {key}, (key, id) ∈ registry.byRequestKey.entries ↔
          record.requestKey = some key := by
        intro key
        rw [invariant.indexed.keys]
        constructor
        · rintro ⟨stored, old, key⟩
          rw [← Record.value_unique old member, key]
        · intro key
          exact ⟨record, member, key⟩
      change (requestKey, other) ∈ (registry.take record).byRequestKey.entries
        ↔ _
      simp only [take, invariant.idOf member]
      cases key : record.requestKey with
      | none =>
        constructor
        · intro old
          refine ⟨?_, old⟩
          rintro rfl
          rw [own, key] at old
          cases old
        · exact And.right
      | some requestKey' =>
        have mine := Record.get?_eq_some.mpr (own.mpr key)
        simp only [mine, if_true]
        rw [Record.mem_delete]
        constructor
        · rintro ⟨different, old⟩
          refine ⟨?_, old⟩
          rintro rfl
          rw [own, key] at old
          exact different (Option.some.inj old).symm
        · rintro ⟨different, old⟩
          refine ⟨?_, old⟩
          rintro rfl
          exact different (Record.value_unique old (own.mpr key))
    rw [keys, invariant.indexed.keys]
    constructor
    · rintro ⟨different, stored, old, key⟩
      exact ⟨stored, (mem_settled invariant member).mpr ⟨different, old⟩, key⟩
    · rintro ⟨stored, current, key⟩
      obtain ⟨different, old⟩ := (mem_settled invariant member).mp current
      exact ⟨different, stored, old, key⟩

theorem settled_promised (invariant : registry.Invariant clock config)
    (member : (id, record) ∈ registry.byId.entries) :
    (registry.settled record outcome).Promised where
  once := by
    simp only [settled]
    rw [map_append, map_singleton, ← concat_eq_append, nodup_concat]
    refine ⟨?_, invariant.promised.once⟩
    intro already
    exact ((invariant.promised.settled _).mp already).2 id record member rfl
  issued := by
    intro other stored current
    exact invariant.promised.issued other stored
      ((mem_settled invariant member).mp current).2
  distinct := by
    intro one stored other current another alsoCurrent
    exact invariant.promised.distinct one stored other
      ((mem_settled invariant member).mp current).2 another
      ((mem_settled invariant member).mp alsoCurrent).2
  settled := by
    intro promise
    have settlements : (registry.settled record outcome).settlements =
        registry.settlements ++ [⟨record.settlement, outcome⟩] := rfl
    rw [settlements, map_append, mem_append, map_singleton,
      mem_singleton, invariant.promised.settled]
    constructor
    · rintro (⟨issued, free⟩ | rfl)
      · refine ⟨issued, ?_⟩
        intro other stored current
        exact free other stored ((mem_settled invariant member).mp current).2
      · refine ⟨invariant.promised.issued id record member, ?_⟩
        intro other stored current same
        obtain ⟨different, old⟩ := (mem_settled invariant member).mp current
        exact different
          (invariant.promised.distinct other stored id old record member same)
    · rintro ⟨issued, free⟩
      by_cases own : promise = record.settlement
      · exact .inr own
      · refine .inl ⟨issued, ?_⟩
        intro other stored old held
        by_cases same : other = id
        · subst same
          rw [Record.value_unique old member] at held
          exact own held.symm
        · exact free other stored
            ((mem_settled invariant member).mpr ⟨same, old⟩) held

theorem settled_timed (invariant : registry.Invariant clock config)
    (member : (id, record) ∈ registry.byId.entries) :
    (registry.settled record outcome).Timed := by
  have timers : (registry.settled record outcome).deadlines.timers =
      registry.deadlines.timers.filter (·.callId != id) :=
    invariant.timed.clear member
  constructor
  · intro other stored current
    obtain ⟨different, old⟩ := (mem_settled invariant member).mp current
    obtain ⟨timer, holds, live⟩ := invariant.timed.owned other stored old
    rw [timers]
    exact ⟨timer, holds, List.mem_filter.mpr ⟨live, bne_iff_ne.mpr different⟩⟩
  · intro timer current
    rw [timers, List.mem_filter, bne_iff_ne] at current
    obtain ⟨owner, stored, slot⟩ := invariant.timed.live timer current.1
    exact ⟨owner, (mem_settled invariant member).mpr ⟨current.2, stored⟩, slot⟩
  · rw [timers]
    exact invariant.timed.distinct.sublist (filter_sublist.map _)
  · intro timer current
    rw [timers] at current
    exact invariant.timed.fresh timer (List.mem_filter.mp current).1

theorem settled_invariant (invariant : registry.Invariant clock config)
    (member : (id, record) ∈ registry.byId.entries) :
    (registry.settled record outcome).Invariant clock config where
  capacity := invariant.capacity
  indexed := settled_indexed invariant member
  within := invariant.within.sublist (Record.values_delete_sublist _ _)
  promised := settled_promised invariant member
  timed := settled_timed invariant member
  timely := by
    intro other stored current
    exact invariant.timely other stored
      ((mem_settled invariant member).mp current).2

theorem finish_invariant (invariant : registry.Invariant clock config)
    (id : String) (outcome : PendingCallOutcome) :
    (registry.finish id outcome).1.Invariant clock config := by
  cases found : registry.byId.get? id with
  | none =>
    simp only [finish, found]
    exact invariant
  | some record =>
    have member := Record.get?_eq_some.mp found
    rw [finish_of_record member]
    exact settled_invariant invariant member

theorem resolve_invariant (invariant : registry.Invariant clock config)
    (id : String) (socket : DaemonChannel) (value : String) :
    (registry.resolve id socket value).1.Invariant clock config := by
  simp only [resolve]
  split
  · exact invariant
  · split
    · exact invariant
    · exact finish_invariant invariant id _

theorem reject_invariant (invariant : registry.Invariant clock config)
    (id error : String) (socket : Option DaemonChannel) :
    (registry.reject id error socket).1.Invariant clock config := by
  simp only [reject]
  split
  · exact invariant
  · split
    · exact invariant
    · exact finish_invariant invariant id _

end Settle

/-- What holds of a registry at any time: the indexes describe the same
records, the limits hold, each issued promise is either held by one record or
settled, once, and a call owns one live timer of its own kind, or none when it
is not registered. -/
structure WellFormed (config : ToolCallCapacityConfig)
    (registry : PendingCallRegistry) : Prop where
  indexed : registry.Indexed
  within : WithinCapacity config registry.byId.values
  promised : registry.Promised
  timers : ∀ id, match registry.byId.get? id with
    | none => registry.deadlines.timers.filter (·.callId == id) = []
    | some record => ∃ handle, record.Holds handle ∧
        registry.deadlines.timers.filter (·.callId == id) =
          [⟨handle, id, record.timerKind⟩]

theorem Invariant.wellFormed (invariant : registry.Invariant clock config) :
    registry.WellFormed config where
  __ := invariant
  timers := by
    intro id
    cases found : registry.byId.get? id with
    | none => exact invariant.timed.timers_of_missing found
    | some record =>
      exact invariant.timed.timers_of_record (Record.get?_eq_some.mp found)

end PendingCallRegistry

namespace PendingCalls

theorem resume_registry (calls : PendingCalls) (index : Nat) (kept : Bool)
    (error : Option String) :
    (calls.resume index kept error).registry = calls.registry ∨ ∃ id outcome,
    (calls.resume index kept error).registry =
    (calls.registry.finish id outcome).1 := by
  simp only [resume]
  split
  · exact .inl rfl
  · split
    · exact .inr ⟨_, _, rfl⟩
    · exact .inl rfl
    · split <;> exact .inl rfl

theorem step_invariant {maximum reserved : Nat} (calls : PendingCalls)
    (event : PendingEvent) (invariant : calls.registry.Invariant clock
    (toolCallCapacityConfig maximum reserved)) :
    (calls.step clock event).registry.Invariant clock
    (toolCallCapacityConfig maximum reserved) := by
  cases event with
  | register input =>
    have registered := PendingCallRegistry.register_invariant invariant input
    simp only [step, register]
    split
    · exact registered
    · split <;> exact registered
  | resolve id socket value =>
    exact PendingCallRegistry.resolve_invariant invariant id socket value
  | reject id error socket =>
    exact PendingCallRegistry.reject_invariant invariant id error socket
  | cancelRequest requestKey =>
    simp only [step, cancelRequest]
    split <;> exact invariant
  | cancelAuthority revocation | rejectSocket socket
  | rejectSocketIds ids socket fallback beforeReject => exact invariant
  | detachSocket socket graceMs =>
    exact PendingCallRegistry.detachSocket_invariant invariant socket graceMs
  | rebindInstance daemonInstanceId socket =>
    exact PendingCallRegistry.rebindInstance_invariant invariant
      daemonInstanceId socket
  | expireDue now =>
    simp only [step, expireDue]
    split
    · exact invariant
    · exact PendingCallRegistry.tick_invariant invariant
  | timer handle =>
    simp only [step, timer]
    split
    · exact invariant
    · split
      · exact invariant
      · split <;> exact invariant
  | abort id =>
    simp only [step, abort]
    split
    · exact invariant
    · split <;> exact invariant
  | resume index kept error =>
    rcases resume_registry calls index kept error with same |
      ⟨id, outcome, finished⟩
    · simp only [step, same]
      exact invariant
    · simp only [step, finished]
      exact PendingCallRegistry.finish_invariant invariant id outcome

/-- Whatever the order of operations, awaits, callbacks and timers, the
registry is well formed. -/
theorem registry_wellFormed (clock : Clock) (maximum reserved : Nat)
    (events : List PendingEvent) :
    (run (step clock) (start maximum reserved) events).registry.WellFormed
    (toolCallCapacityConfig maximum reserved) := by
  have preserved : ∀ (calls : PendingCalls) event, calls.registry.Invariant
      clock (toolCallCapacityConfig maximum reserved) →
      (calls.step clock event).registry.Invariant clock
      (toolCallCapacityConfig maximum reserved) :=
    fun calls event invariant => step_invariant calls event invariant
  have initial : (start maximum reserved).registry.Invariant clock
      (toolCallCapacityConfig maximum reserved) :=
    PendingCallRegistry.start_invariant maximum reserved
  exact (run_induction preserved initial events).wellFormed

end PendingCalls

end MachineBridge.Pending
