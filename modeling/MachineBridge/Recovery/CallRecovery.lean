import MachineBridge.Recovery.Ownership

/-!
# Recovery of relay calls

`RelayCallRecovery` decides what the daemon keeps about a completed call, and
answers a resume offer with the offered calls it can prove missing.  A call is
`Owned` while the recovery itself holds evidence that it ran.
-/

namespace MachineBridge.Recovery

open Foundation

variable {Content : Type}

/-- What an operation reads outside the recovery: whether the relay can still
recover, whether a send succeeds, and the monotonic clock. -/
structure RecoveryContext where
  (recoverable sent : Bool := true)
  now : Rat := 0

structure RelayCallRecovery (Content : Type) where
  retention : RelayResultRetention Content := {}
  safety : RelayRedeliverySafety := {}
  reconnectTimer : Bool := false

namespace RelayCallRecovery

section

variable (recovery : RelayCallRecovery Content)

/-- Each expired result leaves a tombstone. -/
def pruneExpired (now : Rat) : RelayCallRecovery Content :=
  let expired := recovery.retention.expired now
  { recovery with
    retention := recovery.retention.deleteAll expired
    safety := expired.foldl RelayRedeliverySafety.markUnsafe
      recovery.safety }

/-- Each discarded result leaves a tombstone. -/
def discardAll : RelayCallRecovery Content :=
  { recovery with
    retention := {}
    safety := recovery.retention.entries.keys.foldl
      RelayRedeliverySafety.markUnsafe recovery.safety }

def scheduleExpiry : RelayCallRecovery Content :=
  { recovery with reconnectTimer := true }

def clearTimer : RelayCallRecovery Content :=
  { recovery with reconnectTimer := false }

def deliver (response : RelayResult Content) (context : RecoveryContext) :
    RelayCallRecovery Content :=
  if response.id == "" then recovery
  else if !context.recoverable then recovery
  else
    let pruned := recovery.pruneExpired context.now
    match pruned.retention.retainForDelivery response.id response
        context.now with
    | none => { pruned with safety := pruned.safety.markUnsafe response.id }
    | some retention =>
      if context.sent then { pruned with retention }
      else { pruned with retention }.scheduleExpiry

/-- `acknowledge` and `discard` are the same operation. -/
def acknowledge (callId : String) : RelayCallRecovery Content :=
  { recovery with retention := recovery.retention.delete callId }

def ownedCallIds (activeCallIds : List String) : List String :=
  activeCallIds ++ recovery.retention.entries.keys

def missing (activeCallIds resumed : List String) : List String :=
  resumed.dedup.filter fun callId =>
    !(recovery.ownedCallIds activeCallIds).contains callId &&
      recovery.safety.canProveMissing callId

/-- The start of `reconcile`, before anything is reported. -/
def observe (resumed : List String) (now : Rat) : RelayCallRecovery Content :=
  let pruned := recovery.pruneExpired now
  { pruned with safety := pruned.safety.observeResumedCallIds resumed }

/-- The end of `reconcile`: results that were not offered are discarded. -/
def discardUnoffered (resumed : List String) : RelayCallRecovery Content :=
  { recovery with
    retention := recovery.retention.deleteAll
      (recovery.retention.entries.keys.filter fun callId =>
        !resumed.contains callId) }

def disconnected (activeCallIds : List String) : RelayCallRecovery Content :=
  if activeCallIds.isEmpty && recovery.retention.entries.size == 0 then
    recovery
  else recovery.scheduleExpiry

/-- A failing send stops the loop over the retained results and arms the
timer. -/
def retryUnacknowledged (context : RecoveryContext) :
    RelayCallRecovery Content :=
  let pruned := recovery.pruneExpired context.now
  if pruned.retention.entries.size == 0 || context.sent then pruned
  else pruned.scheduleExpiry

def ready (context : RecoveryContext) : RelayCallRecovery Content :=
  recovery.clearTimer.retryUnacknowledged context

def stop : RelayCallRecovery Content :=
  recovery.clearTimer.discardAll

/-- The recovery holds evidence that a call ran: its result, or a reason not to
prove it missing. -/
def Owned (callId : String) : Prop :=
  callId ∈ recovery.retention.entries.keys ∨
    recovery.safety.canProveMissing callId = false

/-- No evidence is lost. -/
def Keeps (before after : RelayCallRecovery Content) : Prop :=
  ∀ callId, before.Owned callId → after.Owned callId

theorem Keeps.trans {first second third : RelayCallRecovery Content}
    (left : Keeps first second) (right : Keeps second third) :
    Keeps first third :=
  fun callId owned => right callId (left callId owned)

theorem pruneExpired_keeps (now : Rat) :
    Keeps recovery (recovery.pruneExpired now) := by
  intro callId owned
  rcases owned with retained | refused
  · rcases RelayResultRetention.mem_keys_deleteAll
      (recovery.retention.expired now) retained with still | gone
    · exact .inl still
    · exact .inr (RelayRedeliverySafety.markAll_refuses gone)
  · exact .inr ((RelayRedeliverySafety.markAll_keeps _ _).refused _ refused)

theorem discardAll_keeps : Keeps recovery recovery.discardAll := by
  intro callId owned
  rcases owned with retained | refused
  · exact .inr (RelayRedeliverySafety.markAll_refuses retained)
  · exact .inr ((RelayRedeliverySafety.markAll_keeps _ _).refused _ refused)

theorem deliver_keeps (response : RelayResult Content)
    (context : RecoveryContext) :
    Keeps recovery (recovery.deliver response context) := by
  simp only [deliver]
  split
  · exact fun _ => id
  · split
    · exact fun _ => id
    · apply (pruneExpired_keeps recovery context.now).trans
      intro callId owned
      split
      case h_1 =>
        rcases owned with retained | refused
        · exact .inl retained
        · exact .inr ((RelayRedeliverySafety.markUnsafe_keeps _ _).refused
            _ refused)
      case h_2 retention stored =>
        have grown := RelayResultRetention.mem_keys_retainForDelivery stored
        have after : callId ∈ retention.entries.keys ∨
            (recovery.pruneExpired context.now).safety.canProveMissing callId =
            false := by
          rcases owned with retained | refused
          · exact .inl ((grown callId).mpr (.inr retained))
          · exact .inr refused
        split <;> exact after

theorem deliver_owned (response : RelayResult Content)
    {context : RecoveryContext} (recoverable : context.recoverable = true) :
    (recovery.deliver response context).Owned response.id := by
  simp only [deliver]
  split
  case isTrue empty =>
    have same : response.id = "" := by simpa using empty
    exact .inr (by simp [RelayRedeliverySafety.canProveMissing, same])
  case isFalse =>
    rw [if_neg (by simp [recoverable])]
    split
    case h_1 => exact .inr (RelayRedeliverySafety.markUnsafe_refuses _ _)
    case h_2 retention stored =>
      have grown := (RelayResultRetention.mem_keys_retainForDelivery stored
        response.id).mpr (.inl rfl)
      split <;> exact .inl grown

end

variable {callId : String} {recovery : RelayCallRecovery Content}
  {resumed : List String}

theorem acknowledge_owned {other : String} (owned : recovery.Owned other) :
    other = callId ∨ (recovery.acknowledge callId).Owned other := by
  rcases owned with retained | refused
  · by_cases same : other = callId
    · exact .inl same
    · exact .inr (.inl
        (RelayResultRetention.mem_keys_delete.mpr ⟨same, retained⟩))
  · exact .inr (.inr refused)

theorem observe_owned {now : Rat} (owned : recovery.Owned callId)
    (offered : callId ∈ resumed) :
    (recovery.observe resumed now).Owned callId := by
  rcases pruneExpired_keeps recovery now callId owned with retained | refused
  · exact .inl retained
  · exact .inr (RelayRedeliverySafety.observeResumedCallIds_refuses refused
      offered)

theorem discardUnoffered_owned (owned : recovery.Owned callId)
    (offered : callId ∈ resumed) :
    (recovery.discardUnoffered resumed).Owned callId := by
  rcases owned with retained | refused
  · rcases RelayResultRetention.mem_keys_deleteAll
      (recovery.retention.entries.keys.filter fun callId =>
        !resumed.contains callId) retained with still | gone
    · exact .inl still
    · have unoffered := (List.mem_filter.mp gone).2
      simp [offered] at unoffered
  · exact .inr refused

theorem mem_missing {activeCallIds : List String} :
    callId ∈ recovery.missing activeCallIds resumed ↔ callId ∈ resumed ∧
    callId ∉ activeCallIds ∧ ¬ recovery.Owned callId := by
  simp only [missing, List.mem_filter, List.mem_dedup, Bool.and_eq_true,
    Bool.not_eq_true', ownedCallIds, Owned]
  rw [← Bool.not_eq_true, List.contains_iff_mem, List.mem_append]
  constructor
  · rintro ⟨offered, unowned, provable⟩
    refine ⟨offered, fun active => unowned (.inl active), ?_⟩
    rintro (retained | refused)
    · exact unowned (.inr retained)
    · rw [provable] at refused
      cases refused
  · rintro ⟨offered, inactive, unowned⟩
    refine ⟨offered, ?_, ?_⟩
    · rintro (active | retained)
      · exact inactive active
      · exact unowned (.inl retained)
    · cases provable : recovery.safety.canProveMissing callId with
      | true => rfl
      | false => exact absurd (.inr provable) unowned

theorem retryUnacknowledged_keeps (recovery : RelayCallRecovery Content)
    (context : RecoveryContext) :
    Keeps recovery (recovery.retryUnacknowledged context) := by
  simp only [retryUnacknowledged]
  split <;> exact pruneExpired_keeps recovery context.now

end RelayCallRecovery

end MachineBridge.Recovery
