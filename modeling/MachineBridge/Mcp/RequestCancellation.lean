import MachineBridge.Pending.Contract

/-!
# The registry of cancelled MCP requests

A cancellation which finds no open request leaves a tombstone, and where there
is no room for one the registry fails closed for as long as the tombstone would
have lasted.  Each operation takes the readings of the clock which it makes, in
whole milliseconds.
-/

namespace MachineBridge.Mcp

open Foundation

/-- The identity of a response stream. -/
abbrev RequestKey := String

def defaultTombstoneTtlMs : Nat :=
  Pending.maximumRelayToolTimeoutMs + Pending.reconnectGraceMs

def defaultMaxTombstones : Nat := 512

def positiveInteger (value : Option Int) (fallback : Nat) : Nat :=
  match value with
  | none => fallback
  | some number =>
    if 0 < number ∧ number ≤ maxSafeInteger then number.toNat else fallback

structure McpRequestCancellationRegistry where
  /-- The open requests, and whether they are aborted. -/
  active : Record RequestKey Bool := .empty
  /-- The tombstones, and when they expire. -/
  cancelledBeforeOpen : Record RequestKey Nat := .empty
  failClosedUntil : Nat := 0
  tombstoneTtlMs : Nat := defaultTombstoneTtlMs
  maximumTombstones : Nat := defaultMaxTombstones

namespace McpRequestCancellationRegistry

def new (tombstoneTtlMs maximumTombstones : Option Int) :
    McpRequestCancellationRegistry :=
  { tombstoneTtlMs := positiveInteger tombstoneTtlMs defaultTombstoneTtlMs
    maximumTombstones :=
      positiveInteger maximumTombstones defaultMaxTombstones }

variable (registry : McpRequestCancellationRegistry)

def prune (now : Nat) : McpRequestCancellationRegistry :=
  { registry with
    cancelledBeforeOpen :=
      registry.cancelledBeforeOpen.filter fun _ expiresAt => now < expiresAt
    failClosedUntil :=
      if registry.failClosedUntil ≤ now then 0
      else registry.failClosedUntil }

section

variable (requestKey : RequestKey)

def bury (expiresAt : Nat) : McpRequestCancellationRegistry :=
  if registry.cancelledBeforeOpen.contains requestKey ∨
      registry.cancelledBeforeOpen.size < registry.maximumTombstones then
    { registry with
      cancelledBeforeOpen :=
        registry.cancelledBeforeOpen.set requestKey expiresAt }
  else
    -- No marker is evicted for the new one.
    { registry with
      failClosedUntil := max registry.failClosedUntil expiresAt }

def cancel (now later : Nat) : McpRequestCancellationRegistry :=
  let pruned := registry.prune now
  if pruned.active.contains requestKey then
    { pruned with active := pruned.active.set requestKey true }
  else pruned.bury requestKey (later + registry.tombstoneTtlMs)

/-- The registry, and whether the request was opened: a second request of an
identity which is open is refused. -/
def openRequest (requestAborted : Bool) (now later : Nat) :
    McpRequestCancellationRegistry × Bool :=
  let pruned := registry.prune now
  if pruned.active.contains requestKey then (pruned, false)
  else
    let cancelledBeforeOpen := pruned.cancelledBeforeOpen.contains requestKey
    let aborted := requestAborted || cancelledBeforeOpen ||
      decide (later < pruned.failClosedUntil)
    ({ pruned with
        cancelledBeforeOpen := pruned.cancelledBeforeOpen.delete requestKey
        active := pruned.active.set requestKey aborted }, true)

/-- The `cancel` of a lease, also when the signal of its request fires. -/
def cancelLease : McpRequestCancellationRegistry :=
  if registry.active.contains requestKey then
    { registry with active := registry.active.set requestKey true }
  else registry

def release : McpRequestCancellationRegistry :=
  { registry with active := registry.active.delete requestKey }

/-- A cancellation of an identity stands until a time: it has a tombstone, or
the registry fails closed. -/
def Stands (time : Nat) : Prop :=
  (∃ expiresAt, registry.cancelledBeforeOpen.get? requestKey =
    some expiresAt ∧ time ≤ expiresAt) ∨ time ≤ registry.failClosedUntil

end

variable {registry} {requestKey other : RequestKey} {now later time : Nat}

@[simp] theorem active_prune :
    (registry.prune now).active = registry.active := rfl

@[simp] theorem tombstoneTtlMs_prune :
    (registry.prune now).tombstoneTtlMs = registry.tombstoneTtlMs := rfl

variable {expiresAt : Nat} {aborted : Bool}

theorem get?_prune :
    (registry.prune now).cancelledBeforeOpen.get? requestKey = some expiresAt ↔
    registry.cancelledBeforeOpen.get? requestKey = some expiresAt ∧
    now < expiresAt := by
  rw [Record.get?_eq_some, Record.get?_eq_some]
  simp [prune]

theorem Stands.mono {early : Nat} (stands : registry.Stands requestKey time)
    (earlier : early ≤ time) : registry.Stands requestKey early := by
  rcases stands with ⟨expiresAt, found, late⟩ | late
  · exact .inl ⟨expiresAt, found, Nat.le_trans earlier late⟩
  · exact .inr (Nat.le_trans earlier late)

theorem Stands.prune (stands : registry.Stands requestKey time)
    (early : now < time) : (registry.prune now).Stands requestKey time := by
  rcases stands with ⟨expiresAt, found, late⟩ | late
  · left
    refine ⟨expiresAt, get?_prune.mpr ⟨found, ?_⟩, late⟩
    exact Nat.lt_of_lt_of_le early late
  · right
    unfold McpRequestCancellationRegistry.prune
    rw [if_neg (by omega)]
    exact late

theorem Stands.bury (stands : registry.Stands requestKey time)
    (same : other = requestKey → time ≤ expiresAt) :
    (registry.bury other expiresAt).Stands requestKey time := by
  unfold McpRequestCancellationRegistry.bury
  split
  case isTrue =>
    rcases stands with ⟨old, found, late⟩ | late
    · left
      by_cases equal : other = requestKey
      · refine ⟨expiresAt, ?_, same equal⟩
        simp [equal]
      · refine ⟨old, ?_, late⟩
        rw [Record.get?_set, if_neg (Ne.symm equal), found]
    · exact .inr late
  case isFalse =>
    rcases stands with found | late
    · exact .inl found
    · exact .inr (le_max_of_le_left late)

theorem bury_stands :
    (registry.bury requestKey expiresAt).Stands requestKey expiresAt := by
  unfold bury
  split
  case isTrue =>
    left
    simp
  case isFalse => exact .inr (Nat.le_max_right _ _)

@[simp] theorem active_bury :
    (registry.bury requestKey expiresAt).active = registry.active := by
  unfold bury
  split <;> rfl

@[simp] theorem tombstoneTtlMs_bury :
    (registry.bury requestKey expiresAt).tombstoneTtlMs =
    registry.tombstoneTtlMs := by
  unfold bury
  split <;> rfl

@[simp] theorem tombstoneTtlMs_cancel :
    (registry.cancel requestKey now later).tombstoneTtlMs =
    registry.tombstoneTtlMs := by
  unfold cancel
  dsimp only
  split
  case isTrue => rfl
  case isFalse => rw [tombstoneTtlMs_bury, tombstoneTtlMs_prune]

@[simp] theorem tombstoneTtlMs_openRequest :
    (registry.openRequest requestKey aborted now later).1.tombstoneTtlMs =
    registry.tombstoneTtlMs := by
  unfold openRequest
  dsimp only
  split <;> rfl

@[simp] theorem tombstoneTtlMs_cancelLease :
    (registry.cancelLease requestKey).tombstoneTtlMs =
    registry.tombstoneTtlMs := by
  unfold cancelLease
  split <;> rfl

theorem get?_active_cancel :
    (registry.cancel requestKey now later).active.get? other = if other =
    requestKey ∧ registry.active.contains requestKey then some true else
    registry.active.get? other := by
  unfold cancel
  dsimp only
  rw [active_prune]
  split
  case isTrue contained =>
    rw [Record.get?_set]
    by_cases same : other = requestKey
    · rw [if_pos same, if_pos ⟨same, contained⟩]
    · rw [if_neg same, if_neg fun both => same both.1]
  case isFalse absent =>
    rw [active_bury, active_prune, if_neg fun both => absent both.2]

theorem get?_active_cancelLease :
    (registry.cancelLease requestKey).active.get? other = if other =
    requestKey ∧ registry.active.contains requestKey then some true else
    registry.active.get? other := by
  unfold cancelLease
  split
  case isTrue contained =>
    rw [Record.get?_set]
    by_cases same : other = requestKey
    · rw [if_pos same, if_pos ⟨same, contained⟩]
    · rw [if_neg same, if_neg fun both => same both.1]
  case isFalse absent => rw [if_neg fun both => absent both.2]

theorem Stands.cancel (stands : registry.Stands requestKey time)
    (early : now < time)
    (same : other = requestKey → time ≤ later + registry.tombstoneTtlMs) :
    (registry.cancel other now later).Stands requestKey time := by
  unfold McpRequestCancellationRegistry.cancel
  dsimp only
  have pruned := stands.prune early
  split
  case isTrue => exact pruned
  case isFalse => exact pruned.bury same

theorem get?_cancel (found : (registry.cancel requestKey now
    later).cancelledBeforeOpen.get? other = some expiresAt) : other =
    requestKey ∨ registry.cancelledBeforeOpen.get? other = some expiresAt := by
  unfold cancel bury at found
  dsimp only at found
  split at found
  case isTrue => exact .inr (get?_prune.mp found).1
  case isFalse =>
    split at found
    case isTrue =>
      rw [Record.get?_set] at found
      split at found
      case isTrue same => exact .inl same
      case isFalse => exact .inr (get?_prune.mp found).1
    case isFalse => exact .inr (get?_prune.mp found).1

theorem get?_openRequest (found : (registry.openRequest requestKey aborted now
    later).1.cancelledBeforeOpen.get? other = some expiresAt) :
    registry.cancelledBeforeOpen.get? other = some expiresAt := by
  unfold openRequest at found
  dsimp only at found
  split at found
  case isTrue => exact (get?_prune.mp found).1
  case isFalse =>
    rw [Record.get?_delete] at found
    split at found
    case isTrue => cases found
    case isFalse => exact (get?_prune.mp found).1

section

variable (closed : registry.active.contains requestKey = false)
include closed

theorem openRequest_aborted
    (found : (registry.openRequest requestKey aborted now
    later).1.active.get? requestKey = some true) : aborted = true ∨
    (registry.cancelledBeforeOpen.get? requestKey).isSome = true ∨ later <
    registry.failClosedUntil := by
  unfold openRequest at found
  rw [if_neg (by simp [closed]), Record.get?_set, if_pos rfl,
    Option.some.injEq] at found
  simp only [Bool.or_eq_true, decide_eq_true_eq] at found
  rcases found with (own | tombstone) | failing
  · exact .inl own
  · right
    left
    obtain ⟨expiresAt, stored⟩ := Option.isSome_iff_exists.mp tombstone
    rw [(get?_prune.mp stored).1]
    rfl
  · right
    right
    unfold prune at failing
    split at failing
    case isTrue => exact absurd failing (Nat.not_lt_zero later)
    case isFalse => exact failing

theorem cancel_stands :
    (registry.cancel requestKey now later).Stands requestKey
    (later + registry.tombstoneTtlMs) := by
  unfold cancel
  dsimp only
  rw [active_prune, closed]
  exact bury_stands

end

theorem Stands.openRequest (stands : registry.Stands requestKey time)
    (early : now < time) (differ : requestKey ≠ other) :
    (registry.openRequest other aborted now later).1.Stands requestKey time :=
    by
  unfold McpRequestCancellationRegistry.openRequest
  dsimp only
  have pruned := stands.prune early
  split
  case isTrue => exact pruned
  case isFalse =>
    rcases pruned with ⟨expiresAt, found, late⟩ | late
    · left
      refine ⟨expiresAt, ?_, late⟩
      rw [Record.get?_delete, if_neg differ, found]
    · exact .inr late

theorem get?_active_openRequest (differ : other ≠ requestKey) :
    (registry.openRequest requestKey aborted now later).1.active.get? other =
    registry.active.get? other := by
  unfold openRequest
  dsimp only
  split
  case isTrue => rfl
  case isFalse =>
    rw [Record.get?_set, if_neg differ]
    rfl

theorem Stands.aborts (stands : registry.Stands requestKey time)
    (early : now < time) (unexpired : later < time)
    (closed : registry.active.contains requestKey = false) :
    (registry.openRequest requestKey aborted now later).1.active.get?
    requestKey = some true := by
  have pruned := stands.prune early
  unfold McpRequestCancellationRegistry.openRequest
  rw [if_neg (by simp [closed]), Record.get?_set, if_pos rfl]
  rw [Option.some.injEq]
  simp only [Bool.or_eq_true, decide_eq_true_eq]
  rcases pruned with ⟨expiresAt, found, late⟩ | late
  · refine .inl (.inr ?_)
    rw [Record.contains, found, Option.isSome_some]
  · exact .inr (Nat.lt_of_lt_of_le unexpired late)

end McpRequestCancellationRegistry

end MachineBridge.Mcp
