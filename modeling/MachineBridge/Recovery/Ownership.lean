import MachineBridge.Foundation.Record
import Mathlib.Data.List.Dedup
import Mathlib.Algebra.Order.Ring.Rat

/-!
# Evidence of execution on the daemon

A daemon instance remembers that a relay call ran in two bounded stores.
`RelayResultRetention` keeps completed results until the Worker acknowledged
them; when it lets go of one without an acknowledgement,
`RelayRedeliverySafety` keeps a tombstone, and once tombstones run out it
refuses every further proof.
-/

namespace MachineBridge.Recovery

open Foundation List

def maxConcurrentToolCalls : Nat := 16
def reservedControlToolCalls : Nat := 2
def maxUnsafeCallTombstones : Nat := maxConcurrentToolCalls * 4
def maxRetainedResults : Nat := maxConcurrentToolCalls
def maxRetainedResultsWithEmergencySlot : Nat := maxRetainedResults + 1
def maxAckRetentionMs : Rat := 315000

structure RelayRedeliverySafety where
  unsafeCallIds : List String := []
  globalRedeliveryDisabled : Bool := false

namespace RelayRedeliverySafety

section

variable (safety : RelayRedeliverySafety)

def canProveMissing (callId : String) : Bool :=
  callId != "" && !safety.globalRedeliveryDisabled &&
    !safety.unsafeCallIds.contains callId

def observeResumedCallIds (callIds : List String) : RelayRedeliverySafety :=
  if safety.globalRedeliveryDisabled then safety
  else { safety with
    unsafeCallIds := safety.unsafeCallIds.filter callIds.contains }

def markUnsafe (callId : String) : RelayRedeliverySafety :=
  if callId == "" || safety.globalRedeliveryDisabled ||
      safety.unsafeCallIds.contains callId then safety
  else if maxUnsafeCallTombstones ≤ safety.unsafeCallIds.length then
    { unsafeCallIds := [], globalRedeliveryDisabled := true }
  else { safety with unsafeCallIds := safety.unsafeCallIds ++ [callId] }

end

/-- No tombstone was lost that a later proof would need. -/
structure Keeps (before after : RelayRedeliverySafety) : Prop where
  refused : ∀ callId, before.canProveMissing callId = false →
    after.canProveMissing callId = false

theorem Keeps.refl (safety : RelayRedeliverySafety) : Keeps safety safety :=
  ⟨fun _ => id⟩

theorem Keeps.trans {first second third : RelayRedeliverySafety}
    (left : Keeps first second) (right : Keeps second third) :
    Keeps first third :=
  ⟨fun callId refused => right.refused callId (left.refused callId refused)⟩

variable {callId : String} {safety : RelayRedeliverySafety}

theorem canProveMissing_eq_false : safety.canProveMissing callId = false ↔
    callId = "" ∨ safety.globalRedeliveryDisabled = true ∨
    callId ∈ safety.unsafeCallIds := by
  by_cases empty : callId = "" <;>
    cases disabled : safety.globalRedeliveryDisabled <;>
    simp [canProveMissing, empty, disabled]

section

variable (safety : RelayRedeliverySafety)

theorem markUnsafe_keeps (callId : String) :
    Keeps safety (safety.markUnsafe callId) := by
  constructor
  intro other refused
  simp only [markUnsafe]
  split
  · exact refused
  · split
    · simp [canProveMissing_eq_false]
    · rw [canProveMissing_eq_false] at refused ⊢
      rcases refused with empty | disabled | listed
      · exact .inl empty
      · exact .inr (.inl disabled)
      · exact .inr (.inr (mem_append_left _ listed))

theorem markUnsafe_refuses (callId : String) :
    (safety.markUnsafe callId).canProveMissing callId = false := by
  simp only [markUnsafe]
  split
  case isTrue already =>
    simp only [Bool.or_eq_true, beq_iff_eq, contains_iff_mem,
      or_assoc] at already
    exact canProveMissing_eq_false.mpr already
  case isFalse =>
    split
    · simp [canProveMissing_eq_false]
    · simp [canProveMissing_eq_false]

theorem markAll_keeps (callIds : List String) :
    Keeps safety (callIds.foldl markUnsafe safety) := by
  induction callIds generalizing safety with
  | nil => exact .refl safety
  | cons callId callIds induction =>
    exact (markUnsafe_keeps safety callId).trans (induction _)

end

theorem markAll_refuses {callIds : List String} (member : callId ∈ callIds) :
    (callIds.foldl markUnsafe safety).canProveMissing callId = false := by
  induction callIds generalizing safety with
  | nil => cases member
  | cons first callIds induction =>
    rcases mem_cons.mp member with same | later
    · subst same
      exact (markAll_keeps _ callIds).refused _
        (markUnsafe_refuses safety callId)
    · exact induction later

theorem observeResumedCallIds_refuses {callIds : List String}
    (refused : safety.canProveMissing callId = false)
    (offered : callId ∈ callIds) :
    (safety.observeResumedCallIds callIds).canProveMissing callId = false := by
  simp only [observeResumedCallIds]
  split
  · exact refused
  · rw [canProveMissing_eq_false] at refused ⊢
    rcases refused with empty | disabled | listed
    · exact .inl empty
    · exact .inr (.inl disabled)
    · exact .inr (.inr (List.mem_filter.mpr
        ⟨listed, contains_iff_mem.mpr offered⟩))

end RelayRedeliverySafety

/-- A `tool_result` envelope. -/
structure RelayResult (Content : Type) where
  id : String
  content : Content

variable {Content : Type}

structure RelayResultRetention (Content : Type) where
  entries : Record String (RelayResult Content) := .empty
  retainedAt : Record String Rat := .empty

namespace RelayResultRetention

/-- The size up to which the store grows. -/
def capacity (emergency : Bool) : Nat :=
  if emergency then maxRetainedResultsWithEmergencySlot
  else maxRetainedResults

section

variable (retention : RelayResultRetention Content)

/-- `none` when the store refuses to grow. -/
def retain (callId : String) (response : RelayResult Content)
    (emergency : Bool) (now : Rat) : Option (RelayResultRetention Content) :=
  if !retention.entries.contains callId &&
      decide (capacity emergency ≤ retention.entries.size) then none
  else some {
    entries := retention.entries.set callId response
    retainedAt := if retention.retainedAt.contains callId
      then retention.retainedAt
      else retention.retainedAt.set callId now }

/-- `retainForDelivery` without its callback: the normal store first, then the
emergency slot; `none` when both are full. -/
def retainForDelivery (callId : String) (response : RelayResult Content)
    (now : Rat) : Option (RelayResultRetention Content) :=
  match retention.retain callId response false now with
  | some next => some next
  | none => retention.retain callId response true now

end

def delete (retention : RelayResultRetention Content) (callId : String) :
    RelayResultRetention Content where
  entries := retention.entries.delete callId
  retainedAt := retention.retainedAt.delete callId

section

variable (retention : RelayResultRetention Content)

/-- The results whose acknowledgement lifetime is over. -/
def expired (now : Rat) : List String :=
  (retention.retainedAt.entries.filter fun entry =>
    decide (entry.2 ≤ now - maxAckRetentionMs) &&
      retention.entries.contains entry.1).map Prod.fst

def deleteAll (callIds : List String) : RelayResultRetention Content :=
  callIds.foldl delete retention

end

variable {callId : String} {retention : RelayResultRetention Content}

theorem mem_keys_delete {other : String} :
    other ∈ (retention.delete callId).entries.keys ↔ other ≠ callId ∧
    other ∈ retention.entries.keys :=
  Record.mem_keys_delete

theorem mem_keys_deleteAll (callIds : List String) {other : String}
    (kept : other ∈ retention.entries.keys) :
    other ∈ (retention.deleteAll callIds).entries.keys ∨ other ∈ callIds := by
  induction callIds generalizing retention with
  | nil => exact .inl kept
  | cons callId callIds induction =>
    by_cases same : other = callId
    · subst same
      exact .inr mem_cons_self
    · rcases induction (mem_keys_delete.mpr ⟨same, kept⟩) with still | gone
      · exact .inl still
      · exact .inr (mem_cons_of_mem _ gone)

theorem mem_keys_retain {next : RelayResultRetention Content}
    {response : RelayResult Content} {emergency : Bool} {now : Rat}
    (stored : retention.retain callId response emergency now = some next)
    (other : String) : other ∈ next.entries.keys ↔ other = callId ∨
    other ∈ retention.entries.keys := by
  simp only [retain] at stored
  split at stored
  · cases stored
  · cases stored
    exact Record.mem_keys_set

theorem mem_keys_retainForDelivery {next : RelayResultRetention Content}
    {response : RelayResult Content} {now : Rat}
    (stored : retention.retainForDelivery callId response now = some next)
    (other : String) : other ∈ next.entries.keys ↔ other = callId ∨
    other ∈ retention.entries.keys := by
  simp only [retainForDelivery] at stored
  split at stored
  case h_1 kept normal =>
    cases stored
    exact mem_keys_retain normal other
  case h_2 => exact mem_keys_retain stored other

end RelayResultRetention

end MachineBridge.Recovery
