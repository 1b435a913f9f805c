import MachineBridge.Foundation.Window

/-!
# Sequenced relay queues

The two numbered queues of the HTTPS relay fallback on the daemon's side, with
the limits of the shared relay contract.  Byte counts are those of the
serialized messages; the Worker's queue has the same numbered part.
-/

namespace MachineBridge.Relay

open Foundation

/-- The limits of the relay contract that the HTTPS fallback enforces. -/
def httpFallbackMaximumQueuedMessages : Nat := 64
def httpFallbackMaximumQueuedBytes : Nat := 16777216
def httpFallbackMaximumMessageBytes : Nat := 8388608
def httpFallbackMaximumEnvelopeBytes : Nat := 8454144

variable {α : Type} (size : α → Nat) (entrySize : Nat → α → Nat)

/-- The numbered payloads a request or a response carries: the longest prefix
of a queue which fits into a number of bytes.  An entry costs its serialized
size and `separator` bytes, the first one `lead` bytes instead. -/
def takeWithin (separator : Nat) (maximumBytes : Int) :
    Int → Nat → List (Entry α) → List (Nat × α)
  | _, _, [] => []
  | bytes, lead, message :: messages =>
    if maximumBytes <
        bytes + (entrySize message.seq message.payload + lead) then []
    else (message.seq, message.payload) ::
      takeWithin separator maximumBytes
        (bytes + (entrySize message.seq message.payload + lead))
        separator messages

theorem exists_mem_of_mem_takeWithin {separator lead : Nat}
    {maximumBytes bytes : Int} {messages : List (Entry α)} {item : Nat × α}
    (member : item ∈ takeWithin entrySize separator maximumBytes bytes lead
    messages) : ∃ entry ∈ messages, item = (entry.seq, entry.payload) := by
  induction messages generalizing bytes lead with
  | nil => cases member
  | cons message messages induction =>
    simp only [takeWithin] at member
    split at member
    · cases member
    · rcases List.mem_cons.mp member with here | later
      · exact ⟨message, List.mem_cons_self, here⟩
      · obtain ⟨entry, found, same⟩ := induction later
        exact ⟨entry, List.mem_cons_of_mem _ found, same⟩

structure RelayOutboundSequence (α : Type) extends Queue α where
  bytes : Nat := 0

namespace RelayOutboundSequence

/-- `none` when the source throws because the queue is full. -/
def enqueue (queue : RelayOutboundSequence α) (payload : α) :
    Option (RelayOutboundSequence α) :=
  if httpFallbackMaximumMessageBytes < size payload ||
      httpFallbackMaximumQueuedMessages ≤ queue.messages.length ||
      httpFallbackMaximumQueuedBytes < queue.bytes + size payload then none
  else some {
    toQueue := queue.toQueue.push size payload
    bytes := queue.bytes + size payload }

/-- `none` when the source reports an acknowledgement as invalid.  Byte
counts are never taken below zero. -/
def acknowledge (queue : RelayOutboundSequence α) (sequence : Nat) :
    Option (RelayOutboundSequence α) :=
  (queue.toQueue.acknowledge sequence).map fun next =>
    { toQueue := next
      bytes := (queue.toQueue.removed sequence).foldl
        (fun bytes message => bytes - message.bytes) queue.bytes }

def snapshot (queue : RelayOutboundSequence α) (maximumBytes : Int) :
    List (Nat × α) :=
  takeWithin entrySize 1 maximumBytes 2 0 queue.messages

def reset : RelayOutboundSequence α := {}

theorem enqueue_toQueue {queue next : RelayOutboundSequence α} {payload : α}
    (accepted : queue.enqueue size payload = some next) :
    next.toQueue = queue.toQueue.push size payload := by
  unfold enqueue at accepted
  split at accepted
  · cases accepted
  · cases accepted
    rfl

theorem acknowledge_toQueue {queue next : RelayOutboundSequence α}
    {sequence : Nat} (accepted : queue.acknowledge sequence = some next) :
    queue.toQueue.acknowledge sequence = some next.toQueue := by
  obtain ⟨base, found, same⟩ := Option.map_eq_some_iff.mp accepted
  rw [found, ← same]

end RelayOutboundSequence

/-- How a receiver classifies the number of an incoming message. -/
inductive SequenceClass where
  | new
  | duplicate
  | gap
deriving DecidableEq

/-- The check both receivers make against their last committed number. -/
def classifySequence (acknowledged sequence : Nat) : SequenceClass :=
  if !isSafeInteger sequence || sequence == 0 then .gap
  else if sequence ≤ acknowledged then .duplicate
  else if sequence = acknowledged + 1 then .new
  else .gap

theorem classifySequence_new {acknowledged sequence : Nat}
    (new : classifySequence acknowledged sequence = .new) :
    sequence ≤ maxSafeInteger ∧ sequence = acknowledged + 1 := by
  unfold classifySequence at new
  split at new
  · cases new
  case isFalse valid =>
    simp only [Bool.or_eq_true, Bool.not_eq_true', not_or,
      Bool.not_eq_false, isSafeInteger_iff] at valid
    split at new
    · cases new
    · split at new
      case isTrue next => exact ⟨valid.1, next⟩
      case isFalse => cases new

/-- The daemon's record of the Worker's messages it has committed. -/
structure RelayInboundSequence where
  acknowledged : Nat := 0

namespace RelayInboundSequence

section

variable (inbound : RelayInboundSequence)

def classify (sequence : Nat) : SequenceClass :=
  classifySequence inbound.acknowledged sequence

/-- `none` when the source throws because the number is not contiguous. -/
def commit (sequence : Nat) : Option RelayInboundSequence :=
  if sequence = inbound.acknowledged + 1 then some ⟨sequence⟩ else none

end

def reset : RelayInboundSequence := {}

theorem commit_eq_some {inbound next : RelayInboundSequence} {sequence : Nat}
    (committed : inbound.commit sequence = some next) :
    sequence = inbound.acknowledged + 1 ∧ next = ⟨sequence⟩ := by
  unfold commit at committed
  split at committed
  case isTrue contiguous => exact ⟨contiguous, (Option.some.inj committed).symm⟩
  case isFalse => cases committed

end RelayInboundSequence

end MachineBridge.Relay
