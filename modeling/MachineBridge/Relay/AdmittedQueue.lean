import MachineBridge.Relay.Sequence
import Mathlib.Algebra.BigOperators.Group.List.Basic
import Mathlib.Algebra.GroupWithZero.Nat
import Mathlib.Data.List.Chain

/-!
# Queues of admitted messages

Both sides of the HTTPS relay admit a message to a queue under the same limits,
and both carry a prefix of the queue which fits into the room there is.
-/

namespace MachineBridge.Relay

open Foundation List

variable {α : Type}

def numbered (entry : Entry α) : Nat × α := (entry.seq, entry.payload)

section TakeWithin

variable (entrySize : Nat → α → Nat)

theorem takeWithin_isPrefix (separator lead : Nat) (maximumBytes bytes : Int)
    (messages : List (Entry α)) :
    takeWithin entrySize separator maximumBytes bytes lead messages <+:
    messages.map numbered := by
  induction messages generalizing bytes lead with
  | nil => exact prefix_rfl
  | cons message messages induction =>
    rw [takeWithin]
    split
    · exact nil_prefix
    · rw [map_cons]
      apply (prefix_cons_inj _).mpr
      exact induction _ _

theorem takeWithin_ne_nil {separator lead : Nat} {maximumBytes bytes : Int}
    {message : Entry α} (messages : List (Entry α)) (fits : bytes + (entrySize
    message.seq message.payload + lead) ≤ maximumBytes) : takeWithin entrySize
    separator maximumBytes bytes lead (message :: messages) ≠ [] := by
  rw [takeWithin, if_neg (Int.not_lt.mpr fits)]
  exact cons_ne_nil _ _

def takenBytes (separator : Nat) (items : List (Nat × α)) : Nat :=
  (items.map fun item => entrySize item.1 item.2 + separator).sum

theorem takenBytes_le {separator lead : Nat} {maximumBytes bytes : Int}
    {messages : List (Entry α)} (some : takeWithin entrySize separator
    maximumBytes bytes lead messages ≠ []) : bytes + lead + takenBytes
    entrySize separator (takeWithin entrySize separator maximumBytes bytes lead
    messages) ≤ maximumBytes + separator := by
  induction messages generalizing bytes lead with
  | nil => exact absurd rfl some
  | cons message messages induction =>
    rw [takeWithin] at some ⊢
    split at some
    · exact absurd rfl some
    case isFalse fits =>
      rw [if_neg fits, takenBytes, map_cons, sum_cons]
      generalize later : takeWithin entrySize separator maximumBytes
        (bytes + (entrySize message.seq message.payload + lead)) separator
        messages = rest
      by_cases none : rest = []
      · rw [none]
        simp only [map_nil, sum_nil]
        omega
      · rw [← later] at none
        have further := induction none
        rw [later, takenBytes] at further
        dsimp only
        omega

end TakeWithin

/-- The next number follows the one before. -/
def Consecutive (numbers : List Nat) : Prop :=
  numbers.IsChain fun number next => next = increment number

theorem window_consecutive (size : α → Nat) (start : Nat) (items : List α) :
    Consecutive ((window size start items).map Entry.seq) := by
  induction items generalizing start with
  | nil => exact .nil
  | cons item items induction =>
    have later := induction (start + 1)
    cases items with
    | nil => exact .singleton _
    | cons next items =>
      exact .cons_cons (increment_increment start).symm later

theorem Consecutive.of_isPrefix {numbers longer : List Nat}
    (consecutive : Consecutive longer) (isPrefix : numbers <+: longer) :
    Consecutive numbers := by
  obtain ⟨rest, rfl⟩ := isPrefix
  exact List.IsChain.left_of_append consecutive

variable (size : α → Nat)

/-- The queue keeps the unacknowledged rest of what was admitted. -/
structure Admitted (queue : Queue α) : Prop where
  carries : ∃ history, queue.Carries size history
  small : ∀ entry ∈ queue.messages,
    size entry.payload ≤ httpFallbackMaximumMessageBytes
  few : queue.messages.length ≤ httpFallbackMaximumQueuedMessages

theorem admitted_nil : Admitted size ({} : Queue α) :=
  ⟨⟨[], Queue.carries_nil size⟩, nofun, Nat.zero_le _⟩

variable {size}

variable {queue : Queue α}

theorem Admitted.push (admitted : Admitted size queue) {item : α}
    (small : size item ≤ httpFallbackMaximumMessageBytes)
    (room : queue.messages.length < httpFallbackMaximumQueuedMessages) :
    Admitted size (queue.push size item) := by
  obtain ⟨history, carries⟩ := admitted.carries
  refine ⟨⟨_, carries.push item⟩, ?_, ?_⟩
  · intro entry member
    rcases mem_append.mp member with earlier | here
    · exact admitted.small entry earlier
    · rw [mem_singleton.mp here]
      exact small
  · simp only [Queue.push, length_append, length_singleton]
    exact room

theorem acknowledge_subset {next : Queue α} {sequence : Nat}
    (accepted : queue.acknowledge sequence = some next) :
    next.messages.Sublist queue.messages := by
  rw [Queue.acknowledge] at accepted
  split at accepted
  · cases accepted
  · split at accepted
    · cases accepted
      exact List.Sublist.refl _
    · cases accepted
      exact dropWhile_sublist _

theorem Admitted.acknowledge {next : Queue α} {sequence : Nat}
    (admitted : Admitted size queue)
    (accepted : queue.acknowledge sequence = some next) :
    Admitted size next := by
  obtain ⟨history, carries⟩ := admitted.carries
  have part := acknowledge_subset accepted
  refine ⟨⟨history, (carries.acknowledge accepted).1⟩, ?_, ?_⟩
  · intro entry member
    exact admitted.small entry (part.subset member)
  · exact part.length_le.trans admitted.few

theorem Admitted.consecutive (admitted : Admitted size queue) :
    Consecutive (queue.messages.map Entry.seq) := by
  obtain ⟨history, carries⟩ := admitted.carries
  rw [carries.messages_eq]
  exact window_consecutive size _ _

theorem window_seq_le (start : Nat) (items : List α) :
    ∀ entry ∈ window size start items, 0 < entry.seq ∧
    entry.seq ≤ maxSafeInteger + 1 := by
  induction items generalizing start with
  | nil => exact fun _ => nofun
  | cons item items induction =>
    intro entry member
    rcases mem_cons.mp member with here | later
    · rw [here]
      exact ⟨increment_pos start, Nat.min_le_right _ _⟩
    · exact induction (start + 1) entry later

theorem Admitted.seq_le (admitted : Admitted size queue) :
    ∀ entry ∈ queue.messages, 0 < entry.seq ∧
    entry.seq ≤ maxSafeInteger + 1 := by
  obtain ⟨history, carries⟩ := admitted.carries
  rw [carries.messages_eq]
  exact window_seq_le _ _

theorem Admitted.taken (admitted : Admitted size queue)
    {items : List (Nat × α)}
    (isPrefix : items <+: queue.messages.map numbered) :
    Consecutive (items.map Prod.fst) ∧
    items.length ≤ httpFallbackMaximumQueuedMessages ∧ ∀ item ∈ items,
    0 < item.1 := by
  have numbers : (queue.messages.map numbered).map Prod.fst =
      queue.messages.map Entry.seq := by
    rw [map_map]
    rfl
  refine ⟨?_, ?_, ?_⟩
  · apply admitted.consecutive.of_isPrefix
    rw [← numbers]
    exact isPrefix.map Prod.fst
  · have shorter := isPrefix.length_le
    rw [length_map] at shorter
    exact shorter.trans admitted.few
  · intro item member
    obtain ⟨entry, found, rfl⟩ := List.mem_map.mp (isPrefix.subset member)
    exact (admitted.seq_le entry found).1

end MachineBridge.Relay
