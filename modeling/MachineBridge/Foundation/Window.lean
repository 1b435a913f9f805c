import MachineBridge.Foundation.Number
import Mathlib.Data.List.Basic

/-!
# Numbered windows

A sender of a numbered transport keeps the part of its history which was not
acknowledged yet, every item with its number.  The window of a history from a
position on is that part, and the operations of a queue are operations on
windows: appending an item, and dropping the items up to an acknowledged
number.
-/

namespace Foundation

open List

universe u

/-- An item of a queue with its sequence number and its size. -/
structure Entry (α : Type u) where
  seq : Nat
  payload : α
  bytes : Nat

variable {α : Type u} (size : α → Nat)

/-- The entries of the items which follow `start` earlier ones. -/
def window : Nat → List α → List (Entry α)
  | _, [] => []
  | start, item :: items =>
    ⟨increment start, item, size item⟩ :: window (start + 1) items

section

variable (start : Nat)

@[simp] theorem window_nil : window size start ([] : List α) = [] := rfl

@[simp] theorem window_cons (item : α) (items : List α) :
    window size start (item :: items) = ⟨increment start, item, size item⟩ ::
    window size (start + 1) items :=
  rfl

@[simp] theorem window_length (items : List α) :
    (window size start items).length = items.length := by
  induction items generalizing start with
  | nil => rfl
  | cons item items induction => simp [induction]

@[simp] theorem window_payload (items : List α) :
    (window size start items).map Entry.payload = items := by
  induction items generalizing start with
  | nil => rfl
  | cons item items induction => simp [induction]

theorem window_append (before after : List α) :
    window size start (before ++ after) = window size start before ++
    window size (start + before.length) after := by
  induction before generalizing start with
  | nil => simp
  | cons item items induction =>
    simp [induction, Nat.add_assoc, Nat.add_comm 1]

end

theorem getElem?_of_mem_window {history : List α} {start : Nat}
    {entry : Entry α} (member : entry ∈ window size start (history.drop start))
    (safe : entry.seq ≤ maxSafeInteger) :
    0 < entry.seq ∧ history[entry.seq - 1]? = some entry.payload := by
  generalize tail : history.drop start = items at member
  induction items generalizing start with
  | nil => cases member
  | cons item items induction =>
    have head : history[start]? = some item := by
      have first : (history.drop start)[0]? = some item := by rw [tail]; rfl
      simpa [getElem?_drop] using first
    have rest : history.drop (start + 1) = items := by
      have shifted := congrArg List.tail tail
      simpa [tail_drop] using shifted
    rcases mem_cons.mp member with first | later
    · subst first
      have exact' := increment_eq_of_safe safe
      simp only [exact'] at safe ⊢
      exact ⟨Nat.succ_pos _, by simpa using head⟩
    · exact induction rest later

theorem dropWhile_window {sequence : Nat} (safe : sequence ≤ maxSafeInteger)
    (start : Nat) (items : List α) :
    (window size start items).dropWhile (fun entry => entry.seq ≤ sequence) =
    window size (start + (sequence - start)) (items.drop (sequence - start)) :=
    by
  induction items generalizing start with
  | nil => simp
  | cons item items induction =>
    have compare : increment start ≤ sequence ↔ start < sequence :=
      increment_le_iff safe
    by_cases before : start < sequence
    · have shift : sequence - start = (sequence - (start + 1)) + 1 := by
        omega
      have position : start + (sequence - start) = start + 1 +
          (sequence - (start + 1)) := by
        omega
      rw [window_cons, dropWhile_cons_of_pos (by
        simpa using compare.mpr before), induction, position, shift,
        drop_succ_cons]
    · have stop : sequence - start = 0 := by omega
      rw [window_cons, dropWhile_cons_of_neg (by
        simpa using fun le => before (compare.mp le)), stop]
      simp

theorem takeWhile_window {sequence : Nat} (safe : sequence ≤ maxSafeInteger)
    (start : Nat) (items : List α) :
    (window size start items).takeWhile (fun entry => entry.seq ≤ sequence) =
    window size start (items.take (sequence - start)) := by
  induction items generalizing start with
  | nil => simp
  | cons item items induction =>
    have compare : increment start ≤ sequence ↔ start < sequence :=
      increment_le_iff safe
    by_cases before : start < sequence
    · have shift : sequence - start = (sequence - (start + 1)) + 1 := by
        omega
      rw [window_cons, takeWhile_cons_of_pos (by
        simpa using compare.mpr before), induction, shift,
        take_succ_cons, window_cons]
    · have stop : sequence - start = 0 := by omega
      rw [window_cons, takeWhile_cons_of_neg (by
        simpa using fun le => before (compare.mp le)), stop]
      simp

/-- The numbered part of a sender's state: the next number, the greatest
acknowledged one, and what is kept for retransmission. -/
structure Queue (α : Type u) where
  next : Nat := 1
  acknowledged : Nat := 0
  messages : List (Entry α) := []

namespace Queue

section

variable (queue : Queue α)

/-- Number an item and keep it. -/
def push (item : α) : Queue α :=
  { queue with
    next := increment queue.next
    messages := queue.messages ++ [⟨queue.next, item, size item⟩] }

/-- The kept items which an acknowledgement lets go. -/
def removed (sequence : Nat) : List (Entry α) :=
  if sequence ≤ queue.acknowledged then []
  else queue.messages.takeWhile (fun entry => entry.seq ≤ sequence)

/-- Take an acknowledgement; one that was never issued is refused. -/
def acknowledge (sequence : Nat) : Option (Queue α) :=
  if !isSafeInteger sequence || queue.next ≤ sequence then none
  else if sequence ≤ queue.acknowledged then some queue
  else some { queue with
    acknowledged := sequence
    messages := queue.messages.dropWhile
      (fun entry => entry.seq ≤ sequence) }

end

/-- The queue keeps exactly the unacknowledged rest of a history. -/
structure Carries (queue : Queue α) (history : List α) : Prop where
  next_eq : queue.next = increment history.length
  acknowledged_le : queue.acknowledged ≤ history.length
  messages_eq : queue.messages =
    window size queue.acknowledged (history.drop queue.acknowledged)

theorem carries_nil : Carries size ({} : Queue α) [] where
  next_eq := rfl
  acknowledged_le := Nat.le_refl 0
  messages_eq := rfl

variable {size}

variable {history : List α} {queue : Queue α}

theorem Carries.push (carries : Carries size queue history) (item : α) :
    Carries size (queue.push size item) (history ++ [item]) where
  next_eq := by simp [Queue.push, carries.next_eq, increment_increment]
  acknowledged_le := by
    have bound := carries.acknowledged_le
    simp only [Queue.push, length_append, length_singleton]
    omega
  messages_eq := by
    have bound := carries.acknowledged_le
    have position : queue.acknowledged +
        (history.drop queue.acknowledged).length = history.length := by
      simp only [length_drop]
      omega
    simp only [Queue.push, carries.messages_eq]
    rw [drop_append_of_le_length bound, window_append, position,
      carries.next_eq, window_cons, window_nil]

theorem Carries.acknowledge {next : Queue α} {sequence : Nat}
    (carries : Carries size queue history)
    (accepted : queue.acknowledge sequence = some next) :
    Carries size next history ∧
    next.acknowledged = max queue.acknowledged sequence ∧
    sequence ≤ history.length := by
  unfold Queue.acknowledge at accepted
  split at accepted
  · cases accepted
  case isFalse issued =>
    simp only [Bool.or_eq_true, Bool.not_eq_true', decide_eq_true_eq,
      not_or, Bool.not_eq_false, isSafeInteger_iff, Nat.not_le] at issued
    obtain ⟨safe, below⟩ := issued
    rw [carries.next_eq, lt_increment_iff safe] at below
    split at accepted
    case isTrue already =>
      cases accepted
      exact ⟨carries, by omega, below⟩
    case isFalse fresh =>
      cases accepted
      refine ⟨⟨carries.next_eq, below, ?_⟩, by simp only; omega, below⟩
      have position :
          queue.acknowledged + (sequence - queue.acknowledged) = sequence := by
        omega
      simp only [carries.messages_eq, dropWhile_window size safe,
        drop_drop, position]

theorem Carries.removed {next : Queue α} {sequence : Nat}
    (carries : Carries size queue history)
    (accepted : queue.acknowledge sequence = some next) :
    history.take queue.acknowledged ++
    (queue.removed sequence).map Entry.payload =
    history.take next.acknowledged := by
  obtain ⟨-, acknowledgedEq, -⟩ := carries.acknowledge accepted
  have safe : sequence ≤ maxSafeInteger := by
    unfold Queue.acknowledge at accepted
    split at accepted
    · cases accepted
    case isFalse issued =>
      simp only [Bool.or_eq_true, Bool.not_eq_true', decide_eq_true_eq,
        not_or, Bool.not_eq_false, isSafeInteger_iff] at issued
      exact issued.1
  rw [acknowledgedEq]
  unfold Queue.removed
  split
  case isTrue already => simp [Nat.max_eq_left already]
  case isFalse fresh =>
    have later : queue.acknowledged ≤ sequence := by omega
    have total :
        sequence = queue.acknowledged + (sequence - queue.acknowledged) := by
      omega
    rw [carries.messages_eq, takeWhile_window size safe, window_payload,
      Nat.max_eq_right later]
    conv_rhs => rw [total]
    rw [take_add]

theorem Carries.mem {entry : Entry α} (carries : Carries size queue history)
    (member : entry ∈ queue.messages) (safe : entry.seq ≤ maxSafeInteger) :
    0 < entry.seq ∧ history[entry.seq - 1]? = some entry.payload := by
  rw [carries.messages_eq] at member
  exact getElem?_of_mem_window size member safe

theorem Carries.take_acknowledged (carries : Carries size queue history)
    (empty : queue.messages = []) :
    history.take queue.acknowledged = history := by
  have rest := congrArg List.length carries.messages_eq
  rw [empty, window_length, length_drop] at rest
  apply take_of_length_le
  simp only [length_nil] at rest
  omega

end Queue

end Foundation
