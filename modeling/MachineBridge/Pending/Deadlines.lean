import MachineBridge.Pending.Contract

/-!
# Deadlines of pending calls

Every `now()` is one reading of the clock, and every timer that is armed and
not yet cleared or run is live.  A timer runs the expiry of its call.
-/

namespace MachineBridge.Pending

open Foundation

inductive TimerKind where
  | operation
  | reconnect
deriving DecidableEq

structure PendingTimer where
  handle : TimerHandle
  callId : String
  kind : TimerKind

structure PendingCallDeadlines where
  timers : List PendingTimer := []
  nextTimer : TimerHandle := 1
  reads : Nat := 0

def boundedPendingDelayMs (value : Rat) (maximum : Nat := 2147483647) :
    Except String Int :=
  if maximum < 1 ∨ maxSafeInteger < maximum then
    .error "pending-call delay maximum must be a positive safe integer"
  else if value.isInt ∧ 1 ≤ value ∧ value ≤ maximum then .ok value.num
  else .error s!"pending-call delay must be an integer from 1 to {maximum}"

/-- What arming a timer leaves behind, and the error it threw. -/
structure Armed where
  deadlines : PendingCallDeadlines
  record : PendingCallRecord
  error : Option String := none

namespace PendingCallDeadlines

section

variable (clock : Clock)

def now (deadlines : PendingCallDeadlines) : Rat :=
  clock.reading deadlines.reads

def tick (deadlines : PendingCallDeadlines) : PendingCallDeadlines :=
  { deadlines with reads := deadlines.reads + 1 }

def clearTimeout (deadlines : PendingCallDeadlines)
    (handle : Option TimerHandle) : PendingCallDeadlines :=
  { deadlines with
    timers := deadlines.timers.filter fun timer =>
      some timer.handle != handle }

def setTimeout (deadlines : PendingCallDeadlines) (callId : String)
    (kind : TimerKind) : PendingCallDeadlines :=
  { deadlines with
    timers := deadlines.timers ++ [⟨deadlines.nextTimer, callId, kind⟩]
    nextTimer := deadlines.nextTimer + 1 }

/-- When the record's timer is to settle it. -/
def dueAt (record : PendingCallRecord) : Option Rat :=
  if record.socket.isSome then some record.deadlineAt
  else record.reconnectDeadlineAt

def isDue (record : PendingCallRecord) (now : Rat) : Bool :=
  (dueAt record).any (· ≤ now)

def armOperation (deadlines : PendingCallDeadlines)
    (record : PendingCallRecord) (delayMs : Rat) : Armed :=
  let cleared := deadlines.clearTimeout record.timeout
  match boundedPendingDelayMs delayMs with
  | .error message => ⟨cleared, record, some message⟩
  | .ok delay =>
    { deadlines := cleared.tick.setTimeout record.id .operation
      record := { record with
        remainingTimeoutMs := delay
        deadlineAt := cleared.now clock + delay
        timeout := some cleared.nextTimer } }

def pauseOperation (deadlines : PendingCallDeadlines)
    (record : PendingCallRecord) : PendingCallDeadlines × PendingCallRecord :=
  (deadlines.tick.clearTimeout record.timeout,
    { record with
      remainingTimeoutMs :=
        roundedUp (record.deadlineAt - deadlines.now clock)
      timeout := none })

def armReconnect (deadlines : PendingCallDeadlines)
    (record : PendingCallRecord) (delayMs : Rat) : Armed :=
  let cleared := deadlines.clearTimeout record.reconnectTimeout
  match boundedPendingDelayMs delayMs with
  | .error message => ⟨cleared, record, some message⟩
  | .ok delay =>
    { deadlines := cleared.tick.setTimeout record.id .reconnect
      record := { record with
        reconnectDeadlineAt := some (cleared.now clock + delay)
        reconnectTimeout := some cleared.nextTimer } }

end

section

variable (deadlines : PendingCallDeadlines)

def clearReconnect (record : PendingCallRecord) :
    PendingCallDeadlines × PendingCallRecord :=
  (deadlines.clearTimeout record.reconnectTimeout,
    { record with reconnectTimeout := none, reconnectDeadlineAt := none })

/-- The timers that are left when the record is removed. -/
def clear (record : PendingCallRecord) : PendingCallDeadlines :=
  (deadlines.clearTimeout record.timeout).clearTimeout
    record.reconnectTimeout

@[simp] theorem clearTimeout_none :
    deadlines.clearTimeout none = deadlines := by
  cases deadlines
  simp [clearTimeout]

end

end PendingCallDeadlines

/-- The source's `pendingCallReconnectSettlement`: the settlement deadline of
a reconnecting call, which is at least the end of the result-delivery grace. -/
def pendingCallReconnectSettlement (record : PendingCallRecord) (now : Rat) :
    PendingCallRecord :=
  let recoveryDeadlineAt :=
    record.originalDeadlineAt + reconnectResultDeliveryGraceMs
  let deadlineAt := max record.deadlineAt recoveryDeadlineAt
  { record with
    deadlineAt
    remainingTimeoutMs := roundedUp (deadlineAt - now) }

theorem boundedPendingDelayMs_ok {value : Rat} {maximum : Nat} {delay : Int}
    (accepted : boundedPendingDelayMs value maximum = .ok delay) :
    value = delay ∧ 1 ≤ delay ∧ delay ≤ maximum := by
  simp only [boundedPendingDelayMs] at accepted
  split at accepted
  · cases accepted
  · split at accepted
    case isFalse => cases accepted
    case isTrue within =>
      obtain ⟨whole, lower, upper⟩ := within
      cases accepted
      have equal : value = (value.num : Rat) := by
        simpa using (Rat.eq_num_of_isInt whole)
      rw [equal] at lower upper
      exact ⟨equal, by exact_mod_cast lower, by exact_mod_cast upper⟩

theorem boundedPendingDelayMs_cast {delay : Int} (positive : 1 ≤ delay)
    (within : delay ≤ 2147483647) :
    boundedPendingDelayMs (delay : Rat) = .ok delay := by
  have lower : (1 : Rat) ≤ delay := by exact_mod_cast positive
  have upper : (delay : Rat) ≤ ((2147483647 : Nat) : Rat) := by
    exact_mod_cast within
  have maximum : ¬ (2147483647 < 1 ∨ maxSafeInteger < 2147483647) := by decide
  have whole : (delay : Rat).isInt = true := by simp [Rat.isInt]
  rw [boundedPendingDelayMs, if_neg maximum, if_pos ⟨whole, lower, upper⟩]
  simp

end MachineBridge.Pending
