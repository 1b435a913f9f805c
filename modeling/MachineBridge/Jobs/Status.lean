import MachineBridge.Foundation.Text

/-!
# Managed-job states

A job is staged, active or terminal.  A state which an earlier or later release
wrote is none of the three.
-/

namespace MachineBridge.Jobs

open Foundation

inductive JobState where
  | staged
  | queued
  | running
  | cleaning
  | interrupted
  | succeeded
  | failed
  | cancelled
  | succeededCleanupFailed
  | failedCleanupFailed
  | cancelledCleanupFailed
  | recovered
  | recoveryFailed
  | runnerFailed
  | runnerLaunchFailed
  | recoveryExhausted
  | cancelledBeforeStart
  | expiredBeforeStart
  /-- Any other value of the status field. -/
  | unknown
deriving DecidableEq

namespace JobState

def active : JobState → Bool
  | .queued | .running | .cleaning | .interrupted => true
  | _ => false

def terminal : JobState → Bool
  | .staged | .queued | .running | .cleaning | .interrupted | .unknown => false
  | _ => true

def retainsPlan (state : JobState) : Bool := state == .staged || state.active

theorem terminal_eq_false_of_retainsPlan {state : JobState}
    (retains : state.retainsPlan = true) : state.terminal = false := by
  revert retains
  cases state <;> decide

end JobState

/-- What reading a JSON file gives.  A file which holds null counts as
missing. -/
inductive Reading (α : Type) where
  | missing
  | unreadable
  | value (content : α)

/-- `^job_[A-Za-z0-9_-]{24,}$` -/
def managedJobId : Text → Bool :=
  labelled (text "job_") fun body => 24 ≤ body.length && body.all isBase64Url

end MachineBridge.Jobs
