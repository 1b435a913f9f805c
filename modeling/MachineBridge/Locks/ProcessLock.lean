import MachineBridge.Locks.LockRun

/-!
# The locks of the daemon and of the jobs

`acquireProcessLock` guards a daemon, its startup and the operations on a
service.  A daemon publishes in its lock that it is ready.

`acquirePidLock` guards the capacity of the job root, the transitions of a job
and its recovery.  The lock of a recovery is handed over to the runner which was
started for it; the runner knows the token and removes the lock itself.
-/

namespace MachineBridge.Locks

open Foundation

/-- What an owner records besides its process and its token. -/
structure ProcessLockDetail where
  (purpose workspace : String)
  startupReady : Bool := false
  startupReadyAt : Option Nat := none

section

variable (sameWorkspace : String → String → Bool)

/-- `sameWorkspaceIdentity` resolves both paths; what it finds is a
parameter. -/
def acceptsOwner (own found : ProcessLockDetail) : Bool :=
  found.purpose == own.purpose &&
    (found.workspace == "" || own.workspace == "" ||
      sameWorkspace found.workspace own.workspace)

/-- `updateProcessLock` -/
def updateProcessLock (found : ProcessLockDetail) (startupReadyAt : Nat) :
    Option ProcessLockDetail :=
  if found.purpose != "daemon" then none
  else if found.startupReady || found.startupReadyAt.isSome then none
  else some { found with
    startupReady := true
    startupReadyAt := some startupReadyAt }

/-- The parameters of `acquireProcessLock` -/
def processLock : LockProgram ProcessLockDetail where
  limits := { identities := 4 }
  accepts := acceptsOwner sameWorkspace
  drawsEveryAttempt := false
  ownerOnly := true
  reports := true
  update := some updateProcessLock
  allowHandoff := false

end

/-- The parameters of `acquirePidLock`; an owner records nothing besides its
process and its token that is read again. -/
def pidLock (allowHandoff : Bool) : LockProgram Unit where
  limits := {}
  accepts := fun _ _ => true
  drawsEveryAttempt := true
  ownerOnly := false
  reports := false
  update := none
  allowHandoff := allowHandoff

def recoveryLock : LockProgram Unit := pidLock true

def jobCapacityLock : LockProgram Unit := pidLock false

def jobTransitionLock : LockProgram Unit := pidLock false

namespace LockWorld

/-- A process lock excludes as long as no path is replaced between the last
check of a removal and its last step. -/
theorem processLock_exclusive (sameWorkspace : String → String → Bool)
    {events : List (LockEvent ProcessLockDetail)} (meets : Meets (step
    (processLock sameWorkspace)) (fun world event => world.undisturbed event =
    true) {} events) (before after : List (LockEvent ProcessLockDetail))
    (split : events = before ++ after) : Exclusive
    (run (step (processLock sameWorkspace)) {} before) :=
  exclusive_of_undisturbed meets before after split

def daemonDetail : ProcessLockDetail where
  purpose := "daemon"
  workspace := "/workspace"

def advances {Detail : Type} (process : ProcessId) (count : Nat) :
    List (LockEvent Detail) :=
  List.replicate count (.advance process true)

/-- A daemon crashes with its lock; another reclaims it, publishes that it is
ready, and releases it for a third. -/
def crashedDaemon : List (LockEvent ProcessLockDetail) :=
  .acquire 0 daemonDetail :: advances 0 8 ++
    .crash 0 :: .acquire 1 daemonDetail :: advances 1 23 ++
    .update 1 7 :: advances 1 10 ++
    .acquire 2 daemonDetail :: advances 2 9 ++
    .release 1 :: advances 1 10 ++
    .acquire 2 daemonDetail :: advances 2 8

theorem crashedDaemon_exclusive :
    Exclusive (run (step (processLock fun _ _ => true)) {} crashedDaemon) :=
  processLock_exclusive (fun _ _ => true) (by decide +kernel) crashedDaemon []
    (List.append_nil _).symm

/-- Two daemons reclaim the lock of a crashed one: the second acquires it
before the first takes its last step. -/
def concurrentDaemons : List (LockEvent ProcessLockDetail) :=
  .acquire 0 daemonDetail :: advances 0 8 ++
    .crash 0 :: .acquire 1 daemonDetail :: advances 1 14 ++
    .acquire 2 daemonDetail :: advances 2 23 ++ advances 1 9

/-- Both hold it then, and the lock of the second is gone. -/
theorem concurrentDaemons_overlap : ¬ ∀ before after,
    concurrentDaemons = before ++ after →
    Exclusive (run (step (processLock fun _ _ => true)) {} before) := by
  intro claimed
  have exclusive := claimed concurrentDaemons [] (List.append_nil _).symm
  have same := exclusive.single 1 2 ⟨1, 0⟩ ⟨2, 0⟩
    ⟨by decide +kernel, by decide +kernel⟩
    ⟨by decide +kernel, by decide +kernel⟩
  cases same

/-- A job lock excludes, also across a handoff, as long as no path is replaced
between the last check of a removal and its last step. -/
theorem pidLock_exclusive (allowHandoff : Bool) {events : List (LockEvent
    Unit)} (meets : Meets (step (pidLock allowHandoff)) (fun world event =>
    world.undisturbed event = true) {} events) (before after : List (LockEvent
    Unit)) (split : events = before ++ after) : Exclusive (run (step (pidLock
    allowHandoff)) {} before) :=
  exclusive_of_undisturbed meets before after split

def operations (process : ProcessId) (count : Nat) : List (LockEvent Unit) :=
  List.replicate count (.advance process true)

/-- A recovery is handed to a runner, which claims the lock; in between another
process tries in vain, and the one which handed it over crashes. -/
def handedOver : List (LockEvent Unit) :=
  .acquire 0 () :: operations 0 5 ++
    .claim 1 ⟨0, 0⟩ :: operations 1 4 ++
    .handoff 0 1 () :: operations 0 6 ++
    .crash 0 :: .acquire 2 () :: operations 2 9 ++ operations 1 10

theorem handedOver_exclusive :
    Exclusive (run (step (pidLock true)) {} handedOver) :=
  pidLock_exclusive true (by decide +kernel) handedOver []
    (List.append_nil _).symm

/-- Two processes reclaim the lock of a crashed one: the second acquires it
before the first takes its last step. -/
def concurrentRecoveries : List (LockEvent Unit) :=
  .acquire 0 () :: operations 0 5 ++
    .crash 0 :: .acquire 1 () :: operations 1 14 ++
    .acquire 2 () :: operations 2 20 ++ operations 1 6

/-- Both hold it then, and the lock of the second is gone. -/
theorem concurrentRecoveries_overlap : ¬ ∀ before after,
    concurrentRecoveries = before ++ after →
    Exclusive (run (step (pidLock true)) {} before) := by
  intro claimed
  have exclusive := claimed concurrentRecoveries [] (List.append_nil _).symm
  have same := exclusive.single 1 2 ⟨1, 1⟩ ⟨2, 1⟩
    ⟨by decide +kernel, by decide +kernel⟩
    ⟨by decide +kernel, by decide +kernel⟩
  cases same

end LockWorld

end MachineBridge.Locks
