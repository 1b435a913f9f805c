import MachineBridge.Foundation.Run
import MachineBridge.Resources.Lease

/-!
# The lease coordinator

Calls of any number of processes wait for one lock, within which they read and
change the recorded leases.  Waiters are recorded and removed outside of it as
well.  An operation on a record is a step of its own, and processes start and
end between any two of them; the lock excludes, and ends with its holder.
-/

namespace MachineBridge.Resources

open Foundation

variable {Host Request Reservation : Type}

/-- A request on its way through the lock. -/
structure AdmissionTask (Host Request : Type) where
  waiter : Waiter Request
  (request effective : Request)
  host : Host

inductive AcquireOutcome where
  /-- A request that is not heavy needs no lease. -/
  | light
  | granted (leaseId : Nat)
  | refused
  | cancelled
  | failed

/-- A lease and the child which it is to be bound to, with its row. -/
structure LeaseBinding where
  (leaseId token child pid : Nat)
  processGroupIsolated : Bool

/-- The next operation of a call; a call without a task only prunes. -/
inductive LeasePhase (Host Request : Type) where
  | idle
  | attempting (waiter : Waiter Request) (request : Request)
  | locking (task : Option (AdmissionTask Host Request))
  | pruning (task : Option (AdmissionTask Host Request))
      (remaining : List Nat) (kept : List (Nat × Lease Request))
  | surveying (task : Option (AdmissionTask Host Request))
      (leases : List (Lease Request)) (remaining : List Nat)
      (waiters : List (Waiter Request))
  | dequeuing (waiter : Waiter Request) (leaseId : Nat)
  | deferred (waiter : Waiter Request) (request : Request) (reason : String)
  | leaving (waiter : Waiter Request) (outcome : AcquireOutcome)
  | exited (waiter : Option (Waiter Request)) (outcome : AcquireOutcome)
  | bindObserving (binding : LeaseBinding)
  | bindLocking (binding : LeaseBinding) (observedStart : Option Nat)
  | bindReading (binding : LeaseBinding) (observedStart : Option Nat)
  | bindWriting (binding : LeaseBinding) (observedStart : Option Nat)
      (lease : Lease Request)
  | releaseReading (leaseId token : Nat)
  | releaseObserving (leaseId token pid : Nat)
  | releaseLocking (leaseId token : Nat) (observed : Option (Nat × Option Nat))
  | releaseRemoving (leaseId token : Nat)
      (observed : Option (Nat × Option Nat))
  | done (ok : Bool)
  | crashed

structure LeaseCall (Host Request : Type) where
  process : Nat := 0
  phase : LeasePhase Host Request := .idle
  processStarts : Option ProcessStarts := none

/-- A lease that is no longer recorded, and what became of its owner. -/
structure LeaseRemoval (Request : Type) where
  lease : Lease Request
  (released ownerAlive groupAlive : Bool)
  clock : Nat

structure LeaseGrant (Host Request : Type) where
  waiter : Waiter Request
  recorded : List (Lease Request)
  waiters : List (Waiter Request)
  host : Host
  request : Request
  clock : Nat

structure LeaseBound where
  leaseId : Nat
  removed : Bool

structure LeaseWorld (Host Request : Type) where
  processes : ProcessTable
  clock : Nat
  leases : Record Nat (Lease Request) := .empty
  waiters : Record Nat (Waiter Request) := .empty
  lock : Option Nat := none
  calls : Nat → LeaseCall Host Request := fun _ => {}
  /-- Identifiers and tokens below are in use. -/
  issued : Nat := 0
  removals : List (LeaseRemoval Request) := []
  grants : List (LeaseGrant Host Request) := []
  bindings : List LeaseBound := []

inductive LeaseEvent (Host Request : Type) where
  | time (now : Nat)
  | spawn (parent pid : Nat) (isolated : Bool)
  /-- A process ends, with all of its calls. -/
  | exit (process : Nat)
  /-- A listing of the processes, or none. -/
  | sample (call : Nat) (ok : Bool)
  | acquire (call process : Nat) (request : Request) (waitMs : Nat)
      (published : Bool)
  | snapshot (call process : Nat)
  | bind (call process leaseId token child : Nat) (isolated : Bool)
  | release (call process leaseId token : Nat)
  | advance (call : Nat) (host : Host) (choice : Bool)
  /-- An operation of a call throws, or the request is cancelled. -/
  | fail (call : Nat) (cancelled : Bool)

def LeasePhase.waiter? : LeasePhase Host Request → Option (Waiter Request)
  | .attempting waiter _ => some waiter
  | .locking task => task.map AdmissionTask.waiter
  | .pruning task _ _ => task.map AdmissionTask.waiter
  | .surveying task _ _ _ => task.map AdmissionTask.waiter
  | .dequeuing waiter _ => some waiter
  | .deferred waiter _ _ => some waiter
  | .leaving waiter _ => some waiter
  | .exited waiter _ => waiter
  | _ => none

/-- Whether a call has come to its `finally` or is not under way. -/
def LeasePhase.isOver : LeasePhase Host Request → Bool
  | .idle => true
  | .leaving _ _ => true
  | .exited _ _ => true
  | .done _ => true
  | .crashed => true
  | _ => false

def LeasePhase.isIdle : LeasePhase Host Request → Bool
  | .idle => true
  | _ => false

namespace LeaseWorld

variable (world : LeaseWorld Host Request) (call : Nat)

def phase : LeasePhase Host Request := (world.calls call).phase

def setCall (info : LeaseCall Host Request) : LeaseWorld Host Request :=
  { world with calls := Function.update world.calls call info }

def enter (phase : LeasePhase Host Request) : LeaseWorld Host Request :=
  world.setCall call { world.calls call with phase }

def start (process : Nat) (phase : LeasePhase Host Request) :
    LeaseWorld Host Request :=
  world.setCall call { world.calls call with process, phase }

def withLeases (leases : Record Nat (Lease Request)) :
    LeaseWorld Host Request := { world with leases }

def withWaiters (waiters : Record Nat (Waiter Request)) :
    LeaseWorld Host Request := { world with waiters }

/-- The lock is given back if the call has it. -/
def unlock : LeaseWorld Host Request :=
  { world with lock := if world.lock = some call then none else world.lock }

def acquireLock (phase : LeasePhase Host Request) : LeaseWorld Host Request :=
  match world.lock with
  | none => { world with lock := some call }.enter call phase
  | some _ => world

def finish (ok : Bool) : LeaseWorld Host Request :=
  (world.unlock call).enter call (.done ok)

def evidence : ProcessEvidence :=
  match world.processes[(world.calls call).process]? with
  | none => ⟨0, 0, (world.calls call).processStarts⟩
  | some info => ⟨info.pid, info.started, (world.calls call).processStarts⟩

section

variable (lease : Lease Request)

def isStale : Bool :=
  resourceLeaseIsStale world.processes world.clock lease (world.evidence call)

def removal (released : Bool) : LeaseRemoval Request :=
  { lease
    released
    ownerAlive := world.processes.isRunning lease.owner.process
    groupAlive := lease.owner.processGroupIsolated &&
      world.processes.groupRuns lease.owner.process
    clock := world.clock }

def removeLease (released : Bool) : LeaseWorld Host Request :=
  { world with
    leases := world.leases.delete lease.leaseId
    removals := world.removals ++ [world.removal lease released] }

end

def removeResourceWaiter (waiter : Waiter Request) : LeaseWorld Host Request :=
  match world.waiters.get? waiter.waiterId with
  | none => world
  | some stored =>
    if stored.token = waiter.token then
      world.withWaiters (world.waiters.delete waiter.waiterId)
    else world

def createResourceWaiter (info : OsProcess) (request : Request)
    (waitMs : Nat) : Waiter Request :=
  { waiterId := world.issued
    token := world.issued + 1
    enqueuedAt := world.clock
    expiresAt := world.clock + max 5000 waitMs + waiterGraceMs
    owner := ⟨info.pid, info.started⟩
    request }

variable (policy : AdmissionPolicy Host Request Reservation)

/-- The first steps of `acquire`; a waiter may not come to be recorded. -/
def acquire (process : Nat) (request : Request) (waitMs : Nat)
    (published : Bool) : LeaseWorld Host Request :=
  match world.processes[process]? with
  | none => world
  | some info =>
    let waiter := world.createResourceWaiter info (policy.normalize request)
      (min 1800000 waitMs)
    if policy.heavy request = false then
      world.start call process (.exited none .light)
    else if published then
      { world with
        waiters := world.waiters.set waiter.waiterId waiter
        issued := world.issued + 2 }.start call process
          (.attempting waiter request)
    else world.start call process (.exited none .failed)

/-- An error leaves through `finally`. -/
def fail (cancelled : Bool) : LeaseWorld Host Request :=
  if (world.phase call).isOver then world
  else
    match (world.phase call).waiter? with
    | none => world.finish call false
    | some waiter =>
      (world.unlock call).enter call
        (.leaving waiter (if cancelled then .cancelled else .failed))

/-- One entry of the directory of leases. -/
def prune (task : Option (AdmissionTask Host Request)) (id : Nat)
    (rest : List Nat) (kept : List (Nat × Lease Request)) :
    LeaseWorld Host Request :=
  match world.leases.get? id with
  | none => world.fail call false
  | some lease =>
    if world.isStale call lease then
      (world.removeLease lease false).enter call (.pruning task rest kept)
    else world.enter call (.pruning task rest (kept ++ [(id, lease)]))

def fit (task : AdmissionTask Host Request) (leases : List (Lease Request)) :
    LeaseWorld Host Request :=
  let effective := policy.fit task.host leases task.request world.clock
    task.waiter.owner.pid
  if policy.differs task.waiter.request effective then
    let waiter : Waiter Request :=
      { task.waiter with request := policy.normalize effective }
    let waiters := world.waiters.set waiter.waiterId waiter
    (world.withWaiters waiters).enter call
      (.surveying (some { task with waiter, effective }) leases
        waiters.keys [])
  else
    world.enter call
      (.surveying (some { task with effective }) leases world.waiters.keys [])

/-- One entry of the directory of waiters. -/
def survey (task : Option (AdmissionTask Host Request))
    (leases : List (Lease Request)) (id : Nat) (rest : List Nat)
    (waiters : List (Waiter Request)) : LeaseWorld Host Request :=
  match world.waiters.get? id with
  | none => world.enter call (.surveying task leases rest waiters)
  | some waiter =>
    if waiterIsStale world.processes world.clock waiter
        (world.evidence call) then
      (world.removeResourceWaiter waiter).enter call
        (.surveying task leases rest waiters)
    else world.enter call
      (.surveying task leases rest (waiters ++ [waiter]))

section

variable (task : AdmissionTask Host Request)

def createLease (decision : AdmissionDecision Reservation) : Lease Request :=
  { leaseId := world.issued
    token := world.issued + 1
    acquiredAt := world.clock
    owner := {
      kind := .provisional
      pid := (world.evidence call).pid
      processStartedAt := (world.evidence call).started
      process := (world.calls call).process }
    request := policy.normalize (match decision.reservation with
      | none => task.effective
      | some reservation => policy.reserve task.effective reservation) }

def recordLease (lease : Lease Request) (grant : LeaseGrant Host Request) :
    LeaseWorld Host Request :=
  { world with
    leases := world.leases.set lease.leaseId lease
    issued := world.issued + 2
    grants := world.grants ++ [grant] }

/-- A request is admitted when it is and its waiter is the selected one. -/
def admitTask (leases : List (Lease Request))
    (waiters : List (Waiter Request)) : LeaseWorld Host Request :=
  let decision := policy.evaluate task.host leases task.effective world.clock
    task.waiter.owner.pid
  let selected := selectedResourceWaiter policy world.clock waiters leases
    task.host
  let lease := world.createLease call policy task decision
  if decision.admitted ∧
      selected.map Waiter.waiterId = some task.waiter.waiterId then
    (world.recordLease lease {
      waiter := task.waiter
      recorded := world.leases.values
      waiters
      host := task.host
      request := task.effective
      clock := world.clock }).enter call
          (.dequeuing task.waiter lease.leaseId)
  else
    (world.unlock call).enter call
      (.deferred task.waiter task.request
        (if decision.admitted then "fairness_wait" else decision.reason))

end

def boundAlike (owner : LeaseOwner) (binding : LeaseBinding) : Bool :=
  owner.pid == binding.pid &&
    owner.processGroupIsolated == binding.processGroupIsolated &&
    owner.processGroupId ==
      (if binding.processGroupIsolated then some binding.pid else none)

def recordBinding (leaseId : Nat) : LeaseWorld Host Request :=
  { world with
    bindings := world.bindings ++ [{
      leaseId
      removed := world.removals.any fun removal =>
        removal.lease.leaseId == leaseId }] }

section

variable (binding : LeaseBinding)

def bindRead (observedStart : Option Nat) : LeaseWorld Host Request :=
  match world.leases.get? binding.leaseId with
  | none => world.finish call false
  | some lease =>
    if lease.token ≠ binding.token then world.finish call false
    else if lease.owner.kind = .process then
      if boundAlike lease.owner binding then
        (world.recordBinding binding.leaseId).finish call true
      else world.finish call false
    else world.enter call (.bindWriting binding observedStart lease)

def bindWrite (observedStart : Option Nat) (lease : Lease Request) :
    LeaseWorld Host Request :=
  let bound := { lease with
    boundAt := some world.clock
    owner := {
      kind := .process
      pid := binding.pid
      processStartedAt := observedStart.getD world.clock
      processGroupId :=
        if binding.processGroupIsolated then some binding.pid else none
      processGroupIsolated := binding.processGroupIsolated
      process := binding.child } }
  ((world.recordBinding binding.leaseId).withLeases
    (world.leases.set binding.leaseId bound)).finish call true

end

def releaseRead (leaseId token : Nat) : LeaseWorld Host Request :=
  match world.leases.get? leaseId with
  | none => world.finish call false
  | some lease =>
    if lease.token ≠ token then world.finish call false
    else if lease.owner.kind = .process then
      world.enter call (.releaseObserving leaseId token lease.owner.pid)
    else world.enter call (.releaseLocking leaseId token none)

/-- A lease whose isolated group is running stays recorded. -/
def releaseRemove (leaseId token : Nat)
    (observed : Option (Nat × Option Nat)) : LeaseWorld Host Request :=
  match world.leases.get? leaseId with
  | none => world.finish call false
  | some lease =>
    let observedStart := observed.bind fun seen =>
      if seen.1 = lease.owner.pid then seen.2 else none
    let status := resourceLeaseOwnerStatusFromStart world.processes
      world.clock lease observedStart
    if lease.token ≠ token then world.finish call false
    else if lease.owner.kind = .process ∧ status.reason ≠ .pidReused ∧
        leaseGroupAlive world.processes lease then
      world.finish call true
    else (world.removeLease lease true).finish call true

/-- The next operation of a call. -/
def advance (host : Host) (choice : Bool) : LeaseWorld Host Request :=
  match world.phase call with
  | .attempting waiter request =>
    world.enter call
      (.locking (some { waiter, request, effective := request, host }))
  | .locking task =>
    world.acquireLock call (.pruning task world.leases.keys [])
  | .pruning task (id :: rest) kept => world.prune call task id rest kept
  | .pruning (some task) [] kept =>
    world.fit call policy task (kept.map Prod.snd)
  | .pruning none [] kept =>
    world.enter call
      (.surveying none (kept.map Prod.snd) world.waiters.keys [])
  | .surveying task leases (id :: rest) waiters =>
    world.survey call task leases id rest waiters
  | .surveying (some task) leases [] waiters =>
    world.admitTask call policy task leases waiters
  | .surveying none _ [] _ => world.finish call true
  | .dequeuing waiter leaseId =>
    ((world.removeResourceWaiter waiter).unlock call).enter call
      (.leaving waiter (.granted leaseId))
  | .deferred waiter request reason =>
    if resourceAdmissionDecisionRetryable reason ∧ choice then
      world.enter call (.attempting waiter request)
    else world.enter call (.leaving waiter .refused)
  | .leaving waiter outcome =>
    (world.removeResourceWaiter waiter).enter call
      (.exited (some waiter) outcome)
  | .bindObserving binding =>
    world.enter call (.bindLocking binding
      (if choice then world.processes.processStartTimeMs binding.pid
        else none))
  | .bindLocking binding observedStart =>
    world.acquireLock call (.bindReading binding observedStart)
  | .bindReading binding observedStart =>
    world.bindRead call binding observedStart
  | .bindWriting binding observedStart lease =>
    world.bindWrite call binding observedStart lease
  | .releaseReading leaseId token => world.releaseRead call leaseId token
  | .releaseObserving leaseId token pid =>
    world.enter call (.releaseLocking leaseId token
      (some (pid, if choice then world.processes.processStartTimeMs pid
        else none)))
  | .releaseLocking leaseId token observed =>
    world.acquireLock call (.releaseRemoving leaseId token observed)
  | .releaseRemoving leaseId token observed =>
    world.releaseRemove call leaseId token observed
  | .idle => world
  | .exited _ _ => world
  | .done _ => world
  | .crashed => world

/-- The calls of a process end with it, and so does a lock which it has. -/
def exit (process : Nat) : LeaseWorld Host Request :=
  { world with
    processes := world.processes.exit process
    lock := if world.lock.any fun call =>
        (world.calls call).process == process then none else world.lock
    calls := fun call =>
      if (world.calls call).process = process ∧
          (world.calls call).phase.isIdle = false then
        { world.calls call with phase := .crashed }
      else world.calls call }

def mayStart (process : Nat) : Bool :=
  (world.phase call).isIdle && world.processes.isRunning process

def step (policy : AdmissionPolicy Host Request Reservation)
    (world : LeaseWorld Host Request) :
    LeaseEvent Host Request → LeaseWorld Host Request
  | .time now => { world with clock := now }
  | .spawn parent pid isolated =>
    { world with
      processes := world.processes.spawn parent pid isolated world.clock }
  | .exit process => world.exit process
  | .sample call ok =>
    world.setCall call { world.calls call with
      processStarts :=
        if ok then some world.processes.sampleProcessStartTimes else none }
  | .acquire call process request waitMs published =>
    if world.mayStart call process then
      world.acquire call policy process request waitMs published
    else world
  | .snapshot call process =>
    if world.mayStart call process then
      world.start call process (.locking none)
    else world
  | .bind call process leaseId token child isolated =>
    match world.processes[child]? with
    | none => world
    | some info =>
      if world.mayStart call process then
        world.start call process (.bindObserving
          ⟨leaseId, token, child, info.pid, isolated⟩)
      else world
  | .release call process leaseId token =>
    if world.mayStart call process then
      world.start call process (.releaseReading leaseId token)
    else world
  | .advance call host choice => world.advance call policy host choice
  | .fail call cancelled => world.fail call cancelled

end LeaseWorld

end MachineBridge.Resources
