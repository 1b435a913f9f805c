import Mathlib.Data.List.Sort
import MachineBridge.Foundation.Record
import MachineBridge.Jobs.Status

/-!
# Pruning managed jobs

A pass reads every job directory, removes the directories which no runner owns
and which never got a status, and expires staged drafts.  Of the terminal jobs
it removes those past their retention, and as many others as a free slot needs.
What a staged or active job depends on stays, and so does a result which still
waits for delivery.
-/

namespace MachineBridge.Jobs

open Foundation

/-- The dates are the instants which their texts denote. -/
structure JobStatus where
  jobId : Option Text
  state : JobState
  (createdAt finishedAt : Option Int := none)
  retentionClass : Option Text := none
  transientRecoveryPending : Bool := false
  planSha256 : Text := []

inductive PlanDependencies where
  | absent
  | list (jobIds : List (Option Text))
  | invalid

structure JobPlan where
  dependsOn : PlanDependencies
  sha256 : Text

/-- How the removal of a directory ends.  A directory which is no longer the
inspected one is left alone, or moved aside when it changes during the move. -/
inductive Removal where
  | removed
  | differs
  | misplaced
  | renameFails
  | removeFails
deriving DecidableEq

/-- An entry of the job root, with what each inspection of it gives. -/
structure JobDirectory where
  isDirectory : Bool := true
  status : Reading JobStatus
  mtime : Option Int
  runnerAlive : Option Bool := some false
  transitionLock : Bool := true
  lockedStatus : Reading JobStatus := .missing
  expiryPersists : Bool := true
  /-- Whether the terminal evidence is accepted and the directory inspected. -/
  scrubs : Bool := true
  plan : Reading JobPlan := .missing
  currentStatus : Reading JobStatus := .missing
  removal : Removal := .removed

/-- A directory which an earlier removal moved aside. -/
structure RetiredDirectory where
  (reclaimable reclaims : Bool)

structure JobRoot where
  jobs : Record Text JobDirectory
  retired : List RetiredDirectory := []

/-- The clock while each directory is examined, and when the terminal jobs are
judged. -/
structure PruneClock where
  examining : Text → Nat → Int
  now : Int

structure PruneRequest where
  reserveSlots : Int := 0
  protectedJobIds : List Text := []
  incomingRetentionClass : Text := text "managed"

def maxJobs : Nat := 512

def jobRetentionMs : Int := 7 * 24 * 60 * 60 * 1000

def stagedPlanRetentionMs : Int := 24 * 60 * 60 * 1000

def transientProcessRecoveryGraceMs : Int := 30 * 60 * 1000

def transientProcessPendingRecoveryGraceMs : Int := 24 * 60 * 60 * 1000

def transientProcessRecoverySlots : Nat := 16

section

variable (status : JobStatus)

def transientProcess : Bool :=
  status.retentionClass == some (text "transient_process")

def terminalRetentionTime (fallbackMtime : Int) : Int :=
  status.finishedAt.getD fallbackMtime

def terminalEvictionPriority (protectTransientRecovery : Bool) : Nat :=
  if !transientProcess status then 1
  else if protectTransientRecovery then 2
  else 0

def transientProcessWithinRecoveryGrace (fallbackMtime now : Int) : Bool :=
  let ageMs := now - terminalRetentionTime status fallbackMtime
  let graceMs :=
    if status.transientRecoveryPending then
      transientProcessPendingRecoveryGraceMs
    else transientProcessRecoveryGraceMs
  transientProcess status && 0 ≤ ageMs && ageMs ≤ graceMs

def transientProcessUndeliveredRecoveryProtected (fallbackMtime now : Int) :
    Bool :=
  status.transientRecoveryPending &&
    transientProcessWithinRecoveryGrace status fallbackMtime now

def stagedPlanExpired (now : Int) : Bool :=
  match status.createdAt with
  | none => false
  | some createdAt => stagedPlanRetentionMs < now - createdAt

end

/-- A directory which the pass keeps for now, with the status it goes by. -/
structure JobEntry where
  name : Text
  directory : JobDirectory
  status : Option JobStatus
  mtime : Int

namespace JobEntry

def satisfies (entry : JobEntry) (property : JobStatus → Bool) : Bool :=
  entry.status.any property

def terminal (entry : JobEntry) : Bool := entry.satisfies (·.state.terminal)

def retainsPlan (entry : JobEntry) : Bool :=
  entry.satisfies (·.state.retainsPlan)

def retentionTime (entry : JobEntry) : Int :=
  match entry.status with
  | none => entry.mtime
  | some status => terminalRetentionTime status entry.mtime

def withinGrace (now : Int) (entry : JobEntry) : Bool :=
  entry.satisfies (transientProcessWithinRecoveryGrace · entry.mtime now)

def undelivered (now : Int) (entry : JobEntry) : Bool :=
  entry.satisfies
    (transientProcessUndeliveredRecoveryProtected · entry.mtime now)

def listed (ids : List Text) (entry : JobEntry) : Bool :=
  entry.satisfies fun status => status.jobId.any ids.contains

end JobEntry

section

variable (items : List JobEntry)

/-- The entries by falling retention time. -/
def newestFirst : List JobEntry :=
  items.insertionSort fun left right =>
    right.retentionTime ≤ left.retentionTime

def jobIds : List Text :=
  items.filterMap fun item => item.status.bind (·.jobId)

def transientProcessRecoveryIds (now : Int) (incomingRetentionClass : Text)
    (reservedSlots : Nat) : List Text :=
  let incomingSlots :=
    if incomingRetentionClass = text "transient_process" then
      min reservedSlots transientProcessRecoverySlots
    else 0
  let recent := items.filter (JobEntry.withinGrace now)
  let followupRequired := recent.filter (JobEntry.undelivered now)
  let delivered := recent.filter fun item =>
    !item.satisfies (·.transientRecoveryPending)
  let deliveryReserve := (newestFirst delivered).take
    (transientProcessRecoverySlots - incomingSlots)
  jobIds followupRequired ++ jobIds deliveryReserve

def evictionPriority (protectedIds : List Text) (item : JobEntry) : Nat :=
  match item.status with
  | none => 1
  | some status => terminalEvictionPriority status (item.listed protectedIds)

def orderManagedJobTerminalEviction (now : Int) (incomingRetentionClass : Text)
    (reservedSlots : Nat) : List JobEntry :=
  let protectedIds := transientProcessRecoveryIds items now
    incomingRetentionClass reservedSlots
  items.insertionSort fun left right =>
    evictionPriority protectedIds left < evictionPriority protectedIds right ∨
      (evictionPriority protectedIds left =
          evictionPriority protectedIds right ∧
        left.retentionTime ≤ right.retentionTime)

end

def assertManagedJobPlanIntegrity (plan : JobPlan) (status : JobStatus) :
    Bool :=
  fits isHex 64 64 status.planSha256 && plan.sha256 == status.planSha256

def validDependency (jobId : Option Text) : Bool := jobId.any managedJobId

section

variable (directory : JobDirectory)

/-- The dependencies read from the plan of a staged or active job, and whether
the plan was read to its end. -/
def planDependencies (status : JobStatus) : List Text × Bool :=
  match directory.plan with
  | .value plan =>
    if !assertManagedJobPlanIntegrity plan status then ([], false)
    else
      match plan.dependsOn with
      | .absent => ([], true)
      | .invalid => ([], false)
      | .list jobIds =>
        ((jobIds.takeWhile validDependency).filterMap id,
          jobIds.all validDependency)
  | _ => ([], false)

/-- A later reading shows that the job has become terminal. -/
def settledSince (status : JobStatus) : Bool :=
  match directory.currentStatus with
  | .value current => current.jobId == status.jobId && current.state.terminal
  | _ => false

end

structure DependencyProtection where
  ids : List Text
  complete : Bool

def entryDependencies (entry : JobEntry) : List Text :=
  match entry.status with
  | some status =>
    if status.state.retainsPlan then
      (planDependencies entry.directory status).1
    else []
  | none => []

def entryEvidence (entry : JobEntry) : Bool :=
  match entry.status with
  | some status =>
    !status.state.retainsPlan ||
      (planDependencies entry.directory status).2 ||
      settledSince entry.directory status
  | none => true

def managedJobDependencyProtection (entries : List JobEntry)
    (extraProtectedIds : List Text) : DependencyProtection where
  ids := extraProtectedIds ++ entries.flatMap entryDependencies
  complete := entries.all entryEvidence

inductive Examination where
  | ignored
  | orphaned
  | retained (entry : JobEntry)
  | thrown

def expireStagedJob (status : JobStatus) (finishedAt : Int) : JobStatus :=
  { status with state := .expiredBeforeStart, finishedAt := some finishedAt }

/-- The last checks of a status and the entry it goes by. -/
def retainEntry (name : Text) (directory : JobDirectory) (mtime : Int)
    (status : Option JobStatus) : JobEntry :=
  match status with
  | none => { name, directory, status := none, mtime }
  | some current =>
    if current.state.terminal &&
        !(current.jobId == some name && directory.scrubs) then
      { name, directory, status := none, mtime }
    else { name, directory, status := some current, mtime }

/-- A staged draft whose time is over is read again under its lock. -/
def examineExpired (clock : Nat → Int) (name : Text) (directory : JobDirectory)
    (mtime : Int) (status : JobStatus) : Examination :=
  if !directory.transitionLock then
    .retained { name, directory, status := some status, mtime }
  else
    match directory.lockedStatus with
    | .unreadable =>
      .retained { name, directory, status := some status, mtime }
    | .missing => .retained (retainEntry name directory mtime none)
    | .value current =>
      if current.state = .staged && stagedPlanExpired current (clock 1) then
        if current.jobId.isNone || !directory.expiryPersists then .thrown
        else
          .retained (retainEntry name directory mtime
            (some (expireStagedJob current (clock 2))))
      else .retained (retainEntry name directory mtime (some current))

def examine (clock : Nat → Int) (name : Text) (directory : JobDirectory) :
    Examination :=
  if !managedJobId name || !directory.isDirectory then .ignored
  else
    match directory.status, directory.mtime with
    | .unreadable, _ => .ignored
    | _, none => .ignored
    | .missing, some mtime =>
      match directory.runnerAlive with
      | none => .retained { name, directory, status := none, mtime }
      | some alive =>
        if !alive && decide (60000 < clock 0 - mtime) then .orphaned
        else .retained { name, directory, status := none, mtime }
    | .value status, some mtime =>
      if status.jobId ≠ some name then
        .retained { name, directory, status := none, mtime }
      else if status.state = .staged && stagedPlanExpired status (clock 0)
        then examineExpired clock name directory mtime status
      else .retained (retainEntry name directory mtime (some status))

/-- The root, the entries so far, the names of the removed directories, and
whether an operation has thrown. -/
structure Pruning where
  root : JobRoot
  entries : List JobEntry := []
  removed : List Text := []
  thrown : Bool := false

namespace JobRoot

def retainedState (root : JobRoot) : Nat :=
  (root.jobs.entries.filter fun entry => managedJobId entry.1).length +
    root.retired.length

def pruneRetiredManagedJobDirectories (root : JobRoot) : JobRoot :=
  { root with
    retired := root.retired.filter fun retired =>
      !(retired.reclaimable && retired.reclaims) }

end JobRoot

namespace Pruning

/-- The directory leaves its name; it stays as a retired one when it is not
deleted. -/
def take (state : Pruning) (name : Text) (retires : Bool) : Pruning :=
  { state with
    root :=
      { jobs := state.root.jobs.delete name
        retired :=
          if retires then
            state.root.retired ++ [{ reclaimable := true, reclaims := true }]
          else state.root.retired }
    removed := state.removed ++ [name] }

def removeManagedJobDirectoryIfCurrent (state : Pruning) (name : Text) :
    Pruning :=
  match state.root.jobs.get? name with
  | none => state
  | some directory =>
    match directory.removal with
    | .removed => state.take name false
    | .differs => state
    | .misplaced => state.take name true
    | .renameFails => { state with thrown := true }
    | .removeFails => { state.take name true with thrown := true }

def scanDirectory (clock : Text → Nat → Int) (state : Pruning)
    (entry : Text × JobDirectory) : Pruning :=
  if state.thrown then state
  else
    match examine (clock entry.1) entry.1 entry.2 with
    | .ignored => state
    | .orphaned => state.removeManagedJobDirectoryIfCurrent entry.1
    | .retained kept => { state with entries := state.entries ++ [kept] }
    | .thrown => { state with thrown := true }

def removeAged (ids : List Text) (now : Int) (state : Pruning)
    (item : JobEntry) : Pruning :=
  if state.thrown then state
  else if !item.listed ids &&
      decide (jobRetentionMs < now - item.retentionTime) then
    state.removeManagedJobDirectoryIfCurrent item.name
  else state

/-- The removals which go on until the retained states fit. -/
def evict (targetMaximum : Nat) (state : Pruning) :
    List JobEntry → Pruning
  | [] => state
  | item :: rest =>
    if state.thrown || state.root.retainedState ≤ targetMaximum then state
    else
      evict targetMaximum
        (state.removeManagedJobDirectoryIfCurrent item.name) rest

end Pruning

section

variable (request : PruneRequest)

def reservedSlots : Nat :=
  (max 0 (min (maxJobs : Int) request.reserveSlots)).toNat

def targetMaximum : Nat :=
  maxJobs - reservedSlots request

end

section

variable (clock : PruneClock)

def scanJobs (root : JobRoot) : Pruning :=
  let cleaned := root.pruneRetiredManagedJobDirectories
  cleaned.jobs.entries.foldl (Pruning.scanDirectory clock.examining)
    { root := cleaned }

def removableJobs (ids : List Text) (now : Int) (entries : List JobEntry) :
    List JobEntry :=
  entries.filter fun item =>
    item.terminal && !item.listed ids && !item.undelivered now

def evictionOrder (request : PruneRequest) (ids : List Text)
    (entries : List JobEntry) : List JobEntry :=
  orderManagedJobTerminalEviction (removableJobs ids clock.now entries)
    clock.now request.incomingRetentionClass (reservedSlots request)

def removeAgedJobs (ids : List Text) (scanned : Pruning) : Pruning :=
  (newestFirst (scanned.entries.filter JobEntry.terminal)).foldl
    (Pruning.removeAged ids clock.now) scanned

def pruneManagedJobs (request : PruneRequest) (root : JobRoot) : Pruning :=
  let scanned := scanJobs clock root
  if scanned.thrown then scanned
  else
    let protection := managedJobDependencyProtection scanned.entries
      request.protectedJobIds
    if !protection.complete then scanned
    else
      (removeAgedJobs clock protection.ids scanned).evict
        (targetMaximum request)
        (evictionOrder clock request protection.ids scanned.entries)

end

end MachineBridge.Jobs
