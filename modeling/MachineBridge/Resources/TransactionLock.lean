import MachineBridge.Foundation.Filesystem
import MachineBridge.Foundation.Run

/-!
# The transaction lock of the resource coordinator

Processes take a lock by giving a second name to a file which they have written,
and release or reclaim it by removing that name.  Each operation of the
filesystem is a step of its own, and a process may crash before any of them.  A
process is one call at a time of `withResourceTransactionLock`; whether the
process of an owner is running is inspected exactly.
-/

namespace MachineBridge.Resources

open Foundation

abbrev ProcessId := Nat

/-- A random token stands for the call which drew it. -/
structure LockToken where
  process : ProcessId
  call : Nat
deriving DecidableEq

structure FileOwner where
  token : LockToken
  pid : ProcessId
  purpose : String
deriving DecidableEq

def lockPurpose : String := "resource-coordinator"

inductive LockName where
  | lock
  | staging (process : ProcessId) (attempt : Nat)
deriving DecidableEq

/-- The files hold the owner, or nothing as long as it is not written. -/
abbrev LockFiles := Filesystem LockName (Option FileOwner)

/-- The next operation of `readBoundedRegularFileWithInfoSync` on the lock. -/
inductive SnapshotPhase where
  | opening
  | inspecting (inode : Nat)
  | locating (identity : FileIdentity)
  | reading (identity : FileIdentity)
deriving DecidableEq

inductive SnapshotResult where
  | going (phase : SnapshotPhase)
  | missing
  | multipleLinks
  | failed
  | read (content : Option FileOwner) (identity : FileIdentity)

section

variable (files : LockFiles)

/-- A file has one name, or a second one which was accounted for. -/
def allowedLinkCount (inode : Nat) (allowed : Option FileIdentity) : Bool :=
  files.links inode ≤ 1 ||
    files.links inode == 2 && allowed == some (files.identity inode)

def advanceSnapshot (allowed : Option FileIdentity) :
    SnapshotPhase → SnapshotResult
  | .opening =>
    match files.lookup .lock with
    | none => .missing
    | some inode => .going (.inspecting inode)
  | .inspecting inode =>
    if (files.kind inode).isRegular = false then .failed
    else if allowedLinkCount files inode allowed then
      .going (.locating (files.identity inode))
    else .multipleLinks
  | .locating identity =>
    match files.lookup .lock with
    | none => .missing
    | some inode =>
      if files.identity inode = identity then .going (.reading identity)
      else .failed
  | .reading identity =>
    match files.kind identity.inode with
    | .regular content => .read content identity
    | _ => .failed

def LockName.isStaging : LockName → Bool
  | .lock => false
  | .staging _ _ => true

/-- `verifyExclusiveFilePublicationResidueSync`: the second name of the lock is
the staging name of its publication. -/
def verifyResidue : Option FileIdentity :=
  match files.lookup .lock with
  | none => none
  | some inode =>
    if files.links inode = 2 ∧
        (files.names inode).any LockName.isStaging then
      some (files.identity inode)
    else none

end

/-- The next operation of `removeOwnedJsonFileSync`. -/
inductive RemovalPhase where
  | first (snapshot : SnapshotPhase)
  | comparing (identity : FileIdentity)
  | second (identity : FileIdentity) (snapshot : SnapshotPhase)
  | unlinking (identity : FileIdentity)
deriving DecidableEq

/-- A removal of the lock whose owner has a token. -/
structure Removal where
  token : LockToken
  allowed : Option FileIdentity
  phase : RemovalPhase := .first .opening
deriving DecidableEq

inductive RemovalResult where
  | going (phase : RemovalPhase)
  | returned (removed : Bool)
  /-- The name of the lock is removed. -/
  | unlinks
  | multipleLinks
  | failed

def matchesExpected (content : Option FileOwner) (token : LockToken) : Bool :=
  content.any fun owner => owner.token == token && owner.purpose == lockPurpose

def advanceRemoval (files : LockFiles) (removal : Removal) : RemovalResult :=
  match removal.phase with
  | .first snapshot =>
    match advanceSnapshot files removal.allowed snapshot with
    | .going next => .going (.first next)
    | .missing => .returned false
    | .multipleLinks => .multipleLinks
    | .failed => .failed
    | .read content identity =>
      if matchesExpected content removal.token then
        .going (.comparing identity)
      else .returned false
  | .comparing identity =>
    match files.lookup .lock with
    | none => .returned true
    | some inode =>
      if (files.kind inode).isRegular &&
          allowedLinkCount files inode removal.allowed &&
          files.identity inode == identity then
        .going (.second identity .opening)
      else .returned false
  | .second identity snapshot =>
    match advanceSnapshot files removal.allowed snapshot with
    | .going next => .going (.second identity next)
    | .missing => .returned false
    | .multipleLinks => .failed
    | .failed => .failed
    | .read content current =>
      if current = identity ∧ matchesExpected content removal.token then
        .going (.unlinking current)
      else .returned false
  | .unlinking _ =>
    match files.lookup .lock with
    | none => .returned true
    | some _ => .unlinks

/-- The next operation of `withResourceTransactionLock`. -/
inductive LockPhase where
  | outside
  | staging
  | writing (inode : Nat)
  | linking
  | unstaging (linked : Bool)
  | counting
  | looking
  | observing (allowed : Option FileIdentity) (snapshot : SnapshotPhase)
  | judging (owner : FileOwner) (residue : Option FileIdentity)
  | reclaiming (observed : FileOwner) (removal : Removal)
  | inside
  | releasing (removal : Removal)
deriving DecidableEq

structure LockProcess where
  phase : LockPhase := .outside
  (calls attempts : Nat := 0)
  alive : Bool := true

/-- A removal of the lock: by whom, whose it was, and whether that process was
running. -/
structure LockUnlink where
  (remover publisher : ProcessId)
  alive : Bool

structure LockWorld where
  files : LockFiles := .empty
  processes : ProcessId → LockProcess := fun _ => {}
  unlinks : List LockUnlink := []

/-- What a reader does about a second name. -/
inductive LinkChoice where
  | retry
  | residue
  | fail
deriving DecidableEq

inductive LockEvent where
  | call (process : ProcessId)
  | advance (process : ProcessId) (choice : LinkChoice)
  /-- The deadline of a call passes while it waits. -/
  | giveUp (process : ProcessId)
  /-- A reader removes the staging name of a published lock. -/
  | repair (process attempt : Nat)
  | crash (process : ProcessId)

namespace LockWorld

variable (world : LockWorld) (process : ProcessId)

def phase : LockPhase := (world.processes process).phase

def alive : Bool := (world.processes process).alive

def token : LockToken := ⟨process, (world.processes process).calls⟩

def fileOwner : FileOwner :=
  { token := world.token process
    pid := process
    purpose := lockPurpose }

def stagingName : LockName :=
  .staging process (world.processes process).attempts

def setProcess (change : LockProcess → LockProcess) : LockWorld :=
  { world with
    processes := Function.update world.processes process
      (change (world.processes process)) }

def enter (phase : LockPhase) : LockWorld :=
  world.setProcess process fun info => { info with phase }

def withFiles (files : LockFiles) : LockWorld := { world with files }

def publisher : Option FileOwner :=
  match world.files.lookup .lock with
  | none => none
  | some inode =>
    match world.files.kind inode with
    | .regular content => content
    | _ => none

def removeFile (name : LockName) : LockWorld :=
  match world.files.remove name with
  | .ok files => world.withFiles files
  | .error _ => world

/-- The lock loses its name. -/
def unlink : LockWorld :=
  { world.removeFile .lock with
    unlinks := match world.publisher with
      | none => world.unlinks
      | some owner => world.unlinks ++
          [⟨process, owner.pid, world.alive owner.pid⟩] }

/-- The end of an attempt: the staging file is removed. -/
def unstage (linked : Bool) : LockWorld :=
  (world.removeFile (world.stagingName process)).setProcess process
    fun info =>
      { info with
        phase := if linked then .counting else .looking
        attempts := info.attempts + 1 }

def publish : LockWorld :=
  match world.files.link (world.stagingName process) .lock with
  | .ok files => (world.withFiles files).enter process (.unstaging true)
  | .error .exists => world.enter process (.unstaging false)
  | .error _ => world.enter process .outside

def observe (allowed : Option FileIdentity) (snapshot : SnapshotPhase)
    (choice : LinkChoice) : LockWorld :=
  match advanceSnapshot world.files allowed snapshot with
  | .going next => world.enter process (.observing allowed next)
  | .missing => world.enter process .staging
  | .multipleLinks =>
    match choice with
    | .retry => world.enter process (.observing none .opening)
    | .residue =>
      world.enter process (.observing (verifyResidue world.files) .opening)
    | .fail => world.enter process .outside
  | .failed => world.enter process .outside
  | .read none _ => world.enter process .outside
  | .read (some owner) _ =>
    if owner.purpose = lockPurpose then
      world.enter process (.judging owner allowed)
    else world.enter process .outside

/-- A call tries again after a reclaim, and also when it had nothing to
remove. -/
def reclaim (observed : FileOwner) (removal : Removal) (choice : LinkChoice) :
    LockWorld :=
  match advanceRemoval world.files removal with
  | .going phase =>
    world.enter process (.reclaiming observed { removal with phase })
  | .returned _ => world.enter process .staging
  | .unlinks => (world.unlink process).enter process .staging
  | .multipleLinks =>
    if choice = .retry then
      world.enter process
        (.reclaiming observed { removal with phase := .first .opening })
    else world.enter process .outside
  | .failed => world.enter process .outside

def release (removal : Removal) (choice : LinkChoice) : LockWorld :=
  match advanceRemoval world.files removal with
  | .going phase => world.enter process (.releasing { removal with phase })
  | .returned _ => world.enter process .outside
  | .unlinks => (world.unlink process).enter process .outside
  | .multipleLinks =>
    if choice = .retry then
      world.enter process
        (.releasing { removal with phase := .first .opening })
    else world.enter process .outside
  | .failed => world.enter process .outside

/-- The next operation of a process. -/
def advance (choice : LinkChoice) : LockWorld :=
  match world.phase process with
  | .outside => world
  | .staging =>
    match world.files.createNew (world.stagingName process) none 0o600 with
    | .ok files =>
      (world.withFiles files).enter process (.writing world.files.next)
    | .error _ => world.enter process .outside
  | .writing inode =>
    (world.withFiles (world.files.write inode
      (some (world.fileOwner process)))).enter process .linking
  | .linking => world.publish process
  | .unstaging linked => world.unstage process linked
  | .counting => world.enter process .inside
  | .looking =>
    match world.files.lookup .lock with
    | none => world.enter process .staging
    | some inode =>
      if (world.files.kind inode).isRegular then
        world.enter process (.observing none .opening)
      else world.enter process .outside
  | .observing allowed snapshot =>
    world.observe process allowed snapshot choice
  | .judging owner residue =>
    if world.alive owner.pid then world.enter process .staging
    else world.enter process
      (.reclaiming owner { token := owner.token, allowed := residue })
  | .reclaiming observed removal =>
    world.reclaim process observed removal choice
  | .inside =>
    world.enter process
      (.releasing { token := world.token process, allowed := none })
  | .releasing removal => world.release process removal choice

def repair (name : LockName) : LockWorld :=
  match world.files.lookup name with
  | none => world
  | some inode =>
    if name ≠ .lock ∧ world.files.lookup .lock = some inode ∧
        world.files.links inode = 2 then
      world.removeFile name
    else world

def step (world : LockWorld) : LockEvent → LockWorld
  | .call process =>
    if world.alive process ∧ world.phase process = .outside then
      world.setProcess process fun info =>
        { info with
          phase := .staging
          calls := info.calls + 1
          attempts := info.attempts + 1 }
    else world
  | .advance process choice =>
    if world.alive process then world.advance process choice else world
  | .giveUp process =>
    if world.phase process = .staging then world.enter process .outside
    else world
  | .repair process attempt => world.repair (.staging process attempt)
  | .crash process =>
    world.setProcess process fun info => { info with alive := false }

end LockWorld

end MachineBridge.Resources
