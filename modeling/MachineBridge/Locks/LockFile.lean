import MachineBridge.Foundation.Filesystem
import MachineBridge.Foundation.Run

/-!
# Lock files

A process takes a lock by giving a second name to a file which it has written.
It may put another file in its place, to publish that it is ready or to hand the
lock over, and it releases or reclaims a lock by removing the name.  The locks
of the daemon and those of the managed jobs differ in the parameters of a
`LockProgram`.  Each operation of the filesystem is a step of its own, and a
process may crash before any of them; whether the process of an owner is running
is inspected exactly.
-/

namespace MachineBridge.Locks

open Foundation

abbrev ProcessId := Nat

/-- A random token stands for the draw which it came from. -/
structure LockToken where
  process : ProcessId
  draw : Nat
deriving DecidableEq

structure LockOwner (Detail : Type) where
  pid : ProcessId
  token : LockToken
  detail : Detail

inductive LockName where
  | lock
  | temporary (process : ProcessId) (number : Nat)
deriving DecidableEq

/-- The files hold an owner, or nothing as long as it is not written. -/
abbrev LockFiles (Detail : Type) :=
  Filesystem LockName (Option (LockOwner Detail))

def LockName.isTemporary : LockName → Bool
  | .lock => false
  | .temporary _ _ => true

variable {Detail : Type}

/-- How often a read starts again when the file has a second name or another
file takes its place, and whether a residue of the publication is accepted in
the end. -/
structure ReadLimits where
  links : Nat := 4
  residue : Bool := true
  identities : Nat := 1

/-- The next operation of `readBoundedRegularFileWithInfoSync`. -/
inductive ReaderPhase where
  | opening
  | inspecting (inode : Nat)
  | locating (identity : FileIdentity)
  | reading (identity : FileIdentity)

structure Reader where
  phase : ReaderPhase := .opening
  allowed : Option FileIdentity := none
  (linkAttempt identityAttempt : Nat := 1)

inductive ReadResult (Detail : Type) where
  | going (reader : Reader)
  | missing
  | multipleLinks
  | failed
  | read (content : Option (LockOwner Detail)) (identity : FileIdentity)

section

variable (files : LockFiles Detail)

/-- `verifyExclusiveFilePublicationResidueSync`: the second name of the lock is
the temporary name of its publication. -/
def verifyResidue : Option FileIdentity :=
  match files.lookup .lock with
  | none => none
  | some inode =>
    if files.links inode = 2 ∧
        (files.names inode).any LockName.isTemporary then
      some (files.identity inode)
    else none

def allowedLinkCount (inode : Nat) (allowed : Option FileIdentity) : Bool :=
  files.links inode ≤ 1 ||
    files.links inode == 2 && allowed == some (files.identity inode)

end

section

variable (limits : ReadLimits)

/-- `retryTransientMultipleLinksSync` -/
def retryMultipleLinks (files : LockFiles Detail) (reader : Reader) :
    ReadResult Detail :=
  if reader.allowed.isSome then .multipleLinks
  else if reader.linkAttempt < limits.links then
    .going { reader with
      phase := .opening
      linkAttempt := reader.linkAttempt + 1 }
  else if limits.residue then
    match verifyResidue files with
    | none => .multipleLinks
    | some identity =>
      .going { reader with
        phase := .opening
        allowed := some identity }
  else .multipleLinks

/-- `retryProcessLockIdentityReadSync` -/
def retryIdentity (reader : Reader) : ReadResult Detail :=
  if reader.identityAttempt < limits.identities then
    .going { identityAttempt := reader.identityAttempt + 1 }
  else .failed

def advanceReader (files : LockFiles Detail) (reader : Reader) :
    ReadResult Detail :=
  match reader.phase with
  | .opening =>
    match files.lookup .lock with
    | none => .missing
    | some inode => .going { reader with phase := .inspecting inode }
  | .inspecting inode =>
    if (files.kind inode).isRegular = false then .failed
    else if allowedLinkCount files inode reader.allowed then
      .going { reader with phase := .locating (files.identity inode) }
    else retryMultipleLinks limits files reader
  | .locating identity =>
    match files.lookup .lock with
    | none => .missing
    | some inode =>
      if files.identity inode = identity then
        .going { reader with phase := .reading identity }
      else retryIdentity limits reader
  | .reading identity =>
    match files.kind identity.inode with
    | .regular content => .read content identity
    | _ => .failed

end

structure LockSnapshot (Detail : Type) where
  owner : LockOwner Detail
  identity : FileIdentity

/-- What tells the locks apart. -/
structure LockProgram (Detail : Type) where
  limits : ReadLimits
  /-- Whether a caller accepts what an owner has recorded. -/
  accepts : Detail → Detail → Bool
  drawsEveryAttempt : Bool
  /-- The mode of a published lock is set once more. -/
  ownerOnly : Bool
  /-- The last attempt ends with a look at the owner. -/
  reports : Bool
  update : Option (Detail → Nat → Option Detail)
  allowHandoff : Bool

/-- How a file becomes the lock. -/
inductive Publication where
  | exclusive (attempt : Nat)
  | update
  | handoff

inductive ReadPurpose (Detail : Type) where
  | acquire (owner : LockOwner Detail) (attempt : Nat)
  | report
  | update (token : LockToken) (startupReadyAt : Nat)
  | release (token : LockToken)

inductive RemovalPurpose (Detail : Type) where
  | reclaim (owner : LockOwner Detail) (attempt : Nat)
  | release (token : LockToken)

/-- The next operation of `removeOwnedJsonFileSync`. -/
inductive ClaimPhase (Detail : Type) where
  | first (reader : Reader)
  | comparing (snapshot : LockSnapshot Detail)
  | second (snapshot : LockSnapshot Detail) (reader : Reader)
  | unlinking (snapshot : LockSnapshot Detail)

inductive LockPhase (Detail : Type) where
  | idle
  | creating (owner : LockOwner Detail) (publication : Publication)
  | writing (owner : LockOwner Detail) (publication : Publication)
    (inode : Nat)
  | publishing (owner : LockOwner Detail) (publication : Publication)
  | unstaging (owner : LockOwner Detail) (attempt : Nat) (linked : Bool)
  | counting (owner : LockOwner Detail) (attempt : Nat)
  | protecting (owner : LockOwner Detail) (publication : Publication)
  | inspecting (owner : LockOwner Detail) (publication : Publication)
    (inode : Nat)
  | changing (owner : LockOwner Detail) (publication : Publication)
    (inode : Nat)
  | reading (purpose : ReadPurpose Detail) (reader : Reader)
  | judging (owner : LockOwner Detail) (attempt : Nat)
    (snapshot : LockSnapshot Detail)
  | comparing (purpose : RemovalPurpose Detail)
    (snapshot : LockSnapshot Detail)
  | rereading (purpose : RemovalPurpose Detail)
    (snapshot : LockSnapshot Detail) (reader : Reader)
  | unlinking (purpose : RemovalPurpose Detail)
    (snapshot : LockSnapshot Detail)
  | claiming (token : LockToken) (phase : ClaimPhase Detail)

structure LockProcess (Detail : Type) where
  phase : LockPhase Detail := .idle
  alive : Bool := true
  (draws temporaries : Nat := 0)

/-- A lock file which lost the name of the lock: by whose step, whose it was,
and whether that process was running. -/
structure LockLoss where
  (remover publisher : ProcessId)
  alive : Bool

structure LockWorld (Detail : Type) where
  files : LockFiles Detail := .empty
  processes : ProcessId → LockProcess Detail := fun _ => {}
  held : ProcessId → Option LockToken := fun _ => none
  losses : List LockLoss := []

inductive LockEvent (Detail : Type) where
  | acquire (process : ProcessId) (detail : Detail)
  | update (process : ProcessId) (startupReadyAt : Nat)
  | handoff (process receiver : ProcessId) (detail : Detail)
  | release (process : ProcessId)
  | claim (process : ProcessId) (token : LockToken)
  /-- The next operation of a process; a claim is tried again or given up. -/
  | advance (process : ProcessId) (again : Bool)
  /-- A reader removes the temporary name of a published lock. -/
  | repair (process number : Nat)
  | crash (process : ProcessId)

namespace LockWorld

section Operations

variable (world : LockWorld Detail) (process : ProcessId)

def phase : LockPhase Detail := (world.processes process).phase

def alive : Bool := (world.processes process).alive

def temporary : LockName :=
  .temporary process (world.processes process).temporaries

def setProcess (change : LockProcess Detail → LockProcess Detail) :
    LockWorld Detail :=
  { world with
    processes := Function.update world.processes process
      (change (world.processes process)) }

def enter (phase : LockPhase Detail) : LockWorld Detail :=
  world.setProcess process fun info => { info with phase }

def withFiles (files : LockFiles Detail) : LockWorld Detail :=
  { world with files }

def entitle (token : LockToken) : LockWorld Detail :=
  { world with held := Function.update world.held process (some token) }

/-- The process is no longer entitled by a token. -/
def surrender (token : LockToken) : LockWorld Detail :=
  if world.held process = some token then
    { world with held := Function.update world.held process none }
  else world

def publisher : Option (LockOwner Detail) :=
  match world.files.lookup .lock with
  | none => none
  | some inode =>
    match world.files.kind inode with
    | .regular content => content
    | _ => none

/-- The file which the lock names is about to lose it. -/
def recordLoss : LockWorld Detail :=
  { world with
    losses := match world.publisher with
      | none => world.losses
      | some owner => world.losses ++
          [⟨process, owner.pid, world.alive owner.pid⟩] }

def removeFile (name : LockName) : LockWorld Detail :=
  match world.files.remove name with
  | .ok files => world.withFiles files
  | .error _ => world

def unlink : LockWorld Detail :=
  (world.recordLoss process).removeFile .lock

end Operations

section Program

variable (program : LockProgram Detail) (world : LockWorld Detail)
  (process : ProcessId)

/-- `release` is called, or the end of a handoff which failed. -/
def beginRelease (token : LockToken) : LockWorld Detail :=
  world.enter process (.reading (.release token) {})

def drawToken : LockToken := ⟨process, (world.processes process).draws⟩

section

variable (owner : LockOwner Detail)

def attempt (number : Nat) : LockWorld Detail :=
  if program.drawsEveryAttempt then
    world.setProcess process fun info =>
      { info with
        phase := .creating { owner with token := world.drawToken process }
          (.exclusive number)
        draws := info.draws + 1 }
  else world.enter process (.creating owner (.exclusive number))

def nextAttempt (number : Nat) : LockWorld Detail :=
  if number < 3 then world.attempt program process owner (number + 1)
  else if program.reports then world.enter process (.reading .report {})
  else world.enter process .idle

/-- A publication fails before the lock names another file, or when its mode
cannot be set. -/
def failPublication : Publication → LockWorld Detail
  | .exclusive _ => (world.surrender process owner.token).enter process .idle
  | .update => world.enter process .idle
  | .handoff => world.beginRelease process owner.token

end

/-- `linkSync` of `createExclusiveFileSync` -/
def link (owner : LockOwner Detail) (number : Nat) : LockWorld Detail :=
  match world.files.link (world.temporary process) .lock with
  | .ok files =>
    ((world.withFiles files).entitle process owner.token).enter process
      (.unstaging owner number true)
  | .error .exists => world.enter process (.unstaging owner number false)
  | .error _ => world.enter process .idle

section

variable (owner : LockOwner Detail)

/-- The lock is handed to the process which the new owner names. -/
def transfer : LockWorld Detail :=
  (world.surrender process owner.token).entitle owner.pid owner.token

/-- `renameSync` of `replaceFileAtomicallySync` -/
def replace (publication : Publication) : LockWorld Detail :=
  match world.files.rename (world.temporary process) .lock with
  | .ok files =>
    (((world.recordLoss process).withFiles files).transfer process
      owner).setProcess process fun info =>
        { info with
          phase := .protecting owner publication
          temporaries := info.temporaries + 1 }
  | .error _ => world.failPublication process owner publication

def publish : Publication → LockWorld Detail
  | .exclusive number => world.link process owner number
  | .update => world.replace process owner .update
  | .handoff => world.replace process owner .handoff

/-- The end of an attempt: the temporary file is removed. -/
def unstage (number : Nat) (linked : Bool) : LockWorld Detail :=
  (world.removeFile (world.temporary process)).setProcess process
    fun info =>
      { info with
        phase := if linked then .counting owner number
          else .reading (.acquire owner number) {}
        temporaries := info.temporaries + 1 }

end

def verifyUpdate (token : LockToken) (startupReadyAt : Nat)
    (found : LockOwner Detail) : LockWorld Detail :=
  if found.token = token ∧ found.pid = process then
    match program.update.bind fun update =>
        update found.detail startupReadyAt with
    | none => world.enter process .idle
    | some detail =>
      world.enter process (.creating { found with detail } .update)
  else world.enter process .idle

def endRelease (token : LockToken) : LockWorld Detail :=
  (world.surrender process token).enter process .idle

/-- A read found an owner. -/
def useSnapshot (snapshot : LockSnapshot Detail) :
    ReadPurpose Detail → LockWorld Detail
  | .acquire owner number =>
    if program.accepts owner.detail snapshot.owner.detail then
      world.enter process (.judging owner number snapshot)
    else world.enter process .idle
  | .report => world.enter process .idle
  | .update token startupReadyAt =>
    world.verifyUpdate program process token startupReadyAt snapshot.owner
  | .release token =>
    if snapshot.owner.token = token then
      world.enter process (.comparing (.release token) snapshot)
    else world.endRelease process token

def useMissing : ReadPurpose Detail → LockWorld Detail
  | .acquire owner number => world.nextAttempt program process owner number
  | .report => world.enter process .idle
  | .update _ _ => world.enter process .idle
  | .release token => world.endRelease process token

def useFailed : ReadPurpose Detail → LockWorld Detail
  | .release token => world.endRelease process token
  | _ => world.enter process .idle

def readSnapshot (purpose : ReadPurpose Detail) (reader : Reader) :
    LockWorld Detail :=
  match advanceReader program.limits world.files reader with
  | .going next => world.enter process (.reading purpose next)
  | .missing => world.useMissing program process purpose
  | .multipleLinks => world.useFailed process purpose
  | .failed => world.useFailed process purpose
  | .read none _ => world.useFailed process purpose
  | .read (some owner) identity =>
    world.useSnapshot program process ⟨owner, identity⟩ purpose

def endRemoval : RemovalPurpose Detail → LockWorld Detail
  | .reclaim owner number => world.nextAttempt program process owner number
  | .release token => world.endRelease process token

def failRemoval : RemovalPurpose Detail → LockWorld Detail
  | .reclaim _ _ => world.enter process .idle
  | .release token => world.endRelease process token

section

variable (purpose : RemovalPurpose Detail)

/-- The path still names the file of the snapshot. -/
def compare (snapshot : LockSnapshot Detail) : LockWorld Detail :=
  match world.files.lookup .lock with
  | none => world.endRemoval program process purpose
  | some inode =>
    if (world.files.kind inode).isRegular &&
        world.files.identity inode == snapshot.identity then
      world.enter process (.rereading purpose snapshot {})
    else world.endRemoval program process purpose

def reread (snapshot : LockSnapshot Detail) (reader : Reader) :
    LockWorld Detail :=
  match advanceReader program.limits world.files reader with
  | .going next => world.enter process (.rereading purpose snapshot next)
  | .missing => world.endRemoval program process purpose
  | .multipleLinks => world.failRemoval process purpose
  | .failed => world.failRemoval process purpose
  | .read content _ =>
    if content.map LockOwner.token = some snapshot.owner.token then
      world.enter process (.unlinking purpose snapshot)
    else world.endRemoval program process purpose

/-- The removal acts on the path, whatever it names by now. -/
def removeLock : LockWorld Detail :=
  match world.files.lookup .lock with
  | none => world.endRemoval program process purpose
  | some _ => (world.unlink process).endRemoval program process purpose

end

section

variable (owner : LockOwner Detail)

/-- `ownerOnlyFile` opens the path, whatever it names. -/
def openPublished (publication : Publication) : LockWorld Detail :=
  match world.files.lookup .lock with
  | none => world.failPublication process owner publication
  | some inode => world.enter process (.inspecting owner publication inode)

def inspectPublished (publication : Publication) (inode : Nat) :
    LockWorld Detail :=
  if (world.files.kind inode).isRegular && world.files.links inode ≤ 1 then
    world.enter process (.changing owner publication inode)
  else world.failPublication process owner publication

end

/-- The limits of `ownedJsonSnapshot` -/
def claimLimits : ReadLimits where
  links := 1
  residue := false

section

variable (token : LockToken)

def matchesExpected (content : LockOwner Detail) : Bool :=
  content.pid == process && content.token == token

def retryClaim (again : Bool) : LockWorld Detail :=
  if again then world.enter process (.claiming token (.first {}))
  else world.enter process .idle

def advanceClaim (again : Bool) : ClaimPhase Detail → LockWorld Detail
  | .first reader =>
    match advanceReader claimLimits world.files reader with
    | .going next => world.enter process (.claiming token (.first next))
    | .missing => world.retryClaim process token again
    | .multipleLinks => world.retryClaim process token again
    | .failed => world.enter process .idle
    | .read none _ => world.retryClaim process token again
    | .read (some owner) identity =>
      if matchesExpected process token owner then
        world.enter process
          (.claiming token (.comparing ⟨owner, identity⟩))
      else world.retryClaim process token again
  | .comparing snapshot =>
    match world.files.lookup .lock with
    | none => world.endRelease process token
    | some inode =>
      if (world.files.kind inode).isRegular &&
          world.files.links inode ≤ 1 &&
          world.files.identity inode == snapshot.identity then
        world.enter process (.claiming token (.second snapshot {}))
      else world.retryClaim process token again
  | .second snapshot reader =>
    match advanceReader claimLimits world.files reader with
    | .going next =>
      world.enter process (.claiming token (.second snapshot next))
    | .missing => world.retryClaim process token again
    | .multipleLinks => world.enter process .idle
    | .failed => world.enter process .idle
    | .read content identity =>
      if identity = snapshot.identity ∧
          content.any (matchesExpected process token) then
        world.enter process (.claiming token (.unlinking snapshot))
      else world.retryClaim process token again
  | .unlinking _ =>
    match world.files.lookup .lock with
    | none => world.endRelease process token
    | some _ => (world.unlink process).endRelease process token

end

/-- The next operation of a process. -/
def advance (again : Bool) : LockWorld Detail :=
  match world.phase process with
  | .idle => world
  | .creating owner publication =>
    match world.files.createNew (world.temporary process) none 0o600 with
    | .ok files =>
      (world.withFiles files).enter process
        (.writing owner publication world.files.next)
    | .error _ => world.failPublication process owner publication
  | .writing owner publication inode =>
    (world.withFiles (world.files.write inode (some owner))).enter process
      (.publishing owner publication)
  | .publishing owner publication => world.publish process owner publication
  | .unstaging owner number linked => world.unstage process owner number linked
  | .counting owner number =>
    if program.ownerOnly then
      world.enter process (.protecting owner (.exclusive number))
    else world.enter process .idle
  | .protecting owner publication =>
    world.openPublished process owner publication
  | .inspecting owner publication inode =>
    world.inspectPublished process owner publication inode
  | .changing _ _ inode =>
    (world.withFiles (world.files.changeMode inode 0o600)).enter process
      .idle
  | .reading purpose reader =>
    world.readSnapshot program process purpose reader
  | .judging owner number snapshot =>
    if world.alive snapshot.owner.pid then world.enter process .idle
    else world.enter process (.comparing (.reclaim owner number) snapshot)
  | .comparing purpose snapshot =>
    world.compare program process purpose snapshot
  | .rereading purpose snapshot reader =>
    world.reread program process purpose snapshot reader
  | .unlinking purpose _ => world.removeLock program process purpose
  | .claiming token phase => world.advanceClaim process token again phase

def repair (name : LockName) : LockWorld Detail :=
  match world.files.lookup name with
  | none => world
  | some inode =>
    if name ≠ .lock ∧ world.files.lookup .lock = some inode ∧
        world.files.links inode = 2 then
      world.removeFile name
    else world

/-- The process may call an operation of a lock. -/
def ready : Bool :=
  world.alive process && decide (world.phase process matches .idle)

def ownToken : Option LockToken :=
  (world.held process).filter fun token => token.process == process

def acquire (detail : Detail) : LockWorld Detail :=
  world.setProcess process fun info =>
    { info with
      phase := .creating {
        pid := process
        token := world.drawToken process
        detail } (.exclusive 1)
      draws := info.draws + 1 }

def beginHandoff (token : LockToken) (receiver : ProcessId) (detail : Detail) :
    LockWorld Detail :=
  world.enter process
    (.creating { pid := receiver, token, detail } .handoff)

end Program

def step (program : LockProgram Detail) (world : LockWorld Detail) :
    LockEvent Detail → LockWorld Detail
  | .acquire process detail =>
    if world.ready process then world.acquire process detail else world
  | .update process startupReadyAt =>
    if world.ready process && program.update.isSome then
      match world.ownToken process with
      | none => world
      | some token =>
        world.enter process (.reading (.update token startupReadyAt) {})
    else world
  | .handoff process receiver detail =>
    if world.ready process && program.allowHandoff then
      match world.ownToken process with
      | none => world
      | some token => world.beginHandoff process token receiver detail
    else world
  | .release process =>
    if world.ready process then
      match world.ownToken process with
      | none => world
      | some token => world.beginRelease process token
    else world
  | .claim process token =>
    if world.ready process then
      world.enter process (.claiming token (.first {}))
    else world
  | .advance process again =>
    if world.alive process then world.advance program process again
    else world
  | .repair process number => world.repair (.temporary process number)
  | .crash process =>
    world.setProcess process fun info => { info with alive := false }

end LockWorld

end MachineBridge.Locks
