import MachineBridge.Foundation.Filesystem
import MachineBridge.Foundation.Interference
import Mathlib.Data.List.Dedup

/-!
# The patch transaction

`commitPatchTransaction` stages every new content in a file of its own, checks
the sources and targets, and then takes each operation in turn: the source is
renamed to a backup and the staged file is linked to the target.  On an error
the operations are undone in reverse.  Every filesystem step is a call, before
which another process may change the entries at the sources and targets.
-/

namespace MachineBridge.Files

open Foundation

/-- The components of a resolved path. -/
abbrev PatchPath := List String

/-- Names in the filesystem.  Those of staged files and backups are random, and
the model keeps them apart from all others. -/
inductive PatchName where
  | path (path : PatchPath)
  | staged (operation : Nat)
  | backup (operation : Nat)
deriving DecidableEq

def directories (path : PatchPath) : List PatchPath :=
  path.dropLast.inits.tail

inductive PatchOperation (Content Digest : Type) where
  | add (target : PatchPath) (content : Content) (mode : Option Nat)
  | update (source : PatchPath) (content : Content) (originalHash : Digest)
      (mode : Option Nat)
  | delete (source : PatchPath) (originalHash : Digest)
  | move (source target : PatchPath) (content : Content)
      (originalHash : Digest) (mode : Option Nat)
deriving DecidableEq

namespace PatchOperation

variable {Content Digest : Type}

def source? : PatchOperation Content Digest → Option PatchPath
  | .add _ _ _ => none
  | .update source _ _ _ => some source
  | .delete source _ => some source
  | .move source _ _ _ _ => some source

def target? : PatchOperation Content Digest → Option PatchPath
  | .add target _ _ => some target
  | .update source _ _ _ => some source
  | .delete _ _ => none
  | .move _ target _ _ _ => some target

def content? : PatchOperation Content Digest → Option Content
  | .add _ content _ => some content
  | .update _ content _ _ => some content
  | .delete _ _ => none
  | .move _ _ content _ _ => some content

def originalHash? : PatchOperation Content Digest → Option Digest
  | .add _ _ _ => none
  | .update _ _ originalHash _ => some originalHash
  | .delete _ originalHash => some originalHash
  | .move _ _ _ originalHash _ => some originalHash

def mode? : PatchOperation Content Digest → Option Nat
  | .add _ _ mode => mode
  | .update _ _ _ mode => mode
  | .delete _ _ => none
  | .move _ _ _ _ mode => mode

/-- The kinds whose target must not exist yet. -/
def createsTarget : PatchOperation Content Digest → Bool
  | .add _ _ _ => true
  | .move _ _ _ _ _ => true
  | _ => false

def paths (operation : PatchOperation Content Digest) : List PatchPath :=
  (operation.source?.toList ++ operation.target?.toList).dedup

@[simp] theorem mem_paths {operation : PatchOperation Content Digest}
    {path : PatchPath} : path ∈ operation.paths ↔
    operation.source? = some path ∨ operation.target? = some path := by
  simp [paths]

end PatchOperation

inductive PatchFailure where
  | system (errno : Errno)
  | plain (message : String)
  | bridge (code message reason : String)
  | aggregate (message : String) (errors : List PatchFailure)
  | incompleteMutation (message : String) (primary : PatchFailure)
      (cleanupFailures : List PatchFailure)
  | patchRecoveryIncomplete (primary : PatchFailure)
      (recoveryFailures : List PatchFailure)

def PatchFailure.reason? : PatchFailure → Option String
  | .bridge _ _ reason => some reason
  | .patchRecoveryIncomplete _ _ => some "patch_recovery_incomplete"
  | _ => none

/-- What the other process does with the entry at a path: it puts a new one
there, in the place of an old one if there is one, or deletes the entry. -/
inductive PatchInterference (Content : Type) where
  | put (path : PatchPath) (kind : FileKind Content) (mode : Nat)
  | delete (path : PatchPath)

/-- A change by the other process: what it took away, and what it put there with
which content. -/
structure Disturbance (Content : Type) where
  path : PatchPath
  (displaced put : Option Nat)
  kind : Option (FileKind Content)

structure CommitRecord (Content Digest : Type) where
  index : Nat
  operation : PatchOperation Content Digest
  backup : Option PatchName
  targetCreated : Bool := false
  (backupIdentity targetIdentity : Option FileIdentity := none)

/-- The filesystem, the records of the transaction, and next to them the inodes
it created and what the other process did. -/
structure PatchState (Content Digest : Type) where
  files : Filesystem PatchName Content
  staged : List Nat := []
  committed : List (CommitRecord Content Digest) := []
  created : List Nat := []
  disturbances : List (Disturbance Content) := []

namespace PatchState

variable {Content Digest : Type}

/-- The other process acts, on sources and targets only. -/
def interfere (paths : List PatchPath) (action : PatchInterference Content)
    (state : PatchState Content Digest) : PatchState Content Digest :=
  match action with
  | .put path kind mode =>
    if path ∈ paths then
      let displaced := state.files.lookup (.path path)
      { state with
        files := ((displaced.elim state.files state.files.touch).create
          (.path path) kind mode)
        disturbances := state.disturbances ++
          [{ path, displaced, put := some state.files.next,
             kind := some kind }] }
    else state
  | .delete path =>
    if path ∈ paths then
      match state.files.lookup (.path path) with
      | none => state
      | some inode =>
        { state with
          files := (state.files.touch inode).erase (.path path)
          disturbances := state.disturbances ++
            [{ path, displaced := some inode, put := none, kind := none }] }
    else state

/-- Change the record of the operation that is being committed. -/
def updateRecord (state : PatchState Content Digest) (index : Nat)
    (change : CommitRecord Content Digest → CommitRecord Content Digest) :
    PatchState Content Digest :=
  { state with
    committed := state.committed.map fun record =>
      if record.index = index then change record else record }

end PatchState

abbrev PatchProcess (Content Digest : Type) :=
  Process (PatchState Content Digest) (PatchInterference Content) PatchFailure

section Calls

variable {Content Digest : Type} (paths : List PatchPath)

def systemCall {α : Type} (operation : PatchState Content Digest →
      Except PatchFailure (α × PatchState Content Digest)) :
    PatchProcess Content Digest α :=
  Process.call (PatchState.interfere paths) (.system .failed) operation

/-- A call that changes the filesystem. -/
def mutate (operation : Filesystem PatchName Content →
      Except Errno (Filesystem PatchName Content)) :
    PatchProcess Content Digest PUnit :=
  systemCall paths fun state =>
    match operation state.files with
    | .ok files => .ok (⟨⟩, { state with files })
    | .error errno => .error (.system errno)

/-- A call that only reads the filesystem. -/
def observe {α : Type}
    (operation : Filesystem PatchName Content → Except PatchFailure α) :
    PatchProcess Content Digest α :=
  systemCall paths fun state =>
    match operation state.files with
    | .ok value => .ok (value, state)
    | .error failure => .error failure

section

variable (name : PatchName)

/-- `readUtf8File` -/
def readText (files : Filesystem PatchName Content) :
    Except PatchFailure Content :=
  match files.lookup name with
  | none => .error (.system .notFound)
  | some inode =>
    match files.kind inode with
    | .regular content =>
      if 1 < files.links inode then
        .error (.bridge "permission_denied"
          "refusing to read text file with multiple hard links"
          "multiple_hard_links")
      else .ok content
    | _ => .error (.bridge "invalid_request"
        "text file is not a regular file" "unsupported_path_type")

/-- `openRegularFileSync` for a file that must have one link. -/
def openRegularFile (files : Filesystem PatchName Content) :
    Except PatchFailure FileIdentity :=
  match files.lookup name with
  | none => .error (.system .notFound)
  | some inode =>
    if !(files.kind inode).isRegular then
      .error (.plain "path is not a regular file")
    else if 1 < files.links inode then
      .error (.plain "path must not have multiple hard links")
    else .ok (files.identity inode)

/-- The file that was opened is a regular file with two links, and so is what
the target names. -/
def confirmPublished (opened : Nat) (target : PatchName)
    (files : Filesystem PatchName Content) :
    Except PatchFailure FileIdentity :=
  match files.lookup target with
  | none => .error (.system .notFound)
  | some current =>
    if !(files.kind opened).isRegular || files.links opened != 2 ||
        !(files.kind current).isRegular || files.links current != 2 ||
        files.identity opened != files.identity current then
      .error (.plain
        "published target changed before confirmation; preserved for inspection")
    else .ok (files.identity opened)

/-- `created` is what the caller notes once the link exists. -/
def publishFileLinkWithIdentity (source target : PatchName)
    (created : PatchProcess Content Digest PUnit)
    (expected : Option FileIdentity) :
    PatchProcess Content Digest FileIdentity := do
  let opened ← observe paths (openRegularFile source)
  if expected.any (· != opened) then
    Process.fail (.plain
      "file snapshot changed before publication; preserved for inspection")
  else do
    mutate paths (·.link source target)
    created
    observe paths (confirmPublished opened.inode target)

/-- The check of the identity and the removal are one step. -/
def removeLinkedFileSnapshot (expected : Option FileIdentity) :
    PatchProcess Content Digest PUnit :=
  systemCall paths fun state =>
    match state.files.lookup name with
    | none => .ok (⟨⟩, state)
    | some inode =>
      if !(state.files.kind inode).isRegular ||
          state.files.links inode != 2 ||
          expected != some (state.files.identity inode) then
        .error (.plain
          "linked file snapshot changed before removal; preserved for inspection")
      else
        match state.files.remove name with
        | .ok files => .ok (⟨⟩, { state with files })
        | .error errno => .error (.system errno)

end

def restoreFileSnapshotNoReplace (backup target : PatchName)
    (expected : Option FileIdentity) : PatchProcess Content Digest PUnit :=
  match expected with
  | none => Process.fail (.plain
      "file snapshot identity is unavailable; preserved for inspection")
  | some identity => do
    let restored ← publishFileLinkWithIdentity paths backup target
      (pure ⟨⟩) (some identity)
    removeLinkedFileSnapshot paths backup (some restored)

def removeArtifacts : List PatchName →
    PatchProcess Content Digest (List PatchFailure)
  | [] => pure []
  | name :: names => do
    let removed ← Process.attempt (mutate paths (·.remove name))
    let failures ← removeArtifacts names
    match removed with
    | .ok _ => pure failures
    | .error failure => pure (failure :: failures)

/-- Create a staged file that does not exist yet. -/
def openStaged [Inhabited Content] (name : PatchName) (mode : Nat) :
    PatchProcess Content Digest Nat :=
  systemCall paths fun state =>
    match state.files.createNew name default mode with
    | .ok files => .ok (state.files.next, { state with
        files
        created := state.created ++ [state.files.next] })
    | .error errno => .error (.system errno)

/-- Write, set the mode and flush; on Windows the mode may fail to be set. -/
def fillStaged (windows : Bool) (inode : Nat) (content : Content)
    (mode : Nat) : PatchProcess Content Digest PUnit := do
  mutate paths fun files => .ok (files.write inode content)
  let changed ← Process.attempt
    (mutate paths fun files => .ok (files.changeMode inode mode))
  match changed with
  | .ok _ => pure ⟨⟩
  | .error failure => if windows then pure ⟨⟩ else Process.fail failure
  mutate paths .ok

def writeFlushedText [Inhabited Content] (windows : Bool) (name : PatchName)
    (content : Content) (mode : Nat) : PatchProcess Content Digest PUnit := do
  let inode ← openStaged paths name mode
  let written ← Process.attempt (fillStaged paths windows inode content mode)
  let closed ← Process.attempt (mutate paths .ok)
  let failure? : Option PatchFailure := match written, closed with
    | .ok _, .ok _ => none
    | .ok _, .error failure => some failure
    | .error failure, .ok _ => some failure
    | .error failure, .error error => some (.aggregate
        "staged file write and close both failed" [failure, error])
  match failure? with
  | none => pure ⟨⟩
  | some failure => do
    let removed ← Process.attempt (mutate paths (·.remove name))
    match removed with
    | .ok _ => Process.fail failure
    | .error cleanup => Process.fail (.incompleteMutation
        "staged file write failed and cleanup was incomplete" failure
        [cleanup])

end Calls

section Transaction

variable {Content Digest : Type} [Inhabited Content] [DecidableEq Digest]
  (sha256 : Content → Digest) (paths : List PatchPath) (windows : Bool)

abbrev NumberedOperation (Content Digest : Type) :=
  PatchOperation Content Digest × Nat

section

variable (item : NumberedOperation Content Digest)

def stageOperation : PatchProcess Content Digest PUnit :=
  match item.1.content?, item.1.target? with
  | some content, some target => do
    Process.forEach
      (fun directory => mutate paths (·.makeDirectory (.path directory)))
      (directories target)
    writeFlushedText paths windows (.staged item.2) content
      (item.1.mode?.getD 0o600)
    Process.modify fun state =>
      { state with staged := state.staged ++ [item.2] }
  | _, _ => pure ⟨⟩

def checkHash (operation : PatchOperation Content Digest) (content : Content)
    (message : String) : PatchProcess Content Digest PUnit :=
  if some (sha256 content) = operation.originalHash? then pure ⟨⟩
  else Process.fail (.bridge "conflict" message "hash_mismatch")

def verifySource (operation : PatchOperation Content Digest) :
    PatchProcess Content Digest PUnit :=
  match operation.source? with
  | none => pure ⟨⟩
  | some source => do
    let current ← observe paths (readText (.path source))
    checkHash sha256 operation current "patch source changed during apply"

def targetAppeared : PatchFailure :=
  .bridge "conflict" "patch target appeared during apply" "target_appeared"

def verifyTarget (operation : PatchOperation Content Digest) :
    PatchProcess Content Digest PUnit :=
  match operation.target? with
  | none => pure ⟨⟩
  | some target =>
    if operation.createsTarget then do
      let found ← observe paths fun files =>
        .ok (files.lookup (.path target)).isSome
      if found then Process.fail targetAppeared else pure ⟨⟩
    else pure ⟨⟩

def verifyOperation : PatchProcess Content Digest PUnit := do
  verifySource sha256 paths item.1
  verifyTarget paths item.1

/-- The source becomes the backup of the operation. -/
def moveAside : PatchProcess Content Digest PUnit :=
  match item.1.source? with
  | none => pure ⟨⟩
  | some source => mutate paths (·.rename (.path source) (.backup item.2))

def commitRecord : CommitRecord Content Digest where
  index := item.2
  operation := item.1
  backup := item.1.source?.map fun _ => .backup item.2

/-- What was moved aside is checked again. -/
def verifyBackup : PatchProcess Content Digest PUnit :=
  match item.1.source? with
  | none => pure ⟨⟩
  | some _ => do
    let identity ← observe paths (openRegularFile (.backup item.2))
    Process.modify (·.updateRecord item.2 fun record =>
      { record with backupIdentity := some identity })
    let current ← observe paths (readText (.backup item.2))
    checkHash sha256 item.1 current "patch source changed during commit"

/-- Link the staged file to the target. -/
def publishStaged
    (target : PatchPath) : PatchProcess Content Digest PUnit := do
  let published ← Process.attempt
    (publishFileLinkWithIdentity paths (.staged item.2) (.path target)
      (Process.modify (·.updateRecord item.2 fun record =>
        { record with targetCreated := true })) none)
  match published with
  | .ok identity => Process.modify (·.updateRecord item.2 fun record =>
    { record with targetIdentity := some identity })
  | .error (.system .exists) => Process.fail targetAppeared
  | .error failure => Process.fail failure

def publishTarget : PatchProcess Content Digest PUnit := do
  let staged ← Process.inspect (·.staged.contains item.2)
  match staged, item.1.target? with
  | true, some target => publishStaged paths item target
  | _, _ => pure ⟨⟩

def commitOperation : PatchProcess Content Digest PUnit := do
  moveAside paths item
  Process.modify fun state =>
    { state with committed := state.committed ++ [commitRecord item] }
  verifyBackup sha256 paths item
  publishTarget paths item

end

/-- Stage, verify and commit all operations. -/
def applyOperations (operations : List (NumberedOperation Content Digest)) :
    PatchProcess Content Digest PUnit := do
  Process.forEach (stageOperation paths windows) operations
  Process.forEach (verifyOperation sha256 paths) operations
  Process.forEach (commitOperation sha256 paths) operations

section

variable (record : CommitRecord Content Digest)

def rollbackTarget : PatchProcess Content Digest (Except PatchFailure PUnit) :=
  match record.targetCreated, record.operation.target? with
  | true, some target => Process.attempt
      (removeLinkedFileSnapshot paths (.path target) record.targetIdentity)
  | _, _ => pure (.ok ⟨⟩)

def rollbackSource : PatchProcess Content Digest (Except PatchFailure PUnit) :=
  match record.backup, record.operation.source? with
  | some backup, some source => Process.attempt
      (restoreFileSnapshotNoReplace paths backup (.path source)
        record.backupIdentity)
  | _, _ => pure (.ok ⟨⟩)

end

def failureOf : Except PatchFailure PUnit → List PatchFailure
  | .ok _ => []
  | .error failure => [failure]

/-- Undo the given operations; the failures are collected. -/
def rollback : List (CommitRecord Content Digest) →
    PatchProcess Content Digest (List PatchFailure)
  | [] => pure []
  | record :: records => do
    let target ← rollbackTarget paths record
    let source ← rollbackSource paths record
    let failures ← rollback records
    pure (failureOf target ++ failureOf source ++ failures)

/-- The names that are left after a success. -/
def artifacts (state : PatchState Content Digest) : List PatchName :=
  state.staged.map PatchName.staged ++
    state.committed.filterMap CommitRecord.backup

def rollbackAll (error : PatchFailure) :
    PatchProcess Content Digest Nat := do
  let committed ← Process.inspect (·.committed.reverse)
  let rollbackFailures ← rollback paths committed
  let staged ← Process.inspect (·.staged.map PatchName.staged)
  let stagingCleanupFailures ← removeArtifacts paths staged
  if !rollbackFailures.isEmpty then
    Process.fail (.patchRecoveryIncomplete error
      (rollbackFailures ++ stagingCleanupFailures))
  else if !stagingCleanupFailures.isEmpty then
    Process.fail (.incompleteMutation
      "patch transaction failed and staging cleanup was incomplete" error
      stagingCleanupFailures)
  else Process.fail error

end Transaction

/-- Every path which a list of operations names. -/
def patchPaths {Content Digest : Type}
    (operations : List (PatchOperation Content Digest)) : List PatchPath :=
  operations.flatMap PatchOperation.paths

/-- The transaction.  It returns the number of artifacts it could not remove,
from which the source makes a warning. -/
def commitPatchTransaction {Content Digest : Type} [Inhabited Content]
    [DecidableEq Digest] (sha256 : Content → Digest) (windows : Bool)
    (operations : List (PatchOperation Content Digest)) :
    PatchProcess Content Digest Nat := do
  let paths := patchPaths operations
  let applied ← Process.attempt
    (applyOperations sha256 paths windows operations.zipIdx)
  match applied with
  | .ok _ => do
    let names ← Process.inspect artifacts
    let cleanupFailures ← removeArtifacts paths names
    pure cleanupFailures.length
  | .error error => rollbackAll paths error

end MachineBridge.Files
