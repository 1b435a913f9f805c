import MachineBridge.Foundation.Filesystem
import MachineBridge.Foundation.Run
import MachineBridge.Foundation.Text
import Mathlib.Data.List.Sort

/-!
# The state of a workspace

`loadState` and `saveState` on the files of one profile.  A state which is not
JSON is preserved in a backup, removed and noted in a recovery marker.  Each
operation of the filesystem is a step of its own; a call may crash before any of
them, and somebody else may write or remove `state.json` between any two.
-/

namespace MachineBridge.State

open Foundation

inductive StateName where
  | state
  | recoveryMarker
  | backup (number : Nat)
  | temporary (number : Nat)
deriving DecidableEq

def schemaVersion : Nat := 6

/-- What the checks of a state read; `worker` stands for its contents. -/
structure WorkspaceState where
  schemaVersion : Nat
  matchesEnvelope : Bool
  worker : Nat
deriving DecidableEq

def WorkspaceState.isCurrent (state : WorkspaceState) : Bool :=
  state.schemaVersion == State.schemaVersion && state.matchesEnvelope

/-- A text as `JSON.parse` tells it apart. -/
inductive StateContent where
  | json (state : WorkspaceState)
  | invalid (bytes : Text)
  | marker (backup : Nat)

structure StoredFile where
  content : StateContent := .invalid []
  modified : Nat := 0

abbrev StateFiles := Filesystem StateName StoredFile

structure MarkerSnapshot where
  backup : Nat
  identity : FileIdentity

/-- What `readJsonObjectOrBackup` read, and the backup which it makes. -/
structure Detection where
  bytes : Text
  identity : FileIdentity
  backup : Nat
  modified : Nat := 0

/-- A file which is prepared under a temporary name. -/
inductive Draft where
  | backup (detection : Detection)
  | marker (detection : Detection)
  | state (state : WorkspaceState)

/-- The marker is looked up when a load begins and when a save ends. -/
inductive MarkerUse where
  | beginLoad
  | endSave
deriving DecidableEq

/-- What a call returns once the marker is removed. -/
inductive Completion where
  | loaded (state : WorkspaceState)
  | saved

inductive ReaderPhase where
  | opening
  | inspecting (inode : Nat)
  | locating (identity : FileIdentity)
  | reading (identity : FileIdentity)

structure BackupInfo where
  (number modified : Nat)
  identity : FileIdentity

def BackupInfo.NoEarlier (first second : BackupInfo) : Prop :=
  second.modified ≤ first.modified

instance : DecidableRel BackupInfo.NoEarlier := fun first second =>
  inferInstanceAs (Decidable (second.modified ≤ first.modified))

instance : Std.Total BackupInfo.NoEarlier :=
  ⟨fun _ _ => Nat.le_total _ _⟩

instance : IsTrans BackupInfo BackupInfo.NoEarlier :=
  ⟨fun _ _ _ one other => Nat.le_trans other one⟩

/-- The next operation of a call. -/
inductive StatePhase where
  | idle
  | findingMarker (use : MarkerUse)
  | protectingMarker (use : MarkerUse)
  | readingMarker (use : MarkerUse)
  | findingState (recovery : Option MarkerSnapshot)
  | openingState (recovery : Option MarkerSnapshot)
  | protectingState (recovery : Option MarkerSnapshot) (inode : Nat)
  | reading (recovery : Option MarkerSnapshot) (reader : ReaderPhase)
  | creating (draft : Draft)
  | writing (draft : Draft) (inode : Nat)
  | publishing (draft : Draft)
  | unstaging (detection : Detection)
  | comparing (detection : Detection)
  | unlinking (detection : Detection)
  | discarding (detection : Detection)
  | protectingBackup (detection : Detection)
  | listing (detection : Detection)
  | pruning (detection : Detection) (rest : List BackupInfo)
  | protectingNewMarker
  | comparingMarker (completion : Completion) (snapshot : MarkerSnapshot)
  | unlinkingMarker (completion : Completion)

inductive StateResult where
  | fresh
  | loaded (state : WorkspaceState)
  | saved
  | thrown
deriving DecidableEq

/-- A result, whether a state existed which nobody else has removed, and whether
an invalid one was detected or taken away and no current one put back. -/
structure StateOutcome where
  result : StateResult
  (existed detected taken : Bool)

/-- An invalid state which was taken away, and its backup. -/
structure Preserved where
  bytes : Text
  (backup modified : Nat)
deriving DecidableEq

structure StateWorld where
  files : StateFiles := .empty
  phase : StatePhase := .idle
  (backups temporaries : Nat := 0)
  (existed detected taken : Bool := false)
  /-- The backups which were made, with their times of modification. -/
  made : List (Nat × Nat) := []
  preserved : List Preserved := []
  outcomes : List StateOutcome := []

inductive StateEvent where
  | load
  | save (state : WorkspaceState)
  /-- The next operation of the call, and the time at which it takes place. -/
  | advance (now : Nat)
  | crash
  /-- Somebody else writes `state.json`, in place or as another file. -/
  | corrupt (bytes : Text) (inPlace : Bool) (now : Nat)
  | restore (state : WorkspaceState) (inPlace : Bool) (now : Nat)
  | remove
  /-- A temporary file which was left behind is removed. -/
  | clean (number : Nat)
deriving DecidableEq

namespace StateWorld

variable (world : StateWorld)

def enter (phase : StatePhase) : StateWorld := { world with phase }

def withFiles (files : StateFiles) : StateWorld := { world with files }

def finish (result : StateResult) : StateWorld :=
  { world with
    phase := .idle
    outcomes := ⟨result, world.existed, world.detected, world.taken⟩ ::
      world.outcomes }

def fail : StateWorld := world.finish .thrown

def complete : Completion → StateWorld
  | .loaded state => world.finish (.loaded state)
  | .saved => world.finish .saved

def temporary : StateName := .temporary world.temporaries

section

variable (name : StateName)

def removeFile : StateWorld :=
  match world.files.remove name with
  | .ok files => world.withFiles files
  | .error _ => world

def putBack (current : Bool) : StateWorld :=
  { world with
    existed := true
    detected := world.detected && !current
    taken := world.taken && !current }

/-- `state.json` holds a current state. -/
def holdsCurrent : Bool :=
  match world.files.lookup .state with
  | none => false
  | some inode =>
    match world.files.kind inode with
    | .regular ⟨.json state, _⟩ => state.isCurrent
    | _ => false

def findMarker (use : MarkerUse) : StateWorld :=
  match world.files.lookup .recoveryMarker with
  | none =>
    match use with
    | .beginLoad => world.enter (.findingState none)
    | .endSave => world.finish .saved
  | some _ => world.enter (.protectingMarker use)

/-- `ownerOnlyFile` on a file which only calls change. -/
def protect (next : StateWorld → StateWorld) : StateWorld :=
  match world.files.lookup name with
  | none => world.fail
  | some inode =>
    if (world.files.kind inode).isRegular &&
        world.files.links inode ≤ 1 then
      next (world.withFiles (world.files.changeMode inode 0o600))
    else world.fail

def useMarker (snapshot : MarkerSnapshot) : MarkerUse → StateWorld
  | .beginLoad => world.enter (.findingState (some snapshot))
  | .endSave => world.enter (.comparingMarker .saved snapshot)

/-- `readRecoveryMarker` -/
def readMarker (use : MarkerUse) : StateWorld :=
  match world.files.lookup .recoveryMarker with
  | none => world.fail
  | some inode =>
    match world.files.kind inode with
    | .regular ⟨.marker backup, _⟩ =>
      world.useMarker ⟨backup, world.files.identity inode⟩ use
    | _ => world.fail

/-- The path still names a file by itself. -/
def sameFile (identity : FileIdentity) : Bool :=
  (world.files.lookup name).any fun inode =>
    (world.files.kind inode).isRegular && world.files.links inode == 1 &&
      world.files.identity inode == identity

end

section

variable (completion : Completion)

def compareMarker (snapshot : MarkerSnapshot) : StateWorld :=
  if world.sameFile .recoveryMarker snapshot.identity then
    world.enter (.unlinkingMarker completion)
  else world.fail

def unlinkMarker : StateWorld :=
  match world.files.lookup .recoveryMarker with
  | none => world.fail
  | some _ => (world.removeFile .recoveryMarker).complete completion

end

section

variable (recovery : Option MarkerSnapshot)

def findState : StateWorld :=
  match world.files.lookup .state with
  | some _ => world.enter (.openingState recovery)
  | none =>
    match recovery with
    | some _ => world.fail
    | none => world.finish .fresh

def openState : StateWorld :=
  match world.files.lookup .state with
  | none => world.fail
  | some inode =>
    if (world.files.kind inode).isRegular &&
        world.files.links inode ≤ 1 then
      world.enter (.protectingState recovery inode)
    else world.fail

def acceptState (state : WorkspaceState) : StateWorld :=
  if state.isCurrent then
    match recovery with
    | none => world.finish (.loaded state)
    | some snapshot => world.enter (.comparingMarker (.loaded state) snapshot)
  else world.fail

/-- A current state may have taken the place of the file which was read. -/
def detect (bytes : Text) (identity : FileIdentity) : StateWorld :=
  { world with
    detected := world.detected || !world.holdsCurrent
    phase := .creating (.backup {
      bytes
      identity
      backup := world.backups })
    backups := world.backups + 1 }

def useContent (identity : FileIdentity) : StateContent → StateWorld
  | .json state => world.acceptState recovery state
  | .invalid bytes => world.detect bytes identity
  | .marker _ => world.fail

def readState : ReaderPhase → StateWorld
  | .opening =>
    match world.files.lookup .state with
    | none => world.fail
    | some inode => world.enter (.reading recovery (.inspecting inode))
  | .inspecting inode =>
    if (world.files.kind inode).isRegular &&
        world.files.links inode ≤ 1 then
      world.enter
        (.reading recovery (.locating (world.files.identity inode)))
    else world.fail
  | .locating identity =>
    match world.files.lookup .state with
    | none => world.fail
    | some inode =>
      if world.files.identity inode = identity then
        world.enter (.reading recovery (.reading identity))
      else world.fail
  | .reading identity =>
    match world.files.kind identity.inode with
    | .regular stored => world.useContent recovery identity stored.content
    | _ => world.fail

end

/-- A temporary name is used once. -/
def nextTemporary : StateWorld :=
  { world with temporaries := world.temporaries + 1 }

def create (draft : Draft) : StateWorld :=
  match world.files.createNew world.temporary {} 0o600 with
  | .ok files =>
    (world.withFiles files).enter (.writing draft world.files.next)
  | .error _ => world.fail

/-- The content of a draft; a backup remembers when it was written. -/
def draftFile (now : Nat) : Draft → StoredFile
  | .backup detection => ⟨.invalid detection.bytes, now⟩
  | .marker detection => ⟨.marker detection.backup, now⟩
  | .state state => ⟨.json state, now⟩

def written (now : Nat) : Draft → Draft
  | .backup detection => .backup { detection with modified := now }
  | draft => draft

def write (draft : Draft) (inode now : Nat) : StateWorld :=
  (world.withFiles (world.files.write inode (draftFile now draft))).enter
    (.publishing (written now draft))

/-- `createExclusiveFileSync` gives the backup its name. -/
def linkBackup (detection : Detection) : StateWorld :=
  match world.files.link world.temporary (.backup detection.backup) with
  | .ok files =>
    { world with
      files
      phase := .unstaging detection
      made := (detection.backup, detection.modified) :: world.made }
  | .error _ => world.fail

def renameState (state : WorkspaceState) : StateWorld :=
  match world.files.rename world.temporary .state with
  | .ok files =>
    ((world.withFiles files).putBack state.isCurrent).enter
      (.findingMarker .endSave)
  | .error _ => world.fail

def renameMarker : StateWorld :=
  match world.files.rename world.temporary .recoveryMarker with
  | .ok files => (world.withFiles files).enter .protectingNewMarker
  | .error _ => world.fail

def publish : Draft → StateWorld
  | .backup detection => world.linkBackup detection
  | .marker _ => world.renameMarker
  | .state state => world.renameState state

section

variable (detection : Detection)

def unstage : StateWorld :=
  (world.removeFile world.temporary).enter (.comparing detection)

def compare : StateWorld :=
  if world.sameFile .state detection.identity then
    world.enter (.unlinking detection)
  else world.enter (.discarding detection)

/-- The invalid state goes; its bytes were read before. -/
def unlinkState : StateWorld :=
  match world.files.lookup .state with
  | none => world.enter (.discarding detection)
  | some _ =>
    { world.removeFile .state with
      phase := .protectingBackup detection
      detected := true
      taken := true
      preserved := ⟨detection.bytes, detection.backup,
        detection.modified⟩ :: world.preserved }

/-- Another state took the place of the one which was read. -/
def discard : StateWorld :=
  (world.removeFile (.backup detection.backup)).fail

def backupInfos : List BackupInfo :=
  world.files.entries.entries.filterMap fun entry =>
    match entry.1, world.files.kind entry.2 with
    | .backup number, .regular stored =>
      if world.files.links entry.2 = 1 then
        some ⟨number, stored.modified, world.files.identity entry.2⟩
      else none
    | _, _ => none

/-- `pruneBackups` keeps the three latest. -/
def prunable : List BackupInfo :=
  (world.backupInfos.insertionSort BackupInfo.NoEarlier).drop 3

def prune : List BackupInfo → StateWorld
  | [] => world.enter (.creating (.marker detection))
  | info :: rest =>
    if world.sameFile (.backup info.number) info.identity then
      (world.removeFile (.backup info.number)).enter
        (.pruning detection rest)
    else world.enter (.pruning detection rest)

end

/-- The next operation of the call. -/
def advance (now : Nat) : StateWorld :=
  match world.phase with
  | .idle => world
  | .findingMarker use => world.findMarker use
  | .protectingMarker use =>
    world.protect .recoveryMarker fun world => world.enter (.readingMarker use)
  | .readingMarker use => world.readMarker use
  | .findingState recovery => world.findState recovery
  | .openingState recovery => world.openState recovery
  | .protectingState recovery inode =>
    (world.withFiles (world.files.changeMode inode 0o600)).enter
      (.reading recovery .opening)
  | .reading recovery reader => world.readState recovery reader
  | .creating draft => world.nextTemporary.create draft
  | .writing draft inode => world.write draft inode now
  | .publishing draft => world.publish draft
  | .unstaging detection => world.unstage detection
  | .comparing detection => world.compare detection
  | .unlinking detection => world.unlinkState detection
  | .discarding detection => world.discard detection
  | .protectingBackup detection =>
    world.protect (.backup detection.backup) fun world =>
      world.enter (.listing detection)
  | .listing detection => world.enter (.pruning detection world.prunable)
  | .pruning detection rest => world.prune detection rest
  | .protectingNewMarker => world.protect .recoveryMarker fail
  | .comparingMarker completion snapshot =>
    world.compareMarker completion snapshot
  | .unlinkingMarker completion => world.unlinkMarker completion

/-- Somebody else writes the state. -/
def overwrite (content : StateContent) (inPlace : Bool) (now : Nat) :
    StateWorld :=
  match world.files.lookup .state with
  | some inode =>
    if inPlace then
      world.withFiles (world.files.write inode ⟨content, now⟩)
    else world.withFiles
      (world.files.create .state (.regular ⟨content, now⟩) 0o600)
  | none => world.withFiles
      (world.files.create .state (.regular ⟨content, now⟩) 0o600)

def corrupt (bytes : Text) (inPlace : Bool) (now : Nat) : StateWorld :=
  (world.overwrite (.invalid bytes) inPlace now).putBack false

def restore (state : WorkspaceState) (inPlace : Bool) (now : Nat) :
    StateWorld :=
  (world.overwrite (.json state) inPlace now).putBack state.isCurrent

def externalRemove : StateWorld :=
  match world.files.lookup .state with
  | none => world
  | some _ => { world.removeFile .state with existed := false }

/-- One call follows the other. -/
def step : StateEvent → StateWorld
  | .load =>
    match world.phase with
    | .idle => world.enter (.findingMarker .beginLoad)
    | _ => world
  | .save state =>
    match world.phase with
    | .idle =>
      if state.isCurrent then world.enter (.creating (.state state))
      else world.fail
    | _ => world
  | .advance now => world.advance now
  | .crash =>
    match world.phase with
    | .idle => world
    | _ => world.enter .idle
  | .corrupt bytes inPlace now => world.corrupt bytes inPlace now
  | .restore state inPlace now => world.restore state inPlace now
  | .remove => world.externalRemove
  | .clean number =>
    match world.phase with
    | .idle => world.removeFile (.temporary number)
    | _ => world

end StateWorld

end MachineBridge.State
