import MachineBridge.Files.PatchCommit
import MachineBridge.Files.PatchRollback

/-!
# The outcomes of a patch transaction

The assertions about staging, commit and rollback are put together: whatever
calls fail and whatever the other process does, a transaction ends with all
operations applied, or with the paths as they were, or it says that recovery was
incomplete and keeps every original.
-/

namespace MachineBridge.Files

open Foundation PatchState List

variable {Content Digest : Type}

/-- A filesystem in which the names that a transaction makes up are free. -/
structure Workspace (Content : Type) where
  files : Filesystem PatchName Content
  unused : ∀ index, files.lookup (.staged index) = none ∧
    files.lookup (.backup index) = none

def Workspace.start (workspace : Workspace Content) :
    PatchState Content Digest :=
  { files := workspace.files }

/-- The inode is a file with the content that an operation expected at its
source. -/
def Expected (sha256 : Content → Digest)
    (operations : List (PatchOperation Content Digest))
    (state : PatchState Content Digest) (path : PatchPath) (inode : Nat) :
    Prop :=
  ∃ operation content, operation ∈ operations ∧
    operation.source? = some path ∧
    state.files.kind inode = .regular content ∧
    some (sha256 content) = operation.originalHash?

/-- The outcome of a success. -/
structure Finished (sha256 : Content → Digest)
    (operations : List (PatchOperation Content Digest))
    (before : Filesystem PatchName Content)
    (state : PatchState Content Digest) : Prop where
  intact : Intact before state
  applied : ∀ index operation, operations[index]? = some operation →
    Applied operation index state
  saved : ∀ path inode, Standing operations before state path inode →
    state.files.lookup (.path path) = some inode ∨
      state.Displaced path inode ∨ Expected sha256 operations state path inode

/-- The outcome of an error.  Unless the error says that recovery was incomplete,
no path keeps a trace of the transaction. -/
structure Recovered (operations : List (PatchOperation Content Digest))
    (before : Filesystem PatchName Content) (failure : PatchFailure)
    (state : PatchState Content Digest) : Prop where
  intact : Intact before state
  saved : ∀ path inode, Standing operations before state path inode →
    Saved operations state path inode
  restored : failure.reason? ≠ some "patch_recovery_incomplete" →
    ∀ path ∈ patchPaths operations, ¬ state.Touched path →
      state.files.lookup (.path path) = before.lookup (.path path)
  emptied : failure.reason? ≠ some "patch_recovery_incomplete" →
    ∀ index, state.files.lookup (.backup index) = none

structure PatchOutcome (sha256 : Content → Digest)
    (operations : List (PatchOperation Content Digest))
    (before : Filesystem PatchName Content)
    (result : Except PatchFailure Nat)
    (state : PatchState Content Digest) : Prop where
  finished : ∀ count, result = .ok count →
    Finished sha256 operations before state
  recovered : ∀ failure, result = .error failure →
    Recovered operations before failure state

variable {sha256 : Content → Digest}
  {operations : List (PatchOperation Content Digest)}
  {before : Filesystem PatchName Content} {paths : List PatchPath}
  {state next : PatchState Content Digest}

theorem ensures_removeArtifacts {names : List PatchName}
    {Assertion : PatchState Content Digest → Prop}
    {Failed : PatchFailure → PatchState Content Digest → Prop}
    (stable : Process.Stable (interfere paths) Assertion)
    (removed : ∀ name ∈ names, ∀ state files, Assertion state →
      state.files.remove name = .ok files → Assertion { state with files }) :
    Process.Ensures Assertion (removeArtifacts paths names)
      (fun _ => Assertion) Failed := by
  induction names with
  | nil => exact Process.ensures_pure fun _ => id
  | cons name names induction =>
    have attempted : Process.Ensures Assertion (mutate paths (·.remove name))
        (fun _ => Assertion) (fun _ => Assertion) :=
      ensures_mutate ⟨stable, fun _ _ => id⟩
        (removed name mem_cons_self)
    apply Process.ensures_seq (Process.ensures_attempt (attempted.weaken
      (fun _ => id) (fun _ _ => id) (fun _ _ => id)))
    intro result
    apply Process.ensures_seq (induction fun other member =>
      removed other (mem_cons_of_mem name member))
    intro failures
    cases result with
    | ok _ | error failure => exact Process.ensures_pure fun _ => id

theorem Finished.interfered {path : PatchPath} {put : Option Nat}
    (finished : Finished sha256 operations before state)
    (interfered : Interfered state next path put) :
    Finished sha256 operations before next where
  intact := finished.intact.interfered interfered
  applied := fun index operation listed =>
    (finished.applied index operation listed).interfered interfered
  saved := by
    intro other inode standing
    rcases interfered.standing_cases standing with earlier | here
    · rcases finished.saved other inode earlier with found | displaced |
        ⟨operation, content, listed, isSource, kind, expected⟩
      · exact (interfered.kept found).imp_right .inl
      · exact .inr (.inl (interfered.displaced displaced))
      · right
        right
        refine ⟨operation, content, listed, isSource, ?_, expected⟩
        rw [interfered.kind_eq inode (finished.intact.standing earlier).1]
        exact kind
    · exact .inl here

theorem Finished.remove {name : PatchName}
    {files : Filesystem PatchName Content}
    (finished : Finished sha256 operations before state)
    (internal : ∀ path, name ≠ .path path)
    (removed : state.files.remove name = .ok files) :
    Finished sha256 operations before { state with files } where
  intact := finished.intact.changes (changes_remove removed) nofun
  applied := by
    intro index operation listed
    apply (finished.applied index operation listed).changes
      (changes_remove removed)
    · exact fun path _ same => internal path same.symm
    · exact fun record member same created => ⟨record, member, same, created⟩
  saved := by
    intro path inode standing
    have changes := changes_remove removed
    rcases finished.saved path inode standing with found | displaced |
      ⟨operation, content, listed, isSource, kind, expected⟩
    · left
      rw [changes.lookup_eq _ fun same => internal path same.symm]
      exact found
    · exact .inr (.inl displaced)
    · right
      right
      refine ⟨operation, content, listed, isSource, ?_, expected⟩
      rw [changes.kind_eq inode (finished.intact.standing standing).1 id]
      exact kind

theorem Committing.finished
    (progress : Progress sha256 operations before [] state) :
    Finished sha256 operations before state where
  intact := Undoing.sound progress.recoverable |>.toIntact
  applied := fun index operation listed =>
    (progress.done (operation, index)
      (mem_zipIdx_iff_getElem?.mpr listed) nofun).toApplied
  saved := by
    intro path inode standing
    have undoing := progress.recoverable
    rcases undoing.sound.saved path inode standing with here | displaced |
      ⟨index, operation, listed, isSource, backup⟩
    · exact .inl here
    · exact .inr (.inl displaced)
    · right
      right
      obtain ⟨content, kind, expected⟩ := (progress.done (operation, index)
        (mem_zipIdx_iff_getElem?.mpr listed) nofun).verified path inode
        isSource backup
      exact ⟨operation, content, mem_of_getElem? listed, isSource, kind,
        expected⟩

theorem internal_of_mem_artifacts
    (recoverable : Recoverable operations before state) {name : PatchName}
    (member : name ∈ artifacts state) (path : PatchPath) :
    name ≠ .path path := by
  rcases mem_append.mp member with staged | backup
  · obtain ⟨index, -, rfl⟩ := List.mem_map.mp staged
    exact nofun
  · obtain ⟨record, isRecord, isBackup⟩ := mem_filterMap.mp backup
    have backup_eq := (Undoing.begun recoverable record isRecord).backup_eq
    rw [isBackup] at backup_eq
    cases isSource : record.operation.source? with
    | none =>
      rw [isSource] at backup_eq
      cases backup_eq
    | some source =>
      rw [isSource] at backup_eq
      cases backup_eq
      exact nofun

theorem cleanUp_ensures {Failed : PatchFailure → PatchState Content Digest →
    Prop} : Process.Ensures (Progress sha256 operations before [])
    (Process.inspect artifacts >>= fun names => removeArtifacts paths names >>=
    fun failures => pure failures.length : PatchProcess Content Digest Nat)
    (fun _ => Finished sha256 operations before) Failed := by
  have inspected : Process.Ensures (Progress sha256 operations before [])
      (Process.inspect artifacts : PatchProcess Content Digest _)
      (fun names state => Finished sha256 operations before state ∧
        ∀ name ∈ names, ∀ path, name ≠ .path path) Failed := by
    intro state progress
    exact ⟨Committing.finished progress, fun name member path =>
      internal_of_mem_artifacts progress.recoverable member path⟩
  apply Process.ensures_bind inspected
  intro names
  apply Process.ensures_of_fact fun _ holds => holds.2
  intro internal
  have removed : Process.Ensures (Finished sha256 operations before)
      (removeArtifacts paths names)
      (fun _ => Finished sha256 operations before) Failed := by
    apply ensures_removeArtifacts
    · exact stable_of_interfered fun interfered finished =>
        finished.interfered interfered
    · exact fun name member state files finished removed =>
        finished.remove (internal name member) removed
  apply Process.ensures_seq (removed.weaken (fun _ holds => holds.1)
    (fun _ _ => id) (fun _ _ => id))
  intro failures
  exact Process.ensures_pure fun _ => id

theorem Undoing.reverse {records : List (CommitRecord Content Digest)}
    {clean : Prop} (undoing : Undoing operations before records clean state) :
    Undoing operations before records.reverse clean state where
  sound := undoing.sound
  begun := fun record member => undoing.begun record (mem_reverse.mp member)
  distinct := by
    rw [map_reverse, nodup_reverse]
    exact undoing.distinct
  asBefore := by
    intro isClean index operation listed absent
    apply undoing.asBefore isClean index operation listed
    simpa using absent
  cleared := by
    intro isClean index absent
    apply undoing.cleared isClean index
    simpa using absent

theorem Undoing.recovered {clean : Prop} {failure : PatchFailure}
    (undoing : Undoing operations before [] clean state)
    (told : failure.reason? ≠ some "patch_recovery_incomplete" → clean) :
    Recovered operations before failure state where
  intact := undoing.sound.toIntact
  saved := undoing.sound.saved
  restored := by
    intro complete path member untouched
    obtain ⟨operation, isOperation, isPath⟩ := mem_flatMap.mp member
    obtain ⟨index, listed⟩ := getElem?_of_mem isOperation
    exact undoing.asBefore (told complete) index operation listed nofun path
      isPath untouched
  emptied := fun complete index => undoing.cleared (told complete) index nofun

theorem rollbackAll_ensures (distinct : (patchPaths operations).Nodup)
    {error : PatchFailure} {After : Nat → PatchState Content Digest → Prop} :
    Process.Ensures (Recoverable operations before) (rollbackAll paths error)
    After (Recovered operations before) := by
  have inspected : Process.Ensures (Recoverable operations before)
      (Process.inspect (·.committed.reverse) : PatchProcess Content Digest _)
      (fun records => Undoing operations before records True)
      (Recovered operations before) :=
    Process.ensures_inspect fun state recoverable =>
      Undoing.reverse recoverable
  apply Process.ensures_bind inspected
  intro records
  apply Process.ensures_bind (rollback_ensures distinct records True)
  intro failures
  have listed : Process.Ensures (Undoing operations before [] (True ∧ failures
      = [])) (Process.inspect (·.staged.map PatchName.staged) : PatchProcess
      Content Digest _) (fun names state => Undoing operations before []
      (failures = []) state ∧ ∀ name ∈ names, ∃ index, name = .staged index)
      (Recovered operations before) := by
    intro state undoing
    refine ⟨by simpa using undoing, fun name member => ?_⟩
    obtain ⟨index, -, rfl⟩ := List.mem_map.mp member
    exact ⟨index, rfl⟩
  apply Process.ensures_bind listed
  intro names
  apply Process.ensures_of_fact fun _ holds => holds.2
  intro internal
  have removed : Process.Ensures (Undoing operations before [] (failures = []))
      (removeArtifacts paths names)
      (fun _ => Undoing operations before [] (failures = []))
      (Recovered operations before) := by
    apply ensures_removeArtifacts
    · exact stable_of_interfered fun interfered undoing =>
        undoing.interfered interfered
    · intro name member state files undoing removed
      obtain ⟨index, rfl⟩ := internal name member
      exact undoing.remove_staged removed
  apply Process.ensures_seq (removed.weaken (fun _ holds => holds.1)
    (fun _ _ => id) (fun _ _ => id))
  intro cleanupFailures
  cases failures with
  | cons failure failures =>
    exact Process.ensures_fail fun state undoing =>
      undoing.recovered fun complete => absurd rfl complete
  | nil =>
    cases cleanupFailures with
    | cons failure failures | nil =>
      exact Process.ensures_fail fun state undoing =>
        undoing.recovered fun _ => rfl

theorem Workspace.staging (workspace : Workspace Content) : Staging operations
    workspace.files operations.zipIdx
    (workspace.start : PatchState Content Digest) where
  recoverable := by
    refine ⟨⟨⟨Nat.le_refl _, fun _ _ => rfl, List.forall_mem_nil _,
      List.forall_mem_nil _⟩, ?_⟩, List.forall_mem_nil _,
      nodup_nil, fun _ _ _ _ _ _ _ _ => rfl,
      fun _ index _ => (workspace.unused index).2⟩
    rintro path inode (⟨-, original⟩ | ⟨_, impossible, -⟩)
    · exact .inl original
    · cases impossible
  committed_eq := rfl
  files := nofun
  complete := fun _ member absent => absurd member absent

/-- Where applying the operations leads to. -/
def AppliedOrNot (sha256 : Content → Digest)
    (operations : List (PatchOperation Content Digest))
    (before : Filesystem PatchName Content)
    (result : Except PatchFailure PUnit) (state : PatchState Content Digest) :
    Prop :=
  match result with
  | .ok _ => Progress sha256 operations before [] state
  | .error _ => Recoverable operations before state

theorem commitPatchTransaction_ensures [Inhabited Content] [DecidableEq Digest]
    {windows : Bool} (distinct : (patchPaths operations).Nodup)
    (apart : Apart operations) : Process.Ensures
    (Staging operations before operations.zipIdx)
    (commitPatchTransaction sha256 windows operations)
    (fun _ => Finished sha256 operations before) (Recovered operations before)
    := by
  have applied : Process.Ensures (Staging operations before operations.zipIdx)
      (Process.attempt (applyOperations sha256 (patchPaths operations) windows
      operations.zipIdx)) (AppliedOrNot sha256 operations before)
      (Recovered operations before) :=
    Process.ensures_attempt (applyOperations_ensures distinct apart)
  apply Process.ensures_bind applied
  intro result
  cases result with
  | ok _ => exact cleanUp_ensures
  | error error => exact rollbackAll_ensures distinct

/-- Every schedule of failing calls and of actions of the other process leads to
one of the outcomes. -/
theorem commitPatchTransaction_outcome [Inhabited Content]
    [DecidableEq Digest] (sha256 : Content → Digest) (windows : Bool)
    (operations : List (PatchOperation Content Digest))
    (workspace : Workspace Content)
    (turns : List (Turn (PatchInterference Content)))
    (distinct : (patchPaths operations).Nodup) (apart : Apart operations) :
    let outcome := commitPatchTransaction sha256 windows operations
      { state := workspace.start, turns }
    PatchOutcome sha256 operations workspace.files outcome.1
      outcome.2.state := by
  have ensured : Process.Ensures
      (Staging operations workspace.files operations.zipIdx)
      (commitPatchTransaction sha256 windows operations)
      (fun _ => Finished sha256 operations workspace.files)
      (Recovered operations workspace.files) :=
    commitPatchTransaction_ensures distinct apart
  have holds := ensured.result { state := workspace.start, turns }
    workspace.staging
  exact ⟨holds.1, holds.2⟩

instance (operations : List (PatchOperation Content Digest)) :
    Decidable (Apart operations) :=
  inferInstanceAs (Decidable (∀ path ∈ patchPaths operations,
    ∀ other ∈ patchPaths operations, other ∉ directories path))

def Workspace.ofFile (path : PatchPath) (content : Content) :
    Workspace Content where
  files := Filesystem.empty.create (.path path) (.regular content) 0o600
  unused := by simp

def Workspace.empty : Workspace Content where
  files := Filesystem.empty
  unused := by simp

/-- A transaction on contents that are their own hashes. -/
def numberRun (operations : List (PatchOperation Nat Nat))
    (workspace : Workspace Nat) (turns : List (Turn (PatchInterference Nat))) :
    Except PatchFailure Nat × PatchState Nat Nat :=
  let outcome := commitPatchTransaction id false operations
    { state := workspace.start, turns }
  (outcome.1, outcome.2.state)

def reasonOf : Except PatchFailure Nat → Option (Option String)
  | .ok _ => none
  | .error failure => some failure.reason?

def updateOperations : List (PatchOperation Nat Nat) :=
  [.update ["a"] 8 7 none, .add ["b"] 9 none]

/-- The other process creates a target first. -/
def appearedRun : Except PatchFailure Nat × PatchState Nat Nat :=
  numberRun updateOperations (.ofFile ["a"] 7)
    [{ actions := [.put ["b"] (.regular 6) 0o600] }]

theorem commitPatchTransaction_outcome_update :
    reasonOf appearedRun.1 = some (some "target_appeared") ∧ PatchOutcome id
    updateOperations (Workspace.ofFile ["a"] 7).files appearedRun.1
    appearedRun.2 := by
  have distinct : (patchPaths updateOperations).Nodup := by decide +kernel
  have apart : Apart updateOperations := by decide +kernel
  constructor
  · decide +kernel
  · unfold appearedRun numberRun
    dsimp only
    exact commitPatchTransaction_outcome id false updateOperations
      (.ofFile ["a"] 7) [{ actions := [.put ["b"] (.regular 6) 0o600] }]
      distinct apart

/-- The other process puts a file with the expected content at the source. -/
def equalRun : Except PatchFailure Nat × PatchState Nat Nat :=
  numberRun [.delete ["a"] 7] (.ofFile ["a"] 7)
    [{}, { actions := [.put ["a"] (.regular 7) 0o600] }]

/-- The other process replaces the source and then takes its place. -/
def occupiedRun : Except PatchFailure Nat × PatchState Nat Nat :=
  numberRun [.delete ["a"] 7] (.ofFile ["a"] 7)
    [{}, { actions := [.put ["a"] (.regular 5) 0o600] }, {}, {}, {},
      { actions := [.put ["a"] (.regular 6) 0o600] }]

/-- One target lies above the other. -/
def nestedRun : Except PatchFailure Nat × PatchState Nat Nat :=
  numberRun [.add ["a"] 7 none, .add ["a", "b"] 8 none] .empty []

/-- A file that the other process put at a source is deleted when it has the
expected content, an original which the other process replaced is nowhere when
recovery is incomplete, and a path above a target becomes a directory. -/
theorem commitPatchTransaction_limits : (reasonOf equalRun.1 = none ∧
      equalRun.2.Put ["a"] 1 ∧ ¬ equalRun.2.Displaced ["a"] 1 ∧ ∀ name,
      equalRun.2.files.lookup name ≠ some 1) ∧
    (reasonOf occupiedRun.1 = some (some "patch_recovery_incomplete") ∧
      ∀ name inode, occupiedRun.2.files.lookup name = some inode →
      occupiedRun.2.files.kind inode ≠ .regular 7) ∧
    reasonOf nestedRun.1 = some (some "target_appeared") ∧
    ¬ nestedRun.2.Touched ["a"] ∧
    nestedRun.2.files.lookup (.path ["a"]) ≠ none := by
  have gone : ∀ entry ∈ equalRun.2.files.entries.entries, entry.2 ≠ 1 := by
    decide +kernel
  have lost : ∀ entry ∈ occupiedRun.2.files.entries.entries,
      occupiedRun.2.files.kind entry.2 ≠ .regular 7 := by
    decide +kernel
  refine ⟨⟨by decide +kernel, ?_, ?_, ?_⟩, ⟨by decide +kernel, ?_⟩,
    by decide +kernel, ?_, by decide +kernel⟩
  · unfold Put
    decide +kernel
  · unfold Displaced
    decide +kernel
  · intro name found
    exact gone (name, 1) (Record.get?_eq_some.mp found) rfl
  · intro name inode found
    exact lost (name, inode) (Record.get?_eq_some.mp found)
  · unfold Touched
    decide +kernel

end MachineBridge.Files
