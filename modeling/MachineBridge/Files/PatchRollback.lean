import MachineBridge.Files.PatchSteps

/-!
# Undoing a patch transaction

`rollback` undoes the begun operations one after the other.  The target is
removed when it is still the published file, and the backup is linked back to
the source.  Whatever fails, no entry is lost; when nothing fails, the paths
that were not touched are as they were at the beginning.
-/

namespace MachineBridge.Files

open Foundation PatchState List

variable {Content Digest : Type}

variable {operations : List (PatchOperation Content Digest)}
  {before : Filesystem PatchName Content} {paths : List PatchPath}
  {record : CommitRecord Content Digest}
  {records : List (CommitRecord Content Digest)} {clean : Prop}
  {state next : PatchState Content Digest}

/-- The target of an operation is as it was at the beginning. -/
def Retracted (before : Filesystem PatchName Content)
    (record : CommitRecord Content Digest)
    (state : PatchState Content Digest) : Prop :=
  ∀ target, record.operation.target? = some target →
    record.operation.source? ≠ some target → ¬ state.Touched target →
    state.files.lookup (.path target) = before.lookup (.path target)

theorem Retracted.interfered {path : PatchPath} {put : Option Nat}
    (retracted : Retracted before record state)
    (interfered : Interfered state next path put) :
    Retracted before record next := by
  intro target found other untouched
  rw [interfered.lookup_of_untouched untouched]
  exact retracted target found other (interfered.untouched untouched).2

theorem Retracted.changes {names : PatchName → Prop} {written : Nat → Prop}
    (retracted : Retracted before record state)
    (changes : Changes names written state next) (foreign : ∀ target,
      record.operation.source? ≠ some target → ¬ names (.path target)) :
    Retracted before record next := by
  intro target found other untouched
  rw [changes.lookup_eq _ (foreign target other)]
  exact retracted target found other
    (mt (changes.touched_iff target).mpr untouched)

namespace Undoing

theorem listed
    (undoing : Undoing operations before (record :: records) clean state) :
    operations[record.index]? = some record.operation :=
  (undoing.begun record mem_cons_self).listed

theorem eq_of_index {other : CommitRecord Content Digest}
    (undoing : Undoing operations before records clean state)
    (member : record ∈ records) (also : other ∈ records)
    (same : other.index = record.index) : other = record :=
  inj_on_of_nodup_map undoing.distinct also member same

theorem absent
    (undoing : Undoing operations before (record :: records) clean state) :
    record.index ∉ records.map CommitRecord.index :=
  (nodup_cons.mp undoing.distinct).1

theorem drop {still : Prop}
    (undoing : Undoing operations before (record :: records) clean state)
    (implied : still → clean) (same : still →
      AsBefore before record.operation state ∧
      state.files.lookup (.backup record.index) = none) :
    Undoing operations before records still state where
  sound := undoing.sound
  begun := fun other member => undoing.begun other (mem_cons_of_mem _ member)
  distinct := (nodup_cons.mp undoing.distinct).2
  asBefore := by
    intro isClean index operation alsoListed absent
    by_cases own : index = record.index
    · rw [own, undoing.listed] at alsoListed
      cases alsoListed
      exact (same isClean).1
    · refine undoing.asBefore (implied isClean) index operation alsoListed ?_
      simpa [own] using absent
  cleared := by
    intro isClean index absent
    by_cases own : index = record.index
    · rw [own]
      exact (same isClean).2
    · refine undoing.cleared (implied isClean) index ?_
      simpa [own] using absent

theorem abandon
    (undoing : Undoing operations before (record :: records) clean state) :
    Undoing operations before records False state :=
  undoing.drop False.elim False.elim

end Undoing

/-- A record whose target has been tried. -/
structure Retreating (operations : List (PatchOperation Content Digest))
    (before : Filesystem PatchName Content)
    (record : CommitRecord Content Digest)
    (records : List (CommitRecord Content Digest)) (clean retracted : Prop)
    (state : PatchState Content Digest) : Prop where
  undoing : Undoing operations before (record :: records) clean state
  target : retracted → Retracted before record state

theorem Retreating.interfered {retracted : Prop} {path : PatchPath}
    {put : Option Nat} (retreating : Retreating operations before record
    records clean retracted state)
    (interfered : Interfered state next path put) : Retreating operations
    before record records clean retracted next where
  undoing := retreating.undoing.interfered interfered
  target := fun done => (retreating.target done).interfered interfered

section Distinct

variable (distinct : (patchPaths operations).Nodup)
include distinct

variable {files : Filesystem PatchName Content} {inode : Nat}
  {Failed : PatchFailure → PatchState Content Digest → Prop} {retracted : Prop}
  {source : PatchPath}

theorem Undoing.retract {target : PatchPath}
    (undoing : Undoing operations before (record :: records) clean state)
    (created : record.targetCreated = true)
    (isTarget : record.operation.target? = some target)
    (found : state.files.lookup (.path target) = some inode)
    (expected : record.targetIdentity = some (state.files.identity inode))
    (removed : state.files.remove (.path target) = .ok files) :
    Undoing operations before (record :: records) clean { state with files } ∧
      Retracted before record { state with files } := by
  have begun := undoing.begun record mem_cons_self
  have own : inode ∈ state.created := begun.identity _ expected
  have changes := changes_remove removed
  have wider : Changes (Own record.index record.operation) (fun _ => False)
      state { state with files } := by
    apply changes.mono
    rintro name rfl
    exact .inl ⟨target, by simp [isTarget], rfl⟩
  have sound : Sound operations before { state with files } := by
    apply undoing.sound.changes changes nofun
    intro path standingInode standing
    apply saved_remove removed
    · right
      rw [found]
      rintro same
      cases same
      exact (undoing.sound.toIntact.standing standing).2 own
    · intro index operation shape
      cases shape
  constructor
  · refine undoing.step distinct begun.listed wider sound
      (fun _ _ => Iff.rfl) undoing.distinct id ?_ ?_
    · intro other member same
      rw [undoing.eq_of_index mem_cons_self member same]
      refine begun.changes changes ?_ nofun
      intro _ _ _ missing
      rw [created] at missing
      cases missing
    · intro _ absent
      exact absurd (by simp) absent
  · intro path isPath other untouched
    rw [isTarget] at isPath
    cases isPath
    have earlier := begun.untouched target isTarget other
      (mt (changes.touched_iff target).mpr untouched)
    rw [if_pos created] at earlier
    have gone := (Filesystem.remove_eq_ok removed).2.2 (.path target)
    rw [if_pos rfl] at gone
    exact gone.trans earlier.symm

theorem rollbackTarget_ensures : Process.Ensures
    (Undoing operations before (record :: records) clean)
    (rollbackTarget paths record) (fun result => Retreating operations before
    record records clean (failureOf result = [])) Failed := by
  unfold rollbackTarget
  split
  case h_1 target created isTarget =>
    apply Process.ensures_attempt
    apply ensures_removeLinkedFileSnapshot
    · constructor
      · exact stable_of_interfered fun interfered undoing =>
          undoing.interfered interfered
      · intro state failure undoing
        exact ⟨undoing, nofun⟩
    · intro state undoing missing
      refine ⟨undoing, fun _ path isPath other untouched => ?_⟩
      rw [isTarget] at isPath
      cases isPath
      have earlier := (undoing.begun record mem_cons_self).untouched
        target isTarget other untouched
      rw [if_pos created] at earlier
      exact missing.trans earlier.symm
    · intro state inode files undoing found _ expected removed
      obtain ⟨after, retracted⟩ := undoing.retract distinct created isTarget
        found expected removed
      exact ⟨after, fun _ => retracted⟩
  case h_2 never =>
    intro state undoing
    refine ⟨undoing, fun _ target isTarget other untouched => ?_⟩
    have earlier := (undoing.begun record mem_cons_self).untouched target
      isTarget other untouched
    split at earlier
    case isTrue created => exact absurd isTarget (never target created)
    case isFalse => exact earlier

omit distinct in
theorem AsBefore.of_retracted (retracted : Retracted before record state)
    (source : ∀ path, record.operation.source? = some path →
      ¬ state.Touched path →
      state.files.lookup (.path path) = before.lookup (.path path)) :
    AsBefore before record.operation state := by
  intro path member untouched
  by_cases isSource : record.operation.source? = some path
  · exact source path isSource untouched
  · have isTarget := (PatchOperation.mem_paths.mp member).resolve_left isSource
    exact retracted path isTarget isSource untouched

/-- The backup has the source as its second name. -/
structure Relinked (operations : List (PatchOperation Content Digest))
    (before : Filesystem PatchName Content)
    (record : CommitRecord Content Digest)
    (records : List (CommitRecord Content Digest)) (clean retracted : Prop)
    (source : PatchPath) (inode : Nat)
    (state : PatchState Content Digest) : Prop where
  undoing : Undoing operations before (record :: records) clean state
  restored : retracted → AsBefore before record.operation state
  backup : state.files.lookup (.backup record.index) = some inode
  only : ∀ name, state.files.lookup name = some inode →
    name = .backup record.index ∨ name = .path source

omit distinct in
theorem Relinked.interfered {path : PatchPath} {put : Option Nat} (relinked :
    Relinked operations before record records clean retracted source inode
    state) (interfered : Interfered state next path put) : Relinked operations
    before record records clean retracted source inode next where
  undoing := relinked.undoing.interfered interfered
  restored := fun done => (relinked.restored done).interfered interfered
  backup := (interfered.lookup_backup record.index).trans relinked.backup
  only := fun name found =>
    relinked.only name (interfered.lookup_old relinked.backup found)

theorem Undoing.relink
    (undoing : Undoing operations before (record :: records) clean state)
    (done : retracted → Retracted before record state)
    (isSource : record.operation.source? = some source)
    (alone : Alone (.backup record.index) inode state)
    (linked : state.files.link (.backup record.index) (.path source) =
      .ok files) :
    Relinked operations before record records clean retracted source inode
      { state with files } := by
  have begun := undoing.begun record mem_cons_self
  have changes := changes_link linked
  have wider : Changes (Own record.index record.operation) (fun _ => False)
      state { state with files } := by
    apply changes.mono
    rintro name rfl
    exact .inl ⟨source, by simp [isSource], rfl⟩
  obtain ⟨linkedInode, found, -, -, -, lookups⟩ := Filesystem.link_eq_ok linked
  rw [alone.lookup_eq] at found
  cases found
  refine ⟨?_, fun isDone => ?_, ?_, fun name other => ?_⟩
  · refine undoing.step distinct begun.listed wider ?_ (fun _ _ => Iff.rfl)
      undoing.distinct id ?_ ?_
    · exact undoing.sound.changes changes nofun fun _ _ _ => saved_link linked
    · intro other member same
      rw [undoing.eq_of_index mem_cons_self member same]
      refine begun.changes changes ?_ nofun
      rintro target - different - shape
      rw [isSource, ← PatchName.path.inj shape] at different
      exact different rfl
    · intro _ absent
      exact absurd (by simp) absent
  · apply AsBefore.of_retracted
    · apply (done isDone).changes changes
      rintro target different shape
      rw [isSource, ← PatchName.path.inj shape] at different
      exact different rfl
    · intro path alsoSource untouched
      rw [isSource] at alsoSource
      cases alsoSource
      obtain ⟨original, was, backup⟩ := begun.backed source isSource
        (mt (changes.touched_iff source).mpr untouched)
      rw [alone.lookup_eq] at backup
      cases backup
      rw [was]
      exact (lookups (.path source)).trans (if_pos rfl)
  · rw [lookups, if_neg nofun]
    exact alone.lookup_eq
  · rw [lookups] at other
    split at other
    case isTrue same => exact .inr same
    case isFalse => exact .inl (alone.only name other)

theorem Relinked.release {stored : Nat}
    (relinked : Relinked operations before record records clean retracted
      source inode state) (isSource : record.operation.source? = some source)
    (found : state.files.lookup (.backup record.index) = some stored)
    (double : state.files.links stored = 2)
    (removed : state.files.remove (.backup record.index) = .ok files) :
    Undoing operations before records (clean ∧ retracted)
      { state with files } := by
  have undoing := relinked.undoing
  have begun := undoing.begun record mem_cons_self
  have changes := changes_remove removed
  have lookups := (Filesystem.remove_eq_ok removed).2.2
  rw [relinked.backup] at found
  cases found
  have restored := (Filesystem.both_names double relinked.only).2
  have wider : Changes (Own record.index record.operation) (fun _ => False)
      state { state with files } := by
    apply changes.mono
    rintro name rfl
    exact .inr rfl
  refine undoing.step distinct begun.listed wider ?_ ?_
    (nodup_cons.mp undoing.distinct).2 And.left ?_ ?_
  · apply undoing.sound.changes changes nofun
    intro path standing _
    apply saved_remove removed (.inl nofun)
    intro index operation shape listed alsoSource stored
    cases shape
    rw [begun.listed] at listed
    cases listed
    rw [isSource] at alsoSource
    cases alsoSource
    rw [relinked.backup] at stored
    cases stored
    rw [lookups, if_neg nofun]
    exact restored
  · intro other different
    constructor
    · exact mem_cons_of_mem record
    · intro member
      rcases mem_cons.mp member with same | inside
      · exact absurd (congrArg CommitRecord.index same) different
      · exact inside
  · intro other member same
    exact absurd (List.mem_map.mpr ⟨other, member, same⟩) undoing.absent
  · rintro ⟨-, isDone⟩ -
    constructor
    · exact (relinked.restored isDone).changes changes fun _ _ => nofun
    · exact (lookups (.backup record.index)).trans (if_pos rfl)

omit distinct in
theorem kept_relinked : Kept paths
    (fun _ => Undoing operations before records False)
    (Relinked operations before record records clean retracted source inode)
    where
  stable := stable_of_interfered fun interfered relinked =>
    relinked.interfered interfered
  failed := fun _ _ relinked => relinked.undoing.abandon

theorem restore_ensures {expected : Option FileIdentity}
    (isSource : record.operation.source? = some source) : Process.Ensures
    (Retreating operations before record records clean retracted)
    (restoreFileSnapshotNoReplace paths (.backup record.index) (.path source)
    expected) (fun _ => Undoing operations before records (clean ∧ retracted))
    (fun _ => Undoing operations before records False) := by
  have kept : Kept paths (fun _ => Undoing operations before records False)
      (Retreating operations before record records clean retracted) :=
    ⟨stable_of_interfered fun interfered retreating =>
      retreating.interfered interfered,
      fun _ _ retreating => retreating.undoing.abandon⟩
  have keptOpened : ∀ inode, Kept paths (fun _ => Undoing operations before
      records False) (fun state => Retreating operations before record records
      clean retracted state ∧ Alone (.backup record.index) inode state) := by
    intro inode
    constructor
    · apply stable_of_interfered
      rintro state next path put interfered ⟨retreating, alone⟩
      exact ⟨retreating.interfered interfered,
        alone.interfered interfered nofun⟩
    · exact fun _ _ holds => holds.1.undoing.abandon
  have keptPublished : ∀ inode, Kept paths
      (fun _ => Undoing operations before records False)
      (Relinked operations before record records clean retracted source
        inode) := fun inode => kept_relinked
  unfold restoreFileSnapshotNoReplace
  split
  case h_1 =>
    exact Process.ensures_fail fun state retreating =>
      retreating.undoing.abandon
  case h_2 identity =>
    have published : Process.Ensures (Retreating operations before record
        records clean retracted) (publishFileLinkWithIdentity paths (.backup
        record.index) (.path source) (pure ⟨⟩) (some identity)) (fun restored
        => Relinked operations before record records clean retracted source
        restored.inode) (fun _ => Undoing operations before records False) :=
        by
      refine ensures_publishFileLinkWithIdentity kept
        (fun _ _ retreating alone => ⟨retreating, alone⟩) keptOpened ?_
        (fun _ => Process.ensures_pure fun _ relinked => relinked)
        keptPublished fun _ _ relinked => relinked
      rintro inode state files ⟨retreating, alone⟩ linked
      exact retreating.undoing.relink distinct retreating.target isSource
        alone linked
    apply Process.ensures_bind published
    intro restored
    apply ensures_removeLinkedFileSnapshot kept_relinked
    · intro state relinked missing
      rw [relinked.backup] at missing
      cases missing
    · intro state inode files relinked found double _ removed
      exact relinked.release distinct isSource found double removed

theorem rollbackSource_ensures : Process.Ensures (Retreating operations before
    record records clean retracted) (rollbackSource paths record) (fun result
    state => Undoing operations before records (clean ∧ retracted ∧ failureOf
    result = []) state) Failed := by
  apply Process.ensures_of_fact fun state retreating =>
    (retreating.undoing.begun record mem_cons_self).backup_eq
  intro backup_eq
  unfold rollbackSource
  split
  case h_1 backup source isBackup isSource =>
    rw [isSource, isBackup] at backup_eq
    cases backup_eq
    apply Process.ensures_attempt
    apply (restore_ensures distinct isSource).weaken (fun _ => id)
    · intro _ state undoing
      simpa [failureOf] using undoing
    · intro failure state undoing
      simpa [failureOf] using undoing
  case h_2 never =>
    intro state retreating
    have bare : record.operation.source? = none := by
      cases isSource : record.operation.source? with
      | none => rfl
      | some source =>
        rw [isSource] at backup_eq
        exact absurd isSource (never _ source backup_eq)
    refine retreating.undoing.drop And.left fun ⟨_, done, _⟩ => ⟨?_, ?_⟩
    · apply AsBefore.of_retracted (retreating.target done)
      rw [bare]
      exact nofun
    · exact (retreating.undoing.begun record mem_cons_self).bare bare

theorem rollback_ensures (records : List (CommitRecord Content Digest))
    (clean : Prop) : Process.Ensures (Undoing operations before records clean)
    (rollback paths records)
    (fun failures => Undoing operations before [] (clean ∧ failures = []))
    Failed := by
  induction records generalizing clean with
  | nil =>
    apply Process.ensures_pure
    simpa using undoing
  | cons record records induction =>
    apply Process.ensures_bind (rollbackTarget_ensures distinct)
    intro target
    apply Process.ensures_bind (rollbackSource_ensures distinct)
    intro source
    apply Process.ensures_bind (induction _)
    intro failures
    apply Process.ensures_pure
    simpa [and_assoc] using undoing

end Distinct

end MachineBridge.Files
