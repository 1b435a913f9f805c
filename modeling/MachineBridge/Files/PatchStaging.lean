import MachineBridge.Files.PatchSteps

/-!
# Staging and verification

Before the first operation is committed the transaction only writes files of its
own.  When staging has succeeded, every operation with a content has a staged
file with that content.
-/

namespace MachineBridge.Files

open Foundation PatchState List

variable {Content Digest : Type}

variable {operations : List (PatchOperation Content Digest)}
  {before : Filesystem PatchName Content} {paths : List PatchPath}
  {state next : PatchState Content Digest}

/-- The operations that were begun can be undone. -/
def Recoverable (operations : List (PatchOperation Content Digest))
    (before : Filesystem PatchName Content)
    (state : PatchState Content Digest) : Prop :=
  Undoing operations before state.committed True state

variable {path : PatchPath} {put : Option Nat} {written : Nat → Prop}

theorem Recoverable.interfered
    (recoverable : Recoverable operations before state)
    (interfered : Interfered state next path put) :
    Recoverable operations before next := by
  unfold Recoverable
  rw [interfered.committed_eq]
  exact Undoing.interfered recoverable interfered

theorem kept_recoverable : Kept paths (fun _ => Recoverable operations before)
    (Recoverable operations before) where
  stable := stable_of_interfered fun interfered recoverable =>
    recoverable.interfered interfered
  failed := fun _ _ recoverable => recoverable

def StagedFile (operations : List (PatchOperation Content Digest))
    (index : Nat) (state : PatchState Content Digest) : Prop :=
  ∃ operation content inode, operations[index]? = some operation ∧
    operation.content? = some content ∧
    state.files.lookup (.staged index) = some inode ∧
    inode ∈ state.created ∧ state.files.kind inode = .regular content

theorem StagedFile.interfered {index : Nat}
    (staged : StagedFile operations index state)
    (interfered : Interfered state next path put) :
    StagedFile operations index next := by
  obtain ⟨operation, content, inode, listed, isContent, found, created,
    kind⟩ := staged
  refine ⟨operation, content, inode, listed, isContent, ?_, ?_, ?_⟩
  · rw [interfered.lookup_staged index]
    exact found
  · rw [interfered.created_eq]
    exact created
  · rw [interfered.kind_eq inode (Filesystem.lt_next found)]
    exact kind

theorem StagedFile.changes {names : PatchName → Prop} {index : Nat}
    (staged : StagedFile operations index state)
    (changes : Changes names written state next)
    (other : ¬ names (.staged index)) (unwritten : ∀ inode,
      state.files.lookup (.staged index) = some inode → ¬ written inode) :
    StagedFile operations index next := by
  obtain ⟨operation, content, inode, listed, isContent, found, created,
    kind⟩ := staged
  refine ⟨operation, content, inode, listed, isContent, ?_, ?_, ?_⟩
  · rw [changes.lookup_eq _ other]
    exact found
  · exact changes.created_subset inode created
  · rw [changes.kind_eq inode (Filesystem.lt_next found)
      (unwritten inode found)]
    exact kind

def Publishes (operation : PatchOperation Content Digest) : Prop :=
  operation.content?.isSome ∧ operation.target?.isSome

/-- No operation was begun, and all but the given ones are staged. -/
structure Staging (operations : List (PatchOperation Content Digest))
    (before : Filesystem PatchName Content)
    (items : List (NumberedOperation Content Digest))
    (state : PatchState Content Digest) : Prop where
  recoverable : Recoverable operations before state
  committed_eq : state.committed = []
  files : ∀ index ∈ state.staged, StagedFile operations index state
  complete : ∀ item ∈ operations.zipIdx, item ∉ items →
    Publishes item.1 → item.2 ∈ state.staged

variable {items : List (NumberedOperation Content Digest)}

theorem Staging.interfered (staging : Staging operations before items state)
    (interfered : Interfered state next path put) :
    Staging operations before items next where
  recoverable := staging.recoverable.interfered interfered
  committed_eq := interfered.committed_eq.trans staging.committed_eq
  files := by
    rw [interfered.staged_eq]
    exact fun index member => (staging.files index member).interfered
      interfered
  complete := by
    rw [interfered.staged_eq]
    exact staging.complete

theorem kept_staging : Kept paths (fun _ => Recoverable operations before)
    (Staging operations before items) where
  stable := stable_of_interfered fun interfered staging =>
    staging.interfered interfered
  failed := fun _ _ staging => staging.recoverable

theorem Staging.changes {names : PatchName → Prop}
    (staging : Staging operations before items state)
    (changes : Changes names written state next)
    (own : ∀ inode, written inode → inode ∈ state.created)
    (paths : ∀ path ∈ patchPaths operations, ¬ names (.path path))
    (kept : ∀ path inode, state.files.lookup (.path path) = some inode →
      next.files.lookup (.path path) = some inode)
    (backups : ∀ index, ¬ names (.backup index))
    (others : ∀ index ∈ state.staged, ¬ names (.staged index))
    (unwritten : ∀ index ∈ state.staged, ∀ inode,
      state.files.lookup (.staged index) = some inode → ¬ written inode)
    (committed_eq : next.committed = state.committed)
    (staged_eq : next.staged = state.staged) :
    Staging operations before items next where
  recoverable := by
    unfold Recoverable
    rw [committed_eq]
    exact Undoing.elsewhere staging.recoverable changes own paths kept backups
  committed_eq := committed_eq.trans staging.committed_eq
  files := by
    rw [staged_eq]
    exact fun index member => (staging.files index member).changes changes
      (others index member) (unwritten index member)
  complete := by
    rw [staged_eq]
    exact staging.complete

/-- The file of an operation is created but not yet listed. -/
structure Filling (operations : List (PatchOperation Content Digest))
    (before : Filesystem PatchName Content)
    (items : List (NumberedOperation Content Digest)) (index inode : Nat)
    (state : PatchState Content Digest) : Prop where
  staging : Staging operations before items state
  unlisted : index ∉ state.staged
  alone : Alone (.staged index) inode state
  created : inode ∈ state.created

variable {index inode : Nat}

theorem Filling.interfered
    (filling : Filling operations before items index inode state)
    (interfered : Interfered state next path put) :
    Filling operations before items index inode next where
  staging := filling.staging.interfered interfered
  unlisted := by
    rw [interfered.staged_eq]
    exact filling.unlisted
  alone := filling.alone.interfered interfered nofun
  created := by
    rw [interfered.created_eq]
    exact filling.created

theorem Filling.changes {files : Filesystem PatchName Content}
    (filling : Filling operations before items index inode state)
    (changes : Changes (fun _ => False) written state { state with files })
    (own : ∀ other, written other → other = inode) :
    Filling operations before items index inode { state with files } where
  staging := by
    apply filling.staging.changes changes
    · intro other isWritten
      rw [own other isWritten]
      exact filling.created
    · exact fun _ _ => id
    · intro path stored found
      rw [changes.lookup_eq _ id]
      exact found
    · exact fun _ => id
    · exact fun _ _ => id
    · intro other member stored found isWritten
      rw [own stored isWritten] at found
      have same := PatchName.staged.inj (filling.alone.only _ found)
      exact filling.unlisted (same ▸ member)
    · rfl
    · rfl
  __ := filling
  alone := by
    constructor
    · rw [changes.lookup_eq _ id]
      exact filling.alone.lookup_eq
    · intro other found
      rw [changes.lookup_eq _ id] at found
      exact filling.alone.only other found

structure Filled (operations : List (PatchOperation Content Digest))
    (before : Filesystem PatchName Content)
    (items : List (NumberedOperation Content Digest)) (index inode : Nat)
    (content : Content) (state : PatchState Content Digest) : Prop where
  filling : Filling operations before items index inode state
  kind_eq : state.files.kind inode = .regular content

theorem kept_filling : Kept paths (fun _ => Recoverable operations before)
    (Filling operations before items index inode) where
  stable := stable_of_interfered fun interfered filling =>
    filling.interfered interfered
  failed := fun _ _ filling => filling.staging.recoverable

theorem kept_filled {content : Content} : Kept paths
    (fun _ => Recoverable operations before)
    (Filled operations before items index inode content) where
  stable := by
    apply stable_of_interfered
    rintro state next path put interfered ⟨filling, kind_eq⟩
    refine ⟨filling.interfered interfered, ?_⟩
    rw [interfered.kind_eq inode (Filesystem.lt_next filling.alone.lookup_eq)]
    exact kind_eq
  failed := fun _ _ filled => filled.filling.staging.recoverable

section Writing

variable [Inhabited Content] {mode : Nat} {content : Content}
  {windows : Bool}

theorem openStaged_ensures : Process.Ensures (Staging operations before items)
    (openStaged paths (.staged index) mode)
    (fun inode => Filling operations before items index inode)
    (fun _ => Recoverable operations before) := by
  unfold openStaged systemCall
  refine Process.ensures_call kept_staging.stable (fun _ staging =>
    staging.recoverable) ?_ (fun _ _ staging _ => staging.recoverable)
  intro state value after staging outcome
  split at outcome
  case h_2 => cases outcome
  case h_1 files made =>
    cases outcome
    obtain ⟨-, -, absent, lookups⟩ := Filesystem.createNew_eq_ok made
    have unlisted : index ∉ state.staged := by
      intro member
      obtain ⟨_, _, inode, -, -, found, -⟩ := staging.files index member
      rw [absent] at found
      cases found
    refine ⟨?_, unlisted, ⟨?_, fun other found => ?_⟩, by simp⟩
    · apply staging.changes (changes_createNew made) nofun
      · exact fun _ _ => nofun
      · intro path inode found
        rw [lookups, if_neg nofun]
        exact found
      · exact fun _ => nofun
      · rintro other member shape
        exact unlisted (PatchName.staged.inj shape ▸ member)
      · exact fun _ _ _ _ => nofun
      · rfl
      · rfl
    · exact (lookups (.staged index)).trans (if_pos rfl)
    · rw [lookups] at found
      split at found
      case isTrue same => exact same
      case isFalse => exact absurd (Filesystem.lt_next found) (Nat.lt_irrefl _)

omit [Inhabited Content] in
theorem fillStaged_ensures : Process.Ensures
    (Filling operations before items index inode)
    (fillStaged paths windows inode content mode)
    (fun _ => Filled operations before items index inode content)
    (fun _ => Recoverable operations before) := by
  have written : Process.Ensures (Filling operations before items index inode)
      (mutate paths fun files => .ok (files.write inode content))
      (fun _ => Filled operations before items index inode content)
      (fun _ => Recoverable operations before) := by
    apply ensures_mutate kept_filling
    intro state files filling wrote
    cases wrote
    exact ⟨filling.changes (changes_write inode content) fun _ => id,
      Filesystem.kind_write_self state.files inode content⟩
  have changed : Process.Ensures
      (Filled operations before items index inode content)
      (mutate paths fun files => .ok (files.changeMode inode mode))
      (fun _ => Filled operations before items index inode content)
      (fun _ => Filled operations before items index inode content) := by
    apply ensures_mutate ⟨kept_filled.stable, fun _ _ => id⟩
    intro state files filled done
    cases done
    refine ⟨filled.filling.changes (changes_changeMode inode mode) nofun, ?_⟩
    exact (Filesystem.kind_changeMode state.files inode mode inode).trans
      filled.kind_eq
  have flushed : Process.Ensures
      (Filled operations before items index inode content) (mutate paths .ok)
      (fun _ => Filled operations before items index inode content)
      (fun _ => Recoverable operations before) := by
    apply ensures_mutate kept_filled
    intro state files filled done
    cases done
    exact filled
  apply Process.ensures_seq written
  intro _
  apply Process.ensures_seq (Process.ensures_attempt (changed.weaken
    (fun _ => id) (fun _ _ => id) (fun _ _ => id)))
  intro result
  cases result with
  | ok _ => exact flushed
  | error failure =>
    cases windows with
    | true => exact flushed
    | false =>
      apply Process.ensures_seq (Process.ensures_fail _)
      · exact fun _ => flushed
      · exact fun state filled => filled.filling.staging.recoverable

omit [Inhabited Content] in
theorem Undoing.remove_staged {records : List (CommitRecord Content Digest)}
    {clean : Prop} {files : Filesystem PatchName Content}
    (undoing : Undoing operations before records clean state)
    (removed : state.files.remove (.staged index) = .ok files) :
    Undoing operations before records clean { state with files } := by
  have lookups := (Filesystem.remove_eq_ok removed).2.2
  apply undoing.elsewhere (changes_remove removed) nofun
  · exact fun _ _ => nofun
  · intro path inode found
    exact (lookups (.path path)).trans found
  · exact fun _ => nofun

omit [Inhabited Content] in
theorem discard_ensures {α : Type} {failure : PatchFailure}
    {wrap : PatchFailure → PatchFailure}
    {After : α → PatchState Content Digest → Prop} :
    Process.Ensures (Recoverable operations before)
      (Process.attempt (mutate paths (·.remove (.staged index))) >>=
        fun removed => match removed with
          | .ok _ => Process.fail failure
          | .error cleanup => Process.fail (wrap cleanup))
      After (fun _ => Recoverable operations before) := by
  have removed : Process.Ensures (Recoverable operations before)
      (mutate paths (·.remove (.staged index)))
      (fun _ => Recoverable operations before)
      (fun _ => Recoverable operations before) := by
    apply ensures_mutate kept_recoverable
    exact fun state files recoverable removed =>
      Undoing.remove_staged recoverable removed
  apply Process.ensures_seq (Process.ensures_attempt (removed.weaken
    (fun _ => id) (fun _ _ => id) (fun _ _ => id)))
  intro result
  cases result with
  | ok _ | error cleanup => exact Process.ensures_fail fun _ => id

/-- The file is filled, or the operation can be given up. -/
def Tried (operations : List (PatchOperation Content Digest))
    (before : Filesystem PatchName Content)
    (items : List (NumberedOperation Content Digest)) (index inode : Nat)
    (content : Content) (result : Except PatchFailure PUnit)
    (state : PatchState Content Digest) : Prop :=
  match result with
  | .ok _ => Filled operations before items index inode content state
  | .error _ => Recoverable operations before state

omit [Inhabited Content] in
theorem kept_tried {result : Except PatchFailure PUnit} : Kept paths
    (fun _ => Tried operations before items index inode content result)
    (Tried operations before items index inode content result) where
  stable := by
    cases result with
    | ok _ => exact kept_filled.stable
    | error _ => exact kept_recoverable.stable
  failed := fun _ _ => id

omit [Inhabited Content] in
theorem Tried.recoverable {result : Except PatchFailure PUnit}
    (tried : Tried operations before items index inode content result state) :
    Recoverable operations before state := by
  cases result with
  | ok _ => exact Filled.filling tried |>.staging.recoverable
  | error _ => exact tried

theorem writeFlushedText_ensures : Process.Ensures
    (Staging operations before items)
    (writeFlushedText paths windows (.staged index) content mode)
    (fun _ state => ∃ inode,
      Filled operations before items index inode content state)
    (fun _ => Recoverable operations before) := by
  apply Process.ensures_bind openStaged_ensures
  intro inode
  have written : Process.Ensures (Filling operations before items index inode)
      (Process.attempt (fillStaged paths windows inode content mode))
      (Tried operations before items index inode content)
      (fun _ => Recoverable operations before) :=
    Process.ensures_attempt (fillStaged_ensures.weaken (fun _ => id)
      (fun _ _ => id) (fun _ _ => id))
  apply Process.ensures_bind written
  intro result
  have closed : Process.Ensures
      (Tried operations before items index inode content result)
      (mutate paths .ok)
      (fun _ => Tried operations before items index inode content result)
      (fun _ => Tried operations before items index inode content result) := by
    apply ensures_mutate kept_tried
    intro state files tried done
    cases done
    exact tried
  apply Process.ensures_seq (Process.ensures_attempt (closed.weaken
    (fun _ => id) (fun _ _ => id) (fun _ _ => id)))
  intro closing
  cases result with
  | ok _ =>
    cases closing with
    | ok _ => exact Process.ensures_pure fun _ filled => ⟨inode, filled⟩
    | error failure =>
      exact discard_ensures.weaken (fun _ => Tried.recoverable)
        (fun _ _ => id) (fun _ _ => id)
  | error failure =>
    cases closing with
    | ok _ | error other =>
      exact discard_ensures.weaken (fun _ => Tried.recoverable)
        (fun _ _ => id) (fun _ _ => id)

omit [Inhabited Content] in
theorem makeDirectories_ensures {directories : List PatchPath}
    (away : ∀ directory ∈ directories, directory ∉ patchPaths operations) :
    Process.Ensures (Staging operations before items) (Process.forEach (fun
    directory => mutate paths (·.makeDirectory (.path directory))) directories)
    (fun _ => Staging operations before items)
    (fun _ => Recoverable operations before) := by
  apply Process.ensures_forEach_same
  intro directory member
  apply ensures_mutate kept_staging
  intro state files staging made
  apply staging.changes (changes_makeDirectory made) nofun
  · rintro path isPath shape
    exact away directory member (PatchName.path.inj shape ▸ isPath)
  · exact fun path => (Filesystem.makeDirectory_eq_ok made).2.2.2 (.path path)
  · exact fun _ => nofun
  · exact fun _ _ => nofun
  · exact fun _ _ _ _ => nofun
  · rfl
  · rfl

variable {item : NumberedOperation Content Digest}

omit [Inhabited Content] in
theorem Filled.list (filled : Filled operations before (item :: items) item.2
      inode content state)
    (listed : operations[item.2]? = some item.1)
    (isContent : item.1.content? = some content) :
    Staging operations before items
      { state with staged := state.staged ++ [item.2] } where
  recoverable := Undoing.congr filled.filling.staging.recoverable rfl rfl rfl
  committed_eq := filled.filling.staging.committed_eq
  files := by
    intro index member
    rcases mem_append.mp member with old | new
    · apply (filled.filling.staging.files index old).changes
        (Changes.refl rfl rfl rfl)
      · exact id
      · exact fun _ _ => id
    · rw [mem_singleton.mp new]
      exact ⟨item.1, content, inode, listed, isContent,
        filled.filling.alone.lookup_eq, filled.filling.created, filled.kind_eq⟩
  complete := by
    intro other member absent publishes
    by_cases same : other = item
    · rw [same]
      exact mem_append_right _ (mem_singleton.mpr rfl)
    · apply mem_append_left
      apply filled.filling.staging.complete other member _ publishes
      simpa [same] using absent

/-- No path of the operations lies above another one. -/
def Apart (operations : List (PatchOperation Content Digest)) : Prop :=
  ∀ path ∈ patchPaths operations, ∀ other ∈ patchPaths operations,
    other ∉ directories path

theorem stageOperation_ensures (apart : Apart operations)
    (listed : operations[item.2]? = some item.1) : Process.Ensures
    (Staging operations before (item :: items))
    (stageOperation paths windows item)
    (fun _ => Staging operations before items)
    (fun _ => Recoverable operations before) := by
  unfold stageOperation
  split
  case h_1 content target isContent isTarget =>
    have isPath : target ∈ patchPaths operations :=
      mem_patchPaths listed (by simp [isTarget])
    apply Process.ensures_seq (makeDirectories_ensures
      fun directory member other => apart target isPath directory other member)
    intro _
    apply Process.ensures_seq writeFlushedText_ensures
    intro _
    rintro state ⟨inode, filled⟩
    exact filled.list listed isContent
  case h_2 never =>
    intro state staging
    refine { staging with complete := fun other member absent publishes => ?_ }
    by_cases same : other = item
    · obtain ⟨isContent, isTarget⟩ := publishes
      obtain ⟨content, isContent⟩ := Option.isSome_iff_exists.mp isContent
      obtain ⟨target, isTarget⟩ := Option.isSome_iff_exists.mp isTarget
      rw [same] at isContent isTarget
      exact absurd isTarget (never content target isContent)
    · apply staging.complete other member _ publishes
      simpa [same] using absent

omit [Inhabited Content] in
theorem verifyOperation_ensures [DecidableEq Digest]
    (sha256 : Content → Digest) : Process.Ensures
    (Staging operations before items) (verifyOperation sha256 paths item)
    (fun _ => Staging operations before items)
    (fun _ => Recoverable operations before) := by
  have observed : ∀ {α : Type}
      (operation : Filesystem PatchName Content → Except PatchFailure α),
      Process.Ensures (Staging operations before items)
        (observe paths operation)
        (fun _ => Staging operations before items)
        (fun _ => Recoverable operations before) := fun operation =>
    ensures_observe kept_staging fun _ _ staging _ => staging
  have passed : ∀ {failure : PatchFailure} (condition : Prop)
      [Decidable condition], Process.Ensures (Staging operations before items)
      (if condition then pure ⟨⟩ else Process.fail failure : PatchProcess
      Content Digest PUnit) (fun _ => Staging operations before items)
      (fun _ => Recoverable operations before) := by
    intro failure condition _
    split
    case isTrue => exact Process.ensures_pure fun _ => id
    case isFalse =>
      exact Process.ensures_fail fun _ staging => staging.recoverable
  apply Process.ensures_seq
  · unfold verifySource
    split
    case h_1 => exact Process.ensures_pure fun _ => id
    case h_2 source _ =>
      apply Process.ensures_seq (observed _)
      intro current
      exact passed _
  · intro _
    unfold verifyTarget
    split
    case h_1 => exact Process.ensures_pure fun _ => id
    case h_2 target _ =>
      split
      case isFalse => exact Process.ensures_pure fun _ => id
      case isTrue =>
        apply Process.ensures_seq (observed _)
        intro found
        split
        case isTrue =>
          exact Process.ensures_fail fun _ staging => staging.recoverable
        case isFalse => exact Process.ensures_pure fun _ => id

end Writing

end MachineBridge.Files
