import MachineBridge.Files.PatchStaging

/-!
# Committing the operations

The commit takes the operations in order.  Throughout, the ones that were begun
can be undone; the ones that are done have their content at their target, no
file at a source they moved away from, and a backup with the expected content.
-/

namespace MachineBridge.Files

open Foundation PatchState List

variable {Content Digest : Type}

variable {operations : List (PatchOperation Content Digest)}
  {before : Filesystem PatchName Content} {paths : List PatchPath}
  {state next : PatchState Content Digest}
  {item : NumberedOperation Content Digest}
  {items rest : List (NumberedOperation Content Digest)}

variable {sha256 : Content → Digest}

/-- What was moved aside has the expected content. -/
def Verified (sha256 : Content → Digest)
    (operation : PatchOperation Content Digest) (index : Nat)
    (state : PatchState Content Digest) : Prop :=
  ∀ source inode, operation.source? = some source →
    state.files.lookup (.backup index) = some inode →
    ∃ content, state.files.kind inode = .regular content ∧
      some (sha256 content) = operation.originalHash?

/-- The effect of an operation, as far as the other process did not touch its
paths. -/
structure Applied (operation : PatchOperation Content Digest) (index : Nat)
    (state : PatchState Content Digest) : Prop where
  published : Publishes operation → ∃ record ∈ state.committed,
    record.index = index ∧ record.targetCreated = true
  content : ∀ content target, operation.content? = some content →
    operation.target? = some target → ¬ state.Touched target →
    ∃ inode, state.files.lookup (.path target) = some inode ∧
      state.files.kind inode = .regular content
  vacated : ∀ source, operation.source? = some source →
    operation.target? ≠ some source → ¬ state.Touched source →
    state.files.lookup (.path source) = none

structure Committed (sha256 : Content → Digest)
    (operation : PatchOperation Content Digest) (index : Nat)
    (state : PatchState Content Digest) : Prop
    extends Applied operation index state where
  verified : Verified sha256 operation index state

section Stability

variable {operation : PatchOperation Content Digest} {index : Nat}
  {path : PatchPath} {put : Option Nat} {names : PatchName → Prop}

theorem Verified.interfered (verified : Verified sha256 operation index state)
    (interfered : Interfered state next path put) :
    Verified sha256 operation index next := by
  intro source inode isSource found
  rw [interfered.lookup_backup index] at found
  rw [interfered.kind_eq inode (Filesystem.lt_next found)]
  exact verified source inode isSource found

theorem Verified.changes (verified : Verified sha256 operation index state)
    (changes : Changes names (fun _ => False) state next)
    (backup : ¬ names (.backup index)) :
    Verified sha256 operation index next := by
  intro source inode isSource found
  rw [changes.lookup_eq _ backup] at found
  rw [changes.kind_eq inode (Filesystem.lt_next found) id]
  exact verified source inode isSource found

theorem Applied.interfered (applied : Applied operation index state)
    (interfered : Interfered state next path put) :
    Applied operation index next where
  published := by
    rw [interfered.committed_eq]
    exact applied.published
  content := by
    intro content target isContent isTarget untouched
    obtain ⟨inode, found, kind⟩ := applied.content content target isContent
      isTarget (interfered.untouched untouched).2
    refine ⟨inode, ?_, ?_⟩
    · rw [interfered.lookup_of_untouched untouched]
      exact found
    · rw [interfered.kind_eq inode (Filesystem.lt_next found)]
      exact kind
  vacated := by
    intro source isSource other untouched
    rw [interfered.lookup_of_untouched untouched]
    exact applied.vacated source isSource other
      (interfered.untouched untouched).2

theorem Applied.changes (applied : Applied operation index state)
    (changes : Changes names (fun _ => False) state next)
    (paths : ∀ path ∈ operation.paths, ¬ names (.path path))
    (records : ∀ record ∈ state.committed, record.index = index →
      record.targetCreated = true → ∃ other ∈ next.committed,
      other.index = index ∧ other.targetCreated = true) :
    Applied operation index next where
  published := by
    intro publishes
    obtain ⟨record, member, same, created⟩ := applied.published publishes
    exact records record member same created
  content := by
    intro content target isContent isTarget untouched
    obtain ⟨inode, found, kind⟩ := applied.content content target isContent
      isTarget (mt (changes.touched_iff target).mpr untouched)
    refine ⟨inode, ?_, ?_⟩
    · rw [changes.lookup_eq _ (paths target (by simp [isTarget]))]
      exact found
    · rw [changes.kind_eq inode (Filesystem.lt_next found) id]
      exact kind
  vacated := by
    intro source isSource other untouched
    rw [changes.lookup_eq _ (paths source (by simp [isSource]))]
    exact applied.vacated source isSource other
      (mt (changes.touched_iff source).mpr untouched)

theorem Committed.interfered
    (committed : Committed sha256 operation index state)
    (interfered : Interfered state next path put) :
    Committed sha256 operation index next where
  toApplied := committed.toApplied.interfered interfered
  verified := committed.verified.interfered interfered

theorem Committed.changes (committed : Committed sha256 operation index state)
    (changes : Changes names (fun _ => False) state next)
    (paths : ∀ path ∈ operation.paths, ¬ names (.path path))
    (backup : ¬ names (.backup index)) (records : ∀ record ∈ state.committed,
      record.index = index → record.targetCreated = true →
      ∃ other ∈ next.committed, other.index = index ∧
      other.targetCreated = true) : Committed sha256 operation index next where
  toApplied := committed.toApplied.changes changes paths records
  verified := committed.verified.changes changes backup

end Stability

/-- The given items are not begun yet; all but the first list are done. -/
structure Committing (sha256 : Content → Digest)
    (operations : List (PatchOperation Content Digest))
    (before : Filesystem PatchName Content)
    (undone items : List (NumberedOperation Content Digest))
    (state : PatchState Content Digest) : Prop where
  recoverable : Recoverable operations before state
  files : ∀ index ∈ state.staged, StagedFile operations index state
  complete : ∀ item ∈ operations.zipIdx, Publishes item.1 →
    item.2 ∈ state.staged
  fresh : ∀ item ∈ items, item.2 ∉ state.committed.map CommitRecord.index
  done : ∀ item ∈ operations.zipIdx, item ∉ undone →
    Committed sha256 item.1 item.2 state

theorem Committing.interfered
    {undone : List (NumberedOperation Content Digest)} {path : PatchPath}
    {put : Option Nat}
    (committing : Committing sha256 operations before undone items state)
    (interfered : Interfered state next path put) :
    Committing sha256 operations before undone items next where
  recoverable := committing.recoverable.interfered interfered
  files := by
    rw [interfered.staged_eq]
    exact fun index member => (committing.files index member).interfered
      interfered
  complete := by
    rw [interfered.staged_eq]
    exact committing.complete
  fresh := by
    rw [interfered.committed_eq]
    exact committing.fresh
  done := fun other member isDone =>
    (committing.done other member isDone).interfered interfered

section Distinct

variable (distinct : (patchPaths operations).Nodup)
include distinct

theorem Committing.own (committing : Committing sha256 operations before (item
    :: rest) items state) (listed : operations[item.2]? = some item.1)
    (changes : Changes (Own item.2 item.1) (fun _ => False) state next)
    (recoverable : Recoverable operations before next)
    (staged_eq : next.staged = state.staged) (records : ∀ record, record.index
    ≠ item.2 → (record ∈ next.committed ↔ record ∈ state.committed))
    (others : ∀ other ∈ items, other.2 ≠ item.2) : Committing sha256 operations
    before (item :: rest) items next where
  recoverable := recoverable
  files := by
    rw [staged_eq]
    intro index member
    apply (committing.files index member).changes changes
    · rintro (⟨_, -, shape⟩ | shape)
      · cases shape
      · cases shape
    · exact fun _ _ => id
  complete := by
    rw [staged_eq]
    exact committing.complete
  fresh := fun other member =>
    absent_of_rest (fun record different => (records record different).symm)
      (others other member) (committing.fresh other member)
  done := by
    intro other member isDone
    have alsoListed : operations[other.2]? = some other.1 :=
      mem_zipIdx_iff_getElem?.mp member
    have different : other.2 ≠ item.2 := by
      intro same
      rw [same, listed] at alsoListed
      have equal : other = item :=
        Prod.ext (Option.some.inj alsoListed).symm same
      exact isDone (equal ▸ mem_cons_self)
    apply (committing.done other member isDone).changes changes
    · exact fun path isPath own =>
        paths_disjoint distinct alsoListed listed different isPath own.path
    · exact fun own => different own.backup
    · intro record inside same created
      exact ⟨record, (records record (same ▸ different)).mpr inside, same,
        created⟩

end Distinct

theorem Committing.finish (committing : Committing sha256 operations before
    (item :: rest) items state) (committed : Committed sha256 item.1 item.2
    state) : Committing sha256 operations before rest items state :=
  { committing with
    done := by
      intro other member isDone
      by_cases same : other = item
      · rw [same]
        exact committed
      · exact committing.done other member (by simp [same, isDone]) }

/-- An operation with a record whose source was moved aside. -/
structure Opened (sha256 : Content → Digest)
    (operations : List (PatchOperation Content Digest))
    (before : Filesystem PatchName Content)
    (item : NumberedOperation Content Digest)
    (items : List (NumberedOperation Content Digest))
    (state : PatchState Content Digest) : Prop where
  committing : Committing sha256 operations before (item :: items) items state
  begun : item.2 ∈ state.committed.map CommitRecord.index
  vacant : ∀ source, item.1.source? = some source → ¬ state.Touched source →
    state.files.lookup (.path source) = none

theorem Opened.interfered {path : PatchPath} {put : Option Nat}
    (opened : Opened sha256 operations before item items state)
    (interfered : Interfered state next path put) :
    Opened sha256 operations before item items next where
  committing := opened.committing.interfered interfered
  begun := by
    rw [interfered.committed_eq]
    exact opened.begun
  vacant := by
    intro source isSource untouched
    rw [interfered.lookup_of_untouched untouched]
    exact opened.vacant source isSource (interfered.untouched untouched).2

theorem kept_opened : Kept paths (fun _ => Recoverable operations before)
    (Opened sha256 operations before item items) where
  stable := stable_of_interfered fun interfered opened =>
    opened.interfered interfered
  failed := fun _ _ opened => opened.committing.recoverable

section Begin

variable (distinct : (patchPaths operations).Nodup)
  (listed : operations[item.2]? = some item.1)
  (others : ∀ other ∈ items, other.2 ≠ item.2)
include distinct listed others

omit others in
theorem Undoing.begin {records : List (CommitRecord Content Digest)}
    (undoing : Undoing operations before records True state)
    (absent : item.2 ∉ records.map CommitRecord.index)
    (changes : Changes (Own item.2 item.1) (fun _ => False) state next)
    (sound : Sound operations before next) (backed : ∀ source,
      item.1.source? = some source → ∃ inode,
      state.files.lookup (.path source) = some inode ∧
      next.files.lookup (.backup item.2) = some inode)
    (bare : item.1.source? = none → next.files.lookup (.backup item.2) = none)
    (targets : ∀ target, item.1.source? ≠ some target →
      next.files.lookup (.path target) = state.files.lookup (.path target)) :
    Undoing operations before (records ++ [commitRecord item]) True next := by
  have same : AsBefore before item.1 state :=
    undoing.asBefore trivial item.2 item.1 listed absent
  have begun : Begun operations before (commitRecord item) next := by
    refine ⟨listed, rfl, ?_, bare, ?_, nofun⟩
    · intro source isSource untouched
      obtain ⟨inode, found, backup⟩ := backed source isSource
      refine ⟨inode, ?_, backup⟩
      rw [← found]
      exact (same source (PatchOperation.mem_paths.mpr (.inl isSource))
        (mt (changes.touched_iff source).mpr untouched)).symm
    · intro target isTarget other untouched
      rw [if_neg (by simp [commitRecord]), targets target other]
      exact same target (PatchOperation.mem_paths.mpr (.inr isTarget))
        (mt (changes.touched_iff target).mpr untouched)
  refine undoing.step distinct listed changes sound ?_ ?_ id ?_ ?_
  · intro record different
    rw [mem_append, mem_singleton]
    constructor
    · rintro (old | rfl)
      · exact old
      · exact absurd rfl different
    · exact .inl
  · rw [map_append, nodup_append]
    refine ⟨undoing.distinct, nodup_singleton _, ?_⟩
    rintro index member other isNew rfl
    rw [map_singleton, mem_singleton] at isNew
    rw [isNew] at member
    exact absent member
  · intro record member own
    rcases mem_append.mp member with old | new
    · exact absurd (List.mem_map.mpr ⟨record, old, own⟩) absent
    · rw [mem_singleton.mp new]
      exact begun
  · intro _ missing
    exact absurd (by simp [commitRecord]) missing

theorem Committing.begin (committing : Committing sha256 operations before
    (item :: items) (item :: items) state) (changes : Changes (Own item.2
    item.1) (fun _ => False) state next) (sound : Sound operations before next)
    (backed : ∀ source, item.1.source? = some source → ∃ inode,
    state.files.lookup (.path source) = some inode ∧ next.files.lookup (.backup
    item.2) = some inode) (bare : item.1.source? = none → next.files.lookup
    (.backup item.2) = none) (targets : ∀ target, item.1.source? ≠ some target
    → next.files.lookup (.path target) = state.files.lookup (.path target))
    (vacant : ∀ source, item.1.source? = some source → next.files.lookup (.path
    source) = none) (committed_eq : next.committed = state.committed ++
    [commitRecord item]) (staged_eq : next.staged = state.staged) : Opened
    sha256 operations before item items next where
  committing := by
    have left :
        Committing sha256 operations before (item :: items) items state :=
      { committing with
        fresh := fun other member =>
          committing.fresh other (mem_cons_of_mem item member) }
    refine left.own distinct listed changes ?_ staged_eq ?_ others
    · unfold Recoverable
      rw [committed_eq]
      exact Undoing.begin distinct listed committing.recoverable
        (committing.fresh item mem_cons_self) changes sound backed bare targets
    · intro record different
      rw [committed_eq, mem_append, mem_singleton]
      constructor
      · rintro (old | rfl)
        · exact old
        · exact absurd rfl different
      · exact .inl
  begun := by
    rw [committed_eq]
    simp [commitRecord]
  vacant := fun source isSource _ => vacant source isSource

theorem moveAside_ensures :
    Process.Ensures
      (Committing sha256 operations before (item :: items) (item :: items))
      (moveAside paths item)
      (fun _ state => Opened sha256 operations before item items
        { state with committed := state.committed ++ [commitRecord item] })
      (fun _ => Recoverable operations before) := by
  have kept : Kept paths (fun _ => Recoverable operations before)
      (Committing sha256 operations before (item :: items) (item :: items)) :=
    ⟨stable_of_interfered fun interfered committing =>
      committing.interfered interfered,
      fun _ _ committing => committing.recoverable⟩
  unfold moveAside
  split
  case h_1 bare =>
    apply Process.ensures_pure
    intro state committing
    have undoing := committing.recoverable
    have absent := committing.fresh item mem_cons_self
    have unchanged : Changes (fun _ => False) (fun _ => False) state
        { state with committed := state.committed ++ [commitRecord item] } :=
      Changes.refl rfl rfl rfl
    have same : Undoing operations before state.committed True
        { state with committed := state.committed ++ [commitRecord item] } :=
      Undoing.congr undoing rfl rfl rfl
    refine committing.begin distinct listed others
      (unchanged.mono fun _ => False.elim) same.sound ?_ ?_ ?_ ?_ rfl rfl
    · rw [bare]
      exact nofun
    · exact fun _ => undoing.cleared trivial item.2 absent
    · exact fun _ _ => rfl
    · rw [bare]
      exact nofun
  case h_2 source isSource =>
    apply ensures_mutate kept
    intro state files committing renamed
    have undoing := committing.recoverable
    have absent := committing.fresh item mem_cons_self
    have free := undoing.cleared trivial item.2 absent
    obtain ⟨inode, found, -, -, lookups⟩ := Filesystem.rename_eq_ok renamed
    have moved : Changes (Own item.2 item.1) (fun _ => False) state
        { state with files } := by
      apply (changes_rename renamed).mono
      rintro name (rfl | rfl)
      · exact .inl ⟨source, by simp [isSource], rfl⟩
      · exact .inr rfl
    have changes : Changes (Own item.2 item.1) (fun _ => False) state
        { state with
          files
          committed := state.committed ++ [commitRecord item] } :=
      moved.congr rfl rfl rfl
    refine committing.begin distinct listed others changes ?_ ?_ ?_ ?_ ?_ rfl
      rfl
    · apply undoing.sound.changes changes nofun
      exact fun _ _ _ => saved_rename listed isSource free renamed
    · intro other alsoSource
      rw [isSource] at alsoSource
      cases alsoSource
      exact ⟨inode, found, (lookups (.backup item.2)).trans (if_pos rfl)⟩
    · rw [isSource]
      exact nofun
    · intro target different
      rw [isSource] at different
      have other : PatchName.path target ≠ .path source := by
        rintro shape
        exact different (congrArg some (PatchName.path.inj shape).symm)
      exact (lookups (.path target)).trans
        ((if_neg nofun).trans (if_neg other))
    · intro other alsoSource
      rw [isSource] at alsoSource
      cases alsoSource
      exact (lookups (.path source)).trans ((if_neg nofun).trans (if_pos rfl))

omit distinct listed others in
theorem present_updateRecord {index other : Nat}
    {change : CommitRecord Content Digest → CommitRecord Content Digest}
    (index_eq : ∀ record, (change record).index = record.index)
    (present : other ∈ state.committed.map CommitRecord.index) : other ∈
    (state.updateRecord index change).committed.map CommitRecord.index := by
  dsimp only [updateRecord]
  rw [map_index_updated index_eq]
  exact present

theorem Committing.update (change : CommitRecord Content Digest → CommitRecord
    Content Digest) (committing : Committing sha256 operations before (item ::
    rest) items state) (present : item.2 ∈ state.committed.map
    CommitRecord.index) (changes : Changes (Own item.2 item.1) (fun _ => False)
    state next) (sound : Sound operations before next) (index_eq : ∀ record,
    (change record).index = record.index) (mine : ∀ record ∈ state.committed,
    record.index = item.2 → Begun operations before (change record) next)
    (committed_eq : next.committed = (state.updateRecord item.2
    change).committed) (staged_eq : next.staged = state.staged) : Committing
    sha256 operations before (item :: rest) items next := by
  refine committing.own distinct listed changes ?_ staged_eq ?_ others
  · unfold Recoverable
    rw [committed_eq]
    exact Undoing.update distinct committing.recoverable listed present
      changes sound index_eq mine
  · intro record different
    rw [committed_eq]
    exact mem_updated index_eq different

theorem Committing.note {change : CommitRecord Content Digest → CommitRecord
    Content Digest} (committing : Committing sha256 operations before (item ::
    rest) items state) (present : item.2 ∈ state.committed.map
    CommitRecord.index) (index_eq : ∀ record, (change record).index =
    record.index) (mine : ∀ record, record.index = item.2 → Begun operations
    before record state → Begun operations before (change record) state) :
    Committing sha256 operations before (item :: rest) items
    (state.updateRecord item.2 change) := by
  have undoing := committing.recoverable
  have unchanged : Changes (fun _ => False) (fun _ => False) state
      (state.updateRecord item.2 change) := Changes.refl rfl rfl rfl
  have same : Undoing operations before state.committed True
      (state.updateRecord item.2 change) := Undoing.congr undoing rfl rfl rfl
  refine committing.update distinct listed others change present
    (unchanged.mono fun _ => False.elim) same.sound index_eq ?_ rfl rfl
  intro record member own
  exact (mine record own (undoing.begun record member)).changes unchanged
    (fun _ _ _ _ => id) id

omit distinct listed others in
theorem readText_eq_ok {name : PatchName}
    {files : Filesystem PatchName Content} {content : Content}
    (read : readText name files = .ok content) : ∃ inode,
    files.lookup name = some inode ∧ files.kind inode = .regular content := by
  unfold readText at read
  split at read
  · cases read
  case h_2 inode found =>
    split at read
    case h_1 stored kind =>
      split at read
      · cases read
      · cases read
        exact ⟨inode, found, kind⟩
    case h_2 => cases read

theorem verifyBackup_ensures [DecidableEq Digest] : Process.Ensures
    (Opened sha256 operations before item items)
    (verifyBackup sha256 paths item)
    (fun _ state => Opened sha256 operations before item items state ∧
      Verified sha256 item.1 item.2 state)
    (fun _ => Recoverable operations before) := by
  unfold verifyBackup
  split
  case h_1 bare =>
    intro state opened
    refine ⟨opened, fun source inode isSource => ?_⟩
    rw [bare] at isSource
    cases isSource
  case h_2 source isSource =>
    apply Process.ensures_seq (ensures_observe kept_opened
      fun _ _ opened _ => opened)
    intro identity
    have noted : Process.Ensures (Opened sha256 operations before item items)
        (Process.modify (·.updateRecord item.2 fun record =>
          { record with backupIdentity := some identity }) :
          PatchProcess Content Digest PUnit)
        (fun _ => Opened sha256 operations before item items)
        (fun _ => Recoverable operations before) := by
      intro state opened
      refine ⟨?_, ?_, opened.vacant⟩
      · refine opened.committing.note distinct listed others opened.begun
          (fun _ => rfl) ?_
        intro record _ begun
        exact ⟨begun.listed, begun.backup_eq, begun.backed, begun.bare,
          begun.untouched, begun.identity⟩
      · exact present_updateRecord (fun _ => rfl) opened.begun
    apply Process.ensures_seq noted
    intro _
    have read : Process.Ensures (Opened sha256 operations before item items)
        (observe paths (readText (.backup item.2)))
        (fun content state => Opened sha256 operations before item items state ∧
          ∃ inode, state.files.lookup (.backup item.2) = some inode ∧
          state.files.kind inode = .regular content)
        (fun _ => Recoverable operations before) := by
      apply ensures_observe kept_opened
      exact fun state content opened read => ⟨opened, readText_eq_ok read⟩
    apply Process.ensures_bind read
    intro content
    unfold checkHash
    split
    case isTrue expected =>
      rintro state ⟨opened, inode, found, kind⟩
      refine ⟨opened, fun _ other _ backup => ⟨content, ?_, expected⟩⟩
      rw [found] at backup
      cases backup
      exact kind
    case isFalse =>
      exact Process.ensures_fail fun state holds =>
        holds.1.committing.recoverable

/-- The staged file is linked to the target, and the record says so. -/
structure Published (sha256 : Content → Digest)
    (operations : List (PatchOperation Content Digest))
    (before : Filesystem PatchName Content)
    (item : NumberedOperation Content Digest)
    (items : List (NumberedOperation Content Digest)) (inode : Nat)
    (state : PatchState Content Digest) : Prop where
  committing : Committing sha256 operations before (item :: items) items state
  begun : item.2 ∈ state.committed.map CommitRecord.index
  committed : Committed sha256 item.1 item.2 state
  created : inode ∈ state.created

variable {inode : Nat} {target : PatchPath}

omit distinct listed others in
theorem Published.interfered {path : PatchPath} {put : Option Nat}
    (published : Published sha256 operations before item items inode state)
    (interfered : Interfered state next path put) :
    Published sha256 operations before item items inode next where
  committing := published.committing.interfered interfered
  begun := by
    rw [interfered.committed_eq]
    exact published.begun
  committed := published.committed.interfered interfered
  created := by
    rw [interfered.created_eq]
    exact published.created

omit distinct listed others in
theorem kept_published : Kept paths (fun _ => Recoverable operations before)
    (Published sha256 operations before item items inode) where
  stable := stable_of_interfered fun interfered published =>
    published.interfered interfered
  failed := fun _ _ published => published.committing.recoverable

/-- An operation whose backup was checked and whose file is staged. -/
structure Publishing (sha256 : Content → Digest)
    (operations : List (PatchOperation Content Digest))
    (before : Filesystem PatchName Content)
    (item : NumberedOperation Content Digest)
    (items : List (NumberedOperation Content Digest))
    (state : PatchState Content Digest) : Prop where
  opened : Opened sha256 operations before item items state
  verified : Verified sha256 item.1 item.2 state
  staged : item.2 ∈ state.staged

omit distinct listed others in
theorem kept_publishing : Kept paths (fun _ => Recoverable operations before)
    (Publishing sha256 operations before item items) where
  stable := by
    apply stable_of_interfered
    rintro state next path put interfered ⟨opened, verified, staged⟩
    refine ⟨opened.interfered interfered, verified.interfered interfered, ?_⟩
    rw [interfered.staged_eq]
    exact staged
  failed := fun _ _ publishing => publishing.opened.committing.recoverable

omit distinct listed others in
theorem Begun.link {record : CommitRecord Content Digest}
    (begun : Begun operations before record state)
    (isTarget : record.operation.target? = some target)
    (free : state.files.lookup (.path target) = none)
    (changes : Changes (· = .path target) (fun _ => False) state next) :
    Begun operations before { record with targetCreated := true } next where
  __ := begun
  backed := by
    intro source isSource untouched
    have kept := changes.lookup_eq (.backup record.index) nofun
    obtain ⟨inode, original, backup⟩ := begun.backed source isSource
      (mt (changes.touched_iff source).mpr untouched)
    exact ⟨inode, original, kept.trans backup⟩
  bare := by
    intro bare
    have kept := changes.lookup_eq (.backup record.index) nofun
    exact kept.trans (begun.bare bare)
  untouched := by
    intro other found different untouched
    have earlier := begun.untouched other found different
      (mt (changes.touched_iff other).mpr untouched)
    split at earlier
    case isTrue => exact earlier
    case isFalse =>
      rw [isTarget] at found
      cases found
      exact earlier.symm.trans free
  identity := fun identity found =>
    changes.created_subset _ (begun.identity identity found)

theorem Publishing.link {files : Filesystem PatchName Content}
    (publishing : Publishing sha256 operations before item items state)
    (isTarget : item.1.target? = some target)
    (found : state.files.lookup (.staged item.2) = some inode)
    (linked : state.files.link (.staged item.2) (.path target) = .ok files) :
    Published sha256 operations before item items inode
      ({ state with files }.updateRecord item.2 fun record =>
        { record with targetCreated := true }) := by
  obtain ⟨opened, verified, staged⟩ := publishing
  have committing := opened.committing
  have undoing := committing.recoverable
  obtain ⟨operation, content, stored, alsoListed, isContent, alsoFound,
    created, kind⟩ := committing.files item.2 staged
  rw [listed] at alsoListed
  cases alsoListed
  rw [found] at alsoFound
  cases alsoFound
  obtain ⟨linkedInode, isLinked, free, -, kinds, lookups⟩ :=
    Filesystem.link_eq_ok linked
  rw [found] at isLinked
  cases isLinked
  have changes : Changes (· = .path target) (fun _ => False) state
      ({ state with files }.updateRecord item.2 fun record =>
        { record with targetCreated := true }) :=
    (changes_link linked).congr rfl rfl rfl
  have wider : Changes (Own item.2 item.1) (fun _ => False) state
      ({ state with files }.updateRecord item.2 fun record =>
        { record with targetCreated := true }) := by
    apply changes.mono
    rintro name rfl
    exact .inl ⟨target, by simp [isTarget], rfl⟩
  have sound : Sound operations before
      ({ state with files }.updateRecord item.2 fun record =>
        { record with targetCreated := true }) := by
    apply undoing.sound.changes changes nofun
    exact fun _ _ _ => saved_link linked
  have mine : ∀ record ∈ state.committed, record.index = item.2 →
      Begun operations before { record with targetCreated := true }
        ({ state with files }.updateRecord item.2 fun record =>
          { record with targetCreated := true }) := by
    intro record member own
    have begun := undoing.begun record member
    have same : record.operation = item.1 := by
      have alsoListed := begun.listed
      rw [own, listed] at alsoListed
      exact (Option.some.inj alsoListed).symm
    exact begun.link (same ▸ isTarget) free changes
  refine ⟨?_, present_updateRecord (fun _ => rfl) opened.begun,
    ⟨⟨fun _ => ?_, ?_, ?_⟩, verified.changes changes nofun⟩, created⟩
  · exact committing.update distinct listed others
      (fun record => { record with targetCreated := true }) opened.begun wider
      sound (fun _ => rfl) mine rfl rfl
  · obtain ⟨record, member, same⟩ := List.mem_map.mp opened.begun
    exact ⟨{ record with targetCreated := true },
      List.mem_map.mpr ⟨record, member, if_pos same⟩, same, rfl⟩
  · intro other path alsoContent alsoTarget _
    rw [isContent] at alsoContent
    cases alsoContent
    rw [isTarget] at alsoTarget
    cases alsoTarget
    exact ⟨inode, (lookups (.path target)).trans (if_pos rfl),
      (kinds inode).trans kind⟩
  · intro source isSource different untouched
    have other : PatchName.path source ≠ .path target := by
      rintro shape
      rw [isTarget, PatchName.path.inj shape] at different
      exact different rfl
    rw [changes.lookup_eq _ other]
    exact opened.vacant source isSource untouched

theorem Published.note {identity : FileIdentity}
    (published : Published sha256 operations before item items identity.inode
      state) :
    Committing sha256 operations before items items
      (state.updateRecord item.2 fun record =>
        { record with targetIdentity := some identity }) := by
  have unchanged : Changes (fun _ => False) (fun _ => False) state
      (state.updateRecord item.2 fun record =>
        { record with targetIdentity := some identity }) :=
    Changes.refl rfl rfl rfl
  apply Committing.finish
  · refine published.committing.note distinct listed others published.begun
      (fun _ => rfl) ?_
    intro record _ begun
    refine { begun with identity := ?_ }
    intro other same
    cases same
    exact published.created
  · apply published.committed.changes unchanged
    · exact fun _ _ => id
    · exact id
    · intro record member same created
      exact ⟨{ record with targetIdentity := some identity },
        List.mem_map.mpr ⟨record, member, if_pos same⟩, same, created⟩

theorem publishStaged_ensures (isTarget : item.1.target? = some target) :
    Process.Ensures (Publishing sha256 operations before item items)
    (publishStaged paths item target)
    (fun _ => Committing sha256 operations before items items)
    (fun _ => Recoverable operations before) := by
  have keptOpened : ∀ inode, Kept paths
      (fun _ => Recoverable operations before)
      (fun state => Publishing sha256 operations before item items state ∧
        state.files.lookup (.staged item.2) = some inode) := by
    intro inode
    constructor
    · apply (kept_publishing.stable).and
      apply stable_of_interfered
      intro state next path put interfered found
      exact (interfered.lookup_staged item.2).trans found
    · exact fun _ _ holds => holds.1.opened.committing.recoverable
  have keptPublished : ∀ inode, Kept paths
      (fun _ => Recoverable operations before)
      (Published sha256 operations before item items inode) :=
    fun inode => kept_published
  have linked : Process.Ensures
      (Publishing sha256 operations before item items)
      (publishFileLinkWithIdentity paths (.staged item.2) (.path target)
        (Process.modify (·.updateRecord item.2 fun record =>
          { record with targetCreated := true })) none)
      (fun identity => Published sha256 operations before item items
        identity.inode)
      (fun _ => Recoverable operations before) := by
    refine ensures_publishFileLinkWithIdentity kept_publishing
      (fun _ _ publishing alone => ⟨publishing, alone.lookup_eq⟩) keptOpened
      ?_ (fun inode => Process.ensures_modify fun _ published => published)
      keptPublished fun _ _ published => published
    rintro inode state files ⟨publishing, found⟩ linked
    exact publishing.link distinct listed others isTarget found linked
  have attempted : Process.Ensures
      (Publishing sha256 operations before item items)
      (Process.attempt (publishFileLinkWithIdentity paths (.staged item.2)
        (.path target) (Process.modify (·.updateRecord item.2 fun record =>
          { record with targetCreated := true })) none))
      (fun result state => match result with
        | .ok identity => Published sha256 operations before item items
            identity.inode state
        | .error _ => Recoverable operations before state)
      (fun _ => Recoverable operations before) :=
    Process.ensures_attempt linked
  apply Process.ensures_bind attempted
  intro result
  cases result with
  | ok identity =>
    exact Process.ensures_modify fun state published =>
      published.note distinct listed others
  | error failure =>
    dsimp only
    split
    · rename_i same
      cases same
    · exact Process.ensures_fail fun _ => id
    · exact Process.ensures_fail fun _ => id

omit distinct listed others in
theorem Opened.committed
    (opened : Opened sha256 operations before item items state)
    (verified : Verified sha256 item.1 item.2 state)
    (never : ¬ Publishes item.1) : Committed sha256 item.1 item.2 state where
  published := fun publishes => absurd publishes never
  content := by
    intro content target isContent isTarget _
    exact absurd ⟨by simp [isContent], by simp [isTarget]⟩ never
  vacated := fun source isSource _ => opened.vacant source isSource
  verified := verified

theorem publishTarget_ensures : Process.Ensures
    (fun state => Opened sha256 operations before item items state ∧
      Verified sha256 item.1 item.2 state) (publishTarget paths item)
    (fun _ => Committing sha256 operations before items items)
    (fun _ => Recoverable operations before) := by
  have inspected : Process.Ensures (fun state : PatchState Content Digest =>
      Opened sha256 operations before item items state ∧ Verified sha256 item.1
      item.2 state) (Process.inspect (·.staged.contains item.2) : PatchProcess
      Content Digest Bool) (fun staged state => (Opened sha256 operations
      before item items state ∧ Verified sha256 item.1 item.2 state) ∧ (staged
      = true ↔ item.2 ∈ state.staged)) (fun _ => Recoverable operations before)
      :=
    Process.ensures_inspect fun state holds => ⟨holds, by simp⟩
  apply Process.ensures_bind inspected
  intro staged
  split
  case h_1 target isTarget =>
    apply (publishStaged_ensures distinct listed others isTarget).weaken
    · rintro state ⟨⟨opened, verified⟩, contained⟩
      exact ⟨opened, verified, contained.mp rfl⟩
    · exact fun _ _ => id
    · exact fun _ _ => id
  case h_2 never =>
    rintro state ⟨⟨opened, verified⟩, contained⟩
    apply opened.committing.finish
    apply opened.committed verified
    intro publishes
    have member := opened.committing.complete item
      (mem_zipIdx_iff_getElem?.mpr listed) publishes
    obtain ⟨target, isTarget⟩ := Option.isSome_iff_exists.mp publishes.2
    exact never target (contained.mpr member) isTarget

theorem commitOperation_ensures [DecidableEq Digest] : Process.Ensures
    (Committing sha256 operations before (item :: items) (item :: items))
    (commitOperation sha256 paths item)
    (fun _ => Committing sha256 operations before items items)
    (fun _ => Recoverable operations before) := by
  have recorded : Process.Ensures
      (fun state => Opened sha256 operations before item items
        { state with committed := state.committed ++ [commitRecord item] })
      (Process.modify fun state =>
        { state with committed := state.committed ++ [commitRecord item] } :
          PatchProcess Content Digest PUnit)
      (fun _ => Opened sha256 operations before item items)
      (fun _ => Recoverable operations before) :=
    Process.ensures_modify fun _ opened => opened
  apply Process.ensures_seq (moveAside_ensures distinct listed others)
  intro _
  apply Process.ensures_seq recorded
  intro _
  apply Process.ensures_seq (verifyBackup_ensures distinct listed others)
  intro _
  exact publishTarget_ensures distinct listed others

end Begin

/-- The loop of the commit: all but the given items are done. -/
def Progress (sha256 : Content → Digest)
    (operations : List (PatchOperation Content Digest))
    (before : Filesystem PatchName Content)
    (items : List (NumberedOperation Content Digest))
    (state : PatchState Content Digest) : Prop :=
  Committing sha256 operations before items items state

theorem Staging.progress (staging : Staging operations before [] state) :
    Progress sha256 operations before operations.zipIdx state where
  __ := staging
  complete := fun other member => staging.complete other member nofun
  fresh := by
    rw [staging.committed_eq]
    exact fun _ _ => nofun
  done := fun _ member absent => absurd member absent

theorem applyOperations_ensures [Inhabited Content] [DecidableEq Digest]
    {windows : Bool} (distinct : (patchPaths operations).Nodup)
    (apart : Apart operations) : Process.Ensures
    (Staging operations before operations.zipIdx)
    (applyOperations sha256 paths windows operations.zipIdx)
    (fun _ => Progress sha256 operations before [])
    (fun _ => Recoverable operations before) := by
  apply Process.ensures_seq (Process.ensures_forEach ?_)
  rotate_left
  · intro item rest suffix
    have listed : operations[item.2]? = some item.1 :=
      mem_zipIdx_iff_getElem?.mp (suffix.subset mem_cons_self)
    exact stageOperation_ensures apart listed
  intro _
  apply Process.ensures_seq (Process.ensures_forEach_same
    fun item _ => verifyOperation_ensures sha256)
  intro _
  have committed : Process.Ensures
      (Progress sha256 operations before operations.zipIdx)
      (Process.forEach (commitOperation sha256 paths) operations.zipIdx)
      (fun _ => Progress sha256 operations before [])
      (fun _ => Recoverable operations before) := by
    apply Process.ensures_forEach
    intro item rest suffix
    have listed : operations[item.2]? = some item.1 :=
      mem_zipIdx_iff_getElem?.mp (suffix.subset mem_cons_self)
    have others : ∀ other ∈ rest, other.2 ≠ item.2 := by
      have numbers : ((item :: rest).map Prod.snd).Nodup := by
        apply (suffix.map Prod.snd).sublist.nodup
        rw [zipIdx_map_snd]
        exact nodup_range' 1
      intro other member same
      exact (nodup_cons.mp numbers).1
        (List.mem_map.mpr ⟨other, member, same⟩)
    exact commitOperation_ensures distinct listed others
  exact committed.weaken (fun _ staging => staging.progress)
    (fun _ _ => id) (fun _ _ => id)

end MachineBridge.Files
