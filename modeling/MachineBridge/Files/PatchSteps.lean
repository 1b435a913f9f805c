import MachineBridge.Files.PatchInvariant

/-!
# The steps of a patch transaction

A step of the transaction changes the entries of a few names.  What it keeps
follows from which names these are: the paths and the backup of one operation,
or names that are neither.
-/

namespace MachineBridge.Files

open Foundation PatchState List

variable {Content Digest : Type}
  {operations : List (PatchOperation Content Digest)}
  {before : Filesystem PatchName Content}

section Steps

variable {index inode : Nat} {operation : PatchOperation Content Digest}
  {clean : Prop} {records : List (CommitRecord Content Digest)}
  {change : CommitRecord Content Digest → CommitRecord Content Digest}
  {source target name : PatchName}

theorem mem_patchPaths {operations : List (PatchOperation Content Digest)}
    {path : PatchPath} (listed : operations[index]? = some operation)
    (member : path ∈ operation.paths) : path ∈ patchPaths operations :=
  mem_flatMap.mpr ⟨operation, mem_of_getElem? listed, member⟩

variable {state next : PatchState Content Digest}

/-- A step of the transaction that changes the entries of some names and the
contents of some inodes it created. -/
structure Changes (names : PatchName → Prop) (written : Nat → Prop)
    (state next : PatchState Content Digest) : Prop where
  lookup_eq : ∀ name, ¬ names name →
    next.files.lookup name = state.files.lookup name
  next_le : state.files.next ≤ next.files.next
  kind_eq : ∀ inode, inode < state.files.next → ¬ written inode →
    next.files.kind inode = state.files.kind inode
  disturbances_eq : next.disturbances = state.disturbances
  created_subset : ∀ inode ∈ state.created, inode ∈ next.created
  created_new : ∀ inode ∈ next.created, inode ∈ state.created ∨
    state.files.next ≤ inode ∧ inode < next.files.next

variable {names : PatchName → Prop} {written : Nat → Prop}

section

variable (changes : Changes names written state next)
include changes

theorem Changes.touched_iff
    (path : PatchPath) : next.Touched path ↔ state.Touched path := by
  unfold Touched
  rw [changes.disturbances_eq]

theorem Changes.put_iff (path : PatchPath) (inode : Nat) :
    next.Put path inode ↔ state.Put path inode := by
  unfold Put
  rw [changes.disturbances_eq]

end

theorem Intact.changes (intact : Intact before state)
    (changes : Changes names written state next)
    (own : ∀ inode, written inode → inode ∈ state.created) :
    Intact before next where
  next_le := Nat.le_trans intact.next_le changes.next_le
  kind_eq := by
    intro inode old
    have foreign : ¬ written inode := fun isWritten =>
      absurd (intact.created inode (own inode isWritten)).1
        (Nat.not_le.mpr old)
    rw [changes.kind_eq inode (Nat.lt_of_lt_of_le old intact.next_le) foreign]
    exact intact.kind_eq inode old
  created := by
    intro inode member
    rcases changes.created_new inode member with old | ⟨least, most⟩
    · obtain ⟨least, most⟩ := intact.created inode old
      exact ⟨least, Nat.lt_of_lt_of_le most changes.next_le⟩
    · exact ⟨Nat.le_trans intact.next_le least, most⟩
  put := by
    rw [changes.disturbances_eq]
    intro disturbance member inode placed
    obtain ⟨⟨least, most, foreign⟩, kind⟩ :=
      intact.put disturbance member inode placed
    refine ⟨⟨least, Nat.lt_of_lt_of_le most changes.next_le,
      fun created => ?_⟩, ?_⟩
    · rcases changes.created_new inode created with old | ⟨new, -⟩
      · exact foreign old
      · omega
    · rw [changes.kind_eq inode most (mt (own inode) foreign)]
      exact kind

theorem Sound.changes (sound : Sound operations before state)
    (changes : Changes names written state next)
    (own : ∀ inode, written inode → inode ∈ state.created)
    (kept : ∀ path inode, Standing operations before state path inode →
      Saved operations state path inode → Saved operations next path inode) :
    Sound operations before next where
  toIntact := sound.toIntact.changes changes own
  saved := by
    intro path inode standing
    have earlier : Standing operations before state path inode :=
      standing.imp_right (changes.put_iff path inode).mp
    exact kept path inode earlier (sound.saved path inode earlier)

theorem Intact.standing (intact : Intact before state) {path : PatchPath}
    (standing : Standing operations before state path inode) :
    inode < state.files.next ∧ inode ∉ state.created := by
  rcases standing with ⟨-, original⟩ | ⟨disturbance, member, -, placed⟩
  · have old := Filesystem.lt_next original
    refine ⟨Nat.lt_of_lt_of_le old intact.next_le, fun member => ?_⟩
    exact absurd old (Nat.not_lt.mpr (intact.created inode member).1)
  · exact (intact.put disturbance member inode placed).1.2

theorem Changes.saved (changes : Changes names written state next)
    {path : PatchPath}
    (path_kept : state.files.lookup (.path path) = some inode →
      next.files.lookup (.path path) = some inode) (backup_kept : ∀ index,
      state.files.lookup (.backup index) = some inode →
      next.files.lookup (.backup index) = some inode)
    (saved : Saved operations state path inode) :
    Saved operations next path inode := by
  rcases saved with here | displaced | ⟨index, operation, listed, source, backup⟩
  · exact .inl (path_kept here)
  · right
    left
    unfold Displaced
    rw [changes.disturbances_eq]
    exact displaced
  · exact .inr (.inr ⟨index, operation, listed, source,
      backup_kept index backup⟩)

theorem Begun.changes {record : CommitRecord Content Digest}
    (begun : Begun operations before record state)
    (changes : Changes names written state next) (target : ∀ target,
      record.operation.target? = some target →
      record.operation.source? ≠ some target → record.targetCreated = false →
      ¬ names (.path target)) (backup : ¬ names (.backup record.index)) :
    Begun operations before record next where
  __ := begun
  backed := by
    intro source found untouched
    rw [changes.lookup_eq _ backup]
    exact begun.backed source found
      (mt (changes.touched_iff source).mpr untouched)
  bare := by
    rw [changes.lookup_eq _ backup]
    exact begun.bare
  untouched := by
    intro path found other untouched
    have earlier := begun.untouched path found other
      (mt (changes.touched_iff path).mpr untouched)
    split
    case isTrue created => rwa [if_pos created] at earlier
    case isFalse absent =>
      rw [if_neg absent] at earlier
      rw [changes.lookup_eq _ (target path found other (by simpa using absent))]
      exact earlier
  identity := fun identity found =>
    changes.created_subset _ (begun.identity identity found)

theorem AsBefore.changes (same : AsBefore before operation state)
    (changes : Changes names written state next)
    (paths : ∀ path ∈ operation.paths, ¬ names (.path path)) :
    AsBefore before operation next := by
  intro path member untouched
  rw [changes.lookup_eq _ (paths path member)]
  exact same path member (mt (changes.touched_iff path).mpr untouched)

theorem Changes.mono {wider : PatchName → Prop}
    (changes : Changes names written state next)
    (covers : ∀ name, names name → wider name) :
    Changes wider written state next :=
  { changes with
    lookup_eq := fun name other =>
      changes.lookup_eq name fun inside => other (covers name inside) }

theorem Changes.congr {other : PatchState Content Digest}
    (changes : Changes names written state next)
    (files_eq : other.files = next.files)
    (disturbances_eq : other.disturbances = next.disturbances)
    (created_eq : other.created = next.created) :
    Changes names written state other where
  lookup_eq := by
    rw [files_eq]
    exact changes.lookup_eq
  next_le := by
    rw [files_eq]
    exact changes.next_le
  kind_eq := by
    rw [files_eq]
    exact changes.kind_eq
  disturbances_eq := disturbances_eq.trans changes.disturbances_eq
  created_subset := by
    rw [created_eq]
    exact changes.created_subset
  created_new := by
    rw [created_eq, files_eq]
    exact changes.created_new

theorem Changes.refl (files_eq : next.files = state.files)
    (disturbances_eq : next.disturbances = state.disturbances)
    (created_eq : next.created = state.created) :
    Changes (fun _ => False) (fun _ => False) state next where
  lookup_eq := by simp [files_eq]
  next_le := Nat.le_of_eq (congrArg Filesystem.next files_eq.symm)
  kind_eq := by simp [files_eq]
  disturbances_eq := disturbances_eq
  created_subset := by simp [created_eq]
  created_new := by
    rw [created_eq]
    exact fun inode member => .inl member

section

variable (undoing : Undoing operations before records clean state)
include undoing

theorem Undoing.elsewhere (changes : Changes names written state next)
    (own : ∀ inode, written inode → inode ∈ state.created)
    (paths : ∀ path ∈ patchPaths operations, ¬ names (.path path))
    (kept : ∀ path inode, state.files.lookup (.path path) = some inode →
      next.files.lookup (.path path) = some inode)
    (backups : ∀ index, ¬ names (.backup index)) :
    Undoing operations before records clean next where
  sound := by
    apply undoing.sound.changes changes own
    intro path inode _
    apply changes.saved (kept path inode)
    intro index found
    rw [changes.lookup_eq _ (backups index)]
    exact found
  begun := by
    intro record member
    have begun := undoing.begun record member
    refine begun.changes changes ?_ (backups record.index)
    intro target found _ _
    exact paths target (mem_patchPaths begun.listed (by simp [found]))
  distinct := undoing.distinct
  asBefore := by
    intro isClean index operation listed absent
    apply (undoing.asBefore isClean index operation listed absent).changes
      changes
    exact fun path member => paths path (mem_patchPaths listed member)
  cleared := by
    intro isClean index absent
    rw [changes.lookup_eq _ (backups index)]
    exact undoing.cleared isClean index absent

theorem Undoing.congr (files_eq : next.files = state.files)
    (disturbances_eq : next.disturbances = state.disturbances)
    (created_eq : next.created = state.created) :
    Undoing operations before records clean next := by
  apply undoing.elsewhere (Changes.refl files_eq disturbances_eq created_eq)
    nofun
  · exact fun _ _ => id
  · intro path inode found
    rw [files_eq]
    exact found
  · exact fun _ => id

end

/-- The paths and the backup of an operation. -/
def Own (index : Nat) (operation : PatchOperation Content Digest)
    (name : PatchName) : Prop :=
  (∃ path ∈ operation.paths, name = .path path) ∨ name = .backup index

theorem Own.path {path : PatchPath} (own : Own index operation (.path path)) :
    path ∈ operation.paths := by
  obtain ⟨other, member, shape⟩ | shape := own
  · rw [PatchName.path.inj shape]
    exact member
  · cases shape

theorem Own.backup {other : Nat} (own : Own index operation (.backup other)) :
    other = index := by
  obtain ⟨path, -, shape⟩ | shape := own
  · cases shape
  · exact PatchName.backup.inj shape

theorem absent_of_rest {others : List (CommitRecord Content Digest)}
    {other : Nat} (rest : ∀ record, record.index ≠ index →
      (record ∈ others ↔ record ∈ records)) (different : other ≠ index)
    (absent : other ∉ others.map CommitRecord.index) :
    other ∉ records.map CommitRecord.index := by
  intro present
  obtain ⟨record, member, same⟩ := List.mem_map.mp present
  have foreign : record.index ≠ index := same ▸ different
  exact absent (List.mem_map.mpr ⟨record, (rest record foreign).mpr member,
    same⟩)

section Distinct

variable (distinct : (patchPaths operations).Nodup)
include distinct

theorem paths_disjoint {first second : Nat}
    {one other : PatchOperation Content Digest}
    (listed : operations[first]? = some one)
    (alsoListed : operations[second]? = some other)
    (different : first ≠ second) {path : PatchPath}
    (member : path ∈ one.paths) : path ∉ other.paths := by
  have pairwise := (nodup_flatMap.mp distinct).2
  obtain ⟨lower, oneEq⟩ := List.getElem?_eq_some_iff.mp listed
  obtain ⟨upper, otherEq⟩ := List.getElem?_eq_some_iff.mp alsoListed
  subst oneEq otherEq
  rcases Nat.lt_or_gt_of_ne different with before | after
  · exact pairwise_iff_getElem.mp pairwise first second lower upper before
      member
  · exact fun also => pairwise_iff_getElem.mp pairwise second first upper
      lower after also member

/-- A step of one operation keeps what the others have.  The record of that
operation may come, change or go. -/
theorem Undoing.step {records others : List (CommitRecord Content Digest)}
    {clean still : Prop} {index : Nat}
    {operation : PatchOperation Content Digest}
    (undoing : Undoing operations before records clean state)
    (listed : operations[index]? = some operation)
    (changes : Changes (Own index operation) written state next)
    (sound : Sound operations before next) (rest : ∀ record,
      record.index ≠ index → (record ∈ others ↔ record ∈ records))
    (nodup : (others.map CommitRecord.index).Nodup) (implied : still → clean)
    (mine : ∀ record ∈ others, record.index = index →
      Begun operations before record next) (same : still →
      index ∉ others.map CommitRecord.index → AsBefore before operation next ∧
      next.files.lookup (.backup index) = none) :
    Undoing operations before others still next where
  sound := sound
  begun := by
    intro record member
    by_cases own : record.index = index
    · exact mine record member own
    · have begun := undoing.begun record ((rest record own).mp member)
      refine begun.changes changes ?_ ?_
      · intro path found _ _ inside
        have isPath : path ∈ record.operation.paths := by simp [found]
        exact paths_disjoint distinct begun.listed listed own isPath
          inside.path
      · exact fun inside => own inside.backup
  distinct := nodup
  asBefore := by
    intro isClean other another alsoListed absent
    by_cases own : other = index
    · rw [own] at absent alsoListed
      rw [listed] at alsoListed
      cases alsoListed
      exact (same isClean absent).1
    · have earlier : other ∉ records.map CommitRecord.index :=
        absent_of_rest rest own absent
      refine (undoing.asBefore (implied isClean) other another alsoListed
        earlier).changes changes ?_
      exact fun path isPath inside =>
        paths_disjoint distinct alsoListed listed own isPath inside.path
  cleared := by
    intro isClean other absent
    by_cases own : other = index
    · rw [own] at absent ⊢
      exact (same isClean absent).2
    · rw [changes.lookup_eq (.backup other)]
      · exact undoing.cleared (implied isClean) other
          (absent_of_rest rest own absent)
      · exact fun inside => own inside.backup

end Distinct

section

variable (index_eq : ∀ record, (change record).index = record.index)
include index_eq

theorem mem_updated
    {record : CommitRecord Content Digest} (other : record.index ≠ index) :
    (record ∈ records.map fun record => if record.index = index then change
    record else record) ↔ record ∈ records := by
  rw [List.mem_map]
  constructor
  · rintro ⟨earlier, member, same⟩
    split at same
    case isTrue own =>
      rw [← same, index_eq] at other
      exact absurd own other
    case isFalse => exact same ▸ member
  · exact fun member => ⟨record, member, if_neg other⟩

theorem map_index_updated : (records.map
    fun record => if record.index = index then change record else record).map
    CommitRecord.index = records.map CommitRecord.index := by
  rw [map_map]
  apply map_congr_left
  intro record _
  dsimp only [Function.comp]
  split
  · exact index_eq record
  · rfl

end

theorem Undoing.update (distinct : (patchPaths operations).Nodup)
    (undoing : Undoing operations before records clean state)
    (listed : operations[index]? = some operation) (present : index ∈
    records.map CommitRecord.index) (changes : Changes (Own index operation)
    written state next) (sound : Sound operations before next)
    (index_eq : ∀ record, (change record).index = record.index) (mine : ∀
    record ∈ records, record.index = index → Begun operations before (change
    record) next) : Undoing operations before (records.map fun record => if
    record.index = index then change record else record) clean next := by
  refine undoing.step distinct listed changes sound
    (fun record => mem_updated index_eq) ?_ id ?_ ?_
  · rw [map_index_updated index_eq]
    exact undoing.distinct
  · intro record member own
    obtain ⟨earlier, isEarlier, same⟩ := List.mem_map.mp member
    split at same
    case isTrue alsoOwn =>
      rw [← same]
      exact mine earlier isEarlier alsoOwn
    case isFalse foreign => exact absurd (same ▸ own) foreign
  · intro _ absent
    rw [map_index_updated index_eq] at absent
    exact absurd present absent

variable {files : Filesystem PatchName Content}

theorem changes_link (linked : state.files.link source target = .ok files) :
    Changes (· = target) (fun _ => False) state { state with files } := by
  obtain ⟨inode, -, -, nextEq, kinds, lookups⟩ := Filesystem.link_eq_ok linked
  exact ⟨fun name other => by rw [lookups, if_neg other],
    Nat.le_of_eq nextEq.symm, fun inode _ _ => kinds inode, rfl,
    fun _ member => member, fun _ member => .inl member⟩

theorem changes_rename (renamed : state.files.rename source target = .ok files) :
    Changes (fun name => name = source ∨ name = target) (fun _ => False)
      state { state with files } := by
  obtain ⟨inode, -, nextEq, kinds, lookups⟩ := Filesystem.rename_eq_ok renamed
  refine ⟨fun name other => ?_, Nat.le_of_eq nextEq.symm, fun inode _ _ =>
    kinds inode, rfl, fun _ member => member, fun _ member => .inl member⟩
  rw [not_or] at other
  rw [lookups, if_neg other.2, if_neg other.1]

theorem changes_remove (removed : state.files.remove name = .ok files) :
    Changes (· = name) (fun _ => False) state { state with files } := by
  obtain ⟨nextEq, kinds, lookups⟩ := Filesystem.remove_eq_ok removed
  exact ⟨fun other different => by rw [lookups, if_neg different],
    Nat.le_of_eq nextEq.symm, fun inode _ _ => kinds inode, rfl,
    fun _ member => member, fun _ member => .inl member⟩

theorem changes_makeDirectory
    (made : state.files.makeDirectory name = .ok files) :
    Changes (· = name) (fun _ => False) state { state with files } := by
  obtain ⟨next_le, kinds, lookups, -⟩ := Filesystem.makeDirectory_eq_ok made
  exact ⟨lookups, next_le, fun inode old _ => kinds inode old, rfl,
    fun _ member => member, fun _ member => .inl member⟩

theorem changes_createNew {empty : Content} {mode : Nat}
    (made : state.files.createNew name empty mode = .ok files) :
    Changes (· = name) (fun _ => False) state
      { state with files, created := state.created ++ [state.files.next] } := by
  obtain ⟨nextEq, kinds, -, lookups⟩ := Filesystem.createNew_eq_ok made
  refine ⟨fun other different => ?_, ?_, fun inode old _ => kinds inode old,
    rfl, fun inode member => mem_append_left _ member,
    fun inode member => ?_⟩
  · exact (lookups other).trans (if_neg different)
  · exact nextEq ▸ Nat.le_succ _
  · rcases mem_append.mp member with old | new
    · exact .inl old
    · rw [mem_singleton.mp new]
      exact .inr ⟨Nat.le_refl _, nextEq ▸ Nat.lt_succ_self _⟩

theorem changes_write (inode : Nat) (content : Content) :
    Changes (fun _ => False) (· = inode) state
      { state with files := state.files.write inode content } :=
  ⟨fun _ _ => rfl, Nat.le_refl _, fun _ _ different =>
    Filesystem.kind_write_of_ne state.files different content, rfl,
    fun _ member => member, fun _ member => .inl member⟩

theorem changes_changeMode (inode mode : Nat) :
    Changes (fun _ => False) (fun _ => False) state
      { state with files := state.files.changeMode inode mode } :=
  ⟨fun _ _ => rfl, Nat.le_refl _, fun other _ _ =>
    Filesystem.kind_changeMode state.files inode mode other, rfl,
    fun _ member => member, fun _ member => .inl member⟩

theorem saved_link (linked : state.files.link source target = .ok files)
    {path : PatchPath} (saved : Saved operations state path inode) :
    Saved operations { state with files } path inode := by
  obtain ⟨linkedInode, -, free, -, -, lookups⟩ := Filesystem.link_eq_ok linked
  have kept : ∀ name, state.files.lookup name = some inode →
      files.lookup name = some inode := by
    intro name found
    rw [lookups]
    split
    case isTrue same =>
      rw [same, free] at found
      cases found
    case isFalse => exact found
  exact (changes_link linked).saved (kept _) (fun _ => kept _) saved

theorem saved_rename {source : PatchPath}
    (listed : operations[index]? = some operation)
    (isSource : operation.source? = some source)
    (free : state.files.lookup (.backup index) = none)
    (renamed : state.files.rename (.path source) (.backup index) = .ok files)
    {path : PatchPath} (saved : Saved operations state path inode) :
    Saved operations { state with files } path inode := by
  obtain ⟨moved, found, -, -, lookups⟩ := Filesystem.rename_eq_ok renamed
  rcases saved with here | displaced | ⟨other, another, alsoListed, alsoSource,
    backup⟩
  · by_cases same : path = source
    · right
      right
      rw [same, found] at here
      cases here
      refine ⟨index, operation, listed, same ▸ isSource, ?_⟩
      exact (lookups (.backup index)).trans (if_pos rfl)
    · left
      rw [lookups, if_neg nofun, if_neg (by simpa using same)]
      exact here
  · exact .inr (.inl displaced)
  · right
    right
    refine ⟨other, another, alsoListed, alsoSource, ?_⟩
    have different : other ≠ index := by
      rintro rfl
      rw [free] at backup
      cases backup
    rw [lookups, if_neg (by simpa using different), if_neg nofun]
    exact backup

theorem saved_remove (removed : state.files.remove name = .ok files)
    {path : PatchPath}
    (path_kept : name ≠ .path path ∨ state.files.lookup name ≠ some inode)
    (backup_kept : ∀ index operation, name = .backup index →
      operations[index]? = some operation →
      operation.source? = some path →
      state.files.lookup name = some inode →
      files.lookup (.path path) = some inode)
    (saved : Saved operations state path inode) :
    Saved operations { state with files } path inode := by
  obtain ⟨-, -, lookups⟩ := Filesystem.remove_eq_ok removed
  rcases saved with here | displaced | ⟨index, operation, listed, source, backup⟩
  · left
    rw [lookups]
    split
    case isTrue same =>
      rcases path_kept with other | absent
      · exact absurd same.symm other
      · rw [← same] at absent
        exact absurd here absent
    case isFalse => exact here
  · exact .inr (.inl displaced)
  · by_cases same : name = .backup index
    · left
      refine backup_kept index operation same listed source ?_
      rw [same]
      exact backup
    · right
      right
      refine ⟨index, operation, listed, source, ?_⟩
      rw [lookups, if_neg (Ne.symm same)]
      exact backup

end Steps

section Calls

/-- The other process keeps an assertion, and it is enough when a call fails. -/
structure Kept (paths : List PatchPath)
    (Failed : PatchFailure → PatchState Content Digest → Prop)
    (Assertion : PatchState Content Digest → Prop) : Prop where
  stable : Process.Stable (interfere paths) Assertion
  failed : ∀ state failure, Assertion state → Failed failure state

variable {paths : List PatchPath} {α : Type}
  {Before : PatchState Content Digest → Prop}
  {Failed : PatchFailure → PatchState Content Digest → Prop}

theorem ensures_mutate
    {operation : Filesystem PatchName Content →
      Except Errno (Filesystem PatchName Content)}
    {After : PUnit → PatchState Content Digest → Prop}
    (kept : Kept paths Failed Before)
    (succeeded : ∀ state files, Before state →
      operation state.files = .ok files → After ⟨⟩ { state with files }) :
    Process.Ensures Before (mutate paths operation) After Failed := by
  unfold mutate systemCall
  apply Process.ensures_call kept.stable (fun state => kept.failed state _)
  · intro state value after holds outcome
    split at outcome
    case h_1 files found =>
      cases outcome
      exact succeeded state files holds found
    case h_2 => cases outcome
  · intro state error holds _
    exact kept.failed state error holds

theorem ensures_observe
    {operation : Filesystem PatchName Content → Except PatchFailure α}
    {After : α → PatchState Content Digest → Prop}
    (kept : Kept paths Failed Before) (succeeded : ∀ state value,
      Before state → operation state.files = .ok value → After value state) :
    Process.Ensures Before (observe paths operation) After Failed := by
  unfold observe systemCall
  apply Process.ensures_call kept.stable (fun state => kept.failed state _)
  · intro state value after holds outcome
    split at outcome
    case h_1 found =>
      cases outcome
      exact succeeded state value holds found
    case h_2 => cases outcome
  · intro state error holds _
    exact kept.failed state error holds

theorem ensures_removeLinkedFileSnapshot {name : PatchName}
    {expected : Option FileIdentity}
    {After : PUnit → PatchState Content Digest → Prop}
    (kept : Kept paths Failed Before)
    (absent : ∀ state, Before state → state.files.lookup name = none →
      After ⟨⟩ state)
    (removed : ∀ state inode files, Before state →
      state.files.lookup name = some inode → state.files.links inode = 2 →
      expected = some (state.files.identity inode) →
      state.files.remove name = .ok files → After ⟨⟩ { state with files }) :
    Process.Ensures Before (removeLinkedFileSnapshot paths name expected)
      After Failed := by
  unfold removeLinkedFileSnapshot systemCall
  apply Process.ensures_call kept.stable (fun state => kept.failed state _)
  · intro state value after holds outcome
    split at outcome
    case h_1 missing =>
      cases outcome
      exact absent state holds missing
    case h_2 inode found =>
      split at outcome
      · cases outcome
      case isFalse checked =>
        simp only [Bool.or_eq_true, bne_iff_ne, not_or, not_not] at checked
        split at outcome
        case h_1 files done =>
          cases outcome
          exact removed state inode files holds found checked.1.2 checked.2
            done
        case h_2 => cases outcome
  · intro state error holds _
    exact kept.failed state error holds

theorem openRegularFile_eq_ok {state : PatchState Content Digest}
    {name : PatchName} {identity : FileIdentity}
    (opened : openRegularFile name state.files = .ok identity) :
    Alone name identity.inode state := by
  unfold openRegularFile at opened
  split at opened
  · cases opened
  case h_2 inode found =>
    split at opened
    · cases opened
    · split at opened
      · cases opened
      case isFalse single =>
        cases opened
        exact ⟨found, fun other also =>
          Filesystem.name_unique (Nat.not_lt.mp single) also found⟩

theorem confirmPublished_eq_ok {opened : Nat} {target : PatchName}
    {files : Filesystem PatchName Content} {identity : FileIdentity}
    (confirmed : confirmPublished opened target files = .ok identity) :
    identity.inode = opened := by
  unfold confirmPublished at confirmed
  split at confirmed
  · cases confirmed
  · split at confirmed
    · cases confirmed
    · cases confirmed
      rfl

theorem ensures_publishFileLinkWithIdentity {source target : PatchName}
    {created : PatchProcess Content Digest PUnit}
    {expected : Option FileIdentity}
    {Opened Linked Published : Nat → PatchState Content Digest → Prop}
    {After : FileIdentity → PatchState Content Digest → Prop}
    (kept : Kept paths Failed Before)
    (opened : ∀ state (identity : FileIdentity), Before state →
      Alone source identity.inode state → Opened identity.inode state)
    (keptOpened : ∀ inode, Kept paths Failed (Opened inode))
    (linked : ∀ inode state files, Opened inode state →
      state.files.link source target = .ok files →
      Linked inode { state with files })
    (noted : ∀ inode, Process.Ensures (Linked inode) created
      (fun _ => Published inode) Failed)
    (keptPublished : ∀ inode, Kept paths Failed (Published inode))
    (confirmed : ∀ (identity : FileIdentity) state, Published identity.inode state →
      After identity state) :
    Process.Ensures Before
      (publishFileLinkWithIdentity paths source target created expected)
      After Failed := by
  have first : Process.Ensures Before (observe paths (openRegularFile source))
      (fun identity => Opened identity.inode) Failed := by
    apply ensures_observe kept
    intro state identity holds isOpened
    exact opened state identity holds (openRegularFile_eq_ok isOpened)
  apply Process.ensures_bind first
  intro identity
  split
  case isTrue =>
    exact Process.ensures_fail fun state holds =>
      (keptOpened identity.inode).failed state _ holds
  case isFalse =>
    apply Process.ensures_seq
    · exact ensures_mutate (keptOpened identity.inode) (linked identity.inode)
    · intro _
      apply Process.ensures_seq (noted identity.inode)
      intro _
      apply ensures_observe (keptPublished identity.inode)
      intro state published holds isConfirmed
      apply confirmed published state
      rw [confirmPublished_eq_ok isConfirmed]
      exact holds

end Calls

end MachineBridge.Files
