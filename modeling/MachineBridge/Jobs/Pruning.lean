import MachineBridge.Jobs.Retention

/-!
# What a pruning pass removes

A removed directory belonged to nobody, or its job was terminal, free of
dependents and not waiting for delivery.  The removals for capacity go down the
eviction order and stop as soon as the target is met.
-/

namespace MachineBridge.Jobs

open Foundation List

def retainedEntries (clock : PruneClock) (root : JobRoot) : List JobEntry :=
  root.jobs.entries.filterMap fun entry =>
    match examine (clock.examining entry.1) entry.1 entry.2 with
    | .retained kept => some kept
    | _ => none

/-- A directory without a status which no runner owns. -/
def Orphaned (clock : PruneClock) (root : JobRoot) (name : Text) : Prop :=
  ∃ directory, (name, directory) ∈ root.jobs.entries ∧
    examine (clock.examining name) name directory = .orphaned

variable {clock : PruneClock} {root : JobRoot} {directory : JobDirectory}
  {name : Text} {entry : JobEntry} {items : List JobEntry} {ids : List Text}

theorem mem_retainedEntries {kept : JobEntry} :
    kept ∈ retainedEntries clock root ↔ ∃ name directory,
    (name, directory) ∈ root.jobs.entries ∧
    examine (clock.examining name) name directory = .retained kept := by
  simp only [retainedEntries, mem_filterMap, Prod.exists]
  constructor
  · intro found
    obtain ⟨name, directory, member, same⟩ := found
    refine ⟨name, directory, member, ?_⟩
    split at same
    case h_1 other examined =>
      cases same
      exact examined
    case h_2 => cases same
  · intro found
    obtain ⟨name, directory, member, examined⟩ := found
    exact ⟨name, directory, member, by rw [examined]⟩

/-- An entry goes by the directory it was read from, and a terminal status
names that directory. -/
structure Faithful (name : Text) (directory : JobDirectory)
    (entry : JobEntry) : Prop where
  named : entry.name = name
  read : entry.directory = directory
  identified : entry.terminal = true → ∃ status, entry.status = some status ∧
    status.jobId = some name

theorem faithful_unsettled {mtime : Int} {status : Option JobStatus}
    (unsettled : status.any (·.state.terminal) = false) :
    Faithful name directory { name, directory, status, mtime } where
  named := rfl
  read := rfl
  identified := by
    intro terminal
    rw [JobEntry.terminal, JobEntry.satisfies, unsettled] at terminal
    cases terminal

theorem faithful_none (name : Text) (directory : JobDirectory)
    (mtime : Int) :
    Faithful name directory { name, directory, status := none, mtime } :=
  { named := rfl, read := rfl, identified := fun terminal => nomatch terminal }

theorem faithful_retainEntry (name : Text) (directory : JobDirectory)
    (mtime : Int) (status : Option JobStatus) :
    Faithful name directory (retainEntry name directory mtime status) := by
  cases status with
  | none => exact faithful_none name directory _
  | some current =>
    simp only [retainEntry]
    split
    case isTrue => exact faithful_none name directory _
    case isFalse kept =>
      constructor
      · rfl
      · rfl
      · intro terminal
        refine ⟨current, rfl, ?_⟩
        have settled : current.state.terminal = true := terminal
        simp only [settled, Bool.true_and, Bool.not_eq_true',
          Bool.not_eq_false, Bool.and_eq_true, beq_iff_eq] at kept
        exact kept.1

theorem faithful_examineExpired {clock : Nat → Int} {mtime : Int}
    {status : JobStatus} (staged : status.state = .staged) (examined :
    examineExpired clock name directory mtime status = .retained entry) :
    Faithful name directory entry := by
  have unsettled : (some status).any (·.state.terminal) = false := by
    simp [staged, JobState.terminal]
  simp only [examineExpired] at examined
  split at examined
  case isTrue =>
    cases examined
    exact faithful_unsettled unsettled
  case isFalse =>
    split at examined
    case h_1 =>
      cases examined
      exact faithful_unsettled unsettled
    case h_2 =>
      cases examined
      exact faithful_retainEntry name directory mtime none
    case h_3 current =>
      split at examined
      case isTrue =>
        split at examined
        case isTrue => cases examined
        case isFalse =>
          cases examined
          exact faithful_retainEntry name directory mtime _
      case isFalse =>
        cases examined
        exact faithful_retainEntry name directory mtime _

theorem faithful_examine {clock : Nat → Int}
    (examined : examine clock name directory = .retained entry) :
    Faithful name directory entry := by
  simp only [examine] at examined
  split at examined
  case isTrue => cases examined
  case isFalse =>
    split at examined
    case h_1 => cases examined
    case h_2 => cases examined
    case h_3 =>
      split at examined
      case h_1 =>
        cases examined
        exact faithful_none name directory _
      case h_2 =>
        split at examined
        case isTrue => cases examined
        case isFalse =>
          cases examined
          exact faithful_none name directory _
    case h_4 status mtime _ _ =>
      split at examined
      case isTrue =>
        cases examined
        exact faithful_none name directory _
      case isFalse =>
        split at examined
        case isTrue expired =>
          simp only [Bool.and_eq_true, decide_eq_true_eq] at expired
          exact faithful_examineExpired expired.1 examined
        case isFalse =>
          cases examined
          exact faithful_retainEntry name directory mtime _

namespace Pruning

variable {state : Pruning}

theorem mem_removed_remove {name other : Text}
    (gone : other ∈ (state.removeManagedJobDirectoryIfCurrent name).removed) :
    other ∈ state.removed ∨ other = name := by
  have taken : ∀ retires, other ∈ (state.take name retires).removed →
      other ∈ state.removed ∨ other = name := by
    simpa [take] using member
  simp only [removeManagedJobDirectoryIfCurrent] at gone
  split at gone
  case h_1 => exact .inl gone
  case h_2 =>
    split at gone
    case h_1 => exact taken false gone
    case h_2 => exact .inl gone
    case h_3 => exact taken true gone
    case h_4 => exact .inl gone
    case h_5 => exact taken true gone

@[simp] theorem entries_remove (state : Pruning) (name : Text) :
    (state.removeManagedJobDirectoryIfCurrent name).entries =
    state.entries := by
  simp only [removeManagedJobDirectoryIfCurrent]
  split
  case h_1 => rfl
  case h_2 => split <;> rfl

/-- What a scan has found after the first entries of the root. -/
structure Scanned (clock : PruneClock) (root : JobRoot)
    (seen : List (Text × JobDirectory)) (state : Pruning) : Prop where
  orphaned : ∀ name ∈ state.removed, Orphaned clock root name
  entries : state.thrown = false → state.entries =
    seen.filterMap fun entry =>
      match examine (clock.examining entry.1) entry.1 entry.2 with
      | .retained kept => some kept
      | _ => none

theorem scanDirectory_scanned {clock : PruneClock} {root : JobRoot}
    {seen : List (Text × JobDirectory)}
    (scanned : Scanned clock root seen state) {entry : Text × JobDirectory}
    (member : entry ∈ root.jobs.entries) : Scanned clock root (seen ++ [entry])
    (state.scanDirectory clock.examining entry) := by
  simp only [scanDirectory]
  split
  case isTrue thrown =>
    constructor
    · exact scanned.orphaned
    · intro going
      rw [thrown] at going
      cases going
  case isFalse going =>
    have earlier := scanned.entries (Bool.eq_false_iff.mpr going)
    split
    case h_1 examined =>
      constructor
      · exact scanned.orphaned
      · intro _
        simp [earlier, examined]
    case h_2 examined =>
      constructor
      · intro name gone
        rcases mem_removed_remove gone with old | new
        · exact scanned.orphaned name old
        · rw [new]
          exact ⟨entry.2, member, examined⟩
      · intro _
        simp [earlier, examined]
    case h_3 kept examined =>
      constructor
      · exact scanned.orphaned
      · intro _
        simp [earlier, examined]
    case h_4 =>
      constructor
      · exact scanned.orphaned
      · intro going
        cases going

theorem scanned_foldl {clock : PruneClock} {root : JobRoot}
    {seen rest : List (Text × JobDirectory)}
    (scanned : Scanned clock root seen state)
    (members : ∀ entry ∈ rest, entry ∈ root.jobs.entries) : Scanned clock root
    (seen ++ rest) (rest.foldl (scanDirectory clock.examining) state) := by
  induction rest generalizing seen state with
  | nil => simpa using scanned
  | cons entry rest induction =>
    have next := scanDirectory_scanned scanned (members entry mem_cons_self)
    have later := induction next fun other member =>
      members other (mem_cons_of_mem _ member)
    simpa using later

end Pruning

theorem scanned_scanJobs (clock : PruneClock) (root : JobRoot) :
    Pruning.Scanned clock root root.jobs.entries (scanJobs clock root) := by
  have start : Pruning.Scanned clock root []
      { root := root.pruneRetiredManagedJobDirectories } :=
    { orphaned := by simp, entries := by simp }
  exact Pruning.scanned_foldl start fun entry member => member

theorem entries_scanJobs (going : (scanJobs clock root).thrown = false) :
    (scanJobs clock root).entries = retainedEntries clock root :=
  (scanned_scanJobs clock root).entries going

/-- A terminal job past its retention on which nothing depends. -/
structure PastRetention (clock : PruneClock) (root : JobRoot)
    (ids : List Text) (name : Text) (entry : JobEntry) : Prop where
  member : entry ∈ retainedEntries clock root
  named : entry.name = name
  terminal : entry.terminal = true
  free : entry.listed ids = false
  old : jobRetentionMs < clock.now - entry.retentionTime

theorem mem_newestFirst : entry ∈ newestFirst items ↔ entry ∈ items := by
  simp [newestFirst, mem_insertionSort]

theorem mem_removed_foldl_removeAged {now : Int} {state : Pruning}
    (gone : name ∈ (items.foldl (Pruning.removeAged ids now) state).removed) :
    name ∈ state.removed ∨ ∃ item ∈ items, item.name = name ∧
    item.listed ids = false ∧ jobRetentionMs < now - item.retentionTime := by
  induction items generalizing state with
  | nil => exact .inl gone
  | cons item items induction =>
    rcases induction gone with earlier | ⟨other, member, rest⟩
    · simp only [Pruning.removeAged] at earlier
      split at earlier
      case isTrue => exact .inl earlier
      case isFalse =>
        split at earlier
        case isTrue old =>
          simp only [Bool.and_eq_true, Bool.not_eq_true',
            decide_eq_true_eq] at old
          rcases Pruning.mem_removed_remove earlier with before | new
          · exact .inl before
          · exact .inr ⟨item, mem_cons_self, new.symm, old.1, old.2⟩
        case isFalse => exact .inl earlier
    · exact .inr ⟨other, mem_cons_of_mem _ member, rest⟩

theorem mem_removed_removeAgedJobs
    (going : (scanJobs clock root).thrown = false)
    (gone : name ∈ (removeAgedJobs clock ids (scanJobs clock root)).removed) :
    Orphaned clock root name ∨ ∃ entry,
    PastRetention clock root ids name entry := by
  rcases mem_removed_foldl_removeAged gone with
    earlier | ⟨item, member, named, free, old⟩
  · exact .inl ((scanned_scanJobs clock root).orphaned name earlier)
  · obtain ⟨inside, terminal⟩ := List.mem_filter.mp (mem_newestFirst.mp member)
    rw [entries_scanJobs going] at inside
    exact .inr ⟨item, inside, named, terminal, free, old⟩

def removeAll (state : Pruning) (items : List JobEntry) : Pruning :=
  items.foldl (fun state item =>
    state.removeManagedJobDirectoryIfCurrent item.name) state

theorem evict_eq_removeAll (target : Nat) (items : List JobEntry)
    (state : Pruning) : ∃ tried, tried <+: items ∧
    state.evict target items = removeAll state tried ∧ ∀ earlier item,
    earlier ++ [item] <+: tried →
    target < (removeAll state earlier).root.retainedState := by
  induction items generalizing state with
  | nil =>
    refine ⟨[], nil_prefix, rfl, ?_⟩
    intro earlier item before
    simp at before
  | cons item items induction =>
    simp only [Pruning.evict]
    split
    case isTrue =>
      refine ⟨[], nil_prefix, rfl, ?_⟩
      intro earlier other before
      simp at before
    case isFalse full =>
      obtain ⟨tried, isPrefix, same, needed⟩ := induction
        (state.removeManagedJobDirectoryIfCurrent item.name)
      refine ⟨item :: tried, cons_prefix_cons.mpr ⟨rfl, isPrefix⟩, same, ?_⟩
      intro earlier other before
      cases earlier with
      | nil =>
        simp only [Bool.or_eq_true, decide_eq_true_eq, not_or,
          Nat.not_le] at full
        exact full.2
      | cons first earlier =>
        rw [cons_append, cons_prefix_cons] at before
        rw [before.1]
        exact needed earlier other before.2

theorem mem_removed_removeAll {state : Pruning}
    (gone : name ∈ (removeAll state items).removed) :
    name ∈ state.removed ∨ ∃ item ∈ items, item.name = name := by
  induction items generalizing state with
  | nil => exact .inl gone
  | cons item items induction =>
    rcases induction gone with earlier | ⟨other, member, named⟩
    · rcases Pruning.mem_removed_remove earlier with before | new
      · exact .inl before
      · exact .inr ⟨item, mem_cons_self, new.symm⟩
    · exact .inr ⟨other, mem_cons_of_mem _ member, named⟩

theorem mem_evictionOrder {request : PruneRequest} {entries : List JobEntry} :
    entry ∈ evictionOrder clock request ids entries ↔ entry ∈ entries ∧
    entry.terminal = true ∧ entry.listed ids = false ∧
    entry.undelivered clock.now = false := by
  rw [evictionOrder, orderManagedJobTerminalEviction,
    (perm_insertionSort _ _).mem_iff, removableJobs, List.mem_filter]
  simp only [Bool.and_eq_true, Bool.not_eq_true', and_assoc]

theorem undelivered_of_old {now : Int}
    (old : jobRetentionMs < now - entry.retentionTime) :
    entry.undelivered now = false := by
  apply Bool.eq_false_iff.mpr
  intro waiting
  cases same : entry.status with
  | none => simp [JobEntry.undelivered, JobEntry.satisfies, same] at waiting
  | some status =>
    simp only [JobEntry.retentionTime, same] at old
    simp only [JobEntry.undelivered, JobEntry.satisfies, same,
      Option.any_some, transientProcessUndeliveredRecoveryProtected,
      transientProcessWithinRecoveryGrace, Bool.and_eq_true,
      decide_eq_true_eq] at waiting
    obtain ⟨pending, ⟨_, _⟩, young⟩ := waiting
    rw [if_pos pending] at young
    simp only [jobRetentionMs] at old
    simp only [transientProcessPendingRecoveryGraceMs] at young
    omega

/-- What the removal of a job which belonged to somebody requires. -/
structure MayRemove (clock : PruneClock) (request : PruneRequest)
    (root : JobRoot) (name : Text) : Prop where
  /-- The status which the pass last read is terminal. -/
  terminal : ∃ entry ∈ retainedEntries clock root, entry.name = name ∧
    entry.terminal = true ∧ entry.undelivered clock.now = false
  unprotected : name ∉ request.protectedJobIds
  free : ∀ dependent ∈ retainedEntries clock root,
    name ∉ entryDependencies dependent
  evidence : ∀ dependent ∈ retainedEntries clock root,
    entryEvidence dependent = true

theorem faithful_of_retained (member : entry ∈ retainedEntries clock root) :
    Faithful entry.name entry.directory entry := by
  obtain ⟨name, directory, _, examined⟩ := mem_retainedEntries.mp member
  have faithful := faithful_examine examined
  rw [faithful.named, faithful.read]
  exact faithful

theorem mayRemove_of_unlisted {request : PruneRequest} (member : entry ∈
    retainedEntries clock root) (terminal : entry.terminal = true)
    (delivered : entry.undelivered clock.now = false) (free : entry.listed
    (managedJobDependencyProtection (retainedEntries clock root)
    request.protectedJobIds).ids = false) (complete :
    (managedJobDependencyProtection (retainedEntries clock root)
    request.protectedJobIds).complete = true) : MayRemove clock request root
    entry.name := by
  obtain ⟨status, same, identified⟩ :=
    (faithful_of_retained member).identified terminal
  have unlisted : entry.name ∉ (managedJobDependencyProtection
      (retainedEntries clock root) request.protectedJobIds).ids := by
    intro listed
    simp [JobEntry.listed, JobEntry.satisfies, same, identified, listed]
      at free
  simp only [managedJobDependencyProtection, mem_append, not_or,
    mem_flatMap, not_exists, not_and] at unlisted
  exact
    { terminal := ⟨entry, member, rfl, terminal, delivered⟩
      unprotected := unlisted.1
      free := unlisted.2
      evidence := all_eq_true.mp complete }

/-- How a pass ends: the directories it removed before any for its slots, the
jobs it then tried in eviction order, and the state after them. -/
structure PruningRun (clock : PruneClock) (request : PruneRequest)
    (root : JobRoot) (aged : Pruning) (tried : List JobEntry) : Prop where
  result : pruneManagedJobs clock request root = removeAll aged tried
  removed : ∀ name ∈ aged.removed, Orphaned clock root name ∨
    MayRemove clock request root name ∧ ∃ entry,
      PastRetention clock root (managedJobDependencyProtection
        (retainedEntries clock root) request.protectedJobIds).ids name entry
  inOrder : tried <+: evictionOrder clock request
    (managedJobDependencyProtection (retainedEntries clock root)
      request.protectedJobIds).ids (retainedEntries clock root)
  allowed : ∀ item ∈ tried, MayRemove clock request root item.name
  needed : ∀ earlier item, earlier ++ [item] <+: tried →
    targetMaximum request < (removeAll aged earlier).root.retainedState

theorem pruneManagedJobs_run (clock : PruneClock) (request : PruneRequest)
    (root : JobRoot) :
    ∃ aged tried, PruningRun clock request root aged tried := by
  have nothing : pruneManagedJobs clock request root = scanJobs clock root →
      ∃ aged tried, PruningRun clock request root aged tried := by
    intro same
    refine ⟨scanJobs clock root, [], same, ?_, nil_prefix, ?_, ?_⟩
    · intro name gone
      exact .inl ((scanned_scanJobs clock root).orphaned name gone)
    · intro item member
      cases member
    · intro earlier item before
      simp at before
  cases thrown : (scanJobs clock root).thrown with
  | true =>
    apply nothing
    simp [pruneManagedJobs, thrown]
  | false =>
    have entries := entries_scanJobs thrown
    cases complete : (managedJobDependencyProtection
        (retainedEntries clock root) request.protectedJobIds).complete with
    | false =>
      apply nothing
      simp [pruneManagedJobs, thrown, entries, complete]
    | true =>
      have same : pruneManagedJobs clock request root = (removeAgedJobs clock
          (managedJobDependencyProtection (retainedEntries clock root)
          request.protectedJobIds).ids (scanJobs clock root)).evict
          (targetMaximum request) (evictionOrder clock request
          (managedJobDependencyProtection (retainedEntries clock root)
          request.protectedJobIds).ids (retainedEntries clock root)) := by
        simp [pruneManagedJobs, thrown, entries, complete]
      obtain ⟨tried, inOrder, evicted, needed⟩ := evict_eq_removeAll
        (targetMaximum request) (evictionOrder clock request
          (managedJobDependencyProtection (retainedEntries clock root)
            request.protectedJobIds).ids (retainedEntries clock root))
        (removeAgedJobs clock (managedJobDependencyProtection
          (retainedEntries clock root) request.protectedJobIds).ids
          (scanJobs clock root))
      refine ⟨_, tried, same.trans evicted, ?_, inOrder, ?_, needed⟩
      · intro name gone
        rcases mem_removed_removeAgedJobs thrown gone with
          orphaned | ⟨entry, past⟩
        · exact .inl orphaned
        · refine .inr ⟨?_, entry, past⟩
          rw [← past.named]
          exact mayRemove_of_unlisted past.member past.terminal
            (undelivered_of_old past.old) past.free complete
      · intro item member
        obtain ⟨inside, terminal, free, delivered⟩ :=
          mem_evictionOrder.mp (inOrder.subset member)
        exact mayRemove_of_unlisted inside terminal delivered free complete

/-- A directory whose status cannot be read, or shows an active job or a
staged draft whose time is not over. -/
def unfinished (now : Int) (directory : JobDirectory) : Bool :=
  match directory.status with
  | .missing => false
  | .unreadable => true
  | .value status =>
    status.state.active ||
      (status.state == .staged && !stagedPlanExpired status now)

theorem examine_of_unfinished {clock : Nat → Int}
    (unsettled : unfinished (clock 0) directory = true) :
    examine clock name directory ≠ .orphaned ∧ ∀ entry,
    examine clock name directory = .retained entry →
    entry.terminal = false := by
  simp only [examine]
  split
  case isTrue =>
    constructor
    · intro impossible
      cases impossible
    · intro entry impossible
      cases impossible
  case isFalse =>
    cases read : directory.status with
    | missing => simp [unfinished, read] at unsettled
    | unreadable =>
      constructor
      · intro impossible
        cases impossible
      · intro entry impossible
        cases impossible
    | value status =>
      cases seen : directory.mtime with
      | none =>
        constructor
        · intro impossible
          cases impossible
        · intro entry impossible
          cases impossible
      | some mtime =>
        simp only
        have quiet : (decide (status.state = .staged) &&
            stagedPlanExpired status (clock 0)) = false := by
          simp only [unfinished, read, Bool.or_eq_true,
            Bool.and_eq_true, Bool.not_eq_true', beq_iff_eq]
            at unsettled
          rcases unsettled with active | ⟨_, early⟩
          · cases state : status.state <;>
              simp_all [JobState.active]
          · simp [early]
        have unsettledState : status.state.terminal = false := by
          apply JobState.terminal_eq_false_of_retainsPlan
          simp only [unfinished, read, Bool.or_eq_true,
            Bool.and_eq_true] at unsettled
          rcases unsettled with active | ⟨staged, _⟩
          · simp [JobState.retainsPlan, active]
          · simp [JobState.retainsPlan, staged]
        split
        case isTrue =>
          constructor
          · intro impossible
            cases impossible
          · intro entry same
            cases same
            rfl
        case isFalse =>
          rw [quiet]
          constructor
          · intro impossible
            cases impossible
          · intro entry same
            cases same
            simp [retainEntry, unsettledState, JobEntry.terminal,
              JobEntry.satisfies]

/-- A pass removes at most as many directories as the target needs. -/
def NoLongerThanNeeded (clock : PruneClock) (request : PruneRequest)
    (root : JobRoot) : Prop :=
  (pruneManagedJobs clock request root).removed.length ≤
    root.retainedState - targetMaximum request

def finishedEightDaysAgo : JobRoot where
  jobs := Record.empty.set (text "job_abcdefghijklmnopqrstuvwx")
    { status := .value
        { jobId := some (text "job_abcdefghijklmnopqrstuvwx")
          state := .succeeded
          finishedAt := some 0 }
      mtime := some 0 }

end MachineBridge.Jobs
