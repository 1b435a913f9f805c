import MachineBridge.Locks.LockInvariant

/-!
# Steps on a lock file

Each operation of the filesystem leaves the files in order, spares what the
other processes prepare, and keeps the lock with the process which is entitled
to it.
-/

namespace MachineBridge.Locks

open Foundation Foundation.Filesystem

variable {Detail : Type}

section Files

variable {files next : LockFiles Detail} {temporary : LockName} {inode : Nat}
  {owner : LockOwner Detail}

theorem shrinks_files (shrinks : Shrinks files next)
    (invariant : FilesInvariant files) : FilesInvariant next where
  unused := by
    intro inode fresh
    rw [shrinks.bound] at fresh
    rw [shrinks.kinds]
    exact invariant.unused inode fresh
  written := by
    intro inode named
    rw [shrinks.kinds]
    exact invariant.written inode (shrinks.names _ _ named)
  handed := by
    intro inode owner content foreign first second one other
    rw [shrinks.kinds] at content
    exact invariant.handed inode owner content foreign first second
      (shrinks.names _ _ one) (shrinks.names _ _ other)

section

variable (invariant : FilesInvariant files)
include invariant

theorem FilesInvariant.old {content : Option (LockOwner Detail)}
    (known : files.kind inode = .regular content) : inode < files.next := by
  apply Nat.lt_of_not_le
  intro fresh
  rw [invariant.unused inode fresh] at known
  cases known

theorem createNew_files (different : temporary ≠ .lock) {mode : Nat}
    (created : files.createNew temporary none mode = .ok next) :
    FilesInvariant next := by
  obtain ⟨bound, kinds, -, names⟩ := createNew_eq_ok created
  have fresh : next.kind files.next = .regular none := by
    rw [kind_createNew created, if_pos rfl]
  have others : ∀ inode, inode ≠ files.next →
      next.kind inode = files.kind inode := by
    intro inode unlike
    rw [kind_createNew created, if_neg unlike]
  refine ⟨?_, ?_, ?_⟩
  · intro inode unused
    rw [bound] at unused
    rw [others inode (Nat.ne_of_gt unused)]
    exact invariant.unused inode (Nat.le_of_succ_le unused)
  · intro inode named
    rw [names, if_neg different.symm] at named
    rw [kinds inode (lt_next named)]
    exact invariant.written inode named
  · intro inode owner content foreign first second one other
    have old : inode ≠ files.next := by
      rintro rfl
      rw [fresh] at content
      cases content
    rw [others inode old] at content
    rw [names] at one other
    split at one
    case isTrue => exact absurd (Option.some.inj one).symm old
    case isFalse =>
      split at other
      case isTrue => exact absurd (Option.some.inj other).symm old
      case isFalse =>
        exact invariant.handed inode owner content foreign first second one
          other

theorem write_files (different : temporary ≠ .lock)
    (content : files.kind inode = .regular none)
    (only : ∀ name, files.lookup name = some inode → name = temporary) :
    FilesInvariant (files.write inode (some owner)) where
  unused := by
    intro other unused
    have old := invariant.old content
    have unlike : other ≠ inode := Nat.ne_of_gt (Nat.lt_of_lt_of_le old unused)
    rw [kind_write_of_ne files unlike]
    exact invariant.unused other unused
  written := by
    intro other named
    have unlike : other ≠ inode := by
      rintro rfl
      exact different (only _ named).symm
    rw [kind_write_of_ne files unlike]
    exact invariant.written other named
  handed := by
    intro other found known foreign first second one two
    by_cases same : other = inode
    · subst same
      rw [only first one, only second two]
    · rw [kind_write_of_ne files same] at known
      exact invariant.handed other found known foreign first second one two

theorem link_files (named : files.lookup temporary = some inode)
    (content : files.kind inode = .regular (some owner))
    (own : owner.pid = owner.token.process)
    (linked : files.link temporary .lock = .ok next) :
    FilesInvariant next := by
  obtain ⟨found, same, -, bound, kinds, names⟩ := link_eq_ok linked
  rw [named] at same
  cases same
  refine ⟨?_, ?_, ?_⟩
  · intro other unused
    rw [bound] at unused
    rw [kinds]
    exact invariant.unused other unused
  · intro other published
    rw [names, if_pos rfl] at published
    cases published
    exact ⟨owner, (kinds inode).trans content⟩
  · intro other known regular foreign first second one two
    rw [kinds] at regular
    have unlike : other ≠ inode := by
      rintro rfl
      rw [content] at regular
      cases regular
      exact foreign own
    rw [names] at one two
    split at one
    case isTrue => exact absurd (Option.some.inj one).symm unlike
    case isFalse =>
      split at two
      case isTrue => exact absurd (Option.some.inj two).symm unlike
      case isFalse =>
        exact invariant.handed other known regular foreign first second one two

theorem rename_files (named : files.lookup temporary = some inode)
    (content : files.kind inode = .regular (some owner))
    (only : ∀ name, files.lookup name = some inode → name = temporary)
    (renamed : files.rename temporary .lock = .ok next) :
    FilesInvariant next := by
  obtain ⟨found, same, bound, kinds, names⟩ := rename_eq_ok renamed
  rw [named] at same
  cases same
  have alone : ∀ name, next.lookup name = some inode → name = .lock := by
    intro name published
    rw [names] at published
    split at published
    case isTrue same => exact same
    case isFalse =>
      split at published
      case isTrue => cases published
      case isFalse moved => exact absurd (only name published) moved
  have before : ∀ name other, other ≠ inode → next.lookup name = some other →
      files.lookup name = some other := by
    intro name other unlike published
    rw [names] at published
    split at published
    case isTrue => exact absurd (Option.some.inj published).symm unlike
    case isFalse =>
      split at published
      case isTrue => cases published
      case isFalse => exact published
  refine ⟨?_, ?_, ?_⟩
  · intro other unused
    rw [bound] at unused
    rw [kinds]
    exact invariant.unused other unused
  · intro other published
    rw [names, if_pos rfl] at published
    cases published
    exact ⟨owner, (kinds inode).trans content⟩
  · intro other known regular foreign first second one two
    by_cases same : other = inode
    · subst same
      rw [alone first one, alone second two]
    · rw [kinds] at regular
      exact invariant.handed other known regular foreign first second
        (before first other same one) (before second other same two)

end

end Files

namespace LockWorld

/-- A step which spares the others and leaves the lock in order, whatever
becomes of the phase of the process which takes it. -/
structure Lawful (world next : LockWorld Detail) (actor : ProcessId) :
    Prop where
  spares : Spares world next actor
  files : FilesInvariant next.files
  owned : next.Owned
  entitled : ∀ process token, next.Holds process token →
    ∃ owner, next.Names owner ∧ owner.pid = process ∧ owner.token = token
  received : ∀ owner, next.Names owner → next.alive owner.pid = true →
    owner.pid ≠ owner.token.process → next.held owner.pid = some owner.token

section Lawful

variable {world next : LockWorld Detail} {actor process : ProcessId}

theorem Lawful.invariant (lawful : Lawful world next actor)
    (invariant : world.LockInvariant) (own : next.alive actor = true →
      next.PhaseInvariant actor (next.phase actor)) : next.LockInvariant where
  __ := lawful
  phases := by
    intro process alive
    by_cases same : process = actor
    · subst same
      exact own alive
    · have before := lawful.spares.others process same
      rw [LockWorld.alive, before] at alive
      rw [LockWorld.phase, before]
      exact lawful.spares.phase same alive (invariant.phases process alive)

theorem LockInvariant.lawful (invariant : world.LockInvariant)
    (actor : ProcessId) : Lawful world world actor where
  spares :=
    ⟨fun _ _ => rfl, fun _ => id, fun _ _ => id, fun _ _ _ _ => id,
      fun _ _ _ holds => holds.held, fun _ _ _ holds => ⟨holds, rfl⟩⟩
  __ := invariant

variable {change : LockProcess Detail → LockProcess Detail} {token : LockToken}

theorem setProcess_self :
    (world.setProcess process change).processes process =
      change (world.processes process) := Function.update_self _ _ _

theorem setProcess_of_ne {other : ProcessId} (different : other ≠ process) :
    (world.setProcess process change).processes other =
      world.processes other := Function.update_of_ne different _ _

theorem Lawful.setProcess (lawful : Lawful world next actor)
    (mortal : ∀ info, (change info).alive = true → info.alive = true) :
    Lawful world (next.setProcess actor change) actor := by
  have lives : ∀ process, (next.setProcess actor change).alive process = true →
      next.alive process = true := by
    intro process alive
    by_cases same : process = actor
    · subst same
      rw [LockWorld.alive, setProcess_self] at alive
      exact mortal _ alive
    · rw [LockWorld.alive, setProcess_of_ne same] at alive
      exact alive
  have holds : ∀ process token,
      (next.setProcess actor change).Holds process token →
      next.Holds process token :=
    fun process _ holds => ⟨lives process holds.alive, holds.held⟩
  have names : ∀ owner, (next.setProcess actor change).Names owner →
      next.Names owner := fun _ names => ⟨names.named⟩
  refine ⟨⟨?_, ?_, lawful.spares.written, ?_, lawful.spares.kept, ?_⟩,
    lawful.files, lawful.owned, ?_, ?_⟩
  · intro process different
    rw [setProcess_of_ne different]
    exact lawful.spares.others process different
  · intro process dead
    have gone := lawful.spares.dead process dead
    rw [← Bool.not_eq_true] at gone ⊢
    exact fun alive => gone (lives process alive)
  · intro process different inode content drafts
    obtain ⟨named, found, only⟩ :=
      lawful.spares.drafts process different inode content drafts
    have same : (next.setProcess actor change).temporary process =
        next.temporary process := by
      rw [temporary, setProcess_of_ne different, temporary]
    refine ⟨?_, found, ?_⟩
    · rw [same]
      exact named
    · rw [same]
      exact only
  · intro process token foreign held
    exact lawful.spares.fixed process token foreign (holds _ _ held)
  · intro process token held
    obtain ⟨owner, named, same⟩ := lawful.entitled _ _ (holds _ _ held)
    exact ⟨owner, ⟨named.named⟩, same⟩
  · intro owner named alive foreign
    exact lawful.received owner (names owner named) (lives _ alive) foreign

theorem Lawful.enter (lawful : Lawful world next actor)
    (phase : LockPhase Detail) : Lawful world (next.enter actor phase) actor :=
  lawful.setProcess fun _ alive => alive

theorem Owned.recordLoss (owned : world.Owned) (fair : ∀ owner,
      world.Names owner → owner.pid = actor ∨ world.alive owner.pid = false) :
    (world.recordLoss actor).Owned := by
  intro loss member
  rw [LockWorld.recordLoss] at member
  cases found : world.publisher with
  | none =>
    rw [found] at member
    exact owned loss member
  | some owner =>
    simp only [found, List.mem_append, List.mem_singleton] at member
    rcases member with earlier | rfl
    · exact owned loss earlier
    · rcases fair owner (publisher_names.mp found) with own | dead
      · exact .inl own.symm
      · exact .inr dead

theorem held_surrender (world : LockWorld Detail) (token : LockToken) :
    (world.surrender actor token).held process = if process = actor ∧
    world.held actor = some token then none else world.held process := by
  rw [surrender]
  split
  case isTrue held =>
    by_cases same : process = actor
    · simp [same, held]
    · simp [same]
  case isFalse held => simp [held]

theorem held_of_surrender {other : LockToken}
    (held : (world.surrender actor token).held process = some other) :
    world.held process = some other := by
  rw [held_surrender] at held
  split at held
  case isTrue => cases held
  case isFalse => exact held

section

variable (token : LockToken)

theorem files_surrender :
    (world.surrender actor token).files = world.files := by
  rw [surrender]
  split <;> rfl

theorem processes_surrender :
    (world.surrender actor token).processes = world.processes := by
  rw [surrender]
  split <;> rfl

theorem losses_surrender :
    (world.surrender actor token).losses = world.losses := by
  rw [surrender]
  split <;> rfl

end

theorem names_surrender {owner : LockOwner Detail}
    (names : (world.surrender actor token).Names owner) :
    world.Names owner := by
  obtain ⟨named⟩ := names
  rw [files_surrender] at named
  exact ⟨named⟩

theorem Lawful.surrender (lawful : Lawful world next actor)
    (own : token.process = actor ∨ next.files.lookup .lock = none) :
    Lawful world (next.surrender actor token) actor := by
  have lives : ∀ process,
      (next.surrender actor token).alive process = next.alive process := by
    intro process
    rw [LockWorld.alive, processes_surrender, LockWorld.alive]
  have holds : ∀ process other,
      (next.surrender actor token).Holds process other →
      next.Holds process other := by
    intro process other holds
    refine ⟨?_, held_of_surrender holds.held⟩
    rw [← lives]
    exact holds.alive
  refine ⟨⟨?_, ?_, ?_, ?_, ?_, ?_⟩, ?_, ?_, ?_, ?_⟩
  · rw [processes_surrender]
    exact lawful.spares.others
  · intro process dead
    rw [lives]
    exact lawful.spares.dead process dead
  · rw [files_surrender]
    exact lawful.spares.written
  · intro process different inode content drafts
    obtain ⟨named, found, only⟩ :=
      lawful.spares.drafts process different inode content drafts
    have same : (next.surrender actor token).temporary process =
        next.temporary process := by
      rw [temporary, processes_surrender, temporary]
    refine ⟨?_, ?_, ?_⟩
    · rw [same, files_surrender]
      exact named
    · rw [files_surrender]
      exact found
    · rw [same, files_surrender]
      exact only
  · intro process different other held
    rw [held_surrender, if_neg fun same => different same.1]
    exact lawful.spares.kept process different other held
  · intro process other foreign held
    rw [files_surrender]
    exact lawful.spares.fixed process other foreign (holds _ _ held)
  · rw [files_surrender]
    exact lawful.files
  · rw [Owned, losses_surrender]
    exact lawful.owned
  · intro process other held
    obtain ⟨owner, named, same⟩ := lawful.entitled _ _ (holds _ _ held)
    refine ⟨owner, ⟨?_⟩, same⟩
    rw [files_surrender]
    exact named.named
  · intro owner names alive foreign
    have before := names_surrender names
    rw [lives] at alive
    have held := lawful.received owner before alive foreign
    rw [held_surrender, if_neg]
    · exact held
    · rintro ⟨same, mine⟩
      rw [← same, held] at mine
      rcases own with own | unnamed
      · apply foreign
        rw [Option.some.inj mine, own]
        exact same
      · obtain ⟨inode, named, -⟩ := before.named
        rw [unnamed] at named
        cases named

end Lawful

section Quiet

variable {world : LockWorld Detail} {actor process : ProcessId}
  {files : LockFiles Detail} {inode : Nat} {owner : LockOwner Detail}

theorem temporary_ne_lock : world.temporary process ≠ .lock := nofun

theorem temporary_ne (different : process ≠ actor) :
    world.temporary process ≠ world.temporary actor := by
  intro same
  exact different (LockName.temporary.inj same).1

theorem LockInvariant.quiet (invariant : world.LockInvariant)
    (lock : files.lookup .lock = world.files.lookup .lock)
    (written : ∀ inode owner, world.files.kind inode = .regular (some owner) →
      files.kind inode = .regular (some owner)) (after : FilesInvariant files)
    (drafts : ∀ process, process ≠ actor → ∀ inode content,
      world.Drafts process inode content →
      (world.withFiles files).Drafts process inode content) :
    Lawful world (world.withFiles files) actor where
  spares := ⟨fun _ _ => rfl, fun _ => id, written, drafts, fun _ _ _ holds =>
    holds.held, fun _ _ _ holds => ⟨⟨holds.alive, holds.held⟩, lock⟩⟩
  files := after
  owned := invariant.owned
  entitled := by
    intro process token holds
    obtain ⟨owner, ⟨inode, named, content⟩, same⟩ :=
      invariant.entitled process token ⟨holds.alive, holds.held⟩
    exact ⟨owner, ⟨inode, lock.trans named, written _ _ content⟩, same⟩
  received := by
    rintro owner ⟨inode, named, content⟩ alive foreign
    have before : world.files.lookup .lock = some inode :=
      lock.symm.trans named
    obtain ⟨found, known⟩ := invariant.files.written inode before
    have same := (written _ _ known).symm.trans content
    cases same
    exact invariant.received _ ⟨inode, before, known⟩ alive foreign

theorem create_lawful (invariant : world.LockInvariant) {mode : Nat} (created :
    world.files.createNew (world.temporary actor) none mode = .ok files) :
    Lawful world (world.withFiles files) actor ∧ (world.withFiles files).Drafts
    actor world.files.next none := by
  obtain ⟨-, kinds, absent, names⟩ := createNew_eq_ok created
  have fresh : ∀ {name : LockName} {inode : Nat},
      world.files.lookup name = some inode → inode ≠ world.files.next :=
    fun found => Nat.ne_of_lt (lt_next found)
  constructor
  · apply invariant.quiet
    · rw [names, if_neg temporary_ne_lock.symm]
    · intro inode owner content
      rw [kinds inode (invariant.files.old content)]
      exact content
    · exact createNew_files invariant.files temporary_ne_lock created
    · rintro process different inode content ⟨named, found, only⟩
      refine ⟨?_, ?_, ?_⟩
      · show files.lookup (world.temporary process) = some inode
        rw [names, if_neg (temporary_ne different)]
        exact named
      · exact (kinds inode (lt_next named)).trans found
      · intro name known
        rw [withFiles, names] at known
        split at known
        case isTrue => exact absurd (Option.some.inj known).symm (fresh named)
        case isFalse => exact only name known
  · refine ⟨?_, ?_, ?_⟩
    · show files.lookup (world.temporary actor) = _
      rw [names, if_pos rfl]
    · show files.kind _ = _
      rw [kind_createNew created, if_pos rfl]
    · intro name known
      rw [withFiles, names] at known
      split at known
      case isTrue same => exact same
      case isFalse => exact absurd rfl (fresh known)

theorem write_lawful (invariant : world.LockInvariant)
    (drafts : world.Drafts actor inode none) : Lawful world
    (world.withFiles (world.files.write inode (some owner))) actor ∧
    (world.withFiles (world.files.write inode (some owner))).Drafts actor inode
    (some owner) := by
  constructor
  · apply invariant.quiet
    · rfl
    · intro other found content
      have unlike : other ≠ inode := by
        rintro rfl
        rw [drafts.content] at content
        cases content
      rw [kind_write_of_ne _ unlike]
      exact content
    · exact write_files invariant.files temporary_ne_lock drafts.content
        drafts.only
    · rintro process different other content ⟨named, found, only⟩
      refine ⟨named, ?_, only⟩
      have unlike : other ≠ inode := by
        rintro rfl
        exact temporary_ne different (drafts.only _ named)
      exact (kind_write_of_ne _ unlike _).trans found
  · exact ⟨drafts.named, kind_write_self _ _ _, drafts.only⟩

theorem changeMode_lawful (invariant : world.LockInvariant) (mode : Nat) :
    Lawful world (world.withFiles (world.files.changeMode inode mode)) actor :=
    by
  apply invariant.quiet
  · rfl
  · intro other found content
    rw [kind_changeMode]
    exact content
  · exact shrinks_files (changeMode_shrinks _ mode) invariant.files
  · rintro process - other content ⟨named, found, only⟩
    exact ⟨named, (kind_changeMode _ _ _ _).trans found, only⟩

theorem removeFile_lawful (invariant : world.LockInvariant) {name : LockName}
    (unlocked : name ≠ .lock) (unused : ∀ process, process ≠ actor →
      ∀ inode content, world.Drafts process inode content →
      name ≠ world.temporary process) :
    Lawful world (world.removeFile name) actor := by
  rw [removeFile]
  split
  case h_2 => exact invariant.lawful actor
  case h_1 files removed =>
    have shrinks := remove_shrinks removed
    obtain ⟨-, kinds, names⟩ := remove_eq_ok removed
    apply invariant.quiet
    · rw [names, if_neg unlocked.symm]
    · intro inode owner content
      rw [kinds]
      exact content
    · exact shrinks_files shrinks invariant.files
    · intro process different inode content drafts
      have kept := unused process different inode content drafts
      refine ⟨?_, (kinds inode).trans drafts.content, ?_⟩
      · show files.lookup (world.temporary process) = _
        rw [names, if_neg kept.symm]
        exact drafts.named
      · exact fun other known => drafts.only other (shrinks.names _ _ known)

end Quiet

section Changes

variable {world : LockWorld Detail} {actor process : ProcessId}
  {files : LockFiles Detail} {inode : Nat} {owner : LockOwner Detail}

theorem held_entitle {token : LockToken} :
    (world.entitle actor token).held process = if process =
    actor then some token else world.held process := by
  rw [entitle]
  by_cases same : process = actor
  · simp [same]
  · simp [same]

theorem link_lawful (invariant : world.LockInvariant) (own : Own actor owner)
    (drafts : world.Drafts actor inode (some owner))
    (linked : world.files.link (world.temporary actor) .lock = .ok files) :
    Lawful world ((world.withFiles files).entitle actor owner.token) actor :=
    by
  obtain ⟨found, same, absent, -, kinds, names⟩ := link_eq_ok linked
  rw [drafts.named] at same
  cases same
  have nobody : ∀ process token, ¬ world.Holds process token := by
    intro process token holds
    obtain ⟨other, named⟩ := invariant.named holds
    rw [absent] at named
    cases named
  have genuine : owner.pid = owner.token.process := own.pid.trans own.token.symm
  have published :
      ((world.withFiles files).entitle actor owner.token).Names owner := by
    refine ⟨inode, ?_, (kinds inode).trans drafts.content⟩
    show files.lookup .lock = _
    rw [names, if_pos rfl]
  have mine : ∀ process token,
      ((world.withFiles files).entitle actor owner.token).Holds process token →
      process = actor ∧ token = owner.token := by
    intro process token holds
    have held := holds.held
    rw [held_entitle] at held
    split at held
    case isTrue same => exact ⟨same, (Option.some.inj held).symm⟩
    case isFalse => exact absurd ⟨holds.alive, held⟩ (nobody process token)
  refine ⟨⟨fun _ _ => rfl, fun _ => id, ?_, ?_, ?_, ?_⟩, ?_,
    invariant.owned, ?_, ?_⟩
  · intro other content known
    exact (kinds other).trans known
  · rintro process different other content ⟨named, known, only⟩
    have unlike : inode ≠ other := by
      rintro rfl
      exact temporary_ne different (drafts.only _ named)
    refine ⟨?_, (kinds other).trans known, ?_⟩
    · show files.lookup (world.temporary process) = _
      rw [names, if_neg temporary_ne_lock]
      exact named
    · intro name known
      rw [entitle, withFiles, names] at known
      split at known
      case isTrue => exact absurd (Option.some.inj known) unlike
      case isFalse => exact only name known
  · intro process _ token holds
    exact absurd holds (nobody process token)
  · intro process token foreign holds
    obtain ⟨-, rfl⟩ := mine process token holds
    exact absurd own.token foreign
  · exact link_files invariant.files drafts.named drafts.content genuine linked
  · intro process token holds
    obtain ⟨rfl, rfl⟩ := mine process token holds
    exact ⟨owner, published, own.pid, rfl⟩
  · intro other named _ foreign
    rw [← published.unique named] at foreign
    exact absurd genuine foreign

theorem held_transfer : (world.transfer actor owner).held process =
    if process = owner.pid then some owner.token else if process = actor ∧
    world.held actor = some owner.token then none else world.held process := by
  rw [transfer, held_entitle, held_surrender]

theorem replace_lawful (invariant : world.LockInvariant)
    (alive : world.alive actor = true)
    (replaces : world.Replaces actor owner.token)
    (drafts : world.Drafts actor inode (some owner))
    (renamed : world.files.rename (world.temporary actor) .lock = .ok files) :
    Lawful world
    (((world.recordLoss actor).withFiles files).transfer actor owner) actor :=
    by
  obtain ⟨found, same, -, kinds, names⟩ := rename_eq_ok renamed
  rw [drafts.named] at same
  cases same
  have mine : ∀ process token, world.Holds process token →
      process = actor ∧ token = owner.token := fun process token holds =>
    invariant.single holds ⟨alive, replaces.held⟩
  have kinship :
      (((world.recordLoss actor).withFiles files).transfer actor
        owner).files = files := files_surrender _
  have record :
      (((world.recordLoss actor).withFiles files).transfer actor
        owner).processes = world.processes := processes_surrender _
  have published :
      (((world.recordLoss actor).withFiles files).transfer actor owner).Names
      owner := by
    refine ⟨inode, ?_, ?_⟩
    · rw [kinship, names, if_pos rfl]
    · rw [kinship, kinds]
      exact drafts.content
  have only : ∀ process token,
      (((world.recordLoss actor).withFiles files).transfer actor owner).Holds
      process token → process = owner.pid ∧ token = owner.token := by
    intro process token holds
    have held := holds.held
    rw [held_transfer] at held
    split at held
    case isTrue same => exact ⟨same, (Option.some.inj held).symm⟩
    case isFalse =>
      split at held
      case isTrue => cases held
      case isFalse other =>
        have lives := holds.alive
        rw [LockWorld.alive, record] at lives
        obtain ⟨rfl, -⟩ := mine process token ⟨lives, held⟩
        exact absurd ⟨rfl, replaces.held⟩ other
  refine ⟨⟨?_, ?_, ?_, ?_, ?_, ?_⟩, ?_, ?_, ?_, ?_⟩
  · intro process _
    rw [record]
  · intro process dead
    rw [LockWorld.alive, record]
    exact dead
  · intro other content known
    rw [kinship, kinds]
    exact known
  · rintro process different other content ⟨named, known, single⟩
    have unlike : inode ≠ other := by
      rintro rfl
      exact temporary_ne different (drafts.only _ named)
    have temporaries : (((world.recordLoss actor).withFiles files).transfer
        actor owner).temporary process = world.temporary process := by
      rw [temporary, record, temporary]
    refine ⟨?_, ?_, ?_⟩
    · rw [temporaries, kinship, names, if_neg temporary_ne_lock,
        if_neg (temporary_ne different)]
      exact named
    · rw [kinship, kinds]
      exact known
    · intro name moved
      rw [kinship, names] at moved
      rw [temporaries]
      split at moved
      case isTrue => exact absurd (Option.some.inj moved) unlike
      case isFalse =>
        split at moved
        case isTrue => cases moved
        case isFalse => exact single name moved
  · intro process different token holds
    exact absurd (mine process token holds).1 different
  · intro process token foreign holds
    obtain ⟨-, rfl⟩ := only process token holds
    exact absurd replaces.own foreign
  · rw [kinship]
    exact rename_files invariant.files drafts.named drafts.content drafts.only
      renamed
  · rw [Owned, show (((world.recordLoss actor).withFiles files).transfer actor
      owner).losses = (world.recordLoss actor).losses from losses_surrender _]
    apply invariant.owned.recordLoss
    intro other named
    obtain ⟨holder, before, same, -⟩ :=
      invariant.entitled _ _ ⟨alive, replaces.held⟩
    rw [← before.unique named]
    exact .inl same
  · intro process token holds
    obtain ⟨rfl, rfl⟩ := only process token holds
    exact ⟨owner, published, rfl, rfl⟩
  · intro other named _ _
    rw [← published.unique named, held_transfer, if_pos rfl]

theorem erase_lawful (invariant : world.LockInvariant)
    {next : LockWorld Detail}
    (removed : world.files.remove .lock = .ok next.files)
    (processes : next.processes = world.processes) (owned : next.Owned)
    (nobody : ∀ process token, ¬ next.Holds process token) (kept : ∀ process,
      process ≠ actor → ∀ token, world.Holds process token →
      next.held process = some token) : Lawful world next actor := by
  obtain ⟨-, kinds, names⟩ := remove_eq_ok removed
  have shrinks := remove_shrinks removed
  refine ⟨⟨?_, ?_, ?_, ?_, kept, ?_⟩, shrinks_files shrinks invariant.files, owned,
    ?_, ?_⟩
  · intro process _
    rw [processes]
  · intro process dead
    rw [LockWorld.alive, processes]
    exact dead
  · intro inode owner content
    rw [kinds]
    exact content
  · rintro process - inode content ⟨named, found, only⟩
    have same : next.temporary process = world.temporary process := by
      rw [temporary, processes, temporary]
    refine ⟨?_, (kinds inode).trans found, ?_⟩
    · rw [same, names, if_neg temporary_ne_lock]
      exact named
    · intro name known
      rw [same]
      exact only name (shrinks.names _ _ known)
  · exact fun process token _ holds => absurd holds (nobody process token)
  · exact fun process token holds => absurd holds (nobody process token)
  · rintro owner ⟨inode, named, -⟩
    rw [names, if_pos rfl] at named
    cases named

theorem unlink_files (names : world.Names owner) : ∃ files,
    world.files.remove .lock = .ok files ∧
    world.unlink actor = (world.recordLoss actor).withFiles files := by
  obtain ⟨inode, named, content⟩ := names.named
  have removed : world.files.remove .lock =
      .ok ((world.files.touch inode).erase .lock) := by
    rw [Filesystem.remove, named]
    simp only [content]
  refine ⟨_, removed, ?_⟩
  rw [unlink, removeFile]
  split
  case h_1 files same =>
    rw [show (world.recordLoss actor).files = world.files from rfl, removed]
      at same
    cases same
    rfl
  case h_2 error same =>
    rw [show (world.recordLoss actor).files = world.files from rfl, removed]
      at same
    cases same

end Changes

end LockWorld

end MachineBridge.Locks
