import MachineBridge.State.RecoverySteps

/-!
# Preserving an invalid state

A backup is complete before the state goes, it is spared while three others
which are as late do not exist, and nothing can fail between the removal of the
state and its marker.
-/

namespace MachineBridge.State

open Foundation Foundation.Filesystem List

namespace StateWorld

variable {world : StateWorld}

theorem Invariant.unused (invariant : world.Invariant) :
    world.files.lookup (.temporary (world.temporaries + 1)) = none := by
  cases found : world.files.lookup (.temporary (world.temporaries + 1)) with
  | none => rfl
  | some inode =>
    have bound := invariant.stored.used _ ⟨inode, found⟩
    exact absurd bound (Nat.not_succ_le_self _)

variable {draft : Draft} {inode : Nat} {detection : Detection}
  {info : BackupInfo}

theorem create_invariant (invariant : world.Invariant)
    (phase : world.phase = .creating draft) (ready : world.DraftReady draft) :
    (world.nextTemporary.create draft).Invariant := by
  obtain ⟨files, created⟩ : ∃ files, world.files.createNew
      (.temporary (world.temporaries + 1)) {} 0o600 = .ok files := by
    rw [createNew, invariant.unused]
    exact ⟨_, rfl⟩
  obtain ⟨-, kinds, -, names⟩ := createNew_eq_ok created
  have opened : world.nextTemporary.create draft =
      (world.nextTemporary.withFiles files).enter
      (.writing draft world.files.next) := by
    simp only [create, nextTemporary, temporary, created]
  rw [opened]
  have kept : world.phase.unmarked = true →
      (StatePhase.writing draft world.files.next).unmarked = true := by
    rw [phase]
    cases draft <;> exact id
  refine ⟨invariant.stored.create created,
    (invariant.guarded.enter kept).other ?_ ?_ ?_, ?_, ?_, ?_⟩
  · rintro ⟨inode, found⟩
    refine ⟨inode, ?_⟩
    change files.lookup .state = some inode
    rw [names, if_neg nofun]
    exact found
  · rintro ⟨inode, found⟩
    refine ⟨inode, ?_⟩
    change files.lookup .recoveryMarker = some inode
    rw [names, if_neg nofun]
    exact found
  · rintro ⟨inode, state, modified, found, content, current⟩
    change files.lookup .state = some inode at found
    rw [names, if_neg nofun] at found
    change files.kind inode = _ at content
    rw [kinds inode (lt_next found)] at content
    exact ⟨inode, state, modified, found, content, current⟩
  · cases draft <;> exact ready
  · change files.lookup (.temporary (world.temporaries + 1)) = _
    rw [names, if_pos rfl]
  · intro other found
    change files.lookup other = _ at found
    rw [names] at found
    split at found
    case isTrue same => exact same
    case isFalse => exact absurd (lt_next found) (Nat.lt_irrefl _)

theorem Invariant.write (invariant : world.Invariant) {number : Nat}
    (alone : world.files.Alone (.temporary number) inode)
    (content : StoredFile) : Guarded (world.files.write inode content)
    world.phase.unmarked world.existed world.detected world.taken
    world.outcomes := by
  refine invariant.guarded.other ?_ ?_ ?_
  · exact id
  · exact id
  · rintro ⟨one, state, modified, found, known, current⟩
    have different : one ≠ inode := by
      rintro rfl
      exact nomatch alone.only .state found
    rw [kind_write_of_ne _ different] at known
    exact ⟨one, state, modified, found, known, current⟩

theorem write_invariant (invariant : world.Invariant)
    (phase : world.phase = .writing draft inode)
    (ready : world.DraftReady draft)
    (alone : world.files.Alone world.temporary inode) (now : Nat) :
    (world.write draft inode now).Invariant := by
  have kept : world.phase.unmarked = true →
      (StatePhase.publishing (written now draft)).unmarked = true := by
    rw [phase]
    cases draft <;> exact id
  refine ⟨invariant.stored.write alone nofun _, (invariant.write alone _).enter
    kept, ?_, inode, ⟨alone.named, alone.only⟩, ?_⟩
  · cases draft with
    | backup detection => exact ⟨ready.numbered, ready.unused⟩
    | marker detection => trivial
    | state state => exact ready
  · cases draft with
    | backup detection => exact kind_write_self _ inode _
    | marker detection => trivial
    | state state => trivial

theorem linkBackup_invariant (invariant : world.Invariant)
    (marked : world.phase.unmarked = false)
    (ready : detection.Ready world.backups world.preserved)
    (alone : world.files.Alone world.temporary inode)
    (content : world.files.kind inode = detection.content) :
    (world.linkBackup detection).Invariant := by
  rw [linkBackup]
  split
  case h_1 files linked =>
    obtain ⟨linkedInode, source, free, -, kinds, names⟩ := link_eq_ok linked
    obtain rfl : inode = linkedInode := by
      rw [alone.named] at source
      exact Option.some.inj source
    refine ⟨invariant.stored.link alone content linked,
      (invariant.guarded.enter ?_).other ?_ ?_ ?_, ready, inode, ?_, ?_, ?_,
      ?_⟩
    · simp [marked]
    · rintro ⟨one, found⟩
      refine ⟨one, ?_⟩
      rw [names, if_neg nofun]
      exact found
    · rintro ⟨one, found⟩
      refine ⟨one, ?_⟩
      rw [names, if_neg nofun]
      exact found
    · rintro ⟨one, state, modified, found, known, current⟩
      rw [names, if_neg nofun] at found
      rw [kinds] at known
      exact ⟨one, state, modified, found, known, current⟩
    · change files.lookup _ = _
      rw [names, if_pos rfl]
    · change files.lookup (.temporary _) = _
      rw [names, if_neg nofun]
      exact alone.named
    · exact (kinds inode).trans content
    · intro name found
      rw [names] at found
      split at found
      case isTrue same => exact .inl same
      case isFalse => exact .inr (alone.only name found)
  · exact invariant.fail marked

theorem renameState_invariant (invariant : world.Invariant)
    {state : WorkspaceState} (marked : world.phase.unmarked = false)
    (current : state.isCurrent = true)
    (alone : world.files.Alone world.temporary inode) :
    (world.renameState state).Invariant := by
  rw [renameState]
  split
  case h_1 files renamed =>
    obtain ⟨renamedInode, source, -, kinds, names⟩ := rename_eq_ok renamed
    have placed : Has files .state :=
      ⟨renamedInode, by rw [names, if_pos rfl]⟩
    have undetected : (world.detected && !state.isCurrent) = false := by
      rw [current]
      exact Bool.and_false _
    have untaken : (world.taken && !state.isCurrent) = false := by
      rw [current]
      exact Bool.and_false _
    refine ⟨invariant.stored.rename alone (.inl rfl) renamed, ?_,
      fun _ => placed, undetected⟩
    refine ⟨fun _ => .inl placed, ?_, ?_, invariant.guarded.outcomes⟩
    · intro taken
      rw [show (world.taken && !state.isCurrent) = true from taken] at untaken
      cases untaken
    · intro detected
      rw [show (world.detected && !state.isCurrent) = true from detected]
        at undetected
      cases undetected
  · exact invariant.fail marked

theorem renameMarker_invariant (invariant : world.Invariant)
    (alone : world.files.Alone world.temporary inode) :
    world.renameMarker.Invariant := by
  obtain ⟨files, renamed⟩ := exists_rename .recoveryMarker alone.named
  have same : world.renameMarker =
      (world.withFiles files).enter .protectingNewMarker := by
    simp only [renameMarker, renamed]
  rw [same]
  obtain ⟨renamedInode, source, -, kinds, names⟩ := rename_eq_ok renamed
  have written : Has files .recoveryMarker :=
    ⟨renamedInode, by rw [names, if_pos rfl]⟩
  refine ⟨invariant.stored.rename alone (.inr rfl) renamed, ?_, trivial⟩
  refine ⟨fun _ => .inr (.inl written), ?_, ?_, invariant.guarded.outcomes⟩
  · intro taken
    exact ⟨(invariant.guarded.taken taken).1, .inl written⟩
  · rintro detected ⟨one, state, modified, found, known, current⟩
    change files.lookup .state = some one at found
    rw [names, if_neg nofun, if_neg nofun] at found
    change files.kind one = _ at known
    rw [kinds] at known
    exact invariant.guarded.detected detected
      ⟨one, state, modified, found, known, current⟩

theorem publish_invariant (invariant : world.Invariant)
    (phase : world.phase = .publishing draft) (ready : world.DraftReady draft)
    (alone : world.files.Alone world.temporary inode)
    (written : world.DraftWritten inode draft) :
    (world.publish draft).Invariant := by
  cases draft with
  | backup detection =>
    apply linkBackup_invariant invariant _ ready alone written
    rw [phase]
    rfl
  | marker detection => exact renameMarker_invariant invariant alone
  | state state =>
    apply renameState_invariant invariant _ ready alone
    rw [phase]
    rfl

theorem unstage_invariant (invariant : world.Invariant)
    (marked : world.phase.unmarked = false)
    (ready : detection.Ready world.backups world.preserved)
    (named : world.files.lookup (.backup detection.backup) = some inode)
    (staged : world.files.lookup world.temporary = some inode)
    (content : world.files.kind inode = detection.content) (only : ∀ name,
      world.files.lookup name = some inode → name = .backup detection.backup ∨
      name = world.temporary) : (world.unstage detection).Invariant := by
  obtain ⟨files, same, shrinks, others, gone⟩ :=
    world.removeFile_files world.temporary
  rw [unstage, same]
  refine ⟨invariant.stored.shrinks shrinks ?_, (invariant.guarded.enter
    ?_).shrinks shrinks ?_ ?_, ready, inode, ⟨?_, ?_⟩, ?_⟩
  · intro kept member spared
    exact others (.backup kept.backup) nofun
  · simp [marked]
  · exact others .state nofun
  · exact others .recoveryMarker nofun
  · exact (others (.backup detection.backup) nofun).trans named
  · intro name found
    rcases only name (shrinks.names _ _ found) with backup | temporary
    · exact backup
    · have absent : files.lookup world.temporary = none := by
        apply gone inode staged
        rw [content]
        rfl
      change files.lookup name = _ at found
      rw [temporary, absent] at found
      cases found
  · exact (shrinks.kinds inode).trans content

theorem compare_invariant (invariant : world.Invariant)
    (marked : world.phase.unmarked = false)
    (ready : detection.Ready world.backups world.preserved)
    (backed : detection.Backed world.files) :
    (world.compare detection).Invariant := by
  rw [compare]
  split
  · exact invariant.enter (by simp [marked]) ⟨ready, backed⟩
  · exact invariant.enter (by simp [marked]) ready

theorem unlinkState_invariant (invariant : world.Invariant)
    (marked : world.phase.unmarked = false)
    (ready : detection.Ready world.backups world.preserved)
    (backed : detection.Backed world.files) :
    (world.unlinkState detection).Invariant := by
  rw [unlinkState]
  split
  · exact invariant.enter (by simp [marked]) ready
  · obtain ⟨files, same, shrinks, others, gone⟩ :=
      world.removeFile_files .state
    rw [same]
    obtain ⟨inode, alone, content⟩ := backed
    have found : files.lookup (.backup detection.backup) = some inode :=
      (others (.backup detection.backup) nofun).trans alone.named
    have holds : files.kind inode = detection.content :=
      (shrinks.kinds inode).trans content
    have stored : Stored files world.temporaries world.backups world.made
        world.preserved := by
      apply invariant.stored.shrinks shrinks
      intro kept member spared
      exact others (.backup kept.backup) nofun
    refine ⟨{ stored with numbered := ?_, safe := ?_ }, ?_, inode,
      Shrinks.alone shrinks alone found, holds⟩
    · intro kept member
      rcases mem_cons.mp member with rfl | before
      · exact ready.numbered
      · exact stored.numbered kept before
    · intro kept member
      rcases mem_cons.mp member with rfl | before
      · exact .inl ⟨inode, found, holds⟩
      · exact stored.safe kept before
    · refine ⟨fun _ => .inr (.inr rfl), fun _ => ⟨rfl, .inr rfl⟩, ?_,
        invariant.guarded.outcomes⟩
      rintro - ⟨one, state, modified, there, known, current⟩
      change files.lookup .state = some one at there
      change files.kind one = _ at known
      have absent : files.lookup .state = none := by
        apply gone one (shrinks.names _ _ there)
        rw [← shrinks.kinds, known]
        rfl
      rw [absent] at there
      cases there

theorem discard_invariant (invariant : world.Invariant)
    (marked : world.phase.unmarked = false)
    (ready : detection.Ready world.backups world.preserved) :
    (world.discard detection).Invariant := by
  obtain ⟨files, same, shrinks, others, -⟩ :=
    world.removeFile_files (.backup detection.backup)
  rw [discard, same]
  have changed : ((world.withFiles files).enter .idle).Invariant := by
    refine ⟨invariant.stored.shrinks shrinks ?_,
      (invariant.guarded.enter ?_).shrinks shrinks ?_ ?_, trivial⟩
    · intro kept member spared
      apply others (.backup kept.backup)
      intro equal
      exact ready.unused kept member (StateName.backup.inj equal)
    · simp [marked]
    · exact others .state nofun
    · exact others .recoveryMarker nofun
  exact changed.fail rfl

theorem protectBackup_invariant (invariant : world.Invariant)
    (backed : detection.Backed world.files) : (world.protect (.backup
    detection.backup) fun world => world.enter (.listing detection)).Invariant
    := by
  obtain ⟨inode, alone, content⟩ := backed
  rw [protect_alone alone]
  · refine ⟨invariant.stored.changeMode inode 0o600,
      (invariant.guarded.enter ?_).changeMode inode 0o600, trivial⟩
    intro _
    rfl
  · rw [content]
    rfl

theorem mem_backupInfos (member : info ∈ world.backupInfos) : ∃ inode stored,
    world.files.lookup (.backup info.number) = some inode ∧
    world.files.kind inode = .regular stored ∧
    stored.modified = info.modified := by
  rw [backupInfos, mem_filterMap] at member
  obtain ⟨⟨name, inode⟩, listed, selected⟩ := member
  split at selected
  case h_1 number stored named content =>
    split at selected
    · cases selected
      obtain rfl : name = .backup number := named
      exact ⟨inode, stored, Record.get?_eq_some.mpr listed, content, rfl⟩
    · cases selected
  · cases selected

theorem backupInfos_distinct :
    world.backupInfos.Pairwise fun first second => first.number ≠
    second.number := by
  apply List.Pairwise.filterMap _ _ (pairwise_map.mp world.files.entries.nodup)
  rintro ⟨first, one⟩ ⟨second, other⟩ different
  intro info selected info' selected' same
  split at selected
  case h_1 number stored named content =>
    split at selected'
    case h_1 number' stored' named' content' =>
      split at selected
      · split at selected'
        · cases selected
          cases selected'
          apply different
          rw [named, named']
          exact congrArg StateName.backup same
        · cases selected'
      · cases selected
    · cases selected'
  · cases selected

theorem drop_superseded {sorted : List BackupInfo} {made : List (Nat × Nat)}
    (late : sorted.Pairwise BackupInfo.NoEarlier) (distinct : sorted.Pairwise
    fun first second => first.number ≠ second.number) (known : ∀ info ∈ sorted,
    (info.number, info.modified) ∈ made) (member : info ∈ sorted.drop 3)
    {kept : Preserved} (same : kept.backup = info.number) (modified :
    kept.modified = info.modified) : kept.Superseded made := by
  rw [← take_append_drop 3 sorted, pairwise_append] at late distinct
  have count : 3 ≤ sorted.length := by
    have some := length_pos_of_mem member
    rw [length_drop] at some
    omega
  refine ⟨(sorted.take 3).map fun info => (info.number, info.modified),
    ?_, pairwise_map.mpr distinct.1, ?_⟩
  · rw [length_map, length_take, Nat.min_eq_left count]
  · intro entry listed
    obtain ⟨other, before, rfl⟩ := List.mem_map.mp listed
    refine ⟨known other (mem_of_mem_take before), ?_, ?_⟩
    · rw [same]
      exact distinct.2.2 other before info member
    · rw [modified]
      exact late.2.2 other before info member

theorem prunable_superseded (invariant : world.Invariant)
    (member : info ∈ world.prunable) {kept : Preserved}
    (preserved : kept ∈ world.preserved) (same : kept.backup = info.number) :
    kept.Superseded world.made := by
  rw [prunable] at member
  have late := pairwise_insertionSort BackupInfo.NoEarlier world.backupInfos
  have permuted := perm_insertionSort BackupInfo.NoEarlier world.backupInfos
  have distinct := (permuted.pairwise_iff fun different equal =>
    different equal.symm).mpr world.backupInfos_distinct
  generalize world.backupInfos.insertionSort BackupInfo.NoEarlier = sorted at *
  have listed : ∀ other ∈ sorted, ∃ inode bytes,
      world.files.lookup (.backup other.number) = some inode ∧
      world.files.kind inode = .regular ⟨.invalid bytes, other.modified⟩ ∧
      (other.number, other.modified) ∈ world.made := by
    intro other here
    obtain ⟨inode, stored, found, content, modified⟩ :=
      mem_backupInfos (permuted.mem_iff.mp here)
    obtain ⟨bytes, written, holds, known⟩ :=
      invariant.stored.written other.number inode found
    rw [content] at holds
    cases holds
    cases modified
    exact ⟨inode, bytes, found, content, known⟩
  rcases invariant.stored.safe kept preserved with held | superseded
  · apply drop_superseded late distinct _ member same
    · obtain ⟨inode, found, content⟩ := held
      obtain ⟨one, bytes, there, holds, -⟩ :=
        listed info (mem_of_mem_drop member)
      rw [same, there] at found
      cases found
      rw [holds] at content
      exact (congrArg StoredFile.modified (FileKind.regular.inj content)).symm
    · intro other here
      obtain ⟨-, -, -, -, known⟩ := listed other here
      exact known
  · exact superseded

theorem prune_invariant (invariant : world.Invariant) {rest : List BackupInfo}
    (superseded : ∀ info ∈ rest, ∀ kept ∈ world.preserved,
      kept.backup = info.number → kept.Superseded world.made) :
    (world.prune detection rest).Invariant := by
  cases rest with
  | nil => exact invariant.enter (fun _ => rfl) trivial
  | cons info rest =>
    have later : ∀ other ∈ rest, ∀ kept ∈ world.preserved,
        kept.backup = other.number → kept.Superseded world.made :=
      fun other member => superseded other (mem_cons_of_mem _ member)
    rw [prune]
    split
    · obtain ⟨files, same, shrinks, others, -⟩ :=
        world.removeFile_files (.backup info.number)
      rw [same]
      refine ⟨invariant.stored.shrinks shrinks ?_,
        (invariant.guarded.enter ?_).shrinks shrinks ?_ ?_, later⟩
      · intro kept member spared
        apply others (.backup kept.backup)
        intro equal
        apply spared
        exact superseded info mem_cons_self kept member
          (StateName.backup.inj equal)
      · exact fun _ => rfl
      · exact others .state nofun
      · exact others .recoveryMarker nofun
    · exact invariant.enter (fun _ => rfl) later

theorem protectNewMarker_invariant (invariant : world.Invariant)
    (marked : world.phase.unmarked = false) :
    (world.protect .recoveryMarker fail).Invariant := by
  rcases protect_cases .recoveryMarker fail with same | ⟨inode, same⟩
  · rw [same]
    exact invariant.fail marked
  · rw [same]
    have changed : ((world.withFiles
        (world.files.changeMode inode 0o600)).enter .idle).Invariant := by
      refine ⟨invariant.stored.changeMode inode 0o600,
        (invariant.guarded.enter ?_).changeMode inode 0o600, trivial⟩
      simp [marked]
    exact changed.fail rfl

end StateWorld

end MachineBridge.State
