import MachineBridge.State.WorkspaceState

/-!
# What a workspace keeps

A backup of an invalid state stays until three others which are as late were
made.  A state which existed is still there, or a marker says that it was
invalid, or the call which took it away has not yet written the marker.
-/

namespace MachineBridge.State

open Foundation Foundation.Filesystem

def Has (files : StateFiles) (name : StateName) : Prop :=
  ∃ inode, files.lookup name = some inode

/-- The invalid state is gone, and the marker is not yet written. -/
def StatePhase.unmarked : StatePhase → Bool
  | .protectingBackup _ => true
  | .listing _ => true
  | .pruning _ _ => true
  | .creating (.marker _) => true
  | .writing (.marker _) _ => true
  | .publishing (.marker _) => true
  | _ => false

/-- A backup which was preserved still has its bytes. -/
def Preserved.Kept (files : StateFiles) (preserved : Preserved) : Prop :=
  ∃ inode, files.lookup (.backup preserved.backup) = some inode ∧
    files.kind inode = .regular ⟨.invalid preserved.bytes, preserved.modified⟩

/-- Three other backups which are as late were made. -/
def Preserved.Superseded (made : List (Nat × Nat)) (preserved : Preserved) :
    Prop :=
  ∃ later : List (Nat × Nat), later.length = 3 ∧
    later.Pairwise (fun first second => first.1 ≠ second.1) ∧
    ∀ entry ∈ later, entry ∈ made ∧ entry.1 ≠ preserved.backup ∧
      preserved.modified ≤ entry.2

theorem Preserved.Superseded.cons {made : List (Nat × Nat)}
    {preserved : Preserved} (superseded : preserved.Superseded made)
    (entry : Nat × Nat) : preserved.Superseded (entry :: made) := by
  obtain ⟨later, count, distinct, known⟩ := superseded
  refine ⟨later, count, distinct, ?_⟩
  intro other member
  obtain ⟨before, different, late⟩ := known other member
  exact ⟨List.mem_cons_of_mem _ before, different, late⟩

/-- The names of the files lead where they should. -/
structure Stored (files : StateFiles) (temporaries backups : Nat)
    (made : List (Nat × Nat)) (preserved : List Preserved) : Prop where
  used : ∀ number, Has files (.temporary number) → number ≤ temporaries
  state : ∀ inode, files.lookup .state = some inode → files.Alone .state inode
  written : ∀ number inode, files.lookup (.backup number) = some inode →
    ∃ bytes modified,
      files.kind inode = .regular ⟨.invalid bytes, modified⟩ ∧
      (number, modified) ∈ made
  numbered : ∀ kept ∈ preserved, kept.backup < backups
  safe : ∀ kept ∈ preserved, kept.Kept files ∨ kept.Superseded made

def HoldsCurrent (files : StateFiles) : Prop :=
  ∃ inode state modified, files.lookup .state = some inode ∧
    files.kind inode = .regular ⟨.json state, modified⟩ ∧
    state.isCurrent = true

theorem holdsCurrent_iff {world : StateWorld} :
    world.holdsCurrent = true ↔ HoldsCurrent world.files := by
  rw [StateWorld.holdsCurrent, HoldsCurrent]
  constructor
  · intro current
    split at current
    · cases current
    case h_2 inode found =>
      split at current
      case h_1 state modified content =>
        exact ⟨inode, state, modified, found, content, current⟩
      · cases current
  · rintro ⟨inode, state, modified, found, content, current⟩
    simp only [found, content, current]

/-- No state is taken for a first start, and none is used after an invalid one
which is still there. -/
structure StateOutcome.Fair (outcome : StateOutcome) : Prop where
  fresh : outcome.result = .fresh →
    outcome.existed = false ∧ outcome.taken = false
  loaded : ∀ state, outcome.result = .loaded state → outcome.detected = false

structure Guarded (files : StateFiles) (unmarked existed detected taken : Bool)
    (outcomes : List StateOutcome) : Prop where
  existed : existed = true →
    Has files .state ∨ Has files .recoveryMarker ∨ unmarked = true
  taken : taken = true →
    detected = true ∧ (Has files .recoveryMarker ∨ unmarked = true)
  detected : detected = true → ¬ HoldsCurrent files
  outcomes : ∀ outcome ∈ outcomes, outcome.Fair

/-- The backup is complete, and nothing relies on it. -/
structure Detection.Ready (detection : Detection) (backups : Nat)
    (preserved : List Preserved) : Prop where
  numbered : detection.backup < backups
  unused : ∀ kept ∈ preserved, kept.backup ≠ detection.backup

def Detection.content (detection : Detection) : FileKind StoredFile :=
  .regular ⟨.invalid detection.bytes, detection.modified⟩

def Detection.Backed (files : StateFiles) (detection : Detection) : Prop :=
  ∃ inode, files.Alone (.backup detection.backup) inode ∧
    files.kind inode = detection.content

namespace StateWorld

variable (world : StateWorld)

/-- The state is there unless somebody else removed it. -/
def Placed : Prop := world.existed = true → Has world.files .state

/-- A current state is there. -/
def Settled : Prop := world.Placed ∧ world.detected = false

/-- What the call knows of the file which it prepares. -/
def DraftReady : Draft → Prop
  | .backup detection => detection.Ready world.backups world.preserved
  | .marker _ => True
  | .state state => state.isCurrent = true

def DraftWritten (inode : Nat) : Draft → Prop
  | .backup detection => world.files.kind inode = detection.content
  | _ => True

def MarkerUseReady : MarkerUse → Prop
  | .beginLoad => True
  | .endSave => world.Settled

def ReaderReady : ReaderPhase → Prop
  | .reading identity => ∀ state modified,
      world.files.kind identity.inode = .regular ⟨.json state, modified⟩ →
      state.isCurrent = true → world.detected = false
  | _ => True

/-- What holds before the next operation of a call. -/
def PhaseReady : StatePhase → Prop
  | .idle => True
  | .findingMarker use => world.MarkerUseReady use
  | .protectingMarker use => world.MarkerUseReady use
  | .readingMarker use => world.MarkerUseReady use
  | .findingState recovery =>
    recovery = none → ¬ Has world.files .recoveryMarker
  | .openingState _ => world.Placed
  | .protectingState _ _ => world.Placed
  | .reading _ reader => world.Placed ∧ world.ReaderReady reader
  | .creating draft => world.DraftReady draft
  | .writing draft inode =>
    world.DraftReady draft ∧ world.files.Alone world.temporary inode
  | .publishing draft => world.DraftReady draft ∧
      ∃ inode, world.files.Alone world.temporary inode ∧
        world.DraftWritten inode draft
  | .unstaging detection =>
    detection.Ready world.backups world.preserved ∧
    ∃ inode,
      world.files.lookup (.backup detection.backup) = some inode ∧
      world.files.lookup world.temporary = some inode ∧
      world.files.kind inode = detection.content ∧
      ∀ name, world.files.lookup name = some inode →
        name = .backup detection.backup ∨ name = world.temporary
  | .comparing detection =>
    detection.Ready world.backups world.preserved ∧
      detection.Backed world.files
  | .unlinking detection =>
    detection.Ready world.backups world.preserved ∧
      detection.Backed world.files
  | .discarding detection => detection.Ready world.backups world.preserved
  | .protectingBackup detection => detection.Backed world.files
  | .listing _ => True
  | .pruning _ rest => ∀ info ∈ rest, ∀ kept ∈ world.preserved,
      kept.backup = info.number → kept.Superseded world.made
  | .protectingNewMarker => True
  | .comparingMarker _ _ => world.Settled
  | .unlinkingMarker _ => world.Settled

structure Invariant : Prop where
  stored : Stored world.files world.temporaries world.backups world.made
    world.preserved
  guarded : Guarded world.files world.phase.unmarked world.existed
    world.detected world.taken world.outcomes
  ready : world.PhaseReady world.phase

end StateWorld

section Files

variable {files next : StateFiles} {temporaries backups : Nat}
  {made : List (Nat × Nat)} {preserved : List Preserved}

structure KeepsBackups (files next : StateFiles) : Prop where
  names : ∀ number, next.lookup (.backup number) =
    files.lookup (.backup number)
  kinds : ∀ number inode, files.lookup (.backup number) = some inode →
    next.kind inode = files.kind inode

theorem KeepsBackups.kept (keeps : KeepsBackups files next) {kept : Preserved}
    (held : kept.Kept files) : kept.Kept next := by
  obtain ⟨inode, found, content⟩ := held
  refine ⟨inode, ?_, ?_⟩
  · rw [keeps.names]
    exact found
  · rw [keeps.kinds _ _ found]
    exact content

theorem Stored.beside
    (stored : Stored files temporaries backups made preserved)
    (keeps : KeepsBackups files next) {bound : Nat}
    (numbered : ∀ number, Has next (.temporary number) → number ≤ bound)
    (single : ∀ inode, next.lookup .state = some inode →
      next.Alone .state inode) : Stored next bound backups made preserved where
  used := numbered
  state := single
  written := by
    intro number inode found
    rw [keeps.names] at found
    rw [keeps.kinds _ _ found]
    exact stored.written number inode found
  numbered := stored.numbered
  safe := by
    intro kept member
    rcases stored.safe kept member with held | superseded
    · exact .inl (keeps.kept held)
    · exact .inr superseded

variable {inode : Nat}

theorem Shrinks.alone (shrinks : Shrinks files next) {name : StateName}
    (alone : files.Alone name inode) (named : next.lookup name = some inode) :
    next.Alone name inode :=
  ⟨named, fun other found => alone.only other (shrinks.names _ _ found)⟩

theorem Stored.shrinks
    (stored : Stored files temporaries backups made preserved)
    (shrinks : Shrinks files next) (spared : ∀ kept ∈ preserved,
      ¬ kept.Superseded made →
      next.lookup (.backup kept.backup) = files.lookup (.backup kept.backup)) :
    Stored next temporaries backups made preserved where
  used := by
    rintro number ⟨inode, found⟩
    exact stored.used number ⟨inode, shrinks.names _ _ found⟩
  state := by
    intro inode found
    apply Shrinks.alone shrinks _ found
    exact stored.state inode (shrinks.names _ _ found)
  written := by
    intro number inode found
    rw [shrinks.kinds]
    exact stored.written number inode (shrinks.names _ _ found)
  numbered := stored.numbered
  safe := by
    intro kept member
    by_cases superseded : kept.Superseded made
    · exact .inr superseded
    rcases stored.safe kept member with held | superseded
    · obtain ⟨inode, found, content⟩ := held
      refine .inl ⟨inode, ?_, ?_⟩
      · rw [spared kept member superseded]
        exact found
      · rw [shrinks.kinds]
        exact content
    · exact .inr superseded

theorem Stored.changeMode
    (stored : Stored files temporaries backups made preserved)
    (inode mode : Nat) : Stored (files.changeMode inode mode) temporaries
    backups made preserved := by
  apply stored.shrinks (changeMode_shrinks inode mode)
  intro kept member spared
  rfl

theorem Stored.create
    (stored : Stored files temporaries backups made preserved) {mode : Nat}
    (created : files.createNew (.temporary (temporaries + 1)) {} mode = .ok
    next) : Stored next (temporaries + 1) backups made preserved := by
  obtain ⟨-, kinds, -, names⟩ := createNew_eq_ok created
  apply stored.beside
  · refine ⟨fun number => ?_, fun number inode found => ?_⟩
    · rw [names, if_neg nofun]
    · exact kinds inode (lt_next found)
  · rintro number ⟨inode, found⟩
    rw [names] at found
    split at found
    case isTrue same =>
      cases same
      exact Nat.le_refl _
    case isFalse => exact Nat.le_succ_of_le (stored.used number ⟨inode, found⟩)
  · intro inode found
    rw [names, if_neg nofun] at found
    have alone := stored.state inode found
    refine ⟨?_, ?_⟩
    · rw [names, if_neg nofun]
      exact found
    · intro other one
      rw [names] at one
      split at one
      case isTrue =>
        cases one
        exact absurd (lt_next found) (Nat.lt_irrefl _)
      case isFalse => exact alone.only other one

theorem Stored.write (stored : Stored files temporaries backups made preserved)
    {name : StateName} (alone : files.Alone name inode)
    (unlike : ∀ number, name ≠ .backup number) (content : StoredFile) :
    Stored (files.write inode content) temporaries backups made preserved := by
  apply stored.beside
  · refine ⟨fun number => rfl, ?_⟩
    intro number other found
    apply kind_write_of_ne
    rintro rfl
    exact unlike number (alone.only _ found).symm
  · exact stored.used
  · intro other found
    have before := stored.state other found
    exact ⟨found, before.only⟩

theorem Stored.rename
    (stored : Stored files temporaries backups made preserved) {number : Nat}
    (alone : files.Alone (.temporary number) inode) {target : StateName}
    (file : target = .state ∨ target = .recoveryMarker)
    (renamed : files.rename (.temporary number) target = .ok next) :
    Stored next temporaries backups made preserved := by
  obtain ⟨renamedInode, source, -, kinds, names⟩ := rename_eq_ok renamed
  obtain rfl : inode = renamedInode := by
    rw [alone.named] at source
    exact Option.some.inj source
  have notBackup : ∀ number, StateName.backup number ≠ target := by
    rintro number rfl
    rcases file with same | same <;> cases same
  have notTemporary : ∀ number, StateName.temporary number ≠ target := by
    rintro number rfl
    rcases file with same | same <;> cases same
  have onlyTarget : ∀ name, next.lookup name = some inode → name = target := by
    intro name found
    rw [names] at found
    split at found
    case isTrue same => exact same
    case isFalse =>
      split at found
      · cases found
      case isFalse different => exact absurd (alone.only name found) different
  apply stored.beside
  · refine ⟨fun number => ?_, fun number other found => kinds other⟩
    rw [names, if_neg (notBackup number), if_neg nofun]
  · rintro other ⟨one, found⟩
    rw [names, if_neg (notTemporary other)] at found
    split at found
    · cases found
    · exact stored.used other ⟨one, found⟩
  · intro other found
    by_cases same : other = inode
    · subst same
      obtain rfl := onlyTarget .state found
      exact ⟨found, onlyTarget⟩
    · have before : files.lookup .state = some other := by
        rw [names] at found
        split at found
        case isTrue =>
          cases found
          exact absurd rfl same
        case isFalse => simpa using found
      refine ⟨found, ?_⟩
      intro name one
      rw [names] at one
      split at one
      case isTrue =>
        cases one
        exact absurd rfl same
      case isFalse =>
        split at one
        · cases one
        · exact (stored.state other before).only name one

theorem Stored.link (stored : Stored files temporaries backups made preserved)
    {number : Nat} (alone : files.Alone (.temporary number) inode)
    {detection : Detection} (content : files.kind inode = detection.content)
    (linked : files.link (.temporary number) (.backup detection.backup) = .ok
    next) : Stored next temporaries backups
    ((detection.backup, detection.modified) :: made) preserved := by
  obtain ⟨linkedInode, source, free, -, kinds, names⟩ := link_eq_ok linked
  obtain rfl : inode = linkedInode := by
    rw [alone.named] at source
    exact Option.some.inj source
  refine ⟨?_, ?_, ?_, stored.numbered, ?_⟩
  · rintro other ⟨one, found⟩
    rw [names, if_neg nofun] at found
    exact stored.used other ⟨one, found⟩
  · intro other found
    rw [names, if_neg nofun] at found
    have before := stored.state other found
    refine ⟨?_, ?_⟩
    · rw [names, if_neg nofun]
      exact found
    · intro name one
      rw [names] at one
      split at one
      case isTrue =>
        cases one
        exact nomatch alone.only _ found
      case isFalse => exact before.only name one
  · intro other one found
    rw [kinds]
    rw [names] at found
    split at found
    case isTrue same =>
      cases found
      cases same
      exact ⟨_, _, content, List.mem_cons_self⟩
    case isFalse =>
      obtain ⟨bytes, modified, holds, known⟩ := stored.written other one found
      exact ⟨bytes, modified, holds, List.mem_cons_of_mem _ known⟩
  · intro kept member
    rcases stored.safe kept member with held | superseded
    · obtain ⟨one, found, holds⟩ := held
      refine .inl ⟨one, ?_, ?_⟩
      · rw [names, if_neg]
        · exact found
        · intro same
          rw [← same, found] at free
          cases free
      · rw [kinds]
        exact holds
    · exact .inr (superseded.cons _)

end Files

end MachineBridge.State
