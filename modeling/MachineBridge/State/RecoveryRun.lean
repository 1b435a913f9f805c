import MachineBridge.State.PreservationSteps

/-!
# Recovery from invalid states

Loads and saves may crash, and the state may be made invalid, restored or
removed between any two operations.  The bytes of an invalid state which was
taken away stay in its backup while three later backups do not exist; no load
uses an invalid state or takes its absence for a first start.
-/

namespace MachineBridge.State

open Foundation Foundation.Filesystem

theorem backup_ne_state (number : Nat) :
    StateName.backup number ≠ .state := nofun

theorem temporary_ne_state (number : Nat) :
    StateName.temporary number ≠ .state := nofun

theorem marker_ne_state : StateName.recoveryMarker ≠ .state := nofun

structure OnlyState (files next : StateFiles) : Prop where
  names : ∀ name, name ≠ .state → next.lookup name = files.lookup name
  kinds : ∀ name inode, name ≠ .state → files.lookup name = some inode →
    next.kind inode = files.kind inode
  single : ∀ inode, next.lookup .state = some inode → next.Alone .state inode

namespace OnlyState

variable {files next : StateFiles} {temporaries backups : Nat}
  {made : List (Nat × Nat)} {preserved : List Preserved}

section

variable (only : OnlyState files next)
include only

theorem keeps : KeepsBackups files next :=
  ⟨fun number => only.names (.backup number) (backup_ne_state number),
    fun number inode found =>
      only.kinds (.backup number) inode (backup_ne_state number) found⟩

theorem has (name : StateName)
    (different : name ≠ .state) : Has next name ↔ Has files name := by
  rw [Has, Has, only.names name different]

theorem alone (name : StateName) (different : name ≠ .state) {inode : Nat}
    (before : files.Alone name inode) : next.Alone name inode := by
  have named : next.lookup name = some inode :=
    (only.names name different).trans before.named
  refine ⟨named, ?_⟩
  intro other found
  by_cases same : other = .state
  · subst same
    exact absurd ((only.single inode found).only name named) different
  · rw [only.names other same] at found
    exact before.only other found

theorem stored (before : Stored files temporaries backups made preserved) :
    Stored next temporaries backups made preserved := by
  apply before.beside only.keeps _ only.single
  intro number has
  exact before.used number
    ((only.has (.temporary number) (temporary_ne_state number)).mp has)

theorem backed {detection : Detection}
    (before : detection.Backed files) : detection.Backed next := by
  obtain ⟨inode, alone, content⟩ := before
  have other := backup_ne_state detection.backup
  exact ⟨inode, only.alone (.backup detection.backup) other alone,
    (only.kinds (.backup detection.backup) inode other alone.named).trans
      content⟩

end

end OnlyState

namespace StateWorld

variable {world next : StateWorld}

theorem PhaseReady.other {phase : StatePhase} (ready : world.PhaseReady phase)
    (only : OnlyState world.files next.files)
    (temporaries : next.temporaries = world.temporaries)
    (backups : next.backups = world.backups) (made : next.made = world.made)
    (preserved : next.preserved = world.preserved)
    (placed : world.Placed → next.Placed)
    (undetected : world.detected = false → next.detected = false)
    (reader : ∀ reader, world.ReaderReady reader → next.ReaderReady reader) :
    next.PhaseReady phase := by
  have other : world.temporary ≠ .state := temporary_ne_state _
  have temporary : next.temporary = world.temporary := by
    rw [StateWorld.temporary, temporaries, StateWorld.temporary]
  have settled : world.Settled → next.Settled :=
    fun before => ⟨placed before.1, undetected before.2⟩
  have drafts : ∀ draft, world.DraftReady draft → next.DraftReady draft := by
    intro draft before
    cases draft with
    | backup detection =>
      rw [DraftReady, backups, preserved]
      exact before
    | marker detection => trivial
    | state state => exact before
  have markers : ∀ use, world.MarkerUseReady use →
      next.MarkerUseReady use := by
    intro use before
    cases use with
    | beginLoad => trivial
    | endSave => exact settled before
  cases phase with
  | idle => trivial
  | findingMarker use | protectingMarker use
  | readingMarker use => exact markers use ready
  | findingState recovery =>
    intro without has
    exact ready without ((only.has .recoveryMarker marker_ne_state).mp has)
  | openingState recovery
  | protectingState recovery inode => exact placed ready
  | reading recovery phase => exact ⟨placed ready.1, reader phase ready.2⟩
  | creating draft => exact drafts draft ready
  | writing draft inode =>
    refine ⟨drafts draft ready.1, ?_⟩
    rw [temporary]
    exact only.alone world.temporary other ready.2
  | publishing draft =>
    obtain ⟨before, inode, alone, written⟩ := ready
    refine ⟨drafts draft before, inode, ?_, ?_⟩
    · rw [temporary]
      exact only.alone world.temporary other alone
    · cases draft with
      | backup detection =>
        have kinds := only.kinds world.temporary inode other alone.named
        exact kinds.trans written
      | marker detection => trivial
      | state state => trivial
  | unstaging detection =>
    obtain ⟨before, inode, named, staged, content, others⟩ := ready
    have found : next.files.lookup (.backup detection.backup) = some inode :=
      (only.names (.backup detection.backup) (backup_ne_state _)).trans named
    refine ⟨?_, inode, found, ?_, ?_, ?_⟩
    · rw [backups, preserved]
      exact before
    · rw [temporary]
      have names := only.names world.temporary other
      exact names.trans staged
    · have kinds := only.kinds (.backup detection.backup) inode
        (backup_ne_state _) named
      exact kinds.trans content
    · intro name leads
      by_cases same : name = .state
      · subst same
        have alone := only.single inode leads
        exact absurd (alone.only _ found) (backup_ne_state _)
      · rw [only.names name same] at leads
        rw [temporary]
        exact others name leads
  | comparing detection | unlinking detection =>
    refine ⟨?_, only.backed ready.2⟩
    rw [backups, preserved]
    exact ready.1
  | discarding detection =>
    rw [PhaseReady, backups, preserved]
    exact ready
  | protectingBackup detection => exact only.backed ready
  | listing detection => trivial
  | pruning detection rest =>
    rw [PhaseReady, made, preserved]
    exact ready
  | protectingNewMarker => trivial
  | comparingMarker completion snapshot
  | unlinkingMarker completion => exact settled ready

theorem overwrite_files (invariant : world.Invariant) (content : StateContent)
    (inPlace : Bool) (now : Nat) : ∃ files inode,
    world.overwrite content inPlace now = world.withFiles files ∧
    OnlyState world.files files ∧ files.lookup .state = some inode ∧
    files.kind inode = .regular ⟨content, now⟩ ∧ ∀ other, other ≠ inode →
    files.kind other = world.files.kind other := by
  have created : OnlyState world.files
      (world.files.create .state (.regular ⟨content, now⟩) 0o600) := by
    refine ⟨fun name different => ?_, fun name inode different found => ?_,
      fun inode found => ⟨found, fun other one => ?_⟩⟩
    · rw [lookup_create, if_neg different]
    · exact kind_create_of_lt _ (lt_next found) _ _ _
    · rw [lookup_create, if_pos rfl] at found
      cases found
      rw [lookup_create] at one
      split at one
      case isTrue same => exact same
      case isFalse => exact absurd (lt_next one) (Nat.lt_irrefl _)
  have fresh :
      (world.files.create .state (.regular ⟨content, now⟩) 0o600).lookup .state
      = some world.files.next := by
    rw [lookup_create, if_pos rfl]
  rw [overwrite]
  split
  case h_1 inode found =>
    split
    · have alone := invariant.stored.state inode found
      refine ⟨_, inode, rfl, ⟨fun name different => rfl, ?_, ?_⟩, found,
        kind_write_self _ inode _, ?_⟩
      · intro name other different there
        apply kind_write_of_ne
        rintro rfl
        exact different (alone.only name there)
      · intro other there
        exact ⟨there, (invariant.stored.state other there).only⟩
      · intro other different
        exact kind_write_of_ne _ different _
    · exact ⟨_, _, rfl, created, fresh, kind_create_self _ _ _ _,
        fun other old => kind_create_of_ne _ old _ _ _⟩
  · exact ⟨_, _, rfl, created, fresh, kind_create_self _ _ _ _,
      fun other old => kind_create_of_ne _ old _ _ _⟩

theorem putBack_invariant (invariant : world.Invariant)
    {content : StateContent} {current : Bool}
    (honest : ∀ state, content = .json state → state.isCurrent = current)
    (inPlace : Bool) (now : Nat) :
    ((world.overwrite content inPlace now).putBack current).Invariant := by
  obtain ⟨files, inode, same, only, found, known, kinds⟩ :=
    overwrite_files invariant content inPlace now
  rw [same]
  have present : Has files .state := ⟨inode, found⟩
  have marker : Has world.files .recoveryMarker → Has files .recoveryMarker :=
    (only.has .recoveryMarker marker_ne_state).mpr
  have detected : (world.detected && !current) = true → world.detected = true ∧
      current = false := by
    rw [Bool.and_eq_true, Bool.not_eq_true']
    exact id
  have taken : (world.taken && !current) = true → world.taken = true ∧
      current = false := by
    rw [Bool.and_eq_true, Bool.not_eq_true']
    exact id
  refine ⟨only.stored invariant.stored, ⟨fun _ => .inl present, ?_, ?_,
    invariant.guarded.outcomes⟩, ?_⟩
  · intro holds
    obtain ⟨before, invalid⟩ := taken holds
    obtain ⟨knew, marked⟩ := invariant.guarded.taken before
    refine ⟨?_, marked.imp marker id⟩
    change (world.detected && !current) = true
    rw [knew, invalid]
    rfl
  · rintro holds ⟨one, state, modified, there, content', valid⟩
    obtain ⟨-, invalid⟩ := detected holds
    change files.lookup .state = some one at there
    rw [found] at there
    cases there
    change files.kind inode = _ at content'
    rw [known] at content'
    have equal := congrArg StoredFile.content (FileKind.regular.inj content')
    rw [honest state equal, invalid] at valid
    cases valid
  · refine PhaseReady.other invariant.ready only rfl rfl rfl rfl ?_ ?_ ?_
    · intro _ _
      exact present
    · intro undetected
      change (world.detected && !current) = false
      rw [undetected]
      rfl
    · intro reader before
      cases reader with
      | reading identity =>
        intro state modified content' valid
        change files.kind identity.inode = _ at content'
        change (world.detected && !current) = false
        by_cases written : identity.inode = inode
        · rw [written, known] at content'
          have equal := congrArg StoredFile.content
            (FileKind.regular.inj content')
          rw [honest state equal] at valid
          rw [valid]
          exact Bool.and_false _
        · rw [kinds _ written] at content'
          rw [before state modified content' valid]
          rfl
      | opening => trivial
      | inspecting inode => trivial
      | locating identity => trivial

theorem externalRemove_invariant (invariant : world.Invariant) :
    world.externalRemove.Invariant := by
  rw [externalRemove]
  split
  · exact invariant
  · obtain ⟨files, same, shrinks, others, -⟩ := world.removeFile_files .state
    rw [same]
    have only : OnlyState world.files files := by
      refine ⟨others, fun name inode _ _ => shrinks.kinds inode, ?_⟩
      intro inode found
      apply Shrinks.alone shrinks _ found
      exact invariant.stored.state inode (shrinks.names _ _ found)
    refine ⟨only.stored invariant.stored, ⟨nofun, ?_, ?_,
      invariant.guarded.outcomes⟩, ?_⟩
    · intro taken
      obtain ⟨detected, marked⟩ := invariant.guarded.taken taken
      have marker := only.has .recoveryMarker marker_ne_state
      exact ⟨detected, marked.imp marker.mpr id⟩
    · rintro detected ⟨inode, state, modified, found, content, current⟩
      apply invariant.guarded.detected detected
      exact ⟨inode, state, modified, shrinks.names _ _ found,
        (shrinks.kinds inode).symm.trans content, current⟩
    · refine PhaseReady.other invariant.ready only rfl rfl rfl rfl ?_ ?_ ?_
      · intro _ existed
        cases existed
      · exact id
      · intro reader before
        cases reader with
        | reading identity =>
          intro state modified content current
          exact before state modified
            ((shrinks.kinds identity.inode).symm.trans content) current
        | opening => trivial
        | inspecting inode => trivial
        | locating identity => trivial

theorem advance_invariant (invariant : world.Invariant) (now : Nat) :
    (world.advance now).Invariant := by
  have ready := invariant.ready
  have marked : ∀ {phase}, world.phase = phase → phase.unmarked = false →
      world.phase.unmarked = false := by
    intro phase same before
    rw [same]
    exact before
  rw [advance]
  cases phase : world.phase <;> rw [phase] at ready
  case idle => exact invariant
  case findingMarker =>
    exact findMarker_invariant invariant (marked phase rfl) ready
  case protectingMarker =>
    exact protectMarker_invariant invariant (marked phase rfl) ready
  case readingMarker =>
    exact readMarker_invariant invariant (marked phase rfl) ready
  case findingState =>
    exact findState_invariant invariant (marked phase rfl) ready
  case openingState =>
    exact openState_invariant invariant (marked phase rfl) ready
  case protectingState =>
    exact protectState_invariant invariant (marked phase rfl) ready
  case reading =>
    exact readState_invariant invariant (marked phase rfl) ready.1 ready.2
  case creating => exact create_invariant invariant phase ready
  case writing => exact write_invariant invariant phase ready.1 ready.2 now
  case publishing =>
    obtain ⟨before, inode, alone, written⟩ := ready
    exact publish_invariant invariant phase before alone written
  case unstaging =>
    obtain ⟨before, inode, named, staged, content, only⟩ := ready
    exact unstage_invariant invariant (marked phase rfl) before named staged
      content only
  case comparing =>
    exact compare_invariant invariant (marked phase rfl) ready.1 ready.2
  case unlinking =>
    exact unlinkState_invariant invariant (marked phase rfl) ready.1 ready.2
  case discarding => exact discard_invariant invariant (marked phase rfl) ready
  case protectingBackup => exact protectBackup_invariant invariant ready
  case listing =>
    apply invariant.enter (fun _ => rfl)
    intro info member kept preserved same
    exact prunable_superseded invariant member preserved same
  case pruning => exact prune_invariant invariant ready
  case protectingNewMarker =>
    exact protectNewMarker_invariant invariant (marked phase rfl)
  case comparingMarker =>
    exact compareMarker_invariant invariant (marked phase rfl) ready
  case unlinkingMarker =>
    exact unlinkMarker_invariant invariant (marked phase rfl) ready

/-- No call crashes after it took an invalid state and before its marker. -/
def Marks (world : StateWorld) (event : StateEvent) : Prop :=
  event = .crash → world.phase.unmarked = false

instance (world : StateWorld) (event : StateEvent) :
    Decidable (world.Marks event) :=
  inferInstanceAs (Decidable (_ → _))

theorem step_invariant (world : StateWorld) (event : StateEvent)
    (marks : world.Marks event) (invariant : world.Invariant) :
    (world.step event).Invariant := by
  cases event with
  | load =>
    rw [step]
    split
    case h_1 phase =>
      refine invariant.enter ?_ trivial
      rw [phase]
      exact nofun
    · exact invariant
  | save state =>
    rw [step]
    split
    case h_1 phase =>
      split
      case isTrue current =>
        refine invariant.enter ?_ current
        rw [phase]
        exact nofun
      case isFalse =>
        apply invariant.fail
        rw [phase]
        rfl
    · exact invariant
  | advance now => exact advance_invariant invariant now
  | crash =>
    rw [step]
    split
    · exact invariant
    · refine invariant.enter ?_ trivial
      rw [marks rfl]
      exact nofun
  | corrupt bytes inPlace now =>
    apply putBack_invariant invariant
    intro state same
    cases same
  | restore state inPlace now =>
    apply putBack_invariant invariant
    intro other same
    cases same
    rfl
  | remove => exact externalRemove_invariant invariant
  | clean number =>
    rw [step]
    split
    case h_1 phase =>
      obtain ⟨files, same, shrinks, others, -⟩ :=
        world.removeFile_files (.temporary number)
      rw [same]
      refine ⟨invariant.stored.shrinks shrinks ?_,
        invariant.guarded.shrinks shrinks ?_ ?_, ?_⟩
      · intro kept member spared
        exact others (.backup kept.backup) nofun
      · exact others .state nofun
      · exact others .recoveryMarker nofun
      · change PhaseReady _ world.phase
        rw [phase]
        trivial
    · exact invariant

theorem initial_invariant : ({} : StateWorld).Invariant := by
  refine ⟨⟨?_, nofun, nofun, nofun, nofun⟩, ⟨nofun, nofun, nofun, nofun⟩,
    trivial⟩
  rintro number ⟨inode, found⟩
  cases found

/-- What was preserved stays, and every load was fair. -/
structure Recovers (world : StateWorld) : Prop where
  preserved : ∀ kept ∈ world.preserved,
    kept.Kept world.files ∨ kept.Superseded world.made
  thrown : ∀ outcome ∈ world.outcomes, outcome.detected = true →
    ∀ state, outcome.result ≠ .loaded state
  fresh : ∀ outcome ∈ world.outcomes, outcome.result = .fresh →
    outcome.existed = false ∧ outcome.taken = false

theorem Invariant.recovers (invariant : world.Invariant) : world.Recovers where
  preserved := invariant.stored.safe
  thrown := by
    intro outcome member detected state result
    have fair := invariant.guarded.outcomes outcome member
    rw [fair.loaded state result] at detected
    cases detected
  fresh := by
    intro outcome member result
    exact (invariant.guarded.outcomes outcome member).fresh result

theorem run_recovers {events : List StateEvent}
    (marks : Meets step Marks {} events) : (run step {} events).Recovers := by
  apply Invariant.recovers
  refine run_induction_of_meets ?_ initial_invariant marks
  intro world event
  exact step_invariant world event

/-- A load, as far as it gets. -/
def loading (now : Nat) : List StateEvent :=
  .load :: List.replicate 30 (.advance now)

/-- The state is made invalid, and a load finds it. -/
def corruption (now : Nat) : List StateEvent :=
  .corrupt [now.toUInt16] false now :: loading now

def currentState : WorkspaceState where
  schemaVersion := schemaVersion
  matchesEnvelope := true
  worker := 7

/-- The state is made invalid and put back. -/
def recoveredEvents : List StateEvent :=
  corruption 1 ++ loading 2 ++ .restore currentState false 3 :: loading 4

theorem recoveredEvents_recovers : (run step {} recoveredEvents).Recovers := by
  apply run_recovers
  decide +kernel

def fourCorruptions : List StateEvent :=
  corruption 1 ++ corruption 2 ++ corruption 3 ++ corruption 4

/-- The process crashes when the invalid state is gone. -/
def forgottenEvents : List StateEvent :=
  .corrupt [1] false 0 :: .load :: List.replicate 14 (.advance 1) ++
    .crash :: loading 2

/-- The first of four invalid states is forgotten, and a crash lets a load take
the state for a new one. -/
theorem corruptions_forgotten :
    (¬ ∀ kept ∈ (run step {} fourCorruptions).preserved,
      kept.Kept (run step {} fourCorruptions).files) ∧
    ∃ outcome ∈ (run step {} forgottenEvents).outcomes,
    outcome.result = .fresh ∧ outcome.existed = true := by
  constructor
  · intro kept
    obtain ⟨inode, found, -⟩ := kept ⟨[1], 0, 1⟩ (by decide +kernel)
    have absent : (run step {} fourCorruptions).files.lookup (.backup 0) =
        none := by decide +kernel
    rw [absent] at found
    cases found
  · decide +kernel

end StateWorld

end MachineBridge.State
