import MachineBridge.State.StateInvariant

/-!
# Steps of a load and of a save

Each operation of a call keeps the invariant.  Only a call which wrote the
marker leaves the phases in which an invalid state is gone without one.
-/

namespace MachineBridge.State

open Foundation Foundation.Filesystem

section Guards

variable {files next : StateFiles} {unmarked existed detected taken : Bool}
  {outcomes : List StateOutcome}

section

variable (guarded : Guarded files unmarked existed detected taken outcomes)
include guarded

theorem Guarded.enter {later : Bool} (kept : unmarked = true → later = true) :
    Guarded files later existed detected taken outcomes where
  existed := fun holds => (guarded.existed holds).imp id (Or.imp id kept)
  taken := fun holds =>
    ⟨(guarded.taken holds).1, (guarded.taken holds).2.imp id kept⟩
  __ := guarded

theorem Guarded.other (state : Has files .state → Has next .state)
    (marker : Has files .recoveryMarker → Has next .recoveryMarker)
    (current : HoldsCurrent next → HoldsCurrent files) :
    Guarded next unmarked existed detected taken outcomes where
  existed := fun holds => (guarded.existed holds).imp state (Or.imp marker id)
  taken := fun holds =>
    ⟨(guarded.taken holds).1, (guarded.taken holds).2.imp marker id⟩
  detected := fun holds hold => guarded.detected holds (current hold)
  outcomes := guarded.outcomes

end

theorem Guarded.changeMode
    (guarded : Guarded files unmarked existed detected taken outcomes)
    (inode mode : Nat) : Guarded (files.changeMode inode mode) unmarked existed
    detected taken outcomes := by
  refine guarded.other ?_ ?_ ?_
  · exact id
  · exact id
  rintro ⟨one, state, modified, found, content, current⟩
  rw [kind_changeMode] at content
  exact ⟨one, state, modified, found, content, current⟩

theorem Guarded.shrinks
    (guarded : Guarded files unmarked existed detected taken outcomes)
    (shrinks : Shrinks files next)
    (state : next.lookup .state = files.lookup .state)
    (marker : next.lookup .recoveryMarker = files.lookup .recoveryMarker) :
    Guarded next unmarked existed detected taken outcomes := by
  apply guarded.other
  · rintro ⟨inode, found⟩
    exact ⟨inode, state.trans found⟩
  · rintro ⟨inode, found⟩
    exact ⟨inode, marker.trans found⟩
  · rintro ⟨inode, stored, modified, found, content, current⟩
    rw [shrinks.kinds] at content
    exact ⟨inode, stored, modified, state ▸ found, content, current⟩

end Guards

theorem exists_rename {files : StateFiles} {source : StateName} {inode : Nat}
    (target : StateName) (found : files.lookup source = some inode) :
    ∃ next, files.rename source target = .ok next := by
  rw [rename]
  split
  case h_1 absent =>
    rw [found] at absent
    cases absent
  case h_2 => exact ⟨_, rfl⟩

namespace StateWorld

variable {world : StateWorld}

theorem Invariant.enter (invariant : world.Invariant) {phase : StatePhase}
    (kept : world.phase.unmarked = true → phase.unmarked = true)
    (ready : world.PhaseReady phase) : (world.enter phase).Invariant where
  stored := invariant.stored
  guarded := invariant.guarded.enter kept
  ready := ready

theorem Invariant.finish (invariant : world.Invariant)
    (marked : world.phase.unmarked = false) {result : StateResult} (fair :
    StateOutcome.Fair ⟨result, world.existed, world.detected, world.taken⟩) :
    (world.finish result).Invariant where
  stored := invariant.stored
  guarded := {
    existed := by
      intro existed
      apply (invariant.guarded.enter _).existed existed
      rw [marked]
      exact id
    taken := by
      intro taken
      apply (invariant.guarded.enter _).taken taken
      rw [marked]
      exact id
    detected := invariant.guarded.detected
    outcomes := by
      intro outcome member
      rcases List.mem_cons.mp member with rfl | before
      · exact fair
      · exact invariant.guarded.outcomes outcome before }
  ready := trivial

theorem Invariant.fail (invariant : world.Invariant)
    (marked : world.phase.unmarked = false) : world.fail.Invariant := by
  apply invariant.finish marked
  exact ⟨nofun, nofun⟩

theorem Invariant.complete (invariant : world.Invariant)
    (marked : world.phase.unmarked = false)
    (undetected : world.detected = false) (completion : Completion) :
    (world.complete completion).Invariant := by
  cases completion with
  | loaded state =>
    apply invariant.finish marked
    exact ⟨nofun, fun _ _ => undetected⟩
  | saved =>
    apply invariant.finish marked
    exact ⟨nofun, nofun⟩

theorem removeFile_files (world : StateWorld) (name : StateName) : ∃ files,
    world.removeFile name = world.withFiles files ∧ Shrinks world.files files ∧
    (∀ other, other ≠ name → files.lookup other = world.files.lookup other) ∧
    ∀ inode, world.files.lookup name = some inode →
    (world.files.kind inode).isRegular = true → files.lookup name = none := by
  rw [removeFile]
  split
  case h_1 files removed =>
    obtain ⟨-, -, names⟩ := remove_eq_ok removed
    refine ⟨files, rfl, remove_shrinks removed, ?_, ?_⟩
    · intro other different
      rw [names, if_neg different]
    · intro inode found regular
      rw [names, if_pos rfl]
  case h_2 failed =>
    refine ⟨world.files, rfl, ⟨rfl, fun _ => rfl, fun _ _ => id⟩,
      fun _ _ => rfl, ?_⟩
    intro inode found regular
    rw [remove] at failed
    simp only [found] at failed
    split at failed
    case h_1 directory =>
      rw [directory] at regular
      cases regular
    · cases failed

theorem protect_cases (name : StateName) (next : StateWorld → StateWorld) :
    world.protect name next = world.fail ∨ ∃ inode, world.protect name next =
    next (world.withFiles (world.files.changeMode inode 0o600)) := by
  rw [protect]
  split
  · exact .inl rfl
  case h_2 inode found =>
    split
    · exact .inr ⟨inode, rfl⟩
    · exact .inl rfl

theorem protect_alone {name : StateName} {inode : Nat}
    (alone : world.files.Alone name inode)
    (regular : (world.files.kind inode).isRegular = true)
    (next : StateWorld → StateWorld) : world.protect name next =
    next (world.withFiles (world.files.changeMode inode 0o600)) := by
  rw [protect]
  simp only [alone.named]
  rw [if_pos]
  rw [Bool.and_eq_true]
  exact ⟨regular, decide_eq_true alone.links⟩

variable {use : MarkerUse} {recovery : Option MarkerSnapshot}

theorem findMarker_invariant (invariant : world.Invariant)
    (marked : world.phase.unmarked = false)
    (ready : world.MarkerUseReady use) : (world.findMarker use).Invariant := by
  simp only [findMarker]
  split
  case h_1 absent =>
    cases use with
    | beginLoad =>
      apply invariant.enter (by simp [marked])
      rintro - ⟨inode, found⟩
      rw [absent] at found
      cases found
    | endSave => apply invariant.complete marked ready.2 .saved
  case h_2 => exact invariant.enter (by simp [marked]) ready

theorem protectMarker_invariant (invariant : world.Invariant)
    (marked : world.phase.unmarked = false)
    (ready : world.MarkerUseReady use) : (world.protect .recoveryMarker fun
    world => world.enter (.readingMarker use)).Invariant := by
  rcases protect_cases .recoveryMarker
    fun world => world.enter (.readingMarker use) with same | ⟨inode, same⟩
  · rw [same]
    exact invariant.fail marked
  · rw [same]
    refine ⟨invariant.stored.changeMode inode 0o600,
      (invariant.guarded.enter ?_).changeMode inode 0o600, ?_⟩
    · simp [marked]
    · cases use with
      | beginLoad => trivial
      | endSave => exact ready

theorem readMarker_invariant (invariant : world.Invariant)
    (marked : world.phase.unmarked = false)
    (ready : world.MarkerUseReady use) : (world.readMarker use).Invariant := by
  rw [readMarker]
  split
  · exact invariant.fail marked
  · split
    · cases use with
      | beginLoad => exact invariant.enter (by simp [marked]) nofun
      | endSave => exact invariant.enter (by simp [marked]) ready
    · exact invariant.fail marked

theorem compareMarker_invariant (invariant : world.Invariant)
    {completion : Completion} {snapshot : MarkerSnapshot}
    (marked : world.phase.unmarked = false) (settled : world.Settled) :
    (world.compareMarker completion snapshot).Invariant := by
  rw [compareMarker]
  split
  · exact invariant.enter (by simp [marked]) settled
  · exact invariant.fail marked

theorem unlinkMarker_invariant (invariant : world.Invariant)
    {completion : Completion} (marked : world.phase.unmarked = false)
    (settled : world.Settled) : (world.unlinkMarker completion).Invariant := by
  obtain ⟨placed, undetected⟩ := settled
  rw [unlinkMarker]
  split
  · exact invariant.fail marked
  · obtain ⟨files, same, shrinks, others, -⟩ :=
      world.removeFile_files .recoveryMarker
    rw [same]
    have state : files.lookup .state = world.files.lookup .state :=
      others .state nofun
    have changed : ((world.withFiles files).enter .idle).Invariant := by
      refine ⟨invariant.stored.shrinks shrinks ?_, ?_, trivial⟩
      · intro kept member spared
        exact others (.backup kept.backup) nofun
      · refine ⟨?_, ?_, ?_, invariant.guarded.outcomes⟩
        · intro existed
          obtain ⟨inode, found⟩ := placed existed
          exact .inl ⟨inode, state.trans found⟩
        · intro taken
          have detected := (invariant.guarded.taken taken).1
          rw [undetected] at detected
          cases detected
        · intro detected
          rw [show world.detected = true from detected] at undetected
          cases undetected
    cases completion with
    | loaded state => exact changed.complete rfl undetected (.loaded state)
    | saved => exact changed.complete rfl undetected .saved

theorem findState_invariant (invariant : world.Invariant)
    (marked : world.phase.unmarked = false)
    (ready : recovery = none → ¬ Has world.files .recoveryMarker) :
    (world.findState recovery).Invariant := by
  simp only [findState]
  split
  case h_1 inode found =>
    apply invariant.enter (by simp [marked])
    intro _
    exact ⟨inode, found⟩
  case h_2 absent =>
    cases recovery with
    | some snapshot => exact invariant.fail marked
    | none =>
      apply invariant.finish marked
      have unmarked := ready rfl
      refine ⟨fun _ => ⟨?_, ?_⟩, nofun⟩
      · rw [Bool.eq_false_iff]
        intro existed
        rcases invariant.guarded.existed existed with there | there | gone
        · obtain ⟨inode, found⟩ := there
          rw [absent] at found
          cases found
        · exact unmarked there
        · rw [marked] at gone
          cases gone
      · rw [Bool.eq_false_iff]
        intro taken
        rcases (invariant.guarded.taken taken).2 with there | gone
        · exact unmarked there
        · rw [marked] at gone
          cases gone

theorem openState_invariant (invariant : world.Invariant)
    (marked : world.phase.unmarked = false) (placed : world.Placed) :
    (world.openState recovery).Invariant := by
  rw [openState]
  split
  · exact invariant.fail marked
  · split
    · exact invariant.enter (by simp [marked]) placed
    · exact invariant.fail marked

theorem protectState_invariant (invariant : world.Invariant) {inode : Nat}
    (marked : world.phase.unmarked = false) (placed : world.Placed) :
    ((world.withFiles (world.files.changeMode inode 0o600)).enter (.reading
    recovery .opening)).Invariant := by
  refine ⟨invariant.stored.changeMode inode 0o600,
    (invariant.guarded.enter ?_).changeMode inode 0o600, placed, trivial⟩
  simp [marked]

theorem detect_invariant (invariant : world.Invariant)
    (marked : world.phase.unmarked = false) (bytes : Text)
    (identity : FileIdentity) : (world.detect bytes identity).Invariant where
  stored := {
    __ := invariant.stored
    numbered := fun kept member =>
      Nat.lt_succ_of_lt (invariant.stored.numbered kept member)
    safe := invariant.stored.safe }
  guarded := {
    existed := by
      intro existed
      apply (invariant.guarded.enter _).existed existed
      rw [marked]
      exact nofun
    taken := by
      intro taken
      have before := invariant.guarded.taken taken
      refine ⟨?_, before.2.imp id ?_⟩
      · rw [detect, before.1, Bool.true_or]
      · rw [marked]
        exact nofun
    detected := by
      intro detected
      rw [detect, Bool.or_eq_true] at detected
      rcases detected with before | replaced
      · exact invariant.guarded.detected before
      · intro current
        have there : world.holdsCurrent = true :=
          holdsCurrent_iff.mpr current
        rw [there] at replaced
        cases replaced
    outcomes := invariant.guarded.outcomes }
  ready := by
    refine ⟨Nat.lt_succ_self _, ?_⟩
    intro kept member
    exact Nat.ne_of_lt (invariant.stored.numbered kept member)

theorem useContent_invariant (invariant : world.Invariant)
    {identity : FileIdentity} {content : StateContent}
    (marked : world.phase.unmarked = false) (placed : world.Placed)
    (undetected : ∀ state, content = .json state → state.isCurrent = true →
      world.detected = false) :
    (world.useContent recovery identity content).Invariant := by
  cases content with
  | json state =>
    simp only [useContent, acceptState]
    split
    case isTrue current =>
      have settled := undetected state rfl current
      cases recovery with
      | none => exact invariant.complete marked settled (.loaded state)
      | some snapshot =>
        exact invariant.enter (by simp [marked]) ⟨placed, settled⟩
    case isFalse => exact invariant.fail marked
  | invalid bytes => exact detect_invariant invariant marked bytes identity
  | marker backup => exact invariant.fail marked

theorem readState_invariant (invariant : world.Invariant)
    {reader : ReaderPhase} (marked : world.phase.unmarked = false)
    (placed : world.Placed) (ready : world.ReaderReady reader) :
    (world.readState recovery reader).Invariant := by
  cases reader with
  | opening =>
    rw [readState]
    split
    · exact invariant.fail marked
    · exact invariant.enter (by simp [marked]) ⟨placed, trivial⟩
  | inspecting inode =>
    rw [readState]
    split
    · exact invariant.enter (by simp [marked]) ⟨placed, trivial⟩
    · exact invariant.fail marked
  | locating identity =>
    rw [readState]
    split
    · exact invariant.fail marked
    case h_2 inode found =>
      split
      case isTrue same =>
        apply invariant.enter (by simp [marked])
        refine ⟨placed, ?_⟩
        intro state modified content current
        rw [← same] at content
        rw [Bool.eq_false_iff]
        intro detected
        apply invariant.guarded.detected detected
        exact ⟨inode, state, modified, found, content, current⟩
      case isFalse => exact invariant.fail marked
  | reading identity =>
    rw [readState]
    split
    case h_1 stored content =>
      apply useContent_invariant invariant marked placed
      intro state same current
      apply ready state stored.modified _ current
      rw [content, ← same]
    · exact invariant.fail marked

end StateWorld

end MachineBridge.State
