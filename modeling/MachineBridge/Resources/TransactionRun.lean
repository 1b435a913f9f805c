import MachineBridge.Resources.TransactionSteps

/-!
# Mutual exclusion of the transaction lock

At most one running process is inside, and no running process loses its lock to
another, as long as every removal still finds the file which it has checked.
Nothing in a removal makes sure of that: the path may be replaced before its
last step.
-/

namespace MachineBridge.Resources

open Foundation Foundation.Filesystem

namespace LockWorld

section Phases

variable {world : LockWorld} {process : ProcessId} {choice : LinkChoice}

theorem stage_invariant (invariant : world.LockInvariant)
    (phase : world.phase process = .staging) :
    (world.advance process choice).LockInvariant := by
  unfold advance
  rw [phase]
  dsimp only
  split
  case h_1 files created =>
    obtain ⟨changes, drafts⟩ := createNew_changes invariant created
    apply invariant.changed changes.enter
    apply writing_own
    · rw [phase_enter, if_pos rfl]
    · obtain ⟨named, content, only⟩ := drafts
      refine ⟨?_, content, ?_⟩
      · rw [stagingName_enter]
        exact named
      · rw [stagingName_enter]
        exact only
  case h_2 => exact invariant.enterFree rfl

theorem write_invariant {inode : Nat} (invariant : world.LockInvariant)
    (phase : world.phase process = .writing inode) :
    (world.advance process choice).LockInvariant := by
  have own := (invariant.processes process).writing inode phase
  obtain ⟨changes, drafts⟩ := write_changes invariant own
  unfold advance
  rw [phase]
  apply invariant.changed changes.enter
  apply linking_own
  · rw [phase_enter, if_pos rfl]
  · obtain ⟨named, content, only⟩ := drafts
    refine ⟨?_, ?_, ?_⟩
    · rw [stagingName_enter]
      exact named
    · rw [fileOwner_enter]
      exact content
    · rw [stagingName_enter]
      exact only

theorem link_invariant (invariant : world.LockInvariant)
    (phase : world.phase process = .linking) :
    (world.advance process choice).LockInvariant := by
  obtain ⟨inode, own⟩ := (invariant.processes process).linking phase
  unfold advance
  rw [phase]
  dsimp only
  unfold publish
  split
  case h_1 files linked =>
    obtain ⟨changes, published⟩ := link_changes invariant own linked
    apply invariant.changed changes.enter
    have known : (LockPhase.unstaging true).isHolding = true := rfl
    apply holding_own known
    · rw [phase_enter, if_pos rfl]
    · intro _
      rw [publisher_enter, published, fileOwner_enter]
      rfl
    · intro removal same
      cases same
    · intro token identity unlinking
      cases unlinking
  case h_2 | h_3 => exact invariant.enterFree rfl

theorem unstage_invariant {linked : Bool} (invariant : world.LockInvariant)
    (alive : world.alive process = true)
    (phase : world.phase process = .unstaging linked) :
    (world.advance process choice).LockInvariant := by
  have changes : Changes world (world.removeFile (world.stagingName process))
      process := by
    apply removeFile_changes invariant
    · intro third _ _ same
      cases same
    · intro third differ _ _ _ same
      exact differ (stagingName_injective same.symm)
  have differ : world.stagingName process ≠ .lock := by
    intro same
    cases same
  have held : linked = true →
      (world.removeFile (world.stagingName process)).publisher =
      some (world.fileOwner process) := by
    intro published
    rw [publisher_removeFile differ]
    apply (invariant.processes process).held
    rw [LockWorld.holds, alive, phase, published]
    rfl
  unfold advance
  rw [phase]
  dsimp only
  unfold unstage
  apply invariant.changed
  · apply changes.setProcess
    intro info lives
    exact lives
  · cases linked with
    | true =>
      have known : LockPhase.counting.isHolding = true := rfl
      apply holding_own known
      · rw [LockWorld.phase, setProcess_self, if_pos rfl]
      · intro _
        rw [fileOwner, token, setProcess_self, processes_removeFile]
        exact held rfl
      · intro removal same
        cases same
      · intro token identity unlinking
        cases unlinking
    | false =>
      have known : LockPhase.looking.isFree = true := rfl
      apply free_own known
      rw [LockWorld.phase, setProcess_self, if_neg Bool.false_ne_true]

theorem stay_invariant {next : LockPhase} (invariant : world.LockInvariant)
    (before : (world.phase process).isHolding = true)
    (after : next.isHolding = true) (released : ∀ removal,
      next = .releasing removal → removal.token = world.token process)
    (checked : ∀ token identity, next.unlinking = some (token, identity) →
      ∃ owner, world.files.kind identity.inode = .regular (some owner) ∧
      owner.token = token) : (world.enter process next).LockInvariant := by
  apply invariant.enter
  apply holding_own after
  · rw [phase_enter, if_pos rfl]
  · intro alive
    rw [publisher_enter, fileOwner_enter]
    apply (invariant.processes process).held
    rw [LockWorld.holds, ← alive_enter world process process next, alive,
      before]
    rfl
  · rw [token_enter]
    exact released
  · exact checked

theorem observe_invariant {allowed : Option FileIdentity}
    {snapshot : SnapshotPhase} (invariant : world.LockInvariant) :
    (world.observe process allowed snapshot choice).LockInvariant := by
  unfold observe
  split
  case h_1 | h_2 => exact invariant.enterFree rfl
  case h_3 =>
    cases choice with
    | retry | residue | fail => exact invariant.enterFree rfl
  case h_4 | h_5 => exact invariant.enterFree rfl
  case h_6 owner identity read =>
    split
    case isTrue =>
      apply invariant.enter
      apply judging_own 
      · rw [phase_enter, if_pos rfl]
      · exact invariant.genuine _ owner (advanceSnapshot_read read)
    case isFalse => exact invariant.enterFree rfl

theorem judge_invariant {owner : FileOwner} {residue : Option FileIdentity}
    (invariant : world.LockInvariant)
    (phase : world.phase process = .judging owner residue) :
    (world.advance process choice).LockInvariant := by
  unfold advance
  rw [phase]
  dsimp only
  split
  case isTrue => exact invariant.enterFree rfl
  case isFalse dead =>
    apply invariant.enter
    apply reclaiming_own
    · rw [phase_enter, if_pos rfl]
    · rfl
    · exact (invariant.processes process).judged owner residue phase
    · rw [alive_enter, ← Bool.not_eq_true]
      exact dead
    · intro token identity unlinking
      cases unlinking

variable {removal : Removal}

theorem unlinking_of_advance {phase : RemovalPhase} {token : LockToken}
    {identity : FileIdentity} {next : LockPhase}
    (advanced : advanceRemoval world.files removal = .going phase)
    (entered : (∃ observed,
      next = .reclaiming observed { removal with phase }) ∨
        next = .releasing { removal with phase })
    (unlinking : next.unlinking = some (token, identity)) :
    ∃ owner, world.files.kind identity.inode = .regular (some owner) ∧
      owner.token = token := by
  have equal : removal.token = token ∧ phase = .unlinking identity := by
    rcases unlinking_eq_some unlinking with reclaiming | releasing
    · obtain ⟨observed, allowed, same⟩ := reclaiming
      rcases entered with ⟨seen, rfl⟩ | rfl
      · cases same
        exact ⟨rfl, rfl⟩
      · cases same
    · obtain ⟨allowed, same⟩ := releasing
      rcases entered with ⟨seen, rfl⟩ | rfl
      · cases same
      · cases same
        exact ⟨rfl, rfl⟩
  obtain ⟨rfl, rfl⟩ := equal
  exact advanceRemoval_checked advanced

theorem reclaim_invariant {observed : FileOwner}
    (invariant : world.LockInvariant)
    (phase : world.phase process = .reclaiming observed removal)
    (undisturbed : ∀ token identity,
      (world.phase process).unlinking = some (token, identity) → ∀ inode,
      world.files.lookup .lock = some inode → inode = identity.inode) :
    (world.reclaim process observed removal choice).LockInvariant := by
  obtain ⟨same, genuine, dead⟩ :=
    (invariant.processes process).reclaimed observed removal phase
  unfold reclaim
  split
  case h_1 next advanced =>
    apply invariant.enter
    apply reclaiming_own
    · rw [phase_enter, if_pos rfl]
    · exact same
    · exact genuine
    · rw [alive_enter]
      exact dead
    · intro token identity unlinking
      exact unlinking_of_advance advanced (.inl ⟨observed, rfl⟩) unlinking
  case h_2 => exact invariant.enterFree rfl
  case h_3 unlinks =>
    obtain ⟨identity, last⟩ := advanceRemoval_unlinks unlinks
    have unlinking :
        (world.phase process).unlinking = some (removal.token, identity) := by
      rw [phase]
      cases removal
      cases last
      rfl
    have changes := unlink_changes invariant unlinking
      (undisturbed _ _ unlinking)
    apply invariant.changed changes.enter
    have known : LockPhase.staging.isFree = true := rfl
    apply free_own known
    rw [phase_enter, if_pos rfl]
  case h_4 =>
    split
    case isTrue =>
      apply invariant.enter
      apply reclaiming_own
      · rw [phase_enter, if_pos rfl]
      · exact same
      · exact genuine
      · rw [alive_enter]
        exact dead
      · intro token identity unlinking
        cases unlinking
    case isFalse => exact invariant.enterFree rfl
  case h_5 => exact invariant.enterFree rfl

theorem release_invariant (invariant : world.LockInvariant)
    (phase : world.phase process = .releasing removal)
    (undisturbed : ∀ token identity,
      (world.phase process).unlinking = some (token, identity) → ∀ inode,
      world.files.lookup .lock = some inode → inode = identity.inode) :
    (world.release process removal choice).LockInvariant := by
  have expected := (invariant.processes process).released removal phase
  have holding : (world.phase process).isHolding = true := by
    rw [phase]
    rfl
  unfold release
  split
  case h_1 next advanced =>
    apply stay_invariant invariant holding rfl
    · intro other same
      cases same
      exact expected
    · intro token identity unlinking
      exact unlinking_of_advance advanced (.inr rfl) unlinking
  case h_2 => exact invariant.enterFree rfl
  case h_3 unlinks =>
    obtain ⟨identity, last⟩ := advanceRemoval_unlinks unlinks
    have unlinking :
        (world.phase process).unlinking = some (removal.token, identity) := by
      rw [phase]
      cases removal
      cases last
      rfl
    have changes := unlink_changes invariant unlinking
      (undisturbed _ _ unlinking)
    apply invariant.changed changes.enter
    have known : LockPhase.outside.isFree = true := rfl
    apply free_own known
    rw [phase_enter, if_pos rfl]
  case h_4 =>
    split
    case isTrue =>
      apply stay_invariant invariant holding rfl
      · intro other same
        cases same
        exact expected
      · intro token identity unlinking
        cases unlinking
    case isFalse => exact invariant.enterFree rfl
  case h_5 => exact invariant.enterFree rfl

theorem advance_invariant (invariant : world.LockInvariant)
    (alive : world.alive process = true) (undisturbed : ∀ token identity,
      (world.phase process).unlinking = some (token, identity) → ∀ inode,
      world.files.lookup .lock = some inode → inode = identity.inode) :
    (world.advance process choice).LockInvariant := by
  cases phase : world.phase process with
  | outside =>
    rw [advance, phase]
    exact invariant
  | staging => exact stage_invariant invariant phase
  | writing inode => exact write_invariant invariant phase
  | linking => exact link_invariant invariant phase
  | unstaging linked => exact unstage_invariant invariant alive phase
  | counting =>
    rw [advance, phase]
    apply stay_invariant invariant
    · rw [phase]
      rfl
    · rfl
    · intro removal same
      cases same
    · intro token identity unlinking
      cases unlinking
  | looking =>
    rw [advance, phase]
    dsimp only
    split
    case h_1 => exact invariant.enterFree rfl
    case h_2 =>
      split
      case isTrue | isFalse => exact invariant.enterFree rfl
  | observing allowed snapshot =>
    rw [advance, phase]
    exact observe_invariant invariant
  | judging owner residue => exact judge_invariant invariant phase
  | reclaiming observed removal =>
    rw [advance, phase]
    exact reclaim_invariant invariant phase undisturbed
  | inside =>
    rw [advance, phase]
    apply stay_invariant invariant
    · rw [phase]
      rfl
    · rfl
    · intro removal same
      cases same
      rfl
    · intro token identity unlinking
      cases unlinking
  | releasing removal =>
    rw [advance, phase]
    exact release_invariant invariant phase undisturbed

end Phases

section Runs

variable {world next : LockWorld}

theorem LockInvariant.everywhere (invariant : world.LockInvariant)
    (changes : ∀ process, Changes world next process) :
    next.LockInvariant := by
  refine ⟨(changes 0).genuine, (changes 0).unused, ?_⟩
  intro other
  have differ : other ≠ other + 1 := Nat.ne_of_lt (Nat.lt_succ_self other)
  have spared := changes (other + 1)
  apply (invariant.processes other).spared
  exact ⟨spared.others other differ, spared.dead, spared.sealed,
    spared.drafts other differ, spared.published other differ⟩

theorem repair_invariant {name : LockName} (invariant : world.LockInvariant) :
    (world.repair name).LockInvariant := by
  unfold repair
  split
  case h_1 => exact invariant
  case h_2 inode named =>
    split
    case isTrue second =>
      obtain ⟨differ, locked, _⟩ := second
      apply invariant.everywhere
      intro process
      apply removeFile_changes invariant
      · intro _ _ _
        exact differ
      · intro third _ draft content drafts same
        rw [same, drafts.named] at named
        cases named
        exact drafts.lock_ne locked
    case isFalse => exact invariant

variable {process : ProcessId}

theorem crash_invariant (invariant : world.LockInvariant) :
    (world.step (.crash process)).LockInvariant := by
  have own := invariant.processes process
  let crashed : LockProcess → LockProcess :=
    fun info => { info with alive := false }
  have changes : Changes world (world.setProcess process crashed) process := by
    apply invariant.unchanged.setProcess
    intro info lives
    cases lives
  have self : (world.setProcess process crashed).processes process =
      { world.processes process with alive := false } := setProcess_self
  have files : (world.setProcess process crashed).files = world.files := rfl
  rw [step]
  generalize world.setProcess process crashed = next at changes self files ⊢
  have phase : next.phase process = world.phase process := by
    rw [LockWorld.phase, self]
    rfl
  have token : next.token process = world.token process := by
    rw [LockWorld.token, self]
    rfl
  have drafts : ∀ inode content, world.Drafts process inode content →
      next.Drafts process inode content := by
    intro inode content drafted
    have name : next.stagingName process = world.stagingName process := by
      rw [stagingName, self]
      rfl
    obtain ⟨named, holds, only⟩ := drafted
    rw [← name] at named only
    rw [← files] at named only holds
    exact ⟨named, holds, only⟩
  apply invariant.changed changes
  constructor
  · rw [phase]
    intro inode writing
    exact drafts inode none (own.writing inode writing)
  · rw [phase, fileOwner, token]
    intro linking
    obtain ⟨inode, drafted⟩ := own.linking linking
    exact ⟨inode, drafts inode _ drafted⟩
  · intro holding
    rw [holds, alive, self] at holding
    cases holding
  · rw [phase]
    exact own.judged
  · rw [phase]
    intro owner removal reclaiming
    obtain ⟨same, genuine, dead⟩ := own.reclaimed owner removal reclaiming
    exact ⟨same, genuine, changes.dead _ dead⟩
  · rw [phase, token]
    exact own.released
  · rw [phase, files]
    exact own.checked

/-- A process which takes the last step of a removal still finds the file which
it has checked, or none. -/
def undisturbed (world : LockWorld) : LockEvent → Bool
  | .advance process _ =>
    match (world.phase process).unlinking with
    | none => true
    | some (_, identity) =>
      (world.files.lookup .lock).all fun inode => inode == identity.inode
  | _ => true

theorem undisturbed_advance {choice : LinkChoice}
    (condition : world.undisturbed (.advance process choice) = true)
    (token : LockToken) (identity : FileIdentity)
    (unlinking : (world.phase process).unlinking = some (token, identity))
    (inode : Nat) (named : world.files.lookup .lock = some inode) :
    inode = identity.inode := by
  unfold undisturbed at condition
  dsimp only at condition
  rw [unlinking] at condition
  dsimp only at condition
  rw [named, Option.all_some] at condition
  exact beq_iff_eq.mp condition

theorem step_invariant {event : LockEvent}
    (condition : world.undisturbed event = true)
    (invariant : world.LockInvariant) : (world.step event).LockInvariant := by
  cases event with
  | call process =>
    rw [step]
    split
    case isTrue =>
      apply invariant.changed
      · apply invariant.unchanged.setProcess
        intro info lives
        exact lives
      · have free : LockPhase.staging.isFree = true := rfl
        apply free_own free
        rw [phase, setProcess_self]
    case isFalse => exact invariant
  | advance process choice =>
    rw [step]
    split
    case isTrue alive =>
      exact advance_invariant invariant alive (undisturbed_advance condition)
    case isFalse => exact invariant
  | giveUp process =>
    rw [step]
    split
    case isTrue => exact invariant.enterFree rfl
    case isFalse => exact invariant
  | repair process attempt => exact repair_invariant invariant
  | crash process => exact crash_invariant invariant

theorem advance_unlinks {choice : LinkChoice} :
    (world.advance process choice).unlinks = world.unlinks ∨ (∃ token identity,
      (world.phase process).unlinking = some (token, identity)) ∧
    (world.advance process choice).unlinks =
    (world.unlink process).unlinks := by
  cases phase : world.phase process with
  | outside =>
    rw [advance, phase]
    exact .inl rfl
  | staging =>
    rw [advance, phase]
    dsimp only
    split <;> exact .inl rfl
  | writing inode =>
    rw [advance, phase]
    exact .inl rfl
  | linking =>
    rw [advance, phase]
    dsimp only
    unfold publish
    split <;> exact .inl rfl
  | unstaging linked =>
    rw [advance, phase]
    dsimp only
    unfold unstage removeFile
    split <;> exact .inl rfl
  | counting =>
    rw [advance, phase]
    exact .inl rfl
  | looking =>
    rw [advance, phase]
    dsimp only
    split
    · exact .inl rfl
    · split <;> exact .inl rfl
  | observing allowed snapshot =>
    rw [advance, phase]
    dsimp only
    unfold observe
    split
    case h_3 | h_6 => split <;> exact .inl rfl
    all_goals exact .inl rfl
  | judging owner residue =>
    rw [advance, phase]
    dsimp only
    split <;> exact .inl rfl
  | reclaiming observed removal =>
    rw [advance, phase]
    dsimp only
    unfold reclaim
    split
    case h_3 unlinks =>
      obtain ⟨identity, last⟩ := advanceRemoval_unlinks unlinks
      right
      refine ⟨⟨removal.token, identity, ?_⟩, rfl⟩
      cases removal
      cases last
      rfl
    case h_4 => split <;> exact .inl rfl
    all_goals exact .inl rfl
  | inside =>
    rw [advance, phase]
    exact .inl rfl
  | releasing removal =>
    rw [advance, phase]
    dsimp only
    unfold release
    split
    case h_3 unlinks =>
      obtain ⟨identity, last⟩ := advanceRemoval_unlinks unlinks
      right
      refine ⟨⟨removal.token, identity, ?_⟩, rfl⟩
      cases removal
      cases last
      rfl
    case h_4 => split <;> exact .inl rfl
    all_goals exact .inl rfl

/-- Every lock which was taken away was that of the process which did so, or of
one which was not running. -/
def Owned (world : LockWorld) : Prop :=
  ∀ entry ∈ world.unlinks,
    entry.publisher = entry.remover ∨ entry.alive = false

theorem step_owned {event : LockEvent}
    (condition : world.undisturbed event = true)
    (invariant : world.LockInvariant) (owned : world.Owned) :
    (world.step event).Owned := by
  cases event with
  | call process =>
    rw [step]
    split <;> exact owned
  | advance process choice =>
    rw [step]
    split
    case isFalse => exact owned
    case isTrue =>
      intro entry member
      rcases advance_unlinks with same | removes
      · rw [same] at member
        exact owned entry member
      · obtain ⟨⟨token, identity, unlinking⟩, same⟩ := removes
        rw [same] at member
        rcases unlink_owned invariant unlinking
          (undisturbed_advance condition token identity unlinking)
          member with old | new
        · exact owned entry old
        · exact new
  | giveUp process =>
    rw [step]
    split <;> exact owned
  | repair process attempt =>
    rw [step]
    unfold repair removeFile
    split
    · exact owned
    · split
      · split <;> exact owned
      · exact owned
  | crash process => exact owned

theorem empty_invariant : LockInvariant {} := by
  refine ⟨?_, ?_, ?_⟩
  · intro inode owner content
    cases content
  · intro inode _
    rfl
  · intro process
    have free : LockPhase.outside.isFree = true := rfl
    exact free_own free rfl

/-- At most one running process holds the lock, and no lock of another running
process was taken away. -/
structure Exclusive (world : LockWorld) : Prop where
  single : ∀ first second, world.holds first = true →
    world.holds second = true → first = second
  owned : world.Owned

/-- What every step without a disturbance keeps. -/
structure Safe (world : LockWorld) : Prop where
  invariant : world.LockInvariant
  owned : world.Owned

theorem LockInvariant.single (invariant : world.LockInvariant)
    {first second : ProcessId} (one : world.holds first = true)
    (other : world.holds second = true) : first = second := by
  have published := (invariant.processes first).held one
  rw [(invariant.processes second).held other] at published
  exact (congrArg FileOwner.pid (Option.some.inj published)).symm

/-- The lock excludes at every moment of a run in which no path is replaced
between the last check of a removal and its last step. -/
theorem run_exclusive {events : List LockEvent} (meets : Meets step (fun world
    event => world.undisturbed event = true) {} events)
    (before after : List LockEvent) (split : events = before ++ after) :
    Exclusive (run step {} before) := by
  rw [split] at meets
  obtain ⟨early, _⟩ := meets_append.mp meets
  have start : Safe {} := by
    refine ⟨empty_invariant, ?_⟩
    intro entry member
    cases member
  have kept : Safe (run step {} before) := by
    refine run_induction_of_meets ?_ start early
    intro world event condition safe
    exact ⟨step_invariant condition safe.invariant,
      step_owned condition safe.invariant safe.owned⟩
  exact ⟨fun _ _ one other => kept.invariant.single one other, kept.owned⟩

def steps (process : ProcessId) (count : Nat) : List LockEvent :=
  List.replicate count (.advance process .residue)

/-- A process crashes with the lock, another reclaims it and releases it, and
a third takes it. -/
def crashedOwner : List LockEvent :=
  .call 0 :: steps 0 5 ++ .crash 0 :: .call 1 :: steps 1 12 ++
    .call 2 :: steps 2 4 ++ steps 1 24 ++ steps 2 9

theorem crashedOwner_exclusive : Exclusive (run step {} crashedOwner) :=
  run_exclusive (by decide +kernel) crashedOwner [] (List.append_nil _).symm

/-- Two processes reclaim the lock of a crashed one: the second acquires it
before the first takes its last step. -/
def concurrentReclaims : List LockEvent :=
  .call 0 :: steps 0 5 ++ .crash 0 :: .call 1 :: steps 1 19 ++
    .call 2 :: steps 2 25 ++ steps 1 6

/-- Both are inside then, and the lock of the second is gone. -/
theorem concurrentReclaims_overlap : ¬ ∀ before after,
    concurrentReclaims = before ++ after → Exclusive (run step {} before) := by
  intro claimed
  have exclusive := claimed concurrentReclaims [] (List.append_nil _).symm
  have same := exclusive.single 1 2 (by decide +kernel) (by decide +kernel)
  cases same

end Runs

end LockWorld

end MachineBridge.Resources
