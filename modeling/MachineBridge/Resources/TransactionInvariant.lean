import MachineBridge.Resources.TransactionLock

/-!
# What a transaction lock keeps

Contents once written stay, a file which is being prepared has no other name
than that of its process, and the lock names the file of the running process
which holds it.  What a process is about to remove was read by it before.
-/

namespace MachineBridge.Resources

open Foundation

def LockPhase.isHolding : LockPhase → Bool
  | .unstaging linked => linked
  | .counting => true
  | .inside => true
  | .releasing _ => true
  | _ => false

/-- The removal which a process has checked to its end. -/
def LockPhase.unlinking : LockPhase → Option (LockToken × FileIdentity)
  | .reclaiming _ ⟨token, _, .unlinking identity⟩ => some (token, identity)
  | .releasing ⟨token, _, .unlinking identity⟩ => some (token, identity)
  | _ => none

/-- A phase in which a process owns and knows nothing. -/
def LockPhase.isFree : LockPhase → Bool
  | .outside => true
  | .staging => true
  | .unstaging linked => !linked
  | .looking => true
  | .observing _ _ => true
  | _ => false

namespace LockWorld

section Processes

variable (world : LockWorld) (process other : ProcessId)

theorem setProcess_self {world : LockWorld} {process : ProcessId}
    {change : LockProcess → LockProcess} :
    (world.setProcess process change).processes process =
      change (world.processes process) := Function.update_self _ _ _

section

variable (phase : LockPhase)

@[simp] theorem phase_enter : (world.enter process phase).phase other =
    if other = process then phase else world.phase other := by
  by_cases same : other = process
  · simp [enter, setProcess, LockWorld.phase, same]
  · simp [enter, setProcess, LockWorld.phase, same]

@[simp] theorem alive_enter :
    (world.enter process phase).alive other = world.alive other := by
  by_cases same : other = process
  · simp [enter, setProcess, alive, same]
  · simp [enter, setProcess, alive, same]

@[simp] theorem token_enter :
    (world.enter process phase).token other = world.token other := by
  by_cases same : other = process
  · simp [enter, setProcess, token, same]
  · simp [enter, setProcess, token, same]

@[simp] theorem fileOwner_enter :
    (world.enter process phase).fileOwner other = world.fileOwner other := by
  simp [fileOwner]

@[simp] theorem stagingName_enter :
    (world.enter process phase).stagingName other =
    world.stagingName other := by
  by_cases same : other = process
  · simp [enter, setProcess, stagingName, same]
  · simp [enter, setProcess, stagingName, same]

@[simp] theorem publisher_enter :
    (world.enter process phase).publisher = world.publisher := rfl

end

end Processes

/-- A file which only its process knows, under its staging name. -/
structure Drafts (world : LockWorld) (process : ProcessId) (inode : Nat)
    (content : Option FileOwner) : Prop where
  named : world.files.lookup (world.stagingName process) = some inode
  content : world.files.kind inode = .regular content
  only : ∀ name, world.files.lookup name = some inode →
    name = world.stagingName process

def holds (world : LockWorld) (process : ProcessId) : Bool :=
  world.alive process && (world.phase process).isHolding

structure ProcessInvariant (world : LockWorld) (process : ProcessId) :
    Prop where
  writing : ∀ inode, world.phase process = .writing inode →
    world.Drafts process inode none
  linking : world.phase process = .linking →
    ∃ inode, world.Drafts process inode (some (world.fileOwner process))
  held : world.holds process = true →
    world.publisher = some (world.fileOwner process)
  judged : ∀ owner residue, world.phase process = .judging owner residue →
    owner.pid = owner.token.process
  reclaimed : ∀ owner removal,
    world.phase process = .reclaiming owner removal →
    removal.token = owner.token ∧ owner.pid = owner.token.process ∧
      world.alive owner.pid = false
  released : ∀ removal, world.phase process = .releasing removal →
    removal.token = world.token process
  checked : ∀ token identity,
    (world.phase process).unlinking = some (token, identity) →
    ∃ owner, world.files.kind identity.inode = .regular (some owner) ∧
      owner.token = token

structure LockInvariant (world : LockWorld) : Prop where
  genuine : ∀ inode owner,
    world.files.kind inode = .regular (some owner) →
    owner.pid = owner.token.process
  unused : ∀ inode, world.files.next ≤ inode → world.files.kind inode = .other
  processes : ∀ process, world.ProcessInvariant process

/-- What a step leaves to a process which does not take it. -/
structure Spares (world next : LockWorld) (process : ProcessId) : Prop where
  same : next.processes process = world.processes process
  dead : ∀ other, world.alive other = false → next.alive other = false
  sealed : ∀ inode owner, world.files.kind inode = .regular (some owner) →
    next.files.kind inode = .regular (some owner)
  drafts : ∀ inode content, world.Drafts process inode content →
    next.Drafts process inode content
  published : world.holds process = true → next.publisher = world.publisher

theorem ProcessInvariant.spared {world next : LockWorld} {process : ProcessId}
    (invariant : world.ProcessInvariant process)
    (spares : Spares world next process) : next.ProcessInvariant process := by
  have phase : next.phase process = world.phase process := by
    rw [LockWorld.phase, spares.same, LockWorld.phase]
  have alive : next.alive process = world.alive process := by
    rw [LockWorld.alive, spares.same, LockWorld.alive]
  have token : next.token process = world.token process := by
    rw [LockWorld.token, spares.same, LockWorld.token]
  have owner : next.fileOwner process = world.fileOwner process := by
    rw [LockWorld.fileOwner, token, LockWorld.fileOwner]
  constructor
  · intro inode writing
    rw [phase] at writing
    exact spares.drafts inode none (invariant.writing inode writing)
  · intro linking
    rw [phase] at linking
    obtain ⟨inode, drafts⟩ := invariant.linking linking
    rw [owner]
    exact ⟨inode, spares.drafts inode _ drafts⟩
  · intro holds
    have before : world.holds process = true := by
      rw [LockWorld.holds, ← phase, ← alive]
      exact holds
    rw [spares.published before, owner]
    exact invariant.held before
  · rw [phase]
    exact invariant.judged
  · intro observed removal reclaiming
    rw [phase] at reclaiming
    obtain ⟨same, genuine, dead⟩ :=
      invariant.reclaimed observed removal reclaiming
    exact ⟨same, genuine, spares.dead _ dead⟩
  · rw [phase, token]
    exact invariant.released
  · intro expected identity unlinking
    rw [phase] at unlinking
    obtain ⟨found, content, same⟩ :=
      invariant.checked expected identity unlinking
    exact ⟨found, spares.sealed _ _ content, same⟩

/-- What a step of a process leaves to the others. -/
structure Changes (world next : LockWorld) (process : ProcessId) :
    Prop where
  others : ∀ other, other ≠ process →
    next.processes other = world.processes other
  dead : ∀ other, world.alive other = false → next.alive other = false
  sealed : ∀ inode owner, world.files.kind inode = .regular (some owner) →
    next.files.kind inode = .regular (some owner)
  drafts : ∀ other, other ≠ process → ∀ inode content,
    world.Drafts other inode content → next.Drafts other inode content
  published : ∀ other, other ≠ process → world.holds other = true →
    next.publisher = world.publisher
  genuine : ∀ inode owner, next.files.kind inode = .regular (some owner) →
    owner.pid = owner.token.process
  unused : ∀ inode, next.files.next ≤ inode → next.files.kind inode = .other

section Steps

variable {world next : LockWorld} {process other : ProcessId}

theorem LockInvariant.changed (invariant : world.LockInvariant)
    (changes : Changes world next process)
    (own : next.ProcessInvariant process) : next.LockInvariant := by
  refine ⟨changes.genuine, changes.unused, ?_⟩
  intro other
  by_cases same : other = process
  · rw [same]
    exact own
  · apply (invariant.processes other).spared
    exact ⟨changes.others other same, changes.dead, changes.sealed,
      changes.drafts other same, changes.published other same⟩

theorem LockInvariant.unchanged (invariant : world.LockInvariant) :
    Changes world world process := by
  constructor
  · intro other _
    rfl
  · intro other dead
    exact dead
  · intro inode owner content
    exact content
  · intro other _ inode content drafts
    exact drafts
  · intro other _ _
    rfl
  · exact invariant.genuine
  · exact invariant.unused

theorem Changes.setProcess {change : LockProcess → LockProcess}
    (changes : Changes world next process)
    (mortal : ∀ info, (change info).alive = true → info.alive = true) :
    Changes world (next.setProcess process change) process := by
  have kept : ∀ other, other ≠ process →
      (next.setProcess process change).processes other =
      next.processes other := by
    intro other differ
    apply Function.update_of_ne differ
  constructor
  · intro other differ
    rw [kept other differ, changes.others other differ]
  · intro other dead
    by_cases same : other = process
    · have before := changes.dead other dead
      subst same
      rw [alive, setProcess_self]
      rw [← Bool.not_eq_true] at before ⊢
      intro lives
      exact before (mortal _ lives)
    · rw [alive, kept other same]
      exact changes.dead other dead
  · exact changes.sealed
  · intro other differ inode content drafts
    obtain ⟨named, holds, only⟩ := changes.drafts other differ _ _ drafts
    have name : (next.setProcess process change).stagingName other =
        next.stagingName other := by
      rw [stagingName, kept other differ, stagingName]
    refine ⟨?_, holds, ?_⟩
    · rw [name]
      exact named
    · rw [name]
      exact only
  · exact changes.published
  · exact changes.genuine
  · exact changes.unused

theorem Changes.recorded (changes : Changes world next process)
    (unlinks : List LockUnlink) :
    Changes world { next with unlinks } process := by
  constructor
  · exact changes.others
  · exact changes.dead
  · exact changes.sealed
  · intro other differ inode content drafts
    obtain ⟨named, holds, only⟩ := changes.drafts other differ _ _ drafts
    exact ⟨named, holds, only⟩
  · exact changes.published
  · exact changes.genuine
  · exact changes.unused

theorem Changes.enter {phase : LockPhase}
    (changes : Changes world next process) :
    Changes world (next.enter process phase) process := by
  apply changes.setProcess
  intro info lives
  exact lives

end Steps

section Phases

variable {world : LockWorld} {process : ProcessId} {phase : LockPhase}

theorem free_own (free : phase.isFree = true)
    (entered : world.phase process = phase) :
    world.ProcessInvariant process := by
  constructor
  · intro inode same
    rw [← entered, same] at free
    cases free
  · intro same
    rw [← entered, same] at free
    cases free
  · intro holding
    rw [holds, entered, Bool.and_eq_true] at holding
    cases phase <;> simp_all [LockPhase.isFree, LockPhase.isHolding]
  · intro owner residue same
    rw [← entered, same] at free
    cases free
  · intro owner removal same
    rw [← entered, same] at free
    cases free
  · intro removal same
    rw [← entered, same] at free
    cases free
  · intro token identity unlinking
    rw [entered] at unlinking
    cases phase <;> first | cases unlinking | cases free

theorem holding_own (holding : phase.isHolding = true)
    (entered : world.phase process = phase)
    (held : world.alive process = true →
      world.publisher = some (world.fileOwner process)) (released : ∀ removal,
      phase = .releasing removal → removal.token = world.token process)
    (checked : ∀ token identity, phase.unlinking = some (token, identity) →
      ∃ owner, world.files.kind identity.inode = .regular (some owner) ∧
      owner.token = token) : world.ProcessInvariant process := by
  constructor
  · intro inode same
    rw [← entered, same] at holding
    cases holding
  · intro same
    rw [← entered, same] at holding
    cases holding
  · intro holds
    rw [LockWorld.holds, Bool.and_eq_true] at holds
    exact held holds.1
  · intro owner residue same
    rw [← entered, same] at holding
    cases holding
  · intro owner removal same
    rw [← entered, same] at holding
    cases holding
  · rw [entered]
    exact released
  · rw [entered]
    exact checked

theorem writing_own {inode : Nat}
    (entered : world.phase process = .writing inode)
    (drafts : world.Drafts process inode none) :
    world.ProcessInvariant process := by
  constructor
  · intro other same
    rw [entered] at same
    cases same
    exact drafts
  all_goals simp [holds, entered, LockPhase.isHolding, LockPhase.unlinking]

theorem linking_own {inode : Nat} (entered : world.phase process = .linking)
    (drafts : world.Drafts process inode (some (world.fileOwner process))) :
    world.ProcessInvariant process := by
  constructor
  case linking =>
    intro _
    exact ⟨inode, drafts⟩
  all_goals simp [holds, entered, LockPhase.isHolding, LockPhase.unlinking]

theorem judging_own {owner : FileOwner} {residue : Option FileIdentity}
    (entered : world.phase process = .judging owner residue)
    (genuine : owner.pid = owner.token.process) :
    world.ProcessInvariant process := by
  constructor
  case judged =>
    intro other allowed same
    rw [entered] at same
    cases same
    exact genuine
  all_goals simp [holds, entered, LockPhase.isHolding, LockPhase.unlinking]

theorem reclaiming_own {observed : FileOwner} {removal : Removal}
    (entered : world.phase process = .reclaiming observed removal)
    (same : removal.token = observed.token)
    (genuine : observed.pid = observed.token.process)
    (dead : world.alive observed.pid = false) (checked : ∀ token identity,
      (LockPhase.reclaiming observed removal).unlinking =
      some (token, identity) → ∃ owner,
      world.files.kind identity.inode = .regular (some owner) ∧
      owner.token = token) : world.ProcessInvariant process := by
  constructor
  case reclaimed =>
    intro owner other equal
    rw [entered] at equal
    cases equal
    exact ⟨same, genuine, dead⟩
  case checked =>
    rw [entered]
    exact checked
  all_goals simp [holds, entered, LockPhase.isHolding]

end Phases

section Entering

variable {world : LockWorld} {process : ProcessId} {phase : LockPhase}

theorem LockInvariant.enter (invariant : world.LockInvariant)
    (own : (world.enter process phase).ProcessInvariant process) :
    (world.enter process phase).LockInvariant := by
  apply invariant.changed _ own
  apply Changes.enter
  exact invariant.unchanged

theorem LockInvariant.enterFree (invariant : world.LockInvariant)
    (free : phase.isFree = true) :
    (world.enter process phase).LockInvariant := by
  apply invariant.enter
  apply free_own free
  rw [phase_enter, if_pos rfl]

end Entering

end LockWorld

end MachineBridge.Resources
