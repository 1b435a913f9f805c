import MachineBridge.Locks.LockFile

/-!
# What a lock file keeps

Contents once written stay, a file which is being prepared has no other name
than that of its process, and the lock names the file of the running process
which is entitled to it.  What a process is about to remove was read by it
before.
-/

namespace MachineBridge.Locks

open Foundation

variable {Detail : Type}

/-- What holds of the files by themselves. -/
structure FilesInvariant (files : LockFiles Detail) : Prop where
  unused : ∀ inode, files.next ≤ inode → files.kind inode = .other
  written : ∀ inode, files.lookup .lock = some inode →
    ∃ owner, files.kind inode = .regular (some owner)
  /-- A lock which was handed over has one name. -/
  handed : ∀ inode owner, files.kind inode = .regular (some owner) →
    owner.pid ≠ owner.token.process → ∀ first second,
      files.lookup first = some inode → files.lookup second = some inode →
        first = second

namespace LockWorld

structure Holds (world : LockWorld Detail) (process : ProcessId)
    (token : LockToken) : Prop where
  alive : world.alive process = true
  held : world.held process = some token

/-- A file which only its process knows, under its temporary name. -/
structure Drafts (world : LockWorld Detail) (process : ProcessId)
    (inode : Nat) (content : Option (LockOwner Detail)) : Prop where
  named : world.files.lookup (world.temporary process) = some inode
  content : world.files.kind inode = .regular content
  only : ∀ name, world.files.lookup name = some inode →
    name = world.temporary process

/-- A snapshot tells what its file holds. -/
def Sealed (world : LockWorld Detail) (snapshot : LockSnapshot Detail) :
    Prop :=
  world.files.kind snapshot.identity.inode = .regular (some snapshot.owner)

structure Own (process : ProcessId) (owner : LockOwner Detail) : Prop where
  pid : owner.pid = process
  token : owner.token.process = process

/-- Nobody else is entitled by the token of a process. -/
structure Released (world : LockWorld Detail) (process : ProcessId)
    (token : LockToken) : Prop where
  own : token.process = process
  others : ∀ other, other ≠ process → ¬ world.Holds other token

structure Replaces (world : LockWorld Detail) (process : ProcessId)
    (token : LockToken) : Prop where
  own : token.process = process
  held : world.held process = some token

section

variable (world : LockWorld Detail)

def Publishes (process : ProcessId)
    (owner : LockOwner Detail) : Publication → Prop
  | .exclusive _ => Own process owner
  | .update => Own process owner ∧ world.Replaces process owner.token
  | .handoff => world.Replaces process owner.token

def Published (process : ProcessId) (owner : LockOwner Detail) :
    Publication → Prop
  | .exclusive _ => Own process owner
  | .update => True
  | .handoff => owner.token.process = process

/-- After a handoff the receiver keeps the file which was put in place. -/
def Keeps (process : ProcessId)
    (owner : LockOwner Detail) (inode : Nat) : Publication → Prop
  | .handoff => ∀ other, other ≠ process → world.Holds other owner.token →
      world.files.lookup .lock = some inode
  | _ => True

def ReadInvariant (process : ProcessId) : ReadPurpose Detail → Prop
  | .acquire owner _ => Own process owner
  | .report => True
  | .update token _ => world.Replaces process token
  | .release token => world.Released process token

def RemovalInvariant (process : ProcessId)
    (snapshot : LockSnapshot Detail) : RemovalPurpose Detail → Prop
  | .reclaim owner _ =>
    Own process owner ∧ world.alive snapshot.owner.pid = false
  | .release token =>
    snapshot.owner.token = token ∧ world.Released process token

def Claimed (process : ProcessId) (token : LockToken)
    (snapshot : LockSnapshot Detail) : Prop :=
  world.Sealed snapshot ∧ snapshot.owner.pid = process ∧
    snapshot.owner.token = token

def ClaimInvariant (process : ProcessId)
    (token : LockToken) : ClaimPhase Detail → Prop
  | .first _ => True
  | .comparing snapshot => world.Claimed process token snapshot
  | .second snapshot _ => world.Claimed process token snapshot
  | .unlinking snapshot => world.Claimed process token snapshot

def PhaseInvariant (process : ProcessId) : LockPhase Detail → Prop
  | .idle => True
  | .creating owner publication => world.Publishes process owner publication
  | .writing owner publication inode =>
    world.Publishes process owner publication ∧
      world.Drafts process inode none
  | .publishing owner publication =>
    world.Publishes process owner publication ∧
      ∃ inode, world.Drafts process inode (some owner)
  | .unstaging owner _ _ => Own process owner
  | .counting owner _ => Own process owner
  | .protecting owner publication => Published process owner publication
  | .inspecting owner publication inode =>
    Published process owner publication ∧
      world.Keeps process owner inode publication
  | .changing _ _ _ => True
  | .reading purpose _ => world.ReadInvariant process purpose
  | .judging owner _ snapshot => Own process owner ∧ world.Sealed snapshot
  | .comparing purpose snapshot =>
    world.Sealed snapshot ∧ world.RemovalInvariant process snapshot purpose
  | .rereading purpose snapshot _ =>
    world.Sealed snapshot ∧ world.RemovalInvariant process snapshot purpose
  | .unlinking purpose snapshot =>
    world.Sealed snapshot ∧ world.RemovalInvariant process snapshot purpose
  | .claiming token phase => world.ClaimInvariant process token phase

end

structure Names (world : LockWorld Detail) (owner : LockOwner Detail) :
    Prop where
  named : ∃ inode, world.files.lookup .lock = some inode ∧
    world.files.kind inode = .regular (some owner)

/-- No running process lost its lock to another one. -/
def Owned (world : LockWorld Detail) : Prop :=
  ∀ loss ∈ world.losses, loss.remover = loss.publisher ∨ loss.alive = false

structure LockInvariant (world : LockWorld Detail) : Prop where
  files : FilesInvariant world.files
  owned : world.Owned
  entitled : ∀ process token, world.Holds process token →
    ∃ owner, world.Names owner ∧ owner.pid = process ∧ owner.token = token
  received : ∀ owner, world.Names owner → world.alive owner.pid = true →
    owner.pid ≠ owner.token.process → world.held owner.pid = some owner.token
  phases : ∀ process, world.alive process = true →
    world.PhaseInvariant process (world.phase process)

section Names

variable {world : LockWorld Detail}

theorem Names.unique {first second : LockOwner Detail}
    (one : world.Names first) (other : world.Names second) :
    first = second := by
  obtain ⟨inode, named, content⟩ := one.named
  obtain ⟨same, renamed, found⟩ := other.named
  rw [named] at renamed
  cases renamed
  rw [content] at found
  cases found
  rfl

theorem publisher_names {owner : LockOwner Detail} :
    world.publisher = some owner ↔ world.Names owner := by
  constructor
  · intro found
    rw [publisher] at found
    split at found
    case h_1 => cases found
    case h_2 inode named =>
      split at found
      case h_1 content regular =>
        rw [found] at regular
        exact ⟨inode, named, regular⟩
      case h_2 => cases found
  · intro names
    obtain ⟨inode, named, content⟩ := names.named
    rw [publisher, named]
    simp only [content]

theorem LockInvariant.single (invariant : world.LockInvariant)
    {first second : ProcessId} {token other : LockToken}
    (one : world.Holds first token) (two : world.Holds second other) :
    first = second ∧ token = other := by
  obtain ⟨owner, names, rfl, rfl⟩ := invariant.entitled _ _ one
  obtain ⟨found, named, rfl, rfl⟩ := invariant.entitled _ _ two
  rw [names.unique named]
  exact ⟨rfl, rfl⟩

theorem LockInvariant.named (invariant : world.LockInvariant)
    {process : ProcessId} {token : LockToken}
    (holds : world.Holds process token) :
    ∃ inode, world.files.lookup .lock = some inode := by
  obtain ⟨_, names, -⟩ := invariant.entitled _ _ holds
  obtain ⟨inode, named, -⟩ := names.named
  exact ⟨inode, named⟩

end Names

structure Spares (world next : LockWorld Detail) (actor : ProcessId) :
    Prop where
  others : ∀ process, process ≠ actor →
    next.processes process = world.processes process
  dead : ∀ process, world.alive process = false → next.alive process = false
  written : ∀ inode owner,
    world.files.kind inode = .regular (some owner) →
      next.files.kind inode = .regular (some owner)
  drafts : ∀ process, process ≠ actor → ∀ inode content,
    world.Drafts process inode content → next.Drafts process inode content
  kept : ∀ process, process ≠ actor → ∀ token,
    world.Holds process token → next.held process = some token
  fixed : ∀ process token, token.process ≠ actor →
    next.Holds process token → world.Holds process token ∧
      next.files.lookup .lock = world.files.lookup .lock

section Spares

variable {world next : LockWorld Detail} {actor process : ProcessId}

variable {snapshot : LockSnapshot Detail} {token : LockToken}

theorem Spares.sealed (spares : Spares world next actor)
    (known : world.Sealed snapshot) : next.Sealed snapshot :=
  spares.written _ _ known

theorem Spares.released (spares : Spares world next actor)
    (different : process ≠ actor) (released : world.Released process token) :
    next.Released process token where
  own := released.own
  others := by
    intro other unlike holds
    apply released.others other unlike
    apply (spares.fixed other token _ holds).1
    rw [released.own]
    exact different

theorem Spares.replaces (spares : Spares world next actor)
    (different : process ≠ actor) (alive : world.alive process = true)
    (replaces : world.Replaces process token) : next.Replaces process token :=
  ⟨replaces.own, spares.kept process different token ⟨alive, replaces.held⟩⟩

theorem Spares.publishes (spares : Spares world next actor)
    (different : process ≠ actor) (alive : world.alive process = true)
    {owner : LockOwner Detail} {publication : Publication}
    (publishes : world.Publishes process owner publication) :
    next.Publishes process owner publication := by
  cases publication with
  | exclusive number => exact publishes
  | update => exact ⟨publishes.1, spares.replaces different alive publishes.2⟩
  | handoff => exact spares.replaces different alive publishes

theorem Spares.keeps (spares : Spares world next actor)
    (different : process ≠ actor) {owner : LockOwner Detail}
    {publication : Publication} {inode : Nat}
    (published : Published process owner publication)
    (keeps : world.Keeps process owner inode publication) :
    next.Keeps process owner inode publication := by
  cases publication with
  | exclusive number => trivial
  | update => trivial
  | handoff =>
    intro other unlike holds
    have foreign : owner.token.process ≠ actor := by
      rw [show owner.token.process = process from published]
      exact different
    obtain ⟨before, same⟩ := spares.fixed other _ foreign holds
    rw [same]
    exact keeps other unlike before

theorem Spares.removal (spares : Spares world next actor)
    (different : process ≠ actor) {purpose : RemovalPurpose Detail}
    (removal : world.RemovalInvariant process snapshot purpose) :
    next.RemovalInvariant process snapshot purpose := by
  cases purpose with
  | reclaim owner number => exact ⟨removal.1, spares.dead _ removal.2⟩
  | release token => exact ⟨removal.1, spares.released different removal.2⟩

theorem Spares.claimed (spares : Spares world next actor)
    (claimed : world.Claimed process token snapshot) :
    next.Claimed process token snapshot :=
  ⟨spares.sealed claimed.1, claimed.2⟩

theorem Spares.phase (spares : Spares world next actor)
    (different : process ≠ actor) (alive : world.alive process = true)
    {phase : LockPhase Detail}
    (invariant : world.PhaseInvariant process phase) :
    next.PhaseInvariant process phase := by
  cases phase with
  | idle => trivial
  | creating owner publication =>
    exact spares.publishes different alive invariant
  | writing owner publication inode =>
    exact ⟨spares.publishes different alive invariant.1,
      spares.drafts process different inode none invariant.2⟩
  | publishing owner publication =>
    obtain ⟨publishes, inode, drafts⟩ := invariant
    exact ⟨spares.publishes different alive publishes, inode,
      spares.drafts process different inode _ drafts⟩
  | unstaging owner number linked | counting owner number
  | protecting owner publication => exact invariant
  | inspecting owner publication inode =>
    exact ⟨invariant.1, spares.keeps different invariant.1 invariant.2⟩
  | changing owner publication inode => trivial
  | reading purpose reader =>
    cases purpose with
    | acquire owner number => exact invariant
    | report => trivial
    | update token startupReadyAt =>
      exact spares.replaces different alive invariant
    | release token => exact spares.released different invariant
  | judging owner number snapshot =>
    exact ⟨invariant.1, spares.sealed invariant.2⟩
  | comparing purpose snapshot | rereading purpose snapshot reader
  | unlinking purpose snapshot =>
    exact ⟨spares.sealed invariant.1, spares.removal different invariant.2⟩
  | claiming token phase =>
    cases phase with
    | first reader => trivial
    | comparing snapshot
    | second snapshot reader
    | unlinking snapshot => exact spares.claimed invariant

end Spares

end LockWorld

end MachineBridge.Locks
