import MachineBridge.Files.PatchTransaction

/-!
# What a patch transaction keeps

An entry stands at a path when it was there at the beginning or when the other
process put it there.  The transaction never loses such an entry: it is still at
its path, or the other process took it away itself, or it is in the backup of
the operation whose source it was.  For every operation that was begun, the
entries the other process did not touch can be put back as they were.
-/

namespace MachineBridge.Files

open Foundation List

variable {Content Digest : Type}

namespace PatchState

section

variable (state : PatchState Content Digest)

/-- The other process changed the entry at a path. -/
def Touched (path : PatchPath) : Prop :=
  ∃ disturbance ∈ state.disturbances, disturbance.path = path

def Displaced (path : PatchPath) (inode : Nat) : Prop :=
  ∃ disturbance ∈ state.disturbances,
    disturbance.path = path ∧ disturbance.displaced = some inode

def Put (path : PatchPath) (inode : Nat) : Prop :=
  ∃ disturbance ∈ state.disturbances,
    disturbance.path = path ∧ disturbance.put = some inode

end

end PatchState

open PatchState

variable (operations : List (PatchOperation Content Digest))
  (before : Filesystem PatchName Content)

section

variable (state : PatchState Content Digest)

/-- An entry that was there at the beginning, or that the other process put
there. -/
def Standing (path : PatchPath) (inode : Nat) : Prop :=
  path ∈ patchPaths operations ∧ before.lookup (.path path) = some inode ∨
    state.Put path inode

/-- The inode is in the backup of the operation which has the path as its
source. -/
def BackedUp (path : PatchPath) (inode : Nat) : Prop :=
  ∃ index operation, operations[index]? = some operation ∧
    operation.source? = some path ∧
    state.files.lookup (.backup index) = some inode

def Saved (path : PatchPath) (inode : Nat) : Prop :=
  state.files.lookup (.path path) = some inode ∨
    state.Displaced path inode ∨ BackedUp operations state path inode

end

/-- Files that the transaction did not create keep their content. -/
structure Intact (state : PatchState Content Digest) : Prop where
  next_le : before.next ≤ state.files.next
  kind_eq : ∀ inode, inode < before.next →
    state.files.kind inode = before.kind inode
  created : ∀ inode ∈ state.created,
    before.next ≤ inode ∧ inode < state.files.next
  put : ∀ disturbance ∈ state.disturbances, ∀ inode,
    disturbance.put = some inode →
      (before.next ≤ inode ∧ inode < state.files.next ∧
        inode ∉ state.created) ∧
      disturbance.kind = some (state.files.kind inode)

structure Sound (state : PatchState Content Digest) : Prop
    extends Intact before state where
  saved : ∀ path inode, Standing operations before state path inode →
    Saved operations state path inode

/-- An operation that was begun, as far as the other process did not touch its
paths. -/
structure Begun (record : CommitRecord Content Digest)
    (state : PatchState Content Digest) : Prop where
  listed : operations[record.index]? = some record.operation
  backup_eq : record.backup =
    record.operation.source?.map fun _ => .backup record.index
  backed : ∀ source, record.operation.source? = some source →
    ¬ state.Touched source → ∃ inode,
      before.lookup (.path source) = some inode ∧
      state.files.lookup (.backup record.index) = some inode
  bare : record.operation.source? = none →
    state.files.lookup (.backup record.index) = none
  untouched : ∀ target, record.operation.target? = some target →
    record.operation.source? ≠ some target → ¬ state.Touched target →
    if record.targetCreated then before.lookup (.path target) = none
    else state.files.lookup (.path target) = before.lookup (.path target)
  identity : ∀ identity, record.targetIdentity = some identity →
    identity.inode ∈ state.created

/-- The paths of an operation that the other process did not touch are as they
were at the beginning. -/
def AsBefore (operation : PatchOperation Content Digest)
    (state : PatchState Content Digest) : Prop :=
  ∀ path ∈ operation.paths, ¬ state.Touched path →
    state.files.lookup (.path path) = before.lookup (.path path)

structure Undoing (records : List (CommitRecord Content Digest))
    (clean : Prop) (state : PatchState Content Digest) : Prop where
  sound : Sound operations before state
  begun : ∀ record ∈ records, Begun operations before record state
  distinct : (records.map CommitRecord.index).Nodup
  asBefore : clean → ∀ index operation,
    operations[index]? = some operation →
    index ∉ records.map CommitRecord.index →
    AsBefore before operation state
  cleared : clean → ∀ index, index ∉ records.map CommitRecord.index →
    state.files.lookup (.backup index) = none

section Interference

variable {paths : List PatchPath} {state next : PatchState Content Digest}

/-- What is noted about an action. -/
def noted (state next : PatchState Content Digest) (path : PatchPath)
    (put : Option Nat) : Disturbance Content where
  path := path
  displaced := state.files.lookup (.path path)
  put := put
  kind := put.map next.files.kind

/-- What one action of the other process does. -/
structure Interfered (state next : PatchState Content Digest)
    (path : PatchPath) (put : Option Nat) : Prop where
  disturbances_eq : next.disturbances =
    state.disturbances ++ [noted state next path put]
  lookup_eq : ∀ name, name ≠ .path path →
    next.files.lookup name = state.files.lookup name
  lookup_self : next.files.lookup (.path path) = put
  put_fresh : ∀ inode, put = some inode →
    inode = state.files.next ∧ inode < next.files.next
  next_le : state.files.next ≤ next.files.next
  kind_eq : ∀ inode, inode < state.files.next →
    next.files.kind inode = state.files.kind inode
  created_eq : next.created = state.created
  staged_eq : next.staged = state.staged
  committed_eq : next.committed = state.committed

theorem interfere_cases (paths : List PatchPath)
    (action : PatchInterference Content) (state : PatchState Content Digest) :
    state.interfere paths action = state ∨ ∃ path put,
    Interfered state (state.interfere paths action) path put := by
  cases action with
  | put path kind mode =>
    simp only [interfere]
    split
    case isTrue =>
      refine .inr ⟨path, some state.files.next, ?_⟩
      cases displaced : state.files.lookup (.path path) with
      | none =>
        refine ⟨by simp [displaced, noted], by simp +contextual, by simp,
          by simp, by simp, fun inode old => ?_, rfl, rfl, rfl⟩
        exact Filesystem.kind_create_of_lt state.files old _ _ _
      | some inode =>
        have put := Filesystem.kind_create_self (state.files.touch inode)
          (.path path) kind mode
        refine ⟨?_, by simp +contextual, by simp, by simp, by simp,
          fun other old => ?_, rfl, rfl, rfl⟩
        · rw [Filesystem.next_touch] at put
          simp [displaced, noted, put]
        rw [← Filesystem.kind_touch state.files inode other]
        exact Filesystem.kind_create_of_lt (state.files.touch inode) old _ _ _
    case isFalse => exact .inl rfl
  | delete path =>
    simp only [interfere]
    split
    case isTrue =>
      split
      case h_1 => exact .inl rfl
      case h_2 inode found =>
        refine .inr ⟨path, none, ?_, by simp +contextual, by simp, by rintro _ ⟨⟩,
          by simp, by simp, rfl, rfl, rfl⟩
        rw [noted, found]
        rfl
    case isFalse => exact .inl rfl

theorem stable_of_interfered {Assertion : PatchState Content Digest → Prop}
    (kept : ∀ {state next : PatchState Content Digest} {path put},
      Interfered state next path put → Assertion state → Assertion next) :
    Process.Stable (interfere paths) Assertion := by
  intro action state holds
  rcases interfere_cases paths action state with same | ⟨path, put, interfered⟩
  · rw [same]
    exact holds
  · exact kept interfered holds

variable {path : PatchPath} {put : Option Nat}

theorem Interfered.touched (interfered : Interfered state next path put) :
    next.Touched path := by
  refine ⟨noted state next path put, ?_, rfl⟩
  rw [interfered.disturbances_eq]
  exact mem_append_right _ (mem_singleton.mpr rfl)

variable {other : PatchPath} {inode : Nat}

theorem Interfered.untouched (interfered : Interfered state next path put)
    (untouched : ¬ next.Touched other) :
    other ≠ path ∧ ¬ state.Touched other := by
  constructor
  · intro same
    exact untouched (same ▸ interfered.touched)
  · rintro ⟨disturbance, member, same⟩
    refine untouched ⟨disturbance, ?_, same⟩
    rw [interfered.disturbances_eq]
    exact mem_append_left _ member

section

variable (interfered : Interfered state next path put)
include interfered

theorem Interfered.lookup_of_untouched (untouched : ¬ next.Touched other) :
    next.files.lookup (.path other) = state.files.lookup (.path other) := by
  apply interfered.lookup_eq
  intro same
  exact (interfered.untouched untouched).1 (PatchName.path.inj same)

theorem Interfered.lookup_backup (index : Nat) :
    next.files.lookup (.backup index) = state.files.lookup (.backup index) :=
  interfered.lookup_eq _ nofun

theorem Interfered.lookup_staged (index : Nat) :
    next.files.lookup (.staged index) = state.files.lookup (.staged index) :=
  interfered.lookup_eq _ nofun

theorem Interfered.put_cases (placed : next.Put other inode) :
    state.Put other inode ∨ other = path ∧ put = some inode := by
  obtain ⟨disturbance, member, same, stored⟩ := placed
  rw [interfered.disturbances_eq] at member
  rcases mem_append.mp member with old | new
  · exact .inl ⟨disturbance, old, same, stored⟩
  · rw [mem_singleton.mp new] at same stored
    exact .inr ⟨same.symm, stored⟩

end

theorem Interfered.displaced (interfered : Interfered state next path put)
    (displaced : state.Displaced other inode) :
    next.Displaced other inode := by
  obtain ⟨disturbance, member, found⟩ := displaced
  refine ⟨disturbance, ?_, found⟩
  rw [interfered.disturbances_eq]
  exact mem_append_left _ member

section

variable (interfered : Interfered state next path put)
include interfered

theorem Interfered.kept
    (here : state.files.lookup (.path other) = some inode) :
    next.files.lookup (.path other) = some inode ∨
    next.Displaced other inode := by
  by_cases same : other = path
  · right
    refine ⟨noted state next path put, ?_, same.symm, same ▸ here⟩
    rw [interfered.disturbances_eq]
    exact mem_append_right _ (mem_singleton.mpr rfl)
  · left
    rw [interfered.lookup_eq _ (by simpa using same)]
    exact here

theorem Interfered.standing_cases
    {operations : List (PatchOperation Content Digest)}
    {before : Filesystem PatchName Content}
    (standing : Standing operations before next other inode) :
    Standing operations before state other inode ∨
    next.files.lookup (.path other) = some inode := by
  rcases standing with original | placed
  · exact .inl (.inl original)
  · rcases interfered.put_cases placed with old | ⟨same, new⟩
    · exact .inl (.inr old)
    · right
      rw [same, interfered.lookup_self]
      exact new

end

theorem Interfered.saved (interfered : Interfered state next path put)
    {operations : List (PatchOperation Content Digest)}
    (saved : Saved operations state other inode) :
    Saved operations next other inode := by
  rcases saved with here | displaced |
    ⟨index, operation, listed, source, backup⟩
  · exact (interfered.kept here).imp_right .inl
  · exact .inr (.inl (interfered.displaced displaced))
  · right
    right
    refine ⟨index, operation, listed, source, ?_⟩
    rw [interfered.lookup_backup index]
    exact backup

variable {operations before}

theorem Intact.interfered (intact : Intact before state)
    (interfered : Interfered state next path put) : Intact before next where
  next_le := Nat.le_trans intact.next_le interfered.next_le
  kind_eq := fun inode old =>
    (interfered.kind_eq inode (Nat.lt_of_lt_of_le old intact.next_le)).trans
      (intact.kind_eq inode old)
  created := by
    rw [interfered.created_eq]
    intro inode member
    obtain ⟨least, most⟩ := intact.created inode member
    exact ⟨least, Nat.lt_of_lt_of_le most interfered.next_le⟩
  put := by
    rw [interfered.created_eq, interfered.disturbances_eq]
    intro disturbance member inode placed
    rcases mem_append.mp member with old | new
    · obtain ⟨⟨least, most, foreign⟩, kind⟩ :=
        intact.put disturbance old inode placed
      refine ⟨⟨least, Nat.lt_of_lt_of_le most interfered.next_le, foreign⟩, ?_⟩
      rw [interfered.kind_eq inode most]
      exact kind
    · rw [mem_singleton.mp new] at placed ⊢
      obtain ⟨same, most⟩ := interfered.put_fresh inode placed
      refine ⟨⟨same ▸ intact.next_le, most, fun member => ?_⟩, ?_⟩
      · exact Nat.lt_irrefl _ (same ▸ (intact.created inode member).2)
      · exact congrArg (Option.map next.files.kind) placed

theorem Sound.interfered (sound : Sound operations before state)
    (interfered : Interfered state next path put) :
    Sound operations before next where
  toIntact := sound.toIntact.interfered interfered
  saved := by
    intro other inode standing
    rcases interfered.standing_cases standing with earlier | here
    · exact interfered.saved (sound.saved other inode earlier)
    · exact .inl here

theorem Begun.interfered {record : CommitRecord Content Digest}
    (begun : Begun operations before record state)
    (interfered : Interfered state next path put) :
    Begun operations before record next where
  __ := begun
  backed := by
    intro source found untouched
    obtain ⟨inode, original, backup⟩ := begun.backed source found
      (interfered.untouched untouched).2
    refine ⟨inode, original, ?_⟩
    rw [interfered.lookup_backup record.index]
    exact backup
  bare := by
    rw [interfered.lookup_backup record.index]
    exact begun.bare
  untouched := by
    intro target found other untouched
    have same := interfered.lookup_of_untouched untouched
    have earlier := begun.untouched target found other
      (interfered.untouched untouched).2
    split
    case isTrue created => rwa [if_pos created] at earlier
    case isFalse absent =>
      rw [if_neg absent] at earlier
      exact same.trans earlier
  identity := by
    rw [interfered.created_eq]
    exact begun.identity

theorem AsBefore.interfered {operation : PatchOperation Content Digest}
    (same : AsBefore before operation state)
    (interfered : Interfered state next path put) :
    AsBefore before operation next := by
  intro other member untouched
  rw [interfered.lookup_of_untouched untouched]
  exact same other member (interfered.untouched untouched).2

theorem Undoing.interfered {records : List (CommitRecord Content Digest)}
    {clean : Prop} (undoing : Undoing operations before records clean state)
    (interfered : Interfered state next path put) :
    Undoing operations before records clean next where
  sound := undoing.sound.interfered interfered
  begun := fun record member => (undoing.begun record member).interfered
    interfered
  distinct := undoing.distinct
  asBefore := fun isClean index operation listed other =>
    (undoing.asBefore isClean index operation listed other).interfered
      interfered
  cleared := by
    intro isClean index other
    rw [interfered.lookup_backup index]
    exact undoing.cleared isClean index other

structure Alone (name : PatchName) (inode : Nat)
    (state : PatchState Content Digest) : Prop where
  lookup_eq : state.files.lookup name = some inode
  only : ∀ other, state.files.lookup other = some inode → other = name

theorem Interfered.lookup_old (interfered : Interfered state next path put)
    {name other : PatchName} (old : state.files.lookup name = some inode)
    (found : next.files.lookup other = some inode) :
    state.files.lookup other = some inode := by
  by_cases same : other = .path path
  · rw [same, interfered.lookup_self] at found
    have new := (interfered.put_fresh inode found).1
    exact absurd (Filesystem.lt_next old) (new ▸ Nat.lt_irrefl _)
  · rw [← interfered.lookup_eq other same]
    exact found

theorem Alone.interfered {name : PatchName} (alone : Alone name inode state)
    (interfered : Interfered state next path put)
    (internal : name ≠ .path path) : Alone name inode next where
  lookup_eq := by
    rw [interfered.lookup_eq name internal]
    exact alone.lookup_eq
  only := fun other found =>
    alone.only other (interfered.lookup_old alone.lookup_eq found)

end Interference

end MachineBridge.Files
