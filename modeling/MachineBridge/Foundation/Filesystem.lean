import MachineBridge.Foundation.Record
import Mathlib.Data.List.Perm.Subperm

/-!
# Files, names and links

A filesystem gives names to numbered inodes; an inode may have several names.
Numbers are never used again, and every change of an inode or of its names
counts as a new generation of the inode.  Each operation either changes the
names in the way its lemma states or refuses.
-/

namespace Foundation

open List

inductive Errno where
  | notFound
  | exists
  | notDirectory
  | isDirectory
  | failed
deriving DecidableEq

inductive FileKind (Content : Type) where
  | regular (content : Content)
  | directory
  | other
deriving DecidableEq

def FileKind.isRegular {Content : Type} : FileKind Content → Bool
  | .regular _ => true
  | _ => false

structure Inode (Content : Type) where
  kind : FileKind Content
  mode : Nat
  changed : Nat := 0

/-- What tells a file apart: its number and its generation. -/
structure FileIdentity where
  (inode changed : Nat)
deriving DecidableEq

structure Filesystem (Name Content : Type) where
  entries : Record Name Nat
  inodes : Nat → Inode Content
  next : Nat
  bounded : ∀ name inode, (name, inode) ∈ entries.entries → inode < next

namespace Filesystem

variable {Name Content : Type} [DecidableEq Name]

/-- The filesystem without entries. -/
def empty : Filesystem Name Content where
  entries := Record.empty
  inodes := fun _ => { kind := .other, mode := 0 }
  next := 0
  bounded := nofun

def lookup (files : Filesystem Name Content) (name : Name) : Option Nat :=
  files.entries.get? name

def kind (files : Filesystem Name Content) (inode : Nat) :
    FileKind Content := (files.inodes inode).kind

section

variable (files : Filesystem Name Content)

def names (inode : Nat) : List Name :=
  (files.entries.filter fun _ other => other == inode).keys

def links (inode : Nat) : Nat :=
  (files.names inode).length

def identity (inode : Nat) : FileIdentity :=
  { inode, changed := (files.inodes inode).changed }

end

@[simp] theorem lookup_empty (name : Name) :
    (empty : Filesystem Name Content).lookup name = none := rfl

variable {files : Filesystem Name Content} {inode : Nat} {name : Name}

theorem lt_next (found : files.lookup name = some inode) :
    inode < files.next :=
  files.bounded name inode (Record.get?_eq_some.mp found)

@[simp] theorem mem_names :
    name ∈ files.names inode ↔ files.lookup name = some inode := by
  rw [names, Record.mem_keys, lookup, Record.get?_eq_some]
  simp

theorem names_nodup (files : Filesystem Name Content) (inode : Nat) :
    (files.names inode).Nodup := Record.keys_nodup _

theorem name_unique (single : files.links inode ≤ 1) {first second : Name}
    (one : files.lookup first = some inode)
    (other : files.lookup second = some inode) : first = second := by
  rw [← mem_names] at one other
  unfold links at single
  generalize files.names inode = names at single one other
  match names with
  | [] => cases one
  | [name] => rw [mem_singleton.mp one, mem_singleton.mp other]
  | _ :: _ :: _ => simp at single

theorem both_names {first second : Name} (double : files.links inode = 2)
    (only : ∀ name, files.lookup name = some inode → name = first ∨
      name = second) :
    files.lookup first = some inode ∧ files.lookup second = some inode := by
  have missing : ∀ {kept dropped : Name},
      (∀ name ∈ files.names inode, name = kept ∨ name = dropped) →
      dropped ∈ files.names inode := by
    intro kept dropped covered
    by_contra absent
    have single : files.names inode ⊆ [kept] := by
      intro name member
      rcases covered name member with same | same
      · exact mem_singleton.mpr same
      · exact absurd (same ▸ member) absent
    have bound := ((files.names_nodup inode).subperm single).length_le
    unfold links at double
    simp only [length_singleton] at bound
    omega
  have covered : ∀ name ∈ files.names inode, name = first ∨ name = second :=
    fun name member => only name (mem_names.mp member)
  exact ⟨mem_names.mp (missing fun name member => (covered name member).symm),
    mem_names.mp (missing covered)⟩

section

variable (files : Filesystem Name Content)

/-- Give a name to an inode; a name it had before is lost. -/
def place (name : Name) (inode : Nat) (valid : inode < files.next) :
    Filesystem Name Content :=
  { files with
    entries := files.entries.set name inode
    bounded := by
      intro other stored member
      rcases Record.mem_set.mp member with ⟨-, same⟩ | ⟨-, old⟩
      · exact same ▸ valid
      · exact files.bounded other stored old }

def erase (name : Name) : Filesystem Name Content :=
  { files with
    entries := files.entries.delete name
    bounded := fun other stored member =>
      files.bounded other stored (Record.mem_delete.mp member).2 }

end

def update (files : Filesystem Name Content) (inode : Nat)
    (change : Inode Content → Inode Content) : Filesystem Name Content :=
  { files with
    inodes := Function.update files.inodes inode
      (change (files.inodes inode)) }

section

variable (files : Filesystem Name Content)

/-- A new generation of an inode. -/
def touch (inode : Nat) : Filesystem Name Content :=
  files.update inode fun info => { info with changed := info.changed + 1 }

/-- A new inode, under a name. -/
def create (name : Name) (kind : FileKind Content) (mode : Nat) :
    Filesystem Name Content :=
  Filesystem.place { files with
    inodes := Function.update files.inodes files.next { kind, mode }
    next := files.next + 1
    bounded := fun other stored member =>
      Nat.lt_succ_of_lt (files.bounded other stored member) } name files.next
    (Nat.lt_succ_self _)

end

section Effects

variable (files : Filesystem Name Content)

@[simp] theorem lookup_place (name other : Name) (inode : Nat)
    (valid : inode < files.next) :
    (files.place name inode valid).lookup other = if other =
    name then some inode else files.lookup other := by
  simp [place, lookup]

@[simp] theorem lookup_erase (name other : Name) :
    (files.erase name).lookup other = if other =
    name then none else files.lookup other := by
  simp [erase, lookup]

@[simp] theorem lookup_update (inode : Nat)
    (change : Inode Content → Inode Content) (name : Name) :
    (files.update inode change).lookup name = files.lookup name := rfl

@[simp] theorem lookup_touch (inode : Nat) (name : Name) :
    (files.touch inode).lookup name = files.lookup name := rfl

@[simp] theorem lookup_create (name other : Name) (kind : FileKind Content)
    (mode : Nat) : (files.create name kind mode).lookup other = if other =
    name then some files.next else files.lookup other := by
  simp only [create, lookup_place]
  rfl

section

variable (name : Name)

@[simp] theorem next_place (inode : Nat) (valid : inode < files.next) :
    (files.place name inode valid).next = files.next := rfl

@[simp] theorem next_erase : (files.erase name).next = files.next := rfl

@[simp] theorem next_touch (inode : Nat) :
    (files.touch inode).next = files.next := rfl

@[simp] theorem next_update (inode : Nat)
    (change : Inode Content → Inode Content) :
    (files.update inode change).next = files.next := rfl

@[simp] theorem next_create (kind : FileKind Content)
    (mode : Nat) : (files.create name kind mode).next = files.next + 1 := rfl

@[simp] theorem kind_place (inode other : Nat) (valid : inode < files.next) :
    (files.place name inode valid).kind other = files.kind other := rfl

@[simp] theorem kind_erase (inode : Nat) :
    (files.erase name).kind inode = files.kind inode := rfl

@[simp] theorem kind_touch (inode other : Nat) :
    (files.touch inode).kind other = files.kind other := by
  unfold touch update kind
  by_cases same : other = inode
  · subst same
    simp
  · simp [Function.update_of_ne same]

theorem kind_update_of_ne {inode other : Nat} (different : other ≠ inode)
    (change : Inode Content → Inode Content) :
    (files.update inode change).kind other = files.kind other := by
  simp [update, kind, Function.update_of_ne different]

@[simp] theorem kind_update_self (inode : Nat)
    (change : Inode Content → Inode Content) :
    (files.update inode change).kind inode =
    (change (files.inodes inode)).kind := by
  simp [update, kind]

@[simp] theorem kind_create_self (kind : FileKind Content) (mode : Nat) :
    (files.create name kind mode).kind files.next = kind := by
  simp [create, place, Filesystem.kind]

end

theorem kind_create_of_ne {inode : Nat} (old : inode ≠ files.next)
    (name : Name) (kind : FileKind Content) (mode : Nat) :
    (files.create name kind mode).kind inode = files.kind inode := by
  simp [create, place, Filesystem.kind, Function.update_of_ne old]

theorem kind_create_of_lt {inode : Nat} (old : inode < files.next)
    (name : Name) (kind : FileKind Content) (mode : Nat) :
    (files.create name kind mode).kind inode = files.kind inode := by
  apply kind_create_of_ne files (Nat.ne_of_lt old)

end Effects

section

variable (files : Filesystem Name Content)

/-- `open` with `wx` -/
def createNew (name : Name) (empty : Content) (mode : Nat) :
    Except Errno (Filesystem Name Content) :=
  match files.lookup name with
  | some _ => .error .exists
  | none => .ok (files.create name (.regular empty) mode)

def makeDirectory (name : Name) : Except Errno (Filesystem Name Content) :=
  match files.lookup name with
  | none => .ok (files.create name .directory 0o777)
  | some inode =>
    match files.kind inode with
    | .directory => .ok files
    | _ => .error .exists

def write (inode : Nat) (content : Content) : Filesystem Name Content :=
  (files.update inode fun info =>
    { info with kind := .regular content }).touch inode

def changeMode (inode mode : Nat) : Filesystem Name Content :=
  (files.update inode fun info => { info with mode }).touch inode

/-- A second name for a file; a name that is taken is never replaced. -/
def link (source target : Name) : Except Errno (Filesystem Name Content) :=
  match found : files.lookup source with
  | none => .error .notFound
  | some inode =>
    match files.lookup target with
    | some _ => .error .exists
    | none =>
      match files.kind inode with
      | .directory => .error .failed
      | _ => .ok ((files.touch inode).place target inode
          (by simpa using lt_next found))

/-- A rename replaces what its target names. -/
def rename (source target : Name) : Except Errno (Filesystem Name Content) :=
  match found : files.lookup source with
  | none => .error .notFound
  | some inode =>
    .ok (((files.touch inode).erase source).place target inode
      (by simpa using lt_next found))

/-- `rm` with `force` -/
def remove (name : Name) : Except Errno (Filesystem Name Content) :=
  match files.lookup name with
  | none => .ok files
  | some inode =>
    match files.kind inode with
    | .directory => .error .isDirectory
    | _ => .ok ((files.touch inode).erase name)

end

section Operations

variable {files next : Filesystem Name Content}

theorem link_eq_ok {source target : Name}
    (linked : files.link source target = .ok next) : ∃ inode,
    files.lookup source = some inode ∧ files.lookup target = none ∧
    next.next = files.next ∧ (∀ other, next.kind other = files.kind other) ∧
    ∀ name, next.lookup name = if name =
    target then some inode else files.lookup name := by
  unfold link at linked
  split at linked
  · cases linked
  case h_2 inode found =>
    split at linked
    · cases linked
    case h_2 free =>
      split at linked
      · cases linked
      · cases linked
        exact ⟨inode, found, free, rfl, by simp, by simp⟩

theorem rename_eq_ok {source target : Name}
    (renamed : files.rename source target = .ok next) : ∃ inode,
    files.lookup source = some inode ∧ next.next = files.next ∧
    (∀ other, next.kind other = files.kind other) ∧ ∀ name, next.lookup name =
    if name = target then some inode else if name =
    source then none else files.lookup name := by
  unfold rename at renamed
  split at renamed
  · cases renamed
  case h_2 inode found =>
    cases renamed
    exact ⟨inode, found, rfl, by simp, by simp⟩

variable {name : Name}

theorem remove_eq_ok (removed : files.remove name = .ok next) :
    next.next = files.next ∧ (∀ other, next.kind other = files.kind other) ∧
    ∀ other,
    next.lookup other = if other = name then none else files.lookup other := by
  unfold remove at removed
  split at removed
  case h_1 absent =>
    cases removed
    refine ⟨rfl, fun _ => rfl, fun other => ?_⟩
    split
    case isTrue same =>
      subst same
      exact absent
    case isFalse => rfl
  · split at removed
    · cases removed
    · cases removed
      exact ⟨rfl, by simp, by simp⟩

theorem makeDirectory_eq_ok (made : files.makeDirectory name = .ok next) :
    files.next ≤ next.next ∧
    (∀ inode, inode < files.next → next.kind inode = files.kind inode) ∧
    (∀ other, other ≠ name → next.lookup other = files.lookup other) ∧
    ∀ other inode, files.lookup other = some inode →
    next.lookup other = some inode := by
  unfold makeDirectory at made
  split at made
  case h_1 absent =>
    cases made
    refine ⟨Nat.le_succ _, fun inode old => ?_, fun other different => ?_,
      fun other inode found => ?_⟩
    · exact kind_create_of_lt files old name .directory 0o777
    · simp [different]
    · have different : other ≠ name := by
        rintro rfl
        rw [absent] at found
        cases found
      simpa [different] using found
  · split at made
    · cases made
      exact ⟨Nat.le_refl _, fun _ _ => rfl, fun _ _ => rfl, fun _ _ => id⟩
    · cases made

theorem createNew_eq_ok {empty : Content} {mode : Nat}
    (created : files.createNew name empty mode = .ok next) :
    next.next = files.next + 1 ∧
    (∀ inode, inode < files.next → next.kind inode = files.kind inode) ∧
    files.lookup name = none ∧ ∀ other, next.lookup other = if other =
    name then some files.next else files.lookup other := by
  unfold createNew at created
  split at created
  · cases created
  case h_2 absent =>
    cases created
    exact ⟨rfl, fun inode old =>
      kind_create_of_lt files old name (.regular empty) mode, absent, by simp⟩

theorem kind_createNew {empty : Content} {mode : Nat}
    (created : files.createNew name empty mode = .ok next) (inode : Nat) :
    next.kind inode = if inode =
    files.next then .regular empty else files.kind inode := by
  unfold createNew at created
  split at created
  · cases created
  · cases created
    split
    case isTrue same => rw [same, kind_create_self]
    case isFalse differ => apply kind_create_of_ne files differ

end Operations

section

variable (files : Filesystem Name Content)

@[simp] theorem lookup_write (inode : Nat) (content : Content) (name : Name) :
    (files.write inode content).lookup name = files.lookup name := rfl

@[simp] theorem kind_write_self (inode : Nat) (content : Content) :
    (files.write inode content).kind inode = .regular content := by
  simp [write]

theorem kind_write_of_ne {other : Nat} (different : other ≠ inode)
    (content : Content) :
    (files.write inode content).kind other = files.kind other := by
  simp [write, kind_update_of_ne files different]

@[simp] theorem lookup_changeMode (inode mode : Nat) (name : Name) :
    (files.changeMode inode mode).lookup name = files.lookup name := rfl

@[simp] theorem kind_changeMode (inode mode other : Nat) :
    (files.changeMode inode mode).kind other = files.kind other := by
  by_cases same : other = inode
  · subst same
    simp [changeMode, kind]
    simp [touch, update]
  · simp [changeMode, kind_update_of_ne files same]

end

/-- Names are lost, and everything else stays. -/
structure Shrinks (files next : Filesystem Name Content) : Prop where
  bound : next.next = files.next
  kinds : ∀ inode, next.kind inode = files.kind inode
  names : ∀ name inode, next.lookup name = some inode →
    files.lookup name = some inode

theorem remove_shrinks {next : Filesystem Name Content}
    (removed : files.remove name = .ok next) : Shrinks files next := by
  obtain ⟨bound, kinds, names⟩ := remove_eq_ok removed
  refine ⟨bound, kinds, ?_⟩
  intro other inode found
  rw [names] at found
  split at found
  case isTrue => cases found
  case isFalse => exact found

theorem changeMode_shrinks (inode mode : Nat) :
    Shrinks files (files.changeMode inode mode) :=
  ⟨rfl, fun other => kind_changeMode files inode mode other,
    fun _ _ found => found⟩

theorem links_le_one (single : ∀ first second,
      files.lookup first = some inode → files.lookup second = some inode →
      first = second) : files.links inode ≤ 1 := by
  rw [links]
  have distinct := files.names_nodup inode
  have same : ∀ first ∈ files.names inode, ∀ second ∈ files.names inode,
      first = second := fun first one second other =>
    single first second (mem_names.mp one) (mem_names.mp other)
  generalize files.names inode = names at distinct same
  match names with
  | [] => exact Nat.zero_le _
  | [name] => exact Nat.le_refl _
  | first :: second :: rest =>
    have equal := same first mem_cons_self second
      (mem_cons_of_mem _ mem_cons_self)
    rw [equal] at distinct
    exact absurd mem_cons_self (nodup_cons.mp distinct).1

structure Alone (files : Filesystem Name Content) (name : Name)
    (inode : Nat) : Prop where
  named : files.lookup name = some inode
  only : ∀ other, files.lookup other = some inode → other = name

theorem Alone.links (alone : files.Alone name inode) :
    files.links inode ≤ 1 := by
  apply links_le_one
  intro first second one other
  rw [alone.only first one, alone.only second other]

end Filesystem

end Foundation
