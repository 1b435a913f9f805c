import MachineBridge.Foundation.Text
import Mathlib.Data.List.Infix

/-!
# POSIX paths

An absolute path is the list of its segments, none of which is empty, names a
directory relatively or contains a separator.  Resolving a text against a path
and the relative text between two paths follow the path library of the
program's platform.
-/

namespace Foundation

open List

/-- `/` -/
def slash : UInt16 := 0x2F

/-- `.` -/
def dot : UInt16 := 0x2E

def parentSegment : Text := [dot, dot]

/-- A text which may stand between two separators of a resolved path. -/
def properSegment (segment : Text) : Bool :=
  !segment.isEmpty && segment != [dot] && segment != parentSegment &&
    !segment.contains slash

structure Segment where
  val : Text
  proper : properSegment val = true
deriving DecidableEq

/-- An absolute path without relative segments. -/
abbrev Path := List Segment

def joinSegments (segments : List Text) : Text := [slash].intercalate segments

namespace Path

section

variable (path : Path)

def texts : List Text := path.map Segment.val

def toText : Text := slash :: joinSegments path.texts

def enter (segment : Text) : Path :=
  if proper : properSegment segment = true then path ++ [⟨segment, proper⟩]
  else if segment = parentSegment then path.dropLast
  else path

end

/-- `resolve(base, name)` for an absolute base. -/
def resolve (base : Path) (name : Text) : Path :=
  (name.splitOn slash).foldl enter
    (if name.head? = some slash then [] else base)

/-- The segments of `relative(source, target)`. -/
def relativeSegments : Path → Path → List Text
  | [], target => target.texts
  | source, [] => List.replicate source.length parentSegment
  | segment :: source, other :: target =>
    if segment = other then relativeSegments source target
    else List.replicate (source.length + 1) parentSegment ++
      texts (other :: target)

/-- `relative(source, target)` -/
def relative (source target : Path) : Text :=
  joinSegments (relativeSegments source target)

end Path

def isAbsolute (content : Text) : Bool := content.head? == some slash

theorem properSegment_iff {segment : Text} : properSegment segment = true ↔
    segment ≠ [] ∧ segment ≠ [dot] ∧ segment ≠ parentSegment ∧
    slash ∉ segment := by
  simp [properSegment, and_assoc]

namespace Segment

theorem val_injective : Function.Injective Segment.val := by
  rintro ⟨first, _⟩ ⟨second, _⟩ rfl
  rfl

variable (segment : Segment)

theorem ne_nil : segment.val ≠ [] :=
  (properSegment_iff.mp segment.proper).1

theorem ne_parent : segment.val ≠ parentSegment :=
  (properSegment_iff.mp segment.proper).2.2.1

theorem slash_not_mem : slash ∉ segment.val :=
  (properSegment_iff.mp segment.proper).2.2.2

end Segment

@[simp] theorem joinSegments_nil : joinSegments [] = [] := rfl

@[simp] theorem joinSegments_single (segment : Text) :
    joinSegments [segment] = segment := by
  simp [joinSegments]

variable {segments : List Text}

theorem joinSegments_cons (segment : Text) (more : segments ≠ []) :
    joinSegments (segment :: segments) = segment ++ slash ::
    joinSegments segments := by
  simp [joinSegments, intercalate_cons_of_ne_nil more]

theorem mem_joinSegments {unit : UInt16}
    (member : unit ∈ joinSegments segments) :
    unit = slash ∨ ∃ segment ∈ segments, unit ∈ segment := by
  induction segments with
  | nil => simp at member
  | cons segment segments induction =>
    by_cases last : segments = []
    · rw [last, joinSegments_single] at member
      exact .inr ⟨segment, mem_cons_self, member⟩
    · rw [joinSegments_cons segment last, mem_append, mem_cons] at member
      rcases member with inside | separator | rest
      · exact .inr ⟨segment, mem_cons_self, inside⟩
      · exact .inl separator
      · rcases induction rest with separator | ⟨other, inside, held⟩
        · exact .inl separator
        · exact .inr ⟨other, mem_cons_of_mem _ inside, held⟩

theorem joinSegments_cons_cases (segment : Text) (segments : List Text) :
    joinSegments (segment :: segments) = segment ∨ ∃ rest,
    joinSegments (segment :: segments) = segment ++ slash :: rest := by
  by_cases last : segments = []
  · left
    rw [last, joinSegments_single]
  · right
    exact ⟨_, joinSegments_cons segment last⟩

theorem splitOn_joinSegments (some : segments ≠ [])
    (apart : ∀ segment ∈ segments, slash ∉ segment) :
    (joinSegments segments).splitOn slash = segments :=
  splitOn_intercalate slash apart some

theorem prefix_of_joinSegments {first second : List Text}
    (firstSome : first ≠ []) (secondSome : second ≠ [])
    (one : ∀ segment ∈ first, slash ∉ segment)
    (other : ∀ segment ∈ second, slash ∉ segment)
    (within : joinSegments second = joinSegments first ∨
      joinSegments first ++ [slash] <+: joinSegments second) :
    first <+: second := by
  rcases within with same | ⟨rest, same⟩
  · rw [← splitOn_joinSegments firstSome one, ← same,
      splitOn_joinSegments secondSome other]
  · have split : second = first ++ rest.splitOn slash := by
      rw [← splitOn_joinSegments secondSome other, ← same,
        append_assoc, singleton_append,
        splitOn_append_cons_self, splitOn_joinSegments firstSome one]
    rw [split]
    exact prefix_append _ _

theorem joinSegments_append {first second : List Text} (firstSome : first ≠ [])
    (secondSome : second ≠ []) : joinSegments (first ++ second) =
    joinSegments first ++ slash :: joinSegments second := by
  induction first with
  | nil => exact absurd rfl firstSome
  | cons segment first induction =>
    by_cases last : first = []
    · rw [last, joinSegments_single, singleton_append,
        joinSegments_cons segment secondSome]
    · rw [cons_append,
        joinSegments_cons segment (append_ne_nil_of_left_ne_nil last _),
        induction last, joinSegments_cons segment last,
        append_assoc, cons_append]

namespace Path

theorem slash_not_mem_texts {path : Path} {segment : Text}
    (member : segment ∈ path.texts) : slash ∉ segment := by
  obtain ⟨proper, -, rfl⟩ := List.mem_map.mp member
  exact proper.slash_not_mem

@[simp] theorem texts_eq_nil {path : Path} :
    path.texts = [] ↔ path = [] := map_eq_nil_iff

@[simp] theorem texts_append (first second : Path) :
    texts (first ++ second) = first.texts ++ second.texts := map_append

theorem texts_injective : Function.Injective texts :=
  map_injective_iff.mpr Segment.val_injective

theorem texts_prefix {first second : Path} :
    first.texts <+: second.texts ↔ first <+: second := by
  constructor
  · rintro ⟨rest, same⟩
    have cut : texts (second.take first.length) = first.texts := by
      rw [texts, map_take, ← texts, ← same]
      simp [texts]
    rw [← texts_injective cut]
    exact take_prefix _ _
  · intro within
    exact within.map Segment.val

theorem enter_proper (path : Path) (segment : Segment) :
    path.enter segment.val = path ++ [segment] := by
  rw [enter, dif_pos segment.proper]

theorem foldl_enter (path more : Path) :
    more.texts.foldl enter path = path ++ more := by
  induction more generalizing path with
  | nil => simp [texts]
  | cons segment more induction =>
    have rest := induction (path ++ [segment])
    rw [texts] at rest ⊢
    rw [map_cons, foldl_cons, enter_proper, rest,
      append_assoc, singleton_append]

theorem head_joinSegments (path : Path) :
    (joinSegments path.texts).head? ≠ some slash := by
  cases path with
  | nil => simp [texts]
  | cons segment path =>
    intro begins
    have apart := segment.slash_not_mem
    have filled := segment.ne_nil
    obtain ⟨unit, rest, shape⟩ := exists_cons_of_ne_nil filled
    rcases joinSegments_cons_cases segment.val (texts path) with same | same
    · rw [texts, map_cons, ← texts, same, shape] at begins
      simp_all
    · obtain ⟨more, same⟩ := same
      rw [texts, map_cons, ← texts, same, shape] at begins
      simp_all

theorem resolve_joinSegments (base : Path) {more : Path} (some : more ≠ []) :
    base.resolve (joinSegments more.texts) = base ++ more := by
  rw [resolve, if_neg (head_joinSegments more), splitOn_joinSegments
    (mt texts_eq_nil.mp some) fun _ => slash_not_mem_texts, foldl_enter]

theorem relativeSegments_append (base more : Path) :
    relativeSegments base (base ++ more) = more.texts := by
  induction base with
  | nil => simp [relativeSegments]
  | cons segment base induction =>
    rw [cons_append, relativeSegments, if_pos rfl, induction]

theorem relativeSegments_of_not_prefix {source target : Path}
    (outside : ¬ source <+: target) :
    ∃ rest, relativeSegments source target = parentSegment :: rest := by
  fun_induction relativeSegments source target with
  | case1 target => exact absurd (List.nil_prefix) outside
  | case2 source some =>
    cases source with
    | nil => exact absurd rfl some
    | cons segment source => exact ⟨_, rfl⟩
  | case3 source segment target induction =>
    apply induction
    intro within
    exact outside (prefix_cons_inj segment |>.mpr within)
  | case4 segment source other target differ => exact ⟨_, rfl⟩

end Path

/-- The test with which the program decides that a relative path stays below
its source. -/
def staysBelow (relativePath : Text) : Bool :=
  relativePath.isEmpty ||
    (!(parentSegment ++ [slash]).isPrefixOf relativePath &&
      relativePath != parentSegment && !isAbsolute relativePath)

/-- A relative path stays below its source exactly when the source is an
ancestor of the target or the target itself. -/
theorem staysBelow_relative {source target : Path} :
    staysBelow (source.relative target) = true ↔ source <+: target := by
  constructor
  · intro below
    by_contra outside
    obtain ⟨rest, shape⟩ := Path.relativeSegments_of_not_prefix outside
    rcases joinSegments_cons_cases parentSegment rest with same | same
    · rw [Path.relative, shape, same] at below
      exact absurd below (by decide)
    · obtain ⟨more, same⟩ := same
      rw [Path.relative, shape, same] at below
      simp [staysBelow, parentSegment] at below
  · rintro ⟨more, rfl⟩
    rw [Path.relative, Path.relativeSegments_append]
    cases more with
    | nil => rfl
    | cons segment more =>
      have relative := Path.head_joinSegments (segment :: more)
      have inside : ¬ (joinSegments (Path.texts (segment :: more)) =
          joinSegments [parentSegment] ∨ joinSegments [parentSegment] ++
          [slash] <+: joinSegments (Path.texts (segment :: more))) := by
        intro up
        have first := prefix_of_joinSegments (by simp) (by simp [Path.texts])
          (by decide) (fun _ => Path.slash_not_mem_texts) up
        have same := (cons_prefix_cons.mp first).1
        exact segment.ne_parent same.symm
      rw [joinSegments_single, not_or] at inside
      rw [staysBelow, Bool.or_eq_true]
      right
      simp [isAbsolute, inside, relative, ← Bool.not_eq_true,
        isPrefixOf_iff_prefix]

end Foundation
