import MachineBridge.Files.ReadWindow
import MachineBridge.Search.BatchEquivalence
import MachineBridge.Search.WindowShows

/-!
# Searching a workspace

A file is read, and its lines are searched until there are matches enough.  The
files of a workspace are searched in batches.
-/

namespace MachineBridge.Search

open Foundation Files List

def maxSearchFileBytes : Nat := 1024 * 1024

/-- Why a file could not be read: the code of a failed call, or a refusal. -/
inductive SearchReadError where
  | call (code : Text)
  | refused (error : ReadError)

def isSkippableSearchFileError : SearchReadError → Bool
  | .call code => code == text "ELOOP"
  | .refused (.readLimit _ _) => true
  | .refused .unsupportedPathType => true
  | .refused .multipleHardLinks => true
  | .refused _ => false

def readErrorReason : SearchReadError → Text
  | .refused (.readLimit _ _) => text "read_limit"
  | .refused .unsupportedPathType => text "unsupported_path_type"
  | .refused .multipleHardLinks => text "multiple_hard_links"
  | _ => text "unreadable_file"

/-- A walked file: whether a delegated caller may not search its path, and what
an open finds. -/
structure SearchFile where
  path : Text
  sensitive : Bool
  opened : Except Text FileEntry

def SearchFile.read (file : SearchFile) :
    Except SearchReadError (List UInt8) :=
  match file.opened with
  | .error code => .error (.call code)
  | .ok entry => (readBoundedFile entry maxSearchFileBytes).mapError .refused

structure SearchMatch where
  path : Text
  line : Nat
  window : LineWindow
  context : Option (List Text × List Text)

structure SearchOptions where
  caseSensitive : Bool
  contextLines : Nat

structure SearchOutcome where
  (skipped reportableSkip : Bool)
  reason : Text

/-- The lines before and after a line, each cut to the window's size. -/
def contextOf (contextLines : Nat) (lines : List Text) (index : Nat) :
    Option (List Text × List Text) :=
  if contextLines = 0 then none
  else
    some (((lines.take index).drop (index - contextLines)).map
        (·.take windowSize),
      ((lines.drop (index + 1)).take contextLines).map (·.take windowSize))

variable (mapping : CaseMapping) (query : SearchQuery)
  (maximumMatches : Nat) (options : SearchOptions)

def searchLines (path : Text) (lines : List Text) :
    Nat → Nat → List Text → List SearchMatch
  | _, _, [] => []
  | count, index, line :: rest =>
    match findLiteralMatch mapping line query.text options.caseSensitive with
    | none => searchLines path lines count (index + 1) rest
    | some matchIndex =>
      let item :=
        { path
          line := index + 1
          window := lineWindow line matchIndex query.text.length
          context := contextOf options.contextLines lines index }
      if maximumMatches ≤ count + 1 then [item]
      else item :: searchLines path lines (count + 1) (index + 1) rest

section

variable (file : SearchFile)

def readLines : Except SearchReadError (SearchOutcome × List Text) :=
  let skip reportableSkip reason : SearchOutcome × List Text :=
    ({ skipped := true, reportableSkip, reason }, [])
  if file.sensitive then .ok (skip true (text "sensitive_path"))
  else
    match file.read with
    | .error error =>
      if isSkippableSearchFileError error then
        .ok (skip true (readErrorReason error))
      else .error error
    | .ok octets =>
      if octets.contains 0 then .ok (skip false (text "binary_file"))
      else
        match ofUtf8 octets with
        | none => .ok (skip false (text "invalid_utf8"))
        | some content =>
          .ok ({ skipped := false, reportableSkip := false, reason := [] },
            if content = [] then [] else splitLines content)

def searchOneFile :
    Except SearchReadError (SearchOutcome × List SearchMatch) :=
  (readLines file).map fun (outcome, lines) =>
    (outcome,
      searchLines mapping query maximumMatches options file.path lines 0 0
        lines)

def searchFile : Except SearchReadError (List SearchMatch) :=
  (searchOneFile mapping query maximumMatches options file).map Prod.snd

def ShownIn (lines : List Text) (item : SearchMatch) : Prop :=
  ∃ line, lines[item.line - 1]? = some line ∧
    Shows mapping line query options.caseSensitive item.window

def occursIn (line : Text) : Bool :=
  if options.caseSensitive then includes line query.text
  else includes (mapping.toLowerCase line) (mapping.toLowerCase query.text)

def matchingLines : List Text :=
  match readLines file with
  | .error _ => []
  | .ok (_, lines) =>
    (lines.filter (occursIn mapping query options)).take
      (max 1 maximumMatches)

/-- Every match of a file shows the query. -/
def WindowsShow : Prop :=
  ∀ outcome lines, readLines file = .ok (outcome, lines) →
    ∀ found, searchOneFile mapping query maximumMatches options file =
        .ok (outcome, found) →
      ∀ item ∈ found, ShownIn mapping query options lines item

/-- In every line with a match, the characters of the first occurrence end before
the window does. -/
def WindowsFit : Prop :=
  ∀ line ∈ matchingLines mapping query maximumMatches options file,
    Fits mapping line query options.caseSensitive

end

section Windows

variable {mapping query maximumMatches options}

variable (mapping query options) in
theorem isSome_findLiteralMatch (line : Text) :
    (findLiteralMatch mapping line query.text options.caseSensitive).isSome =
    occursIn mapping query options line := by
  rw [occursIn]
  cases sensitive : options.caseSensitive with
  | true => rfl
  | false =>
    rw [findLiteralMatch, if_neg Bool.false_ne_true,
      if_neg Bool.false_ne_true, includes]
    cases search : indexOf (mapping.toLowerCase line)
        (mapping.toLowerCase query.text) 0 with
    | none => rfl
    | some index =>
      have place := originalPlace_of_search search
      dsimp only
      rw [place]
      rfl

theorem shows_iff {line : Text} {column : Nat}
    (small : query.text.length ≤ windowSize) (found : findLiteralMatch mapping
    line query.text options.caseSensitive = some column) : Shows mapping line
    query options.caseSensitive (lineWindow line column query.text.length) ↔
    Fits mapping line query options.caseSensitive := by
  cases sensitive : options.caseSensitive with
  | true =>
    rw [sensitive] at found
    constructor
    · intro _
      exact Or.inl rfl
    · intro _
      exact shows_of_caseSensitive small found
  | false =>
    rw [sensitive] at found
    exact shows_iff_of_folded small found

variable (mapping query maximumMatches options) in
theorem forall_searchLines_iff (path : Text) (small : query.text.length ≤
    windowSize) (done rest : List Text) (count : Nat) : (∀ item ∈ searchLines
    mapping query maximumMatches options path (done ++ rest) count done.length
    rest, ShownIn mapping query options (done ++ rest) item) ↔ ∀ line ∈
    (rest.filter (occursIn mapping query options)).take (max 1 (maximumMatches
    - count)), Fits mapping line query options.caseSensitive := by
  induction rest generalizing done count with
  | nil => simp [searchLines]
  | cons line rest induction =>
    have later := fun count => induction (done ++ [line]) count
    rw [append_assoc, singleton_append, length_append,
      length_singleton] at later
    have occurs := isSome_findLiteralMatch mapping query options line
    rw [searchLines]
    cases found : findLiteralMatch mapping line query.text
        options.caseSensitive with
    | none =>
      rw [found] at occurs
      rw [filter_cons_of_neg (by simp [← occurs])]
      exact later count
    | some column =>
      rw [found] at occurs
      have here : (done ++ line :: rest)[done.length]? = some line := by simp
      have shown : ∀ context : Option (List Text × List Text),
          ShownIn mapping query options (done ++ line :: rest)
            { path
              line := done.length + 1
              window := lineWindow line column query.text.length
              context } ↔
            Fits mapping line query options.caseSensitive := by
        intro context
        rw [← shows_iff small found]
        constructor
        · intro shown
          obtain ⟨other, place, shows⟩ := shown
          rw [Nat.add_sub_cancel, here] at place
          cases place
          exact shows
        · intro shows
          exact ⟨line, by rw [Nat.add_sub_cancel, here], shows⟩
      rw [filter_cons_of_pos (by simp [← occurs])]
      dsimp only
      split
      case isTrue enough =>
        have one : max 1 (maximumMatches - count) = 1 := by omega
        rw [one, take_succ_cons, take_zero,
          forall_mem_singleton, forall_mem_singleton]
        exact shown _
      case isFalse more =>
        have one : max 1 (maximumMatches - count) =
            max 1 (maximumMatches - (count + 1)) + 1 := by omega
        rw [one, take_succ_cons, forall_mem_cons,
          forall_mem_cons, shown, later]

/-- The windows of a file show the query exactly when the characters of every
first occurrence fit into its window. -/
theorem windowsShow_iff (file : SearchFile)
    (small : query.text.length ≤ windowSize) :
    WindowsShow mapping query maximumMatches options file ↔
    WindowsFit mapping query maximumMatches options file := by
  rw [WindowsShow, WindowsFit, matchingLines, searchOneFile]
  cases readLines file with
  | error error =>
    constructor
    · intro _ line inside
      exact absurd inside not_mem_nil
    · intro _ outcome lines read
      cases read
  | ok read =>
    obtain ⟨outcome, lines⟩ := read
    have each := forall_searchLines_iff mapping query maximumMatches options
      file.path small [] lines 0
    constructor
    · intro shown
      exact each.mp (shown outcome lines rfl _ rfl)
    · intro fits outcome' lines' same found searched item inside
      cases same
      cases searched
      exact each.mpr fits item inside

end Windows

def dottedCapital : Text := [0x130]

def dottedSmall : Text := [0x69, 0x307]

/-- Lower case of ASCII letters and of one letter more. -/
def lowerCharacter (character : Text) : Text :=
  if character = dottedCapital then dottedSmall
  else
    match character with
    | [unit] => if isUpper unit then [unit + 0x20] else [unit]
    | _ => character

theorem characters_ne_nil {line character : Text}
    (member : character ∈ characters line) : character ≠ [] := by
  induction line using characters.induct with
  | case1 => cases member
  | case2 unit =>
    rw [mem_singleton.mp member]
    exact cons_ne_nil _ _
  | case3 unit next rest pair induction =>
    rw [characters, if_pos pair] at member
    rcases mem_cons.mp member with first | later
    · rw [first]
      exact cons_ne_nil _ _
    · exact induction later
  | case4 unit next rest single induction =>
    rw [characters, if_neg single] at member
    rcases mem_cons.mp member with first | later
    · rw [first]
      exact cons_ne_nil _ _
    · exact induction later

theorem characters_of_mem {line character : Text}
    (member : character ∈ characters line) :
    characters character = [character] := by
  induction line using characters.induct with
  | case1 => cases member
  | case2 unit =>
    rw [mem_singleton.mp member]
    rfl
  | case3 unit next rest pair induction =>
    rw [characters, if_pos pair] at member
    rcases mem_cons.mp member with first | later
    · rw [first, characters, if_pos pair]
      rfl
    · exact induction later
  | case4 unit next rest single induction =>
    rw [characters, if_neg single] at member
    rcases mem_cons.mp member with first | later
    · rw [first]
      rfl
    · exact induction later

theorem lowerCharacter_ne_nil {character : Text} (some : character ≠ []) :
    lowerCharacter character ≠ [] := by
  obtain ⟨unit, rest, rfl⟩ := exists_cons_of_ne_nil some
  rw [lowerCharacter.eq_def]
  split
  case isTrue => exact cons_ne_nil _ _
  case isFalse =>
    cases rest with
    | cons next rest => exact cons_ne_nil _ _
    | nil =>
      dsimp only
      split
      case isTrue | isFalse => exact cons_ne_nil _ _

def asciiMapping : CaseMapping where
  parts := fun line => (characters line).map lowerCharacter
  parts_nonempty := by
    intro line part member
    obtain ⟨character, inside, rfl⟩ := List.mem_map.mp member
    exact lowerCharacter_ne_nil (characters_ne_nil inside)
  parts_lengths := by
    intro line
    rw [map_map]
    apply map_congr_left
    intro character inside
    simp [characters_of_mem inside]

def dottedQuery : SearchQuery where
  text := List.replicate 300 0x130
  nonempty := by decide
  bounded := by
    rw [length_replicate]
    decide

def dottedLine : Text := (List.replicate 300 dottedSmall).flatten

def dottedFile : SearchFile where
  path := text "dotted.txt"
  sensitive := false
  opened := .ok
    { regular := true
      links := 1
      octets := (List.replicate 300 [0x69, 0xCC, 0x87]).flatten }

end MachineBridge.Search
