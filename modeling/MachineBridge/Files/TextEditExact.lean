import MachineBridge.Files.TextEdit

/-!
# When an edit is exact

The count sees occurrences which do not overlap, the conversion leaves a new
text alone which already has a carriage return before some line feed, and a
fragment may cut a surrogate pair.  Apart from these, an edit which is applied
replaces the one occurrence of its fragment.
-/

namespace MachineBridge.Files

open Foundation List

variable {current oldText newText : Text}

variable {content needle fragment before after : Text} {octets : List UInt8}
  {plan : EditPlan} {file : FileEntry}

theorem countOccurrences_eq_zero_iff :
    countOccurrences content needle = 0 ↔ includes content needle = false := by
  rw [countOccurrences, countFrom, includes]
  cases indexOf content needle 0 with
  | none => exact ⟨fun _ => rfl, fun _ => rfl⟩
  | some position =>
    constructor
    · intro zero
      exact absurd zero (Nat.succ_ne_zero _)
    · intro missing
      cases missing

theorem first_of_count_one (filled : needle ≠ [])
    (once : countOccurrences content needle = 1) : ∃ first,
    indexOf content needle 0 = some first ∧ OccursAt content needle first ∧
    ∀ position, OccursAt content needle position → first ≤ position ∧
    position < first + needle.length := by
  rw [countOccurrences, countFrom] at once
  cases found : indexOf content needle 0 with
  | none =>
    rw [found] at once
    cases once
  | some first =>
    rw [found] at once
    obtain ⟨-, occurs, earliest⟩ := indexOf_eq_some (Nat.zero_le _) found
    refine ⟨first, rfl, occurs, ?_⟩
    intro position stands
    refine ⟨?_, ?_⟩
    · apply Nat.le_of_not_lt
      intro before
      exact earliest position (Nat.zero_le _) before stands
    · apply Nat.lt_of_not_le
      intro behind
      have none := Nat.succ.inj once
      obtain ⟨fuel, size⟩ : ∃ fuel, content.length = fuel + 1 := by
        apply Nat.exists_eq_succ_of_ne_zero
        intro empty
        have start := occurs.1
        rw [length_eq_zero_iff.mp empty, drop_nil] at start
        exact filled (prefix_nil.mp start)
      rw [size, countFrom] at none
      cases later : indexOf content needle (first + needle.length) with
      | none => exact indexOf_eq_none later behind stands
      | some other =>
        rw [later] at none
        exact Nat.succ_ne_zero _ none

theorem unique_or_overlaps (filled : needle ≠ [])
    (once : countOccurrences content needle = 1)
    (apart : ¬ Overlaps content needle) : ∃ first,
    indexOf content needle 0 = some first ∧ OccursAt content needle first ∧
    ∀ position, OccursAt content needle position → position = first := by
  obtain ⟨first, found, occurs, others⟩ := first_of_count_one filled once
  refine ⟨first, found, occurs, ?_⟩
  intro position stands
  obtain ⟨lower, upper⟩ := others position stands
  apply Nat.le_antisymm _ lower
  apply Nat.le_of_not_lt
  intro later
  exact apart ⟨first, position, later, upper, occurs, stands⟩

theorem convertedMatch_of_ne_zero {current oldText converted : Text}
    (some : (convertedMatch current oldText converted).occurrences ≠ 0) :
    convertedMatch current oldText converted =
    ⟨converted, countOccurrences current converted, .normalizedNewlines⟩ := by
  rw [convertedMatch] at some ⊢
  split at some
  case isTrue present => rw [if_pos present]
  case isFalse => exact absurd rfl some

theorem findText_spec (some : (findText current oldText).occurrences ≠ 0) :
    findText current oldText = ⟨soughtText current oldText,
      countOccurrences current (soughtText current oldText),
      if includes current oldText then .exact else .normalizedNewlines⟩ := by
  rw [findText] at some ⊢
  by_cases missing : countOccurrences current oldText = 0
  · have absent := countOccurrences_eq_zero_iff.mp missing
    rw [if_neg (not_not.mpr missing)] at some ⊢
    rw [soughtText, absent]
    simp only [Bool.false_eq_true, if_false, withLineEndsOf]
    cases ends : includes current crlf with
    | true =>
      rw [ends] at some
      split at some
      case isTrue plain =>
        rw [if_pos plain]
        exact convertedMatch_of_ne_zero some
      case isFalse => exact absurd rfl some
    | false =>
      rw [ends] at some
      simp only [Bool.false_and, Bool.not_false, Bool.true_and,
        Bool.false_eq_true, if_false] at some ⊢
      split at some
      case isTrue plain =>
        rw [if_pos plain]
        exact convertedMatch_of_ne_zero some
      case isFalse => exact absurd rfl some
  · have present : includes current oldText = true := by
      rw [← Bool.not_eq_false]
      exact mt countOccurrences_eq_zero_iff.mpr missing
    rw [if_pos missing, soughtText, present]
    rfl

theorem replacementText_eq (found : (findText current oldText).occurrences ≠ 0)
    (converted : ¬ KeepsLineEnds current oldText newText) :
    replacementText current (findText current oldText).matchMode newText =
    insertedText current oldText newText := by
  rw [findText_spec found, insertedText, replacementText]
  cases literal : includes current oldText with
  | true => simp
  | false =>
    cases carriage : includes newText crlf with
    | true =>
      simp only [Bool.true_eq_false, and_false, if_false]
      apply Classical.byContradiction
      intro other
      exact converted ⟨literal, carriage, Ne.symm other⟩
    | false =>
      rw [withLineEndsOf]
      cases ends : includes current crlf with
      | true => rfl
      | false =>
        symm
        apply toLf_eq_self
        intro before after same
        have occurs := occursAt_append before crlf after
        rw [← same] at occurs
        rw [includes_iff.mpr ⟨_, occurs⟩] at carriage
        cases carriage

section

variable (keeps : KeepsLineEnds current oldText newText)
include keeps

theorem replacementText_of_keeps :
    replacementText current (findText current oldText).matchMode newText =
    newText := by
  rw [replacementText, if_neg]
  rintro ⟨-, -, plain⟩
  rw [keeps.2.1] at plain
  cases plain

theorem count_ne_of_keeps :
    (insertedText current oldText newText).count carriageReturn ≠
    newText.count carriageReturn := by
  obtain ⟨literal, -, other⟩ := keeps
  rw [insertedText, literal]
  rw [withLineEndsOf] at other ⊢
  split at other
  case isTrue ends =>
    rw [if_pos ends]
    rcases toCrlf_eq_or_count_lt newText with same | more
    · exact absurd same other
    · exact Nat.ne_of_gt more
  case isFalse ends =>
    rw [if_neg ends]
    rcases toLf_eq_or_count_lt newText with same | fewer
    · exact absurd same other
    · exact Nat.ne_of_lt fewer

end

theorem byteLength_append_le (before after : Text) :
    byteLength (before ++ after) ≤ byteLength before + byteLength after := by
  by_cases cut : EndsInPair before ∧ StartsInPair after
  · exact Nat.le_of_lt (byteLength_append_lt cut.1 cut.2)
  · rw [byteLength, toUtf8_append cut, length_append]
    exact Nat.le_refl _

theorem startsInPair_append {rest : Text} (filled : fragment ≠ []) :
    StartsInPair (fragment ++ rest) ↔ StartsInPair fragment := by
  cases fragment with
  | nil => exact absurd rfl filled
  | cons unit fragment => simp [StartsInPair]

theorem endsInPair_append (filled : fragment ≠ []) :
    EndsInPair (before ++ fragment) ↔ EndsInPair fragment := by
  rw [EndsInPair, EndsInPair, getLast?_append_of_ne_nil before filled]

section

variable (read : ofUtf8 octets = some (before ++ fragment ++ after))
include read

theorem toUtf8_around (filled : fragment ≠ []) (whole : ¬ CutsPair fragment)
    (replacement : Text) : toUtf8 (before ++ replacement ++ after) =
    toUtf8 before ++ toUtf8 replacement ++ toUtf8 after := by
  have front : ¬ EndsInPair before := by
    rw [append_assoc] at read
    rw [endsInPair_iff_startsInPair read, startsInPair_append filled]
    exact fun starts => whole (.inl starts)
  have back : ¬ StartsInPair after := by
    rw [← endsInPair_iff_startsInPair read, endsInPair_append filled]
    exact fun ends => whole (.inr ends)
  rw [toUtf8_append fun cut => back cut.2,
    toUtf8_append fun cut => front cut.1]

theorem not_cutsPair_of_toUtf8 (filled : fragment ≠ [])
    (apart : octets = toUtf8 before ++ toUtf8 fragment ++ toUtf8 after) :
    ¬ CutsPair fragment := by
  have same := toUtf8_of_ofUtf8 read
  have sizes := congrArg List.length (same.trans apart)
  rw [length_append, length_append] at sizes
  rintro (starts | ends)
  · rw [append_assoc] at read sizes
    have front : EndsInPair before := by
      rw [endsInPair_iff_startsInPair read, startsInPair_append filled]
      exact starts
    have back : StartsInPair (fragment ++ after) :=
      (startsInPair_append filled).mpr starts
    have fewer := byteLength_append_lt front back
    have rest := byteLength_append_le fragment after
    rw [byteLength, sizes] at fewer
    rw [byteLength, byteLength, byteLength] at rest
    rw [byteLength, byteLength] at fewer
    omega
  · have front : EndsInPair (before ++ fragment) :=
      (endsInPair_append filled).mpr ends
    have back := (endsInPair_iff_startsInPair read).mp front
    have fewer := byteLength_append_lt front back
    have rest := byteLength_append_le before fragment
    rw [byteLength, sizes] at fewer
    rw [byteLength, byteLength, byteLength] at rest
    rw [byteLength, byteLength] at fewer
    omega

end

theorem planReplacement_eq_ok {args : EditArgs} (single : args.replaceAll =
    false) : planReplacement current args = .ok plan ↔ (findText current
    args.oldText).occurrences = 1 ∧ plan = ⟨replaceFirst current (findText
    current args.oldText).searchTarget (replacementText current (findText
    current args.oldText).matchMode args.newText), 1, (findText current
    args.oldText).matchMode⟩ ∧ byteLength plan.updated ≤ maxWriteBytes := by
  rw [planReplacement]
  generalize findText current args.oldText = found
  simp only [single, Bool.not_false, Bool.true_and, Bool.false_eq_true,
    if_false]
  by_cases once : found.occurrences = 1
  · rw [if_neg (by omega), if_neg (by simp [once]), once]
    split
    case isTrue large =>
      constructor
      · intro impossible
        cases impossible
      · rintro ⟨-, rfl, small⟩
        exact absurd large (Nat.not_lt.mpr small)
    case isFalse small =>
      constructor
      · intro same
        obtain rfl := Except.ok.inj same
        exact ⟨rfl, rfl, Nat.le_of_not_lt small⟩
      · rintro ⟨-, rfl, -⟩
        rfl
  · constructor
    · intro accepted
      split at accepted
      · cases accepted
      · split at accepted
        · cases accepted
        case isFalse ambiguous => simp [once] at ambiguous
    · intro accepted
      exact absurd accepted.1 once

theorem planEdit_eq_ok {environment : EditEnvironment} {args : EditArgs}
    (planned : planEdit environment file args = .ok (current, plan)) :
    args.oldText ≠ [] ∧ readUtf8File file = .ok current ∧
    planReplacement current args = .ok plan := by
  rw [planEdit] at planned
  split at planned
  · cases planned
  case isFalse filled =>
    split at planned
    · cases planned
    · split at planned
      · cases planned
      case h_2 content read =>
        split at planned
        · cases planned
        · cases result : planReplacement content args with
          | error error =>
            rw [result] at planned
            cases planned
          | ok other =>
            rw [result] at planned
            obtain ⟨rfl, rfl⟩ := Prod.mk.inj (Except.ok.inj planned)
            refine ⟨?_, read, result⟩
            intro empty
            rw [empty] at filled
            exact filled rfl

theorem editFile_cases (environment : EditEnvironment) (file : FileEntry)
    (args : EditArgs) :
    (∃ error, editFile environment file args = refusedEdit environment error) ∨
    ∃ current plan result,
    planEdit environment file args = .ok (current, plan) ∧
    editFile environment file args =
    ⟨.ok result, some (toUtf8 plan.updated)⟩ := by
  rw [editFile]
  cases planned : planEdit environment file args with
  | error error => exact .inl ⟨error, rfl⟩
  | ok pair =>
    obtain ⟨current, plan⟩ := pair
    dsimp only
    cases committed : commitAtomicText environment current plan.updated with
    | error error => exact .inl ⟨error, rfl⟩
    | ok octets =>
      right
      have written : octets = toUtf8 plan.updated := by
        rw [commitAtomicText] at committed
        cases checked : verifyPrecondition environment current with
        | error error =>
          rw [checked] at committed
          cases committed
        | ok valid =>
          rw [checked] at committed
          split at committed
          · exact (Except.ok.inj committed).symm
          · cases committed
      rw [written]
      exact ⟨current, plan, _, rfl, rfl⟩

theorem ofUtf8_of_readUtf8File (read : readUtf8File file = .ok current) :
    ofUtf8 file.octets = some current := by
  rw [readUtf8File, readBoundedFile] at read
  split at read
  · cases read
  · split at read
    · cases read
    · split at read
      · cases read
      · change decodeUtf8 file.octets = .ok current at read
        rw [decodeUtf8] at read
        split at read
        · cases read
        case h_2 found => rw [found, Except.ok.inj read]

theorem soughtText_ne_nil (filled : oldText ≠ []) :
    soughtText current oldText ≠ [] := by
  have carriage : toCrlf oldText ≠ [] := by
    intro empty
    rcases toCrlf_eq_or_count_lt oldText with same | more
    · exact filled (same ▸ empty)
    · rw [empty] at more
      exact Nat.not_lt_zero _ more
  have feed : toLf oldText ≠ [] := by
    cases oldText with
    | nil => exact absurd rfl filled
    | cons unit rest =>
      cases rest with
      | nil => exact cons_ne_nil _ _
      | cons next rest =>
        rw [toLf]
        split
        · exact cons_ne_nil _ _
        · exact cons_ne_nil _ _
  rw [soughtText]
  split
  · exact filled
  · rw [withLineEndsOf]
    split
    · exact carriage
    · exact feed

theorem replaced_of_planned (filled : oldText ≠ [])
    (read : readUtf8File file = .ok current)
    (planned : planReplacement current { oldText, newText } = .ok plan)
    (meets : ¬ Misses current oldText newText) :
    ∃ before after, Replaced file current oldText newText before after
      (toUtf8 plan.updated) := by
  obtain ⟨once, rfl, small⟩ := (planReplacement_eq_ok rfl).mp planned
  have found : (findText current oldText).occurrences ≠ 0 := by
    rw [once]
    exact Nat.one_ne_zero
  have spec := findText_spec found
  have target : (findText current oldText).searchTarget =
      soughtText current oldText := by rw [spec]
  have count : countOccurrences current (soughtText current oldText) = 1 := by
    rw [spec] at once
    exact once
  have sought : soughtText current oldText ≠ [] := soughtText_ne_nil filled
  have right : ¬ (Overlaps current (soughtText current oldText) ∨
        KeepsLineEnds current oldText newText ∨
        CutsPair (soughtText current oldText)) := by
    rw [← target]
    exact fun wrong => meets ⟨filled, once, small, wrong⟩
  obtain ⟨apart, converted, whole⟩ : ¬ Overlaps current (soughtText current
      oldText) ∧ ¬ KeepsLineEnds current oldText newText ∧ ¬ CutsPair
      (soughtText current oldText) := by
    rw [not_or, not_or] at right
    exact right
  obtain ⟨first, place, occurs, unique⟩ := unique_or_overlaps sought count apart
  obtain ⟨parts, length⟩ := occurs.split
  have decoded := ofUtf8_of_readUtf8File read
  have octets := toUtf8_of_ofUtf8 decoded
  rw [parts] at decoded
  refine ⟨_, _, parts, ?_, ?_, ?_⟩
  · rw [length]
    exact unique
  · rw [← octets]
    conv_lhs => rw [parts]
    exact toUtf8_around decoded sought whole _
  · dsimp only
    rw [target, replacementText_eq found converted, replaceFirst, place]
    exact toUtf8_around decoded sought whole _

def quietHost (file : FileEntry) : EditEnvironment where
  sha256 := id
  latest := some file
  renames := true

theorem planEdit_quietHost (filled : oldText ≠ [])
    (read : readUtf8File file = .ok current)
    (planned : planReplacement current { oldText, newText } = .ok plan) :
    planEdit (quietHost file) file { oldText, newText } =
      .ok (current, plan) := by
  have regular : file.regular = true := by
    rw [readUtf8File, readBoundedFile] at read
    split at read
    · cases read
    case isFalse regular => simpa using regular
  rw [planEdit, if_neg (by simp [filled]), if_neg (by simp [regular]), read]
  simp only [hashMismatch, Bool.false_eq_true, if_false]
  rw [planned]
  rfl

theorem editFile_quietHost (filled : oldText ≠ [])
    (read : readUtf8File file = .ok current)
    (planned : planReplacement current { oldText, newText } = .ok plan) :
    ∃ result, editFile (quietHost file) file { oldText, newText } =
      ⟨.ok result, some (toUtf8 plan.updated)⟩ := by
  have checked : verifyPrecondition (quietHost file) current = .ok () := by
    simp [verifyPrecondition, quietHost, read]
  have committed : commitAtomicText (quietHost file) current plan.updated =
      .ok (toUtf8 plan.updated) := by
    rw [commitAtomicText, checked]
    rfl
  rw [editFile, planEdit_quietHost filled read planned]
  dsimp only
  rw [committed]
  exact ⟨_, rfl⟩

theorem Replaced.right (replaced : Replaced file current oldText newText before
    after octets) (filled : oldText ≠ []) (read : readUtf8File file = .ok
    current) (written : octets = toUtf8 (replaceFirst current (findText current
    oldText).searchTarget (replacementText current (findText current
    oldText).matchMode newText))) (found : (findText current
    oldText).occurrences ≠ 0) : ¬ (Overlaps current (findText current
    oldText).searchTarget ∨ KeepsLineEnds current oldText newText ∨ CutsPair
    (findText current oldText).searchTarget) := by
  have target : (findText current oldText).searchTarget =
      soughtText current oldText := by rw [findText_spec found]
  have sought : soughtText current oldText ≠ [] := soughtText_ne_nil filled
  have decoded := ofUtf8_of_readUtf8File read
  rw [target] at written ⊢
  rintro (overlaps | keeps | cuts)
  · obtain ⟨first, second, apart, -, one, other⟩ := overlaps
    rw [replaced.unique first one, replaced.unique second other] at apart
    exact Nat.lt_irrefl _ apart
  · have updated := replaceFirst_of_unique replaced.content replaced.unique
      newText
    rw [replacementText_of_keeps keeps, updated] at written
    have returns := congrArg (List.count (0x0D : UInt8))
      (written.symm.trans replaced.written)
    have ascii : carriageReturn.toNat = (0x0D : UInt8).toNat := by decide
    have small : (0x0D : UInt8).toNat < 0x80 := by decide
    simp only [count_append, count_toUtf8 ascii small] at returns
    exact count_ne_of_keeps keeps (by omega)
  · rw [replaced.content] at decoded
    exact not_cutsPair_of_toUtf8 decoded sought replaced.found cuts

/-- An edit is exact unless it is applied to overlapping occurrences, keeps
line ends which the file does not have, or cuts a surrogate pair. -/
theorem editsExactly_iff (file : FileEntry) (oldText newText : Text) :
    EditsExactly file oldText newText ↔ ∀ current,
    readUtf8File file = .ok current → ¬ Misses current oldText newText := by
  constructor
  · intro exact current read misses
    have planned : planReplacement current { oldText, newText } = .ok
        ⟨replaceFirst current (findText current oldText).searchTarget
          (replacementText current (findText current oldText).matchMode
            newText), 1, (findText current oldText).matchMode⟩ :=
      (planReplacement_eq_ok rfl).mpr ⟨misses.once, rfl, misses.bounded⟩
    have found : (findText current oldText).occurrences ≠ 0 := by
      rw [misses.once]
      exact Nat.one_ne_zero
    obtain ⟨result, edited⟩ := editFile_quietHost misses.filled read planned
    have promise := exact (quietHost file) none
    rw [edited] at promise
    obtain ⟨content, before, after, octets, other, same, replaced⟩ := promise
    obtain rfl := Except.ok.inj (read.symm.trans other)
    obtain rfl := Option.some.inj same
    exact replaced.right misses.filled read rfl found misses.wrong
  · intro meets environment expectedSha256
    rcases editFile_cases environment file
        { oldText, newText, expectedSha256, replaceAll := false } with
      ⟨error, refused⟩ | ⟨current, plan, result, planned, edited⟩
    · rw [refused]
      rfl
    · rw [edited]
      obtain ⟨filled, read, replacement⟩ := planEdit_eq_ok planned
      obtain ⟨before, after, replaced⟩ :=
        replaced_of_planned filled read replacement (meets current read)
      exact ⟨current, before, after, _, read, rfl, replaced⟩

/-- The three units of this file hold two occurrences of the old text. -/
def repeatedUnit : FileEntry where
  regular := true
  links := 1
  octets := [0x61, 0x61, 0x61]

theorem overlap_replaced :
    ¬ EditsExactly repeatedUnit [0x61, 0x61] [0x62] := by
  intro exact
  have promise := exact (quietHost repeatedUnit) none
  have edited : editFile (quietHost repeatedUnit) repeatedUnit
      { oldText := [0x61, 0x61], newText := [0x62] } =
      ⟨.ok ⟨1, [0x62, 0x61], 2, .exact⟩, some [0x62, 0x61]⟩ := by rfl
  obtain ⟨current, before, after, octets, read, -, replaced⟩ := promise
  have content : readUtf8File repeatedUnit = .ok [0x61, 0x61, 0x61] := by rfl
  obtain rfl := Except.ok.inj (content.symm.trans read)
  have first := replaced.unique 0 (by decide)
  have second := replaced.unique 1 (by decide)
  omega

end MachineBridge.Files
