import MachineBridge.Jobs.OutputRedaction
import Mathlib.Data.List.Induction

/-!
# What redacted output keeps

The bytes outside the replaced patterns are kept in their order.  A byte of a
protected pattern is kept only where two patterns overlap without one being
inside the other, and at the end of a capture which is cut nothing but
beginnings of patterns is discarded.
-/

namespace MachineBridge.Jobs

open Foundation List

def written (events : List OutputEvent) : List UInt8 :=
  events.flatMap OutputEvent.bytes

/-- A capture is the beginning of its stream, and once something is lost
nothing more is accepted. -/
structure Captures (limit : Nat) (stream : List UInt8)
    (captured : CapturedOutput) : Prop where
  lost : ∃ rest, stream = captured.buffer ++ rest ∧
    rest.length = captured.truncated
  closed : captured.truncated = 0 ∨ limit ≤ captured.buffer.length ∨
    captured.remaining = 0

theorem captures_appendLimited {limit : Nat} {stream : List UInt8}
    {captured : CapturedOutput} (captures : Captures limit stream captured)
    (chunk : List UInt8) :
    Captures limit (stream ++ chunk) (appendLimited limit captured chunk) := by
  obtain ⟨⟨rest, split, lost⟩, closed⟩ := captures
  rw [appendLimited]
  generalize accepts : min chunk.length
    (min (limit - captured.buffer.length) captured.remaining) = accepted
  have whole := take_append_drop accepted chunk
  rcases closed with all | full | spent
  · rw [all] at lost
    rw [length_eq_zero_iff.mp lost, append_nil] at split
    refine ⟨⟨chunk.drop accepted, ?_, ?_⟩, ?_⟩
    · rw [split, append_assoc, whole]
    · rw [length_drop, all, Nat.zero_add]
    · rw [length_append, length_take, all]
      dsimp only
      omega
  · have none : accepted = 0 := by omega
    refine ⟨⟨rest ++ chunk, ?_, ?_⟩, .inr (.inl ?_)⟩
    · rw [none, take_zero, append_nil, split, append_assoc]
    · rw [length_append, lost, none, Nat.sub_zero]
    · rw [none, take_zero, append_nil]
      exact full
  · have none : accepted = 0 := by omega
    refine ⟨⟨rest ++ chunk, ?_, ?_⟩, .inr (.inr ?_)⟩
    · rw [none, take_zero, append_nil, split, append_assoc]
    · rw [length_append, lost, none, Nat.sub_zero]
    · dsimp only
      omega

theorem captures_capture {limit : Nat} {stream : List UInt8}
    {captured : CapturedOutput} (captures : Captures limit stream captured)
    (event : OutputEvent) :
    Captures limit (stream ++ event.bytes) (capture limit captured event) := by
  cases event with
  | chunk bytes => exact captures_appendLimited captures bytes
  | elsewhere bytes =>
    rw [OutputEvent.bytes, append_nil]
    refine ⟨captures.lost, captures.closed.imp_right ?_⟩
    apply Or.imp_right
    intro spent
    rw [capture, spent, Nat.zero_sub]

theorem captures_captureOutput (limit budget : Nat)
    (events : List OutputEvent) :
    Captures limit (written events) (captureOutput limit budget events) := by
  suffices run : ∀ stream captured, Captures limit stream captured →
      Captures limit (stream ++ written events)
        (events.foldl (capture limit) captured) from
    run [] _ ⟨⟨[], rfl, rfl⟩, .inl rfl⟩
  induction events with
  | nil =>
    intro stream captured captures
    rw [written, flatMap_nil, append_nil]
    exact captures
  | cons event events induction =>
    intro stream captured captures
    rw [written, flatMap_cons, ← append_assoc]
    exact induction _ _ (captures_capture captures event)

variable {α : Type} {pattern view : List UInt8} {start : Nat}

theorem mem_longestFirst {length : α → Nat} {items : List α} {item : α} :
    item ∈ longestFirst length items ↔ item ∈ items :=
  mem_insertionSort _

theorem pairwise_longestFirst (length : α → Nat) (items : List α) :
    (longestFirst length items).Pairwise fun first second => length second ≤
    length first := by
  exact pairwise_insertionSort _ items

theorem toReplacement_eq_some {given : List α × List α}
    {entry : Replacement α} : toReplacement given = some entry ↔
    given = (entry.pattern, entry.replacement) := by
  obtain ⟨symbols, replacement⟩ := given
  cases symbols with
  | nil =>
    apply iff_of_false
    · exact fun made => nomatch made
    · intro same
      exact entry.nonempty (congrArg Prod.fst same).symm
  | cons symbol rest =>
    constructor
    · intro made
      cases made
      rfl
    · intro same
      cases entry
      cases same
      rfl

theorem mem_filterMap_toReplacement {entries : List (List α × List α)}
    {entry : Replacement α} : entry ∈ entries.filterMap toReplacement ↔
    (entry.pattern, entry.replacement) ∈ entries := by
  simp only [mem_filterMap, toReplacement_eq_some, exists_eq_right]

theorem exists_pattern_iff {entries : List (List α × List α)}
    {pattern : List α} :
    (∃ entry ∈ entries.filterMap toReplacement, entry.pattern = pattern) ↔
    pattern ≠ [] ∧ pattern ∈ entries.map Prod.fst := by
  simp only [mem_filterMap_toReplacement]
  constructor
  · intro found
    obtain ⟨entry, member, same⟩ := found
    rw [← same]
    exact ⟨entry.nonempty, mem_map_of_mem member⟩
  · intro known
    obtain ⟨some, inside⟩ := known
    obtain ⟨⟨symbols, replacement⟩, member, rfl⟩ := List.mem_map.mp inside
    exact ⟨⟨symbols, replacement, some⟩, member, rfl⟩

section

variable (resolve : Platform → Text → Text) (context : RedactionContext)
  (runtimeDir : Text) (platform : Platform)

theorem map_pathRedactionEntries :
    (pathRedactionEntries resolve context runtimeDir platform).map Prod.fst =
    (protectedPaths context runtimeDir).flatMap
    (managedJobResourcePathVariants resolve platform) := by
  have variants : ∀ replacement path,
      (pathEntries resolve platform replacement path).map Prod.fst =
      managedJobResourcePathVariants resolve platform path := by
    intro replacement path
    rw [pathEntries, map_map]
    exact map_id _
  simp only [pathRedactionEntries, protectedPaths, map_append, flatMap_append,
    map_flatMap, flatMap_map, variants, flatMap_assoc, flatMap_singleton]

theorem map_byteEntries : (byteEntries resolve context runtimeDir platform).map
    Prod.fst = context.bytes.map Prod.snd ++ ((protectedPaths context
    runtimeDir).flatMap fun path => (managedJobResourcePathVariants resolve
    platform path).map toUtf8) ++ (literalRedactionEntries context).map fun
    entry => toUtf8 entry.2 := by
  have paths := congrArg (List.map toUtf8)
    (map_pathRedactionEntries resolve context runtimeDir platform)
  rw [map_flatMap, map_map] at paths
  rw [← paths, byteEntries]
  simp only [map_append, map_map]
  rfl

theorem mem_protectedBytePatterns {pattern : List UInt8} :
    pattern ∈ protectedBytePatterns resolve context runtimeDir platform ↔
    ∃ entry ∈ byteRedactionEntries resolve context runtimeDir platform,
    entry.pattern = pattern := by
  rw [protectedBytePatterns, mem_longestFirst, mem_eraseDups,
    List.mem_filter, ← map_byteEntries]
  simp only [byteRedactionEntries, mem_longestFirst]
  rw [exists_pattern_iff, and_comm]
  simp

theorem longestFirst_byteRedactionEntries :
    LongestFirst (byteRedactionEntries resolve context runtimeDir platform) :=
  pairwise_longestFirst _ _

end

/-- A list ends in a proper beginning of a pattern from a position on. -/
structure EndsIn (view pattern : List UInt8) (start : Nat) : Prop where
  within : start < view.length
  proper : view.length - start < pattern.length
  begins : view.drop start <+: pattern

theorem endsIn_cons_succ {byte : UInt8} {rest : List UInt8} :
    EndsIn (byte :: rest) pattern (start + 1) ↔ EndsIn rest pattern start := by
  constructor
  · intro ends
    obtain ⟨within, proper, begins⟩ := ends
    rw [length_cons] at within proper
    exact ⟨by omega, by omega, begins⟩
  · intro ends
    obtain ⟨within, proper, begins⟩ := ends
    refine ⟨?_, ?_, begins⟩ <;> rw [length_cons] <;> omega

theorem endsIn_zero_iff {byte : UInt8} {rest : List UInt8} :
    EndsIn (byte :: rest) pattern 0 ↔ rest.length + 1 < pattern.length ∧
    byte :: rest = pattern.take (rest.length + 1) := by
  constructor
  · intro ends
    exact ⟨ends.proper, prefix_iff_eq_take.mp ends.begins⟩
  · intro both
    exact ⟨Nat.succ_pos _, both.1, prefix_iff_eq_take.mpr both.2⟩

theorem firstPartialSuffix_cases (pattern view : List UInt8) :
    (firstPartialSuffix pattern view = 0 ∧ ∀ start,
      ¬ EndsIn view pattern start) ∨ ∃ start, EndsIn view pattern start ∧
    firstPartialSuffix pattern view = view.length - start := by
  induction view with
  | nil => exact .inl ⟨rfl, fun start ends => Nat.not_lt_zero _ ends.within⟩
  | cons byte rest induction =>
    rw [firstPartialSuffix]
    split
    case isTrue here => exact .inr ⟨0, endsIn_zero_iff.mpr here, rfl⟩
    case isFalse absent =>
        rcases induction with none | found
        · refine .inl ⟨none.1, fun start ends => ?_⟩
          cases start with
          | zero => exact absent (endsIn_zero_iff.mp ends)
          | succ start => exact none.2 start (endsIn_cons_succ.mp ends)
        · obtain ⟨start, ends, same⟩ := found
          refine .inr ⟨start + 1, endsIn_cons_succ.mpr ends, ?_⟩
          rw [same, length_cons]
          omega

theorem EndsIn.drop {skip : Nat}
    (ends : EndsIn (view.drop skip) pattern start) :
    EndsIn view pattern (skip + start) := by
  obtain ⟨within, proper, begins⟩ := ends
  rw [length_drop] at within proper
  rw [drop_drop] at begins
  exact ⟨by omega, by omega, begins⟩

theorem endsIn_partialSuffixLength
    (some : partialSuffixLength view pattern ≠ 0) : ∃ start,
    EndsIn view pattern start ∧
    partialSuffixLength view pattern = view.length - start := by
  rw [partialSuffixLength] at some ⊢
  split at some
  case isTrue => exact absurd rfl some
  case isFalse nonempty =>
  rw [if_neg nonempty]
  split at some
  case isTrue => exact absurd rfl some
  case isFalse partly =>
  rw [if_neg partly]
  rcases firstPartialSuffix_cases pattern
    (view.drop (view.length + 1 - pattern.length)) with none | found
  · exact absurd none.1 some
  · obtain ⟨start, ends, same⟩ := found
    refine ⟨_, ends.drop, ?_⟩
    rw [same, length_drop]
    omega

theorem whole_of_partialSuffixLength
    (none : partialSuffixLength view pattern = 0)
    (ends : EndsIn view pattern start) : pattern.length ≤ view.length ∧
    view.drop (view.length - pattern.length) = pattern := by
  obtain ⟨within, proper, begins⟩ := ends
  rw [partialSuffixLength] at none
  split at none
  case isTrue empty =>
      rcases empty with empty | empty
      · rw [empty] at proper
        exact absurd proper (Nat.not_lt_zero _)
      · rw [empty] at within
        exact absurd within (Nat.not_lt_zero _)
  case isFalse =>
  split at none
  case isTrue whole => exact whole
  case isFalse =>
  exfalso
  have least : view.length + 1 - pattern.length ≤ start := by omega
  have here : EndsIn (view.drop (view.length + 1 - pattern.length)) pattern
      (start - (view.length + 1 - pattern.length)) := by
    refine ⟨?_, ?_, ?_⟩
    · rw [length_drop]
      omega
    · rw [length_drop]
      omega
    · rw [drop_drop, Nat.add_sub_cancel' least]
      exact begins
  rcases firstPartialSuffix_cases pattern
    (view.drop (view.length + 1 - pattern.length)) with absent | found
  · exact absent.2 _ here
  · obtain ⟨other, first, same⟩ := found
    have inside := first.within
    dsimp only at none
    omega

theorem longestPartialSuffix_cases (patterns : List (List UInt8))
    (view : List UInt8) : (longestPartialSuffix patterns view = 0 ∧
      ∀ pattern ∈ patterns, partialSuffixLength view pattern = 0) ∨
    ∃ pattern ∈ patterns, partialSuffixLength view pattern ≠ 0 ∧
    longestPartialSuffix patterns view = partialSuffixLength view pattern := by
  rw [longestPartialSuffix]
  induction patterns using List.reverseRecOn with
  | nil => exact .inl ⟨rfl, forall_mem_nil _⟩
  | append_singleton patterns pattern induction =>
    rw [foldl_append, foldl_cons, foldl_nil]
    have last : pattern ∈ patterns ++ [pattern] :=
      mem_append_right _ (mem_singleton_self pattern)
    rcases induction with none | found
    · rw [none.1, Nat.zero_max]
      by_cases zero : partialSuffixLength view pattern = 0
      · refine .inl ⟨zero, fun other member => ?_⟩
        rcases mem_append.mp member with before | here
        · exact none.2 other before
        · rw [mem_singleton.mp here]
          exact zero
      · exact .inr ⟨pattern, last, zero, rfl⟩
    · obtain ⟨other, member, some, same⟩ := found
      rw [same]
      rcases Nat.le_total (partialSuffixLength view pattern)
        (partialSuffixLength view other) with less | more
      · rw [Nat.max_eq_left less]
        exact .inr ⟨other, mem_append_left _ member, some, rfl⟩
      · rw [Nat.max_eq_right more]
        exact .inr ⟨pattern, last, by omega, rfl⟩

def IsBeginning (fold : UInt8 → UInt8) (patterns : List (List UInt8))
    (part : List UInt8) : Prop :=
  part ≠ [] ∧ ∃ pattern ∈ patterns, part.length < pattern.length ∧
    part.map fold <+: pattern.map fold

section

variable {fold : UInt8 → UInt8} {patterns : List (List UInt8)}

theorem isBeginning_drop {buffer : List UInt8} {longest : Nat}
    (some : longest ≠ 0) (cut : longest = longestPartialSuffix (patterns.map
    fun pattern => pattern.map fold) (buffer.map fold)) : longest ≤
    buffer.length ∧ IsBeginning fold patterns
    (buffer.drop (buffer.length - longest)) := by
  rcases longestPartialSuffix_cases
    (patterns.map fun pattern => pattern.map fold) (buffer.map fold) with
    none | found
  · exact absurd (cut.trans none.1) some
  obtain ⟨folded, member, positive, same⟩ := found
  obtain ⟨pattern, known, rfl⟩ := List.mem_map.mp member
  obtain ⟨start, ends, length⟩ := endsIn_partialSuffixLength positive
  obtain ⟨within, proper, begins⟩ := ends
  rw [length_map] at within length
  rw [length_map, length_map] at proper
  have from' : buffer.length - longest = start := by omega
  rw [from']
  refine ⟨by omega, ?_, pattern, known, ?_, ?_⟩
  · rw [ne_eq, drop_eq_nil_iff]
    omega
  · rw [length_drop]
    exact proper
  · rw [map_drop]
    exact begins

variable (fold patterns) in
theorem discardPartials_spec (fuel : Nat) (buffer : List UInt8)
    (enough : buffer.length ≤ fuel) : (∃ parts : List (List UInt8), buffer =
    discardPartials fold (patterns.map fun pattern => pattern.map fold) fuel
    buffer ++ parts.flatten ∧ ∀ part ∈ parts, IsBeginning fold patterns part) ∧
    (discardPartials fold (patterns.map fun pattern => pattern.map fold) fuel
    buffer = [] ∨ longestPartialSuffix (patterns.map fun pattern => pattern.map
    fold) ((discardPartials fold (patterns.map fun pattern => pattern.map fold)
    fuel buffer).map fold) = 0) := by
  induction fuel generalizing buffer with
  | zero =>
    rw [discardPartials, length_eq_zero_iff.mp (Nat.le_zero.mp enough)]
    exact ⟨⟨[], rfl, forall_mem_nil _⟩, .inl rfl⟩
  | succ fuel induction =>
    rw [discardPartials]
    generalize cut : longestPartialSuffix
      (patterns.map fun pattern => pattern.map fold) (buffer.map fold) =
        longest
    split
    case isTrue none =>
        rw [cut]
        exact ⟨⟨[], (append_nil _).symm, forall_mem_nil _⟩, .inr none⟩
    case isFalse some =>
        obtain ⟨within, beginning⟩ := isBeginning_drop some cut.symm
        obtain ⟨⟨parts, split, each⟩, stopped⟩ := induction
          (buffer.take (buffer.length - longest))
          (by rw [length_take]; omega)
        refine ⟨⟨parts ++ [buffer.drop (buffer.length - longest)], ?_, ?_⟩,
          stopped⟩
        · rw [flatten_append, flatten_singleton,
            ← append_assoc, ← split, take_append_drop]
        · intro part member
          rcases mem_append.mp member with earlier | last
          · exact each part earlier
          · rw [mem_singleton.mp last]
            exact beginning

end

def RedactionContext.names (context : RedactionContext) : List Text :=
  context.bytes.map Prod.fst ++ context.paths.map Prod.fst ++
    context.sourcePaths.map Prod.fst ++ context.temporaryPaths.map Prod.fst ++
    context.redactions.map Prod.fst

/-- A text which stands for a protected pattern: it shows a name only. -/
inductive IsMarker (context : RedactionContext) : Text → Prop
  | runtime : IsMarker context (text "<job-runtime>")
  | redacted {name : Text} (known : name ∈ context.names) :
      IsMarker context (text "<redacted-resource:" ++ name ++ text ">")
  | resource {name : Text} (known : name ∈ context.names) :
      IsMarker context (text "<resource:" ++ name ++ text ">")
  | source {name : Text} (known : name ∈ context.names) :
      IsMarker context (text "<resource-source:" ++ name ++ text ">")
  | temporary {name : Text} (known : name ∈ context.names) :
      IsMarker context (text "<temp:" ++ name ++ text ">")

section

variable {resolve : Platform → Text → Text} {context : RedactionContext}
  {runtimeDir : Text} {platform : Platform}

theorem isMarker_of_pathRedactionEntries {entry : Text × Text}
    (member : entry ∈ pathRedactionEntries resolve context runtimeDir platform)
    : IsMarker context entry.2 := by
  have marker : ∀ {replacement path : Text},
      entry ∈ pathEntries resolve platform replacement path →
      entry.2 = replacement := by
    intro replacement path inside
    obtain ⟨variant, _, rfl⟩ := List.mem_map.mp inside
    rfl
  simp only [pathRedactionEntries, mem_append, mem_flatMap] at member
  rcases member with ((paths | sources) | temporary) | runtime
  · obtain ⟨given, known, inside⟩ := paths
    rw [marker inside]
    exact .resource (by simp [RedactionContext.names, mem_map_of_mem known])
  · obtain ⟨given, known, path, _, inside⟩ := sources
    rw [marker inside]
    exact .source (by simp [RedactionContext.names, mem_map_of_mem known])
  · obtain ⟨given, known, inside⟩ := temporary
    rw [marker inside]
    exact .temporary (by simp [RedactionContext.names, mem_map_of_mem known])
  · rw [marker runtime]
    exact .runtime

theorem isMarker_of_byteEntries {entry : List UInt8 × List UInt8}
    (member : entry ∈ byteEntries resolve context runtimeDir platform) :
    ∃ marker, IsMarker context marker ∧ entry.2 = toUtf8 marker := by
  simp only [byteEntries, mem_append, List.mem_map] at member
  rcases member with (bytes | paths) | literals
  · obtain ⟨given, known, rfl⟩ := bytes
    exact ⟨_, .redacted (by simp [RedactionContext.names,
      mem_map_of_mem known]), rfl⟩
  · obtain ⟨given, known, rfl⟩ := paths
    exact ⟨_, isMarker_of_pathRedactionEntries known, rfl⟩
  · obtain ⟨given, known, rfl⟩ := literals
    rw [literalRedactionEntries, mem_longestFirst, mem_flatMap] at known
    obtain ⟨resource, named, inside⟩ := known
    obtain ⟨value, _, rfl⟩ := List.mem_map.mp inside
    exact ⟨_, .redacted (by simp [RedactionContext.names,
      mem_map_of_mem named]), rfl⟩

end

/-- A byte belongs to two occurrences of which one begins inside the other
and ends behind it. -/
def CrossedAt (fold : UInt8 → UInt8) (patterns : List (List UInt8))
    (stream : List UInt8) (position : Nat) : Prop :=
  ∃ start, ∃ pattern ∈ patterns, ∃ next, ∃ other ∈ patterns,
    Occurs fold stream start pattern ∧ Occurs fold stream next other ∧
    start < next ∧ next < start + pattern.length ∧
    start + pattern.length < next + other.length ∧
    start ≤ position ∧ position < next + other.length

/-- What becomes of the bytes of a stream: the pieces stand for the bytes from
its beginning on. -/
structure Redacted (context : RedactionContext) (fold : UInt8 → UInt8)
    (patterns : List (List UInt8)) (stream : List UInt8) (truncated : Nat)
    (list : List (Piece UInt8)) : Prop where
  /-- Behind the pieces there are beginnings of patterns and what the capture
  has lost, and without a loss there is nothing. -/
  discarded : ∃ (parts : List (List UInt8)) (lost : List UInt8),
    stream = list.map Piece.symbol ++ parts.flatten ++ lost ∧
    lost.length = truncated ∧ (truncated = 0 → parts = []) ∧
    ∀ part ∈ parts, IsBeginning fold patterns part
  /-- What stands for a pattern is a marker. -/
  marked : ∀ symbol replacement, .opened symbol replacement ∈ list →
    ∃ marker, IsMarker context marker ∧ replacement = toUtf8 marker
  /-- Only bytes of protected patterns are replaced. -/
  replaced : ∀ position < list.length, ¬ KeptAt list position →
    ∃ start, ∃ pattern ∈ patterns, Occurs id stream start pattern ∧
      start ≤ position ∧ position < start + pattern.length
  /-- Every occurrence which was captured is replaced from its first byte. -/
  opened : ∀ start, ∀ pattern ∈ patterns,
    Occurs id (list.map Piece.symbol) start pattern → ¬ KeptAt list start
  /-- A byte of a protected pattern, captured as a whole or in part, is kept
  only where occurrences cross. -/
  hidden : ∀ start, ∀ pattern ∈ patterns, Occurs id stream start pattern →
    ∀ position, start ≤ position → position < start + pattern.length →
      KeptAt list position → CrossedAt fold patterns stream position

section

variable (resolve : Platform → Text → Text) (context : RedactionContext)
  (runtimeDir : Text) (platform : Platform)

/-- What is left of a capture: the rest of it are beginnings of patterns, and
where something was lost the rest ends in none. -/
theorem discardUnsafeTruncationTail_spec (buffer : List UInt8)
    (truncated : Nat) :
    let patterns := protectedBytePatterns resolve context runtimeDir platform
    let safeBuffer := discardUnsafeTruncationTail resolve context runtimeDir
      platform buffer truncated
    ∃ parts : List (List UInt8), buffer = safeBuffer ++ parts.flatten ∧
      (∀ part ∈ parts, IsBeginning (tailFold platform) patterns part) ∧
      (truncated = 0 → parts = []) ∧
      (truncated ≠ 0 → safeBuffer = [] ∨ ∀ pattern ∈ patterns,
        partialSuffixLength (safeBuffer.map (tailFold platform))
          (pattern.map (tailFold platform)) = 0) := by
  intro patterns safeBuffer
  dsimp only [safeBuffer]
  rw [discardUnsafeTruncationTail]
  split
  case isTrue none =>
      exact ⟨[], (append_nil _).symm, forall_mem_nil _,
        fun _ => rfl, fun some => absurd none some⟩
  case isFalse some =>
      obtain ⟨⟨parts, split, each⟩, stopped⟩ := discardPartials_spec
        (tailFold platform) patterns buffer.length buffer (Nat.le_refl _)
      refine ⟨parts, split, each, fun none => absurd none some, fun _ => ?_⟩
      refine stopped.imp_right fun zero pattern member => ?_
      rcases longestPartialSuffix_cases _ _ with none | found
      · exact none.2 _ (mem_map_of_mem member)
      · obtain ⟨other, _, positive, same⟩ := found
        exact absurd (same.symm.trans zero) positive

theorem crossedAt_of_cut {fold : UInt8 → UInt8} {patterns : List (List UInt8)}
    {before after pattern : List UInt8} {start position : Nat}
    (member : pattern ∈ patterns)
    (none : partialSuffixLength (before.map fold) (pattern.map fold) = 0)
    (occurs : Occurs fold (before ++ after) start pattern)
    (beyond : before.length < start + pattern.length)
    (from' : start ≤ position) (within : position < before.length) :
    CrossedAt fold patterns (before ++ after) position := by
  have ends : EndsIn (before.map fold) (pattern.map fold) start := by
    refine ⟨?_, ?_, ?_⟩
    · rw [length_map]
      omega
    · rw [length_map, length_map]
      omega
    · rw [Occurs, map_append, drop_append_of_le_length
        (by rw [length_map]; omega)] at occurs
      apply prefix_of_prefix_length_le (prefix_append _ _) occurs
      rw [length_drop, length_map, length_map]
      omega
  obtain ⟨fits, whole⟩ := whole_of_partialSuffixLength none ends
  rw [length_map, length_map] at fits whole
  have nonempty : pattern ≠ [] := by
    intro empty
    rw [empty, length_nil] at beyond
    omega
  have last : Occurs fold before (before.length - pattern.length) pattern := by
    exact ⟨[], by rw [append_nil, whole]⟩
  exact ⟨_, pattern, member, start, pattern, member,
    last.append nonempty after, occurs, by omega, by omega, by omega,
    by omega, by omega⟩

theorem redacted_pieces {stream buffer lost : List UInt8} {truncated : Nat}
    (split : stream = buffer ++ lost) (length : lost.length = truncated) :
    Redacted context (tailFold platform) (protectedBytePatterns resolve context
    runtimeDir platform) stream truncated (pieces id (byteRedactionEntries
    resolve context runtimeDir platform) 0 (discardUnsafeTruncationTail resolve
    context runtimeDir platform buffer truncated)) := by
  obtain ⟨parts, tail, each, all, stopped⟩ :=
    discardUnsafeTruncationTail_spec resolve context runtimeDir platform buffer
      truncated
  generalize discardUnsafeTruncationTail resolve context runtimeDir platform
    buffer truncated = safeBuffer at tail stopped ⊢
  have protectedEntry : ∀ pattern,
      pattern ∈ protectedBytePatterns resolve context runtimeDir platform ↔
        _ := fun _ =>
    mem_protectedBytePatterns resolve context runtimeDir platform
  have sorted := longestFirst_byteRedactionEntries resolve context runtimeDir
    platform
  have whole : stream = safeBuffer ++ (parts.flatten ++ lost) := by
    rw [split, tail, append_assoc]
  refine ⟨⟨parts, lost, ?_, length, all, each⟩, ?_, ?_, ?_, ?_⟩
  · rw [pieces_symbols, whole, append_assoc]
  · intro symbol replacement opened
    obtain ⟨entry, known, rfl⟩ := exists_entry_of_opened opened
    rw [byteRedactionEntries, mem_longestFirst,
      mem_filterMap_toReplacement] at known
    exact isMarker_of_byteEntries known
  · intro position inside replaced
    rw [length_pieces] at inside
    obtain ⟨start, entry, member, occurs, from', before⟩ :=
      occurs_of_not_keptAt inside replaced
    refine ⟨start, entry.pattern, (protectedEntry _).mpr ⟨entry, member, rfl⟩, ?_,
      from', before⟩
    rw [whole]
    exact occurs.append entry.nonempty _
  · intro start pattern member occurs
    obtain ⟨entry, known, rfl⟩ := (protectedEntry _).mp member
    rw [pieces_symbols] at occurs
    exact not_keptAt_of_occurs known occurs
  · intro start pattern member occurs position from' before kept
    have inside := kept.lt
    rw [length_pieces] at inside
    rw [whole] at occurs ⊢
    by_cases fits : start + pattern.length ≤ safeBuffer.length
    · obtain ⟨entry, known, rfl⟩ := (protectedEntry _).mp member
      obtain ⟨earlier, other, there, occursThere, less, behind, past⟩ :=
        crossed_of_keptAt sorted known (occurs.of_append fits) from'
          before kept
      exact ⟨earlier, other.pattern, (protectedEntry _).mpr ⟨other, there,
        rfl⟩, start, entry.pattern, member, (occursThere.append other.nonempty
        _).under _, occurs.under _, less, behind, by omega, by omega, before⟩
    · have cut : truncated ≠ 0 := by
        intro none
        rw [all none, length_eq_zero_iff.mp (length.trans none)] at occurs
        have nonempty : pattern ≠ [] := by
          intro empty
          rw [empty, length_nil] at fits
          omega
        have complete := occurs.inside nonempty
        rw [flatten_nil, append_nil, append_nil] at complete
        exact fits complete
      rcases stopped cut with empty | none
      · rw [empty] at inside
        cases inside
      · exact crossedAt_of_cut member (none pattern member) (occurs.under _)
          (by omega) from' inside

end

/-- On Windows a path is replaced in any case: what is kept of a text. -/
structure TextRedacted (context : RedactionContext)
    (canonicalize : UInt16 → UInt16) (pattern : Text)
    (list : List (Piece UInt16)) : Prop where
  marked : ∀ symbol replacement, .opened symbol replacement ∈ list →
    IsMarker context replacement
  replaced : ∀ position < list.length, ¬ KeptAt list position →
    ∃ start, Occurs canonicalize (list.map Piece.symbol) start pattern ∧
      start ≤ position ∧ position < start + pattern.length
  opened : ∀ start, Occurs canonicalize (list.map Piece.symbol) start pattern →
    ¬ KeptAt list start

/-- The paths are replaced in a text after each other. -/
inductive TextRedactions (context : RedactionContext)
    (canonicalize : UInt16 → UInt16) : List Text → Text → Text → Prop
  | nil (content : Text) : TextRedactions context canonicalize [] content
      content
  | cons {pattern : Text} {patterns : List Text} {after : Text}
      {list : List (Piece UInt16)}
      (first : TextRedacted context canonicalize pattern list)
      (rest : TextRedactions context canonicalize patterns
        (list.flatMap Piece.output) after) :
      TextRedactions context canonicalize (pattern :: patterns)
        (list.map Piece.symbol) after

def textPatterns (resolve : Platform → Text → Text)
    (context : RedactionContext) (runtimeDir : Text) (platform : Platform) :
    List Text :=
  (textRedactionEntries resolve context runtimeDir platform).map
    Replacement.pattern

theorem textRedactions_foldl {context : RedactionContext}
    (canonicalize : UInt16 → UInt16) {entries : List (Replacement UInt16)}
    (markers : ∀ entry ∈ entries, IsMarker context entry.replacement)
    (content : Text) : TextRedactions context canonicalize
    (entries.map Replacement.pattern) content
    (entries.foldl (replaceTextEntry canonicalize) content) := by
  induction entries generalizing content with
  | nil => exact .nil content
  | cons entry entries induction =>
    obtain ⟨marker, others⟩ := forall_mem_cons.mp markers
    rw [foldl_cons, map_cons, replaceTextEntry, replaceLongest]
    generalize made : pieces canonicalize [entry] 0 content = list
    have symbols : list.map Piece.symbol = content := by
      rw [← made, pieces_symbols]
    have first : TextRedacted context canonicalize entry.pattern list := by
      refine ⟨?_, ?_, ?_⟩
      · intro symbol replacement opened
        rw [← made] at opened
        obtain ⟨same, member, rfl⟩ := exists_entry_of_opened opened
        rw [mem_singleton.mp member]
        exact marker
      · intro position inside replaced
        rw [symbols]
        rw [← made, length_pieces] at inside
        rw [← made] at replaced
        obtain ⟨start, other, member, occurs, from', before⟩ :=
          occurs_of_not_keptAt inside replaced
        rw [mem_singleton.mp member] at occurs before
        exact ⟨start, occurs, from', before⟩
      · intro start occurs
        rw [symbols] at occurs
        rw [← made]
        exact not_keptAt_of_occurs (mem_singleton_self entry) occurs
    have rest := induction others (list.flatMap Piece.output)
    have both := TextRedactions.cons first rest
    rw [symbols] at both
    exact both

theorem isMarker_of_textRedactionEntries {resolve : Platform → Text → Text}
    {context : RedactionContext} {runtimeDir : Text} {platform : Platform} :
    ∀ entry ∈ textRedactionEntries resolve context runtimeDir platform,
    IsMarker context entry.replacement := by
  intro entry member
  rw [textRedactionEntries] at member
  split at member
  case isTrue =>
      rw [mem_longestFirst, mem_filterMap_toReplacement] at member
      exact isMarker_of_pathRedactionEntries member
  case isFalse => cases member

/-- The redacted output of a step, for every stream, capture and context. -/
theorem redactManagedJobOutput_redacted (resolve : Platform → Text → Text)
    (canonicalize : UInt16 → UInt16) (context : RedactionContext)
    (runtimeDir : Text) (platform : Platform) (limit budget : Nat)
    (events : List OutputEvent) : ∃ list : List (Piece UInt8), Redacted context
    (tailFold platform) (protectedBytePatterns resolve context runtimeDir
    platform) (written events) (captureOutput limit budget events).truncated
    list ∧ TextRedactions context canonicalize (textPatterns resolve context
    runtimeDir platform) (decodeText (list.flatMap Piece.output))
    (redactManagedJobOutput resolve canonicalize context runtimeDir platform
    (captureOutput limit budget events).buffer (captureOutput limit budget
    events).truncated) := by
  have captures := captures_captureOutput limit budget events
  obtain ⟨lost, split, length⟩ := captures.lost
  refine ⟨_, redacted_pieces resolve context runtimeDir platform split length,
    ?_⟩
  exact textRedactions_foldl canonicalize isMarker_of_textRedactionEntries _

/-- Two resources with the contents `abc` and `bcd`. -/
def overlapping : RedactionContext where
  bytes := [(text "first", [0x61, 0x62, 0x63]),
    (text "second", [0x62, 0x63, 0x64])]

/-- Of `abcd` the last byte of the second resource is kept, and of `ax`, which
contains neither resource, nothing is kept when it is cut behind the `a`. -/
theorem overlapping_redacted :
    let redact := redactManagedJobOutput (fun _ path => path) id overlapping
      (text "/job") .other
    let crossing := captureOutput 4 8 [.chunk [0x61, 0x62, 0x63, 0x64]]
    let cut := captureOutput 1 8 [.chunk [0x61, 0x78]]
    Occurs id [0x61, 0x62, 0x63, 0x64] 1 [0x62, 0x63, 0x64] ∧
      redact crossing.buffer crossing.truncated =
        text "<redacted-resource:first>d" ∧
      redact cut.buffer cut.truncated = [] :=
  ⟨⟨[], rfl⟩, by decide +kernel, by decide +kernel⟩

end MachineBridge.Jobs
