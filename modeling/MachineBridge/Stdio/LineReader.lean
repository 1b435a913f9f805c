import MachineBridge.Foundation.Delimited

/-!
# The lines of the standard input

The input comes in chunks, which end anywhere.  A line is kept until its newline
comes, or until it is longer than the maximum; then the rest of it is discarded.
-/

namespace MachineBridge.Stdio

open Foundation List

inductive LineEvent where
  | line (bytes : List UInt8)
  | oversize
deriving DecidableEq

/-- `onLine` and `onOversize` are called in the order of the events. -/
structure LineReader where
  chunks : List (List UInt8) := []
  bytes : Nat := 0
  discarding : Bool := false
  events : List LineEvent := []

def newline : UInt8 := 10

def carriageReturn : UInt8 := 13

def trimReturn (line : List UInt8) : List UInt8 :=
  if line.getLast? = some carriageReturn then line.dropLast else line

namespace LineReader

section

variable (reader : LineReader)

def resetLine : LineReader :=
  { reader with
    chunks := []
    bytes := 0 }

def onOversize : LineReader :=
  { reader with events := reader.events ++ [.oversize] }

def emitLine : LineReader :=
  let line := trimReturn reader.chunks.flatten
  { reader.resetLine with events := reader.events ++ [.line line] }

end

/-- What comes up to a newline, or up to the end of the chunk. -/
def onSegment (maxLineBytes : Nat) (reader : LineReader) (segment : List UInt8)
    (ended : Bool) : LineReader :=
  if reader.discarding then
    if ended then { reader with discarding := false } else reader
  else if maxLineBytes < reader.bytes + segment.length then
    let reader := reader.resetLine.onOversize
    if ended then reader else { reader with discarding := true }
  else
    let reader := { reader with
      chunks :=
        if segment.isEmpty then reader.chunks
        else reader.chunks ++ [segment]
      bytes := reader.bytes + segment.length }
    if ended then reader.emitLine else reader

/-- The segments of what is left of a chunk; `segment` is the one at which the
loop is. -/
def consume (maxLineBytes : Nat) (reader : LineReader)
    (segment : List UInt8) : List UInt8 → LineReader
  | [] =>
    if segment.isEmpty then reader
    else reader.onSegment maxLineBytes segment false
  | byte :: rest =>
    if byte = newline then
      consume maxLineBytes (reader.onSegment maxLineBytes segment true) []
        rest
    else consume maxLineBytes reader (segment ++ [byte]) rest

def onData (maxLineBytes : Nat) (reader : LineReader) (buffer : List UInt8) :
    LineReader :=
  reader.consume maxLineBytes [] buffer

def onEnd (reader : LineReader) : LineReader :=
  if !reader.discarding && decide (0 < reader.bytes) then reader.emitLine
  else reader

end LineReader

section

variable (maxLineBytes : Nat)

/-- The calls for an input which comes in these chunks. -/
def consumeBoundedJsonLines (chunks : List (List UInt8)) : List LineEvent :=
  (chunks.foldl (LineReader.onData maxLineBytes) {}).onEnd.events

def lineEvent (line : List UInt8) : LineEvent :=
  if line.length ≤ maxLineBytes then .line (trimReturn line) else .oversize

/-- An event for each line that is ended, and for a rest which is not empty. -/
def streamEvents (stream : List UInt8) : List LineEvent :=
  let lines := splitDelimited newline stream
  lines.1.map (lineEvent maxLineBytes) ++
    if lines.2.isEmpty then [] else [lineEvent maxLineBytes lines.2]

end

/-- The reader after some lines, and `last` which is not ended. -/
structure Follows (maxLineBytes : Nat) (reader : LineReader)
    (lines : List (List UInt8)) (last : List UInt8) : Prop where
  events : reader.events = lines.map (lineEvent maxLineBytes) ++
    if reader.discarding then [.oversize] else []
  discarding : reader.discarding = true ↔ maxLineBytes < last.length
  kept : reader.chunks.flatten = if reader.discarding then [] else last
  bytes : reader.bytes = reader.chunks.flatten.length

section Reading

variable {maxLineBytes : Nat} {reader : LineReader}
  {lines : List (List UInt8)} {last segment : List UInt8}

theorem lineEvent_long (long : maxLineBytes < last.length) :
    lineEvent maxLineBytes last = .oversize :=
  if_neg (Nat.not_le.mpr long)

theorem follows_empty : Follows maxLineBytes {} [] [] := by
  refine ⟨rfl, ?_, rfl, rfl⟩
  constructor
  · intro discarding
    cases discarding
  · intro long
    cases long

theorem Follows.short (follows : Follows maxLineBytes reader lines last)
    (keeping : reader.discarding = false) :
    reader.chunks.flatten = last ∧ reader.bytes = last.length := by
  have kept := follows.kept
  rw [keeping] at kept
  have bytes := follows.bytes
  rw [kept] at bytes
  exact ⟨kept, bytes⟩

theorem onSegment_discarding (discards : reader.discarding = true)
    (ended : Bool) :
    reader.onSegment maxLineBytes segment ended =
      { reader with discarding := !ended } := by
  rw [LineReader.onSegment, if_pos discards]
  cases ended with
  | true => rfl
  | false => rw [if_neg Bool.false_ne_true, Bool.not_false, ← discards]

theorem onSegment_long (keeping : reader.discarding = false)
    (long : maxLineBytes < reader.bytes + segment.length) (ended : Bool) :
    reader.onSegment maxLineBytes segment ended =
      { events := reader.events ++ [.oversize]
        discarding := !ended } := by
  rw [LineReader.onSegment, keeping, if_neg Bool.false_ne_true, if_pos long]
  cases ended with
  | true =>
    change ({ reader with
      chunks := []
      bytes := 0
      events := reader.events ++ [.oversize] } : LineReader) = _
    rw [keeping]
    rfl
  | false => rfl

def LineReader.push (reader : LineReader) (segment : List UInt8) :
    LineReader :=
  { reader with
    chunks :=
      if segment.isEmpty then reader.chunks else reader.chunks ++ [segment]
    bytes := reader.bytes + segment.length }

theorem onSegment_short (keeping : reader.discarding = false)
    (short : reader.bytes + segment.length ≤ maxLineBytes) (ended : Bool) :
    reader.onSegment maxLineBytes segment ended =
    if ended then (reader.push segment).emitLine else reader.push segment := by
  rw [LineReader.onSegment, if_neg (Bool.eq_false_iff.mp keeping),
    if_neg (Nat.not_lt.mpr short)]
  rfl

theorem push_chunks : (reader.push segment).chunks.flatten =
    reader.chunks.flatten ++ segment := by
  cases segment with
  | nil => exact (append_nil _).symm
  | cons byte rest =>
    change (reader.chunks ++ [byte :: rest]).flatten = _
    rw [flatten_append, flatten_singleton]

section

variable (follows : Follows maxLineBytes reader lines last)
include follows

theorem Follows.grows :
    Follows maxLineBytes (reader.onSegment maxLineBytes segment false) lines
    (last ++ segment) := by
  cases discards : reader.discarding with
  | true =>
    have long := follows.discarding.mp discards
    have kept := follows.kept
    have events := follows.events
    rw [discards] at kept events
    rw [onSegment_discarding discards]
    refine ⟨events, iff_of_true rfl ?_, kept, follows.bytes⟩
    rw [length_append]
    exact Nat.lt_add_right _ long
  | false =>
    obtain ⟨kept, bytes⟩ := follows.short discards
    have events := follows.events
    rw [discards] at events
    by_cases long : maxLineBytes < reader.bytes + segment.length
    · rw [onSegment_long discards long]
      rw [bytes, ← length_append] at long
      refine ⟨?_, iff_of_true rfl long, rfl, rfl⟩
      rw [events, if_neg Bool.false_ne_true, append_nil]
      rfl
    · rw [onSegment_short discards (Nat.not_lt.mp long),
        if_neg Bool.false_ne_true]
      rw [bytes, ← length_append] at long
      refine ⟨?_, ?_, ?_, ?_⟩
      · change reader.events = _ ++ if reader.discarding then _ else _
        rw [events, discards]
      · change reader.discarding = true ↔ _
        rw [discards]
        exact iff_of_false Bool.false_ne_true long
      · change _ = if reader.discarding then _ else _
        rw [push_chunks, kept, discards]
        rfl
      · rw [push_chunks, kept, length_append, ← bytes]
        rfl

theorem Follows.ends :
    Follows maxLineBytes (reader.onSegment maxLineBytes segment true)
    (lines ++ [last ++ segment]) [] := by
  have map : (lines ++ [last ++ segment]).map (lineEvent maxLineBytes) =
      lines.map (lineEvent maxLineBytes) ++
        [lineEvent maxLineBytes (last ++ segment)] := map_append
  have events := follows.events
  have none : ¬ maxLineBytes < ([] : List UInt8).length := Nat.not_lt_zero _
  cases discards : reader.discarding with
  | true =>
    have long : maxLineBytes < (last ++ segment).length := by
      rw [length_append]
      exact Nat.lt_add_right _ (follows.discarding.mp discards)
    have kept := follows.kept
    rw [discards] at events kept
    rw [onSegment_discarding discards]
    refine ⟨?_, iff_of_false Bool.false_ne_true none, kept, follows.bytes⟩
    change reader.events = _ ++ []
    rw [events, map, lineEvent_long long, append_nil]
    rfl
  | false =>
    obtain ⟨kept, bytes⟩ := follows.short discards
    rw [discards, if_neg Bool.false_ne_true, append_nil] at events
    by_cases long : maxLineBytes < reader.bytes + segment.length
    · rw [onSegment_long discards long]
      rw [bytes, ← length_append] at long
      refine ⟨?_, iff_of_false Bool.false_ne_true none, rfl, rfl⟩
      change reader.events ++ [.oversize] = _ ++ []
      rw [events, map, lineEvent_long long, append_nil]
    · rw [onSegment_short discards (Nat.not_lt.mp long), if_pos rfl]
      rw [bytes, ← length_append] at long
      refine ⟨?_, ?_, ?_, rfl⟩
      · change reader.events ++
            [.line (trimReturn (reader.push segment).chunks.flatten)] =
          _ ++ if reader.discarding then _ else _
        rw [push_chunks, kept, events, map, discards,
          if_neg Bool.false_ne_true, append_nil, lineEvent,
          if_pos (Nat.not_lt.mp long)]
      · change reader.discarding = true ↔ _
        rw [discards]
        exact iff_of_false Bool.false_ne_true none
      · change [] = if reader.discarding then [] else []
        rw [ite_self]

end

abbrev Reads (maxLineBytes : Nat) (reader : LineReader) (stream : List UInt8) :
    Prop :=
  Follows maxLineBytes reader (splitDelimited newline stream).1
    (splitDelimited newline stream).2

theorem Reads.consume {rest : List UInt8} {stream : List UInt8}
    (reads : Reads maxLineBytes reader stream) (plain : newline ∉ segment) :
    Reads maxLineBytes (reader.consume maxLineBytes segment rest)
    (stream ++ segment ++ rest) := by
  induction rest generalizing reader segment stream with
  | nil =>
    rw [LineReader.consume, append_nil]
    split
    case isTrue empty =>
      rw [List.isEmpty_iff.mp empty, append_nil]
      exact reads
    case isFalse =>
      rw [Reads, splitDelimited_append_plain stream plain]
      exact reads.grows
  | cons byte rest induction =>
    rw [LineReader.consume]
    split
    case isTrue same =>
      have ended : Reads maxLineBytes
          (reader.onSegment maxLineBytes segment true)
          (stream ++ segment ++ [newline]) := by
        rw [Reads, splitDelimited_append_delimiter,
          splitDelimited_append_plain stream plain]
        exact reads.ends
      have later := induction ended not_mem_nil
      rw [append_nil, append_assoc] at later
      rw [same]
      exact later
    case isFalse other =>
      have longer : newline ∉ segment ++ [byte] := by
        rw [mem_append, mem_singleton]
        exact not_or.mpr ⟨plain, Ne.symm other⟩
      have later := induction reads longer
      rw [← append_assoc, append_assoc] at later
      exact later

theorem reads_chunks (chunks : List (List UInt8)) {stream : List UInt8}
    (reads : Reads maxLineBytes reader stream) : Reads maxLineBytes
    (chunks.foldl (LineReader.onData maxLineBytes) reader)
    (stream ++ chunks.flatten) := by
  induction chunks generalizing reader stream with
  | nil =>
    rw [flatten_nil, append_nil]
    exact reads
  | cons chunk chunks induction =>
    rw [foldl_cons, flatten_cons, ← append_assoc]
    apply induction
    have read : Reads maxLineBytes (reader.onData maxLineBytes chunk)
        (stream ++ [] ++ chunk) := reads.consume not_mem_nil
    rw [append_nil] at read
    exact read

theorem Follows.onEnd (follows : Follows maxLineBytes reader lines last) :
    reader.onEnd.events = lines.map (lineEvent maxLineBytes) ++
    if last.isEmpty then [] else [lineEvent maxLineBytes last] := by
  have events := follows.events
  rw [LineReader.onEnd]
  cases discards : reader.discarding with
  | true =>
    have long := follows.discarding.mp discards
    rw [discards] at events
    have some : last.isEmpty = false := by
      cases last with
      | nil => cases long
      | cons byte rest => rfl
    rw [some, lineEvent_long long]
    exact events
  | false =>
    obtain ⟨kept, bytes⟩ := follows.short discards
    rw [discards, if_neg Bool.false_ne_true, append_nil] at events
    rw [bytes]
    cases last with
    | nil => exact events.trans (append_nil _).symm
    | cons byte rest =>
      have short : (byte :: rest).length ≤ maxLineBytes := by
        apply Nat.not_lt.mp
        intro long
        rw [follows.discarding.mpr long] at discards
        cases discards
      change reader.events ++ [.line (trimReturn reader.chunks.flatten)] = _
      rw [kept, events, lineEvent, if_pos short]
      rfl

end Reading

theorem consumeBoundedJsonLines_eq (maxLineBytes : Nat)
    (chunks : List (List UInt8)) :
    consumeBoundedJsonLines maxLineBytes chunks =
    streamEvents maxLineBytes chunks.flatten := by
  have reads : Reads maxLineBytes {} [] := follows_empty
  exact (reads_chunks chunks reads).onEnd

/-- The calls depend on the stream only, whose lines they tell in their order:
these make up the stream, and are free of newlines. -/
theorem consumeBoundedJsonLines_tellsLines (maxLineBytes : Nat)
    (chunks : List (List UInt8)) :
    ∃ (lines : List (List UInt8)) (last : List UInt8),
    chunks.flatten = lines.flatMap (· ++ [newline]) ++ last ∧
    (∀ line ∈ lines, newline ∉ line) ∧ newline ∉ last ∧
    ∀ others : List (List UInt8), others.flatten = chunks.flatten →
    consumeBoundedJsonLines maxLineBytes others =
    lines.map (lineEvent maxLineBytes) ++
    if last.isEmpty then [] else [lineEvent maxLineBytes last] := by
  have plain :
      (∀ line ∈ (splitDelimited newline chunks.flatten).1, newline ∉ line) ∧
      newline ∉ (splitDelimited newline chunks.flatten).2 :=
    not_mem_splitDelimited chunks.flatten
  refine ⟨_, _, (splitDelimited_join chunks.flatten).symm, plain.1, plain.2,
    ?_⟩
  intro others same
  rw [consumeBoundedJsonLines_eq, same]
  rfl

example : consumeBoundedJsonLines 3 [[97, 13], [10, 98, 98, 98, 98], [98],
    [10, 10, 99]] = [.line [97], .oversize, .line [], .line [99]] := by
  decide

end MachineBridge.Stdio
