import MachineBridge.Foundation.RingBuffer
import MachineBridge.Foundation.Utf8

/-!
# Bounded output

The beginning and the end of what a command wrote.  Everything is kept while it
fits; after that a head of fixed size stays as it is, and a ring keeps the
tail.  Both are cut back to the boundary of a character before they are shown.
-/

namespace MachineBridge.Output

open Foundation
open List hiding utf8Encode_append

structure BoundedOutput where
  (maximum headLimit : Nat)
  totalBytes : Nat := 0
  truncated : Bool := false
  /-- The first `fullBytes` bytes of the buffer. -/
  fullBuffer : List UInt8 := []
  head : List UInt8 := []
  /-- The ring of the last `tailLimit` bytes. -/
  tailBuffer : RingBuffer UInt8

inductive BoundarySide where
  | head
  | tail
deriving DecidableEq

structure BoundaryText where
  text : List Nat
  bytes : Nat

/-- The slice of a buffer after `trim` bytes were taken off. -/
def BoundarySide.slice (side : BoundarySide) (buffer : List UInt8)
    (trim : Nat) : List UInt8 :=
  match side with
  | .head => buffer.take (buffer.length - trim)
  | .tail => buffer.drop trim

/-- Up to three bytes are taken off until the rest is UTF-8. -/
def decodeUtf8Boundary (buffer : List UInt8) (side : BoundarySide) :
    BoundaryText :=
  let decoded := (List.range (min 3 buffer.length + 1)).findSome? fun trim =>
    (utf8Decode (side.slice buffer trim)).map fun points =>
      { text := dropByteOrderMark points
        bytes := (side.slice buffer trim).length : BoundaryText }
  decoded.getD {
    text := dropByteOrderMark (utf8DecodeLossy buffer)
    bytes := buffer.length }

/-- The scalar values of a literal. -/
def points (literal : String) : List Nat := literal.toList.map Char.toNat

def truncationMarker (omitted : Nat) : List Nat :=
  points s!"\n\n[truncated {omitted} bytes; preserved beginning and end]\n\n"

def appendCircularTail (tail : RingBuffer UInt8) (bytes : List UInt8) :
    RingBuffer UInt8 :=
  if tail.capacity = 0 || bytes.isEmpty then tail else tail.push bytes

namespace BoundedOutput

/-- The head takes a third of the bytes if the option does not say otherwise. -/
def headLimitOf (maximum : Nat) (headBytes : Option Nat) : Nat :=
  match headBytes with
  | some (bytes + 1) => max 1 (min maximum (bytes + 1))
  | _ => max 1 (min maximum (maximum / 3))

/-- The constructor; it refuses a maximum below one. -/
def create (maximum : Nat) (headBytes : Option Nat) : Option BoundedOutput :=
  if maximum < 1 then none
  else
    let headLimit := headLimitOf maximum headBytes
    let tailLimit := maximum - headLimit
    some {
      maximum
      headLimit
      tailBuffer := {
        capacity := tailLimit
        storage := List.replicate tailLimit 0 } }

section

variable (output : BoundedOutput)

def full : Option (List UInt8) :=
  if output.truncated then none else some output.fullBuffer

def tail : List UInt8 :=
  if output.tailBuffer.capacity = 0 || output.tailBuffer.retained = 0 then []
  else output.tailBuffer.slice 0 output.tailBuffer.retained

/-- The first append which does not fit begins the head and the tail. -/
def truncate (bytes : List UInt8) : BoundedOutput :=
  let previous := output.fullBuffer
  let missing := output.headLimit - previous.length
  { output with
    head := previous.take output.headLimit ++ bytes.take missing
    truncated := true
    tailBuffer := appendCircularTail output.tailBuffer previous }

def appendWhole (bytes : List UInt8) : BoundedOutput :=
  { output with
    totalBytes := output.totalBytes + bytes.length
    fullBuffer := output.fullBuffer ++ bytes }

def appendTail (bytes : List UInt8) : BoundedOutput :=
  { output with
    totalBytes := output.totalBytes + bytes.length
    tailBuffer := appendCircularTail output.tailBuffer bytes }

def append (bytes : List UInt8) : BoundedOutput :=
  if bytes.isEmpty then output
  else if !output.truncated &&
      output.fullBuffer.length + bytes.length ≤ output.maximum then
    output.appendWhole bytes
  else if output.truncated then output.appendTail bytes
  else (output.truncate bytes).appendTail bytes

def appendAll (chunks : List (List UInt8)) : BoundedOutput :=
  chunks.foldl append output

def truncatedBytes : Nat :=
  if !output.truncated then 0
  else
    let head := decodeUtf8Boundary output.head .head
    let tail := decodeUtf8Boundary output.tail .tail
    output.totalBytes - head.bytes - tail.bytes

end

def text (output : BoundedOutput) : List Nat :=
  if !output.truncated then utf8DecodeLossy output.fullBuffer
  else
    let head := decodeUtf8Boundary output.head .head
    let tail := decodeUtf8Boundary output.tail .tail
    let omitted := output.totalBytes - head.bytes - tail.bytes
    head.text ++ truncationMarker omitted ++ tail.text

def headOf (headLimit : Nat) (stream : List UInt8) : List UInt8 :=
  stream.take headLimit

def tailOf (tailLimit : Nat) (stream : List UInt8) : List UInt8 :=
  stream.drop (stream.length - tailLimit)

/-- The output keeps all of a short stream, and the two ends of a long one. -/
structure Keeps (output : BoundedOutput) (stream : List UInt8) : Prop where
  limits : 0 < output.headLimit ∧
    output.headLimit + output.tailBuffer.capacity = output.maximum
  total : output.totalBytes = stream.length
  whole : output.truncated = false →
    output.fullBuffer = stream ∧ stream.length ≤ output.maximum ∧
      (0 < output.tailBuffer.capacity → output.tailBuffer.Holds [])
  ends : output.truncated = true →
    output.maximum < stream.length ∧
      output.head = headOf output.headLimit stream ∧
      (0 < output.tailBuffer.capacity → output.tailBuffer.Holds stream)

theorem headLimitOf_bounds {maximum : Nat} (positive : 0 < maximum)
    (headBytes : Option Nat) : 0 < headLimitOf maximum headBytes ∧
    headLimitOf maximum headBytes ≤ maximum := by
  unfold headLimitOf
  split <;> omega

variable {output : BoundedOutput} {stream buffer : List UInt8}

theorem keeps_create {maximum : Nat} {headBytes : Option Nat}
    (created : create maximum headBytes = some output) : output.Keeps [] := by
  rw [create] at created
  split at created
  case isTrue => cases created
  case isFalse positive =>
    have bounds := headLimitOf_bounds (Nat.le_of_not_lt positive) headBytes
    cases created
    refine ⟨⟨bounds.1, Nat.add_sub_cancel' bounds.2⟩, rfl, ?_, nofun⟩
    intro _
    refine ⟨rfl, Nat.zero_le _, ?_⟩
    intro room
    exact RingBuffer.holds_empty room List.length_replicate

theorem appendCircularTail_holds {tail : RingBuffer UInt8}
    {before : List UInt8} (bytes : List UInt8)
    (holds : 0 < tail.capacity → tail.Holds before)
    (room : 0 < tail.capacity) :
    (appendCircularTail tail bytes).Holds (before ++ bytes) := by
  rw [appendCircularTail]
  split
  case isTrue skipped =>
    rw [Bool.or_eq_true, decide_eq_true_eq] at skipped
    rcases skipped with none | empty
    · exact absurd none (Nat.ne_of_gt room)
    · rw [isEmpty_iff.mp empty, append_nil]
      exact holds room
  case isFalse => exact RingBuffer.push_holds (holds room) bytes

@[simp] theorem capacity_appendCircularTail (tail : RingBuffer UInt8)
    (bytes : List UInt8) :
    (appendCircularTail tail bytes).capacity = tail.capacity := by
  rw [appendCircularTail]
  split
  · rfl
  · exact RingBuffer.capacity_push tail bytes

theorem appendWhole_keeps (keeps : output.Keeps stream)
    (whole : output.truncated = false) {bytes : List UInt8}
    (fits : output.fullBuffer.length + bytes.length ≤ output.maximum) :
    (output.appendWhole bytes).Keeps (stream ++ bytes) := by
  obtain ⟨kept, short, empty⟩ := keeps.whole whole
  refine ⟨keeps.limits, ?_, ?_, ?_⟩
  · rw [appendWhole, length_append, keeps.total]
  · intro _
    refine ⟨congrArg (· ++ bytes) kept, ?_, empty⟩
    rw [length_append, ← kept]
    exact fits
  · intro cut
    exact absurd (whole.symm.trans cut) Bool.noConfusion

theorem appendTail_keeps {bytes : List UInt8} (cut : output.truncated = true)
    (limits : 0 < output.headLimit ∧
      output.headLimit + output.tailBuffer.capacity = output.maximum)
    (total : output.totalBytes = stream.length)
    (long : output.maximum < stream.length + bytes.length)
    (head : output.head = headOf output.headLimit (stream ++ bytes))
    (holds : 0 < output.tailBuffer.capacity → output.tailBuffer.Holds stream) :
    (output.appendTail bytes).Keeps (stream ++ bytes) := by
  refine ⟨?_, ?_, ?_, ?_⟩
  · simpa [appendTail] using limits
  · rw [appendTail, length_append, total]
  · intro whole
    exact absurd (cut.symm.trans whole) Bool.noConfusion
  · intro _
    refine ⟨?_, head, ?_⟩
    · rw [length_append]
      exact long
    · intro room
      rw [appendTail, capacity_appendCircularTail] at room
      exact appendCircularTail_holds bytes holds room

theorem keeps_append (keeps : output.Keeps stream) (bytes : List UInt8) :
    (output.append bytes).Keeps (stream ++ bytes) := by
  rw [append]
  split
  case isTrue empty =>
    rw [isEmpty_iff.mp empty, append_nil]
    exact keeps
  case isFalse filled =>
    split
    case isTrue fits =>
      rw [Bool.and_eq_true, Bool.not_eq_true', decide_eq_true_eq] at fits
      exact appendWhole_keeps keeps fits.1 fits.2
    case isFalse long =>
      split
      case isTrue cut =>
        obtain ⟨before, head, holds⟩ := keeps.ends cut
        apply appendTail_keeps cut keeps.limits keeps.total _ _ holds
        · exact Nat.lt_of_lt_of_le before (Nat.le_add_right _ _)
        · have limits := keeps.limits
          rw [head, headOf, headOf, List.take_append_of_le_length]
          omega
      case isFalse whole =>
        rw [Bool.not_eq_true] at whole
        obtain ⟨kept, short, empty⟩ := keeps.whole whole
        rw [Bool.and_eq_true, Bool.not_eq_true', decide_eq_true_eq, kept]
          at long
        have limits := keeps.limits
        have cut : (output.truncate bytes).truncated = true := rfl
        refine appendTail_keeps cut ?_ keeps.total ?_ ?_ ?_
        · simpa [truncate] using limits
        · have exceeds := fun fits => long ⟨whole, fits⟩
          exact Nat.lt_of_not_le exceeds
        · rw [truncate]
          rw [kept, headOf, List.take_append]
        · intro room
          rw [truncate, capacity_appendCircularTail] at room
          have tail := appendCircularTail_holds output.fullBuffer empty room
          rw [nil_append, kept] at tail
          rw [truncate, kept]
          exact tail

theorem keeps_appendAll (keeps : output.Keeps stream)
    (chunks : List (List UInt8)) :
    (output.appendAll chunks).Keeps (stream ++ chunks.flatten) := by
  induction chunks generalizing output stream with
  | nil =>
    rw [List.flatten_nil, append_nil]
    exact keeps
  | cons bytes chunks induction =>
    rw [List.flatten_cons, ← List.append_assoc]
    exact induction (keeps_append keeps bytes)

section

variable (buffer : List UInt8)

/-- The longest of the slices which is UTF-8, or the buffer. -/
def boundaryPart (side : BoundarySide) : List UInt8 :=
  (((List.range (min 3 buffer.length + 1)).map (side.slice buffer)).find?
    fun part => (utf8Decode part).isSome).getD buffer

theorem findSome?_slices (side : BoundarySide) (trims : List Nat) :
    (trims.findSome? fun trim =>
      (utf8Decode (side.slice buffer trim)).map fun points =>
        { text := dropByteOrderMark points
          bytes := (side.slice buffer trim).length : BoundaryText }) =
      ((trims.map (side.slice buffer)).find?
        fun part => (utf8Decode part).isSome).map fun part =>
          { text := dropByteOrderMark (utf8DecodeLossy part)
            bytes := part.length } := by
  induction trims with
  | nil => rfl
  | cons trim trims induction =>
    rw [List.findSome?_cons, map_cons, List.find?_cons]
    cases decoded : utf8Decode (side.slice buffer trim) with
    | none => exact induction
    | some points =>
      have text := utf8DecodeLossy_of_utf8Decode decoded
      simp [text]

theorem decodeUtf8Boundary_eq (side : BoundarySide) :
    decodeUtf8Boundary buffer side =
      { text := dropByteOrderMark
          (utf8DecodeLossy (boundaryPart buffer side))
        bytes := (boundaryPart buffer side).length } := by
  rw [decodeUtf8Boundary, boundaryPart, findSome?_slices]
  cases ((List.range (min 3 buffer.length + 1)).map
      (side.slice buffer)).find? fun part => (utf8Decode part).isSome with
  | none => rfl
  | some part => rfl

theorem boundaryPart_slice (side : BoundarySide) :
    ∃ trim ≤ min 3 buffer.length,
    boundaryPart buffer side = side.slice buffer trim ∧
    (trim = 0 ∨ (utf8Decode (boundaryPart buffer side)).isSome) := by
  have whole : side.slice buffer 0 = buffer := by
    cases side with
    | head => exact List.take_length
    | tail => rfl
  cases found : ((List.range (min 3 buffer.length + 1)).map
      (side.slice buffer)).find? fun part => (utf8Decode part).isSome with
  | none =>
    refine ⟨0, Nat.zero_le _, ?_, Or.inl rfl⟩
    rw [boundaryPart, found, whole]
    rfl
  | some part =>
    obtain ⟨trim, inside, rfl⟩ :=
      mem_map.mp (List.mem_of_find?_eq_some found)
    have valid := List.find?_some found
    rw [mem_range] at inside
    refine ⟨trim, Nat.le_of_lt_succ inside, ?_, Or.inr ?_⟩
    · rw [boundaryPart, found]
      rfl
    · rw [boundaryPart, found]
      exact valid

end

theorem isSome_boundaryPart {side : BoundarySide} (trim : Nat)
    (inside : trim ≤ min 3 buffer.length)
    (valid : (utf8Decode (side.slice buffer trim)).isSome) :
    (utf8Decode (boundaryPart buffer side)).isSome := by
  have member : side.slice buffer trim ∈
      (List.range (min 3 buffer.length + 1)).map (side.slice buffer) := by
    apply mem_map_of_mem
    exact mem_range.mpr (Nat.lt_succ_of_le inside)
  rw [boundaryPart]
  cases found : ((List.range (min 3 buffer.length + 1)).map
      (side.slice buffer)).find? fun part => (utf8Decode part).isSome with
  | none =>
    have invalid := List.find?_eq_none.mp found _ member
    exact absurd valid invalid
  | some part =>
    have shown := List.find?_some found
    exact shown

section

variable (output : BoundedOutput)

def shownHead : BoundaryText :=
  decodeUtf8Boundary output.head .head

def shownTail : BoundaryText :=
  decodeUtf8Boundary output.tail .tail

end

/-- The part of a buffer of which `count` bytes are shown. -/
def BoundarySide.keep (side : BoundarySide) (buffer : List UInt8)
    (count : Nat) : List UInt8 :=
  side.slice buffer (buffer.length - count)

/-- The text is that of a buffer which was cut back to the boundary of a
character, or not at all. -/
structure ShowsEnd (side : BoundarySide) (buffer : List UInt8)
    (shown : BoundaryText) : Prop where
  size : shown.bytes ≤ buffer.length ∧ buffer.length ≤ shown.bytes + 3
  boundary : shown.bytes = buffer.length ∨
    (utf8Decode (BoundarySide.keep side buffer shown.bytes)).isSome
  text : shown.text =
    utf8DecodeLossy (BoundarySide.keep side buffer shown.bytes)

structure Shows (output : BoundedOutput) (stream : List UInt8) : Prop where
  whole : stream.length ≤ output.maximum →
    output.full = some stream ∧ output.text = utf8DecodeLossy stream ∧
      output.truncatedBytes = 0
  omitted : output.maximum < stream.length →
    output.text = output.shownHead.text ++
        truncationMarker output.truncatedBytes ++ output.shownTail.text ∧
      output.truncatedBytes + output.shownHead.bytes +
        output.shownTail.bytes = stream.length
  head : output.maximum < stream.length →
    ShowsEnd .head (stream.take output.headLimit) output.shownHead
  tail : output.maximum < stream.length →
    ShowsEnd .tail
      (stream.drop (stream.length - (output.maximum - output.headLimit)))
      output.shownTail
  /-- Nothing takes the place of a character of a valid stream. -/
  valid : (utf8Decode stream).isSome → output.maximum < stream.length →
    utf8Encode output.shownHead.text = stream.take output.shownHead.bytes ∧
      utf8Encode output.shownTail.text =
        stream.drop (stream.length - output.shownTail.bytes)

def MarkedText (part : List UInt8) : Prop :=
  ∃ rest, utf8DecodeLossy part = byteOrderMark :: rest

/-- The stream fits, or no end which is shown begins with the mark. -/
def Showable (maximum headLimit : Nat) (stream : List UInt8) : Prop :=
  stream.length ≤ maximum ∨
    ¬ MarkedText (boundaryPart (headOf headLimit stream) .head) ∧
    ¬ MarkedText (boundaryPart (tailOf (maximum - headLimit) stream) .tail)

theorem keep_length_slice (side : BoundarySide) {trim : Nat}
    (inside : trim ≤ buffer.length) :
    BoundarySide.keep side buffer (side.slice buffer trim).length =
    side.slice buffer trim ∧
    (side.slice buffer trim).length = buffer.length - trim := by
  cases side with
  | head =>
    have size : (buffer.take (buffer.length - trim)).length =
        buffer.length - trim := by
      rw [length_take]
      omega
    refine ⟨?_, size⟩
    rw [BoundarySide.keep, BoundarySide.slice, BoundarySide.slice, size]
    congr 1
    omega
  | tail =>
    have size : (buffer.drop trim).length = buffer.length - trim :=
      length_drop
    refine ⟨?_, size⟩
    rw [BoundarySide.keep, BoundarySide.slice, BoundarySide.slice, size]
    congr 1
    omega

theorem showsEnd_iff (side : BoundarySide) (buffer : List UInt8) :
    ShowsEnd side buffer (decodeUtf8Boundary buffer side) ↔
    ¬ MarkedText (boundaryPart buffer side) := by
  obtain ⟨trim, inside, part, boundary⟩ := boundaryPart_slice buffer side
  obtain ⟨kept, size⟩ := keep_length_slice side
    (Nat.le_trans inside (Nat.min_le_right _ _))
  rw [← part] at kept size
  rw [decodeUtf8Boundary_eq, MarkedText, ← dropByteOrderMark_eq_self]
  constructor
  · intro shows
    have text := shows.text
    rwa [kept] at text
  · intro unmarked
    refine ⟨?_, ?_, ?_⟩
    · dsimp only
      omega
    · dsimp only
      rw [kept]
      rcases boundary with none | valid
      · exact Or.inl (by omega)
      · exact Or.inr valid
    · dsimp only
      rw [kept]
      exact unmarked

structure SameLimits (output next : BoundedOutput) : Prop where
  maximum : next.maximum = output.maximum
  headLimit : next.headLimit = output.headLimit

section

variable (output : BoundedOutput)

theorem sameLimits_append (bytes : List UInt8) :
    SameLimits output (output.append bytes) := by
  rw [append]
  split
  · exact ⟨rfl, rfl⟩
  · split
    · exact ⟨rfl, rfl⟩
    · split
      · exact ⟨rfl, rfl⟩
      · exact ⟨rfl, rfl⟩

theorem sameLimits_appendAll (chunks : List (List UInt8)) :
    SameLimits output (output.appendAll chunks) := by
  induction chunks generalizing output with
  | nil => exact ⟨rfl, rfl⟩
  | cons bytes chunks induction =>
    have first := sameLimits_append output bytes
    have rest := induction (output.append bytes)
    exact ⟨rest.maximum.trans first.maximum,
      rest.headLimit.trans first.headLimit⟩

end

theorem truncated_eq (keeps : output.Keeps stream) :
    output.truncated = decide (output.maximum < stream.length) := by
  cases cut : output.truncated with
  | true => exact (decide_eq_true (keeps.ends cut).1).symm
  | false =>
    have short := (keeps.whole cut).2.1
    exact (decide_eq_false (Nat.not_lt.mpr short)).symm

theorem head_eq (keeps : output.Keeps stream)
    (long : output.maximum < stream.length) :
    output.head = stream.take output.headLimit := by
  have cut := truncated_eq keeps
  rw [decide_eq_true long] at cut
  exact (keeps.ends cut).2.1

theorem tail_eq (keeps : output.Keeps stream)
    (long : output.maximum < stream.length) : output.tail =
    stream.drop (stream.length - (output.maximum - output.headLimit)) := by
  have limits := keeps.limits
  have room : output.maximum - output.headLimit =
      output.tailBuffer.capacity := by omega
  have cut := truncated_eq keeps
  rw [decide_eq_true long] at cut
  rw [room, tail]
  split
  case isTrue empty =>
    rw [Bool.or_eq_true, decide_eq_true_eq, decide_eq_true_eq] at empty
    have none : output.tailBuffer.capacity = 0 := by
      by_contra some
      have retained :=
        ((keeps.ends cut).2.2 (Nat.pos_of_ne_zero some)).retained
      omega
    rw [none, Nat.sub_zero, List.drop_length]
  case isFalse filled =>
    rw [Bool.or_eq_true, decide_eq_true_eq, decide_eq_true_eq] at filled
    have holds := (keeps.ends cut).2.2 (by omega)
    have retained := holds.retained
    rw [RingBuffer.slice_eq holds (by omega), Nat.add_zero]
    have all : output.tailBuffer.retained = output.tailBuffer.capacity := by
      omega
    rw [all]
    apply List.take_of_length_le
    rw [length_drop]
    omega

theorem full_eq (keeps : output.Keeps stream) : output.full =
    if stream.length ≤ output.maximum then some stream else none := by
  rw [full, truncated_eq keeps]
  split
  case isTrue long => rw [if_neg (Nat.not_le.mpr (of_decide_eq_true long))]
  case isFalse short =>
    rw [decide_eq_true_eq, Nat.not_lt] at short
    have whole := truncated_eq keeps
    rw [decide_eq_false (Nat.not_lt.mpr short)] at whole
    rw [if_pos short, (keeps.whole whole).1]

theorem truncatedBytes_eq (keeps : output.Keeps stream) :
    output.truncatedBytes = if stream.length ≤ output.maximum then 0 else
    stream.length - output.shownHead.bytes - output.shownTail.bytes := by
  rw [truncatedBytes, truncated_eq keeps]
  by_cases short : stream.length ≤ output.maximum
  · rw [decide_eq_false (Nat.not_lt.mpr short), if_pos short]
    rfl
  · rw [decide_eq_true (Nat.lt_of_not_le short), if_neg short, keeps.total]
    rfl

theorem text_eq (keeps : output.Keeps stream) : output.text =
    if stream.length ≤
    output.maximum then utf8DecodeLossy stream else output.shownHead.text ++
    truncationMarker
    (stream.length - output.shownHead.bytes - output.shownTail.bytes) ++
    output.shownTail.text := by
  rw [text, truncated_eq keeps]
  by_cases short : stream.length ≤ output.maximum
  · have whole := truncated_eq keeps
    rw [decide_eq_false (Nat.not_lt.mpr short)] at whole
    rw [decide_eq_false (Nat.not_lt.mpr short), if_pos short,
      (keeps.whole whole).1]
    rfl
  · rw [decide_eq_true (Nat.lt_of_not_le short), if_neg short, keeps.total]
    rfl

theorem shownHead_eq (keeps : output.Keeps stream)
    (long : output.maximum < stream.length) : output.shownHead =
    decodeUtf8Boundary (stream.take output.headLimit) .head := by
  rw [shownHead, head_eq keeps long]

theorem shownTail_eq (keeps : output.Keeps stream)
    (long : output.maximum < stream.length) : output.shownTail =
    decodeUtf8Boundary
    (stream.drop (stream.length - (output.maximum - output.headLimit))) .tail
    := by
  rw [shownTail, tail_eq keeps long]

theorem valid_head {headLimit : Nat} (valid : (utf8Decode stream).isSome)
    (inside : headLimit ≤ stream.length) :
    (utf8Decode (boundaryPart (stream.take headLimit) .head)).isSome := by
  obtain ⟨points, decoded⟩ := Option.isSome_iff_exists.mp valid
  obtain ⟨scalars, rfl⟩ := utf8Encode_utf8Decode decoded
  obtain ⟨before, after, rfl, low, high⟩ :=
    exists_boundary_before points headLimit inside
  have size :
      ((utf8Encode (before ++ after)).take headLimit).length = headLimit := by
    rw [length_take]
    omega
  apply isSome_boundaryPart (headLimit - (utf8Encode before).length)
  · omega
  · have slice : BoundarySide.slice .head
        ((utf8Encode (before ++ after)).take headLimit)
        (headLimit - (utf8Encode before).length) = utf8Encode before := by
      rw [BoundarySide.slice, size, Nat.sub_sub_self low, take_take,
        Nat.min_eq_left low, utf8Encode_append, List.take_left]
    rw [slice, utf8Decode_utf8Encode]
    · rfl
    · intro point member
      exact scalars point (mem_append_left after member)

theorem valid_tail {cut : Nat} (valid : (utf8Decode stream).isSome)
    (inside : cut ≤ stream.length) :
    (utf8Decode (boundaryPart (stream.drop cut) .tail)).isSome := by
  obtain ⟨points, decoded⟩ := Option.isSome_iff_exists.mp valid
  obtain ⟨scalars, rfl⟩ := utf8Encode_utf8Decode decoded
  obtain ⟨before, after, rfl, low, high⟩ :=
    exists_boundary_after points cut inside
  have size : ((utf8Encode (before ++ after)).drop cut).length =
      (utf8Encode before).length + (utf8Encode after).length - cut := by
    rw [length_drop, utf8Encode_append, length_append]
  apply isSome_boundaryPart ((utf8Encode before).length - cut)
  · omega
  · have slice : BoundarySide.slice .tail
        ((utf8Encode (before ++ after)).drop cut)
        ((utf8Encode before).length - cut) = utf8Encode after := by
      rw [BoundarySide.slice, drop_drop, Nat.add_sub_cancel' low,
        utf8Encode_append, List.drop_left]
    rw [slice, utf8Decode_utf8Encode]
    · rfl
    · intro point member
      exact scalars point (mem_append_right before member)

theorem encode_text {side : BoundarySide}
    (valid : (utf8Decode (boundaryPart buffer side)).isSome)
    (unmarked : ¬ MarkedText (boundaryPart buffer side)) :
    utf8Encode (decodeUtf8Boundary buffer side).text =
    BoundarySide.keep side buffer (decodeUtf8Boundary buffer side).bytes := by
  obtain ⟨points, decoded⟩ := Option.isSome_iff_exists.mp valid
  obtain ⟨trim, inside, part, -⟩ := boundaryPart_slice buffer side
  have bound := Nat.le_trans inside (Nat.min_le_right _ _)
  obtain ⟨kept, -⟩ := keep_length_slice side bound
  rw [← part] at kept
  rw [decodeUtf8Boundary_eq]
  rw [kept, dropByteOrderMark_eq_self.mpr unmarked,
    utf8DecodeLossy_of_utf8Decode decoded, (utf8Encode_utf8Decode decoded).2]

/-- The result depends on the stream only, and shows what the stream says. -/
structure ShowsStream (output : BoundedOutput)
    (chunks : List (List UInt8)) : Prop where
  same : ∀ others : List (List UInt8), others.flatten = chunks.flatten →
    (output.appendAll others).text = (output.appendAll chunks).text ∧
      (output.appendAll others).full = (output.appendAll chunks).full ∧
      (output.appendAll others).truncatedBytes =
        (output.appendAll chunks).truncatedBytes
  shows : (output.appendAll chunks).Shows chunks.flatten

theorem same_output {next : BoundedOutput} (keeps : output.Keeps stream)
    (others : next.Keeps stream) (limits : SameLimits output next) :
    next.text = output.text ∧ next.full = output.full ∧
    next.truncatedBytes = output.truncatedBytes := by
  have ends : output.maximum < stream.length →
      next.shownHead = output.shownHead ∧
      next.shownTail = output.shownTail := by
    intro long
    have far : next.maximum < stream.length := by
      rw [limits.maximum]
      exact long
    rw [shownHead_eq keeps long, shownHead_eq others far, shownTail_eq keeps
      long, shownTail_eq others far, limits.headLimit, limits.maximum]
    exact ⟨rfl, rfl⟩
  rw [text_eq keeps, text_eq others, full_eq keeps, full_eq others,
    truncatedBytes_eq keeps, truncatedBytes_eq others, limits.maximum]
  by_cases short : stream.length ≤ output.maximum
  · simp only [if_pos short, and_self]
  · obtain ⟨head, tail⟩ := ends (Nat.lt_of_not_le short)
    rw [head, tail]
    exact ⟨rfl, rfl, rfl⟩

theorem shows_iff (keeps : output.Keeps stream) :
    output.Shows stream ↔ Showable output.maximum output.headLimit stream := by
  have limits := keeps.limits
  constructor
  · rintro ⟨-, -, head, tail, -⟩
    by_cases short : stream.length ≤ output.maximum
    · exact Or.inl short
    · have long := Nat.lt_of_not_le short
      have first := head long
      have last := tail long
      rw [shownHead_eq keeps long, showsEnd_iff] at first
      rw [shownTail_eq keeps long, showsEnd_iff] at last
      exact Or.inr ⟨first, last⟩
  · intro showable
    have unmarked : output.maximum < stream.length →
        ¬ MarkedText (boundaryPart (stream.take output.headLimit) .head) ∧
        ¬ MarkedText (boundaryPart (stream.drop
          (stream.length - (output.maximum - output.headLimit))) .tail) := by
      intro long
      exact showable.resolve_left (Nat.not_le.mpr long)
    have head : output.maximum < stream.length →
        ShowsEnd .head (stream.take output.headLimit) output.shownHead := by
      intro long
      rw [shownHead_eq keeps long, showsEnd_iff]
      exact (unmarked long).1
    have tail : output.maximum < stream.length → ShowsEnd .tail
        (stream.drop (stream.length - (output.maximum - output.headLimit)))
        output.shownTail := by
      intro long
      rw [shownTail_eq keeps long, showsEnd_iff]
      exact (unmarked long).2
    refine ⟨?_, ?_, head, tail, ?_⟩
    · intro short
      rw [full_eq keeps, text_eq keeps, truncatedBytes_eq keeps,
        if_pos short, if_pos short, if_pos short]
      exact ⟨rfl, rfl, rfl⟩
    · intro long
      have first := (head long).size
      have last := (tail long).size
      rw [length_take] at first
      rw [length_drop] at last
      rw [text_eq keeps, truncatedBytes_eq keeps,
        if_neg (Nat.not_le.mpr long), if_neg (Nat.not_le.mpr long)]
      refine ⟨rfl, ?_⟩
      omega
    · intro valid long
      have first := (head long).size
      have last := (tail long).size
      rw [length_take] at first
      rw [length_drop] at last
      obtain ⟨clean, bare⟩ := unmarked long
      have before := encode_text (valid_head valid (by omega)) clean
      have after := encode_text (valid_tail valid (Nat.sub_le _ _)) bare
      rw [← shownHead_eq keeps long] at before
      rw [← shownTail_eq keeps long] at after
      rw [before, after, BoundarySide.keep, BoundarySide.keep,
        BoundarySide.slice, BoundarySide.slice, take_take,
        drop_drop, length_take, length_drop]
      constructor
      · congr 1
        omega
      · congr 1
        omega

/-- For every sequence of chunks: the output shows the stream just when the
stream fits or no end which is shown begins with a byte order mark. -/
theorem showsStream_iff {maximum : Nat} {headBytes : Option Nat}
    {output : BoundedOutput} (created : create maximum headBytes = some output)
    (chunks : List (List UInt8)) : output.ShowsStream chunks ↔
    Showable maximum (headLimitOf maximum headBytes) chunks.flatten := by
  have empty := keeps_create created
  have keeps := keeps_appendAll empty chunks
  have limits := sameLimits_appendAll output chunks
  have initial : output.maximum = maximum ∧
      output.headLimit = headLimitOf maximum headBytes := by
    rw [create] at created
    split at created
    · cases created
    · cases created
      exact ⟨rfl, rfl⟩
  have shows := shows_iff keeps
  rw [limits.maximum, limits.headLimit, initial.1, initial.2] at shows
  constructor
  · intro faithful
    exact shows.mp faithful.shows
  · intro showable
    refine ⟨?_, shows.mpr showable⟩
    intro others same
    have kept := keeps_appendAll empty others
    rw [nil_append, same] at kept
    have equal := sameLimits_appendAll output others
    apply same_output keeps kept
    exact ⟨equal.maximum.trans limits.maximum.symm,
      equal.headLimit.trans limits.headLimit.symm⟩

/-- Sixteen letters in an output of eight bytes. -/
def letters : List (List UInt8) := List.replicate 4 [0x61, 0x62, 0x63, 0x64]

def smallOutput : BoundedOutput where
  maximum := 8
  headLimit := 4
  tailBuffer := {
    capacity := 4
    storage := List.replicate 4 0 }

theorem showsStream_letters : create 8 (some 4) = some smallOutput ∧
    (smallOutput.ShowsStream letters ↔
      Showable 8 (headLimitOf 8 (some 4)) letters.flatten) :=
  ⟨rfl, showsStream_iff rfl letters⟩

def markedLetters : List (List UInt8) := [0xEF, 0xBB, 0xBF] :: letters

/-- The mark is counted as shown, and is not. -/
theorem mark_not_shown : ¬ smallOutput.ShowsStream markedLetters := by
  intro faithful
  have text := (faithful.shows.head (by decide)).text
  revert text
  decide

end BoundedOutput

end MachineBridge.Output
