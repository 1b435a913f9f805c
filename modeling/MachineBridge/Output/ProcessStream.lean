import MachineBridge.Foundation.RingBuffer
import MachineBridge.Foundation.Utf8

/-!
# The output of a process

A stream keeps the newest bytes which a process wrote.  Its offsets count from
the first byte, so a reader can tell what is gone.  A read returns text where
the bytes are UTF-8 and base64 otherwise.
-/

namespace MachineBridge.Output

open Foundation

structure ProcessOutputStream where
  ring : RingBuffer UInt8
  (baseOffset totalBytes : Nat := 0)

inductive OutputEncoding where
  | utf8
  | base64
deriving DecidableEq

/-- What `decodeProcessBytes` returns; a text is given by its scalar values. -/
structure DecodedBytes where
  data : List Nat
  dataBase64 : Option Text := none
  encoding : OutputEncoding

structure ProcessRead extends DecodedBytes where
  (requestedOffset startOffset nextOffset totalOffset : Nat)
  retainedStartOffset : Nat
  (truncatedBefore truncatedAfter : Bool)

/-- The decoders take a byte order mark off the text. -/
def decodeProcessBytes (bytes : List UInt8) : DecodedBytes :=
  match utf8Decode bytes with
  | some points =>
    { data := dropByteOrderMark points
      encoding := .utf8 }
  | none =>
    { data := dropByteOrderMark (utf8DecodeLossy bytes)
      dataBase64 := some (btoa bytes)
      encoding := .base64 }

/-- The bytes which a reader gets out of the representation. -/
def DecodedBytes.bytes (decoded : DecodedBytes) : Option (List UInt8) :=
  match decoded.encoding with
  | .utf8 => some (utf8Encode decoded.data)
  | .base64 => decoded.dataBase64.bind atob

def nonNegativeInteger (value : Int) : Nat :=
  if value < 0 then 0 else value.toNat

def positiveInteger (value : Int) : Nat :=
  if value < 1 then 1 else value.toNat

namespace ProcessOutputStream

/-- The constructor; it refuses a maximum below one. -/
def create (maximumBytes : Nat) : Option ProcessOutputStream :=
  if maximumBytes < 1 then none
  else some { ring := {
    capacity := maximumBytes
    storage := List.replicate maximumBytes 0 } }

section

variable (stream : ProcessOutputStream)

def append (input : List UInt8) : ProcessOutputStream :=
  if input.isEmpty then stream
  else
    let ring := stream.ring.push input
    let totalBytes := stream.totalBytes + input.length
    { ring, totalBytes, baseOffset := totalBytes - ring.retained }

def appendAll (chunks : List (List UInt8)) : ProcessOutputStream :=
  chunks.foldl append stream

def read (requestedOffset maximumBytes : Int) : ProcessRead :=
  let requested := nonNegativeInteger requestedOffset
  let maximum := positiveInteger maximumBytes
  let clampedOffset := min requested stream.totalBytes
  let effectiveOffset := max clampedOffset stream.baseOffset
  let start := effectiveOffset - stream.baseOffset
  let length := min maximum (stream.ring.retained - start)
  let slice := stream.ring.slice start length
  { decodeProcessBytes slice with
    requestedOffset := requested
    startOffset := effectiveOffset
    nextOffset := effectiveOffset + slice.length
    totalOffset := stream.totalBytes
    retainedStartOffset := stream.baseOffset
    truncatedBefore := decide (requested < stream.baseOffset)
    truncatedAfter :=
      decide (effectiveOffset + slice.length < stream.totalBytes) }

end

structure Keeps (stream : ProcessOutputStream) (bytes : List UInt8) :
    Prop where
  holds : stream.ring.Holds bytes
  total : stream.totalBytes = bytes.length
  base : stream.baseOffset = bytes.length - stream.ring.retained

variable {stream : ProcessOutputStream}

theorem keeps_create {maximumBytes : Nat}
    (created : create maximumBytes = some stream) :
    stream.Keeps [] ∧ stream.ring.capacity = maximumBytes := by
  rw [create] at created
  split at created
  case isTrue => cases created
  case isFalse positive =>
    cases created
    refine ⟨⟨?_, rfl, rfl⟩, rfl⟩
    exact RingBuffer.holds_empty (by omega) List.length_replicate

theorem keeps_append {bytes : List UInt8} (keeps : stream.Keeps bytes)
    (input : List UInt8) : (stream.append input).Keeps (bytes ++ input) := by
  rw [append]
  split
  case isTrue empty =>
    rw [List.isEmpty_iff.mp empty, List.append_nil]
    exact keeps
  case isFalse =>
    refine ⟨RingBuffer.push_holds keeps.holds input, ?_, ?_⟩
    · dsimp only
      rw [List.length_append, keeps.total]
    · dsimp only
      rw [List.length_append, keeps.total]

theorem capacity_append (stream : ProcessOutputStream) (input : List UInt8) :
    (stream.append input).ring.capacity = stream.ring.capacity := by
  rw [append]
  split
  · rfl
  · exact RingBuffer.capacity_push stream.ring input

theorem keeps_appendAll {bytes : List UInt8} (keeps : stream.Keeps bytes)
    (chunks : List (List UInt8)) :
    (stream.appendAll chunks).Keeps (bytes ++ chunks.flatten) ∧
    (stream.appendAll chunks).ring.capacity = stream.ring.capacity := by
  induction chunks generalizing stream bytes with
  | nil =>
    rw [List.flatten_nil, List.append_nil]
    exact ⟨keeps, rfl⟩
  | cons input chunks induction =>
    obtain ⟨kept, capacity⟩ := induction (keeps_append keeps input)
    rw [List.flatten_cons, ← List.append_assoc]
    exact ⟨kept, capacity.trans (capacity_append stream input)⟩

/-- Where a read starts: at the end of the stream at the latest, and behind
what is gone. -/
def startOf (maximumBytes : Nat) (bytes : List UInt8) (requested : Int) :
    Nat :=
  max (min (nonNegativeInteger requested) bytes.length)
    (bytes.length - maximumBytes)

def windowOf (maximumBytes : Nat) (bytes : List UInt8)
    (requested limit : Int) : List UInt8 :=
  (bytes.drop (startOf maximumBytes bytes requested)).take
    (positiveInteger limit)

theorem read_eq {bytes : List UInt8} (keeps : stream.Keeps bytes)
    (requested limit : Int) :
    stream.read requested limit =
      { decodeProcessBytes
          (windowOf stream.ring.capacity bytes requested limit) with
        requestedOffset := nonNegativeInteger requested
        startOffset := startOf stream.ring.capacity bytes requested
        nextOffset := startOf stream.ring.capacity bytes requested +
          (windowOf stream.ring.capacity bytes requested limit).length
        totalOffset := stream.totalBytes
        retainedStartOffset := stream.baseOffset
        truncatedBefore :=
          decide (nonNegativeInteger requested < stream.baseOffset)
        truncatedAfter := decide
          (startOf stream.ring.capacity bytes requested +
            (windowOf stream.ring.capacity bytes requested limit).length <
              stream.totalBytes) } := by
  have retained := keeps.holds.retained
  have base : stream.baseOffset = bytes.length - stream.ring.capacity := by
    rw [keeps.base, retained]
    omega
  have start : max (min (nonNegativeInteger requested) stream.totalBytes)
      stream.baseOffset = startOf stream.ring.capacity bytes requested := by
    rw [keeps.total, base, startOf]
  have bound :
      startOf stream.ring.capacity bytes requested ≤ bytes.length := by
    rw [startOf]
    omega
  have place : bytes.length - stream.ring.retained +
      (startOf stream.ring.capacity bytes requested - stream.baseOffset) =
      startOf stream.ring.capacity bytes requested := by
    omega
  have slice : stream.ring.slice (startOf stream.ring.capacity bytes requested
      - stream.baseOffset) (min (positiveInteger limit) (stream.ring.retained -
      (startOf stream.ring.capacity bytes requested - stream.baseOffset))) =
      windowOf stream.ring.capacity bytes requested limit := by
    rw [RingBuffer.slice_eq keeps.holds (by omega), place, windowOf]
    apply List.take_eq_take_iff.mpr
    rw [List.length_drop]
    omega
  rw [read]
  rw [start, slice]

/-- What a read returns is the part of the stream between its offsets. -/
structure ReadsExactly (stream : ProcessOutputStream) (bytes : List UInt8)
    (requested limit : Int) : Prop where
  start : ((stream.read requested limit).startOffset : Int) =
    max requested (bytes.length - stream.ring.capacity : Nat)
  ordered : (stream.read requested limit).startOffset ≤
    (stream.read requested limit).nextOffset
  inside : (stream.read requested limit).nextOffset ≤ bytes.length
  bounded : ((stream.read requested limit).nextOffset : Int) -
    (stream.read requested limit).startOffset ≤ limit
  /-- The representation stands for exactly these bytes. -/
  exact : (stream.read requested limit).bytes =
    some ((bytes.drop (stream.read requested limit).startOffset).take
      ((stream.read requested limit).nextOffset -
        (stream.read requested limit).startOffset))
  /-- Reading on goes on at the next offset, or behind what is gone by then. -/
  resumes : ∀ (more : List (List UInt8)) (next : Int),
    ((stream.appendAll more).read (stream.read requested limit).nextOffset
      next).startOffset =
        max (stream.read requested limit).nextOffset
          (bytes.length + more.flatten.length - stream.ring.capacity)

/-- UTF-8 which begins with the byte order mark. -/
def Marked (bytes : List UInt8) : Prop :=
  ∃ points, utf8Decode bytes = some (byteOrderMark :: points)

/-- The offset lies in the stream, the limit is positive or nothing is left to
read, and the bytes are not UTF-8 which begins with a byte order mark. -/
structure Readable (maximumBytes : Nat) (bytes : List UInt8)
    (requested limit : Int) : Prop where
  reached : requested ≤ bytes.length
  allowed : 0 < limit ∨
    limit = 0 ∧ startOf maximumBytes bytes requested = bytes.length
  unmarked : ¬ Marked (windowOf maximumBytes bytes requested limit)

theorem utf8Encode_dropByteOrderMark (points : List Nat) :
    utf8Encode (dropByteOrderMark points) = utf8Encode points ↔ ¬ ∃ rest,
    points = byteOrderMark :: rest := by
  cases points with
  | nil =>
    constructor
    · rintro - ⟨rest, same⟩
      cases same
    · intro _
      rfl
  | cons point rest =>
    rw [dropByteOrderMark]
    split
    case isTrue mark =>
      constructor
      · intro same
        have positive := utf8Octets_length_pos point
        have size := congrArg List.length same
        rw [utf8Encode_cons, List.length_append] at size
        omega
      · intro unmarked
        exact absurd ⟨rest, by rw [mark]⟩ unmarked
    case isFalse other =>
      constructor
      · rintro - ⟨after, same⟩
        exact other (List.cons.inj same).1
      · intro _
        rfl

theorem bytes_decodeProcessBytes (bytes : List UInt8) :
    (decodeProcessBytes bytes).bytes = some bytes ↔ ¬ Marked bytes := by
  rw [decodeProcessBytes, Marked]
  split
  case h_1 points decoded =>
    obtain ⟨-, encoded⟩ := utf8Encode_utf8Decode decoded
    rw [DecodedBytes.bytes]
    rw [Option.some.injEq, ← encoded, utf8Encode_dropByteOrderMark]
    constructor
    · rintro unmarked ⟨rest, same⟩
      rw [encoded, decoded] at same
      exact unmarked ⟨rest, Option.some.inj same⟩
    · rintro unmarked ⟨rest, rfl⟩
      exact unmarked ⟨rest, by rw [encoded, decoded]⟩
  case h_2 invalid =>
    rw [DecodedBytes.bytes]
    rw [Option.bind_some, atob_btoa]
    constructor
    · rintro - ⟨points, decoded⟩
      rw [invalid] at decoded
      cases decoded
    · intro _
      rfl

section

variable (maximumBytes : Nat)

theorem length_windowOf (bytes : List UInt8) (requested limit : Int) :
    (windowOf maximumBytes bytes requested limit).length = min
    (positiveInteger limit)
    (bytes.length - startOf maximumBytes bytes requested) := by
  rw [windowOf, List.length_take, List.length_drop]

theorem startOf_le (bytes : List UInt8) (requested : Int) :
    startOf maximumBytes bytes requested ≤ bytes.length := by
  rw [startOf]
  omega

theorem take_length_windowOf (bytes : List UInt8) (requested limit : Int) :
    (bytes.drop (startOf maximumBytes bytes requested)).take
    (windowOf maximumBytes bytes requested limit).length =
    windowOf maximumBytes bytes requested limit := by
  rw [length_windowOf, windowOf]
  apply List.take_eq_take_iff.mpr
  rw [List.length_drop]
  omega

theorem startOf_eq_iff (bytes : List UInt8) (requested : Int) :
    (startOf maximumBytes bytes requested : Int) =
    max requested (bytes.length - maximumBytes : Nat) ↔
    requested ≤ bytes.length := by
  rw [startOf, nonNegativeInteger]
  split <;> omega

end

theorem resumes {bytes : List UInt8} (keeps : stream.Keeps bytes)
    (requested limit : Int) (more : List (List UInt8)) (next : Int) :
    ((stream.appendAll more).read (stream.read requested limit).nextOffset
    next).startOffset = max (stream.read requested limit).nextOffset
    (bytes.length + more.flatten.length - stream.ring.capacity) := by
  obtain ⟨kept, capacity⟩ := keeps_appendAll keeps more
  have size := length_windowOf stream.ring.capacity bytes requested limit
  have bound := startOf_le stream.ring.capacity bytes requested
  rw [read_eq kept, read_eq keeps, capacity]
  dsimp only
  rw [startOf, nonNegativeInteger, List.length_append]
  split <;> omega

/-- A stream of eight bytes, into which nine were written. -/
def nineBytes : List (List UInt8) := [[0, 1, 2, 3], [4, 5, 6, 7, 8]]

def smallStream : ProcessOutputStream :=
  { ring := {
      capacity := 8
      storage := List.replicate 8 0 } }

/-- A process which writes a byte order mark and a letter. -/
def markedOutput : List (List UInt8) := [[0xEF, 0xBB, 0xBF, 0x61]]

end ProcessOutputStream

end MachineBridge.Output
