import MachineBridge.Foundation.Run

/-!
# The proxy of an event stream

The chunks of the upstream response are forwarded as they arrive, and between
two events a heartbeat is inserted on every tick.  Whether the stream is between
two events is decided from the last chunk alone.
-/

namespace MachineBridge.Mcp

open Foundation List

/-- The state of a reader of lines.  A line ends with a line feed, a carriage
return, or both. -/
structure LineState where
  empty : Bool := true
  carriage : Bool := false
  /-- The bytes end with a blank line, or there are none. -/
  complete : Bool := true

def LineState.next (state : LineState) (byte : UInt8) : LineState :=
  if byte = 0x0A then
    { complete := if state.carriage then state.complete else state.empty }
  else if byte = 0x0D then { carriage := true, complete := state.empty }
  else { empty := false, complete := false }

/-- The bytes are empty or end with a complete event. -/
def betweenEvents (bytes : List UInt8) : Bool :=
  (bytes.foldl LineState.next {}).complete

def chunkEndsWithSseFrameBoundary (chunk : List UInt8) : Bool :=
  [0x0A, 0x0A].isSuffixOf chunk || [0x0D, 0x0A, 0x0D, 0x0A].isSuffixOf chunk

theorem betweenEvents_append {chunk : List UInt8} (bytes : List UInt8)
    (ends : chunkEndsWithSseFrameBoundary chunk = true) :
    betweenEvents (bytes ++ chunk) = true := by
  simp only [chunkEndsWithSseFrameBoundary, Bool.or_eq_true,
    isSuffixOf_iff_suffix] at ends
  rcases ends with ⟨start, rfl⟩ | ⟨start, rfl⟩
  all_goals
    rw [betweenEvents, ← append_assoc, foldl_append]
    generalize (bytes ++ start).foldl LineState.next {} = state
    obtain ⟨empty, carriage, complete⟩ := state
    cases carriage <;> rfl

inductive Piece where
  | chunk (bytes : List UInt8)
  | heartbeat
deriving DecidableEq

/-- The response without the heartbeats. -/
def payload (pieces : List Piece) : List UInt8 :=
  pieces.flatMap fun
    | .chunk bytes => bytes
    | .heartbeat => []

theorem payload_chunk (bytes : List UInt8) :
    payload [.chunk bytes] = bytes := by
  simp [payload]

structure ResponseProxy where
  closed : Bool := false
  canEmitHeartbeat : Bool := true
  /-- The pump still reads the upstream response. -/
  reading : Bool := true
  /-- The public response accepts what is enqueued. -/
  accepting : Bool := true
  /-- A cancellation will close the public response when it has settled. -/
  closing : Bool := false
  /-- Upstream has ended normally. -/
  ended : Bool := false
  received : List UInt8 := []
  emitted : List Piece := []
  /-- How many pieces the client has read; the others may be lost. -/
  reads : Nat := 0
  lost : Bool := false

inductive ProxyEvent where
  | tick
  | chunk (bytes : List UInt8)
  | upstreamDone
  | upstreamFailed
  | abort
  | settled
  | clientCancel
  | clientRead

namespace ResponseProxy

def initial (aborted : Bool) : ResponseProxy where
  closed := aborted
  reading := !aborted
  accepting := !aborted

section

variable (proxy : ResponseProxy)

def cancel (closeResponse : Bool) : ResponseProxy :=
  if proxy.closed then proxy
  else { proxy with closed := true, closing := closeResponse }

/-- The upstream error is passed on, unless the proxy is closed already. -/
def fail : ResponseProxy :=
  if proxy.closed then { proxy with reading := false }
  else { proxy.cancel false with
    reading := false, accepting := false, lost := true }

def onChunk (bytes : List UInt8) : Bool :=
  if bytes.isEmpty then proxy.canEmitHeartbeat
  else chunkEndsWithSseFrameBoundary bytes

def step : ProxyEvent → ResponseProxy
  | .tick =>
    if proxy.closed || !proxy.canEmitHeartbeat then proxy
    else if proxy.accepting then
      { proxy with emitted := proxy.emitted ++ [.heartbeat] }
    else proxy.cancel true
  | .chunk bytes =>
    if !proxy.reading then proxy
    else
      let next := { proxy with
        canEmitHeartbeat := proxy.onChunk bytes
        received := proxy.received ++ bytes }
      if proxy.accepting then
        { next with emitted := proxy.emitted ++ [.chunk bytes] }
      else next.fail
  | .upstreamDone =>
    if !proxy.reading || proxy.closed then { proxy with reading := false }
    else { proxy with
      reading := false, closed := true, accepting := false, ended := true }
  | .upstreamFailed => if proxy.reading then proxy.fail else proxy
  | .abort => proxy.cancel true
  | .settled =>
    if proxy.closing then { proxy with accepting := false } else proxy
  | .clientCancel =>
    { proxy.cancel true with accepting := false, lost := true }
  | .clientRead =>
    if proxy.lost || proxy.emitted.length ≤ proxy.reads then proxy
    else { proxy with reads := proxy.reads + 1 }

end

/-- What is promised at every moment. -/
structure Relayed (proxy : ResponseProxy) : Prop where
  forwarded : payload proxy.emitted <+: proxy.received
  delivered : payload (proxy.emitted.take proxy.reads) <+: proxy.received
  whole : proxy.ended = true → payload proxy.emitted = proxy.received
  placed : ∀ before, before ++ [.heartbeat] <+: proxy.emitted →
    betweenEvents (payload before) = true
  answered : proxy.closed = false →
    betweenEvents (payload proxy.emitted) = true →
      (proxy.step .tick).emitted = proxy.emitted ++ [.heartbeat]

/-- The chunk which completes an event ends with the whole blank line. -/
def Unsplit (proxy : ResponseProxy) : ProxyEvent → Prop
  | .chunk bytes => proxy.closed = false → bytes ≠ [] →
    betweenEvents (proxy.received ++ bytes) = true →
      chunkEndsWithSseFrameBoundary bytes = true
  | _ => True

structure Invariant (proxy : ResponseProxy) : Prop where
  forwarded : payload proxy.emitted <+: proxy.received
  placed : ∀ before, before ++ [.heartbeat] <+: proxy.emitted →
    betweenEvents (payload before) = true
  accepting : proxy.accepting = true → payload proxy.emitted = proxy.received
  ended : proxy.ended = true →
    payload proxy.emitted = proxy.received ∧ proxy.reading = false
  active : proxy.closed = false → proxy.accepting = true ∧
    proxy.reading = true ∧ proxy.closing = false ∧
      (proxy.canEmitHeartbeat = true ↔ betweenEvents proxy.received = true)

variable {proxy next : ResponseProxy} {event : ProxyEvent}

theorem Invariant.relayed (invariant : Invariant proxy) : Relayed proxy where
  __ := invariant
  delivered := by
    refine List.IsPrefix.trans ?_ invariant.forwarded
    obtain ⟨rest, same⟩ := take_prefix proxy.reads proxy.emitted
    refine ⟨payload rest, ?_⟩
    rw [payload, payload, ← flatMap_append, same]
    rfl
  whole := fun ended => (invariant.ended ended).1
  answered := by
    intro running between
    obtain ⟨accepting, -, -, emits⟩ := invariant.active running
    rw [invariant.accepting accepting] at between
    simp [step, running, accepting, emits.mpr between]

theorem Invariant.idle (invariant : Invariant proxy) (idle : ¬ (proxy.accepting
    = true ∧ proxy.reading = true ∧ proxy.closing = false)) : proxy.closed =
    true := by
  by_contra running
  obtain ⟨accepting, reading, unsettled, -⟩ :=
    invariant.active (Bool.eq_false_iff.mpr running)
  exact idle ⟨accepting, reading, unsettled⟩

theorem initial_invariant (aborted : Bool) : Invariant (initial aborted) := by
  refine ⟨prefix_rfl, ?_, fun _ => rfl, nofun, ?_⟩
  · intro before isPrefix
    simp [initial] at isPrefix
  · rintro rfl
    exact ⟨rfl, rfl, rfl, iff_of_true rfl rfl⟩

theorem Invariant.closed (invariant : Invariant proxy)
    (emitted : next.emitted = proxy.emitted)
    (received : next.received = proxy.received) (closed : next.closed = true)
    (accepting : next.accepting = true → proxy.accepting = true)
    (ended : next.ended = true → next.reading = false ∧
      (proxy.ended = true ∨ proxy.accepting = true)) : Invariant next := by
  refine ⟨?_, ?_, ?_, fun done => ⟨?_, (ended done).1⟩, ?_⟩
  · rw [emitted, received]
    exact invariant.forwarded
  · rw [emitted]
    exact invariant.placed
  · rw [emitted, received]
    exact fun open' => invariant.accepting (accepting open')
  · rw [emitted, received]
    rcases (ended done).2 with before | open'
    · exact (invariant.ended before).1
    · exact invariant.accepting open'
  · rw [closed]
    nofun

theorem Invariant.cancel (invariant : Invariant proxy) (closeResponse : Bool) :
    Invariant (proxy.cancel closeResponse) := by
  unfold ResponseProxy.cancel
  split
  case isTrue => exact invariant
  case isFalse =>
    exact invariant.closed rfl rfl rfl id fun done =>
      ⟨(invariant.ended done).2, .inl done⟩

theorem Invariant.fail (invariant : Invariant proxy) :
    Invariant proxy.fail := by
  unfold ResponseProxy.fail
  split
  case isTrue closed =>
    exact invariant.closed rfl rfl closed id fun done => ⟨rfl, .inl done⟩
  case isFalse running =>
    rw [ResponseProxy.cancel, if_neg running]
    exact invariant.closed rfl rfl rfl nofun fun done => ⟨rfl, .inl done⟩

theorem Invariant.emit (invariant : Invariant proxy) (piece : Piece)
    (emits : Bool)
    (accepting : proxy.accepting = true)
    (placed : piece = .heartbeat → betweenEvents proxy.received = true)
    (exact' : proxy.closed = false → (emits = true ↔
      betweenEvents (proxy.received ++ payload [piece]) = true)) :
    Invariant { proxy with
      canEmitHeartbeat := emits
      received := proxy.received ++ payload [piece]
      emitted := proxy.emitted ++ [piece] } := by
  have whole := invariant.accepting accepting
  have all : payload (proxy.emitted ++ [piece]) = proxy.received ++
      payload [piece] := by
    rw [← whole, payload, flatMap_append]
    rfl
  refine ⟨all ▸ prefix_rfl, ?_, fun _ => all,
    fun done => ⟨all, (invariant.ended done).2⟩, fun running => ?_⟩
  · intro before isPrefix
    rcases prefix_concat_iff.mp isPrefix with last | earlier
    · obtain ⟨rfl, again⟩ := append_inj' last rfl
      rw [whole]
      exact placed (singleton_inj.mp again).symm
    · exact invariant.placed before earlier
  · obtain ⟨open', reading, unsettled, -⟩ := invariant.active running
    exact ⟨open', reading, unsettled, exact' running⟩

theorem Invariant.step (invariant : Invariant proxy)
    (unsplit : Unsplit proxy event) : Invariant (proxy.step event) := by
  cases event with
  | tick =>
    rw [ResponseProxy.step]
    split
    case isTrue => exact invariant
    case isFalse active =>
      simp only [Bool.or_eq_true, Bool.not_eq_true', not_or,
        Bool.not_eq_true, Bool.not_eq_false] at active
      obtain ⟨running, emits⟩ := active
      have between := (invariant.active running).2.2.2.mp emits
      split
      case isTrue accepting =>
        have inserted := invariant.emit .heartbeat proxy.canEmitHeartbeat
          accepting (fun _ => between)
        simp only [payload, flatMap_cons, flatMap_nil, append_nil] at inserted
        exact inserted fun running => (invariant.active running).2.2.2
      case isFalse => exact invariant.cancel true
  | chunk bytes =>
    rw [ResponseProxy.step]
    split
    case isTrue => exact invariant
    case isFalse reading =>
      dsimp only
      split
      case isTrue accepting =>
        have forwarded := invariant.emit (.chunk bytes) (proxy.onChunk bytes)
          accepting nofun
        rw [payload_chunk] at forwarded
        refine forwarded fun running => ?_
        unfold onChunk
        split
        case isTrue empty =>
          rw [List.isEmpty_iff.mp empty, append_nil]
          exact (invariant.active running).2.2.2
        case isFalse filled =>
          exact ⟨betweenEvents_append _, unsplit running
            (mt List.isEmpty_iff.mpr filled)⟩
      case isFalse rejecting =>
        have closed := invariant.idle fun active => rejecting active.1
        rw [ResponseProxy.fail, if_pos closed]
        refine ⟨invariant.forwarded.trans (prefix_append ..),
          invariant.placed, fun accepting => absurd accepting rejecting,
          fun done => ?_, fun running => ?_⟩
        · simp [(invariant.ended done).2] at reading
        · cases closed.symm.trans running
  | upstreamDone =>
    rw [ResponseProxy.step]
    split
    case isTrue silent =>
      have closed : proxy.closed = true := by
        rcases Bool.or_eq_true_iff.mp silent with stopped | closed
        · exact invariant.idle fun active => by simp [active.2.1] at stopped
        · exact closed
      exact invariant.closed rfl rfl closed id fun done => ⟨rfl, .inl done⟩
    case isFalse active =>
      simp only [Bool.or_eq_true, not_or, Bool.not_eq_true] at active
      exact invariant.closed rfl rfl rfl nofun fun _ =>
        ⟨rfl, .inr (invariant.active active.2).1⟩
  | upstreamFailed =>
    rw [ResponseProxy.step]
    split
    case isTrue => exact invariant.fail
    case isFalse => exact invariant
  | abort => exact invariant.cancel true
  | settled =>
    rw [ResponseProxy.step]
    split
    case isTrue closing =>
      have closed := invariant.idle fun active => by
        cases closing.symm.trans active.2.2
      exact invariant.closed rfl rfl closed nofun fun done =>
        ⟨(invariant.ended done).2, .inl done⟩
    case isFalse => exact invariant
  | clientCancel =>
    have cancelled := invariant.cancel true
    have closed : (proxy.cancel true).closed = true := by
      unfold ResponseProxy.cancel
      split
      case isTrue closed => exact closed
      case isFalse => rfl
    exact cancelled.closed rfl rfl closed nofun fun done =>
      ⟨(cancelled.ended done).2, .inl done⟩
  | clientRead =>
    rw [ResponseProxy.step]
    split
    case isTrue => exact invariant
    case isFalse =>
      exact ⟨invariant.forwarded, invariant.placed, invariant.accepting,
        invariant.ended, invariant.active⟩

theorem unsplit_of_relayed (invariant : Invariant proxy)
    (relayed : Relayed (proxy.step event)) : Unsplit proxy event := by
  cases event with
  | chunk bytes =>
    intro running filled between
    obtain ⟨accepting, reading, -⟩ := invariant.active running
    have whole := invariant.accepting accepting
    by_contra split
    rw [Bool.not_eq_true] at split
    have next : proxy.step (.chunk bytes) = { proxy with
        canEmitHeartbeat := false
        received := proxy.received ++ bytes
        emitted := proxy.emitted ++ [.chunk bytes] } := by
      simp [ResponseProxy.step, reading, accepting, onChunk, filled, split]
    rw [next] at relayed
    have answered := relayed.answered running (by
      rw [← whole, ← payload_chunk bytes, payload, payload,
        ← flatMap_append] at between
      exact between)
    simp [ResponseProxy.step] at answered
  | _ => trivial

/-- In every state of a run the promises hold exactly when each chunk that
completes an event ends with the whole blank line. -/
theorem relayed_iff (aborted : Bool) (events : List ProxyEvent) :
    (∀ count, Relayed (run step (initial aborted) (events.take count))) ↔
    Meets step Unsplit (initial aborted) events :=
  holds_throughout_iff
    (fun _ _ invariant unsplit => Invariant.step invariant unsplit)
    (fun _ _ invariant relayed => unsplit_of_relayed invariant relayed)
    (fun _ invariant => invariant.relayed) (initial_invariant aborted) events

/-- A blank line is split, and the tick after it finds no heartbeat. -/
theorem split_not_relayed : ¬ ∀ aborted events count,
    Relayed (run step (initial aborted) (List.take count events)) := by
  intro promised
  have relayed := promised false [.chunk [0x3A, 0x0A], .chunk [0x0A]] 2
  have answered := relayed.answered
  revert answered
  decide

end ResponseProxy

end MachineBridge.Mcp
