import MachineBridge.Stdio.BoundedWriter

/-!
# What the writer keeps

The bytes which are counted are those of the lines which wait, the lines are
written in the order in which they were queued, and a request is answered unless
the transport is given up.
-/

namespace MachineBridge.Stdio

open Foundation List

variable {Message Id : Type}

namespace Writer

/-- The line which is being written. -/
def started (writer : Writer Message Id) : List (WriterEntry Message Id) :=
  if writer.write.isSome then writer.queue.take 1 else []

structure Invariant (limits : WriterLimits) (codec : WriterCodec Message Id)
    (writer : Writer Message Id) : Prop where
  bytes : writer.queuedBytes = (writer.queue.map (WriterEntry.bytes codec)).sum
  bounded : writer.queuedBytes ≤ limits.maxQueuedBytes + limits.reserveBytes
  writing : writer.write.isSome = true → writer.queue ≠ []
  output : writer.output =
    (writer.completed ++ writer.started).map (WriterEntry.line codec)
  resumed : writer.overloaded = false → writer.queue = [] →
    writer.paused = false

section Steps

variable {limits : WriterLimits} {codec : WriterCodec Message Id}
  {writer : Writer Message Id}

theorem invariant_empty : Invariant limits codec ({} : Writer Message Id) := by
  refine ⟨rfl, Nat.zero_le _, ?_, rfl, ?_⟩
  · intro writing
    cases writing
  · intro _ _
    rfl

theorem accepted_enqueue (entry : WriterEntry Message Id) :
    (writer.enqueue limits codec entry).accepted = writer.accepted ++
    [entry] :=
  (append_assoc _ _ _).symm

theorem Invariant.enqueue {entry : WriterEntry Message Id}
    (invariant : Invariant limits codec writer) (fits : writer.queuedBytes +
    entry.bytes codec ≤ limits.maxQueuedBytes + limits.reserveBytes) :
    Invariant limits codec (writer.enqueue limits codec entry) := by
  have some : writer.queue ++ [entry] ≠ [] :=
    append_ne_nil_of_right_ne_nil _ (cons_ne_nil _ _)
  refine ⟨?_, fits, fun _ => some, ?_, fun _ none => absurd none some⟩
  · change writer.queuedBytes + entry.bytes codec =
      ((writer.queue ++ [entry]).map (WriterEntry.bytes codec)).sum
    rw [invariant.bytes, map_append, sum_append, map_singleton, sum_singleton]
  · have same : (writer.enqueue limits codec entry).started =
        writer.started := by
      unfold started
      change (if writer.write.isSome then (writer.queue ++ [entry]).take 1
        else []) = _
      cases writing : writer.write.isSome with
      | false => rfl
      | true =>
        cases first : writer.queue with
        | nil => exact absurd first (invariant.writing writing)
        | cons head rest => rfl
    rw [same]
    exact invariant.output

variable (limits codec writer) in
theorem send_cases (message : Message) : (writer.overloaded = true ∧
    writer.send limits codec (some message) = writer) ∨ writer.overloaded =
    false ∧ ((writer.queuedBytes + (WriterEntry.message message).bytes codec ≤
    limits.maxQueuedBytes ∧ writer.send limits codec (some message) =
    writer.enqueue limits codec (.message message)) ∨ (codec.id message = none
    ∧ writer.send limits codec (some message) = writer) ∨ ∃ id details,
    codec.id message = some id ∧ ((writer.queuedBytes + (WriterEntry.rejection
    id details).bytes codec ≤ limits.maxQueuedBytes + limits.reserveBytes ∧
    writer.send limits codec (some message) = writer.enqueue limits codec
    (.rejection id details)) ∨ writer.send limits codec (some message) =
    writer.giveUp)) := by
  unfold send
  dsimp only
  split
  case isTrue latched => exact .inl ⟨latched, rfl⟩
  case isFalse running =>
    right
    refine ⟨Bool.eq_false_iff.mpr running, ?_⟩
    split
    case isTrue fits => exact .inl ⟨fits.2, rfl⟩
    case isFalse =>
      right
      unfold rejectionFor
      cases named : codec.id message with
      | none => exact .inl ⟨rfl, rfl⟩
      | some id =>
        right
        refine ⟨id,
          { queuedBytes := writer.queuedBytes
            responseBytes := (messageLine codec message).length
            maxQueuedBytes := limits.maxQueuedBytes }, rfl, ?_⟩
        rw [Option.map_some]
        dsimp only
        split
        case isTrue fits => exact .inl ⟨fits, rfl⟩
        case isFalse => exact .inr rfl

theorem Invariant.giveUp (invariant : Invariant limits codec writer) :
    Invariant limits codec writer.giveUp := by
  refine { invariant with resumed := ?_ }
  intro running
  cases running

theorem Invariant.send {message : Option Message}
    (invariant : Invariant limits codec writer) :
    Invariant limits codec (writer.send limits codec message) := by
  cases message with
  | none => exact invariant
  | some message =>
    rcases send_cases limits codec writer message with
      ⟨_, same⟩ | ⟨_, ⟨fits, same⟩ | ⟨_, same⟩ |
        ⟨id, details, _, ⟨fits, same⟩ | same⟩⟩
    · rw [same]
      exact invariant
    · rw [same]
      exact invariant.enqueue (Nat.le_add_right_of_le fits)
    · rw [same]
      exact invariant
    · rw [same]
      exact invariant.enqueue fits
    · rw [same]
      exact invariant.giveUp

theorem Invariant.startWrite {accepted drained called : Bool}
    (invariant : Invariant limits codec writer) : Invariant limits codec
    (writer.startWrite codec accepted drained called) := by
  unfold Writer.startWrite
  split
  case h_2 => exact invariant
  case h_1 entry rest queue write =>
    have some : writer.queue ≠ [] := by
      rw [queue]
      exact cons_ne_nil entry rest
    refine { invariant with writing := fun _ => some, output := ?_ }
    have output := invariant.output
    unfold started at output ⊢
    rw [write] at output
    rw [output, queue]
    simp

theorem Invariant.writeMap {change : LineWrite → LineWrite}
    (invariant : Invariant limits codec writer) :
    Invariant limits codec
      { writer with write := writer.write.map change } := by
  have same : (writer.write.map change).isSome = writer.write.isSome :=
    Option.isSome_map
  refine { invariant with writing := ?_, output := ?_ }
  · intro writing
    exact invariant.writing (same.symm.trans writing)
  · have output := invariant.output
    unfold started at output ⊢
    rw [same]
    exact output

theorem Invariant.complete (invariant : Invariant limits codec writer) :
    Invariant limits codec (writer.complete limits codec) := by
  unfold Writer.complete
  split
  case h_2 => exact invariant
  case h_1 entry rest write queue writing =>
    split
    case isFalse => exact invariant
    case isTrue =>
      have bytes := invariant.bytes
      rw [queue, map_cons, sum_cons] at bytes
      have less : writer.queuedBytes - entry.bytes codec =
          (rest.map (WriterEntry.bytes codec)).sum := by
        omega
      refine ⟨less, ?_, ?_, ?_, ?_⟩
      · exact Nat.le_trans (Nat.sub_le _ _) invariant.bounded
      · intro started
        cases started
      · have output := invariant.output
        unfold started at output ⊢
        rw [writing, queue] at output
        rw [output]
        simp
      · intro running none
        dsimp only at running none ⊢
        have empty : writer.queuedBytes - entry.bytes codec = 0 := by
          rw [less, none]
          rfl
        have positive := limits.positive
        rw [running, empty, if_pos]
        simp
        omega

theorem Invariant.step (invariant : Invariant limits codec writer)
    (event : WriterEvent Message) :
    Invariant limits codec (writer.step limits codec event) := by
  cases event with
  | send message => exact invariant.send
  | write accepted drained called => exact invariant.startWrite
  | drain | callback => exact invariant.writeMap
  | complete => exact invariant.complete

theorem accepted_complete :
    (writer.complete limits codec).accepted = writer.accepted := by
  unfold Writer.complete
  split
  case h_2 => rfl
  case h_1 entry rest write queue writing =>
    split
    case isFalse => rfl
    case isTrue =>
      unfold accepted
      rw [queue, append_assoc]
      rfl

theorem accepted_step {event : WriterEvent Message}
    (other : ∀ message, event ≠ .send message) :
    (writer.step limits codec event).accepted = writer.accepted := by
  cases event with
  | send message => exact absurd rfl (other message)
  | write accepted drained called =>
    rw [Writer.step, Writer.startWrite]
    split
    case h_1 => rfl
    case h_2 => rfl
  | drain => rfl
  | callback => rfl
  | complete => exact accepted_complete

variable (limits codec writer) in
theorem send_answers (message : Message) {id : Id}
    (named : codec.id message = some id) :
    (writer.send limits codec (some message)).accepted = writer.accepted ++
    [.message message] ∨ (∃ details,
      (writer.send limits codec (some message)).accepted = writer.accepted ++
      [.rejection id details]) ∨
    (writer.send limits codec (some message)).overloaded = true := by
  rcases send_cases limits codec writer message with
    ⟨latched, same⟩ | ⟨_, ⟨_, same⟩ | ⟨none, _⟩ |
      ⟨other, details, its, ⟨_, same⟩ | same⟩⟩
  · right
    right
    rw [same]
    exact latched
  · left
    rw [same]
    exact accepted_enqueue _
  · rw [named] at none
    cases none
  · right
    left
    rw [named] at its
    cases its
    rw [same]
    exact ⟨details, accepted_enqueue _⟩
  · right
    right
    rw [same]
    rfl

theorem accepted_isPrefix (event : WriterEvent Message) :
    writer.accepted <+: (writer.step limits codec event).accepted := by
  by_cases sent : ∃ message, event = .send message
  · obtain ⟨message, rfl⟩ := sent
    cases message with
    | none => exact ⟨[], append_nil _⟩
    | some message =>
      change _ <+: (writer.send limits codec (some message)).accepted
      rcases send_cases limits codec writer message with
        ⟨_, same⟩ | ⟨_, ⟨_, same⟩ | ⟨_, same⟩ |
          ⟨_, _, _, ⟨_, same⟩ | same⟩⟩
      · exact ⟨[], by rw [same, append_nil]⟩
      · rw [same, accepted_enqueue]
        exact prefix_append _ _
      · exact ⟨[], by rw [same, append_nil]⟩
      · rw [same, accepted_enqueue]
        exact prefix_append _ _
      · refine ⟨[], ?_⟩
        rw [same, append_nil]
        rfl
  · have same : (writer.step limits codec event).accepted =
        writer.accepted := by
      apply accepted_step
      intro message equal
      exact sent ⟨message, equal⟩
    exact ⟨[], by rw [same, append_nil]⟩

theorem step_latched (latched : writer.overloaded = true)
    (event : WriterEvent Message) :
    (writer.step limits codec event).overloaded = true ∧
    (writer.step limits codec event).accepted = writer.accepted := by
  cases event with
  | send message =>
    cases message with
    | none => exact ⟨latched, rfl⟩
    | some message =>
      rcases send_cases limits codec writer message with
        ⟨_, same⟩ | ⟨running, _⟩
      · change (writer.send limits codec (some message)).overloaded =
            true ∧ (writer.send limits codec (some message)).accepted = _
        rw [same]
        exact ⟨latched, rfl⟩
      · rw [latched] at running
        cases running
  | write accepted drained called =>
    rw [Writer.step, Writer.startWrite]
    split
    case h_1 | h_2 => exact ⟨latched, rfl⟩
  | drain | callback => exact ⟨latched, rfl⟩
  | complete =>
    refine ⟨?_, accepted_complete⟩
    rw [Writer.step, Writer.complete]
    split
    case h_2 => exact latched
    case h_1 =>
      split
      case isTrue => exact latched
      case isFalse => exact latched

theorem run_latched (latched : writer.overloaded = true)
    (events : List (WriterEvent Message)) :
    (run (step limits codec) writer events).accepted = writer.accepted := by
  induction events generalizing writer with
  | nil => rfl
  | cons event events induction =>
    obtain ⟨still, same⟩ := step_latched latched event
    rw [run_cons, induction still, same]

end Steps

/-- What holds of the writer whatever was sent and written. -/
structure Sound (limits : WriterLimits) (codec : WriterCodec Message Id)
    (writer : Writer Message Id) : Prop where
  /-- The stream is given whole lines, in the order in which they were
  queued. -/
  inOrder : ∃ waiting,
    writer.accepted.map (WriterEntry.line codec) = writer.output ++ waiting
  grows : ∀ event,
    writer.accepted <+: (writer.step limits codec event).accepted
  bytes : writer.queuedBytes = (writer.queue.map (WriterEntry.bytes codec)).sum
  bounded : writer.queuedBytes ≤ limits.maxQueuedBytes + limits.reserveBytes
  answers : ∀ message id, codec.id message = some id →
    (writer.step limits codec (.send (some message))).accepted =
        writer.accepted ++ [.message message] ∨
      (∃ details, (writer.step limits codec (.send (some message))).accepted =
        writer.accepted ++ [.rejection id details]) ∨
      (writer.step limits codec (.send (some message))).overloaded = true
  latched : writer.overloaded = true → ∀ events,
    (run (step limits codec) writer events).accepted = writer.accepted
  resumed : writer.overloaded = false → writer.queue = [] →
    writer.paused = false

theorem Invariant.sound {limits : WriterLimits}
    {codec : WriterCodec Message Id} {writer : Writer Message Id}
    (invariant : Invariant limits codec writer) :
    Sound limits codec writer := by
  refine ⟨?_, accepted_isPrefix, invariant.bytes, invariant.bounded, ?_,
    run_latched, invariant.resumed⟩
  · have output := invariant.output
    unfold started at output
    unfold accepted
    cases writing : writer.write.isSome with
    | false =>
      rw [writing] at output
      rw [output, map_append]
      simp
    | true =>
      refine ⟨(writer.queue.drop 1).map (WriterEntry.line codec), ?_⟩
      rw [writing, if_pos rfl] at output
      rw [output, ← map_append, append_assoc, take_append_drop]
  · intro message id named
    exact send_answers limits codec writer message named

/-- The writer of the standard output, for all messages and completions. -/
theorem boundedWriter_sound (limits : WriterLimits)
    (codec : WriterCodec Message Id) (events : List (WriterEvent Message)) :
    Sound limits codec (run (step limits codec) {} events) := by
  apply Invariant.sound
  apply run_induction
  · intro writer event invariant
    exact invariant.step event
  · exact invariant_empty

end Writer

end MachineBridge.Stdio
