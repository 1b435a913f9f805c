import MachineBridge.Pending.ReadyCapacity

/-!
# Registration under the lock

A call under the lock takes a slot or fails, and where there is room for it, it
does not fail for capacity.
-/

namespace MachineBridge.Pending

open Foundation Shared

variable {clock : Clock} {ids : CallIds}

namespace Worker

variable {worker : Worker} {request : ToolCallRequest}

section

variable (request : ToolCallRequest)

def slotOf : CallSlot :=
  { tool := countedTool request.call.tool
    accountId := request.call.authority.accountId }

theorem pendingTools_eq (worker : Worker) :
    worker.pendingTools = worker.pendingSlots.map (·.tool) := by
  simp [pendingTools, pendingSlots, Function.comp_def, PendingCallRecord.slot]

theorem reserved_slotOf :
    workerPendingCallCapacity.reservedTools.contains request.call.tool =
    workerPendingCallCapacity.reservedTools.contains (slotOf request).tool :=
  (reserved_countedTool request.call.tool).symm

end

theorem runWithCurrentAuthority_eq
    (prepared : ReadyDispatch.prepared request = true) :
    (worker.runWithCurrentAuthority clock ids true request).1 =
    worker.callDaemonTool clock ids request := by
  simp only [ReadyDispatch.prepared, Bool.and_eq_true,
    Bool.not_eq_true'] at prepared
  obtain ⟨headroom, attached⟩ := prepared
  have admission : toolCallAdmission
      (worker.calls.registry.snapshot clock).active
      (worker.calls.registry.snapshot clock).byTool
      (toolCallCapacityConfig 32 2) request.call.tool = toolCallAdmission
      worker.pendingTools.length (toolCounts worker.pendingTools)
      workerPendingCallCapacity request.call.tool := by
    simp [PendingCallRegistry.snapshot, pendingRegistrySnapshot,
      pendingTools, workerPendingCallCapacity]
  simp only [runWithCurrentAuthority, callDaemonTool, headroom, attached,
    Bool.false_eq_true, if_false, Bool.not_true, dispatchable, admission,
    assertWorkerPendingCallAdmission]
  cases request.aborted with
  | true => simp
  | false =>
    cases worker.isOpen request.socket with
    | false => simp
    | true =>
      cases toolCallAdmission worker.pendingTools.length
        (toolCounts worker.pendingTools) workerPendingCallCapacity
        request.call.tool with
      | totalCapacity => simp
      | ordinaryCapacity => simp
      | admitted =>
        simp only [Bool.not_false, Bool.and_self, beq_self_eq_true,
          Bool.not_true, Bool.false_eq_true, if_false]
        split
        · simp [*]
        · simp [*]

theorem runWithCurrentAuthority_invariant
    (invariant : worker.Invariant clock ids)
    (prepared : ReadyDispatch.prepared request = true) (authorized : Bool) :
    (worker.runWithCurrentAuthority clock ids authorized request).1.Invariant
    clock ids := by
  cases authorized with
  | false => exact drawn_invariant invariant
  | true =>
    rw [runWithCurrentAuthority_eq prepared]
    exact callDaemonTool_invariant invariant request

theorem readJobCapacityReached_room {records : List PendingCallRecord}
    (id : String) (room : CallRoom (records.map (·.slot)) (slotOf request)) :
    readJobCapacityReached (registration request id) records = false := by
  apply eq_false_of_ne_true
  intro reached
  simp only [readJobCapacityReached, Bool.and_eq_true] at reached
  obtain ⟨reads, full⟩ := reached
  obtain ⟨accountId, named, limit⟩ := (Option.any_eq_true _ _).mp full
  have owner : request.call.authority.accountId = accountId ∧
      accountId ≠ "" := by
    simp only [registration, present, Option.map_some,
      Option.filter_eq_some_iff, Option.some.injEq, bne_iff_ne] at named
    exact ⟨named.1, named.1 ▸ named.2⟩
  have below := room (.readJobs accountId) (by
    simp only [CapacityClass.counts, slotOf, owner.1, countedTool_readJob,
      Bool.and_eq_true, bne_iff_ne]
    exact ⟨owner.2, reads, beq_self_eq_true _⟩)
  rw [occupied_readJobs owner.2] at below
  exact absurd (of_decide_eq_true limit) (Nat.not_le.mpr below)

theorem assertCanRegister_room {registry : PendingCallRegistry}
    (invariant : registry.Invariant clock workerPendingCallCapacity)
    {id : String} {message : String} {retryable : Bool}
    (room : CallRoom (registry.byId.values.map (·.slot)) (slotOf request)) :
    registry.assertCanRegister clock (registration request id) ≠
    .error (.registration .limitExceeded message retryable) := by
  have tools : registry.byId.values.map (·.tool) =
      (registry.byId.values.map (·.slot)).map (·.tool) := by
    simp [Function.comp_def, PendingCallRecord.slot]
  have admitted := admitted_of_callRoom tools (reserved_slotOf request) room
  rw [List.length_map] at admitted
  have readJobs := readJobCapacityReached_room id room
  intro refused
  simp only [PendingCallRegistry.assertCanRegister,
    assertPendingCallRegistration, PendingCallRegistry.snapshot,
    pendingRegistrySnapshot, invariant.capacity] at refused
  split at refused
  case h_1 => cases refused
  case h_2 =>
    split at refused
    case h_1 ordinary =>
      rw [show (registration request id).tool = request.call.tool from rfl,
        admitted] at ordinary
      cases ordinary
    case h_2 total =>
      rw [show (registration request id).tool = request.call.tool from rfl,
        admitted] at total
      cases total
    case h_3 =>
      simp only [readJobs, Bool.false_eq_true, if_false] at refused
      split at refused
      case isTrue => cases refused
      case isFalse =>
        split at refused
        case isTrue => cases refused
        case isFalse => cases refused

/-- What becomes of a call under the lock. -/
inductive DispatchPoint (worker later : Worker) (request : ToolCallRequest) :
    Option WorkerToolError → Prop where
  | failed (error : WorkerToolError)
      (slots : later.pendingSlots = worker.pendingSlots)
      (capacity : CallRoom worker.pendingSlots (slotOf request) →
        error.code ≠ .limitExceeded) :
      DispatchPoint worker later request (some error)
  | registered (live : worker.isOpen request.socket = true)
      (slots : later.pendingSlots = worker.pendingSlots ++ [slotOf request]) :
      DispatchPoint worker later request none

theorem DispatchPoint.drawn {error : WorkerToolError}
    (capacity : CallRoom worker.pendingSlots (slotOf request) →
      error.code ≠ .limitExceeded) :
    DispatchPoint worker { worker with drawn := worker.drawn + 1 } request
      (some error) := .failed error rfl capacity

theorem sendToolCall_slots (worker : Worker) (request : ToolCallRequest)
    (id : String) (startedAt : Rat) :
    (worker.sendToolCall request id startedAt).pendingSlots =
    worker.pendingSlots := by
  unfold sendToolCall
  split <;> rfl

theorem register_slots {registry : PendingCallRegistry} {id : String}
    {promise : Nat} (registered : (registry.register clock (registration
    request id)).2 = .ok promise) :
    (registry.register clock (registration request id)).1.byId.values.map
    (·.slot) = registry.byId.values.map (·.slot) ++ [slotOf request] := by
  cases checked : registry.assertCanRegister clock
      (registration request id) with
  | error error =>
    simp only [PendingCallRegistry.register, checked] at registered
    cases registered
  | ok timeoutMs =>
    have accepted := PendingCallRegistry.accepted_of_ok checked
    have again : registry.tick.Accepted (registration request id) timeoutMs :=
      ⟨accepted.positive, accepted.limit, accepted.admitted,
        accepted.newId, accepted.newKey, accepted.readJobs⟩
    simp only [PendingCallRegistry.register, checked]
    rw [PendingCallRegistry.add_eq again]
    change ((registry.byId.set _ _).values).map _ = _
    rw [Record.values_set_of_not_mem accepted.newId, List.map_append]
    rfl

theorem registrationError_code {error : PendingCallRegistrationError}
    (code : (registrationError error).code = .limitExceeded) :
    ∃ message retryable,
    error = .registration .limitExceeded message retryable := by
  cases error with
  | delay message => cases code
  | registration kind message retryable =>
    cases kind with
    | conflict => cases code
    | limitExceeded => exact ⟨message, retryable, rfl⟩

theorem runWithCurrentAuthority_point (invariant : worker.Invariant clock ids)
    (authorized : Bool) : DispatchPoint worker
    (worker.runWithCurrentAuthority clock ids authorized request).1 request
    (worker.runWithCurrentAuthority clock ids authorized request).2 := by
  simp only [runWithCurrentAuthority]
  split
  case isTrue =>
    apply DispatchPoint.drawn
    intro _ code
    cases code
  case isFalse =>
    split
    case isTrue =>
      apply DispatchPoint.drawn
      intro _ code
      cases code
    case isFalse =>
      split
      case isTrue =>
        apply DispatchPoint.drawn
        intro _ code
        cases code
      case isFalse shut =>
        split
        case h_1 error refused =>
          apply DispatchPoint.drawn
          intro room
          have admitted := admitted_of_callRoom (pendingTools_eq worker)
            (reserved_slotOf request) room
          simp [assertWorkerPendingCallAdmission, admitted] at refused
        case h_2 =>
          have ticked := PendingCallRegistry.tick_invariant invariant.registry
          split
          case h_1 error refused =>
            apply DispatchPoint.failed
            · have same := register_error refused
              rw [same]
              rfl
            · intro room code
              obtain ⟨message, retryable, rfl⟩ := registrationError_code code
              apply assertCanRegister_room ticked room
              cases checked : PendingCallRegistry.assertCanRegister clock
                  worker.calls.registry.tick
                  (registration request (ids.token worker.drawn)) with
              | ok timeoutMs =>
                simp only [PendingCallRegistry.register, checked] at refused
                cases refused
              | error error =>
                simp only [PendingCallRegistry.register, checked] at refused
                cases refused
                rfl
          case h_2 promise registered =>
            apply DispatchPoint.registered (by simpa using shut)
            rw [sendToolCall_slots]
            exact register_slots registered

/-- A channel which left the candidates never becomes one again, and none of
them opens once more. -/
structure Ages (before after : Worker) : Prop where
  settled : ∀ channel, before.channelState channel ≠ .candidate →
    after.channelState channel ≠ .candidate
  opens : ∀ channel, before.channelState channel ≠ .candidate →
    after.isOpen channel = true → before.isOpen channel = true

theorem Ages.of_channels {before after : Worker}
    (same : after.channels = before.channels) : Ages before after := by
  have states (channel : DaemonChannel) :
      after.channelState channel = before.channelState channel := by
    simp [channelState, same]
  constructor
  · intro channel settled
    rw [states]
    exact settled
  · intro channel _ live
    simpa [isOpen, states] using live

theorem Ages.of_set {before after : Worker} {channel : DaemonChannel}
    {state : ChannelState}
    (changed : after.channels = before.channels.set channel state)
    (settled : state ≠ .candidate)
    (closed : before.channelState channel = .closed → state = .closed) :
    Ages before after := by
  have states (other : DaemonChannel) : after.channelState other = if other =
      channel then state else before.channelState other := by
    rw [← channelState_set before channel other state]
    simp [channelState, changed]
  constructor
  · intro other old
    rw [states]
    split
    case isTrue => exact settled
    case isFalse => exact old
  · intro other old live
    simp only [isOpen, states, beq_iff_eq] at live ⊢
    split at live
    case isFalse => exact live
    case isTrue same =>
      subst same
      cases current : before.channelState other with
      | candidate => exact absurd current old
      | «open» => rfl
      | closed =>
        rw [closed current] at live
        cases live

section

variable (worker : Worker)

theorem resume_channels (index : Nat) (error : Option String) (sent : Bool) :
    (worker.resume clock index error sent).channels = worker.channels := by
  simp only [resume]
  split
  · rfl
  · simp only [redeliverProvenMissing]
    repeat' split
    all_goals rfl

theorem step_ages (event : WorkerEvent) (other : event.isDispatch = false) :
    Ages worker (worker.step clock ids event) := by
  cases event with
  | callDaemonTool request => cases other
  | operation event =>
    apply Ages.of_channels
    simp only [step]
    split <;> rfl
  | resume task error sent =>
    exact .of_channels (resume_channels worker task error sent)
  | toolResult channel id outcome acknowledged =>
    apply Ages.of_channels
    simp only [step, toolResult]
    split <;> rfl
  | resumeCallsAck channel missingIds =>
    apply Ages.of_channels
    simp only [step, resumeCallsAck, daemonResumeAcknowledgement]
    repeat' split
    all_goals rfl
  | probeResult daemonInstanceId channel sent =>
    simp only [step, probeResult]
    split
    case isTrue => exact .of_channels rfl
    case isFalse =>
      apply Ages.of_set
      · rfl
      · intro candidate
        cases candidate
      · intro _
        rfl
  | httpSession daemonInstanceId channel => exact .of_channels rfl
  | advanceHandshake channel room =>
    apply Ages.of_channels
    simp only [step, advanceHandshake]
    repeat' split
    all_goals rfl
  | opened channel =>
    simp only [step, openChannel]
    split
    case isTrue => exact .of_channels rfl
    case isFalse live =>
      apply Ages.of_set
      · rfl
      · intro candidate
        cases candidate
      · intro closed
        exact absurd closed live
  | closed channel =>
    apply Ages.of_set
    · rfl
    · intro candidate
      cases candidate
    · intro _
      rfl

theorem runWithCurrentAuthority_channels (authorized : Bool)
    (request : ToolCallRequest) :
    (worker.runWithCurrentAuthority clock ids authorized request).1.channels =
    worker.channels := by
  simp only [runWithCurrentAuthority]
  repeat' split
  all_goals try rfl
  simp only [sendToolCall]
  split <;> rfl

end

end Worker

end MachineBridge.Pending
