import MachineBridge.Pending.ReadyRegistration

/-!
# Waiters get the slots they were counted for

The calls which took a channel and the waiters form one line, in the order in
which they arrived, and calls are registered from its front.  A waiter keeps
the promise of its admission as long as the calls ahead of it were counted when
it was admitted.
-/

namespace MachineBridge.Pending

open Foundation Shared List

variable {clock : Clock} {ids : CallIds}

namespace ReadyDispatch

def entryOf (worker : Worker) (entry : ReadyCall × DaemonChannel) :
    LineEntry CallSlot :=
  { slot := entry.1.slot
    promised := entry.1.waited
    live := worker.isOpen entry.2 }

def waiterEntry (waiter : ReadyCall) : LineEntry CallSlot :=
  { slot := waiter.slot, promised := waiter.waited, live := true }

section

variable (state : ReadyDispatch)

def line : List (LineEntry CallSlot) :=
  state.dispatching.map (entryOf state.worker) ++
    state.waiters.map waiterEntry

def lineArrivals : List Nat :=
  (state.dispatching.map fun entry => entry.1.arrival) ++
    state.waiters.map (·.arrival)

def countedSlots : List CallSlot :=
  state.worker.pendingSlots ++ state.waiters.map (·.slot)

/-- The counted calls, and the calls on their way to a registration on an open
channel. -/
def claimedSlots : List CallSlot :=
  state.worker.pendingSlots ++ liveSlots state.line

theorem liveSlots_waiters (waiters : List ReadyCall) :
    liveSlots (waiters.map waiterEntry) = waiters.map (·.slot) := by
  induction waiters with
  | nil => rfl
  | cons waiter waiters induction =>
    rw [map_cons, ← singleton_append, liveSlots_append, induction]
    rfl

def waits : ReadyEvent → Option ReadyCall
  | .callDaemonTool tool authority choice aborted =>
    let call : ReadyCall := { arrival := state.arrivals, tool, authority }
    let next := { state with arrivals := state.arrivals + 1 }
    if (next.immediateReadyDaemonForDispatch choice).isSome || aborted then
      none
    else
      match next.waitForReadyDaemon call with
      | .error _ => none
      | .ok _ => some call
  | _ => none

/-- A call becomes a waiter only while there is room for it beside the calls
which took a channel that is still open. -/
def CountsClaimed (event : ReadyEvent) : Prop :=
  ∀ call ∈ state.waits event, CallRoom state.claimedSlots call.slot

end

instance (state : ReadyDispatch) (event : ReadyEvent) :
    Decidable (CountsClaimed state event) :=
  inferInstanceAs (Decidable (∀ call ∈ state.waits event, _))

/-- Calls are registered in the order in which they arrive. -/
structure Sound (clock : Clock) (ids : CallIds) (state : ReadyDispatch) :
    Prop where
  worker : state.worker.Invariant clock ids
  settled : ∀ entry ∈ state.dispatching,
    state.worker.channelState entry.2 ≠ .candidate
  ordered : (state.registered ++ state.lineArrivals).Pairwise (· < ·)
  arrived : ∀ arrival ∈ state.registered ++ state.lineArrivals,
    arrival < state.arrivals

/-- The promises of the line hold, and the limits hold for the classes of the
waiters. -/
structure Kept (state : ReadyDispatch) : Prop where
  honours : Honours CapacityClass.counts CapacityClass.limit
    state.worker.pendingSlots state.line
  within : ∀ cls, (∃ waiter ∈ state.waiters,
      CapacityClass.counts cls waiter.slot = true) →
    occupied CapacityClass.counts cls state.claimedSlots ≤ cls.limit
  answered : ∀ refusal ∈ state.refused, refusal.1.waited = true →
    refusal.2.code ≠ .limitExceeded

theorem Kept.fits {state : ReadyDispatch} (kept : Kept state)
    (sound : Sound clock ids state) : CallsFit state.countedSlots := by
  intro cls
  by_cases waiting : ∃ waiter ∈ state.waiters,
      CapacityClass.counts cls waiter.slot = true
  · apply (occupied_le _).trans (kept.within cls waiting)
    apply List.Sublist.subperm
    apply List.Sublist.append (List.Sublist.refl _)
    rw [line, liveSlots_append, liveSlots_waiters]
    exact sublist_append_right _ _
  · have none : occupied CapacityClass.counts cls
        (state.waiters.map (·.slot)) = 0 := by
      apply occupied_eq_zero
      intro slot member
      obtain ⟨waiter, waits, rfl⟩ := List.mem_map.mp member
      apply eq_false_of_ne_true
      intro counted
      exact waiting ⟨waiter, waits, counted⟩
    rw [countedSlots, occupied_append, none]
    exact callsFit_pending sound.worker cls

/-- What a step that admits nobody leaves of the state. -/
structure Shrinks (before after : ReadyDispatch) : Prop where
  slots : after.worker.pendingSlots.Subperm before.worker.pendingSlots
  line : Thinner after.line before.line
  waiters : ∀ waiter ∈ after.waiters, waiter ∈ before.waiters
  refused : ∀ refusal ∈ after.refused, refusal ∈ before.refused ∨
    refusal.2.code ≠ .limitExceeded ∨ refusal.1.waited = false

variable {after : ReadyDispatch}

theorem Kept.shrink {before : ReadyDispatch} (kept : Kept before)
    (shrinks : Shrinks before after) : Kept after where
  honours := kept.honours.thinner shrinks.slots shrinks.line
  within := by
    intro cls waiting
    obtain ⟨waiter, member, counted⟩ := waiting
    apply (occupied_le _).trans
      (kept.within cls ⟨waiter, shrinks.waiters waiter member, counted⟩)
    exact shrinks.slots.append (shrinks.line.liveSlots.subperm)
  answered := by
    intro refusal member waited
    rcases shrinks.refused refusal member with old | other | unwaited
    · exact kept.answered refusal old waited
    · exact other
    · rw [waited] at unwaited
      cases unwaited

variable {state : ReadyDispatch}

theorem immediate_some {choice : Option DaemonChannel}
    {channel : DaemonChannel}
    (immediate : state.immediateReadyDaemonForDispatch choice = some channel) :
    state.waiters = [] ∧ state.worker.isOpen channel = true := by
  unfold immediateReadyDaemonForDispatch readyDaemonChannel at immediate
  split at immediate
  case isFalse => cases immediate
  case isTrue empty =>
    obtain ⟨-, ready⟩ := Option.filter_eq_some_iff.mp immediate
    rw [Bool.and_eq_true] at ready
    exact ⟨List.isEmpty_iff.mp empty, ready.1⟩

theorem settled_of_open {channel : DaemonChannel}
    (live : state.worker.isOpen channel = true) :
    state.worker.channelState channel ≠ .candidate := by
  intro candidate
  simp [Worker.isOpen, candidate] at live

theorem Sound.join (sound : Sound clock ids state)
    (worker : after.worker = state.worker)
    (settled : ∀ entry ∈ after.dispatching, entry ∈ state.dispatching ∨
      state.worker.isOpen entry.2 = true)
    (line : after.lineArrivals = state.lineArrivals ++ [state.arrivals])
    (registered : after.registered = state.registered)
    (arrivals : after.arrivals = state.arrivals + 1) :
    Sound clock ids after where
  worker := by
    rw [worker]
    exact sound.worker
  settled := by
    intro entry member
    rw [worker]
    rcases settled entry member with old | live
    · exact sound.settled entry old
    · exact settled_of_open live
  ordered := by
    rw [registered, line, ← append_assoc]
    apply pairwise_append.mpr
    refine ⟨sound.ordered, pairwise_singleton _ _, ?_⟩
    intro earlier member arrival last
    rw [mem_singleton.mp last]
    exact sound.arrived earlier member
  arrived := by
    intro arrival member
    rw [registered, line, ← append_assoc] at member
    rw [arrivals]
    rcases mem_append.mp member with old | last
    · exact Nat.lt_succ_of_lt (sound.arrived arrival old)
    · rw [mem_singleton.mp last]
      exact Nat.lt_succ_self _

theorem Sound.remove (sound : Sound clock ids state)
    (worker : after.worker.Invariant clock ids)
    (settled : ∀ entry ∈ after.dispatching,
      after.worker.channelState entry.2 ≠ .candidate)
    (line : after.lineArrivals.Sublist state.lineArrivals)
    (registered : after.registered = state.registered)
    (arrivals : state.arrivals ≤ after.arrivals) : Sound clock ids after where
  worker := worker
  settled := settled
  ordered := by
    rw [registered]
    exact sound.ordered.sublist
      (List.Sublist.append (List.Sublist.refl _) line)
  arrived := by
    intro arrival member
    rw [registered] at member
    apply Nat.lt_of_lt_of_le _ arrivals
    apply sound.arrived
    rcases mem_append.mp member with old | waits
    · exact mem_append_left _ old
    · exact mem_append_right _ (line.subset waits)

theorem waitForReadyDaemon_ok {call : ReadyCall}
    (waiting : state.waitForReadyDaemon call = .ok after) :
    after = { state with
      waiters := state.waiters ++ [{ call with waited := true }] } := by
  simp only [waitForReadyDaemon] at waiting
  split at waiting
  case h_1 => cases waiting
  case h_2 =>
    split at waiting
    case h_1 => cases waiting
    case h_2 =>
      cases waiting
      rfl

inductive Arrival (state after : ReadyDispatch) (call : ReadyCall)
    (waiting : Option ReadyCall) : Prop where
  | immediate (channel : DaemonChannel) (alone : state.waiters = [])
      (live : state.worker.isOpen channel = true)
      (same : after = { state with
        arrivals := state.arrivals + 1
        dispatching := state.dispatching ++ [(call, channel)] })
  | refused (error : WorkerToolError)
      (same : after = ReadyDispatch.refuse
        { state with arrivals := state.arrivals + 1 } call error)
  | waits (admitted : waiting = some call)
      (same : after = { state with
        arrivals := state.arrivals + 1
        waiters := state.waiters ++ [{ call with waited := true }] })

theorem callDaemonTool_arrival (state : ReadyDispatch) (tool : String)
    (authority : AuthorityRevocation) (choice : Option DaemonChannel)
    (aborted : Bool) :
    Arrival state (state.callDaemonTool tool authority choice aborted)
      { arrival := state.arrivals, tool, authority }
      (state.waits (.callDaemonTool tool authority choice aborted)) := by
  simp only [callDaemonTool, waits]
  split
  case h_1 channel immediate =>
    obtain ⟨alone, live⟩ := immediate_some immediate
    exact .immediate channel alone live rfl
  case h_2 none =>
    rw [none]
    cases aborted with
    | true => exact .refused _ rfl
    | false =>
      cases waiting : ReadyDispatch.waitForReadyDaemon
          { state with arrivals := state.arrivals + 1 }
          { arrival := state.arrivals, tool, authority } with
      | error error => exact .refused error rfl
      | ok after => exact .waits rfl (waitForReadyDaemon_ok waiting)

theorem callDaemonTool_sound (sound : Sound clock ids state) (tool : String)
    (authority : AuthorityRevocation) (choice : Option DaemonChannel)
    (aborted : Bool) :
    Sound clock ids (state.callDaemonTool tool authority choice aborted) := by
  have arrival := callDaemonTool_arrival state tool authority choice aborted
  cases arrival with
  | immediate channel alone live same =>
    rw [same]
    refine sound.join rfl ?_ ?_ rfl rfl
    · intro entry member
      rcases mem_append.mp member with old | last
      · exact .inl old
      · rw [mem_singleton.mp last]
        exact .inr live
    · simp [lineArrivals, alone]
  | refused error same =>
    rw [same]
    exact sound.remove sound.worker sound.settled (List.Sublist.refl _) rfl
      (Nat.le_succ _)
  | waits admitted same =>
    rw [same]
    refine sound.join rfl ?_ ?_ rfl rfl
    · intro entry member
      exact .inl member
    · simp [lineArrivals]

theorem callDaemonTool_kept (kept : Kept state) {tool : String}
    {authority : AuthorityRevocation} {choice : Option DaemonChannel}
    {aborted : Bool} (counts : CountsClaimed state (.callDaemonTool tool
    authority choice aborted)) : Kept
    (state.callDaemonTool tool authority choice aborted) := by
  have arrival := callDaemonTool_arrival state tool authority choice aborted
  cases arrival with
  | immediate channel alone live same =>
    rw [same]
    constructor
    · have grown : line { state with
          arrivals := state.arrivals + 1
          dispatching := state.dispatching ++
            [({ arrival := state.arrivals, tool, authority }, channel)] } =
          state.line ++ [entryOf state.worker
            ({ arrival := state.arrivals, tool, authority }, channel)] := by
        simp [line, alone]
      rw [grown]
      apply honours_concat.mpr
      refine ⟨kept.honours, ?_⟩
      intro promised
      cases promised
    · intro cls waiting
      obtain ⟨waiter, member, -⟩ := waiting
      rw [alone] at member
      cases member
    · exact kept.answered
  | refused error same =>
    rw [same]
    apply kept.shrink
    refine ⟨List.Subperm.refl _, .of_sublist (List.Sublist.refl _),
      fun _ member => member, ?_⟩
    intro refusal member
    rcases mem_append.mp member with old | last
    · exact .inl old
    · rw [mem_singleton.mp last]
      exact .inr (.inr rfl)
  | waits admitted same =>
    have room := counts _ admitted
    rw [same]
    have grown : line { state with
        arrivals := state.arrivals + 1
        waiters := state.waiters ++
          [{ arrival := state.arrivals, tool, authority
             waited := true }] } =
        state.line ++ [waiterEntry
          { arrival := state.arrivals, tool, authority
            waited := true }] := by
      simp [line]
    constructor
    · rw [grown]
      apply honours_concat.mpr
      exact ⟨kept.honours, fun _ => room⟩
    · intro cls waiting
      rw [claimedSlots, grown, liveSlots_append, ← append_assoc]
      apply room.occupied_le
      obtain ⟨waiter, member, counted⟩ := waiting
      rcases mem_append.mp member with old | last
      · exact .inr (kept.within cls ⟨waiter, old, counted⟩)
      · rw [mem_singleton.mp last] at counted
        exact .inl counted
    · exact kept.answered

theorem notifyReadyDaemon_sound (sound : Sound clock ids state)
    (choice : Option DaemonChannel) :
    Sound clock ids (state.notifyReadyDaemon choice) := by
  unfold notifyReadyDaemon
  split
  case h_1 => exact sound
  case h_2 channel ready =>
    obtain ⟨-, live⟩ := Option.filter_eq_some_iff.mp ready
    rw [Bool.and_eq_true] at live
    refine sound.remove sound.worker ?_ ?_ rfl (Nat.le_refl _)
    · intro entry member
      rcases mem_append.mp member with old | released
      · exact sound.settled entry old
      · obtain ⟨waiter, -, rfl⟩ := List.mem_map.mp released
        exact settled_of_open live.1
    · simp [lineArrivals, Function.comp_def]

theorem notifyReadyDaemon_kept (kept : Kept state)
    (choice : Option DaemonChannel) :
    Kept (state.notifyReadyDaemon choice) := by
  unfold notifyReadyDaemon
  split
  case h_1 => exact kept
  case h_2 channel ready =>
    apply kept.shrink
    refine ⟨List.Subperm.refl _, ?_, by simp, fun _ member => .inl member⟩
    have released : line { state with
        waiters := []
        dispatching := state.dispatching ++
          state.waiters.map fun waiter => (waiter, channel) } =
        state.dispatching.map (entryOf state.worker) ++
          state.waiters.map fun waiter =>
            entryOf state.worker (waiter, channel) := by
      simp [line, Function.comp_def]
    rw [released]
    apply Thinner.append (.of_sublist (List.Sublist.refl _))
    exact .of_map (fun _ _ => rfl) (fun _ _ => rfl) (fun _ _ _ => rfl)

theorem finishWaiters_sound (sound : Sound clock ids state)
    (condition : ReadyCall → Bool) (error : WorkerToolError) :
    Sound clock ids (state.finishWaiters condition error) := by
  refine sound.remove sound.worker sound.settled ?_ rfl (Nat.le_refl _)
  apply List.Sublist.append (List.Sublist.refl _)
  exact filter_sublist.map _

theorem finishWaiters_kept (kept : Kept state) (condition : ReadyCall → Bool)
    {error : WorkerToolError} (other : error.code ≠ .limitExceeded) :
    Kept (state.finishWaiters condition error) := by
  apply kept.shrink
  refine ⟨List.Subperm.refl _, ?_, ?_, ?_⟩
  · apply Thinner.of_sublist
    apply List.Sublist.append (List.Sublist.refl _)
    exact filter_sublist.map _
  · intro waiter member
    exact (List.mem_filter.mp member).1
  · intro refusal member
    rcases mem_append.mp member with old | failed
    · exact .inl old
    · obtain ⟨waiter, -, rfl⟩ := List.mem_map.mp failed
      exact .inr (.inl other)

theorem abandon_sound (sound : Sound clock ids state) (arrival : Nat)
    (reason : Unprepared) :
    Sound clock ids (state.abandon arrival reason) := by
  refine sound.remove sound.worker ?_ ?_ rfl (Nat.le_refl _)
  · intro entry member
    exact sound.settled entry (List.mem_filter.mp member).1
  · apply List.Sublist.append _ (List.Sublist.refl _)
    exact filter_sublist.map _

theorem abandon_kept (kept : Kept state) (arrival : Nat)
    (reason : Unprepared) : Kept (state.abandon arrival reason) := by
  apply kept.shrink
  refine ⟨List.Subperm.refl _, ?_, fun _ member => member, ?_⟩
  · apply Thinner.of_sublist
    apply List.Sublist.append _ (List.Sublist.refl _)
    exact filter_sublist.map _
  · intro refusal member
    rcases mem_append.mp member with old | failed
    · exact .inl old
    · obtain ⟨entry, -, rfl⟩ := List.mem_map.mp failed
      apply Or.inr
      apply Or.inl
      cases reason with
      | readHeadroom => exact nofun
      | instanceIdentity => exact nofun
      | disabledTool name => exact nofun

/-- The first call of the line is registered or fails. -/
inductive Dispatched (clock : Clock) (ids : CallIds)
    (before after : ReadyDispatch) : Prop where
  | idle (same : after = before)
  | settled (call : ReadyCall) (channel : DaemonChannel)
      (rest : List (ReadyCall × DaemonChannel)) (worker : Worker)
      (failed : Option WorkerToolError) (request : ToolCallRequest)
      (first : before.dispatching = (call, channel) :: rest)
      (invariant : worker.Invariant clock ids)
      (channels : worker.channels = before.worker.channels)
      (same : after = match failed with
        | none => { before with
            worker, dispatching := rest
            registered := before.registered ++ [call.arrival] }
        | some error => ReadyDispatch.refuse
            { before with worker, dispatching := rest } call error)
      (point : Worker.DispatchPoint before.worker worker
        (requestOf call channel request) failed)

section

variable (sound : Sound clock ids state)
include sound

theorem dispatch_dispatched (authorized : Bool)
    (request : ToolCallRequest) : Dispatched clock ids state
    (state.dispatch clock ids authorized request) := by
  unfold dispatch
  split
  case h_1 => exact .idle rfl
  case h_2 call channel rest first =>
    dsimp only
    split
    case isTrue => exact .idle rfl
    case isFalse lacking =>
      have prepared : prepared (requestOf call channel request) = true := by
        simpa using lacking
      exact .settled call channel rest _ _ request first
        (Worker.runWithCurrentAuthority_invariant sound.worker prepared
          authorized)
        (Worker.runWithCurrentAuthority_channels _ _ _) rfl
        (Worker.runWithCurrentAuthority_point sound.worker authorized)

theorem dispatch_sound (authorized : Bool) (request : ToolCallRequest) :
    Sound clock ids (state.dispatch clock ids authorized request) := by
  have dispatched := dispatch_dispatched sound authorized request
  cases dispatched with
  | idle same =>
    rw [same]
    exact sound
  | settled call channel rest worker failed request first invariant channels
      same point =>
      have states (other : DaemonChannel) :
          worker.channelState other = state.worker.channelState other := by
        simp [Worker.channelState, channels]
      have settled : ∀ entry ∈ rest,
          worker.channelState entry.2 ≠ .candidate := by
        intro entry member
        rw [states]
        apply sound.settled
        rw [first]
        exact mem_cons_of_mem _ member
      have line : state.lineArrivals = call.arrival :: (rest.map fun entry =>
          entry.1.arrival) ++ state.waiters.map (·.arrival) := by
        simp [lineArrivals, first]
      rw [same]
      cases failed with
      | some error =>
        refine sound.remove invariant settled ?_ rfl (Nat.le_refl _)
        rw [line]
        exact sublist_cons_self _ _
      | none =>
        have moved : (state.registered ++ [call.arrival]) ++ ((rest.map fun
            entry => entry.1.arrival) ++ state.waiters.map (·.arrival)) =
            state.registered ++ state.lineArrivals := by
          simp [line]
        refine ⟨invariant, settled, ?_, ?_⟩
        · change ((state.registered ++ [call.arrival]) ++
            ((rest.map fun entry => entry.1.arrival) ++
              state.waiters.map (·.arrival))).Pairwise (· < ·)
          rw [moved]
          exact sound.ordered
        · change ∀ arrival ∈ (state.registered ++ [call.arrival]) ++
            ((rest.map fun entry => entry.1.arrival) ++
              state.waiters.map (·.arrival)), arrival < state.arrivals
          rw [moved]
          exact sound.arrived

theorem dispatch_kept (kept : Kept state)
    (authorized : Bool) (request : ToolCallRequest) :
    Kept (state.dispatch clock ids authorized request) := by
  have dispatched := dispatch_dispatched sound authorized request
  cases dispatched with
  | idle same =>
    rw [same]
    exact kept
  | settled call channel rest worker failed request first invariant channels
      same point =>
      have live (other : DaemonChannel) :
          worker.isOpen other = state.worker.isOpen other := by
        simp [Worker.isOpen, Worker.channelState, channels]
      have line : state.line = entryOf state.worker (call, channel) ::
          (rest.map (entryOf worker) ++ state.waiters.map waiterEntry) := by
        simp [ReadyDispatch.line, first, entryOf, live]
      have slot : Worker.slotOf (requestOf call channel request) =
          call.slot := rfl
      have honours := kept.honours
      rw [line] at honours
      rw [same]
      cases point with
      | failed error slots capacity =>
        apply kept.shrink
        refine ⟨?_, ?_, fun _ member => member, ?_⟩
        · change worker.pendingSlots.Subperm _
          rw [slots]
        · rw [line]
          exact .drop _ (.of_sublist (List.Sublist.refl _))
        · intro refusal member
          rcases mem_append.mp member with old | last
          · exact .inl old
          · rw [mem_singleton.mp last]
            apply Or.inr
            cases waited : call.waited with
            | false => exact .inr rfl
            | true => exact .inl (capacity (honours.1 waited))
      | registered live slots =>
        refine ⟨?_, ?_, kept.answered⟩
        · change Honours _ _ worker.pendingSlots _
          rw [slots]
          exact honours.take live
        · intro cls waiting
          have opened : state.worker.isOpen channel = true := live
          have moved : worker.pendingSlots ++ liveSlots
              (rest.map (entryOf worker) ++ state.waiters.map waiterEntry) =
              state.claimedSlots := by
            rw [slots, claimedSlots, line, slot, append_assoc]
            simp [liveSlots, entryOf, opened]
          change occupied CapacityClass.counts cls
            (worker.pendingSlots ++ liveSlots
              (rest.map (entryOf worker) ++
                state.waiters.map waiterEntry)) ≤ _
          rw [moved]
          exact kept.within cls waiting

theorem beginDrain_sound (channel : DaemonChannel) :
    Sound clock ids (state.beginDrain channel) := by
  unfold beginDrain
  split
  case isTrue => exact sound
  case isFalse =>
    exact sound.remove sound.worker sound.settled (List.Sublist.refl _) rfl
      (Nat.le_refl _)

end

theorem beginDrain_kept (kept : Kept state) (channel : DaemonChannel) :
    Kept (state.beginDrain channel) := by
  unfold beginDrain
  split
  case isTrue => exact kept
  case isFalse => exact ⟨kept.honours, kept.within, kept.answered⟩

theorem worker_sound (sound : Sound clock ids state) (event : WorkerEvent) :
    Sound clock ids (state.step clock ids (.worker event)) := by
  simp only [step]
  split
  case isTrue => exact sound
  case isFalse other =>
    have ages : Worker.Ages state.worker (state.worker.step clock ids event) :=
      Worker.step_ages _ event (eq_false_of_ne_true other)
    refine sound.remove (Worker.step_invariant _ event sound.worker) ?_
      (List.Sublist.refl _) rfl (Nat.le_refl _)
    intro entry member
    exact ages.settled entry.2 (sound.settled entry member)

theorem worker_kept (sound : Sound clock ids state) (kept : Kept state)
    (event : WorkerEvent) : Kept (state.step clock ids (.worker event)) := by
  simp only [step]
  split
  case isTrue => exact kept
  case isFalse other =>
    have beside := eq_false_of_ne_true other
    have ages : Worker.Ages state.worker (state.worker.step clock ids event) :=
      Worker.step_ages _ event beside
    apply kept.shrink
    refine ⟨(step_descends sound.worker beside).slots, ?_,
      fun _ member => member, fun _ member => .inl member⟩
    apply Thinner.append _ (.of_sublist (List.Sublist.refl _))
    refine Thinner.of_map (fun _ _ => rfl) (fun _ _ => rfl) ?_
    intro entry member live
    exact ages.opens entry.2 (sound.settled entry member) live

theorem step_sound (sound : Sound clock ids state) (event : ReadyEvent) :
    Sound clock ids (state.step clock ids event) := by
  cases event with
  | callDaemonTool tool authority choice aborted =>
    exact callDaemonTool_sound sound tool authority choice aborted
  | notifyReadyDaemon choice => exact notifyReadyDaemon_sound sound choice
  | expire arrival graceMs
  | abort arrival
  | cancelAuthority revocation => exact finishWaiters_sound sound _ _
  | abandon arrival reason => exact abandon_sound sound arrival reason
  | dispatch authorized request =>
    exact dispatch_sound sound authorized request
  | beginDrain channel => exact beginDrain_sound sound channel
  | worker event => exact worker_sound sound event

theorem step_kept (sound : Sound clock ids state) (kept : Kept state)
    {event : ReadyEvent} (counts : CountsClaimed state event) :
    Kept (state.step clock ids event) := by
  cases event with
  | callDaemonTool tool authority choice aborted =>
    exact callDaemonTool_kept kept counts
  | notifyReadyDaemon choice => exact notifyReadyDaemon_kept kept choice
  | expire arrival graceMs
  | abort arrival
  | cancelAuthority revocation => exact finishWaiters_kept kept _ nofun
  | abandon arrival reason => exact abandon_kept kept arrival reason
  | dispatch authorized request =>
    exact dispatch_kept sound kept authorized request
  | beginDrain channel => exact beginDrain_kept kept channel
  | worker event => exact worker_kept sound kept event

theorem start_sound : Sound clock ids ({} : ReadyDispatch) where
  worker := Worker.start_invariant
  settled := by
    intro entry member
    cases member
  ordered := List.Pairwise.nil
  arrived := by
    intro arrival member
    cases member

theorem start_kept : Kept ({} : ReadyDispatch) where
  honours := trivial
  within := by
    intro cls waiting
    obtain ⟨waiter, member, -⟩ := waiting
    cases member
  answered := by
    intro refusal member
    cases member

theorem run_sound (clock : Clock) (ids : CallIds) (events : List ReadyEvent) :
    Sound clock ids (run (step clock ids) {} events) := by
  apply run_induction _ start_sound
  intro state event sound
  exact step_sound sound event

theorem run_kept {events : List ReadyEvent}
    (counts : Meets (step clock ids) CountsClaimed {} events) :
    Kept (run (step clock ids) {} events) := by
  have sound : Sound clock ids {} := start_sound
  have kept := start_kept
  generalize ({} : ReadyDispatch) = state at *
  induction events generalizing state with
  | nil => exact kept
  | cons event events induction =>
    obtain ⟨condition, rest⟩ := counts
    exact induction _ rest (step_sound sound event)
      (step_kept sound kept condition)

/-- Calls are registered in the order of their arrival, before all calls that
are still on their way.  While every waiter is admitted beside the calls which
took an open channel, the registered calls and the waiters respect the shared
capacity, and no waiter is refused a slot for capacity once it is released. -/
theorem readyWaiters_run (clock : Clock) (ids : CallIds)
    (events : List ReadyEvent) :
    let state := run (step clock ids) {} events
    (state.registered ++ state.lineArrivals).Pairwise (· < ·) ∧
      (Meets (step clock ids) CountsClaimed {} events →
        (∀ count, CallsFit
          (run (step clock ids) {} (events.take count)).countedSlots) ∧
        ∀ refusal ∈ state.refused, refusal.1.waited = true →
          refusal.2.code ≠ .limitExceeded) := by
  refine ⟨(run_sound clock ids events).ordered, ?_⟩
  intro counts
  refine ⟨?_, (run_kept counts).answered⟩
  intro count
  rw [← take_append_drop count events] at counts
  have earlier := (meets_append.mp counts).1
  exact (run_kept earlier).fits (run_sound clock ids _)

def lengthIds : CallIds where
  token := fun number =>
    String.ofList ("call_".toList ++ List.replicate number 'a')
  injective := by
    intro first second same
    have lengths := congrArg (fun token => token.toList.length) same
    simpa using lengths

def ownerAuthority : AuthorityRevocation where
  accountId := "acct_owner"
  accountVersion := 1

def arrives (tool : String) (choice : Option DaemonChannel) : ReadyEvent :=
  .callDaemonTool tool ownerAuthority choice false

def underLock : ReadyEvent :=
  .dispatch true
    { call :=
        { tool := "read_file"
          arguments := {}
          timeoutMs := 50000
          authority := ownerAuthority
          role := "owner" }
      socket := 1
      daemonInstanceId := "daemon"
      settlementTimeoutMs := 50000 }

def releasedWaiter : List ReadyEvent :=
  [arrives "read_file" none, .worker (.opened 1),
    .notifyReadyDaemon (some 1), underLock]

theorem releasedWaiter_registered :
    let state := run (step (.stepwise 1 1) lengthIds) {} releasedWaiter
    state.registered = [0] ∧
      (∀ count, CallsFit (run (step (.stepwise 1 1) lengthIds) {}
        (releasedWaiter.take count)).countedSlots) := by
  have counts : Meets (step (.stepwise 1 1) lengthIds) CountsClaimed {}
      releasedWaiter := by decide +kernel
  have whole := readyWaiters_run (.stepwise 1 1) lengthIds releasedWaiter
  exact ⟨by decide +kernel, (whole.2 counts).1⟩

/-- A call takes a channel which drains before the call is registered, while
32 later calls wait for the next daemon. -/
def drainedBeforeRegistration : List ReadyEvent :=
  [.worker (.opened 1), arrives "read_file" (some 1), .beginDrain 1] ++
    List.replicate 30 (arrives "read_file" none) ++
    List.replicate 2 (arrives "list_roots" none) ++ [underLock]

/-- Then a daemon becomes ready. -/
def releasedAfterDrain : List ReadyEvent :=
  drainedBeforeRegistration ++
    [.worker (.opened 2), .notifyReadyDaemon (some 2)] ++
    List.replicate 30 underLock

/-- There are 33 registered and waiting calls, and a waiter is refused its
slot. -/
theorem drainedBeforeRegistration_exceeds : ¬CallsFit (run (step (.stepwise 1
    1) lengthIds) {} drainedBeforeRegistration).countedSlots ∧ ∃ refusal ∈
    (run (step (.stepwise 1 1) lengthIds) {} releasedAfterDrain).refused,
    refusal.1.waited = true ∧ refusal.2.code = .limitExceeded := by
  constructor
  · intro fits
    have total := fits .total
    revert total
    decide +kernel
  · decide +kernel

end ReadyDispatch

end MachineBridge.Pending
