import MachineBridge.Foundation.Reservation
import MachineBridge.Pending.ReadyWaiters
import MachineBridge.Pending.Redelivery

/-!
# The shared capacity of waiting and registered calls

A call counts against the limit of all calls, of ordinary calls, and of the
managed-job reads of its account.  A waiter is admitted beside the registered
calls and the other waiters.  Calls which took a channel and are not registered
yet are not counted, so the limits hold when such a call is registered only
while there was room for it as well.
-/

namespace MachineBridge.Pending

open Foundation Shared List

/-- What the limits see of a call. -/
structure CallSlot where
  (tool accountId : String)

inductive CapacityClass where
  | total
  | ordinary
  | readJobs (accountId : String)

def CapacityClass.counts : CapacityClass → CallSlot → Bool
  | .total, _ => true
  | .ordinary, slot =>
    !workerPendingCallCapacity.reservedTools.contains slot.tool
  | .readJobs accountId, slot =>
    accountId != "" &&
      (slot.tool == "read_job" && slot.accountId == accountId)

def CapacityClass.limit : CapacityClass → Nat
  | .total => workerPendingCallCapacity.maximum
  | .ordinary => workerPendingCallCapacity.ordinaryMaximum
  | .readJobs _ => maxPendingReadJobCallsPerAccount

/-- All limits hold for the calls. -/
abbrev CallsFit (slots : List CallSlot) : Prop :=
  Fits CapacityClass.counts CapacityClass.limit slots

/-- There is room for one more call. -/
abbrev CallRoom (slots : List CallSlot) (slot : CallSlot) : Prop :=
  Room CapacityClass.counts CapacityClass.limit slots slot

def CallSlot.classes (slot : CallSlot) : List CapacityClass :=
  [.total, .ordinary, .readJobs slot.accountId]

theorem callRoom_iff {slots : List CallSlot} {slot : CallSlot} :
    CallRoom slots slot ↔ ∀ cls ∈ slot.classes, cls.counts slot = true →
    occupied CapacityClass.counts cls slots < cls.limit := by
  constructor
  · intro room cls _
    exact room cls
  · intro room cls counted
    apply room cls _ counted
    cases cls with
    | total | ordinary => simp [CallSlot.classes]
    | readJobs accountId =>
      simp only [CapacityClass.counts, Bool.and_eq_true, beq_iff_eq] at counted
      simp [CallSlot.classes, counted.2.2]

instance (slots : List CallSlot) (slot : CallSlot) :
    Decidable (CallRoom slots slot) := decidable_of_iff _ callRoom_iff.symm

def PendingCallRecord.slot (record : PendingCallRecord) : CallSlot :=
  { tool := record.tool
    accountId := (record.owner.map (·.accountId)).getD "" }

def ReadyCall.slot (call : ReadyCall) : CallSlot :=
  { tool := countedTool call.tool
    accountId := call.authority.accountId }

def Worker.pendingSlots (worker : Worker) : List CallSlot :=
  worker.calls.registry.byId.values.map (·.slot)

theorem occupied_total (slots : List CallSlot) :
    occupied CapacityClass.counts .total slots = slots.length := by
  simp [occupied, CapacityClass.counts]

theorem occupied_ordinary {Item : Type*} (slot : Item → CallSlot)
    (items : List Item) :
    occupied CapacityClass.counts .ordinary (items.map slot) =
    (items.map fun item => (slot item).tool).countP fun tool =>
    !workerPendingCallCapacity.reservedTools.contains tool := by
  simp only [occupied, countP_map]
  rfl

theorem occupied_readJobs {accountId : String} (named : accountId ≠ "")
    (records : List PendingCallRecord) : occupied CapacityClass.counts
    (.readJobs accountId) (records.map (·.slot)) =
    pendingReadJobCallsForAccount records accountId := by
  have same (record : PendingCallRecord) :
      CapacityClass.counts (.readJobs accountId) record.slot =
      record.isReadJobOf accountId := by
    simp only [CapacityClass.counts, PendingCallRecord.slot,
      PendingCallRecord.isReadJobOf]
    cases record.owner with
    | none => simp [Ne.symm named]
    | some owner => simp [named]
  simp only [occupied, countP_map, pendingReadJobCallsForAccount,
    beq_iff_eq, named, if_false]
  congr
  funext record
  exact same record

theorem reserved_countedTool (tool : String) :
    workerPendingCallCapacity.reservedTools.contains (countedTool tool) =
    workerPendingCallCapacity.reservedTools.contains tool := by
  unfold countedTool
  split
  case isTrue empty =>
    rw [beq_iff_eq.mp empty]
    decide
  case isFalse => rfl

theorem countedTool_readJob (tool : String) :
    (countedTool tool == "read_job") = (tool == "read_job") := by
  unfold countedTool
  split
  case isTrue empty =>
    rw [beq_iff_eq.mp empty]
    decide
  case isFalse => rfl

variable {worker : Worker}

theorem callsFit_pending {clock : Clock} {ids : CallIds}
    (invariant : worker.Invariant clock ids) :
    CallsFit worker.pendingSlots := by
  have within := invariant.registry.within
  intro cls
  cases cls with
  | total =>
    rw [occupied_total, Worker.pendingSlots, length_map]
    exact within.total
  | ordinary =>
    rw [Worker.pendingSlots, occupied_ordinary, countP_map]
    exact within.ordinary
  | readJobs accountId =>
    by_cases named : accountId = ""
    · rw [named, occupied_eq_zero]
      · exact Nat.zero_le _
      · intro slot _
        simp [CapacityClass.counts]
    · rw [Worker.pendingSlots, occupied_readJobs named]
      exact within.readJobs accountId

theorem admitted_of_callRoom {slots : List CallSlot} {tools : List String}
    {tool : String} {slot : CallSlot} (counted : tools = slots.map (·.tool))
    (reserved : workerPendingCallCapacity.reservedTools.contains tool =
    workerPendingCallCapacity.reservedTools.contains slot.tool)
    (room : CallRoom slots slot) : toolCallAdmission tools.length
    (toolCounts tools) workerPendingCallCapacity tool = .admitted := by
  apply admitted_of_limits
  · have total := room .total rfl
    rw [occupied_total] at total
    rw [counted, length_map]
    exact total
  · intro unreserved
    rw [reserved] at unreserved
    have belongs : CapacityClass.ordinary.counts slot = true := by
      simp only [CapacityClass.counts, unreserved]
      rfl
    have fewer := room .ordinary belongs
    have same := occupied_ordinary id slots
    rw [map_id] at same
    rw [same] at fewer
    rw [counted]
    exact fewer

/-- Every record goes back to one of the same call. -/
def Descends (before after : PendingCallRegistry) : Prop :=
  ∀ id record, (id, record) ∈ after.byId.entries → ∃ previous,
    (id, previous) ∈ before.byId.entries ∧
      previous.identity = record.identity

theorem Descends.refl (registry : PendingCallRegistry) :
    Descends registry registry :=
  fun _ record member => ⟨record, member, rfl⟩

theorem Descends.trans {first second third : PendingCallRegistry}
    (earlier : Descends first second) (later : Descends second third) :
    Descends first third := by
  intro id record member
  obtain ⟨middle, stored, same⟩ := later id record member
  obtain ⟨previous, old, alsoSame⟩ := earlier id middle stored
  exact ⟨previous, old, alsoSame.trans same⟩

theorem Descends.of_inherits {before after : PendingCallRegistry}
    (inherits : PendingCallRegistry.Inherits before after) :
    Descends before after := by
  intro id record member
  obtain ⟨previous, old, same, -⟩ := inherits id record member
  exact ⟨previous, old, same⟩

theorem identity_slot {left right : PendingCallRecord}
    (same : left.identity = right.identity) : left.slot = right.slot :=
  congrArg (fun record => record.slot) same

theorem Descends.slots {before after : Worker}
    (descends : Descends before.calls.registry after.calls.registry) :
    after.pendingSlots.Subperm before.pendingSlots := by
  have pairs (worker : Worker) : worker.pendingSlots =
      (worker.calls.registry.byId.entries.map fun entry =>
        (entry.1, entry.2.slot)).map Prod.snd := by
    simp [Worker.pendingSlots, Record.values, Function.comp_def]
  have fewer : (after.calls.registry.byId.entries.map fun entry =>
      (entry.1, entry.2.slot)).Subperm
        (before.calls.registry.byId.entries.map fun entry =>
          (entry.1, entry.2.slot)) := by
    apply subperm_of_subset
    · apply List.Nodup.of_map Prod.fst
      rw [map_map]
      exact after.calls.registry.byId.keys_nodup
    · intro entry member
      obtain ⟨⟨id, record⟩, stored, rfl⟩ := List.mem_map.mp member
      obtain ⟨previous, old, same⟩ := descends id record stored
      apply List.mem_map.mpr
      exact ⟨(id, previous), old, by rw [identity_slot same]⟩
  rw [pairs before, pairs after]
  obtain ⟨kept, order, sublist⟩ := fewer
  exact ⟨kept.map Prod.snd, order.map Prod.snd, sublist.map Prod.snd⟩

variable {clock : Clock} {ids : CallIds}

theorem settleResult_descends {registry : PendingCallRegistry}
    {config : ToolCallCapacityConfig}
    (invariant : registry.Invariant clock config) (channel : DaemonChannel)
    (id : String) (outcome : PendingCallOutcome) :
    Descends registry (Worker.settleResult registry channel id outcome).1 :=
  .of_inherits (Worker.settleResult_keeps invariant channel id outcome).2

theorem resumeCalls_descends {calls : PendingCalls}
    {config : ToolCallCapacityConfig}
    (invariant : calls.registry.Invariant clock config) (index : Nat)
    (kept : Bool) (error : Option String) :
    Descends calls.registry (calls.resume index kept error).registry := by
  simp only [PendingCalls.resume]
  split
  · exact .refl _
  · split
    · exact .of_inherits (PendingCallRegistry.finish_inherits invariant _ _)
    · exact .refl _
    · split
      · exact .refl _
      · exact .refl _

theorem mark_descends {record : PendingCallRecord} {id : String}
    (invariant : worker.Invariant clock ids)
    (member : (id, record) ∈ worker.calls.registry.byId.entries)
    (channel : DaemonChannel) : Descends worker.calls.registry
    (worker.tick.mark record channel).calls.registry := by
  intro other stored current
  have same : (Worker.marked record channel).identity = record.identity :=
    rfl
  rcases (PendingCallRegistry.mem_store invariant.registry member same).mp
    current with ⟨rfl, rfl⟩ | ⟨-, old⟩
  · exact ⟨record, member, rfl⟩
  · exact ⟨stored, old, rfl⟩

theorem redeliverProvenMissing_descends {record : PendingCallRecord}
    {id : String} (invariant : worker.Invariant clock ids)
    (member : (id, record) ∈ worker.calls.registry.byId.entries)
    (channel : DaemonChannel) (sent : Bool) : Descends worker.calls.registry
    (worker.redeliverProvenMissing clock record channel sent).1.calls.registry
    := by
  simp only [Worker.redeliverProvenMissing]
  split
  · exact .refl _
  · exact .refl _
  · split
    · exact .refl _
    · split
      case isTrue => exact mark_descends invariant member channel
      case isFalse => exact .refl _

theorem resume_descends (invariant : worker.Invariant clock ids) (index : Nat)
    (error : Option String) (sent : Bool) : Descends worker.calls.registry
    (worker.resume clock index error sent).calls.registry := by
  simp only [Worker.resume]
  split
  case h_1 => exact resumeCalls_descends invariant.registry index false error
  case h_2 record channel asked =>
    obtain ⟨id, member, offered⟩ := Worker.askedRecord_offered invariant asked
    have asking := redeliverProvenMissing_descends invariant member channel
      sent
    have after := Worker.redeliverProvenMissing_invariant invariant member
      offered sent
    exact asking.trans (resumeCalls_descends after.registry index _ error)

theorem step_descends {event : WorkerEvent}
    (invariant : worker.Invariant clock ids)
    (other : event.isDispatch = false) : Descends worker.calls.registry
    (worker.step clock ids event).calls.registry := by
  cases event with
  | callDaemonTool request => cases other
  | operation event =>
    simp only [Worker.step]
    split
    case isTrue operation =>
      exact .of_inherits (PendingCalls.operation_inherits
        invariant.registry operation).1
    case isFalse => exact .refl _
  | resume task error sent => exact resume_descends invariant task error sent
  | toolResult channel id outcome acknowledged =>
    have settled := settleResult_descends invariant.registry channel id outcome
    simp only [Worker.step, Worker.toolResult]
    split
    · exact settled
    · exact settled
  | resumeCallsAck channel missingIds =>
    simp only [Worker.step, Worker.resumeCallsAck,
      Worker.daemonResumeAcknowledgement]
    repeat' split
    all_goals exact .refl _
  | probeResult daemonInstanceId channel sent =>
    have moved := PendingCallRegistry.rebindInstance_inherits
      invariant.registry daemonInstanceId channel
    simp only [Worker.step, Worker.probeResult]
    split
    · exact .of_inherits moved
    · exact .of_inherits moved
  | httpSession daemonInstanceId channel =>
    exact .of_inherits (PendingCallRegistry.rebindInstance_inherits
      invariant.registry daemonInstanceId channel)
  | advanceHandshake channel room =>
    simp only [Worker.step, Worker.advanceHandshake]
    repeat' split
    all_goals exact .refl _
  | opened channel =>
    simp only [Worker.step, Worker.openChannel]
    split
    · exact .refl _
    · exact .refl _
  | closed channel => exact .refl _

end MachineBridge.Pending
