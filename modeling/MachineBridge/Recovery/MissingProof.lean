import MachineBridge.Recovery.Runtime

/-!
# What a missing report proves

Every call the instance started stays accounted for: it is active, its result
or a tombstone is kept, or it is one of the calls that the Worker let go of or
whose result was forgotten.  An offer that names none of the last two kinds is
answered with calls that were never started.
-/

namespace MachineBridge.Recovery

open Foundation List

variable {Content : Type}

namespace LocalRuntime

/-- Why a started call is not reported missing, or cannot be offered. -/
def Accounted (runtime : LocalRuntime Content) (id : String) : Prop :=
  id ∈ runtime.activeRelayCalls.keys ∨ runtime.recovery.Owned id ∨
    id ∈ runtime.history.released ∨ id ∈ runtime.history.forgotten

structure Invariant (runtime : LocalRuntime Content) : Prop where
  active_started : ∀ id ∈ runtime.activeRelayCalls.keys,
    id ∈ runtime.history.started
  accounted : ∀ id ∈ runtime.history.started, runtime.Accounted id
  suppressed : ∀ id reason,
    (id, reason) ∈ runtime.suppressedRelayResults.entries →
    reason = .relayReconnectTimeout ∨ id ∈ runtime.history.released
  waiting : ∀ missing ∈ runtime.relayResumeStates.values, ∀ id ∈ missing,
    id ∉ runtime.history.started
  reports : ∀ report ∈ runtime.history.reports, report.started = false

/-- What an event must not do: offer a call which the Worker let go of or whose
result was forgotten, or start a call between the offer that found it missing
and its report. -/
def KeepsProof (runtime : LocalRuntime Content) :
    RuntimeEvent Content → Prop
  | .resumeCalls _ _ ids _ => ∀ id ∈ ids,
      id ∉ runtime.history.released ∧ id ∉ runtime.history.forgotten
  | .toolCall id _ _ _ _ =>
    ∀ missing ∈ runtime.relayResumeStates.values, id ∉ missing
  | _ => True

instance (runtime : LocalRuntime Content) (event : RuntimeEvent Content) :
    Decidable (runtime.KeepsProof event) := by
  cases event <;> unfold KeepsProof <;> infer_instance

theorem start_invariant : Invariant ({} : LocalRuntime Content) where
  active_started := nofun
  accounted := nofun
  suppressed := nofun
  waiting := nofun
  reports := nofun

variable {runtime : LocalRuntime Content} {id : String}

theorem Invariant.withRecovery (invariant : runtime.Invariant)
    {recovery : RelayCallRecovery Content}
    (keeps : ∀ id ∈ runtime.history.started, runtime.recovery.Owned id →
      recovery.Owned id ∨ id ∈ runtime.history.released) :
    ({ runtime with recovery } : LocalRuntime Content).Invariant where
  __ := invariant
  accounted := by
    intro id started
    rcases invariant.accounted id started with active | owned | rest
    · exact .inl active
    · rcases keeps id started owned with still | released
      · exact .inr (.inl still)
      · exact .inr (.inr (.inl released))
    · exact .inr (.inr rest)

theorem Invariant.ofKeeps (invariant : runtime.Invariant)
    {recovery : RelayCallRecovery Content}
    (keeps : runtime.recovery.Keeps recovery) :
    ({ runtime with recovery } : LocalRuntime Content).Invariant :=
  invariant.withRecovery fun id _ owned => .inl (keeps id owned)

theorem Invariant.release (invariant : runtime.Invariant) (ids : List String) :
    (runtime.release ids).Invariant where
  __ := invariant
  accounted := by
    intro id started
    rcases invariant.accounted id started with active | owned | released |
      forgotten
    · exact .inl active
    · exact .inr (.inl owned)
    · exact .inr (.inr (.inl (mem_append_left _ released)))
    · exact .inr (.inr (.inr forgotten))
  suppressed := by
    intro id reason member
    rcases invariant.suppressed id reason member with timeout | released
    · exact .inl timeout
    · exact .inr (mem_append_left _ released)

theorem Invariant.clearRelayResumeState (invariant : runtime.Invariant)
    (transport : Option RelayTransport) :
    (runtime.clearRelayResumeState transport).Invariant where
  __ := invariant
  waiting := by
    intro missing member
    apply invariant.waiting missing
    obtain ⟨entry, kept, same⟩ := List.mem_map.mp member
    exact List.mem_map.mpr ⟨entry, (List.mem_filter.mp kept).1, same⟩

theorem handleRelayToolCall_invariant (invariant : runtime.Invariant)
    (unreported : ∀ missing ∈ runtime.relayResumeStates.values, id ∉ missing)
    (tool : String) (valid : Bool) (rejection : Content)
    (context : RecoveryContext) :
    (runtime.handleRelayToolCall id tool valid rejection context).Invariant :=
    by
  simp only [handleRelayToolCall]
  split
  · split
    · exact invariant
    · exact invariant.ofKeeps (RelayCallRecovery.deliver_keeps _ _ context)
  · split
    · exact invariant
    · split
      · exact invariant
      · constructor
        · intro other active
          rcases Record.mem_keys_set.mp active with same | before
          · exact mem_append_right _ (mem_singleton.mpr same)
          · exact mem_append_left _ (invariant.active_started other before)
        · intro other started
          rcases mem_append.mp started with before | new
          · rcases invariant.accounted other before with active | rest
            · exact .inl (Record.mem_keys_set.mpr (.inr active))
            · exact .inr rest
          · exact .inl (Record.mem_keys_set.mpr (.inl (mem_singleton.mp new)))
        · exact invariant.suppressed
        · intro missing member other listed started
          rcases mem_append.mp started with before | new
          · exact invariant.waiting missing member other listed before
          · rw [mem_singleton.mp new] at listed
            exact unreported missing member listed
        · exact invariant.reports

theorem settleResult_spec (invariant : runtime.Invariant) (id : String)
    (content : Content) (context : RecoveryContext) :
    (runtime.settleResult id content context).Invariant ∧
    ((runtime.settleResult id content context).recovery.Owned id ∨
      id ∈ (runtime.settleResult id content context).history.released ∨
      id ∈ (runtime.settleResult id content context).history.forgotten) := by
  simp only [settleResult]
  split
  case h_1 =>
    constructor
    · constructor
      · exact invariant.active_started
      · intro other started
        rcases invariant.accounted other started with active | owned |
          released | forgotten
        · exact .inl active
        · exact .inr (.inl owned)
        · exact .inr (.inr (.inl released))
        · exact .inr (.inr (.inr (mem_append_left _ forgotten)))
      · exact invariant.suppressed
      · exact invariant.waiting
      · exact invariant.reports
    · exact .inr (.inr (by simp))
  case h_2 reason other found =>
    refine ⟨invariant, .inr (.inl ?_)⟩
    rcases invariant.suppressed id reason (Record.get?_eq_some.mp found)
      with timeout | released
    · exact absurd timeout other
    · exact released
  case h_3 =>
    have kept := invariant.ofKeeps
      (RelayCallRecovery.deliver_keeps runtime.recovery ⟨id, content⟩ context)
    constructor
    · constructor
      · exact kept.active_started
      · intro other started
        rcases kept.accounted other started with active | owned |
          released | forgotten
        · exact .inl active
        · exact .inr (.inl owned)
        · exact .inr (.inr (.inl released))
        · refine .inr (.inr (.inr ?_))
          split
          · exact forgotten
          · exact mem_append_left _ forgotten
      · exact kept.suppressed
      · exact kept.waiting
      · exact kept.reports
    · cases recoverable : context.recoverable with
      | true =>
        exact .inl (RelayCallRecovery.deliver_owned _ ⟨id, content⟩
          recoverable)
      | false => exact .inr (.inr (by simp))

theorem completeRelayCall_invariant (invariant : runtime.Invariant)
    (id : String) (content : Content) (context : RecoveryContext) :
    (runtime.completeRelayCall id content context).Invariant := by
  simp only [completeRelayCall]
  split
  · exact invariant
  · obtain ⟨settled, evidence⟩ :=
      settleResult_spec invariant id content context
    constructor
    · intro other active
      exact settled.active_started other (Record.mem_keys_delete.mp active).2
    · intro other started
      by_cases same : other = id
      · subst same
        exact .inr evidence
      · rcases settled.accounted other started with active | rest
        · exact .inl (Record.mem_keys_delete.mpr ⟨same, active⟩)
        · exact .inr rest
    · intro other reason member
      exact settled.suppressed other reason (Record.mem_delete.mp member).2
    · exact settled.waiting
    · exact settled.reports

theorem acknowledge_invariant (invariant : runtime.Invariant)
    (released : id ∈ runtime.history.released) :
    ({ runtime with recovery := runtime.recovery.acknowledge id } :
      LocalRuntime Content).Invariant := by
  apply invariant.withRecovery
  intro other _ owned
  rcases RelayCallRecovery.acknowledge_owned owned with same | kept
  · rw [same]
    exact .inr released
  · exact .inl kept

theorem cancelRelayCall_invariant (invariant : runtime.Invariant)
    (released : id ∈ runtime.history.released) (reason : SuppressionReason) :
    (runtime.cancelRelayCall reason id).Invariant := by
  have acknowledged := acknowledge_invariant invariant released
  simp only [cancelRelayCall]
  split
  · constructor
    · exact acknowledged.active_started
    · exact acknowledged.accounted
    · intro other stored member
      rcases Record.mem_set.mp member with ⟨same, -⟩ | ⟨-, old⟩
      · rw [same]
        exact .inr released
      · exact acknowledged.suppressed other stored old
    · exact acknowledged.waiting
    · exact acknowledged.reports
  · exact acknowledged

@[simp] theorem cancelRelayCall_history (runtime : LocalRuntime Content)
    (reason : SuppressionReason) (id : String) :
    (runtime.cancelRelayCall reason id).history = runtime.history := by
  simp only [cancelRelayCall]
  split <;> rfl

theorem cancelAll_invariant (ids : List String) (invariant : runtime.Invariant)
    (released : ∀ id ∈ ids, id ∈ runtime.history.released)
    (reason : SuppressionReason) :
    let after := ids.foldl (fun state id => state.cancelRelayCall reason id)
      runtime
    after.Invariant ∧ after.history = runtime.history := by
  induction ids generalizing runtime with
  | nil => exact ⟨invariant, rfl⟩
  | cons id ids induction =>
    have first := released id mem_cons_self
    have rest : ∀ other ∈ ids,
        other ∈ (runtime.cancelRelayCall reason id).history.released := by
      intro other member
      rw [cancelRelayCall_history]
      exact released other (mem_cons_of_mem _ member)
    obtain ⟨kept, same⟩ := induction
      (cancelRelayCall_invariant invariant first reason) rest
    exact ⟨kept, same.trans (cancelRelayCall_history runtime reason id)⟩

theorem discardUnoffered_invariant (invariant : runtime.Invariant)
    {ids : List String}
    (left : ∀ id ∈ runtime.history.started, id ∉ ids →
      id ∈ runtime.history.released) :
    ({ runtime with recovery := runtime.recovery.discardUnoffered ids } :
      LocalRuntime Content).Invariant := by
  apply invariant.withRecovery
  intro id started owned
  by_cases offered : id ∈ ids
  · exact .inl (RelayCallRecovery.discardUnoffered_owned owned offered)
  · exact .inr (left id started offered)

theorem setResumeState_invariant (invariant : runtime.Invariant)
    (key : RelayTransport × Nat) {missing : List String}
    (unstarted : ∀ id ∈ missing, id ∉ runtime.history.started) :
    ({ runtime with
      relayResumeStates := runtime.relayResumeStates.set key missing } :
      LocalRuntime Content).Invariant where
  __ := invariant
  waiting := by
    intro other member
    obtain ⟨entry, stored, same⟩ := List.mem_map.mp member
    rcases Record.mem_set.mp stored with ⟨-, new⟩ | ⟨-, old⟩
    · rw [← same, new]
      exact unstarted
    · exact invariant.waiting other (List.mem_map.mpr ⟨_, old, same⟩)

theorem handleResumeCalls_invariant (invariant : runtime.Invariant)
    {ids : List String} (offerable : ∀ id ∈ ids,
      id ∉ runtime.history.released ∧ id ∉ runtime.history.forgotten)
    (transport : RelayTransport) (session : Nat) (now : Rat) :
    (runtime.handleResumeCalls transport session ids now).Invariant := by
  simp only [handleResumeCalls]
  split
  · exact invariant
  · have left : ∀ id ∈ runtime.history.started, id ∉ ids →
        id ∈ runtime.history.released ++
          runtime.history.started.filter fun id => !ids.contains id := by
      intro id started unoffered
      refine mem_append_right _ (List.mem_filter.mpr ⟨started, ?_⟩)
      simpa using unoffered
    have cleared := (invariant.clearRelayResumeState
      (some transport)).release
        (runtime.history.started.filter fun id => !ids.contains id)
    have observed : ({ (runtime.clearRelayResumeState
          (some transport)).release (runtime.history.started.filter fun id =>
            !ids.contains id) with
        recovery := runtime.recovery.observe ids now } :
        LocalRuntime Content).Invariant := by
      apply cleared.withRecovery
      intro id started owned
      by_cases offered : id ∈ ids
      · exact .inl (RelayCallRecovery.observe_owned owned offered)
      · exact .inr (left id started offered)
    obtain ⟨cancelled, history⟩ := cancelAll_invariant
      (runtime.activeRelayCalls.keys.filter fun id => !ids.contains id)
      observed (fun id member => by
        obtain ⟨active, unoffered⟩ := List.mem_filter.mp member
        exact left id (invariant.active_started id active)
          (by simpa using unoffered)) .callerNoLongerWaiting
    have missing : ∀ id ∈ (runtime.recovery.observe ids now).missing
        runtime.activeRelayCalls.keys ids, id ∉ runtime.history.started := by
      intro id member started
      obtain ⟨offered, inactive, unowned⟩ :=
        RelayCallRecovery.mem_missing.mp member
      rcases invariant.accounted id started with active | owned | released |
        forgotten
      · exact inactive active
      · exact unowned (RelayCallRecovery.observe_owned owned offered)
      · exact (offerable id offered).1 released
      · exact (offerable id offered).2 forgotten
    have kept := discardUnoffered_invariant cancelled (by
      rw [history]
      exact left)
    apply setResumeState_invariant kept
    rw [history]
    exact missing

theorem handleReadyAck_invariant (invariant : runtime.Invariant)
    (transport : RelayTransport) (session : Nat) (acknowledged : Bool) :
    (runtime.handleReadyAck transport session acknowledged).Invariant := by
  simp only [handleReadyAck]
  split
  case h_1 => exact invariant
  case h_2 missing found =>
    split
    · exact invariant
    · have waited : missing ∈ runtime.relayResumeStates.values :=
        List.mem_map.mpr ⟨_, Record.get?_eq_some.mp found, rfl⟩
      constructor
      · exact invariant.active_started
      · exact invariant.accounted
      · exact invariant.suppressed
      · intro other member
        obtain ⟨entry, stored, same⟩ := List.mem_map.mp member
        exact invariant.waiting other (List.mem_map.mpr
          ⟨entry, (List.mem_filter.mp stored).1, same⟩)
      · intro report member
        rcases mem_append.mp member with before | new
        · exact invariant.reports report before
        · obtain ⟨id, listed, same⟩ := List.mem_map.mp new
          rw [← same]
          simpa using invariant.waiting missing waited id listed

theorem suppressAll_invariant (ids : List String)
    (invariant : runtime.Invariant) :
    (ids.foldl (suppress · .relayReconnectTimeout) runtime).Invariant := by
  induction ids generalizing runtime with
  | nil => exact invariant
  | cons id ids induction =>
    apply induction
    constructor
    · exact invariant.active_started
    · exact invariant.accounted
    · intro other reason member
      rcases Record.mem_set.mp member with ⟨-, timeout⟩ | ⟨-, old⟩
      · exact .inl timeout
      · exact invariant.suppressed other reason old
    · exact invariant.waiting
    · exact invariant.reports

theorem expireGrace_invariant (invariant : runtime.Invariant) :
    runtime.expireGrace.Invariant := by
  simp only [expireGrace]
  split
  · exact invariant
  · apply (suppressAll_invariant _ invariant).ofKeeps
    intro id owned
    exact RelayCallRecovery.discardAll_keeps _ id owned

theorem step_invariant {event : RuntimeEvent Content}
    (keeps : runtime.KeepsProof event) (invariant : runtime.Invariant) :
    (runtime.step event).Invariant := by
  cases event with
  | toolCall id tool valid rejection context =>
    exact handleRelayToolCall_invariant invariant keeps tool valid
      rejection context
  | complete id content context =>
    exact completeRelayCall_invariant invariant id content context
  | toolResultAck id =>
    exact acknowledge_invariant (invariant.release [id]) (by simp [release])
  | cancelCall id =>
    exact cancelRelayCall_invariant (invariant.release [id])
      (by simp [release]) .callerCancelled
  | helloAck => exact invariant.clearRelayResumeState (some .websocket)
  | resumeCalls transport session ids now =>
    exact handleResumeCalls_invariant invariant keeps transport session now
  | readyAck transport session acknowledged =>
    exact handleReadyAck_invariant invariant transport session acknowledged
  | disconnected transport =>
    apply (invariant.clearRelayResumeState transport).ofKeeps
    intro id owned
    simp only [RelayCallRecovery.disconnected]
    split <;> exact owned
  | ready context =>
    apply invariant.ofKeeps
    exact RelayCallRecovery.retryUnacknowledged_keeps
      runtime.recovery.clearTimer context
  | pulse context =>
    exact invariant.ofKeeps
      (RelayCallRecovery.retryUnacknowledged_keeps _ context)
  | graceExpired => exact expireGrace_invariant invariant
  | stop =>
    apply invariant.ofKeeps
    exact RelayCallRecovery.discardAll_keeps runtime.recovery.clearTimer

/-- In a run whose offers name only calls that the Worker still waits for and
whose results were not forgotten, no call is reported missing that the
instance had started. -/
theorem missing_neverStarted (events : List (RuntimeEvent Content))
    (meets : Meets step KeepsProof ({} : LocalRuntime Content) events) :
    ∀ report ∈ (run step ({} : LocalRuntime Content) events).history.reports,
    report.started = false := by
  have preserved : ∀ (runtime : LocalRuntime Content) event,
      runtime.KeepsProof event → runtime.Invariant →
      (runtime.step event).Invariant :=
    fun _ _ keeps invariant => step_invariant keeps invariant
  exact (run_induction_of_meets preserved start_invariant meets).reports

/-- A reconnect: one offered call has its result retained, one was lost on the
way to the daemon. -/
def reconnectWithLostCall : List (RuntimeEvent Unit) :=
  [.toolCall "call_retained" "read_file" true () {},
    .disconnected none,
    .complete "call_retained" () { sent := false },
    .resumeCalls .websocket 2 ["call_retained", "call_lost"] 0,
    .readyAck .websocket 2 true]

/-- The lost call is reported, and the report is right. -/
theorem missing_neverStarted_reconnect :
    (run step {} reconnectWithLostCall).history.reports =
    [⟨"call_lost", false⟩] ∧
    ∀ report ∈ (run step {} reconnectWithLostCall).history.reports,
    report.started = false :=
  ⟨by decide +kernel, missing_neverStarted reconnectWithLostCall (by
    simp only [reconnectWithLostCall, meets_cons, meets_nil]
    decide +kernel)⟩

/-- A call runs until the reconnect grace expires; its result is discarded, and
the next offer names it. -/
def graceExpiresDuringCall : List (RuntimeEvent Unit) :=
  [.toolCall "call_running" "run_process" true () {},
    .disconnected none,
    .graceExpired,
    .complete "call_running" () {},
    .resumeCalls .websocket 2 ["call_running"] 0,
    .readyAck .websocket 2 true]

/-- The started call is reported missing: grace expiry leaves a tombstone for
each retained result, and none for the calls it suppresses. -/
theorem graceExpired_reportsStartedCall :
    ¬ ∀ report ∈ (run step {} graceExpiresDuringCall).history.reports,
    report.started = false := by
  decide +kernel

end LocalRuntime

end MachineBridge.Recovery
