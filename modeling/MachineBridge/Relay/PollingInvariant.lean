import MachineBridge.Relay.HttpPolling

/-!
# Invariants of a polling connection

A property which the single parts of the methods preserve is preserved by
every event: by the callbacks, which call methods again, by the loop over the
messages of a response, and by a handler which goes on later.  When a poll
ends, its request has settled.
-/

namespace MachineBridge.Relay

open Foundation List

namespace PollingRelay

variable {α : Type} (environment : PollingEnvironment α)

structure Preserves (Property : PollingRelay α → Prop) : Prop where
  dropSession : ∀ relay, Property relay →
    Property (dropSession environment relay)
  call : ∀ reset relay method, (∀ other, Property other →
    Property (reset other)) → Property relay →
      Property (call environment reset relay method)
  callback : ∀ relay, Property relay →
    Property { relay with callbacks := relay.callbacks + 1 }
  recordFailure : ∀ relay retryAfterMs, Property relay →
    Property (recordFailure environment relay retryAfterMs)
  authenticate : ∀ relay token, Property relay →
    Property (authenticate environment relay token)
  ready : ∀ relay, relay.localReady = true → Property relay →
    Property { relay with ready := true }
  commit : ∀ relay inbound (message : InboundMessage),
    relay.inbound.commit message.seq = some inbound → Property relay →
      Property { relay with inbound }
  acknowledge : ∀ relay outbound sequence,
    relay.outbound.acknowledge sequence = some outbound → Property relay →
      Property { relay with outbound }
  lift : ∀ relay, Property relay → Property { relay with
    toRequestPacing := relay.toRequestPacing.lift
    lastSuccessAt := relay.now
    consecutiveFailures := 0
    standby := false }
  standby : ∀ relay, Property relay → Property { relay with standby := true }
variable {environment} {Property : PollingRelay α → Prop}
  (preserves : Preserves environment Property)

include preserves

variable {relay next : PollingRelay α} {controller : Nat}

theorem Preserves.runCallback {reset : PollingRelay α → PollingRelay α}
    (resets : ∀ other, Property other → Property (reset other))
    (holds : Property relay) :
    Property (PollingRelay.runCallback environment reset relay) := by
  rw [PollingRelay.runCallback]
  have counted := preserves.callback relay holds
  generalize (environment.callback relay.callbacks).1 = methods
  generalize { relay with callbacks := relay.callbacks + 1 } = other
    at counted
  induction methods generalizing other with
  | nil => exact counted
  | cons method methods induction =>
    apply induction
    exact preserves.call reset other method resets counted

theorem Preserves.resetSession (holds : Property relay) :
    Property (PollingRelay.resetSession environment relay) := by
  have dropped := preserves.dropSession relay holds
  rw [PollingRelay.resetSession]
  split
  · exact preserves.runCallback preserves.dropSession dropped
  · exact dropped

theorem Preserves.handleFailure (retryAfterMs : Option ℚ)
    (holds : Property relay) :
    Property (PollingRelay.handleFailure environment relay retryAfterMs) := by
  have recorded := preserves.recordFailure relay retryAfterMs holds
  rw [PollingRelay.handleFailure]
  split
  · exact recorded
  · split
    · exact recorded
    · exact preserves.resetSession recorded

theorem Preserves.handleSessionFailure (holds : Property relay) :
    Property (PollingRelay.handleSessionFailure environment relay) :=
  preserves.resetSession (preserves.recordFailure relay none holds)

theorem Preserves.becomeReady (holds : Property relay) :
    Property (PollingRelay.becomeReady environment relay) := by
  rw [PollingRelay.becomeReady]
  split
  case isTrue here =>
    have localReady := (Bool.and_eq_true_iff.mp here).1
    apply preserves.runCallback
    · intro other
      exact preserves.resetSession
    · exact preserves.ready relay localReady holds
  case isFalse => exact holds

theorem Preserves.deliver (messages : List InboundMessage)
    (holds : Property relay) :
    Property (PollingRelay.deliver environment messages relay).1 := by
  induction messages generalizing relay with
  | nil => exact holds
  | cons message messages induction =>
    have handled := preserves.runCallback
      (fun _ => preserves.resetSession) holds
    rw [PollingRelay.deliver]
    split
    · exact induction holds
    · exact preserves.handleSessionFailure holds
    · dsimp only
      split
      · exact handled
      · split
        · exact handled
        · split
          · exact handled
          · split
            · exact handled
            case h_2 inbound committed =>
              apply induction
              exact preserves.commit _ inbound message committed handled

theorem Preserves.succeed (body : ResponseBody) (holds : Property relay) :
    Property (PollingRelay.succeed environment relay body).1 := by
  have lifted := preserves.lift relay holds
  rw [PollingRelay.succeed]
  split
  · apply preserves.standby
    exact preserves.resetSession lifted
  · apply preserves.deliver
    exact preserves.authenticate _ _ lifted
  · apply preserves.deliver
    apply preserves.becomeReady
    exact preserves.authenticate _ _ lifted

theorem Preserves.handleResponse (response : HttpResponse)
    (holds : Property relay) :
    Property (PollingRelay.handleResponse environment relay response).1 := by
  have failed := preserves.handleSessionFailure holds
  rw [PollingRelay.handleResponse]
  split
  · exact preserves.handleFailure none holds
  · split
    · exact preserves.handleFailure none holds
    · split
      · exact failed
      · split
        · exact preserves.handleFailure _ holds
        · split
          · exact failed
          · split
            · exact failed
            case h_2 outbound accepted =>
              apply preserves.succeed
              exact preserves.acknowledge relay outbound _ accepted holds

omit preserves

section

variable (relay : PollingRelay α)

/-- The requests so far, those which have not settled, and the handlers. -/
def ledger : Nat × List Nat × List SuspendedHandler :=
  (relay.requests, relay.unsettled, relay.handlers)

/-- The request of a poll has settled. -/
def Ended (controller : Nat) : Prop :=
  controller < relay.ledger.1 ∧ controller ∉ relay.ledger.2.1

/-- Requests are numbered, and a handler belongs to a settled one. -/
def Orderly : Prop :=
  (∀ controller ∈ relay.ledger.2.1, controller < relay.ledger.1) ∧
    ∀ handler ∈ relay.ledger.2.2, Ended relay handler.controller

end

theorem Ended.of_ledger (same : next.ledger = relay.ledger)
    (ended : Ended relay controller) : Ended next controller := by
  rw [Ended, same]
  exact ended

theorem Orderly.of_ledger (same : next.ledger = relay.ledger)
    (orderly : Orderly relay) : Orderly next := by
  rw [Orderly, same]
  refine ⟨orderly.1, ?_⟩
  intro handler member
  exact (orderly.2 handler member).of_ledger same

@[simp] theorem ledger_schedulePoll (relay : PollingRelay α) (delay : ℚ) :
    (schedulePoll environment relay delay).ledger = relay.ledger := by
  rw [schedulePoll, RequestPacing.schedulePoll]
  split
  · rfl
  · dsimp only
    split
    · rfl
    · rfl

theorem giveUp_requests (pacing : RequestPacing α) :
    (pacing.giveUp.requests, pacing.giveUp.unsettled) =
    (pacing.requests, pacing.unsettled) := by
  rw [RequestPacing.giveUp]
  split
  · rfl
  · rfl

theorem ledger_eq (requests : (next.requests, next.unsettled) =
    (relay.requests, relay.unsettled)) (handlers : next.handlers =
    relay.handlers) : next.ledger = relay.ledger := by
  obtain ⟨first, second⟩ := Prod.mk.inj requests
  rw [ledger, ledger, first, second, handlers]

section

variable (relay : PollingRelay α)

@[simp] theorem ledger_release (controller : Nat) : ledger { relay with
      toRequestPacing := relay.toRequestPacing.release controller } =
      relay.ledger := by
  rw [RequestPacing.release]
  split
  · rfl
  · rfl

theorem ledger_enqueue (value : α) :
    (enqueue environment relay value).ledger = relay.ledger := by
  rw [enqueue]
  split
  · rfl
  · rw [ledger_schedulePoll]
    rfl

end

theorem ledger_call {start : PollingRelay α}
    {reset : PollingRelay α → PollingRelay α}
    (resets : ∀ other : PollingRelay α, other.ledger = start.ledger →
      (reset other).ledger = start.ledger) (method : RelayCall α)
    (same : relay.ledger = start.ledger) :
    (call environment reset relay method).ledger = start.ledger := by
  cases method with
  | start takeover =>
    rw [call, PollingRelay.start]
    split
    · split
      · rw [ledger_schedulePoll, ← same]
        exact ledger_eq (giveUp_requests _) rfl
      · rw [ledger_schedulePoll]
        exact same
    · rw [ledger_schedulePoll]
      exact same
  | stop =>
    rw [call, stop]
    split
    · exact same
    · rw [← same]
      exact ledger_eq (giveUp_requests _) rfl
  | send value =>
    rw [call, send]
    split
    · exact same
    · rw [ledger_enqueue]
      exact same
  | sendForSession value expectedSessionId =>
    rw [call, sendForSession]
    split
    · exact same
    · split
      · exact same
      · split
        · exact same
        · rw [ledger_enqueue]
          exact same
  | confirmReady matching =>
    rw [call, confirmReady]
    split
    · exact same
    · split
      · exact resets relay same
      · split
        · exact same
        · exact same
  | interrupt =>
    rw [call, interrupt]
    split
    · exact same
    · rw [ledger_schedulePoll]
      apply resets
      cases relay.inFlight with
      | none => exact same
      | some controller => exact same
  | pass reading => exact same

theorem ledger_preserved (start : PollingRelay α) :
    Preserves environment fun relay => relay.ledger = start.ledger where
  dropSession := fun _ same => same
  call := fun _ _ method resets same => ledger_call resets method same
  callback := fun _ same => same
  recordFailure := fun _ _ same => same
  authenticate := by
    intro relay token same
    rw [PollingRelay.authenticate]
    split
    · exact same
    · exact same
  ready := fun _ _ same => same
  commit := fun _ _ _ _ same => same
  acknowledge := fun _ _ _ _ same => same
  lift := fun _ same => same
  standby := fun _ same => same

variable (environment) in
structure PreservesPolls (Property : PollingRelay α → Prop) : Prop
    extends Preserves environment Property where
  handlers : ∀ relay handlers, Property relay →
    Property { relay with handlers }
  settle : ∀ relay controller, Property relay → Property { relay with
    toRequestPacing := relay.toRequestPacing.settle controller }
  poll : ∀ relay data, Property relay → Property (poll environment relay data)
  timer : ∀ relay data, Property relay →
    Property (PollingRelay.poll environment { relay with
      toRequestPacing := relay.toRequestPacing.clearPollTimer } data)
  ignore : ∀ relay controller, Ended relay controller →
    relay.inFlight ≠ some controller ∨ relay.closed = true →
      Property relay → Property { relay with
        toRequestPacing := relay.toRequestPacing.release controller }
  finishPoll : ∀ relay controller, Ended relay controller →
    Property relay → Property (finishPoll environment relay controller)

theorem ledger_finishPoll (relay : PollingRelay α) (controller : Nat) :
    (finishPoll environment relay controller).ledger = relay.ledger := by
  rw [finishPoll]
  split
  · exact ledger_release relay controller
  · rw [ledger_schedulePoll]
    exact ledger_release relay controller

variable (environment) in
theorem ledger_handleFailure (relay : PollingRelay α)
    (retryAfterMs : Option ℚ) :
    (handleFailure environment relay retryAfterMs).ledger = relay.ledger :=
  (ledger_preserved relay).handleFailure retryAfterMs rfl

variable (environment) in
theorem ledger_handleResponse (relay : PollingRelay α)
    (response : HttpResponse) :
    (handleResponse environment relay response).1.ledger = relay.ledger :=
  (ledger_preserved relay).handleResponse response rfl

variable (environment) in
theorem ledger_deliver (relay : PollingRelay α)
    (messages : List InboundMessage) :
    (deliver environment messages relay).1.ledger = relay.ledger :=
  (ledger_preserved relay).deliver messages rfl

theorem Orderly.poll (orderly : Orderly relay) (data : PollData α) :
    Orderly (PollingRelay.poll environment relay data) := by
  rw [PollingRelay.poll]
  split
  · exact orderly
  · dsimp only
    split
    · apply orderly.of_ledger
      rw [ledger_schedulePoll]
      rfl
    · constructor
      · intro controller member
        rcases mem_append.mp member with earlier | here
        · exact Nat.lt_succ_of_lt (orderly.1 controller earlier)
        · rw [mem_singleton.mp here]
          exact Nat.lt_succ_self _
      · intro handler member
        obtain ⟨before, settled⟩ := orderly.2 handler member
        refine ⟨Nat.lt_succ_of_lt before, ?_⟩
        intro unsettled
        rcases mem_append.mp unsettled with earlier | here
        · exact settled earlier
        · rw [mem_singleton.mp here] at before
          exact absurd before (Nat.lt_irrefl _)

theorem Orderly.settle (orderly : Orderly relay)
    (unsettled : controller ∈ relay.unsettled) :
    Orderly { relay with
      toRequestPacing := relay.toRequestPacing.settle controller } ∧
    Ended { relay with
      toRequestPacing := relay.toRequestPacing.settle controller }
      controller := by
  refine ⟨⟨?_, ?_⟩, ?_, ?_⟩
  · intro other member
    exact orderly.1 other (List.mem_filter.mp member).1
  · intro handler member
    obtain ⟨before, settled⟩ := orderly.2 handler member
    refine ⟨before, ?_⟩
    intro other
    exact settled (List.mem_filter.mp other).1
  · exact orderly.1 controller unsettled
  · intro member
    have apart := (List.mem_filter.mp member).2
    simp at apart

variable (polls : PreservesPolls environment Property)

include polls

theorem PreservesPolls.caught (retryAfterMs : Option ℚ)
    (ended : Ended relay controller) (orderly : Orderly relay)
    (holds : Property relay) :
    Orderly (catchFailure environment relay controller retryAfterMs) ∧
    Property (catchFailure environment relay controller retryAfterMs) := by
  rw [catchFailure]
  split
  case isTrue here =>
    have stale : relay.inFlight ≠ some controller ∨ relay.closed = true := by
      simpa using here
    constructor
    · exact orderly.of_ledger (ledger_release relay controller)
    · exact polls.ignore relay controller ended stale holds
  case isFalse =>
    have same := ledger_handleFailure environment relay retryAfterMs
    constructor
    · apply orderly.of_ledger
      rw [ledger_finishPoll, same]
    · apply polls.finishPoll _ _ (ended.of_ledger same)
      exact polls.handleFailure retryAfterMs holds

theorem PreservesPolls.continued {result : PollingRelay α × HandlerPause}
    (ended : Ended result.1 controller) (orderly : Orderly result.1)
    (holds : Property result.1) :
    Orderly (continuePoll environment controller result) ∧
    Property (continuePoll environment controller result) := by
  obtain ⟨relay, pause⟩ := result
  cases pause with
  | done =>
    constructor
    · exact orderly.of_ledger (ledger_finishPoll relay controller)
    · exact polls.finishPoll relay controller ended holds
  | threw => exact polls.caught none ended orderly holds
  | awaiting sessionId message remaining =>
    constructor
    · refine ⟨orderly.1, ?_⟩
      intro handler member
      rcases mem_append.mp member with earlier | here
      · exact orderly.2 handler earlier
      · rw [mem_singleton.mp here]
        exact ended
    · exact polls.handlers relay _ holds

theorem PreservesPolls.responded (response : HttpResponse)
    (ended : Ended relay controller) (orderly : Orderly relay)
    (holds : Property relay) :
    Orderly (respond environment relay controller response) ∧
    Property (respond environment relay controller response) := by
  rw [respond]
  split
  case isTrue here =>
    have stale : relay.inFlight ≠ some controller ∨ relay.closed = true := by
      simpa using here
    constructor
    · exact orderly.of_ledger (ledger_release relay controller)
    · exact polls.ignore relay controller ended stale holds
  case isFalse =>
    have same := ledger_handleResponse environment relay response
    exact polls.continued (ended.of_ledger same) (orderly.of_ledger same)
      (polls.handleResponse response holds)

theorem PreservesPolls.resumed {handler : SuspendedHandler} (rejected : Bool)
    (ended : Ended relay handler.controller) (orderly : Orderly relay)
    (holds : Property relay) :
    Orderly (resume environment relay handler rejected) ∧
    Property (resume environment relay handler rejected) := by
  have finished :
      Orderly (PollingRelay.finishPoll environment relay handler.controller) ∧
      Property (PollingRelay.finishPoll environment relay handler.controller)
      :=
    ⟨orderly.of_ledger (ledger_finishPoll relay _),
      polls.finishPoll relay _ ended holds⟩
  rw [resume]
  split
  · exact finished
  · split
    · exact finished
    · split
      · exact polls.caught none ended orderly holds
      case h_2 inbound committed =>
        have same := ledger_deliver environment { relay with inbound }
          handler.remaining
        apply polls.continued (ended.of_ledger same) (orderly.of_ledger same)
        apply polls.deliver
        exact polls.commit relay inbound handler.message committed holds

theorem PreservesPolls.stepped (event : PollingEvent α)
    (orderly : Orderly relay) (holds : Property relay) :
    Orderly (step environment relay event) ∧
    Property (step environment relay event) := by
  cases event with
  | call method =>
    have resets : ∀ other, Property other →
        Property (PollingRelay.resetSession environment other) :=
      fun _ => polls.resetSession
    have ledgers : ∀ other : PollingRelay α, other.ledger = relay.ledger →
        (PollingRelay.resetSession environment other).ledger = relay.ledger :=
      fun _ => (ledger_preserved relay).resetSession
    constructor
    · exact orderly.of_ledger (ledger_call ledgers method rfl)
    · exact polls.call _ relay method resets holds
  | poll data => exact ⟨orderly.poll data, polls.poll relay data holds⟩
  | timer data =>
    rw [step]
    split
    · constructor
      · apply Orderly.poll
        exact orderly.of_ledger rfl
      · exact polls.timer relay data holds
    · exact ⟨orderly, holds⟩
  | failed controller retryAfterMs =>
    rw [step]
    split
    case isTrue unsettled =>
      obtain ⟨after, ended⟩ := orderly.settle unsettled
      exact polls.caught retryAfterMs ended after
        (polls.settle relay controller holds)
    case isFalse => exact ⟨orderly, holds⟩
  | responded controller response =>
    rw [step]
    split
    case isTrue unsettled =>
      obtain ⟨after, ended⟩ := orderly.settle unsettled
      exact polls.responded response ended after
        (polls.settle relay controller holds)
    case isFalse => exact ⟨orderly, holds⟩
  | resumed index rejected =>
    rw [step]
    split
    · exact ⟨orderly, holds⟩
    case h_2 handler found =>
      have ended := orderly.2 handler (mem_of_getElem? found)
      apply polls.resumed rejected
      · exact ended.of_ledger rfl
      · refine ⟨orderly.1, ?_⟩
        intro other member
        exact orderly.2 other (mem_of_mem_eraseIdx member)
      · exact polls.handlers relay _ holds

theorem PreservesPolls.run (initial : Property {})
    (events : List (PollingEvent α)) :
    Property (runPolling environment events) := by
  have preserved : ∀ relay event, Orderly relay ∧ Property relay →
      Orderly (step environment relay event) ∧
      Property (step environment relay event) := by
    intro relay event kept
    exact polls.stepped event kept.1 kept.2
  have start : Orderly ({} : PollingRelay α) ∧ Property {} :=
    ⟨⟨nofun, nofun⟩, initial⟩
  exact (run_induction preserved start events).2

end PollingRelay

end MachineBridge.Relay
