import MachineBridge.Relay.AdmittedQueue
import MachineBridge.Relay.PollingInvariant

/-!
# The queue of a polling connection

A connection queues messages only in a session which the Worker knows, so that
a request with messages has no descriptor, and every request was built from a
queue of admitted messages.
-/

namespace MachineBridge.Relay

open Foundation List

variable {α : Type}

/-- A request was built as `poll` builds it, from a queue of admitted
messages. -/
structure RequestStart.Built (wire : WireFormat α)
    (start : RequestStart α) : Prop where
  queue : ∃ queue : Queue α, Admitted wire.messageBytes queue ∧
    start.queued = queue.messages
  messages_eq : start.envelope.messages =
    takeWithin wire.entryBytes 1
      ((httpFallbackMaximumEnvelopeBytes : Int) -
        wire.envelopeBytes { start.envelope with messages := [] } + 2)
      2 0 start.queued
  descriptor : start.queued ≠ [] → start.envelope.descriptor = none
  sessionId : start.envelope.sessionId.isSome = true
  acknowledged : start.envelope.ackWorkerSeq ≤ maxSafeInteger
  nodup : start.envelope.ownedCallIds.Nodup
  few : start.envelope.ownedCallIds.length ≤ 32

/-- What decides the contents of requests. -/
structure Stock (α : Type) where
  (closed ready localReady authenticated : Bool)
  transportSessionId : Option HttpSessionId
  activationToken : Option ActivationToken
  outbound : RelayOutboundSequence α
  inbound : RelayInboundSequence
  starts : List (RequestStart α)

/-- An authenticated session has its activation token, and so has one with
messages in its queue. -/
structure Stock.Sound (wire : WireFormat α) (stock : Stock α) : Prop where
  admitted : Admitted wire.messageBytes stock.outbound.toQueue
  token : stock.outbound.messages ≠ [] → stock.activationToken.isSome = true
  session : stock.closed = false → stock.transportSessionId.isSome = true
  authenticated : stock.authenticated = true →
    stock.activationToken.isSome = true
  localReady : stock.localReady = true → stock.authenticated = true
  ready : stock.ready = true → stock.authenticated = true
  inbound : stock.inbound.acknowledged ≤ maxSafeInteger
  built : ∀ start ∈ stock.starts, start.Built wire

namespace PollingRelay

variable {environment : PollingEnvironment α}

def stock (relay : PollingRelay α) : Stock α where
  closed := relay.closed
  ready := relay.ready
  localReady := relay.localReady
  authenticated := relay.authenticated
  transportSessionId := relay.transportSessionId
  activationToken := relay.activationToken
  outbound := relay.outbound
  inbound := relay.inbound
  starts := relay.starts

/-- The requests of a connection were built from admitted messages. -/
def Stocked (wire : WireFormat α) (relay : PollingRelay α) : Prop :=
  relay.stock.Sound wire

section

variable (relay : PollingRelay α)

@[simp] theorem stock_schedulePoll (delay : ℚ) :
    (schedulePoll environment relay delay).stock = relay.stock := by
  rw [schedulePoll, RequestPacing.schedulePoll]
  split
  · rfl
  · dsimp only
    split
    · rfl
    · rfl

theorem stock_giveUp (pacing : RequestPacing α) :
    (pacing.giveUp.closed, pacing.giveUp.starts) =
    (pacing.closed, pacing.starts) := by
  rw [RequestPacing.giveUp]
  split
  · rfl
  · rfl

theorem stock_release (controller : Nat) : stock { relay with
      toRequestPacing := relay.toRequestPacing.release controller } =
      relay.stock := by
  rw [RequestPacing.release]
  split
  · rfl
  · rfl

end

variable {relay : PollingRelay α}

theorem Stocked.of_stock {wire : WireFormat α} {next : PollingRelay α}
    (stocked : Stocked wire relay) (same : next.stock = relay.stock) :
    Stocked wire next := by
  rw [Stocked, same]
  exact stocked

theorem Stocked.dropSession (stocked : Stocked environment.wire relay) :
    Stocked environment.wire (PollingRelay.dropSession environment relay) where
  admitted := admitted_nil _
  token := fun some => absurd rfl some
  session := fun _ => rfl
  authenticated := nofun
  localReady := nofun
  ready := nofun
  inbound := Nat.zero_le _
  built := stocked.built

theorem Stocked.enqueue (stocked : Stocked environment.wire relay)
    (authenticated : relay.authenticated = true) {value : α}
    {outbound : RelayOutboundSequence α}
    (accepted : relay.outbound.enqueue environment.wire.messageBytes value =
      some outbound) : Stocked environment.wire { relay with outbound } := by
  have pushed := RelayOutboundSequence.enqueue_toQueue _ accepted
  have room :
      environment.wire.messageBytes value ≤ httpFallbackMaximumMessageBytes ∧
      relay.outbound.messages.length < httpFallbackMaximumQueuedMessages := by
    rw [RelayOutboundSequence.enqueue] at accepted
    split at accepted
    · cases accepted
    case isFalse room =>
      simp only [Bool.or_eq_true, decide_eq_true_eq, not_or, Nat.not_lt,
        Nat.not_le] at room
      exact room.1
  refine { stocked with admitted := ?_, token := ?_ }
  · show Admitted _ outbound.toQueue
    rw [pushed]
    exact stocked.admitted.push room.1 room.2
  · intro _
    exact stocked.authenticated authenticated

theorem Stocked.send (stocked : Stocked environment.wire relay)
    (authenticated : relay.authenticated = true) (value : α) : Stocked
    environment.wire (PollingRelay.enqueue environment relay value) := by
  rw [PollingRelay.enqueue]
  split
  · exact stocked
  case h_2 outbound accepted =>
    have queued := stocked.enqueue authenticated accepted
    exact queued.of_stock (stock_schedulePoll _ 0)

theorem lowered {goal : Prop} (raised : false = true) : goal := by
  cases raised

theorem Stocked.stop (stocked : Stocked environment.wire relay) :
    Stocked environment.wire (PollingRelay.stop relay) := by
  rw [PollingRelay.stop]
  split
  · exact stocked
  · obtain ⟨closed, starts⟩ := Prod.mk.inj (stock_giveUp
      ({ relay.toRequestPacing with closed := true }).clearPollTimer)
    refine ⟨admitted_nil _, fun some => absurd rfl some, ?_, lowered, lowered,
      lowered, Nat.zero_le _, ?_⟩
    · intro opened
      have same := closed.symm.trans opened
      cases same
    · intro start member
      have earlier : start ∈ relay.starts := by
        have found : start ∈ ({ relay.toRequestPacing with
          closed := true }).clearPollTimer.giveUp.starts := member
        rw [starts] at found
        exact found
      exact stocked.built start earlier

theorem Stocked.start (stocked : Stocked environment.wire relay)
    (takeover : Option ConnectionId) : Stocked environment.wire
    (PollingRelay.start environment relay takeover) := by
  rw [PollingRelay.start]
  split
  · split
    · have kept := stock_giveUp relay.toRequestPacing.clearPollTimer
      obtain ⟨closed, starts⟩ := Prod.mk.inj kept
      apply stocked.of_stock
      rw [stock_schedulePoll]
      simp only [stock, closed, starts]
      rfl
    · apply stocked.of_stock
      rw [stock_schedulePoll]
      rfl
  · refine Stocked.of_stock ?_ (stock_schedulePoll _ 0)
    exact ⟨admitted_nil _, fun some => absurd rfl some, fun _ => rfl, lowered,
      lowered, lowered, Nat.zero_le _, stocked.built⟩

theorem Stocked.call {reset : PollingRelay α → PollingRelay α}
    (resets : ∀ other, Stocked environment.wire other →
      Stocked environment.wire (reset other))
    (stocked : Stocked environment.wire relay) (method : RelayCall α) :
    Stocked environment.wire (call environment reset relay method) := by
  cases method with
  | start takeover => exact stocked.start takeover
  | stop => exact stocked.stop
  | send value =>
    rw [PollingRelay.call, PollingRelay.send]
    split
    · exact stocked
    case isFalse here =>
      have ready : relay.ready = true := by
        simp only [Bool.or_eq_true, Bool.not_eq_true', not_or,
          Bool.not_eq_false] at here
        exact here.1
      exact stocked.send (stocked.ready ready) value
  | sendForSession value expectedSessionId =>
    rw [PollingRelay.call, sendForSession]
    split
    · exact stocked
    · split
      · exact stocked
      case isFalse here =>
        split
        · exact stocked
        · have authenticated : relay.authenticated = true := by
            simp only [Bool.or_eq_true, Bool.not_eq_true', not_or,
              Bool.not_eq_false] at here
            exact here.2
          exact stocked.send authenticated value
  | confirmReady matching =>
    rw [PollingRelay.call, confirmReady]
    split
    · exact stocked
    case isFalse here =>
      have authenticated : relay.authenticated = true := by
        simp only [Bool.or_eq_true, Bool.not_eq_true', not_or,
          Bool.not_eq_false] at here
        exact here.1.2
      split
      · exact resets relay stocked
      · split
        · exact stocked
        case h_2 outbound accepted =>
          have queued := stocked.enqueue authenticated accepted
          exact { queued with localReady := fun _ => authenticated }
  | interrupt =>
    rw [PollingRelay.call, interrupt]
    split
    · exact stocked
    · refine Stocked.of_stock ?_ (stock_schedulePoll _ 0)
      apply resets
      apply stocked.of_stock
      cases relay.inFlight with
      | none => rfl
      | some controller => rfl
  | pass reading => exact stocked.of_stock rfl

theorem Stocked.poll (stocked : Stocked environment.wire relay)
    (data : PollData α) :
    Stocked environment.wire (PollingRelay.poll environment relay data) := by
  rw [PollingRelay.poll]
  split
  · exact stocked
  case isFalse free =>
    have opened : relay.closed = false := by
      simp only [Bool.or_eq_true, not_or, Bool.not_eq_true] at free
      exact free.1
    dsimp only
    split
    · exact stocked.of_stock (stock_schedulePoll _ _)
    · refine { stocked with built := ?_ }
      intro start member
      rcases mem_cons.mp member with here | earlier
      · rw [here]
        refine ⟨⟨relay.outbound.toQueue, stocked.admitted, rfl⟩, rfl, ?_,
          stocked.session opened, stocked.inbound, ?_, ?_⟩
        · intro some
          exact if_pos (stocked.token some)
        · exact data.ownedCallIds.nodup.sublist (take_sublist 32 _)
        · exact length_take_le 32 _
      · exact stocked.built start earlier

theorem stocked_preserved :
    PreservesPolls environment (Stocked environment.wire) where
  dropSession := fun _ stocked => stocked.dropSession
  call := fun _ _ method resets stocked => stocked.call resets method
  callback := fun _ stocked => stocked.of_stock rfl
  recordFailure := fun _ _ stocked => stocked.of_stock rfl
  authenticate := by
    intro relay token stocked
    rw [authenticate]
    split
    · exact stocked
    · exact ⟨stocked.admitted, fun _ => rfl, stocked.session, fun _ => rfl,
        fun _ => rfl, fun _ => rfl, stocked.inbound, stocked.built⟩
  ready := by
    intro relay localReady stocked
    exact ⟨stocked.admitted, stocked.token, stocked.session,
      stocked.authenticated, stocked.localReady, fun _ => stocked.localReady
      localReady, stocked.inbound, stocked.built⟩
  commit := by
    intro relay inbound message committed stocked
    obtain ⟨-, same⟩ := RelayInboundSequence.commit_eq_some committed
    refine { stocked with inbound := ?_ }
    rw [same]
    exact message.safe
  acknowledge := by
    intro relay outbound sequence accepted stocked
    have queue := RelayOutboundSequence.acknowledge_toQueue accepted
    refine { stocked with
      admitted := stocked.admitted.acknowledge queue, token := ?_ }
    intro some
    apply stocked.token
    intro none
    have empty : relay.outbound.messages = [] := none
    have part := acknowledge_subset queue
    rw [empty, sublist_nil] at part
    exact some part
  lift := fun _ stocked => stocked.of_stock rfl
  standby := fun _ stocked => stocked.of_stock rfl
  handlers := fun _ _ stocked => stocked.of_stock rfl
  settle := fun _ _ stocked => stocked.of_stock rfl
  poll := fun _ data stocked => stocked.poll data
  timer := by
    intro relay data stocked
    apply Stocked.poll
    exact stocked.of_stock rfl
  ignore := fun relay controller _ _ stocked =>
    stocked.of_stock (stock_release relay controller)
  finishPoll := by
    intro relay controller _ stocked
    apply stocked.of_stock
    rw [finishPoll]
    split
    · exact stock_release relay controller
    · rw [stock_schedulePoll]
      exact stock_release relay controller

theorem runPolling_built (environment : PollingEnvironment α)
    (events : List (PollingEvent α)) :
    ∀ start ∈ (runPolling environment events).starts,
    start.Built environment.wire := by
  have initial : Stocked environment.wire ({} : PollingRelay α) :=
    ⟨admitted_nil _, fun some => absurd rfl some, nofun, nofun, nofun, nofun,
      Nat.zero_le _, List.forall_mem_nil _⟩
  exact (stocked_preserved.run initial events).built

end PollingRelay

end MachineBridge.Relay
