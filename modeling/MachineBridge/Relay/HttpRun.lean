import MachineBridge.Relay.HttpSession
import Mathlib.Data.List.Nodup

/-!
# Runs of an HTTPS relay session

Every event of a session preserves the invariant.  The events of the daemon
are taken apart into the changes the source makes: acknowledging, adopting a
token, handing a message over, completing it and committing it.
-/

namespace MachineBridge.Relay

open Foundation List

variable {Content : Type} {sizes : WireSizes Content}

namespace HttpRelaySession

variable {pending : Option Nat} {session : HttpRelaySession Content}

theorem Invariant.ended (invariant : Invariant sizes pending session)
    (closed : session.daemon.ended = true) (other : Option Nat) :
    Invariant sizes other session :=
  ⟨invariant.worker, invariant.requests, invariant.responses,
    invariant.dropped, fun live => absurd (closed.symm.trans live) (by decide),
    invariant.log⟩

section

variable (invariant : Invariant sizes pending session)
include invariant

theorem Invariant.rehandle {daemon : DaemonHttpRelayConnection Content}
    (same : daemon = { session.daemon with
      inFlight := daemon.inFlight, handlers := daemon.handlers })
    (waiting : ∀ request, daemon.inFlight = .waiting request →
      session.daemon.inFlight = .waiting request)
    (handlers : session.daemon.ended = false → ∀ handler ∈ daemon.handlers,
      handler ∈ session.daemon.handlers ∨
      (∀ item, handler.awaiting = some item ∨ item ∈ handler.remaining →
        Genuine session.daemon.history.adopted session.worker item) ∧
      ∀ item, handler.awaiting = some item →
        item.1 ≤ session.daemon.inbound.acknowledged + 1) :
    Invariant sizes pending { session with daemon } := by
  have live : session.daemon.ended = false →
      LiveOk sizes pending session.requests session.worker daemon := by
    intro live
    have before := invariant.live live
    rw [same]
    exact { before with
      waiting := fun request waits => before.waiting request
        (waiting request waits)
      handlers := fun handler member item part => by
        rcases handlers live handler member with old | new
        · exact before.handlers handler old item part
        · exact new.1 item part
      awaiting_le := fun handler member item part => by
        rcases handlers live handler member with old | new
        · exact before.awaiting_le handler old item part
        · exact new.2 item part }
  have views : view daemon = view session.daemon := by
    rw [same]
    rfl
  have histories : daemon.history = session.daemon.history := by rw [same]
  refine ⟨views ▸ invariant.worker, views ▸ invariant.requests,
    histories ▸ invariant.responses, histories ▸ invariant.dropped,
    fun alive => live ?_, histories ▸ invariant.log⟩
  rw [same] at alive
  exact alive

theorem finishHandler_invariant (handler : Nat) : Invariant sizes pending
      { session with daemon := session.daemon.finishHandler handler } := by
  refine invariant.rehandle rfl ?_ ?_
  · intro request waits
    simp only [DaemonHttpRelayConnection.finishHandler] at waits
    split at waits
    · cases waits
    · exact waits
  · intro _ other member
    rcases mem_or_eq_of_mem_set member with old | new
    · exact .inl old
    · subst new
      exact .inr ⟨fun item part => by simp at part, nofun⟩

theorem handleFailure_invariant (expired : Bool) : Invariant sizes pending
      { session with daemon := session.daemon.handleFailure expired } := by
  unfold DaemonHttpRelayConnection.handleFailure
  split
  · exact acts_invariant invariant
      (DaemonHttpRelayConnection.resetSession_acts _)
  · exact invariant.rehandle rfl nofun (fun _ _ member => .inl member)

theorem poll_invariant
    (live : session.daemon.ended = false) (availableBytes : Int) :
    Invariant sizes pending { session with
      requests := session.requests ++
        [session.daemon.request sizes availableBytes]
      daemon := { session.daemon with
        inFlight := .waiting session.requests.length } } := by
  have before := invariant.live live
  refine ⟨invariant.worker, ?_, ?_, invariant.dropped, fun _ => ?_,
    invariant.log⟩
  · intro exchange member
    rcases mem_append.mp member with old | new
    · exact invariant.requests exchange old
    · rw [mem_singleton.mp new]
      refine ⟨fun token sent => ?_, Nat.le_of_eq before.inbound_eq, ?_⟩
      · exact before.token_eq.symm.trans sent
      · intro item member safe
        obtain ⟨entry, found, same⟩ :=
          exists_mem_of_mem_takeWithin sizes.daemonEntry member
        subst same
        exact before.carries.mem found safe
  · intro request response member
    obtain ⟨exchange, found, ok⟩ := invariant.responses request response member
    exact ⟨exchange, getElem?_of_prefix (prefix_append _ _) found, ok⟩
  · exact { before with
      waiting := by
        intro request waits
        cases waits
        exact ⟨_, getElem?_concat_length, before.token_eq⟩ }

end

section

variable (invariant : Invariant sizes pending session)
include invariant

theorem acknowledge_invariant
    (live : session.daemon.ended = false) {sequence : Nat}
    (handed : sequence ≤ session.worker.log.handed.length)
    {daemon : DaemonHttpRelayConnection Content}
    (accepted : session.daemon.acknowledge sequence = some daemon) :
    Invariant sizes pending { session with daemon } := by
  have before := invariant.live live
  obtain ⟨outbound, found, same⟩ := Option.map_eq_some_iff.mp accepted
  subst same
  have queue := RelayOutboundSequence.acknowledge_toQueue found
  obtain ⟨carries, acknowledged, -⟩ := before.carries.acknowledge queue
  have dropped := before.carries.removed queue
  rw [← before.dropped_eq] at dropped
  have bound : outbound.acknowledged ≤ session.worker.log.handed.length := by
    have earlier := invariant.dropped.length_le
    rw [before.dropped_eq, length_take,
      Nat.min_eq_left before.carries.acknowledged_le] at earlier
    omega
  refine ⟨invariant.worker, invariant.requests, invariant.responses, ?_,
    fun _ => ?_, ⟨invariant.log.genuine, invariant.log.again,
      invariant.log.toolCalls_nodup⟩⟩
  · dsimp only
    have handedPrefix : session.worker.log.handed <+:
        session.daemon.history.enqueued := invariant.worker.handed_isPrefix
    rw [dropped, prefix_iff_eq_take.mp handedPrefix]
    exact take_prefix_take_left bound
  · exact { before with carries, dropped_eq := dropped }

theorem adopt_invariant (live : session.daemon.ended = false)
    (unadopted : session.daemon.history.adopted = none) {token : Nat}
    (known : token < session.worker.nextToken) :
    Invariant sizes pending { session with
      daemon := { session.daemon with
        authenticated := true
        activationToken := some token
        inFlight := .idle
        history := { session.daemon.history with
          adopted := some token } } } := by
  have before := invariant.live live
  have nothing : ∀ item,
      ¬ Genuine session.daemon.history.adopted session.worker item := by
    rintro item ⟨-, -, other, adopted, -⟩
    rw [unadopted] at adopted
    cases adopted
  have unhanded : session.worker.log.handed = [] :=
    invariant.worker.handed_nil unadopted
  have uncommitted : session.daemon.history.committed = [] :=
    invariant.worker.committed_nil unadopted
  have unreleased : ∀ other,
      (session.worker.histories other).released = [] := fun other =>
    invariant.worker.released_nil other (by simp [view, unadopted])
  refine {
    worker := ?_
    requests := ?_
    responses := ?_
    dropped := invariant.dropped
    live := fun _ => ?_
    log := ?_ }
  · exact { invariant.worker with
      adopted_lt := fun other same => by
        cases same
        exact known
      handed_nil := by rintro ⟨⟩
      committed_isPrefix := fun _ _ => by simp [view, uncommitted]
      committed_nil := by rintro ⟨⟩
      released_isPrefix := fun other _ => by simp [unreleased other]
      released_nil := fun other _ => unreleased other
      channel_sequence := fun channel held => by
        rw [invariant.worker.channel_sequence channel held]
        simp [expectedSequence, unhanded] }
  · intro exchange member
    have ok := invariant.requests exchange member
    refine ⟨fun other sent => ?_, ok.acknowledged, ok.messages⟩
    have adopted := ok.adopted other sent
    simp only [view, unadopted] at adopted
    cases adopted
  · intro request response member
    obtain ⟨exchange, found, ok⟩ := invariant.responses request response member
    refine ⟨exchange, found, ?_⟩
    cases response with
    | envelope phase activationToken ackDaemonSeq messages =>
      rcases ok with standby | ⟨other, same, bound, sent, position, stored⟩
      · exact .inl standby
      · refine .inr ⟨other, same, bound, sent, ?_, stored⟩
        simp only [expectedSequence, unadopted, reduceCtorEq, if_false]
          at position
        omega
    | conflict => trivial
    | failure => trivial
  · exact {
      token_eq := rfl
      authenticated_eq := rfl
      __ := before
      waiting := by rintro _ ⟨⟩
      handlers := fun handler member item part =>
        absurd (before.handlers handler member item part) (nothing item)
      toolCalls_le := before.toolCalls_le }
  · exact ⟨fun seq message member =>
      absurd (invariant.log.genuine seq message member) (nothing _),
      invariant.log.again, invariant.log.toolCalls_nodup⟩

theorem authenticate_invariant
    (live : session.daemon.ended = false) {token : Nat}
    (known : token < session.worker.nextToken)
    (matching : ∀ adopted, session.daemon.history.adopted = some adopted →
      token = adopted) :
    Invariant sizes pending { session with
      daemon := { session.daemon.authenticate (some token) with
        inFlight := .idle } } ∧
      (session.daemon.authenticate (some token)).history.adopted =
        some token := by
  have authenticated := (invariant.live live).authenticated_eq
  unfold DaemonHttpRelayConnection.authenticate
  cases adoptedEq : session.daemon.history.adopted with
  | none =>
    rw [if_neg (by simp [authenticated, adoptedEq])]
    exact ⟨adopt_invariant invariant live adoptedEq known, rfl⟩
  | some adopted =>
    rw [if_pos (by simp [authenticated, adoptedEq])]
    refine ⟨invariant.rehandle rfl nofun (fun _ _ member => .inl member), ?_⟩
    rw [adoptedEq, matching adopted adoptedEq]

theorem receive_invariant (live : session.daemon.ended = false) {request : Nat}
    {body : RelayResponse Content}
    (member : (request, body) ∈ session.responses)
    (waits : session.daemon.inFlight = .waiting request)
    (effects : List (LocalAction Content)) (expired : Bool) :
    Invariant sizes pending { session with
      daemon := session.daemon.handleResponse sizes effects expired body } := by
  obtain ⟨exchange, found, ok⟩ := invariant.responses request body member
  obtain ⟨waiting, same, sent⟩ := (invariant.live live).waiting request waits
  have sameExchange : exchange = waiting :=
    Option.some.inj (found.symm.trans same)
  rw [← sameExchange] at sent
  have reset : ∀ daemon, Invariant sizes pending { session with daemon } →
      Invariant sizes pending
        { session with daemon := daemon.resetSession } := by
    intro daemon kept
    have cleared := acts_invariant kept
      (DaemonHttpRelayConnection.resetSession_acts daemon)
    exact cleared
  cases body with
  | failure => exact handleFailure_invariant invariant expired
  | conflict => exact reset _ invariant
  | envelope phase activationToken ackDaemonSeq messages =>
    simp only [DaemonHttpRelayConnection.handleResponse]
    split
    · exact reset _ invariant
    case isFalse valid =>
      simp only [DaemonHttpRelayConnection.validResponse, Bool.not_eq_true',
        Bool.not_eq_false, Bool.and_eq_true, all_eq_true,
        decide_eq_true_eq, isSafeInteger_iff] at valid
      split
      case h_1 => exact reset _ invariant
      case h_2 acknowledged accepted =>
        have handed : ackDaemonSeq ≤ session.worker.log.handed.length := by
          rcases ok with ⟨-, zero⟩ | ⟨token, -, -, -, position, -⟩
          · omega
          · refine Nat.le_trans position ?_
            unfold expectedSequence
            split <;> omega
        have kept := acknowledge_invariant invariant live handed accepted
        split
        · exact reset _ kept
        case isFalse active =>
          rcases ok with ⟨standby, -⟩ |
            ⟨token, named, known, matching, -, stored⟩
          · simp [standby] at active
          · subst named
            obtain ⟨outbound, -, acknowledgedEq⟩ :=
              Option.map_eq_some_iff.mp accepted
            have adoptedEq : acknowledged.history.adopted =
                session.daemon.history.adopted := by
              rw [← acknowledgedEq]
            have liveAfter : acknowledged.ended = false := by
              rw [← acknowledgedEq]
              exact live
            obtain ⟨authenticated, adopted⟩ :=
              authenticate_invariant kept liveAfter known
                (fun other chosen => matching other
                  (sent.trans (adoptedEq.symm.trans chosen)))
            have opened : Invariant sizes pending { session with
                daemon := { acknowledged.authenticate (some token) with
                  inFlight := .handling acknowledged.handlers.length
                  handlers := acknowledged.handlers ++
                    [{ remaining := messages }] } } := by
              refine authenticated.rehandle rfl (by rintro _ ⟨⟩) ?_
              intro _ handler isHandler
              rcases mem_append.mp isHandler with old | new
              · exact .inl (by simpa using old)
              · rw [mem_singleton.mp new]
                refine .inr ⟨fun item part => ?_, by rintro _ ⟨⟩⟩
                rcases part with impossible | remaining
                · cases impossible
                · have safe := (valid.2 item remaining).1
                  exact ⟨safe, (stored item remaining safe).1, token,
                    adopted, (stored item remaining safe).2⟩
            have ready := acts_invariant opened
              (DaemonHttpRelayConnection.becomeReady_acts _ phase effects)
            exact ready

end

/-- What a message leaves pending once it was handed over. -/
def pendingAfter (seq : Nat) (message : WorkerMessage Content) : Option Nat :=
  if message.isToolCall then some seq else none

variable {seq : Nat}

theorem hand_invariant (invariant : Invariant sizes none session)
    (live : session.daemon.ended = false) {message : WorkerMessage Content}
    (genuine : Genuine session.daemon.history.adopted session.worker
      (seq, message)) (next : seq = session.daemon.inbound.acknowledged + 1) :
    Invariant sizes (pendingAfter seq message) { session with
      daemon := session.daemon.logHandling (.handed seq message) } := by
  have before := invariant.live live
  have completed : .completed seq ∉ session.daemon.history.handlings := by
    intro member
    rcases before.completed_le seq member with le | impossible
    · omega
    · cases impossible
  have tool : seq ∉ session.daemon.history.handlings.filterMap
      MessageHandling.toolCallSeq? := by
    intro member
    rcases before.toolCalls_le seq member with le | impossible
    · omega
    · cases impossible
  refine ⟨invariant.worker, invariant.requests, invariant.responses,
    invariant.dropped, fun _ => ?_, ?_⟩
  · exact { before with
      completed_le := by
        intro other member
        rcases mem_append.mp member with old | new
        · exact .inl ((before.completed_le other old).resolve_right nofun)
        · cases mem_singleton.mp new
      toolCalls_le := by
        intro other member
        rw [DaemonHttpRelayConnection.logHandling, filterMap_append,
          mem_append] at member
        rcases member with old | new
        · exact .inl ((before.toolCalls_le other old).resolve_right nofun)
        · right
          simp only [filterMap_cons, filterMap_nil,
            MessageHandling.toolCallSeq?] at new
          unfold pendingAfter
          by_cases isTool : message.isToolCall = true
          · rw [if_pos isTool] at new ⊢
            rw [mem_singleton.mp new]
          · rw [if_neg isTool] at new
            cases new }
  · refine ⟨?_, ?_, ?_⟩
    · intro other body member
      rcases mem_append.mp member with old | new
      · exact invariant.log.genuine other body old
      · cases mem_singleton.mp new
        exact genuine
    · refine invariant.log.again.append fun other body same => ?_
      cases same
      exact completed
    · dsimp only [DaemonHttpRelayConnection.logHandling]
      rw [filterMap_append]
      by_cases isTool : message.isToolCall = true
      · simp only [filterMap_cons, filterMap_nil,
          MessageHandling.toolCallSeq?, if_pos isTool]
        rw [← concat_eq_append, nodup_concat]
        exact ⟨tool, invariant.log.toolCalls_nodup⟩
      · simp only [filterMap_cons, filterMap_nil,
          MessageHandling.toolCallSeq?, if_neg isTool, append_nil]
        exact invariant.log.toolCalls_nodup

theorem complete_invariant (invariant : Invariant sizes pending session)
    (only : pending = none ∨ pending = some seq) :
    Invariant sizes (some seq) { session with
      daemon := session.daemon.logHandling (.completed seq) } := by
  have weaken : ∀ {other bound : Nat}, other ≤ bound ∨ pending = some other →
      other ≤ bound ∨ some seq = some other := by
    intro other bound known
    rcases known with le | same
    · exact .inl le
    · rcases only with none | some
      · rw [none] at same
        cases same
      · exact .inr (some.symm.trans same)
  have calls : (session.daemon.history.handlings ++
      [MessageHandling.completed seq]).filterMap MessageHandling.toolCallSeq? =
      session.daemon.history.handlings.filterMap
        MessageHandling.toolCallSeq? := by
    simp [MessageHandling.toolCallSeq?]
  refine ⟨invariant.worker, invariant.requests, invariant.responses,
    invariant.dropped, fun live => ?_, ?_, ?_, ?_⟩
  · have before := invariant.live live
    exact { before with
      completed_le := by
        intro other member
        rcases mem_append.mp member with old | new
        · exact weaken (before.completed_le other old)
        · cases mem_singleton.mp new
          exact .inr rfl
      toolCalls_le := by
        intro other member
        rw [DaemonHttpRelayConnection.logHandling, calls] at member
        exact weaken (before.toolCalls_le other member) }
  · intro other body member
    rcases mem_append.mp member with old | new
    · exact invariant.log.genuine other body old
    · cases mem_singleton.mp new
  · exact invariant.log.again.append nofun
  · dsimp only [DaemonHttpRelayConnection.logHandling]
    rw [calls]
    exact invariant.log.toolCalls_nodup

section

variable (invariant : Invariant sizes (some seq) session)
include invariant

theorem Invariant.settled (committed : session.daemon.ended = false →
      seq ≤ session.daemon.inbound.acknowledged) :
    Invariant sizes none session := by
  refine ⟨invariant.worker, invariant.requests, invariant.responses,
    invariant.dropped, fun live => ?_, invariant.log⟩
  have before := invariant.live live
  have settle : ∀ {other : Nat}, other ≤ session.daemon.inbound.acknowledged ∨
      some seq = some other → other ≤ session.daemon.inbound.acknowledged ∨
      none = some other := by
    intro other known
    rcases known with le | same
    · exact .inl le
    · cases same
      exact .inl (committed live)
  exact { before with
    completed_le := fun other member => settle (before.completed_le other member)
    toolCalls_le := fun other member =>
      settle (before.toolCalls_le other member) }

theorem commitMessage_invariant
    (live : session.daemon.ended = false) {message : WorkerMessage Content}
    {remaining : List (Nat × WorkerMessage Content)}
    (genuine : Genuine session.daemon.history.adopted session.worker
      (seq, message))
    (rest : ∀ item ∈ remaining,
      Genuine session.daemon.history.adopted session.worker item)
    (bound : seq ≤ session.daemon.inbound.acknowledged + 1) (handler : Nat)
    (expired : Bool) :
    Invariant sizes none { session with
      daemon := session.daemon.commitMessage handler seq message remaining
        expired } := by
  have before := invariant.live live
  unfold DaemonHttpRelayConnection.commitMessage
  cases committed : session.daemon.inbound.commit seq with
  | none =>
    have already : seq ≤ session.daemon.inbound.acknowledged := by
      have different : seq ≠ session.daemon.inbound.acknowledged + 1 := by
        intro same
        rw [RelayInboundSequence.commit, if_pos same] at committed
        cases committed
      omega
    have finished := finishHandler_invariant
      (invariant.settled fun _ => already) handler
    dsimp only
    split
    · have failed := handleFailure_invariant finished expired
      exact failed
    · exact finished
  | some inbound =>
    obtain ⟨contiguous, shape⟩ := RelayInboundSequence.commit_eq_some committed
    subst shape
    obtain ⟨safe, positive, token, adopted, stored⟩ := genuine
    have committedEq := before.inbound_eq
    have grown : session.daemon.history.committed ++ [message] <+:
        (session.worker.histories token).queued := by
      refine prefix_concat (invariant.worker.committed_isPrefix token adopted)
        ?_
      have position : seq - 1 = session.daemon.history.committed.length := by
        omega
      rw [← position]
      exact stored
    have longer : session.daemon.history.committed <+:
        session.daemon.history.committed ++ [message] :=
      prefix_append _ _
    refine ⟨?_, ?_, invariant.responses, invariant.dropped, fun _ => ?_,
      ⟨invariant.log.genuine, invariant.log.again,
        invariant.log.toolCalls_nodup⟩⟩
    · exact { invariant.worker with
        committed_isPrefix := fun other same => by
          rw [view, adopted] at same
          cases same
          exact grown
        committed_nil := fun none => by
          rw [view, adopted] at none
          cases none
        released_isPrefix := fun other same =>
          (invariant.worker.released_isPrefix other same).trans longer }
    · exact fun exchange member =>
        (invariant.requests exchange member).grow (fun _ => id)
          prefix_rfl longer
    · have raise : ∀ {other : Nat},
          other ≤ session.daemon.inbound.acknowledged ∨
            some seq = some other →
          other ≤ seq ∨ none = some other := by
        intro other known
        rcases known with le | same
        · exact .inl (by omega)
        · cases same
          exact .inl (Nat.le_refl seq)
      exact { before with
        inbound_eq := by
          simp only [length_append, length_singleton]
          omega
        handlers := fun other member item part => by
          rcases mem_or_eq_of_mem_set member with old | new
          · exact before.handlers other old item part
          · subst new
            rcases part with impossible | later
            · cases impossible
            · exact rest item later
        awaiting_le := fun other member item part => by
          rcases mem_or_eq_of_mem_set member with old | new
          · have earlier := before.awaiting_le other old item part
            dsimp only
            omega
          · subst new
            cases part
        completed_le := fun other member =>
          raise (before.completed_le other member)
        toolCalls_le := fun other member =>
          raise (before.toolCalls_le other member) }

end

section

variable (invariant : Invariant sizes none session)
include invariant

theorem advance_invariant
    (handler : Nat) (effects : List (LocalAction Content)) (threw : Bool) :
    Invariant sizes none { session with
      daemon := session.daemon.advanceHandler sizes handler effects
        threw } := by
  unfold DaemonHttpRelayConnection.advanceHandler
  split
  · exact invariant
  case isFalse open' =>
    have live : session.daemon.ended = false := by simpa using open'
    have before := invariant.live live
    split
    case h_1 => exact finishHandler_invariant invariant handler
    case h_2 seq message remaining found =>
      have member := mem_of_getElem? found
      have genuine := before.handlers _ member (seq, message)
        (.inr mem_cons_self)
      have rest : ∀ item ∈ remaining,
          Genuine session.daemon.history.adopted session.worker item :=
        fun item later => before.handlers _ member item
          (.inr (mem_cons_of_mem _ later))
      cases classified : session.daemon.inbound.classify seq with
      | duplicate =>
        refine invariant.rehandle rfl (fun _ same => same) ?_
        intro _ other isHandler
        rcases mem_or_eq_of_mem_set isHandler with old | new
        · exact .inl old
        · subst new
          exact .inr ⟨fun item part => by
            rcases part with impossible | later
            · cases impossible
            · exact rest item later, nofun⟩
      | gap =>
        exact acts_invariant invariant
          (DaemonHttpRelayConnection.resetSession_acts _)
      | new =>
        obtain ⟨-, next⟩ := classifySequence_new classified
        have handed := acts_invariant (hand_invariant invariant live genuine
          next) (DaemonHttpRelayConnection.actAll_acts _ effects)
        have acts : (session.daemon.logHandling
            (.handed seq message)).Acts sizes ((session.daemon.logHandling
              (.handed seq message)).actAll sizes effects) :=
          DaemonHttpRelayConnection.actAll_acts _ effects
        dsimp only at handed ⊢
        generalize (session.daemon.logHandling (.handed seq message)).actAll
          sizes effects = after at handed acts
        have adopted :
            after.history.adopted = session.daemon.history.adopted := by
          rw [acts.history_eq]
          rfl
        split
        case isTrue closed => exact handed.ended closed none
        case isFalse afterOpen =>
          have alive : after.ended = false := by simpa using afterOpen
          have inbound : after.inbound = session.daemon.inbound :=
            acts.inbound_eq alive
          split
          case isTrue tooLarge =>
            -- The Worker queues no message that the handler throws on.
            obtain ⟨-, -, token, -, stored⟩ := genuine
            have small := invariant.worker.bounded token message
              (mem_of_getElem? stored)
            simp only [Bool.and_eq_true, decide_eq_true_eq] at tooLarge
            exact absurd small (Nat.not_le.mpr tooLarge.2)
          case isFalse =>
            rw [← adopted] at genuine
            split
            case isTrue isTool =>
              rw [pendingAfter, if_pos isTool] at handed
              have completed := complete_invariant handed (.inr rfl)
              refine commitMessage_invariant completed alive genuine ?_ ?_
                handler false
              · rw [← adopted] at rest
                exact rest
              · dsimp only [DaemonHttpRelayConnection.logHandling]
                rw [inbound]
                exact Nat.le_of_eq next
            case isFalse control =>
              rw [pendingAfter, if_neg control] at handed
              refine handed.rehandle rfl (fun _ same => same) ?_
              intro _ other isHandler
              rcases mem_or_eq_of_mem_set isHandler with old | new
              · exact .inl old
              · subst new
                refine .inr ⟨fun item part => ?_, fun item part => ?_⟩
                · rcases part with awaited | later
                  · cases awaited
                    exact genuine
                  · rw [← adopted] at rest
                    exact rest item later
                · cases part
                  rw [inbound]
                  exact Nat.le_of_eq next
    case h_3 => exact invariant

theorem settle_invariant (handler : Nat) (fulfilled expired : Bool) :
    Invariant sizes none { session with
      daemon := session.daemon.settleHandler handler fulfilled expired } := by
  unfold DaemonHttpRelayConnection.settleHandler
  split
  · exact invariant
  case isFalse open' =>
    have live : session.daemon.ended = false := by simpa using open'
    have before := invariant.live live
    split
    case h_1 seq message remaining found =>
      have member := mem_of_getElem? found
      split
      · exact commitMessage_invariant (complete_invariant invariant (.inl rfl))
          live (before.handlers _ member _ (.inl rfl)) (fun item later =>
          before.handlers _ member item (.inr later)) (before.awaiting_le _
          member _ rfl) handler expired
      · exact finishHandler_invariant invariant handler
    case h_2 => exact invariant

theorem step_invariant (event : HttpRelayEvent Content) :
    Invariant sizes none (session.step sizes event) := by
  cases event with
  | daemonActs action =>
    exact acts_invariant invariant
      (DaemonHttpRelayConnection.act_acts _ action)
  | poll availableBytes =>
    simp only [step]
    split
    · exact invariant
    case isFalse idle =>
      simp only [Bool.or_eq_true, not_or, Bool.not_eq_true] at idle
      exact poll_invariant invariant idle.1 availableBytes
  | exchange request environment =>
    exact exchange_invariant invariant request environment
  | receive response effects expired =>
    simp only [step]
    split
    case h_1 => exact invariant
    case h_2 request body found =>
      split
      · exact invariant
      case isFalse waits =>
        simp only [Bool.or_eq_true, not_or, Bool.not_eq_true, bne_iff_ne,
          ne_eq, not_not] at waits
        exact receive_invariant invariant waits.1
          (mem_of_getElem? found) waits.2 effects expired
  | fail expired =>
    simp only [step]
    split
    · exact handleFailure_invariant invariant expired
    · exact invariant
  | garbled =>
    simp only [step]
    split
    · exact acts_invariant invariant
        (DaemonHttpRelayConnection.resetSession_acts _)
    · exact invariant
  | advance handler effects threw =>
    exact advance_invariant invariant handler effects threw
  | settle handler fulfilled expired =>
    exact settle_invariant invariant handler fulfilled expired
  | workerSend message =>
    simp only [step]
    split
    case h_1 => exact invariant
    case h_2 channel held =>
      exact queued_invariant invariant held
        (DaemonHttpChannel.trySend_queues channel message)
  | workerRevoke records =>
    simp only [step]
    split
    case h_1 => exact invariant
    case h_2 channel held =>
      exact queued_invariant invariant held
        (DaemonHttpChannel.queueRevocations_queues channel records)
  | workerClose =>
    exact invariant.withWorker invariant.worker.toRecordsOk.close
      (WorkerGrows.refl _).close

end

theorem run_invariant (instanceId : String) (takeover : Option String)
    (server version : String) (events : List (HttpRelayEvent Content)) :
    Invariant sizes none
    (run (step sizes) (start instanceId takeover server version) events) := by
  have preserved : ∀ (state : HttpRelaySession Content) event,
      Invariant sizes none state →
      Invariant sizes none (state.step sizes event) :=
    fun _ event invariant => step_invariant invariant event
  exact run_induction preserved
    (start_invariant instanceId takeover server version) events

end HttpRelaySession

end MachineBridge.Relay
