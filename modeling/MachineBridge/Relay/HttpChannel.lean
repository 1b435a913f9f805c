import MachineBridge.Relay.Sequence

/-!
# The Worker's HTTPS channel

A `DaemonHttpChannel` queues numbered messages for the daemon, drops the
acknowledged ones, and remembers the last daemon message it committed.  Next to
the fields of the source it records which messages were queued on it, which of
them were acknowledged away, and how far both were at a tool call or a resume
acknowledgement.
-/

namespace MachineBridge.Relay

open Foundation List

/-- An authority revocation the Worker keeps until the daemon acknowledged
it. -/
structure AuthorityRevocationRecord where
  (id accountId : String)
  accountVersion : Nat
  (clientId familyId : Option String)
deriving DecidableEq

/-- The messages of the daemon, as far as the transport reads them.  `other`
stands for tool results and planned drains. -/
inductive DaemonMessage (Content : Type) where
  | httpsReady
  | resumeCallsAck (content : Content)
  | authorityRevokeAck (content : Content)
  | other (content : Content)
deriving DecidableEq

def DaemonMessage.isHttpsReady {Content : Type} :
    DaemonMessage Content → Bool
  | .httpsReady => true
  | _ => false

/-- The messages of the Worker, as far as the transport reads them.  `other`
stands for cancellations, acknowledgements and errors. -/
inductive WorkerMessage (Content : Type) where
  | resumeCalls (ids : List String)
  | authorityRevoke (record : AuthorityRevocationRecord)
  | readyAck (server version : String)
  | toolCall (content : Content)
  | other (content : Content)
deriving DecidableEq

def WorkerMessage.isToolCall {Content : Type} :
    WorkerMessage Content → Bool
  | .toolCall _ => true
  | _ => false

/-- UTF-8 sizes of serialized messages, alone and with their number. -/
structure WireSizes (Content : Type) where
  daemonMessage : DaemonMessage Content → Nat
  daemonEntry : Nat → DaemonMessage Content → Nat
  workerMessage : WorkerMessage Content → Nat
  workerEntry : Nat → WorkerMessage Content → Nat

/-- The state of the readiness handshake of a channel. -/
structure Handshake where
  ids : List String
  offered : Bool := false

/-- Work which a channel takes up only on a ready connection: a tool call it
queues, or a resume acknowledgement it processes. -/
inductive GuardedWork (Content : Type) where
  | toolCall (content : Content)
  | resumeCallsAck (content : Content)
deriving DecidableEq

def WorkerMessage.guarded? {Content : Type} :
    WorkerMessage Content → Option (GuardedWork Content)
  | .toolCall content => some (.toolCall content)
  | _ => none

def DaemonMessage.guarded? {Content : Type} :
    DaemonMessage Content → Option (GuardedWork Content)
  | .resumeCallsAck content => some (.resumeCallsAck content)
  | _ => none

/-- Guarded work, with what the channel had queued and what had been
acknowledged away from it when it took the work up. -/
structure Admission (Content : Type) where
  work : GuardedWork Content
  (queued released : List (WorkerMessage Content))

/-- What a channel queued, what was acknowledged away from it, and the guarded
work it took up. -/
structure ChannelHistory (Content : Type) where
  (queued released : List (WorkerMessage Content) := [])
  admitted : List (Admission Content) := []

def ChannelHistory.recordAdmission {Content : Type}
    (history : ChannelHistory Content) (work : Option (GuardedWork Content)) :
    ChannelHistory Content :=
  { history with
    admitted := history.admitted ++ work.toList.map fun work =>
      { work, queued := history.queued, released := history.released } }

/-- An activated channel.  `outbound` groups `nextWorkerSeq`,
`acknowledgedWorkerSeq` and the array `outbound` of the source; a closed
channel is one the registry no longer holds. -/
structure DaemonHttpChannel (Content : Type) where
  activationToken : Nat
  instanceId : String
  verifiedReady : Bool := false
  outbound : Queue (WorkerMessage Content) := {}
  queuedBytes : Int := 0
  acknowledgedDaemonSeq : Nat := 0
  handshake : Handshake
  history : ChannelHistory Content := {}

namespace DaemonHttpChannel

variable {Content : Type} (sizes : WireSizes Content)

section

variable (channel : DaemonHttpChannel Content)

/-- Queue a message.  `none` when a limit is exceeded: the source then returns
`false` for a deferrable message and throws for any other one. -/
def send (message : WorkerMessage Content) :
    Option (DaemonHttpChannel Content) :=
  if httpFallbackMaximumMessageBytes < sizes.workerMessage message ||
      httpFallbackMaximumQueuedMessages ≤ channel.outbound.messages.length ||
      (httpFallbackMaximumQueuedBytes : Int) <
        channel.queuedBytes + sizes.workerMessage message then none
  else some { channel with
    outbound := channel.outbound.push sizes.workerMessage message
    queuedBytes := channel.queuedBytes + sizes.workerMessage message
    history := { channel.history.recordAdmission message.guarded? with
      queued := channel.history.queued ++ [message] } }

/-- `trySendDaemonChannel`: only on a ready channel, and never throwing. -/
def trySend (message : WorkerMessage Content) : DaemonHttpChannel Content :=
  if channel.verifiedReady then (channel.send sizes message).getD channel
  else channel

/-- The messages sent to a channel while a daemon message is handled. -/
def trySendAll (messages : List (WorkerMessage Content)) :
    DaemonHttpChannel Content :=
  messages.foldl (trySend sizes) channel

def process (payload : DaemonMessage Content) : DaemonHttpChannel Content :=
  { channel with history := channel.history.recordAdmission payload.guarded? }

def hasQueuedRevocation (id : String) : Bool :=
  channel.outbound.messages.any fun entry =>
    match entry.payload with
    | .authorityRevoke record => record.id == id
    | _ => false

/-- `none` when the source reports the acknowledgement as invalid. -/
def acknowledgeWorker (sequence : Nat) : Option (DaemonHttpChannel Content) :=
  (channel.outbound.acknowledge sequence).map fun outbound =>
    let removed := channel.outbound.removed sequence
    { channel with
      outbound
      queuedBytes := removed.foldl
        (fun bytes message => bytes - message.bytes) channel.queuedBytes
      history := { channel.history with
        released := channel.history.released ++
          removed.map Entry.payload } }

/-- The messages of a response; the fixed fields take 512 bytes. -/
def outboundMessages : List (Nat × WorkerMessage Content) :=
  takeWithin sizes.workerEntry 1 httpFallbackMaximumEnvelopeBytes 512 1
    channel.outbound.messages

def acceptDaemonSequence (sequence : Nat) : SequenceClass :=
  classifySequence channel.acknowledgedDaemonSeq sequence

/-- Only called for the number that was classified as new. -/
def commitDaemonSequence (sequence : Nat) : DaemonHttpChannel Content :=
  { channel with acknowledgedDaemonSeq := sequence }

def verifyReady : DaemonHttpChannel Content :=
  { channel with verifiedReady := true }

end

/-- Queue the revocations that are not queued yet, up to the first one for
which there is no room. -/
def queueRevocations (channel : DaemonHttpChannel Content) :
    List AuthorityRevocationRecord → DaemonHttpChannel Content
  | [] => channel
  | record :: records =>
    if channel.hasQueuedRevocation record.id then
      queueRevocations channel records
    else
      match channel.send sizes (.authorityRevoke record) with
      | none => channel
      | some queued => queueRevocations queued records

/-- Offer the handshake once the queue is empty.  The flag says that a message
did not fit and the source threw; what was queued before stays queued. -/
def advanceHandshake (server version : String)
    (records : List AuthorityRevocationRecord)
    (channel : DaemonHttpChannel Content) : DaemonHttpChannel Content × Bool :=
  if !channel.handshake.offered && channel.outbound.messages.isEmpty &&
      decide (records.length ≤ httpFallbackMaximumQueuedMessages - 2) then
    match channel.send sizes (.resumeCalls channel.handshake.ids) with
    | none => (channel, true)
    | some resumed =>
      let revoked := resumed.queueRevocations sizes records
      match revoked.send sizes (.readyAck server version) with
      | none => (revoked, true)
      | some acknowledged =>
        ({ acknowledged with
          handshake := { acknowledged.handshake with offered := true } },
          false)
  else (channel.queueRevocations sizes records, false)

/-- The queue of a channel is the unacknowledged rest of what was queued. -/
structure WellFormed (channel : DaemonHttpChannel Content) : Prop where
  carries : channel.outbound.Carries sizes.workerMessage
    channel.history.queued
  released_eq : channel.history.released =
    channel.history.queued.take channel.outbound.acknowledged
  bounded : ∀ message ∈ channel.history.queued,
    sizes.workerMessage message ≤ httpFallbackMaximumMessageBytes

/-- A channel after some time, in which the daemon acknowledged nothing. -/
structure Extends (channel next : DaemonHttpChannel Content) : Prop where
  token_eq : next.activationToken = channel.activationToken
  queued_isPrefix : channel.history.queued <+: next.history.queued
  released_eq : next.history.released = channel.history.released
  wellFormed : WellFormed sizes channel → WellFormed sizes next

/-- A channel on which messages may have been queued, and nothing else. -/
structure Queues (channel next : DaemonHttpChannel Content) : Prop
    extends Extends sizes channel next where
  daemonSeq_eq : next.acknowledgedDaemonSeq = channel.acknowledgedDaemonSeq

variable {sizes}

theorem Extends.refl (channel : DaemonHttpChannel Content) :
    Extends sizes channel channel :=
  ⟨rfl, prefix_rfl, rfl, id⟩

theorem Extends.trans {first second third : DaemonHttpChannel Content}
    (left : Extends sizes first second) (right : Extends sizes second third) :
    Extends sizes first third where
  token_eq := right.token_eq.trans left.token_eq
  queued_isPrefix := left.queued_isPrefix.trans right.queued_isPrefix
  released_eq := right.released_eq.trans left.released_eq
  wellFormed := right.wellFormed ∘ left.wellFormed

theorem Queues.refl (channel : DaemonHttpChannel Content) :
    Queues sizes channel channel :=
  ⟨.refl channel, rfl⟩

theorem Queues.trans {first second third : DaemonHttpChannel Content}
    (left : Queues sizes first second) (right : Queues sizes second third) :
    Queues sizes first third :=
  ⟨left.toExtends.trans right.toExtends,
    right.daemonSeq_eq.trans left.daemonSeq_eq⟩

theorem commitDaemonSequence_extends (channel : DaemonHttpChannel Content)
    (sequence : Nat) :
    Extends sizes channel (channel.commitDaemonSequence sequence) :=
  ⟨rfl, prefix_rfl, rfl, fun wellFormed =>
    ⟨wellFormed.carries, wellFormed.released_eq, wellFormed.bounded⟩⟩

theorem send_queues {channel next : DaemonHttpChannel Content}
    {message : WorkerMessage Content}
    (sent : channel.send sizes message = some next) :
    Queues sizes channel next := by
  unfold send at sent
  split at sent
  · cases sent
  case isFalse room =>
    cases sent
    simp only [Bool.or_eq_true, decide_eq_true_eq, not_or, Nat.not_lt] at room
    refine ⟨⟨rfl, prefix_append _ _, rfl, fun wellFormed => ?_⟩, rfl⟩
    refine ⟨wellFormed.carries.push message, ?_, ?_⟩
    · have bound := wellFormed.carries.acknowledged_le
      simp only [Queue.push]
      rw [take_append_of_le_length bound]
      exact wellFormed.released_eq
    · intro other member
      rcases mem_append.mp member with old | new
      · exact wellFormed.bounded other old
      · rw [mem_singleton.mp new]
        exact room.1.1

section

variable (channel : DaemonHttpChannel Content)

theorem process_queues (payload : DaemonMessage Content) :
    Queues sizes channel (channel.process payload) :=
  ⟨⟨rfl, prefix_rfl, rfl, fun wellFormed =>
    ⟨wellFormed.carries, wellFormed.released_eq, wellFormed.bounded⟩⟩, rfl⟩

theorem trySend_queues (message : WorkerMessage Content) :
    Queues sizes channel (channel.trySend sizes message) := by
  unfold trySend
  split
  · cases sent : channel.send sizes message with
    | none => exact .refl channel
    | some next => exact send_queues sent
  · exact .refl channel

theorem trySendAll_queues (messages : List (WorkerMessage Content)) :
    Queues sizes channel (channel.trySendAll sizes messages) := by
  induction messages generalizing channel with
  | nil => exact .refl channel
  | cons message messages induction =>
    exact (trySend_queues channel message).trans (induction _)

theorem verifyReady_queues : Queues sizes channel channel.verifyReady :=
  ⟨⟨rfl, prefix_rfl, rfl, fun wellFormed =>
    ⟨wellFormed.carries, wellFormed.released_eq, wellFormed.bounded⟩⟩, rfl⟩

theorem queueRevocations_queues (records : List AuthorityRevocationRecord) :
    Queues sizes channel (channel.queueRevocations sizes records) := by
  induction records generalizing channel with
  | nil => exact .refl channel
  | cons record records induction =>
    unfold queueRevocations
    split
    · exact induction channel
    · split
      case h_1 => exact .refl channel
      case h_2 queued sent => exact (send_queues sent).trans (induction queued)

theorem advanceHandshake_queues (server version : String)
    (records : List AuthorityRevocationRecord) : Queues sizes channel
    (channel.advanceHandshake sizes server version records).1 := by
  unfold advanceHandshake
  split
  · split
    case h_1 => exact .refl channel
    case h_2 resumed sent =>
      have revoked := (send_queues sent).trans
        (queueRevocations_queues resumed records)
      dsimp only
      split
      case h_1 => exact revoked
      case h_2 acknowledged last =>
        have whole := revoked.trans (send_queues last)
        exact ⟨⟨whole.token_eq, whole.queued_isPrefix, whole.released_eq,
          fun wellFormed =>
            have after := whole.wellFormed wellFormed
            ⟨after.carries, after.released_eq, after.bounded⟩⟩,
          whole.daemonSeq_eq⟩
  · exact queueRevocations_queues channel records

end

theorem acknowledgeWorker_spec {channel next : DaemonHttpChannel Content}
    {sequence : Nat} (wellFormed : WellFormed sizes channel)
    (accepted : channel.acknowledgeWorker sequence = some next) :
    WellFormed sizes next ∧ next.activationToken = channel.activationToken ∧
    next.acknowledgedDaemonSeq = channel.acknowledgedDaemonSeq ∧
    next.history.queued = channel.history.queued ∧ next.history.released =
    channel.history.queued.take (max channel.outbound.acknowledged sequence) :=
    by
  obtain ⟨outbound, found, same⟩ := Option.map_eq_some_iff.mp accepted
  subst same
  obtain ⟨carries, acknowledgedEq, -⟩ := wellFormed.carries.acknowledge found
  have released := wellFormed.carries.removed found
  rw [← wellFormed.released_eq] at released
  refine ⟨⟨carries, released, wellFormed.bounded⟩, rfl, rfl, rfl, ?_⟩
  rw [← acknowledgedEq]
  exact released

theorem mem_outboundMessages {channel : DaemonHttpChannel Content}
    {item : Nat × WorkerMessage Content}
    (wellFormed : WellFormed sizes channel)
    (member : item ∈ channel.outboundMessages sizes)
    (safe : item.1 ≤ maxSafeInteger) :
    0 < item.1 ∧ channel.history.queued[item.1 - 1]? = some item.2 := by
  obtain ⟨entry, found, same⟩ :=
    exists_mem_of_mem_takeWithin sizes.workerEntry member
  subst same
  exact wellFormed.carries.mem found safe

end DaemonHttpChannel

end MachineBridge.Relay
