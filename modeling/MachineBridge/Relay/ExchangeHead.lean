import MachineBridge.Relay.ExchangeRoom

/-!
# The head of a queue is carried

On both sides of the HTTPS relay the next exchange carries the first message of
a queue of admitted messages, and the messages it carries are the first ones of
the queue.  The other side takes them if they are objects under safe numbers.
-/

namespace MachineBridge.Relay

open Foundation ExchangeJson List

/-- What an exchange carries of a queue, the octets of its text, and whether
the other side accepts it. -/
structure CarriesHead (queue carried : List (Nat × Json)) (octets : Nat)
    (accepted : Bool) : Prop where
  head : queue ≠ [] → carried ≠ []
  isPrefix : carried <+: queue
  consecutive : Consecutive (carried.map Prod.fst)
  few : carried.length ≤ 64
  fits : carried ≠ [] → octets ≤ httpFallbackMaximumEnvelopeBytes
  accepted_iff : accepted = true ↔ ∀ message ∈ carried,
    message.1 ≤ maxSafeInteger ∧ message.2.isObject = true

variable (numbers : NumberFormat)

theorem normalizeMessages_isSome {messages : List (Nat × Json)}
    (few : messages.length ≤ 64)
    (positive : ∀ message ∈ messages, 0 < message.1) :
    (normalizeMessages (some (messagesJson messages))).isSome = true ↔
    ∀ message ∈ messages, message.1 ≤ maxSafeInteger ∧
    message.2.isObject = true := by
  rw [normalizeMessages_messagesJson]
  constructor
  · intro taken message member
    split at taken
    case isTrue whole => exact (whole.2 message member).2
    case isFalse => cases taken
  · intro whole
    rw [if_pos]
    · rfl
    · refine ⟨few, ?_⟩
      intro message member
      exact ⟨positive message member, whole message member⟩

/-- Messages and requests as JSON texts. -/
def jsonWire (preReadyControl : Json → Bool) : WireFormat Json where
  messageBytes := Json.byteSize numbers
  entryBytes := entryBytes numbers
  envelopeBytes := fun envelope => Json.byteSize numbers envelope.toJson
  preReadyControl := preReadyControl
  httpsReady := .object [(text "type", .string (text "https_ready"))]

theorem head_fits {queue : Queue Json}
    (admitted : Admitted (Json.byteSize numbers) queue) {head : Entry Json}
    (member : head ∈ queue.messages) {fixed : Nat} (small : fixed ≤ 9000) : 2 +
    ((entryBytes numbers head.seq head.payload : Int) + (0 : Nat)) ≤
    (httpFallbackMaximumEnvelopeBytes : Int) - fixed + 2 := by
  have size := admitted.small head member
  have entry := byteSize_entryJson_le numbers (admitted.seq_le head member).2
    head.payload
  have largest : httpFallbackMaximumMessageBytes = 8388608 := rfl
  have room : httpFallbackMaximumEnvelopeBytes = 8454144 := rfl
  rw [entryBytes]
  omega

theorem RequestStart.Built.carriesHead {preReadyControl : Json → Bool}
    {start : RequestStart Json}
    (built : start.Built (jsonWire numbers preReadyControl)) : CarriesHead
    (start.queued.map numbered) start.envelope.messages
    (Json.byteSize numbers start.envelope.toJson)
    (ExchangeJson.normalizeDaemonHttpExchange start.envelope.toJson).isSome :=
    by
  obtain ⟨queue, admitted, same⟩ := built.queue
  obtain ⟨fixed, fixedEq⟩ : ∃ fixed, fixed =
      Json.byteSize numbers { start.envelope with messages := [] }.toJson :=
    ⟨_, rfl⟩
  have taken : start.envelope.messages = takeWithin (entryBytes numbers) 1
      ((httpFallbackMaximumEnvelopeBytes : Int) - fixed + 2) 2 0 start.queued
      := by
    rw [fixedEq]
    exact built.messages_eq
  have isPrefix : start.envelope.messages <+: start.queued.map numbered := by
    rw [taken]
    exact takeWithin_isPrefix _ _ _ _ _ _
  have parts := isPrefix
  rw [same] at parts
  obtain ⟨consecutive, few, positive⟩ := admitted.taken parts
  have accepted :
      (ExchangeJson.normalizeDaemonHttpExchange start.envelope.toJson).isSome =
      (normalizeMessages (some (messagesJson start.envelope.messages))).isSome
      := by
    rw [← normalize_toJson built.sessionId built.acknowledged built.nodup
      built.few, Option.isSome_map]
  refine ⟨?_, isPrefix, consecutive, few, ?_, ?_⟩
  · intro some
    obtain ⟨head, rest, split⟩ := exists_cons_of_ne_nil
      (fun none : start.queued = [] => some (by rw [none]; rfl))
    have queued : start.queued ≠ [] := by
      rw [split]
      exact cons_ne_nil _ _
    have small : fixed ≤ 9000 := by
      rw [fixedEq]
      apply byteSize_toJson_le
      · exact built.descriptor queued
      · rfl
      · exact built.acknowledged
      · exact built.few
    have member : head ∈ queue.messages := by
      rw [← same, split]
      exact mem_cons_self
    rw [taken, split]
    apply takeWithin_ne_nil
    exact head_fits numbers admitted member small
  · intro some
    rw [taken] at some
    have total := takenBytes_le (entryBytes numbers) some
    rw [← taken] at some total
    have whole := byteSize_toJson_messages numbers start.envelope
    have messages := byteSize_messagesJson numbers start.envelope.messages
    rw [if_neg some] at messages
    rw [← fixedEq] at whole
    omega
  · rw [accepted]
    exact normalizeMessages_isSome few positive

variable {Content : Type} (daemonJson : DaemonMessage Content → Json)
  (workerJson : WorkerMessage Content → Json)

def jsonSizes : WireSizes Content where
  daemonMessage := fun message => Json.byteSize numbers (daemonJson message)
  daemonEntry := fun seq message => entryBytes numbers seq (daemonJson message)
  workerMessage := fun message => Json.byteSize numbers (workerJson message)
  workerEntry := fun seq message => entryBytes numbers seq (workerJson message)

/-- What changes the queue and the numbers of a channel. -/
inductive ChannelEvent (Content : Type) where
  | send (message : WorkerMessage Content)
  | acknowledge (sequence : Nat)
  | commit (sequence : Nat)

namespace DaemonHttpChannel

/-- A message that is not admitted, an invalid acknowledgement and a number
that is not new leave a channel as it is. -/
def after (sizes : WireSizes Content) (channel : DaemonHttpChannel Content) :
    ChannelEvent Content → DaemonHttpChannel Content
  | .send message => (channel.send sizes message).getD channel
  | .acknowledge sequence => (channel.acknowledgeWorker sequence).getD channel
  | .commit sequence =>
    if channel.acceptDaemonSequence sequence = .new then
      channel.commitDaemonSequence sequence
    else channel

/-- A channel with a queue of admitted messages. -/
structure Queued (sizes : WireSizes Content)
    (channel : DaemonHttpChannel Content) : Prop where
  admitted : Admitted sizes.workerMessage channel.outbound
  acknowledged : channel.acknowledgedDaemonSeq ≤ maxSafeInteger

theorem Queued.after {sizes : WireSizes Content}
    {channel : DaemonHttpChannel Content} (queued : Queued sizes channel)
    (event : ChannelEvent Content) :
    Queued sizes (channel.after sizes event) := by
  cases event with
  | send message =>
    rw [DaemonHttpChannel.after, send]
    split
    · exact queued
    case isFalse room =>
      simp only [Bool.or_eq_true, decide_eq_true_eq, not_or, Nat.not_lt,
        Nat.not_le] at room
      exact ⟨queued.admitted.push room.1.1 room.1.2, queued.acknowledged⟩
  | acknowledge sequence =>
    rw [DaemonHttpChannel.after, acknowledgeWorker]
    cases accepted : channel.outbound.acknowledge sequence with
    | none => exact queued
    | some outbound =>
      exact ⟨queued.admitted.acknowledge accepted, queued.acknowledged⟩
  | commit sequence =>
    rw [DaemonHttpChannel.after]
    split
    case isTrue new => exact ⟨queued.admitted, (classifySequence_new new).1⟩
    case isFalse => exact queued

/-- The body of a response to the daemon. -/
def response (sizes : WireSizes Content) (token : Nat → ActivationToken)
    (phase : RelayPhase) (channel : DaemonHttpChannel Content) : Json :=
  relayResponse phase (some (token channel.activationToken))
    channel.acknowledgedDaemonSeq
    ((channel.outboundMessages sizes).map fun item =>
      (item.1, workerJson item.2))

end DaemonHttpChannel

theorem byteSize_relayResponse_le (phase : RelayPhase)
    (token : ActivationToken) {ackDaemonSeq : Nat}
    (acknowledged : ackDaemonSeq ≤ maxSafeInteger)
    (messages : List (Nat × Json)) : Json.byteSize numbers
    (relayResponse phase (some token) ackDaemonSeq messages) ≤
    Json.byteSize numbers (messagesJson messages) + 200 := by
  have one : Json.byteSize numbers (.natural 1) ≤ 16 :=
    byteSize_natural_le numbers (by decide)
  have number := byteSize_natural_le numbers (Nat.le_succ_of_le acknowledged)
  have name : Json.byteSize numbers (.string phase.name) ≤ 9 := by
    have plain : phase.name.all isPlain = true := by
      cases phase <;> decide
    rw [Json.byteSize_string numbers plain]
    cases phase <;> decide
  have identifier := byteSize_identifier numbers (by decide) token.property
  have label : (text "activate_").length + 43 + 2 = 54 := rfl
  have none : fieldsSize numbers [] = 0 := rfl
  have lengths : (text "protocol").length = 8 ∧ (text "phase").length = 5 ∧
      (text "activation_token").length = 16 ∧
      (text "ack_daemon_seq").length = 14 ∧ (text "messages").length = 8 :=
    ⟨rfl, rfl, rfl, rfl, rfl⟩
  obtain ⟨protocol, phaseKey, tokenKey, ack, messagesKey⟩ := lengths
  rw [relayResponse, byteSize_fields numbers (cons_ne_nil _ _),
    fieldsSize_cons numbers (by decide), fieldsSize_cons numbers (by decide),
    fieldsSize_cons numbers (by decide), fieldsSize_cons numbers (by decide),
    fieldsSize_cons numbers (by decide), none, protocol, phaseKey, tokenKey,
    ack, messagesKey, Option.elim_some]
  omega

def queueJson (queue : List (Entry (WorkerMessage Content))) :
    List (Nat × Json) :=
  queue.map fun entry => (entry.seq, workerJson entry.payload)

section

variable (sizes : WireSizes Content)

def carriedJson (channel : DaemonHttpChannel Content) : List (Nat × Json) :=
  (channel.outboundMessages sizes).map fun item => (item.1, workerJson item.2)

theorem carriedJson_isPrefix (channel : DaemonHttpChannel Content) :
    carriedJson workerJson sizes channel <+:
    queueJson workerJson channel.outbound.messages := by
  have isPrefix := takeWithin_isPrefix sizes.workerEntry 1 1
    httpFallbackMaximumEnvelopeBytes 512 channel.outbound.messages
  have whole := isPrefix.map fun item : Nat × WorkerMessage Content =>
    (item.1, workerJson item.2)
  rw [map_map] at whole
  exact whole

end

section Channel

variable {numbers daemonJson workerJson}
  {channel : DaemonHttpChannel Content}
  (queued : channel.Queued (jsonSizes numbers daemonJson workerJson))

include queued

theorem outboundMessages_ne_nil (some : channel.outbound.messages ≠ []) :
    channel.outboundMessages (jsonSizes numbers daemonJson workerJson) ≠
    [] := by
  obtain ⟨head, rest, split⟩ := exists_cons_of_ne_nil some
  have member : head ∈ channel.outbound.messages := by
    rw [split]
    exact mem_cons_self
  have admitted : Json.byteSize numbers (workerJson head.payload) ≤
      httpFallbackMaximumMessageBytes := queued.admitted.small head member
  have entry := byteSize_entryJson_le numbers
    (queued.admitted.seq_le head member).2 (workerJson head.payload)
  have largest : httpFallbackMaximumMessageBytes = 8388608 := rfl
  have room : httpFallbackMaximumEnvelopeBytes = 8454144 := rfl
  rw [DaemonHttpChannel.outboundMessages, split]
  apply takeWithin_ne_nil
  simp only [jsonSizes, entryBytes]
  omega

theorem carriedJson_numbers : Consecutive ((carriedJson workerJson (jsonSizes
    numbers daemonJson workerJson) channel).map Prod.fst) ∧ (carriedJson
    workerJson (jsonSizes numbers daemonJson workerJson) channel).length ≤ 64 ∧
    ∀ message ∈ carriedJson workerJson
    (jsonSizes numbers daemonJson workerJson) channel, 0 < message.1 := by
  have isPrefix := takeWithin_isPrefix
    (jsonSizes numbers daemonJson workerJson).workerEntry 1 1
    httpFallbackMaximumEnvelopeBytes 512 channel.outbound.messages
  obtain ⟨consecutive, few, positive⟩ := queued.admitted.taken isPrefix
  refine ⟨?_, ?_, ?_⟩
  · rw [carriedJson, map_map]
    exact consecutive
  · rw [carriedJson, length_map]
    exact few
  · intro message member
    obtain ⟨item, found, rfl⟩ := List.mem_map.mp member
    exact positive item found

section

variable (token : Nat → ActivationToken)

theorem response_fits (phase : RelayPhase) (some : carriedJson workerJson
    (jsonSizes numbers daemonJson workerJson) channel ≠ []) : Json.byteSize
    numbers (channel.response workerJson (jsonSizes numbers daemonJson
    workerJson) token phase) ≤ httpFallbackMaximumEnvelopeBytes := by
  have bound := byteSize_relayResponse_le numbers phase
    (token channel.activationToken) queued.acknowledged
    (carriedJson workerJson (jsonSizes numbers daemonJson workerJson) channel)
  have present : takeWithin
      (jsonSizes numbers daemonJson workerJson).workerEntry 1
      httpFallbackMaximumEnvelopeBytes 512 1 channel.outbound.messages ≠
      [] := by
    intro none
    apply some
    rw [carriedJson, DaemonHttpChannel.outboundMessages, none]
    rfl
  have total := takenBytes_le _ present
  have same : takenBytes (entryBytes numbers) 1 (carriedJson workerJson
      (jsonSizes numbers daemonJson workerJson) channel) =
        takenBytes (jsonSizes numbers daemonJson workerJson).workerEntry 1
          (takeWithin (jsonSizes numbers daemonJson workerJson).workerEntry 1
            httpFallbackMaximumEnvelopeBytes 512 1
            channel.outbound.messages) := by
    rw [takenBytes, carriedJson, map_map]
    rfl
  rw [byteSize_messagesJson, if_neg some, same] at bound
  have written : Json.byteSize numbers (channel.response workerJson
      (jsonSizes numbers daemonJson workerJson) token phase) ≤ _ := bound
  omega

theorem channel_carriesHead (phase : RelayPhase) : CarriesHead
    (queueJson workerJson channel.outbound.messages)
    (carriedJson workerJson (jsonSizes numbers daemonJson workerJson) channel)
    (Json.byteSize numbers (channel.response workerJson (jsonSizes numbers
    daemonJson workerJson) token phase)) (validResponse (channel.response
    workerJson (jsonSizes numbers daemonJson workerJson) token phase)) := by
  obtain ⟨consecutive, few, positive⟩ := carriedJson_numbers queued
  refine ⟨?_, carriedJson_isPrefix workerJson _ channel, consecutive, few,
    response_fits queued token phase, ?_⟩
  · intro some none
    have present : channel.outbound.messages ≠ [] := by
      intro empty
      rw [empty] at some
      exact some rfl
    exact outboundMessages_ne_nil queued present (map_eq_nil_iff.mp none)
  · rw [DaemonHttpChannel.response,
      validResponse_relayResponse phase _ queued.acknowledged]
    constructor
    · intro whole message member
      exact (whole.2 message member).2
    · intro whole
      refine ⟨few, ?_⟩
      intro message member
      exact ⟨positive message member, whole message member⟩

end

end Channel

/-- Whatever happens to a connection and to a channel, each request and each
response carries the queue: the first message if there is one, and a prefix
under consecutive numbers within the limits.  The other side accepts it exactly
if every message it carries is an object under a safe number. -/
theorem exchanges_carryHead (environment : PollingEnvironment Json)
    (preReadyControl : Json → Bool)
    (events : List (PollingRelay.PollingEvent Json))
    (channel : DaemonHttpChannel Content)
    (channelEvents : List (ChannelEvent Content))
    (token : Nat → ActivationToken) (phase : RelayPhase) :
    (∀ start ∈ (PollingRelay.runPolling { environment with
        wire := jsonWire numbers preReadyControl } events).starts,
      CarriesHead (start.queued.map numbered) start.envelope.messages
        (Json.byteSize numbers start.envelope.toJson)
        (ExchangeJson.normalizeDaemonHttpExchange
          start.envelope.toJson).isSome) ∧
    let sizes := jsonSizes numbers daemonJson workerJson
    let final := run (DaemonHttpChannel.after sizes) { channel with
      outbound := {}, queuedBytes := 0, acknowledgedDaemonSeq := 0 }
      channelEvents
    CarriesHead (queueJson workerJson final.outbound.messages)
      (carriedJson workerJson sizes final)
      (Json.byteSize numbers (final.response workerJson sizes token phase))
      (validResponse (final.response workerJson sizes token phase)) := by
  constructor
  · intro start member
    have built := PollingRelay.runPolling_built { environment with
      wire := jsonWire numbers preReadyControl } events start member
    exact built.carriesHead numbers
  · intro sizes final
    have fresh : DaemonHttpChannel.Queued sizes { channel with
        outbound := {}, queuedBytes := 0, acknowledgedDaemonSeq := 0 } :=
      ⟨admitted_nil _, Nat.zero_le _⟩
    have preserved : ∀ (state : DaemonHttpChannel Content) event,
        state.Queued sizes → (state.after sizes event).Queued sizes :=
      fun _ event queued => queued.after event
    have queued : final.Queued sizes :=
      run_induction preserved fresh channelEvents
    exact channel_carriesHead queued token phase

/-- A body of as many letters as an identifier may have. -/
def letters : Text := List.replicate 43 0x61

/-- The relay contract, and callbacks that do nothing. -/
def quietEnvironment : PollingEnvironment Json where
  options := ⟨5000, 750, 30000, 1000, 5000, 12000, 1000000000⟩
  wire := jsonWire .naturals fun _ => false
  instanceId := ⟨text "daemon_" ++ letters, by decide⟩
  sessionId := fun _ => ⟨text "relay_http_" ++ letters, by decide⟩
  callback := fun _ => ([], false)

/-- A connection becomes ready and sends `null`. -/
def nullEvents : List (PollingRelay.PollingEvent Json) :=
  let data : PollData Json := ⟨⟨[], .nil⟩, ⟨.array [], .object [], .object []⟩⟩
  let token : ActivationToken := ⟨text "activate_" ++ letters, by decide⟩
  [.call (.start none), .timer data,
    .responded 0 ⟨200, none, some ⟨.probing token, 0, []⟩⟩,
    .call (.confirmReady true), .call (.pass 750), .timer data,
    .responded 1 ⟨200, none, some ⟨.ready token, 1, []⟩⟩,
    .call (.send .null), .call (.pass 1500), .timer data]

/-- The queue admits `null`, the request carries it, and the Worker refuses the
request.  It also refuses the number after the last safe one. -/
theorem nullMessage_refused : (∃ start ∈ (PollingRelay.runPolling
    quietEnvironment nullEvents).starts, start.queued.map (fun entry =>
    (entry.seq, entry.bytes)) = [(2, 4)] ∧
    (ExchangeJson.normalizeDaemonHttpExchange start.envelope.toJson).isSome =
    false) ∧ (normalizeMessages (some (messagesJson [(maxSafeInteger + 1,
    .object [])]))).isSome = false := by
  decide +kernel

end MachineBridge.Relay
