import MachineBridge.Foundation.JsonText
import MachineBridge.Relay.HttpController
import MachineBridge.Relay.HttpPolling

/-!
# Exchanges as JSON values

The body of a request and of a response, as each side writes it, and the checks
of the other side: `normalizeDaemonHttpExchange` on the Worker and
`validResponse` on the daemon.
-/

namespace MachineBridge.Relay

open Foundation List

/-- A message with its number. -/
def entryJson (seq : Nat) (payload : Json) : Json :=
  .object [(text "seq", .natural seq), (text "payload", payload)]

def messagesJson (messages : List (Nat × Json)) : Json :=
  .array (messages.map fun message => entryJson message.1 message.2)

def optionalFields {α : Type} (value : Option α)
    (fields : α → List (Text × Json)) : List (Text × Json) :=
  value.elim [] fields

section

variable (envelope : RelayEnvelope Json)

def RelayEnvelope.fields : List (Text × Json) :=
  [(text "protocol", .natural 1),
    (text "session_id", .string (envelope.sessionId.elim [] Subtype.val)),
    (text "instance_id", .string envelope.instanceId.val)] ++
  optionalFields envelope.activationToken (fun token =>
    [(text "activation_token", .string token.val)]) ++
  [(text "ack_worker_seq", .natural envelope.ackWorkerSeq),
    (text "owned_call_ids",
      .array (envelope.ownedCallIds.map fun id => .string id.val)),
    (text "messages", messagesJson envelope.messages)] ++
  optionalFields envelope.takeoverWebSocketConnectionId (fun id =>
    [(text "takeover_websocket", .boolean true),
      (text "takeover_websocket_connection_id", .string id.val)]) ++
  optionalFields envelope.descriptor (fun descriptor =>
    [(text "tools", descriptor.tools), (text "policy", descriptor.policy),
      (text "relay_diagnostics", descriptor.relayDiagnostics)])

def RelayEnvelope.toJson : Json :=
  .object envelope.fields

end

def RelayPhase.name : RelayPhase → Text
  | .probing => text "probing"
  | .ready => text "ready"
  | .standby => text "standby"

def relayResponse (phase : RelayPhase)
    (activationToken : Option ActivationToken) (ackDaemonSeq : Nat)
    (messages : List (Nat × Json)) : Json :=
  .object [(text "protocol", .natural 1), (text "phase", .string phase.name),
    (text "activation_token",
      activationToken.elim .null fun token => .string token.val),
    (text "ack_daemon_seq", .natural ackDaemonSeq),
    (text "messages", messagesJson messages)]

namespace ExchangeJson

/-- A field is the number one. -/
def isOne : Option Json → Bool
  | some (.number value) => value == 1
  | _ => false

/-- A field is a text which a pattern matches; `fallback` stands for any other
value and `missing` for no value. -/
def matching (pattern : Text → Bool) (missing fallback : Text) :
    Option Json → Text
  | none => missing
  | some (.string content) => if pattern content then content else fallback
  | some _ => fallback

def safeNatural? : Option Json → Option Nat
  | none => none
  | some value =>
    match value.safeInteger? with
    | none => none
    | some number => if 0 ≤ number then some number.toNat else none

def numberedMessage? (item : Json) : Option (Nat × Json) :=
  if !item.isObject then none
  else
    match safeNatural? (item.field? (text "seq")),
      item.field? (text "payload") with
    | some seq, some payload =>
      if 0 < seq && payload.isObject then some (seq, payload) else none
    | _, _ => none

def normalizeMessages : Option Json → Option (List (Nat × Json))
  | some (.array items) =>
    if 64 < items.length then none else items.mapM numberedMessage?
  | _ => none

def collectCallIds (seen : List Text) : List Json → Option (List Text)
  | [] => some []
  | .string id :: items =>
    if !isCallId id || seen.contains id then none
    else (collectCallIds (id :: seen) items).map fun ids => id :: ids
  | _ :: _ => none

def normalizeCallIds : Option Json → Option (List Text)
  | some (.array items) =>
    if 32 < items.length then none else collectCallIds [] items
  | _ => none

/-- `none` for a value which is no truth value. -/
def takeoverFlag : Option Json → Option Bool
  | none => some false
  | some (.boolean flag) => some flag
  | some _ => none

/-- An exchange which the Worker accepts. -/
structure NormalizedExchange where
  (sessionId instanceId activationToken : Text)
  ackWorkerSeq : Nat
  takeoverWebSocket : Bool
  takeoverWebSocketConnectionId : Text
  ownedCallIds : List Text
  messages : List (Nat × Json)
  (tools policy relayDiagnostics : Option Json)

def normalizeDaemonHttpExchange (value : Json) : Option NormalizedExchange :=
  let field := fun key => value.field? (text key)
  let sessionId := matching isHttpSessionId [] [] (field "session_id")
  let instanceId := matching isDaemonInstanceId [] [] (field "instance_id")
  let activationToken := matching isActivationToken [] (text "invalid")
    (field "activation_token")
  let connectionId := matching isConnectionId [] (text "invalid")
    (field "takeover_websocket_connection_id")
  if !value.isObject || !isOne (field "protocol") then none
  else if sessionId.isEmpty || instanceId.isEmpty ||
      activationToken == text "invalid" || connectionId == text "invalid" then
    none
  else
    match safeNatural? (field "ack_worker_seq"),
      takeoverFlag (field "takeover_websocket"),
      normalizeCallIds (field "owned_call_ids"),
      normalizeMessages (field "messages") with
    | some ackWorkerSeq, some takeoverWebSocket, some ownedCallIds,
      some messages =>
        if takeoverWebSocket == connectionId.isEmpty then none
        else some {
          sessionId, instanceId, activationToken, ackWorkerSeq
          takeoverWebSocket
          takeoverWebSocketConnectionId := connectionId
          ownedCallIds, messages
          tools := field "tools"
          policy := field "policy"
          relayDiagnostics := field "relay_diagnostics" }
    | _, _, _, _ => none

/-- The daemon's check of a response. -/
def validResponse (body : Json) : Bool :=
  let field := fun key => body.field? (text key)
  let phase := matching (fun name =>
    name == text "probing" || name == text "ready" || name == text "standby")
    [] [] (field "phase")
  body.isObject && isOne (field "protocol") && !phase.isEmpty &&
    (safeNatural? (field "ack_daemon_seq")).isSome &&
    (phase == text "standby" || !(matching isActivationToken [] []
      (field "activation_token")).isEmpty) &&
    match field "messages" with
    | some (.array items) => decide (items.length ≤ 64) &&
        items.all fun item => (numberedMessage? item).isSome
    | _ => false

section Fields

variable (envelope : RelayEnvelope Json)

theorem field?_activationToken :
    envelope.toJson.field? (text "activation_token") =
    envelope.activationToken.map fun token => .string token.val := by
  obtain ⟨_, _, token, _, _, takeover, descriptor, _⟩ := envelope
  cases token <;> cases takeover <;> cases descriptor <;> rfl

theorem field?_ackWorkerSeq : envelope.toJson.field? (text "ack_worker_seq") =
    some (.natural envelope.ackWorkerSeq) := by
  obtain ⟨_, _, token, _, _, takeover, descriptor, _⟩ := envelope
  cases token <;> cases takeover <;> cases descriptor <;> rfl

theorem field?_ownedCallIds : envelope.toJson.field? (text "owned_call_ids") =
    some (.array (envelope.ownedCallIds.map fun id => .string id.val)) := by
  obtain ⟨_, _, token, _, _, takeover, descriptor, _⟩ := envelope
  cases token <;> cases takeover <;> cases descriptor <;> rfl

theorem field?_messages : envelope.toJson.field? (text "messages") =
    some (messagesJson envelope.messages) := by
  obtain ⟨_, _, token, _, _, takeover, descriptor, _⟩ := envelope
  cases token <;> cases takeover <;> cases descriptor <;> rfl

theorem field?_takeoverWebSocket :
    envelope.toJson.field? (text "takeover_websocket") =
    envelope.takeoverWebSocketConnectionId.map fun _ => .boolean true := by
  obtain ⟨_, _, token, _, _, takeover, descriptor, _⟩ := envelope
  cases token <;> cases takeover <;> cases descriptor <;> rfl

theorem field?_takeoverWebSocketConnectionId :
    envelope.toJson.field? (text "takeover_websocket_connection_id") =
    envelope.takeoverWebSocketConnectionId.map fun id => .string id.val := by
  obtain ⟨_, _, token, _, _, takeover, descriptor, _⟩ := envelope
  cases token <;> cases takeover <;> cases descriptor <;> rfl

end Fields

theorem safeInteger?_natural (number : Nat) :
    (Json.natural number).safeInteger? = if number ≤
    maxSafeInteger then some (number : Int) else none := by
  have whole : (number : ℚ).den = 1 := Rat.den_natCast number
  have value : (number : ℚ).num = number := Rat.num_natCast number
  rw [Json.natural, Json.safeInteger?, whole, value]
  by_cases safe : number ≤ maxSafeInteger
  · have inside : isSafeInt (number : Int) = true := by
      simp only [isSafeInt, Bool.and_eq_true, decide_eq_true_eq]
      omega
    rw [inside, if_pos safe]
    rfl
  · have outside : isSafeInt (number : Int) = false := by
      simp only [isSafeInt, Bool.and_eq_false_iff, decide_eq_false_iff_not]
      omega
    rw [outside, if_neg safe]
    rfl

theorem safeNatural?_natural (number : Nat) :
    safeNatural? (some (.natural number)) = if number ≤
    maxSafeInteger then some number else none := by
  rw [safeNatural?, safeInteger?_natural]
  split
  case h_1 missing =>
    split at missing
    · cases missing
    case isFalse unsafeNumber => rw [if_neg unsafeNumber]
  case h_2 found =>
    split at found
    case isTrue safe =>
      cases found
      rw [if_pos safe, if_pos (Int.natCast_nonneg number), Int.toNat_natCast]
    case isFalse => cases found

/-- Which messages a peer takes. -/
def Deliverable (message : Nat × Json) : Prop :=
  0 < message.1 ∧ message.1 ≤ maxSafeInteger ∧ message.2.isObject = true

instance (message : Nat × Json) : Decidable (Deliverable message) :=
  inferInstanceAs (Decidable (_ ∧ _ ∧ _))

theorem field?_seq (seq : Nat) (payload : Json) :
    (entryJson seq payload).field? (text "seq") = some (.natural seq) := rfl

theorem field?_payload (seq : Nat) (payload : Json) :
    (entryJson seq payload).field? (text "payload") = some payload := rfl

theorem numberedMessage?_of_deliverable {message : Nat × Json}
    (deliverable : Deliverable message) :
    numberedMessage? (entryJson message.1 message.2) = some message := by
  obtain ⟨positive, safe, isObject⟩ := deliverable
  have object : (entryJson message.1 message.2).isObject = true := rfl
  rw [numberedMessage?, field?_seq, field?_payload, safeNatural?_natural,
    if_pos safe, object]
  simp [positive, isObject]

theorem numberedMessage?_eq_none {message : Nat × Json}
    (undeliverable : ¬ Deliverable message) :
    numberedMessage? (entryJson message.1 message.2) = none := by
  have object : (entryJson message.1 message.2).isObject = true := rfl
  rw [numberedMessage?, field?_seq, field?_payload, safeNatural?_natural,
    object]
  by_cases safe : message.1 ≤ maxSafeInteger
  · rw [if_pos safe]
    have wrong : (decide (0 < message.1) && message.2.isObject) = false := by
      rw [← Bool.not_eq_true, Bool.and_eq_true, decide_eq_true_eq]
      intro both
      exact undeliverable ⟨both.1, safe, both.2⟩
    simp [wrong]
  · rw [if_neg safe]
    rfl

section

variable (messages : List (Nat × Json))

theorem mapM_numberedMessage? :
    (messages.map fun message => entryJson message.1 message.2).mapM
    numberedMessage? = if ∀ message ∈ messages,
    Deliverable message then some messages else none := by
  induction messages with
  | nil => rfl
  | cons message messages induction =>
    rw [map_cons, mapM_cons, induction]
    by_cases here : Deliverable message
    · rw [numberedMessage?_of_deliverable here]
      by_cases later : ∀ other ∈ messages, Deliverable other
      · have all : ∀ other ∈ message :: messages, Deliverable other :=
          forall_mem_cons.mpr ⟨here, later⟩
        rw [if_pos later, if_pos all]
        rfl
      · have some : ¬ ∀ other ∈ message :: messages, Deliverable other := by
          intro all
          exact later (forall_mem_cons.mp all).2
        rw [if_neg later, if_neg some]
        rfl
    · have some : ¬ ∀ other ∈ message :: messages, Deliverable other := by
        intro all
        exact here (forall_mem_cons.mp all).1
      rw [numberedMessage?_eq_none here, if_neg some]
      rfl

theorem normalizeMessages_messagesJson :
    normalizeMessages (some (messagesJson messages)) = if messages.length ≤
    64 ∧ ∀ message ∈ messages,
    Deliverable message then some messages else none := by
  rw [messagesJson, normalizeMessages, length_map]
  by_cases few : messages.length ≤ 64
  · rw [if_neg (Nat.not_lt.mpr few), mapM_numberedMessage?]
    simp only [few, true_and]
  · rw [if_pos (Nat.lt_of_not_le few), if_neg fun both => few both.1]

end

theorem collectCallIds_valid {ids : List CallId} (nodup : ids.Nodup)
    {seen : List Text} (fresh : ∀ id ∈ ids, id.val ∉ seen) :
    collectCallIds seen (ids.map fun id => .string id.val) =
    some (ids.map Subtype.val) := by
  induction ids generalizing seen with
  | nil => rfl
  | cons id ids induction =>
    obtain ⟨apart, rest⟩ := nodup_cons.mp nodup
    have new : seen.contains id.val = false := by
      rw [contains_eq_mem, decide_eq_false_iff_not]
      exact fresh id mem_cons_self
    have unseen : ∀ other ∈ ids, other.val ∉ id.val :: seen := by
      intro other member within
      rcases mem_cons.mp within with same | earlier
      · rw [Subtype.ext same] at member
        exact apart member
      · exact fresh other (.tail id member) earlier
    have later := induction rest unseen
    rw [map_cons, collectCallIds, id.property, new, later]
    rfl

variable {content : Text} {pattern : Text → Bool}

theorem matching_string (matched : pattern content = true)
    (missing fallback : Text) :
    matching pattern missing fallback (some (.string content)) = content :=
  if_pos matched

theorem ne_of_matched {other : Text} (matched : pattern content = true)
    (unmatched : pattern other = false) : content ≠ other := by
  rintro rfl
  rw [matched] at unmatched
  cases unmatched

theorem isEmpty_of_matched (matched : pattern content = true)
    (unmatched : pattern [] = false) : content.isEmpty = false := by
  rw [isEmpty_eq_false_iff]
  exact ne_of_matched matched unmatched

theorem matching_optional (unmatched : pattern (text "invalid") = false)
    (value : Option { content : Text // pattern content = true }) :
    matching pattern [] (text "invalid")
        (value.map fun content => .string content.val) =
      value.elim [] Subtype.val ∧
    (value.elim [] Subtype.val == text "invalid") = false := by
  cases value with
  | none => exact ⟨rfl, rfl⟩
  | some content =>
    refine ⟨matching_string content.property _ _, ?_⟩
    rw [beq_eq_false_iff_ne]
    exact ne_of_matched content.property unmatched

theorem normalize_toJson {envelope : RelayEnvelope Json}
    (sessionId : envelope.sessionId.isSome = true)
    (acknowledged : envelope.ackWorkerSeq ≤ maxSafeInteger)
    (nodup : envelope.ownedCallIds.Nodup)
    (few : envelope.ownedCallIds.length ≤ 32) :
    (normalizeDaemonHttpExchange envelope.toJson).map
    NormalizedExchange.messages =
    normalizeMessages (some (messagesJson envelope.messages)) := by
  obtain ⟨session, found⟩ := Option.isSome_iff_exists.mp sessionId
  have object : envelope.toJson.isObject = true := rfl
  have protocol : isOne (envelope.toJson.field? (text "protocol")) = true :=
    rfl
  have sessionField : matching isHttpSessionId [] []
      (envelope.toJson.field? (text "session_id")) = session.val := by
    have field : envelope.toJson.field? (text "session_id") =
        some (.string (envelope.sessionId.elim [] Subtype.val)) := rfl
    rw [field, found]
    exact matching_string session.property _ _
  have instanceField : matching isDaemonInstanceId [] []
      (envelope.toJson.field? (text "instance_id")) =
      envelope.instanceId.val :=
    matching_string envelope.instanceId.property _ _
  have sessionPresent := isEmpty_of_matched session.property (by decide)
  have instancePresent :=
    isEmpty_of_matched envelope.instanceId.property (by decide)
  have unmatchedToken : isActivationToken (text "invalid") = false := by decide
  have unmatchedId : isConnectionId (text "invalid") = false := by decide
  obtain ⟨token, tokenValid⟩ :=
    matching_optional unmatchedToken envelope.activationToken
  obtain ⟨connection, connectionValid⟩ :=
    matching_optional unmatchedId envelope.takeoverWebSocketConnectionId
  rw [← field?_activationToken] at token
  rw [← field?_takeoverWebSocketConnectionId] at connection
  have owned :
      normalizeCallIds (envelope.toJson.field? (text "owned_call_ids")) =
      some (envelope.ownedCallIds.map Subtype.val) := by
    rw [field?_ownedCallIds, normalizeCallIds, length_map,
      if_neg (Nat.not_lt.mpr few)]
    exact collectCallIds_valid nodup (fun _ _ => not_mem_nil)
  have number : safeNatural? (envelope.toJson.field? (text "ack_worker_seq")) =
      some envelope.ackWorkerSeq := by
    rw [field?_ackWorkerSeq, safeNatural?_natural, if_pos acknowledged]
  have flag :
      takeoverFlag (envelope.toJson.field? (text "takeover_websocket")) =
      some envelope.takeoverWebSocketConnectionId.isSome := by
    rw [field?_takeoverWebSocket]
    cases envelope.takeoverWebSocketConnectionId <;> rfl
  have consistent : (envelope.takeoverWebSocketConnectionId.isSome ==
      (envelope.takeoverWebSocketConnectionId.elim []
        Subtype.val).isEmpty) = false := by
    cases envelope.takeoverWebSocketConnectionId with
    | none => rfl
    | some id =>
      have present := isEmpty_of_matched id.property (by decide)
      simp [present]
  rw [normalizeDaemonHttpExchange]
  simp only [object, protocol, sessionField, instanceField, sessionPresent,
    instancePresent, token, tokenValid, connection, connectionValid, number,
    flag, owned, field?_messages, Bool.not_true, Bool.or_self,
    Bool.false_eq_true, if_false]
  cases normalizeMessages (some (messagesJson envelope.messages)) with
  | none => rfl
  | some messages =>
    simp only [consistent, Bool.false_eq_true, if_false, Option.map_some]

theorem isSome_numberedMessage? (message : Nat × Json) :
    (numberedMessage? (entryJson message.1 message.2)).isSome = true ↔
    Deliverable message := by
  by_cases deliverable : Deliverable message
  · rw [numberedMessage?_of_deliverable deliverable]
    exact iff_of_true rfl deliverable
  · rw [numberedMessage?_eq_none deliverable]
    exact iff_of_false nofun deliverable

theorem validResponse_relayResponse (phase : RelayPhase)
    (token : ActivationToken) {ackDaemonSeq : Nat}
    (acknowledged : ackDaemonSeq ≤ maxSafeInteger)
    (messages : List (Nat × Json)) :
    validResponse (relayResponse phase (some token) ackDaemonSeq messages) =
    true ↔ messages.length ≤ 64 ∧ ∀ message ∈ messages,
    Deliverable message := by
  let response := relayResponse phase (some token) ackDaemonSeq messages
  have object : response.isObject = true := rfl
  have protocol : isOne (response.field? (text "protocol")) = true := rfl
  have phaseField : response.field? (text "phase") =
      some (.string phase.name) := rfl
  have phasePresent : (matching (fun name => name == text "probing" ||
      name == text "ready" || name == text "standby") [] []
      (some (.string phase.name))).isEmpty = false := by
    cases phase <;> rfl
  have number : safeNatural? (response.field? (text "ack_daemon_seq")) =
      some ackDaemonSeq := by
    have field : response.field? (text "ack_daemon_seq") =
        some (.natural ackDaemonSeq) := rfl
    rw [field, safeNatural?_natural, if_pos acknowledged]
  have tokenField : matching isActivationToken [] []
      (response.field? (text "activation_token")) = token.val :=
    matching_string token.property _ _
  have tokenPresent := isEmpty_of_matched token.property (by decide)
  have messagesField : response.field? (text "messages") =
      some (.array (messages.map fun message =>
        entryJson message.1 message.2)) := rfl
  have each : ((messages.map fun message =>
      entryJson message.1 message.2).all fun item =>
        (numberedMessage? item).isSome) = true ↔
      ∀ message ∈ messages, Deliverable message := by
    rw [all_map, all_eq_true]
    exact forall₂_congr fun message _ => isSome_numberedMessage? message
  show validResponse response = true ↔ _
  rw [validResponse]
  simp only [object, protocol, phaseField, phasePresent, number, tokenField,
    tokenPresent, messagesField, length_map, Bool.not_false,
    Bool.and_true, Bool.or_true, Option.isSome_some, Bool.true_and,
    Bool.and_eq_true, decide_eq_true_eq, each]

end ExchangeJson

end MachineBridge.Relay
