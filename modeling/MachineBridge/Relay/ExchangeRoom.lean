import MachineBridge.Relay.ExchangeJson
import MachineBridge.Relay.PollingQueue
import Mathlib.Algebra.Order.BigOperators.Group.List

/-!
# Room for the head of a queue

The fixed fields of a request and of a response leave room for the first
message of a queue, because a message is admitted only up to a size which is
that much smaller than the largest envelope.
-/

namespace MachineBridge.Relay

open Foundation List

theorem identifier_plain {label content : Text} {low high : Nat}
    (plain : label.all isPlain = true)
    (matched : labelled label (fits isBase64Url low high) content = true) :
    content.all isPlain = true ∧ content.length ≤ label.length + high := by
  rw [labelled, Bool.and_eq_true, fits_iff] at matched
  obtain ⟨start, -, short, allowed⟩ := matched
  obtain ⟨rest, same⟩ := isPrefixOf_iff_prefix.mp start
  subst same
  rw [drop_left] at short allowed
  constructor
  · rw [all_append, plain, Bool.true_and, all_eq_true]
    intro unit member
    exact isPlain_of_isBase64Url (all_eq_true.mp allowed unit member)
  · rw [length_append]
    exact Nat.add_le_add_left short _

variable (numbers : NumberFormat)

theorem byteSize_identifier {label content : Text} {low high : Nat}
    (plain : label.all isPlain = true)
    (matched : labelled label (fits isBase64Url low high) content = true) :
    Json.byteSize numbers (.string content) ≤ label.length + high + 2 := by
  obtain ⟨written, short⟩ := identifier_plain plain matched
  rw [Json.byteSize_string numbers written]
  exact Nat.add_le_add_right short 2

def fieldsSize (fields : List (Text × Json)) : Nat :=
  (fields.map fun field => Json.fieldSize numbers field + 1).sum

theorem fieldsSize_append (before after : List (Text × Json)) :
    fieldsSize numbers (before ++ after) = fieldsSize numbers before +
    fieldsSize numbers after := by
  rw [fieldsSize, map_append, sum_append]
  rfl

theorem fieldsSize_cons {key : Text} (plain : key.all isPlain = true)
    (value : Json) (fields : List (Text × Json)) :
    fieldsSize numbers ((key, value) :: fields) = key.length + 4 +
    Json.byteSize numbers value + fieldsSize numbers fields := by
  rw [fieldsSize, map_cons, sum_cons, Json.fieldSize, byteLength_quoted plain]
  simp only [fieldsSize]
  omega

theorem byteSize_fields {fields : List (Text × Json)} (some : fields ≠ []) :
    Json.byteSize numbers (.object fields) = 1 +
    fieldsSize numbers fields := by
  rw [Json.byteSize_object, if_neg some]
  rfl

theorem byteSize_natural_le {number : Nat}
    (small : number ≤ maxSafeInteger + 1) :
    Json.byteSize numbers (.natural number) ≤ 16 := by
  rw [Json.byteSize_natural numbers small]
  apply decimal_length_le (by decide)
  exact Nat.lt_of_le_of_lt small (by decide)

theorem byteSize_entryJson_le {seq : Nat} (small : seq ≤ maxSafeInteger + 1)
    (payload : Json) : Json.byteSize numbers (entryJson seq payload) ≤
    Json.byteSize numbers payload + 35 := by
  have digits := byteSize_natural_le numbers small
  have first : (text "seq").length = 3 := rfl
  have second : (text "payload").length = 7 := rfl
  rw [entryJson, byteSize_fields numbers (cons_ne_nil _ _),
    fieldsSize_cons numbers (by decide), fieldsSize_cons numbers (by decide),
    first, second]
  have none : fieldsSize numbers [] = 0 := rfl
  omega

/-- The octets of a numbered message. -/
def entryBytes (seq : Nat) (payload : Json) : Nat :=
  Json.byteSize numbers (entryJson seq payload)

theorem byteSize_messagesJson (messages : List (Nat × Json)) :
    Json.byteSize numbers (messagesJson messages) = if messages =
    [] then 2 else 1 + takenBytes (entryBytes numbers) 1 messages := by
  rw [messagesJson, Json.byteSize_array, map_map]
  simp only [map_eq_nil_iff]
  rfl

theorem byteSize_ownedCallIds_le {ids : List CallId} (few : ids.length ≤ 32) :
    Json.byteSize numbers (.array (ids.map fun id => .string id.val)) ≤
    8000 := by
  have each : ∀ size ∈ (ids.map fun id => Json.string id.val).map
      (fun item => Json.byteSize numbers item + 1), size ≤ 248 := by
    intro size member
    obtain ⟨item, inner, rfl⟩ := List.mem_map.mp member
    obtain ⟨id, -, rfl⟩ := List.mem_map.mp inner
    have short := byteSize_identifier numbers (by decide) id.property
    exact Nat.succ_le_succ short
  have total := sum_le_card_nsmul _ _ each
  rw [length_map, length_map, Nat.nsmul_eq_mul] at total
  rw [Json.byteSize_array]
  split
  · decide
  · omega

theorem byteSize_toJson (envelope : RelayEnvelope Json) : Json.byteSize numbers
    envelope.toJson = Json.byteSize numbers (.natural 1) + Json.byteSize
    numbers (.string (envelope.sessionId.elim [] Subtype.val)) + Json.byteSize
    numbers (.string envelope.instanceId.val) + fieldsSize numbers
    (optionalFields envelope.activationToken fun token => [(text
    "activation_token", .string token.val)]) + Json.byteSize numbers
    (.natural envelope.ackWorkerSeq) + Json.byteSize numbers
    (.array (envelope.ownedCallIds.map fun id => .string id.val)) +
    Json.byteSize numbers (messagesJson envelope.messages) + fieldsSize numbers
    (optionalFields envelope.takeoverWebSocketConnectionId fun id => [(text
    "takeover_websocket", .boolean true), (text
    "takeover_websocket_connection_id", .string id.val)]) + fieldsSize numbers
    (optionalFields envelope.descriptor fun descriptor => [(text "tools",
    descriptor.tools), (text "policy", descriptor.policy), (text
    "relay_diagnostics", descriptor.relayDiagnostics)]) + 90 := by
  have some : envelope.fields ≠ [] := cons_ne_nil _ _
  have none : fieldsSize numbers [] = 0 := rfl
  have lengths : (text "protocol").length = 8 ∧
      (text "session_id").length = 10 ∧ (text "instance_id").length = 11 ∧
      (text "ack_worker_seq").length = 14 ∧
      (text "owned_call_ids").length = 14 ∧ (text "messages").length = 8 :=
    ⟨rfl, rfl, rfl, rfl, rfl, rfl⟩
  obtain ⟨protocol, session, instanceId, ack, owned, messages⟩ := lengths
  rw [RelayEnvelope.toJson, byteSize_fields numbers some, RelayEnvelope.fields,
    fieldsSize_append, fieldsSize_append, fieldsSize_append, fieldsSize_append,
    fieldsSize_cons numbers (by decide), fieldsSize_cons numbers (by decide),
    fieldsSize_cons numbers (by decide), fieldsSize_cons numbers (by decide),
    fieldsSize_cons numbers (by decide), fieldsSize_cons numbers (by decide),
    none, protocol, session, instanceId, ack, owned, messages]
  omega

theorem byteSize_toJson_le {envelope : RelayEnvelope Json}
    (descriptor : envelope.descriptor = none)
    (messages : envelope.messages = [])
    (acknowledged : envelope.ackWorkerSeq ≤ maxSafeInteger)
    (few : envelope.ownedCallIds.length ≤ 32) :
    Json.byteSize numbers envelope.toJson ≤ 9000 := by
  have one : Json.byteSize numbers (.natural 1) ≤ 16 :=
    byteSize_natural_le numbers (by decide)
  have number := byteSize_natural_le numbers (Nat.le_succ_of_le acknowledged)
  have owned := byteSize_ownedCallIds_le numbers few
  have session : Json.byteSize numbers
      (.string (envelope.sessionId.elim [] Subtype.val)) ≤ 56 := by
    cases envelope.sessionId with
    | none =>
      rw [Json.byteSize_string numbers rfl]
      decide
    | some id => exact byteSize_identifier numbers (by decide) id.property
  have instanceId := byteSize_identifier numbers (by decide)
    envelope.instanceId.property
  have token : fieldsSize numbers (optionalFields envelope.activationToken
      fun token => [(text "activation_token", .string token.val)]) ≤ 74 := by
    cases envelope.activationToken with
    | none => exact Nat.zero_le 74
    | some token =>
      have size := byteSize_identifier numbers (by decide) token.property
      rw [optionalFields, Option.elim_some,
        fieldsSize_cons numbers (by decide)]
      exact Nat.add_le_add_left size 20
  have takeover : fieldsSize numbers (optionalFields
      envelope.takeoverWebSocketConnectionId fun id => [(text
      "takeover_websocket", .boolean true), (text
      "takeover_websocket_connection_id", .string id.val)]) ≤ 118 := by
    cases envelope.takeoverWebSocketConnectionId with
    | none => exact Nat.zero_le 118
    | some id =>
      have size := byteSize_identifier numbers (by decide) id.property
      have flag : Json.byteSize numbers (.boolean true) = 4 := rfl
      rw [optionalFields, Option.elim_some,
        fieldsSize_cons numbers (by decide),
        fieldsSize_cons numbers (by decide), flag]
      exact Nat.add_le_add_left (Nat.add_le_add_left size 36) 26
  have label : (text "daemon_").length + 96 + 2 = 105 := rfl
  have empty : Json.byteSize numbers (messagesJson []) = 2 := rfl
  rw [byteSize_toJson, descriptor, messages, empty]
  have none : fieldsSize numbers (optionalFields Option.none fun descriptor :
      Descriptor Json => [(text "tools", descriptor.tools),
        (text "policy", descriptor.policy),
        (text "relay_diagnostics", descriptor.relayDiagnostics)]) = 0 := rfl
  omega

theorem byteSize_toJson_messages (envelope : RelayEnvelope Json) :
    Json.byteSize numbers envelope.toJson + 2 =
      Json.byteSize numbers { envelope with messages := [] }.toJson +
        Json.byteSize numbers (messagesJson envelope.messages) := by
  have empty : Json.byteSize numbers (messagesJson []) = 2 := rfl
  rw [byteSize_toJson, byteSize_toJson numbers { envelope with messages := [] },
    empty]
  dsimp only
  omega

end MachineBridge.Relay
