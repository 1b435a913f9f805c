import MachineBridge.Browser.RoutingInvariant

/-!
# Steps of the broker and its clients

Each change of the tables, the sockets and the requests keeps the invariant;
the handlers are put together from these changes.
-/

namespace MachineBridge.Browser

open Foundation List

section Sockets

variable {socket : Socket}

section

variable (messages : List BrokerMessage)

@[simp] theorem client_send :
    (socket.send messages).client = socket.client := by
  rw [Socket.send]
  split <;> rfl

@[simp] theorem requests_send :
    (socket.send messages).requests = socket.requests := by
  rw [Socket.send]
  split <;> rfl

end

theorem mem_send {messages : List BrokerMessage} {message : BrokerMessage}
    (member : message ∈ (socket.send messages).toClient) :
    message ∈ socket.toClient ∨ message ∈ messages := by
  rw [Socket.send] at member
  split at member
  · exact mem_append.mp member
  · exact .inl member

section

variable (messages : List ClientMessage)

@[simp] theorem client_sendBroker :
    (socket.sendBroker messages).client = socket.client := by
  rw [Socket.sendBroker]
  split <;> rfl

@[simp] theorem toClient_sendBroker :
    (socket.sendBroker messages).toClient = socket.toClient := by
  rw [Socket.sendBroker]
  split <;> rfl

theorem requests_sendBroker :
    (socket.sendBroker messages).requests = socket.requests ∨
    (socket.sendBroker messages).requests = socket.requests ++
    messages.filterMap ClientMessage.asRequest := by
  rw [Socket.sendBroker]
  split
  · exact .inr (filterMap_append)
  · exact .inl rfl

end

theorem requests_sendCancels (ids : List Nat) :
    (socket.sendBroker (ids.map .cancel)).requests = socket.requests := by
  have none :
      (ids.map ClientMessage.cancel).filterMap ClientMessage.asRequest =
      [] := by
    rw [filterMap_eq_nil_iff]
    intro message member
    obtain ⟨id, -, rfl⟩ := List.mem_map.mp member
    rfl
  rcases requests_sendBroker (ids.map ClientMessage.cancel) with same | same
  · exact same
  · rw [same, none, append_nil]

end Sockets

namespace BrowserWorld

variable {world : BrowserWorld}

@[simp] theorem sockets_setSocket_self (number : Nat) (socket : Socket) :
    (world.setSocket number socket).sockets number = socket :=
  Function.update_self _ _ _

theorem sockets_setSocket_of_ne {number other : Nat}
    (different : other ≠ number) (socket : Socket) :
    (world.setSocket number socket).sockets other = world.sockets other :=
  Function.update_of_ne different _ _

theorem Invariant.sockets (invariant : world.Invariant)
    {sockets : Nat → Socket}
    (client : ∀ socket, (sockets socket).client =
      (world.sockets socket).client)
    (requests : ∀ socket, (sockets socket).requests.Sublist
      (world.sockets socket).requests)
    (responses : ∀ socket id message observed,
      .response id message observed ∈ (sockets socket).toClient →
      .response id message observed ∈ (world.sockets socket).toClient ∨
        (id < world.issued ∧ (world.requests id).Returns
          (world.sockets socket).client message observed)) :
    ({ world with sockets }).Invariant where
  __ := invariant
  waiting := by
    intro socket entry member
    rw [client]
    exact invariant.waiting socket entry ((requests socket).subset member)
  single := fun socket =>
    (invariant.single socket).sublist ((requests socket).map Prod.fst)
  routed := by
    intro number route found
    rw [client]
    exact invariant.routed number route found
  responses := by
    intro socket id message observed member
    rw [client]
    rcases responses socket id message observed member with old | justified
    · exact invariant.responses socket id message observed old
    · exact justified
  upstream := by
    intro number socket found
    rw [client]
    exact invariant.upstream number socket found

theorem Invariant.setSocket (invariant : world.Invariant) (number : Nat)
    {socket : Socket} (client : socket.client = (world.sockets number).client)
    (requests : socket.requests.Sublist (world.sockets number).requests)
    (responses : ∀ id message observed,
      .response id message observed ∈ socket.toClient →
      .response id message observed ∈ (world.sockets number).toClient ∨
      (id < world.issued ∧ (world.requests id).Returns
        (world.sockets number).client message observed)) :
    (world.setSocket number socket).Invariant := by
  apply invariant.sockets
  · intro other
    by_cases same : other = number
    · subst same
      rw [Function.update_self]
      exact client
    · rw [Function.update_of_ne same]
  · intro other
    by_cases same : other = number
    · subst same
      rw [Function.update_self]
      exact requests
    · rw [Function.update_of_ne same]
  · intro other id message observed member
    by_cases same : other = number
    · subst same
      rw [Function.update_self] at member
      exact responses id message observed member
    · rw [Function.update_of_ne same] at member
      exact .inl member

theorem Invariant.setEnd (invariant : world.Invariant) (number : Nat)
    (socket : Socket) (client : socket.client = (world.sockets number).client)
    (toBroker : socket.toBroker = (world.sockets number).toBroker)
    (toClient : socket.toClient = (world.sockets number).toClient) :
    (world.setSocket number socket).Invariant := by
  apply invariant.setSocket number client
  · rw [Socket.requests, Socket.requests, toBroker]
  · intro id message observed member
    rw [toClient] at member
    exact .inl member

theorem Invariant.quiet (invariant : world.Invariant)
    (extension : Option Extension) (toExtension : List ExtensionMessage)
    (brokerClients : List Nat) :
    ({ world with extension, toExtension, brokerClients }).Invariant where
  __ := invariant

theorem Invariant.setClient (invariant : world.Invariant) (number : Nat)
    (client : Client) (attached : ∀ socket, client.upstream = some socket →
      socket < world.nextSocket ∧ (world.sockets socket).client = number) :
    (world.setClient number client).Invariant where
  __ := invariant
  upstream := by
    intro other socket found
    change (Function.update world.clients number client other).upstream =
      some socket at found
    by_cases same : other = number
    · subst same
      rw [Function.update_self] at found
      exact attached socket found
    · rw [Function.update_of_ne same] at found
      exact invariant.upstream other socket found

theorem Invariant.sendExtension (invariant : world.Invariant)
    (messages : List ExtensionMessage) :
    (world.sendExtension messages).Invariant := by
  rw [BrowserWorld.sendExtension]
  split
  · exact invariant
  · split
    · exact invariant.quiet world.extension (world.toExtension ++ messages)
        world.brokerClients
    · exact invariant

theorem Invariant.reject (invariant : world.Invariant) (caller : Caller)
    (selected : Nat → Pending → Bool) (code : BrowserErrorCode)
    (fallback : Pending → Text) (terminationRequested : Bool) :
    (world.settlePending caller selected (fun pending => .rejected
    (browserRequestTransportError pending code (fallback pending)
    terminationRequested)) false).Invariant := by
  apply settlePending_invariant invariant
  intro id pending found _
  obtain ⟨method, attempted⟩ := invariant.sent caller id pending found
  exact transportError_justified method attempted code (fallback pending)
    terminationRequested false

theorem Invariant.sendCancelQuietly (invariant : world.Invariant)
    (caller : Caller) (transport : Option Nat) (ids : List Nat) :
    (world.sendCancelQuietly caller transport ids).Invariant := by
  cases caller with
  | owner => exact invariant.sendExtension _
  | client number =>
    cases transport with
    | none => exact invariant
    | some socket =>
      simp only [BrowserWorld.sendCancelQuietly]
      split
      · exact invariant
      · apply invariant.setSocket socket
        · exact client_sendBroker _
        · rw [requests_sendCancels]
        · intro id message observed member
          rw [toClient_sendBroker] at member
          exact .inl member

theorem timeout_invariant (invariant : world.Invariant) (caller : Caller)
    (id : Nat) : (world.timeout caller id).Invariant := by
  rw [timeout]
  split
  · exact invariant
  case h_2 pending found =>
    exact (invariant.sendCancelQuietly caller pending.transport
      [id]).reject caller _ _ Pending.timeoutMessage _

theorem cancelCall_invariant (invariant : world.Invariant) (caller : Caller)
    (callId : Text) (timedOut : Bool) :
    (world.cancelCall caller callId timedOut).Invariant := by
  rw [cancelCall]
  split
  · exact invariant
  · exact (invariant.sendCancelQuietly caller _ _).reject caller _ _
      (fun _ => if timedOut then text "browser request timed out"
        else text "browser request cancelled") _

theorem rejectPending_invariant (invariant : world.Invariant) (caller : Caller)
    (message : Text) : (world.rejectPending caller message).Invariant :=
  invariant.reject caller _ _ (fun _ => message) _

variable {caller : Caller} {id : Nat} {pending : Pending} {request : Request}

theorem settle_invariant (invariant : world.Invariant)
    {message : ResponseMessage} {observed : Bool}
    (answered : (world.requests id).AnsweredBy message observed) :
    (world.settle caller id message observed).Invariant := by
  apply settlePending_invariant invariant
  intro other pending found chosen
  obtain rfl : other = id := by simpa using chosen
  obtain ⟨method, attempted⟩ := invariant.sent caller other pending found
  exact settleResponse_justified method attempted answered

theorem ownResponse_justified (method : pending.method = request.method)
    (attempted : pending.dispatchAttempted = true)
    (message : ResponseMessage) : (request.answer message).Justified
    (settleResponse message pending) (wellFormed message) where
  rejected := by
    intro error same mutates
    have mutation : pending.mutation = true := by
      have mutates : browserMethodMayMutate request.method = true := mutates
      rw [Pending.mutation, attempted, method, mutates]
      rfl
    rw [settleResponse] at same
    rw [wellFormed]
    split at same
    case h_1 failed =>
      split at same
      case h_1 invalid =>
        cases same
        exact .inl (invalidResponse_statesUnknown mutation)
      case h_2 valid => simp [failed, valid]
    case h_2 success =>
      split at same
      · cases same
      case h_2 =>
        cases same
        exact .inl (invalidResponse_statesUnknown mutation)
    case h_3 =>
      cases same
      exact .inl (invalidResponse_statesUnknown mutation)
  resolved := by
    intro result same
    rw [settleResponse] at same
    split at same
    · split at same <;> cases same
    case h_2 success =>
      split at same
      case h_1 found =>
        cases same
        exact ⟨message, mem_cons_self, success, found⟩
      · cases same
    · cases same

theorem settleRoutes_invariant (invariant : world.Invariant)
    {selected : Nat → Route → Bool}
    {answer : Route → Option (ResponseMessage × Bool)}
    (answered : ∀ number route, world.routes.get? number = some route →
      selected number route = true → ∀ response, answer route = some response →
      (world.requests route.id).AnsweredBy response.1 response.2) :
    (world.settleRoutes selected answer).Invariant := by
  have tables : ({ world with
      routes := (world.settleRoutes selected answer).routes
      routesSettled := (world.settleRoutes selected answer).routesSettled
      : BrowserWorld }).Invariant := by
    refine ⟨invariant.fair, invariant.pending, invariant.sent, ?_, ?_, ?_,
      invariant.waiting, invariant.single, ?_, invariant.responses,
      invariant.upstream⟩
    · intro number
      change number ∈ (world.routes.filter _).keys ↔ _
      rw [Record.mem_keys]
      simp only [settleRoutes]
      split
      case h_1 route found =>
        have open' := (invariant.routes number).mp (Record.mem_keys.mpr
          ⟨route, Record.get?_eq_some.mp found⟩)
        split
        case isTrue chosen =>
          constructor
          · rintro ⟨stored, member⟩
            obtain ⟨there, kept⟩ := Record.mem_filter.mp member
            rw [Record.get?_eq_some.mpr there] at found
            cases found
            rw [chosen] at kept
            cases kept
          · rintro ⟨-, settled⟩
            cases settled
        case isFalse spared =>
          constructor
          · exact fun _ => open'
          · intro _
            refine ⟨route, Record.mem_filter.mpr
              ⟨Record.get?_eq_some.mp found, ?_⟩⟩
            simpa using spared
      case h_2 absent =>
        rw [← invariant.routes number, Record.mem_keys]
        constructor
        · rintro ⟨route, member⟩
          exact ⟨route, (Record.mem_filter.mp member).1⟩
        · rintro ⟨route, member⟩
          rw [Record.get?_eq_some.mpr member] at absent
          cases absent
    · intro number
      simp only [settleRoutes]
      split
      case h_1 route found =>
        have open' := (invariant.routes number).mp (Record.mem_keys.mpr
          ⟨route, Record.get?_eq_some.mp found⟩)
        rw [open'.2]
        split
        · exact Nat.le_refl _
        · exact Nat.zero_le _
      case h_2 => exact invariant.routesOnce number
    · intro number fresh
      simp only [settleRoutes]
      split
      case h_1 route found =>
        have open' := (invariant.routes number).mp (Record.mem_keys.mpr
          ⟨route, Record.get?_eq_some.mp found⟩)
        exact absurd open'.1 (Nat.not_lt_of_le fresh)
      case h_2 => exact invariant.unopened number fresh
    · intro number route found
      apply invariant.routed number route
      have member := Record.get?_eq_some.mp found
      exact Record.get?_eq_some.mpr (Record.mem_filter.mp member).1
  refine tables.sockets ?_ ?_ ?_
  · intro socket
    exact client_send _
  · intro socket
    rw [requests_send]
  · intro socket id message observed member
    rcases mem_send member with old | new
    · exact .inl old
    · apply Or.inr
      obtain ⟨⟨number, route⟩, listed, made⟩ := mem_filterMap.mp new
      split at made
      case isTrue chosen =>
        obtain ⟨picked, target⟩ := (Bool.and_eq_true _ _).mp chosen
        obtain rfl : route.socket = socket := by simpa using target
        obtain ⟨response, found, same⟩ := Option.map_eq_some_iff.mp made
        cases same
        have stored := Record.get?_eq_some.mpr listed
        obtain ⟨issued, bound, routed⟩ := invariant.routed number route stored
        exact ⟨issued, routed.caller,
          answered number route stored picked response found⟩
      case isFalse => cases made

theorem failure_answeredBy {route : Route} {client : Nat}
    (routed : request.RoutedBy route client) (fallback : Text) :
    request.AnsweredBy (failure (postDispatchRouteFailure route fallback))
    false where
  consumed := routed.consumed
  resolved := nofun
  rejected := by
    intro mutates
    refine .inr (.inr ⟨rfl, ?_⟩)
    rw [routed.method] at mutates
    rw [failure, postDispatchRouteFailure, if_pos routed.attempted,
      browserPostDispatchTransportFailure, if_pos mutates]

theorem rejectProxyRoutes_invariant (invariant : world.Invariant)
    (message : Text) : (world.rejectProxyRoutes message).Invariant := by
  apply settleRoutes_invariant invariant
  rintro number route found - response ⟨⟩
  obtain ⟨-, -, routed⟩ := invariant.routed number route found
  exact failure_answeredBy routed message

theorem cancelRoutes_invariant (invariant : world.Invariant)
    (selected : Nat → Route → Bool) :
    (world.cancelRoutes selected).Invariant := by
  apply Invariant.sendExtension
  apply settleRoutes_invariant invariant
  rintro number route found - response ⟨⟩

theorem routeTimeout_invariant (invariant : world.Invariant) (number : Nat) :
    (world.routeTimeout number).Invariant := by
  rw [routeTimeout]
  split
  · exact invariant
  · apply Invariant.sendExtension
    apply settleRoutes_invariant invariant
    rintro other route found - response ⟨⟩
    obtain ⟨-, -, routed⟩ := invariant.routed other route found
    exact failure_answeredBy routed _

theorem removeClient_invariant (invariant : world.Invariant) (socket : Nat) :
    (world.removeClient socket).Invariant := by
  apply cancelRoutes_invariant
  exact invariant.quiet world.extension world.toExtension
    (world.brokerClients.filter (· != socket))

theorem forward_answeredBy {route : Route} {client : Nat}
    (routed : request.RoutedBy route client) {message : ResponseMessage}
    (known : message ∈ request.answers) : request.AnsweredBy
    (forward message route).1 (forward message route).2 := by
  have malformed := failure_answeredBy routed
    (text "browser extension response was malformed")
  rw [forward]
  split
  case h_1 success =>
    split
    case h_1 result found =>
      refine ⟨routed.consumed, ?_, fun _ => .inl rfl⟩
      rintro _ - ⟨⟩
      exact ⟨message, known, success, found⟩
    case h_2 => exact malformed
  case h_2 =>
    split
    case h_1 => exact ⟨routed.consumed, nofun, fun _ => .inl rfl⟩
    case h_2 => exact malformed
  case h_3 => exact malformed

theorem settleExtensionResponse_invariant (invariant : world.Invariant)
    (number : Nat) (message : ResponseMessage) :
    (world.settleExtensionResponse number message).Invariant := by
  rw [settleExtensionResponse]
  split
  · exact invariant
  case h_2 route found =>
    have answered := invariant.answer route.id message
    apply settleRoutes_invariant answered
    intro other stored there chosen response same
    obtain rfl : other = number := by simpa using chosen
    change world.routes.get? other = _ at there
    rw [found] at there
    cases there
    cases same
    obtain ⟨-, -, routed⟩ := answered.routed other route found
    apply forward_answeredBy routed
    rw [requests_changeRequest_self]
    exact mem_cons_self

theorem issue_invariant (invariant : world.Invariant)
    {registries : Caller → Record Nat Pending} (fair : request.Fair)
    (pending : ∀ caller id, id ∈ (registries caller).keys ↔
      id ∈ (world.registries caller).keys ∨
        (id = world.issued ∧ request.caller = caller ∧
          request.settlements = []))
    (sent : ∀ caller id entry, (registries caller).get? id = some entry →
      (world.registries caller).get? id = some entry ∨
        (id = world.issued ∧ entry.method = request.method ∧
          entry.dispatchAttempted = true)) :
    ({ world with
      registries
      requests := Function.update world.requests world.issued request
      issued := world.issued + 1 }).Invariant := by
  have old : ∀ {id}, id < world.issued →
      Function.update world.requests world.issued request id =
        world.requests id := fun before =>
    Function.update_of_ne (Nat.ne_of_lt before) _ _
  refine ⟨?_, ?_, ?_, invariant.routes, invariant.routesOnce,
    invariant.unopened, ?_, invariant.single, ?_, ?_, invariant.upstream⟩
  · intro id
    dsimp only
    by_cases same : id = world.issued
    · subst same
      rw [Function.update_self]
      exact fair
    · rw [Function.update_of_ne same]
      exact invariant.fair id
  · intro caller id
    dsimp only
    rw [pending caller id, invariant.pending caller id]
    by_cases same : id = world.issued
    · subst same
      rw [Function.update_self]
      constructor
      · rintro (⟨before, -⟩ | ⟨-, own⟩)
        · exact absurd before (Nat.lt_irrefl _)
        · exact ⟨Nat.lt_succ_self _, own⟩
      · rintro ⟨-, own⟩
        exact .inr ⟨rfl, own⟩
    · rw [Function.update_of_ne same]
      constructor
      · rintro (⟨before, known⟩ | ⟨equal, -⟩)
        · exact ⟨Nat.lt_succ_of_lt before, known⟩
        · exact absurd equal same
      · rintro ⟨bound, known⟩
        exact .inl ⟨Nat.lt_of_le_of_ne (Nat.le_of_lt_succ bound) same, known⟩
  · intro caller id entry found
    dsimp only
    rcases sent caller id entry found with before | ⟨same, method, attempted⟩
    · have known := (invariant.pending caller id).mp (Record.mem_keys.mpr
        ⟨entry, Record.get?_eq_some.mp before⟩)
      rw [old known.1]
      exact invariant.sent caller id entry before
    · rw [same, Function.update_self]
      exact ⟨method, attempted⟩
  · intro socket entry member
    obtain ⟨before, waits⟩ := invariant.waiting socket entry member
    refine ⟨Nat.lt_succ_of_lt before, ?_⟩
    dsimp only
    rw [old before]
    exact waits
  · intro number route found
    obtain ⟨before, bound, routed⟩ := invariant.routed number route found
    refine ⟨Nat.lt_succ_of_lt before, bound, ?_⟩
    dsimp only
    rw [old before]
    exact routed
  · intro socket id message observed member
    obtain ⟨before, returns⟩ :=
      invariant.responses socket id message observed member
    refine ⟨Nat.lt_succ_of_lt before, ?_⟩
    dsimp only
    rw [old before]
    exact returns

theorem refuse_invariant (invariant : world.Invariant) (caller : Caller)
    (method message : Text) :
    (world.refuse caller method message).Invariant := by
  apply issue_invariant invariant
  · refine ⟨Nat.le_refl _, fun _ => rfl, ?_⟩
    intro settlement member
    obtain rfl := mem_singleton.mp member
    exact ⟨by simp, by simp⟩
  · intro other id
    constructor
    · exact .inl
    · rintro (known | ⟨-, -, settled⟩)
      · exact known
      · cases settled
  · exact fun _ _ _ found => .inl found

theorem register_invariant (invariant : world.Invariant) (caller : Caller)
    (attempted : pending.dispatchAttempted = true) :
    (world.register caller pending).Invariant := by
  apply issue_invariant invariant
  · exact ⟨Nat.zero_le _, nofun, List.forall_mem_nil _⟩
  · intro other id
    by_cases own : other = caller
    · subst own
      rw [Function.update_self, Record.mem_keys, Record.mem_keys]
      constructor
      · rintro ⟨entry, member⟩
        rcases Record.mem_set.mp member with ⟨same, -⟩ | ⟨-, before⟩
        · exact .inr ⟨same, rfl, rfl⟩
        · exact .inl ⟨entry, before⟩
      · rintro (⟨entry, before⟩ | ⟨same, -, -⟩)
        · have known := (invariant.pending other id).mp
            (Record.mem_keys.mpr ⟨entry, before⟩)
          exact ⟨entry, Record.mem_set.mpr
            (.inr ⟨Nat.ne_of_lt known.1, before⟩)⟩
        · exact ⟨pending, Record.mem_set.mpr (.inl ⟨same, rfl⟩)⟩
    · rw [Function.update_of_ne own]
      constructor
      · exact .inl
      · rintro (known | ⟨-, same, -⟩)
        · exact known
        · exact absurd same.symm own
  · intro other id entry found
    by_cases own : other = caller
    · subst own
      rw [Function.update_self, Record.get?_eq_some] at found
      rcases Record.mem_set.mp found with ⟨same, rfl⟩ | ⟨-, before⟩
      · exact .inr ⟨same, rfl, attempted⟩
      · exact .inl (Record.get?_eq_some.mpr before)
    · rw [Function.update_of_ne own] at found
      exact .inl found

theorem enqueue_invariant (invariant : world.Invariant) {socket : Nat}
    {method : Text} {params : Params} {timeoutMs : Int} (issued : id <
    world.issued) (waits : (world.requests id).Waits socket (world.sockets
    socket).client method) (gone : ∀ other entry, entry ∈ (world.sockets
    other).requests → entry.1 ≠ id) : (world.setSocket socket ((world.sockets
    socket).sendBroker [.request id method params timeoutMs])).Invariant := by
  have client : ∀ other, ((world.setSocket socket ((world.sockets
      socket).sendBroker [.request id method params timeoutMs])).sockets
      other).client = (world.sockets other).client := by
    intro other
    by_cases equal : other = socket
    · subst equal
      rw [sockets_setSocket_self, client_sendBroker]
    · rw [sockets_setSocket_of_ne equal]
  refine ⟨invariant.fair, invariant.pending, invariant.sent, invariant.routes,
    invariant.routesOnce, invariant.unopened, ?_, ?_, ?_, ?_, ?_⟩
  · intro other entry member
    rw [client]
    by_cases equal : other = socket
    · subst equal
      rw [sockets_setSocket_self] at member
      rcases requests_sendBroker [.request id method params timeoutMs] with
        kept | more
      · rw [kept] at member
        exact invariant.waiting other entry member
      · rw [more] at member
        rcases mem_append.mp member with before | new
        · exact invariant.waiting other entry before
        · obtain rfl := mem_singleton.mp new
          exact ⟨issued, waits⟩
    · rw [sockets_setSocket_of_ne equal] at member
      exact invariant.waiting other entry member
  · intro other
    by_cases equal : other = socket
    · subst equal
      rw [sockets_setSocket_self]
      rcases requests_sendBroker [.request id method params timeoutMs] with
        kept | more
      · rw [kept]
        exact invariant.single other
      · rw [more, map_append]
        apply nodup_append.mpr
        refine ⟨invariant.single other, nodup_singleton _, ?_⟩
        intro first before second new
        obtain ⟨entry, member, rfl⟩ := List.mem_map.mp before
        obtain rfl := mem_singleton.mp new
        exact gone other entry member
    · rw [sockets_setSocket_of_ne equal]
      exact invariant.single other
  · intro number route found
    rw [client]
    exact invariant.routed number route found
  · intro other entry message observed member
    rw [client]
    by_cases equal : other = socket
    · subst equal
      rw [sockets_setSocket_self, toClient_sendBroker] at member
      exact invariant.responses other entry message observed member
    · rw [sockets_setSocket_of_ne equal] at member
      exact invariant.responses other entry message observed member
  · intro number other found
    rw [client]
    exact invariant.upstream number other found

theorem dispatch_invariant (invariant : world.Invariant) {params : Params}
    {timeoutMs : Int} (issued : id < world.issued)
    (unread : (world.requests id).consumed = false)
    (method : (world.requests id).method = pending.method) (target : ∀ socket,
      pending.transport = some socket →
      (world.requests id).caller = .client (world.sockets socket).client ∧
      (world.requests id).socket = some socket) (gone : ∀ other entry,
      entry ∈ (world.sockets other).requests → entry.1 ≠ id) :
    (world.dispatch caller id pending params timeoutMs).Invariant := by
  rw [dispatch]
  split
  case h_1 =>
    have handed := invariant.hand unread gone
    simp only
    split
    · exact handed.reject caller _ _
        (fun _ => text "browser extension send failed") _
    · exact handed.sendExtension _
  case h_2 socket transport =>
    obtain ⟨own, same⟩ := target socket transport
    split
    · exact invariant.reject caller _ _
        (fun _ => text "browser extension send failed") _
    · exact enqueue_invariant invariant issued ⟨own, method, same, unread⟩ gone

theorem transport_upstream (invariant : world.Invariant) {socket : Nat}
    (transport : world.transport caller = some (some socket)) :
    caller = .client (world.sockets socket).client := by
  cases caller with
  | owner =>
    simp only [BrowserWorld.transport] at transport
    split at transport <;> cases transport
  | client number =>
    simp only [BrowserWorld.transport] at transport
    split at transport
    · cases transport
    case h_2 upstream found =>
      split at transport
      · cases transport
        rw [(invariant.upstream number socket found).2]
      · cases transport

theorem request_invariant (invariant : world.Invariant) (caller : Caller)
    (method : Text) (params : Params) (timeoutSeconds : Int) (callId : Text)
    (bytes : Nat) :
    (world.request caller method params timeoutSeconds callId bytes).Invariant
    := by
  rw [request]
  split
  · exact refuse_invariant invariant _ _ _
  case h_2 transport found =>
    split
    · exact refuse_invariant invariant _ _ _
    · split
      · exact refuse_invariant invariant _ _ _
      · split
        · exact refuse_invariant invariant _ _ _
        · split
          · exact refuse_invariant invariant _ _ _
          · have new : ∀ pending,
                (world.register caller pending).requests world.issued = {
                  caller
                  method := pending.method
                  socket := pending.transport } :=
              fun _ => Function.update_self _ _ _
            apply dispatch_invariant (register_invariant invariant caller rfl)
            · exact Nat.lt_succ_self _
            · rw [new]
            · rw [new]
            · intro socket same
              rw [new]
              cases same
              exact ⟨transport_upstream invariant found, rfl⟩
            · intro other entry member
              exact Nat.ne_of_lt (invariant.waiting other entry member).1

end BrowserWorld

end MachineBridge.Browser
