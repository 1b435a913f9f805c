import MachineBridge.Browser.Routing

/-!
# What the broker and its clients know of a request

A request stays in the registry of its caller until it is settled, and a client
sends it once.  The broker routes a request which it read, and every response
on its way to a client is justified by what happened to its request before.
-/

namespace MachineBridge.Browser

open Foundation

namespace Request

structure Justified (request : Request) (settlement : Settlement)
    (observed : Bool) : Prop where
  rejected : ∀ error, settlement = .rejected error →
    browserMethodMayMutate request.method = true →
    error.StatesUnknown ∨ observed = true ∨
      (request.consumed = true ∧ request.handed = false)
  resolved : ∀ result, settlement = .resolved result →
    ∃ answer ∈ request.answers, answer.ok = some true ∧
      answer.result = some result

structure Fair (request : Request) : Prop where
  once : request.settlements.length ≤ 1
  handed : request.handed = true → request.consumed = true
  justified : ∀ settlement ∈ request.settlements,
    request.Justified settlement request.observed

/-- A response on its way to the client fits what happened to its request. -/
structure AnsweredBy (request : Request) (message : ResponseMessage)
    (observed : Bool) : Prop where
  consumed : request.consumed = true
  resolved : ∀ result, message.ok = some true →
    message.result = some result →
    ∃ answer ∈ request.answers, answer.ok = some true ∧
      answer.result = some result
  rejected : browserMethodMayMutate request.method = true →
    observed = true ∨ request.handed = false ∨
      (message.ok = some false ∧
        message.error = some browserMutationTransportUnknown)

/-- What is known of a request stays known. -/
structure Grows (before after : Request) : Prop where
  caller : after.caller = before.caller
  method : after.method = before.method
  socket : after.socket = before.socket
  consumed : before.consumed = true → after.consumed = true
  handed : before.consumed = true → after.handed = before.handed
  answers : before.answers ⊆ after.answers

theorem Grows.refl (request : Request) : request.Grows request :=
  ⟨rfl, rfl, rfl, id, fun _ => rfl, fun _ => id⟩

variable {after before request : Request} {observed : Bool}
  {settlement : Settlement}

theorem Grows.justified (grows : before.Grows after)
    (justified : before.Justified settlement observed) :
    after.Justified settlement observed where
  rejected := by
    intro error same mutates
    rw [grows.method] at mutates
    rcases justified.rejected error same mutates with
      unknown | known | ⟨consumed, kept⟩
    · exact .inl unknown
    · exact .inr (.inl known)
    · refine .inr (.inr ⟨grows.consumed consumed, ?_⟩)
      rw [grows.handed consumed]
      exact kept
  resolved := by
    intro result same
    obtain ⟨answer, member, found⟩ := justified.resolved result same
    exact ⟨answer, grows.answers member, found⟩

theorem Grows.answeredBy (grows : before.Grows after)
    {message : ResponseMessage}
    (answered : before.AnsweredBy message observed) :
    after.AnsweredBy message observed where
  consumed := grows.consumed answered.consumed
  resolved := by
    intro result success same
    obtain ⟨answer, member, found⟩ := answered.resolved result success same
    exact ⟨answer, grows.answers member, found⟩
  rejected := by
    rw [grows.method, grows.handed answered.consumed]
    exact answered.rejected

section

variable (request : Request)

theorem grows_settle (settlement : Settlement) (observed : Bool) :
    request.Grows (request.settle settlement observed) :=
  ⟨rfl, rfl, rfl, id, fun _ => rfl, fun _ => id⟩

theorem grows_answer (message : ResponseMessage) :
    request.Grows (request.answer message) :=
  ⟨rfl, rfl, rfl, id, fun _ => rfl, List.subset_cons_self _ _⟩

theorem grows_consume : request.Grows request.consume :=
  ⟨rfl, rfl, rfl, fun _ => rfl, fun _ => rfl, fun _ => id⟩

end

theorem grows_hand (unread : request.consumed = false) :
    request.Grows request.hand := by
  refine ⟨rfl, rfl, rfl, fun _ => rfl, ?_, fun _ => id⟩
  intro read
  rw [unread] at read
  cases read

theorem Justified.seen (justified : request.Justified settlement observed)
    {later : Bool} (kept : observed = true → later = true) :
    request.Justified settlement later where
  rejected := by
    intro error same mutates
    rcases justified.rejected error same mutates with
      unknown | known | unhanded
    · exact .inl unknown
    · exact .inr (.inl (kept known))
    · exact .inr (.inr unhanded)
  resolved := justified.resolved

theorem Fair.settle (fair : request.Fair)
    (unsettled : request.settlements = [])
    (justified : request.Justified settlement observed) :
    (request.settle settlement observed).Fair where
  once := by
    rw [Request.settle, unsettled]
    exact Nat.le_refl _
  handed := fair.handed
  justified := by
    intro other member
    rw [Request.settle, unsettled] at member
    obtain rfl := List.mem_singleton.mp member
    apply (grows_settle request other observed).justified
    apply justified.seen
    intro seen
    rw [Request.settle, seen]
    exact Bool.or_true _

theorem Fair.grows (fair : before.Fair) (grows : before.Grows after)
    (handed : after.handed = true → after.consumed = true)
    (settlements : after.settlements = before.settlements)
    (observed : after.observed = before.observed) : after.Fair where
  once := by
    rw [settlements]
    exact fair.once
  handed := handed
  justified := by
    intro settlement member
    rw [settlements] at member
    rw [observed]
    exact grows.justified (fair.justified settlement member)

end Request

theorem transportError_justified {request : Request} {pending : Pending}
    (method : pending.method = request.method)
    (attempted : pending.dispatchAttempted = true) (code : BrowserErrorCode)
    (fallback : Text) (terminationRequested observed : Bool) :
    request.Justified (.rejected (browserRequestTransportError pending code
    fallback terminationRequested)) observed where
  rejected := by
    rintro error ⟨⟩ mutates
    apply Or.inl
    apply transportError_statesUnknown
    rw [Pending.mutation, attempted, method, mutates]
    rfl
  resolved := nofun

theorem settleResponse_justified {request : Request} {pending : Pending}
    (method : pending.method = request.method)
    (attempted : pending.dispatchAttempted = true) {message : ResponseMessage}
    {observed : Bool} (answered : request.AnsweredBy message observed) :
    request.Justified (settleResponse message pending) observed where
  rejected := by
    intro error same mutates
    have mutation : pending.mutation = true := by
      rw [Pending.mutation, attempted, method, mutates]
      rfl
    rcases answered.rejected mutates with known | unhanded | ⟨failed, unknown⟩
    · exact .inr (.inl known)
    · exact .inr (.inr ⟨answered.consumed, unhanded⟩)
    · apply Or.inl
      have valid :
          validError message = some browserMutationTransportUnknown := by
        rw [← unknown_validError message.settlement, validError, validError,
          unknown]
      simp only [settleResponse, failed, valid] at same
      cases same
      exact unknownResponse_statesUnknown mutation message.settlement
  resolved := by
    intro result same
    rw [settleResponse] at same
    split at same
    · split at same <;> cases same
    case h_2 success =>
      split at same
      case h_1 found =>
        cases same
        exact answered.resolved result success found
      · cases same
    · cases same

def ClientMessage.asRequest : ClientMessage → Option (Nat × Text)
  | .request id method _ _ => some (id, method)
  | .cancel _ => none

def Socket.requests (socket : Socket) : List (Nat × Text) :=
  socket.toBroker.filterMap ClientMessage.asRequest

structure Request.Waits (request : Request) (socket client : Nat)
    (method : Text) : Prop where
  caller : request.caller = .client client
  method : request.method = method
  socket : request.socket = some socket
  consumed : request.consumed = false

structure Request.RoutedBy (request : Request) (route : Route)
    (client : Nat) : Prop where
  caller : request.caller = .client client
  method : request.method = route.method
  attempted : route.dispatchAttempted = true
  consumed : request.consumed = true

structure Request.Returns (request : Request) (client : Nat)
    (message : ResponseMessage) (observed : Bool) : Prop where
  caller : request.caller = .client client
  answered : request.AnsweredBy message observed

namespace BrowserWorld

structure Invariant (world : BrowserWorld) : Prop where
  fair : ∀ id, (world.requests id).Fair
  pending : ∀ caller id, id ∈ (world.registries caller).keys ↔
    id < world.issued ∧ (world.requests id).caller = caller ∧
      (world.requests id).settlements = []
  sent : ∀ caller id pending,
    (world.registries caller).get? id = some pending →
    pending.method = (world.requests id).method ∧
      pending.dispatchAttempted = true
  routes : ∀ number, number ∈ world.routes.keys ↔
    number < world.nextRoute ∧ world.routesSettled number = 0
  routesOnce : ∀ number, world.routesSettled number ≤ 1
  unopened : ∀ number, world.nextRoute ≤ number →
    world.routesSettled number = 0
  waiting : ∀ socket entry, entry ∈ (world.sockets socket).requests →
    entry.1 < world.issued ∧ (world.requests entry.1).Waits socket
      (world.sockets socket).client entry.2
  single : ∀ socket, ((world.sockets socket).requests.map Prod.fst).Nodup
  routed : ∀ number route, world.routes.get? number = some route →
    route.id < world.issued ∧ route.socket < world.nextSocket ∧
      (world.requests route.id).RoutedBy route
        (world.sockets route.socket).client
  responses : ∀ socket id message observed,
    .response id message observed ∈ (world.sockets socket).toClient →
    id < world.issued ∧ (world.requests id).Returns
      (world.sockets socket).client message observed
  upstream : ∀ number socket,
    (world.clients number).upstream = some socket →
    socket < world.nextSocket ∧ (world.sockets socket).client = number

variable {world : BrowserWorld}

@[simp] theorem requests_changeRequest_self (id : Nat)
    (change : Request → Request) :
    (world.changeRequest id change).requests id =
      change (world.requests id) := Function.update_self _ _ _

theorem requests_changeRequest_of_ne {id other : Nat} (different : other ≠ id)
    (change : Request → Request) :
    (world.changeRequest id change).requests other = world.requests other :=
  Function.update_of_ne different _ _

/-- What happens to a request leaves the rest in order, when the broker does not
read a request which it still has to read. -/
theorem Invariant.changeRequest (invariant : world.Invariant) (id : Nat)
    {change : Request → Request} (grows : (world.requests id).Grows (change
    (world.requests id))) (handed : (change (world.requests id)).handed = true
    → (change (world.requests id)).consumed = true) (settlements : (change
    (world.requests id)).settlements = (world.requests id).settlements)
    (observed : (change (world.requests id)).observed = (world.requests
    id).observed) (read : ∀ socket entry, entry ∈ (world.sockets
    socket).requests → entry.1 = id → (change (world.requests id)).consumed =
    false) : (world.changeRequest id change).Invariant := by
  have every : ∀ other, (world.requests other).Grows
      ((world.changeRequest id change).requests other) := by
    intro other
    by_cases same : other = id
    · subst same
      rw [requests_changeRequest_self]
      exact grows
    · rw [requests_changeRequest_of_ne same]
      exact Request.Grows.refl _
  have same : ∀ other,
      ((world.changeRequest id change).requests other).settlements =
      (world.requests other).settlements := by
    intro other
    by_cases same : other = id
    · subst same
      rw [requests_changeRequest_self]
      exact settlements
    · rw [requests_changeRequest_of_ne same]
  refine ⟨?_, ?_, ?_, invariant.routes, invariant.routesOnce,
    invariant.unopened, ?_, invariant.single, ?_, ?_, invariant.upstream⟩
  · intro other
    by_cases equal : other = id
    · subst equal
      rw [requests_changeRequest_self]
      exact (invariant.fair other).grows grows handed settlements observed
    · rw [requests_changeRequest_of_ne equal]
      exact invariant.fair other
  · intro caller other
    rw [same, (every other).caller]
    exact invariant.pending caller other
  · intro caller other pending found
    rw [(every other).method]
    exact invariant.sent caller other pending found
  · intro socket entry member
    obtain ⟨issued, waits⟩ := invariant.waiting socket entry member
    refine ⟨issued, ?_, ?_, ?_, ?_⟩
    · rw [(every _).caller]
      exact waits.caller
    · rw [(every _).method]
      exact waits.method
    · rw [(every _).socket]
      exact waits.socket
    · by_cases equal : entry.1 = id
      · rw [equal, requests_changeRequest_self]
        exact read socket entry member equal
      · rw [requests_changeRequest_of_ne equal]
        exact waits.consumed
  · intro number route found
    obtain ⟨issued, bound, routed⟩ := invariant.routed number route found
    refine ⟨issued, bound, ?_, ?_, routed.attempted, ?_⟩
    · rw [(every _).caller]
      exact routed.caller
    · rw [(every _).method]
      exact routed.method
    · exact (every _).consumed routed.consumed
  · intro socket other message seen member
    obtain ⟨issued, returns⟩ :=
      invariant.responses socket other message seen member
    refine ⟨issued, ?_, (every other).answeredBy returns.answered⟩
    rw [(every other).caller]
    exact returns.caller

theorem Invariant.answer (invariant : world.Invariant) (id : Nat)
    (message : ResponseMessage) :
    (world.changeRequest id (·.answer message)).Invariant := by
  apply invariant.changeRequest id (Request.grows_answer _ message) _ rfl rfl
  · intro socket entry member same
    rw [← same]
    exact (invariant.waiting socket entry member).2.consumed
  · exact (invariant.fair id).handed

theorem Invariant.consume (invariant : world.Invariant) {id : Nat}
    (gone : ∀ socket entry, entry ∈ (world.sockets socket).requests →
      entry.1 ≠ id) : (world.changeRequest id Request.consume).Invariant := by
  apply invariant.changeRequest id (Request.grows_consume _) _ rfl rfl
  · intro socket entry member same
    exact absurd same (gone socket entry member)
  · exact fun _ => rfl

theorem Invariant.hand (invariant : world.Invariant) {id : Nat}
    (unread : (world.requests id).consumed = false) (gone : ∀ socket entry,
      entry ∈ (world.sockets socket).requests → entry.1 ≠ id) :
    (world.changeRequest id Request.hand).Invariant := by
  apply invariant.changeRequest id (Request.grows_hand unread) _ rfl rfl
  · intro socket entry member same
    exact absurd same (gone socket entry member)
  · exact fun _ => rfl

theorem registries_settlePending_self (caller : Caller)
    (selected : Nat → Pending → Bool) (settlement : Pending → Settlement)
    (observed : Bool) :
    (world.settlePending caller selected settlement observed).registries
        caller =
      (world.registries caller).filter fun id pending =>
        !selected id pending := Function.update_self _ _ _

theorem registries_settlePending_of_ne {caller other : Caller}
    (different : other ≠ caller) (selected : Nat → Pending → Bool)
    (settlement : Pending → Settlement) (observed : Bool) :
    (world.settlePending caller selected settlement observed).registries other
    = world.registries other :=
  Function.update_of_ne different _ _

theorem settlePending_request (world : BrowserWorld) (caller : Caller)
    (selected : Nat → Pending → Bool) (settlement : Pending → Settlement)
    (observed : Bool) (id : Nat) : ((world.settlePending caller selected
    settlement observed).requests id = world.requests id ∧ ∀ pending,
    (world.registries caller).get? id = some pending → selected id pending =
    false) ∨ ∃ pending, (world.registries caller).get? id = some pending ∧
    selected id pending = true ∧
    (world.settlePending caller selected settlement observed).requests id =
    (world.requests id).settle (settlement pending) observed := by
  simp only [settlePending]
  split
  case h_1 pending found =>
    split
    case isTrue chosen => exact .inr ⟨pending, found, chosen, rfl⟩
    case isFalse spared =>
      refine .inl ⟨rfl, ?_⟩
      intro other same
      rw [found] at same
      cases same
      simpa using spared
  case h_2 absent =>
    refine .inl ⟨rfl, ?_⟩
    intro pending found
    rw [absent] at found
    cases found

theorem settlePending_invariant (invariant : world.Invariant) {caller : Caller}
    {selected : Nat → Pending → Bool} {settlement : Pending → Settlement}
    {observed : Bool} (justified : ∀ id pending,
      (world.registries caller).get? id = some pending →
      selected id pending = true →
      (world.requests id).Justified (settlement pending) observed) :
    (world.settlePending caller selected settlement observed).Invariant := by
  have requests := world.settlePending_request caller selected settlement
    observed
  have every : ∀ id, (world.requests id).Grows
      ((world.settlePending caller selected settlement observed).requests id)
      := by
    intro id
    rcases requests id with ⟨same, -⟩ | ⟨pending, -, -, same⟩
    · rw [same]
      exact Request.Grows.refl _
    · rw [same]
      exact Request.grows_settle _ _ _
  have unsettled : ∀ {id pending},
      (world.registries caller).get? id = some pending → id < world.issued ∧
      (world.requests id).caller = caller ∧
      (world.requests id).settlements = [] := by
    intro id pending found
    apply (invariant.pending caller id).mp
    rw [Record.mem_keys]
    exact ⟨pending, Record.get?_eq_some.mp found⟩
  refine ⟨?_, ?_, ?_, invariant.routes, invariant.routesOnce,
    invariant.unopened, ?_, invariant.single, ?_, ?_, invariant.upstream⟩
  · intro id
    rcases requests id with ⟨same, -⟩ | ⟨pending, found, chosen, same⟩
    · rw [same]
      exact invariant.fair id
    · rw [same]
      exact (invariant.fair id).settle (unsettled found).2.2
        (justified id pending found chosen)
  · intro other id
    rw [(every id).caller]
    by_cases own : other = caller
    · subst own
      rw [registries_settlePending_self, Record.mem_keys]
      rcases requests id with ⟨same, spared⟩ | ⟨pending, found, chosen, same⟩
      · rw [same]
        refine Iff.trans ?_ (invariant.pending other id)
        rw [Record.mem_keys]
        constructor
        · rintro ⟨pending, member⟩
          exact ⟨pending, (Record.mem_filter.mp member).1⟩
        · rintro ⟨pending, member⟩
          refine ⟨pending, Record.mem_filter.mpr ⟨member, ?_⟩⟩
          rw [spared pending (Record.get?_eq_some.mpr member)]
          rfl
      · rw [same]
        constructor
        · rintro ⟨stored, member⟩
          obtain ⟨there, kept⟩ := Record.mem_filter.mp member
          have equal := Record.get?_eq_some.mpr there
          rw [found] at equal
          cases equal
          rw [chosen] at kept
          cases kept
        · rintro ⟨-, -, settled⟩
          cases settled
    · rw [registries_settlePending_of_ne own]
      refine Iff.trans (invariant.pending other id) ?_
      rcases requests id with ⟨same, -⟩ | ⟨pending, found, chosen, same⟩
      · rw [same]
        exact Iff.rfl
      · rw [same, (unsettled found).2.1]
        constructor
        · rintro ⟨-, different, -⟩
          exact absurd different.symm own
        · rintro ⟨-, different, -⟩
          exact absurd different.symm own
  · intro other id pending found
    rw [(every id).method]
    apply invariant.sent other id pending
    by_cases own : other = caller
    · subst own
      rw [registries_settlePending_self, Record.get?_eq_some] at found
      exact Record.get?_eq_some.mpr (Record.mem_filter.mp found).1
    · rw [registries_settlePending_of_ne own] at found
      exact found
  · intro socket entry member
    obtain ⟨issued, waits⟩ := invariant.waiting socket entry member
    refine ⟨issued, ?_⟩
    rcases requests entry.1 with ⟨same, -⟩ | ⟨pending, -, -, same⟩
    · rw [same]
      exact waits
    · rw [same]
      exact ⟨waits.caller, waits.method, waits.socket, waits.consumed⟩
  · intro number route found
    obtain ⟨issued, bound, routed⟩ := invariant.routed number route found
    refine ⟨issued, bound, ?_, ?_, routed.attempted, ?_⟩
    · rw [(every _).caller]
      exact routed.caller
    · rw [(every _).method]
      exact routed.method
    · exact (every _).consumed routed.consumed
  · intro socket other message seen member
    obtain ⟨issued, returns⟩ :=
      invariant.responses socket other message seen member
    refine ⟨issued, ?_, (every other).answeredBy returns.answered⟩
    rw [(every other).caller]
    exact returns.caller

end BrowserWorld

end MachineBridge.Browser
