import MachineBridge.Browser.RoutingSteps

/-!
# Runs of the broker

In every run each request is settled once, and the tables hold what is not
settled.  A response goes to the client which issued its request.  A request
which may have changed the page and whose answer did not reach the caller is
settled with an error that says so.
-/

namespace MachineBridge.Browser

open Foundation List

namespace BrowserWorld

variable {world : BrowserWorld}

variable {id socket : Nat} {method : Text}

theorem respond_invariant (invariant : world.Invariant) {error : Text}
    (issued : id < world.issued) (caller : (world.requests id).caller = .client
    (world.sockets socket).client)
    (consumed : (world.requests id).consumed = true) (rejected :
    browserMethodMayMutate (world.requests id).method = true → (world.requests
    id).handed = false ∨ error = browserMutationTransportUnknown) :
    (world.respond socket id error).Invariant := by
  apply invariant.setSocket socket
  · exact client_send _
  · rw [requests_send]
  · intro other message observed member
    rcases mem_send member with old | new
    · exact .inl old
    · cases mem_singleton.mp new
      refine .inr ⟨issued, caller, consumed, nofun, ?_⟩
      intro mutates
      rcases rejected mutates with unhanded | unknown
      · exact .inr (.inl unhanded)
      · refine .inr (.inr ⟨rfl, ?_⟩)
        rw [failure, unknown]

theorem dropRoute_invariant (invariant : world.Invariant) :
    ({ world with
      nextRoute := world.nextRoute + 1
      routesSettled :=
        Function.update world.routesSettled world.nextRoute 1 }).Invariant := by
  refine ⟨invariant.fair, invariant.pending, invariant.sent, ?_, ?_, ?_,
    invariant.waiting, invariant.single, invariant.routed,
    invariant.responses, invariant.upstream⟩
  · intro number
    dsimp only
    rw [invariant.routes number]
    by_cases same : number = world.nextRoute
    · subst same
      rw [Function.update_self]
      constructor
      · rintro ⟨before, -⟩
        exact absurd before (Nat.lt_irrefl _)
      · rintro ⟨-, settled⟩
        cases settled
    · rw [Function.update_of_ne same]
      constructor
      · rintro ⟨before, settled⟩
        exact ⟨Nat.lt_succ_of_lt before, settled⟩
      · rintro ⟨bound, settled⟩
        exact ⟨Nat.lt_of_le_of_ne (Nat.le_of_lt_succ bound) same, settled⟩
  · intro number
    dsimp only
    by_cases same : number = world.nextRoute
    · rw [same, Function.update_self]
    · rw [Function.update_of_ne same]
      exact invariant.routesOnce number
  · intro number fresh
    dsimp only at fresh ⊢
    rw [Function.update_of_ne (Nat.ne_of_gt fresh)]
    exact invariant.unopened number (Nat.le_of_succ_le fresh)

theorem addRoute_invariant (invariant : world.Invariant) {route : Route}
    (issued : route.id < world.issued) (bound : route.socket < world.nextSocket)
    (routed : (world.requests route.id).RoutedBy route
      (world.sockets route.socket).client) :
    ({ world with
      nextRoute := world.nextRoute + 1
      routes := world.routes.set world.nextRoute route }).Invariant := by
  refine ⟨invariant.fair, invariant.pending, invariant.sent, ?_,
    invariant.routesOnce, ?_, invariant.waiting, invariant.single, ?_,
    invariant.responses, invariant.upstream⟩
  · intro number
    rw [Record.mem_keys]
    constructor
    · rintro ⟨stored, member⟩
      rcases Record.mem_set.mp member with ⟨rfl, -⟩ | ⟨-, before⟩
      · exact ⟨Nat.lt_succ_self _, invariant.unopened _ (Nat.le_refl _)⟩
      · have known := (invariant.routes number).mp
          (Record.mem_keys.mpr ⟨stored, before⟩)
        exact ⟨Nat.lt_succ_of_lt known.1, known.2⟩
    · rintro ⟨below, settled⟩
      by_cases same : number = world.nextRoute
      · exact ⟨route, Record.mem_set.mpr (.inl ⟨same, rfl⟩)⟩
      · have before := Nat.lt_of_le_of_ne (Nat.le_of_lt_succ below) same
        obtain ⟨stored, member⟩ := Record.mem_keys.mp
          ((invariant.routes number).mpr ⟨before, settled⟩)
        exact ⟨stored, Record.mem_set.mpr (.inr ⟨same, member⟩)⟩
  · intro number fresh
    exact invariant.unopened number (Nat.le_of_succ_le fresh)
  · intro number stored found
    rw [Record.get?_eq_some] at found
    rcases Record.mem_set.mp found with ⟨-, rfl⟩ | ⟨-, before⟩
    · exact ⟨issued, bound, routed⟩
    · exact invariant.routed number stored (Record.get?_eq_some.mpr before)

/-- A request which the broker has just taken from the queue. -/
structure Read (world : BrowserWorld) (socket id : Nat) (method : Text) :
    Prop where
  bound : socket < world.nextSocket
  issued : id < world.issued
  waits : (world.requests id).Waits socket (world.sockets socket).client
    method
  gone : ∀ other entry, entry ∈ (world.sockets other).requests → entry.1 ≠ id

theorem Read.unhanded (invariant : world.Invariant)
    (read : world.Read socket id method) :
    (world.requests id).handed = false := by
  rw [Bool.eq_false_iff]
  intro handed
  have consumed := (invariant.fair id).handed handed
  rw [read.waits.consumed] at consumed
  cases consumed

theorem refused_invariant (invariant : world.Invariant)
    (read : world.Read socket id method) (error : Text) :
    ((world.changeRequest id Request.consume).respond socket id error).Invariant
    := by
  apply respond_invariant (invariant.consume read.gone) read.issued
  · rw [requests_changeRequest_self]
    exact read.waits.caller
  · rw [requests_changeRequest_self]
    rfl
  · intro _
    rw [requests_changeRequest_self]
    exact .inl (read.unhanded invariant)

theorem openRoute_invariant (invariant : world.Invariant)
    (read : world.Read socket id method) (params : Params) (timeoutMs : Int) :
    (world.openRoute socket id method params timeoutMs).Invariant := by
  have dropped := dropRoute_invariant invariant
  have same : Read { world with
      nextRoute := world.nextRoute + 1
      routesSettled := Function.update world.routesSettled world.nextRoute 1 }
      socket id method := ⟨read.bound, read.issued, read.waits, read.gone⟩
  simp only [openRoute]
  split
  · exact refused_invariant dropped same _
  case h_2 extension connected =>
    split
    · exact refused_invariant dropped same _
    · split
      · apply respond_invariant
          (dropped.hand read.waits.consumed read.gone) read.issued
        · rw [requests_changeRequest_self]
          exact read.waits.caller
        · rw [requests_changeRequest_self]
          rfl
        · rw [requests_changeRequest_self]
          intro mutates
          apply Or.inr
          have mutates : browserMethodMayMutate method = true := by
            rw [← read.waits.method]
            exact mutates
          rw [postDispatchRouteFailure, if_pos rfl,
            browserPostDispatchTransportFailure, if_pos mutates]
      · apply Invariant.sendExtension
        have handed := invariant.hand read.waits.consumed read.gone
        refine addRoute_invariant handed read.issued read.bound ?_
        rw [requests_changeRequest_self]
        exact ⟨read.waits.caller, read.waits.method, rfl, rfl⟩

theorem handleRequest_invariant (invariant : world.Invariant)
    (read : world.Read socket id method) (params : Params) (timeoutMs : Int) :
    (world.handleRequest socket id method params timeoutMs).Invariant := by
  simp only [handleRequest]
  split
  · exact (invariant.consume read.gone).setEnd socket _ rfl rfl rfl
  · split
    · exact refused_invariant invariant read _
    · split
      · exact refused_invariant invariant read _
      · split
        · exact refused_invariant invariant read _
        · exact openRoute_invariant invariant read params timeoutMs

theorem brokerReceives_invariant (invariant : world.Invariant)
    (bound : socket < world.nextSocket) :
    (world.brokerReceives socket).Invariant := by
  rw [brokerReceives]
  split
  · exact invariant
  · split
    · exact invariant
    case h_2 message rest queue =>
      have popped : (world.setSocket socket { world.sockets socket with
          toBroker := rest }).Invariant := by
        apply invariant.setSocket socket
        · rfl
        · rw [Socket.requests, Socket.requests, queue]
          exact (sublist_cons_self _ _).filterMap _
        · exact fun _ _ _ member => .inl member
      cases message with
      | cancel id => exact cancelRoutes_invariant popped _
      | request id method params timeoutMs =>
        apply handleRequest_invariant popped
        have here : (world.sockets socket).requests = (id, method) ::
            rest.filterMap ClientMessage.asRequest := by
          rw [Socket.requests, queue]
          rfl
        have waits := invariant.waiting socket (id, method) (by
          rw [here]
          exact mem_cons_self)
        refine ⟨bound, waits.1, ?_, ?_⟩
        · rw [sockets_setSocket_self]
          exact waits.2
        · intro other entry member same
          by_cases equal : other = socket
          · subst equal
            rw [sockets_setSocket_self] at member
            have single := invariant.single other
            rw [here, map_cons, nodup_cons] at single
            apply single.1
            rw [← same]
            exact List.mem_map.mpr ⟨entry, member, rfl⟩
          · have there : entry ∈ (world.sockets other).requests := by
              rw [sockets_setSocket_of_ne equal] at member
              exact member
            have also := (invariant.waiting other entry there).2.socket
            rw [same, waits.2.socket] at also
            exact equal (Option.some.inj also).symm

theorem broadcastStatus_invariant (invariant : world.Invariant)
    (connected : Bool) : (world.broadcastStatus connected).Invariant := by
  apply invariant.sockets
  · intro socket
    split
    · exact client_send _
    · rfl
  · intro socket
    split
    · rw [requests_send]
    · exact List.Sublist.refl _
  · intro socket id message observed member
    split at member
    · rcases mem_send member with old | new
      · exact .inl old
      · cases mem_singleton.mp new
    · exact .inl member

theorem connect_invariant (invariant : world.Invariant) (client : Nat) :
    (world.connect client).Invariant := by
  have fresh : (world.connect client).sockets world.nextSocket = {
      client
      toClient := [.hello world.extensionConnected] } :=
    Function.update_self _ _ _
  have old : ∀ {socket}, socket ≠ world.nextSocket →
      (world.connect client).sockets socket = world.sockets socket :=
    fun different => Function.update_of_ne different _ _
  refine ⟨invariant.fair, invariant.pending, invariant.sent, invariant.routes,
    invariant.routesOnce, invariant.unopened, ?_, ?_, ?_, ?_, ?_⟩
  · intro socket entry member
    by_cases same : socket = world.nextSocket
    · rw [same, fresh] at member
      cases member
    · rw [old same] at member ⊢
      exact invariant.waiting socket entry member
  · intro socket
    by_cases same : socket = world.nextSocket
    · rw [same, fresh]
      exact nodup_nil
    · rw [old same]
      exact invariant.single socket
  · intro number route found
    obtain ⟨issued, bound, routed⟩ := invariant.routed number route found
    refine ⟨issued, Nat.lt_succ_of_lt bound, ?_⟩
    rw [old (Nat.ne_of_lt bound)]
    exact routed
  · intro socket id message observed member
    by_cases same : socket = world.nextSocket
    · rw [same, fresh] at member
      cases mem_singleton.mp member
    · rw [old same] at member ⊢
      exact invariant.responses socket id message observed member
  · intro number socket found
    obtain ⟨bound, own⟩ := invariant.upstream number socket found
    refine ⟨Nat.lt_succ_of_lt bound, ?_⟩
    rw [old (Nat.ne_of_lt bound)]
    exact own

theorem extensionHello_invariant (invariant : world.Invariant) :
    world.extensionHello.Invariant := by
  have replaced := invariant.quiet (some {}) world.toExtension
    world.brokerClients
  simp only [extensionHello]
  split
  · exact broadcastStatus_invariant replaced true
  · apply broadcastStatus_invariant
    apply rejectProxyRoutes_invariant
    exact rejectPending_invariant replaced .owner _

theorem extensionClosed_invariant (invariant : world.Invariant) :
    world.extensionClosed.Invariant := by
  have closed := invariant.quiet none world.toExtension world.brokerClients
  simp only [extensionClosed]
  split
  · exact invariant
  · apply broadcastStatus_invariant
    apply rejectProxyRoutes_invariant
    exact rejectPending_invariant closed .owner _

theorem extensionResponse_invariant (invariant : world.Invariant)
    (id : ExtensionId) (message : ResponseMessage) :
    (world.extensionResponse id message).Invariant := by
  simp only [extensionResponse]
  split
  · exact invariant
  case h_2 id connected =>
    split
    · have answered := invariant.answer id message
      apply settlePending_invariant answered
      intro other pending found chosen
      obtain rfl : other = id := by simpa using chosen
      obtain ⟨method, attempted⟩ := invariant.sent .owner other pending found
      rw [requests_changeRequest_self]
      exact ownResponse_justified method attempted message
    · exact invariant
  · exact settleExtensionResponse_invariant invariant _ message
  · exact invariant

theorem clientReceives_invariant (invariant : world.Invariant)
    (bound : socket < world.nextSocket) :
    (world.clientReceives socket).Invariant := by
  rw [clientReceives]
  split
  · exact invariant
  · split
    · exact invariant
    case h_2 message rest queue =>
      have popped : (world.setSocket socket { world.sockets socket with
          toClient := rest }).Invariant := by
        apply invariant.setSocket socket
        · rfl
        · exact List.Sublist.refl _
        · intro id message observed member
          rw [queue]
          exact .inl (mem_cons_of_mem _ member)
      cases message with
      | hello connected =>
        apply popped.setClient
        rintro _ ⟨⟩
        exact ⟨bound, rfl⟩
      | status connected =>
        simp only [handleUpstreamMessage]
        have changed := popped.setClient (world.sockets socket).client {
          world.clients (world.sockets socket).client with
          proxyExtensionConnected := connected }
          fun other found => popped.upstream _ other found
        have same : ((world.setSocket socket { world.sockets socket with
            toClient := rest }).sockets socket).client =
            (world.sockets socket).client := by
          rw [sockets_setSocket_self]
        rw [same]
        split
        · exact changed
        · exact rejectPending_invariant changed _ _
      | response id message observed =>
        apply settle_invariant popped
        have member : BrokerMessage.response id message observed ∈
            (world.sockets socket).toClient := by
          rw [queue]
          exact mem_cons_self
        exact (invariant.responses socket id message observed
          member).2.answered

theorem clientClosed_invariant (invariant : world.Invariant) (socket : Nat) :
    (world.clientClosed socket).Invariant := by
  have closed := invariant.setEnd socket {
    world.sockets socket with
    clientOpen := false
    clientClosed := true } rfl rfl rfl
  simp only [clientClosed]
  split
  · apply rejectPending_invariant
    apply closed.setClient
    intro other found
    cases found
  · exact closed

theorem stop_invariant (invariant : world.Invariant) (caller : Caller) :
    (world.stop caller).Invariant := by
  cases caller with
  | owner =>
    have rejected := rejectProxyRoutes_invariant
      (rejectPending_invariant invariant .owner
        (text "browser bridge stopped"))
      (text "browser bridge stopped")
    refine (rejected.quiet none _ []).sockets ?_ ?_ ?_
    · intro socket
      split <;> rfl
    · intro socket
      split
      · exact List.Sublist.refl _
      · exact List.Sublist.refl _
    · intro socket id message observed member
      split at member
      · exact .inl member
      · exact .inl member
  | client number =>
    have rejected := rejectPending_invariant invariant (.client number)
      (text "browser bridge stopped")
    simp only [stop]
    split
    · apply rejected.setClient
      intro other found
      cases found
    case h_2 socket found =>
      have closed := rejected.setEnd socket {
        world.sockets socket with clientOpen := false } rfl rfl rfl
      apply closed.setClient
      intro other found
      cases found

theorem socketStep_invariant (invariant : world.Invariant)
    {next : BrowserWorld} (kept : socket < world.nextSocket → next.Invariant) :
    (world.socketStep socket next).Invariant := by
  rw [socketStep]
  split
  case isTrue bound => exact kept bound
  case isFalse => exact invariant

theorem step_invariant (world : BrowserWorld) (event : BrowserEvent)
    (invariant : world.Invariant) : (world.step event).Invariant := by
  cases event with
  | request caller method params timeoutSeconds callId bytes =>
    exact request_invariant invariant caller method params timeoutSeconds
      callId bytes
  | timeout caller id => exact timeout_invariant invariant caller id
  | cancelCall caller callId timedOut =>
    exact cancelCall_invariant invariant caller callId timedOut
  | connect client => exact connect_invariant invariant client
  | brokerReceives socket =>
    exact socketStep_invariant invariant (brokerReceives_invariant invariant)
  | clientReceives socket =>
    exact socketStep_invariant invariant (clientReceives_invariant invariant)
  | clientCloses socket | brokerCloses socket =>
    exact socketStep_invariant invariant fun _ =>
      invariant.setEnd socket _ rfl rfl rfl
  | clientClosed socket =>
    exact socketStep_invariant invariant fun _ =>
      clientClosed_invariant invariant socket
  | brokerClosed socket =>
    apply socketStep_invariant invariant
    intro _
    apply removeClient_invariant
    exact invariant.setEnd socket _ rfl rfl rfl
  | clientFails socket fails | brokerFails socket fails =>
    exact socketStep_invariant invariant fun _ =>
      invariant.setEnd socket _ rfl rfl rfl
  | routeTimeout number => exact routeTimeout_invariant invariant number
  | extensionHello => exact extensionHello_invariant invariant
  | extensionCloses =>
    exact invariant.quiet _ world.toExtension world.brokerClients
  | extensionClosed => exact extensionClosed_invariant invariant
  | extensionFails fails =>
    exact invariant.quiet _ world.toExtension world.brokerClients
  | extensionResponse id message =>
    exact extensionResponse_invariant invariant id message
  | broadcast => exact broadcastStatus_invariant invariant _
  | stop caller => exact stop_invariant invariant caller

theorem initial_invariant : ({} : BrowserWorld).Invariant where
  fair := fun _ => ⟨Nat.zero_le _, nofun, List.forall_mem_nil _⟩
  pending := by
    intro caller id
    constructor
    · intro member
      cases member
    · rintro ⟨issued, -⟩
      cases issued
  sent := nofun
  routes := by
    intro number
    constructor
    · intro member
      cases member
    · rintro ⟨opened, -⟩
      cases opened
  routesOnce := fun _ => Nat.zero_le _
  unopened := fun _ _ => rfl
  waiting := nofun
  single := fun _ => nodup_nil
  routed := nofun
  responses := nofun
  upstream := nofun

/-- Every request is settled once and truthfully. -/
structure Settles (world : BrowserWorld) : Prop where
  once : ∀ id, (world.requests id).settlements.length ≤ 1
  pending : ∀ caller id, id ∈ (world.registries caller).keys ↔
    id < world.issued ∧ (world.requests id).caller = caller ∧
      (world.requests id).settlements = []
  /-- The timer of a request settles it at the latest. -/
  expires : ∀ id, id < world.issued →
    ((world.timeout (world.requests id).caller id).requests
      id).settlements.length = 1
  routes : ∀ number, number ∈ world.routes.keys ↔
    number < world.nextRoute ∧ world.routesSettled number = 0
  routesOnce : ∀ number, world.routesSettled number ≤ 1
  returned : ∀ socket id message observed,
    .response id message observed ∈ (world.sockets socket).toClient →
    (world.requests id).caller = .client (world.sockets socket).client
  answered : ∀ id result,
    .resolved result ∈ (world.requests id).settlements →
    ∃ answer ∈ (world.requests id).answers, answer.ok = some true ∧
      answer.result = some result
  unknown : ∀ id error,
    browserMethodMayMutate (world.requests id).method = true →
    (world.requests id).handed = true →
    (world.requests id).observed = false →
    .rejected error ∈ (world.requests id).settlements →
    error.StatesUnknown

section

variable (messages : List ExtensionMessage)

theorem requests_sendExtension :
    (world.sendExtension messages).requests = world.requests := by
  rw [sendExtension]
  split
  · rfl
  · split <;> rfl

theorem registries_sendExtension :
    (world.sendExtension messages).registries = world.registries := by
  rw [sendExtension]
  split
  · rfl
  · split <;> rfl

end

theorem requests_sendCancelQuietly (caller : Caller) (transport : Option Nat)
    (ids : List Nat) :
    (world.sendCancelQuietly caller transport ids).requests =
    world.requests := by
  cases caller with
  | owner => exact requests_sendExtension _
  | client number =>
    cases transport with
    | none => rfl
    | some socket =>
      simp only [sendCancelQuietly]
      split <;> rfl

theorem registries_sendCancelQuietly (caller : Caller) (transport : Option Nat)
    (ids : List Nat) :
    (world.sendCancelQuietly caller transport ids).registries =
    world.registries := by
  cases caller with
  | owner => exact registries_sendExtension _
  | client number =>
    cases transport with
    | none => rfl
    | some socket =>
      simp only [sendCancelQuietly]
      split <;> rfl

theorem timeout_settles (invariant : world.Invariant)
    (issued : id < world.issued) : ((world.timeout (world.requests id).caller
    id).requests id).settlements.length = 1 := by
  rw [timeout]
  split
  case h_1 absent =>
    have settled : (world.requests id).settlements ≠ [] := by
      intro unsettled
      apply Record.get?_eq_none.mp absent
      exact (invariant.pending _ id).mpr ⟨issued, rfl, unsettled⟩
    have some := length_pos_iff.mpr settled
    have once := (invariant.fair id).once
    omega
  case h_2 pending found =>
    have unsettled := (invariant.pending _ id).mp (Record.mem_keys.mpr
      ⟨pending, Record.get?_eq_some.mp found⟩)
    rcases (world.sendCancelQuietly (world.requests id).caller
      pending.transport [id]).settlePending_request
      (world.requests id).caller (fun other _ => other == id)
      (fun entry => .rejected (browserRequestTransportError entry .timeout
        entry.timeoutMessage (world.cancelsQuietly
          (world.requests id).caller pending.transport))) false id with
      ⟨-, spared⟩ | ⟨entry, -, -, same⟩
    · have kept := spared pending (by
        rw [registries_sendCancelQuietly]
        exact found)
      simp at kept
    · rw [same, requests_sendCancelQuietly, Request.settle, unsettled.2.2]
      rfl

theorem Invariant.settles (invariant : world.Invariant) : world.Settles where
  once := fun id => (invariant.fair id).once
  __ := invariant
  expires := fun _ issued => timeout_settles invariant issued
  returned := by
    intro socket id message observed member
    exact (invariant.responses socket id message observed member).2.caller
  answered := by
    intro id result member
    exact ((invariant.fair id).justified _ member).resolved result rfl
  unknown := by
    intro id error mutates handed unseen member
    rcases ((invariant.fair id).justified _ member).rejected error rfl
      mutates with unknown | seen | ⟨-, unhanded⟩
    · exact unknown
    · rw [unseen] at seen
      cases seen
    · rw [handed] at unhanded
      cases unhanded

theorem run_settlesRequests (events : List BrowserEvent) :
    (run step {} events).Settles := by
  apply Invariant.settles
  apply run_induction _ initial_invariant
  intro world event
  exact step_invariant world event

end BrowserWorld

end MachineBridge.Browser
