import MachineBridge.Browser.Settlement
import MachineBridge.Foundation.Record
import MachineBridge.Foundation.Run

/-!
# Routing of browser requests

The owner of the broker holds the socket of the extension.  It sends requests
of its own and routes those of its clients, each of which is a runtime with a
registry of its own.  Messages between a client and the broker keep their order
and may be lost with their socket; the extension answers as it likes.
-/

namespace MachineBridge.Browser

open Foundation

inductive Caller where
  | owner
  | client (number : Nat)
deriving DecidableEq

/-- Parameters of a request; a broker accepts only objects. -/
inductive Params where
  | object (value : Nat)
  | other
deriving DecidableEq

inductive ClientMessage where
  | request (id : Nat) (method : Text) (params : Params) (timeoutMs : Int)
  | cancel (id : Nat)

/-- A response remembers whether it is one of the extension. -/
inductive BrokerMessage where
  | hello (extensionConnected : Bool)
  | status (extensionConnected : Bool)
  | response (id : Nat) (message : ResponseMessage) (observed : Bool)

/-- The identifiers which the extension sees: those of the owner's requests and
those of routes. -/
inductive ExtensionId where
  | browser (id : Nat)
  | proxy (number : Nat)
  | unknown

inductive ExtensionMessage where
  | request (id : ExtensionId) (method : Text) (params : Params)
      (timeoutMs : Int)
  | cancel (id : ExtensionId)

/-- The connection of a client to the broker; each end has its ready state, and
a send may throw. -/
structure Socket where
  client : Nat := 0
  clientOpen : Bool := true
  (clientFails clientClosed : Bool := false)
  brokerOpen : Bool := true
  (brokerFails brokerClosed : Bool := false)
  toBroker : List ClientMessage := []
  toClient : List BrokerMessage := []

/-- `safeSocketSend` at the broker's end. -/
def Socket.send (socket : Socket) (messages : List BrokerMessage) : Socket :=
  if socket.brokerOpen && !socket.brokerFails then
    { socket with toClient := socket.toClient ++ messages }
  else socket

/-- A message of a client is lost when its end is not open. -/
def Socket.sendBroker (socket : Socket) (messages : List ClientMessage) :
    Socket :=
  if socket.clientOpen then
    { socket with toBroker := socket.toBroker ++ messages }
  else socket

structure Extension where
  isOpen : Bool := true
  fails : Bool := false

structure Client where
  upstream : Option Nat := none
  proxyExtensionConnected : Bool := false

structure Route where
  (socket id : Nat)
  method : Text
  dispatchAttempted : Bool

/-- The history of a request: whether the broker read it, whether it was handed
to the socket of the extension, what the extension answered, whether such an
answer reached the caller, and how the request was settled. -/
structure Request where
  caller : Caller := .owner
  method : Text := []
  socket : Option Nat := none
  (consumed handed : Bool := false)
  answers : List ResponseMessage := []
  observed : Bool := false
  settlements : List Settlement := []

namespace Request

section

variable (request : Request)

def settle (settlement : Settlement) (observed : Bool) : Request :=
  { request with
    settlements := settlement :: request.settlements
    observed := request.observed || observed }

def consume : Request := { request with consumed := true }

def hand : Request :=
  { request with consumed := true, handed := true }

def answer (message : ResponseMessage) : Request :=
  { request with answers := message :: request.answers }

end

end Request

structure BrowserWorld where
  registries : Caller → Record Nat Pending := fun _ => .empty
  clients : Nat → Client := fun _ => {}
  sockets : Nat → Socket := fun _ => {}
  nextSocket : Nat := 0
  brokerClients : List Nat := []
  extension : Option Extension := none
  toExtension : List ExtensionMessage := []
  routes : Record Nat Route := .empty
  nextRoute : Nat := 0
  routesSettled : Nat → Nat := fun _ => 0
  requests : Nat → Request := fun _ => {}
  issued : Nat := 0

inductive BrowserEvent where
  | request (caller : Caller) (method : Text) (params : Params)
      (timeoutSeconds : Int) (callId : Text) (bytes : Nat)
  | timeout (caller : Caller) (id : Nat)
  | cancelCall (caller : Caller) (callId : Text) (timedOut : Bool)
  | connect (client : Nat)
  | brokerReceives (socket : Nat)
  | clientReceives (socket : Nat)
  /-- The ready state of an end is no longer that of an open socket. -/
  | clientCloses (socket : Nat)
  | brokerCloses (socket : Nat)
  /-- The `close` event of an end. -/
  | clientClosed (socket : Nat)
  | brokerClosed (socket : Nat)
  | clientFails (socket : Nat) (fails : Bool)
  | brokerFails (socket : Nat) (fails : Bool)
  | routeTimeout (number : Nat)
  | extensionHello
  | extensionCloses
  | extensionClosed
  | extensionFails (fails : Bool)
  | extensionResponse (id : ExtensionId) (message : ResponseMessage)
  | broadcast
  | stop (caller : Caller)

def maxPending : Nat := 32

def maxRoutes : Nat := maxPending * 4

def maxBrowserMessageBytes : Nat := 8 * 1024 * 1024

namespace BrowserWorld

variable (world : BrowserWorld)

def setSocket (number : Nat) (socket : Socket) : BrowserWorld :=
  { world with sockets := Function.update world.sockets number socket }

def setClient (number : Nat) (client : Client) : BrowserWorld :=
  { world with clients := Function.update world.clients number client }

def changeRequest (id : Nat) (change : Request → Request) : BrowserWorld :=
  { world with
    requests := Function.update world.requests id
      (change (world.requests id)) }

def extensionConnected : Bool := world.extension.any (·.isOpen)

/-- `sendExtension` for messages after which nobody waits. -/
def sendExtension (messages : List ExtensionMessage) : BrowserWorld :=
  match world.extension with
  | none => world
  | some extension =>
    if extension.isOpen && !extension.fails then
      { world with toExtension := world.toExtension ++ messages }
    else world

section

variable (caller : Caller)

def settlePending (selected : Nat → Pending → Bool)
    (settlement : Pending → Settlement) (observed : Bool) : BrowserWorld :=
  { world with
    registries := Function.update world.registries caller
      ((world.registries caller).filter fun id pending => !selected id pending)
    requests := fun id =>
      match (world.registries caller).get? id with
      | some pending =>
        if selected id pending then
          (world.requests id).settle (settlement pending) observed
        else world.requests id
      | none => world.requests id }

/-- Whether `sendCancelQuietly` succeeds; there may be no transport. -/
def cancelsQuietly (transport : Option Nat) : Bool :=
  match caller, transport with
  | .owner, _ => !world.extension.any (·.fails)
  | .client _, none => true
  | .client _, some socket => !(world.sockets socket).clientFails

def sendCancelQuietly (transport : Option Nat) (ids : List Nat) :
    BrowserWorld :=
  match caller, transport with
  | .owner, _ => world.sendExtension (ids.map fun id => .cancel (.browser id))
  | .client _, none => world
  | .client _, some socket =>
    if (world.sockets socket).clientFails then world
    else world.setSocket socket
      ((world.sockets socket).sendBroker (ids.map .cancel))

end

def timeout (caller : Caller) (id : Nat) : BrowserWorld :=
  match (world.registries caller).get? id with
  | none => world
  | some pending =>
    (world.sendCancelQuietly caller pending.transport [id]).settlePending
      caller (fun other _ => other == id)
      (fun entry => .rejected (browserRequestTransportError entry .timeout
        entry.timeoutMessage
        (world.cancelsQuietly caller pending.transport))) false

/-- The socket over which a caller sends now. -/
def currentTransport : Caller → Option Nat
  | .owner => none
  | .client number => (world.clients number).upstream

section

variable (caller : Caller)

def cancelCall (callId : Text) (timedOut : Bool) : BrowserWorld :=
  if callId = [] then world
  else
    (world.sendCancelQuietly caller (world.currentTransport caller)
      ((world.registries caller).filter fun _ pending =>
        decide (pending.callId = callId)).keys).settlePending caller
      (fun _ pending => decide (pending.callId = callId))
      (fun pending => .rejected (browserRequestTransportError pending
        (if timedOut then .timeout else .cancelled)
        (if timedOut then text "browser request timed out"
          else text "browser request cancelled")
        (world.cancelsQuietly caller (world.currentTransport caller)))) false

def rejectPending (message : Text) : BrowserWorld :=
  world.settlePending caller (fun _ _ => true)
    (fun pending => .rejected (browserRequestTransportError pending
      .unavailable message false)) false

/-- `settle` of the registry. -/
def settle (id : Nat) (message : ResponseMessage) (observed : Bool) :
    BrowserWorld :=
  world.settlePending caller (fun other _ => other == id)
    (settleResponse message) observed

/-- A request which throws before it is sent. -/
def refuse (method message : Text) : BrowserWorld :=
  { world with
    requests := Function.update world.requests world.issued {
      caller
      method
      consumed := true
      settlements := [.refused message] }
    issued := world.issued + 1 }

def transport : Caller → Option (Option Nat)
  | .owner => if world.extensionConnected then some none else none
  | .client number =>
    match (world.clients number).upstream with
    | none => none
    | some socket =>
      if (world.sockets socket).clientOpen &&
          (world.clients number).proxyExtensionConnected then
        some (some socket)
      else none

def register (pending : Pending) : BrowserWorld :=
  { world with
    registries := Function.update world.registries caller
      ((world.registries caller).set world.issued pending)
    requests := Function.update world.requests world.issued {
      caller
      method := pending.method
      socket := pending.transport }
    issued := world.issued + 1 }

def sendFailed (id : Nat) : BrowserWorld :=
  world.settlePending caller (fun other _ => other == id)
    (fun pending => .rejected (browserRequestTransportError pending
      .unavailable (text "browser extension send failed") false)) false

/-- `transport.send` -/
def dispatch (id : Nat) (pending : Pending) (params : Params)
    (timeoutMs : Int) : BrowserWorld :=
  match pending.transport with
  | none =>
    let handed := world.changeRequest id Request.hand
    if world.extension.any (·.fails) then handed.sendFailed caller id
    else handed.sendExtension
      [.request (.browser id) pending.method params timeoutMs]
  | some socket =>
    if (world.sockets socket).clientFails then
      world.sendFailed caller id
    else world.setSocket socket ((world.sockets socket).sendBroker
      [.request id pending.method params timeoutMs])

end

def request (caller : Caller) (method : Text) (params : Params)
    (timeoutSeconds : Int) (callId : Text) (bytes : Nat) : BrowserWorld :=
  match world.transport caller with
  | none => world.refuse caller method
      (text "browser extension is not connected; " ++
        text "call pair_browser_extension after loading the packaged extension")
  | some transport =>
    if maxPending ≤ (world.registries caller).size then
      world.refuse caller method
        (text "too many concurrent browser requests")
    else if !isBrowserMethod method then
      world.refuse caller method (text "browser request method is invalid")
    else if timeoutSeconds < 1 ∨ 185 < timeoutSeconds then
      world.refuse caller method
        (text "browser request timeout is invalid")
    else if maxBrowserMessageBytes < bytes then
      world.refuse caller method
        (text "browser request exceeds maximum message size")
    else
      let pending : Pending := {
        callId
        method
        timeoutSeconds := timeoutSeconds.toNat
        transport
        dispatchAttempted := true }
      (world.register caller pending).dispatch caller world.issued pending
        params (timeoutSeconds * 1000)

def postDispatchRouteFailure (route : Route) (fallback : Text) : Text :=
  if route.dispatchAttempted then
    browserPostDispatchTransportFailure route.method fallback
  else if fallback = [] then text "browser transport failed"
  else fallback

def failure (error : Text) : ResponseMessage :=
  { ok := some false, error := some error }

section

variable (selected : Nat → Route → Bool)

/-- Routes are dropped, perhaps with a response to their clients. -/
def settleRoutes (answer : Route → Option (ResponseMessage × Bool)) :
    BrowserWorld :=
  { world with
    routes := world.routes.filter fun number route => !selected number route
    routesSettled := fun number =>
      match world.routes.get? number with
      | some route =>
        if selected number route then world.routesSettled number + 1
        else world.routesSettled number
      | none => world.routesSettled number
    sockets := fun socket => (world.sockets socket).send
      (world.routes.entries.filterMap fun entry =>
        if selected entry.1 entry.2 && entry.2.socket == socket then
          (answer entry.2).map fun response =>
            .response entry.2.id response.1 response.2
        else none) }

def cancelRoutes : BrowserWorld :=
  (world.settleRoutes selected fun _ => none).sendExtension
    ((world.routes.filter selected).keys.map fun number =>
      .cancel (.proxy number))

end

/-- `removeClient` -/
def removeClient (socket : Nat) : BrowserWorld :=
  BrowserWorld.cancelRoutes
    { world with brokerClients := world.brokerClients.filter (· != socket) }
    fun _ route => route.socket == socket

def cancelClientRequest (socket id : Nat) : BrowserWorld :=
  world.cancelRoutes fun _ route => route.socket == socket && route.id == id

/-- `rejectAll` of the routes. -/
def rejectProxyRoutes (message : Text) : BrowserWorld :=
  world.settleRoutes (fun _ _ => true) fun route =>
    some (failure (postDispatchRouteFailure route message), false)

def routeTimeout (number : Nat) : BrowserWorld :=
  match world.routes.get? number with
  | none => world
  | some _ =>
    (world.settleRoutes (fun other _ => other == number) fun route =>
      some (failure (postDispatchRouteFailure route
        (text "browser broker request timed out")), false)).sendExtension
      [.cancel (.proxy number)]

def settlementValues : List Text :=
  [text "not_started", text "unknown", text "applied", text "unchanged"]

def validSettlement (settlement : Option Text) : Option Text :=
  settlement.filter settlementValues.contains

/-- What the broker makes of a response of the extension, and whether it passes
it on. -/
def forward (message : ResponseMessage) (route : Route) :
    ResponseMessage × Bool :=
  let malformed := failure (postDispatchRouteFailure route
    (text "browser extension response was malformed"))
  match message.ok with
  | some true =>
    match message.result with
    | some result => ({ ok := some true, result := some result }, true)
    | none => (malformed, false)
  | some false =>
    match validError message with
    | some error =>
      ({ ok := some false
         error := some error
         settlement := validSettlement message.settlement }, true)
    | none => (malformed, false)
  | none => (malformed, false)

def settleExtensionResponse (number : Nat) (message : ResponseMessage) :
    BrowserWorld :=
  match world.routes.get? number with
  | none => world
  | some route =>
    (world.changeRequest route.id (·.answer message)).settleRoutes
      (fun other _ => other == number) fun route =>
        some (forward message route)

def respond (socket : Nat) (id : Nat) (error : Text) : BrowserWorld :=
  world.setSocket socket ((world.sockets socket).send
    [.response id (failure error) false])

/-- A route for a request, and `sendExtensionRequest`. -/
def openRoute (socket id : Nat) (method : Text) (params : Params)
    (timeoutMs : Int) : BrowserWorld :=
  let number := world.nextRoute
  let opened := { world with nextRoute := number + 1 }
  let dropped := { opened with
    routesSettled := Function.update world.routesSettled number 1 }
  let route (dispatchAttempted : Bool) : Route :=
    { socket, id, method, dispatchAttempted }
  let failed := text "browser extension send failed"
  match world.extension with
  | none => (dropped.changeRequest id Request.consume).respond socket id
      (postDispatchRouteFailure (route false) failed)
  | some extension =>
    if !extension.isOpen then
      (dropped.changeRequest id Request.consume).respond socket id
        (postDispatchRouteFailure (route false) failed)
    else if extension.fails then
      (dropped.changeRequest id Request.hand).respond socket id
        (postDispatchRouteFailure (route true) failed)
    else
      (BrowserWorld.changeRequest
        { opened with routes := world.routes.set number (route true) }
        id Request.hand).sendExtension
          [.request (.proxy number) method params timeoutMs]

def closeBrokerEnd (socket : Nat) : BrowserWorld :=
  world.setSocket socket { world.sockets socket with brokerOpen := false }

/-- `handleClientMessage` for a request. -/
def handleRequest (socket id : Nat) (method : Text) (params : Params)
    (timeoutMs : Int) : BrowserWorld :=
  let read := world.changeRequest id Request.consume
  if !isBrowserMethod method || params == .other then
    read.closeBrokerEnd socket
  else if !world.extensionConnected then
    read.respond socket id (text "browser extension is not connected")
  else if maxRoutes ≤ world.routes.size then
    read.respond socket id (text "browser broker is busy")
  else if timeoutMs < 1000 ∨ 185000 < timeoutMs then
    read.respond socket id (text "invalid browser request timeout")
  else world.openRoute socket id method params timeoutMs

def handleClientMessage (socket : Nat) : ClientMessage → BrowserWorld
  | .request id method params timeoutMs =>
    world.handleRequest socket id method params timeoutMs
  | .cancel id => world.cancelClientRequest socket id

def brokerReceives (socket : Nat) : BrowserWorld :=
  if (world.sockets socket).brokerClosed then world
  else
    match (world.sockets socket).toBroker with
    | [] => world
    | message :: rest =>
      (world.setSocket socket
        { world.sockets socket with toBroker := rest }).handleClientMessage
        socket message

def broadcastStatus (connected : Bool) : BrowserWorld :=
  { world with
    sockets := fun socket =>
      if socket ∈ world.brokerClients then
        (world.sockets socket).send [.status connected]
      else world.sockets socket }

/-- `acceptClient` -/
def connect (client : Nat) : BrowserWorld :=
  { world with
    sockets := Function.update world.sockets world.nextSocket {
      client
      toClient := [.hello world.extensionConnected] }
    nextSocket := world.nextSocket + 1
    brokerClients := world.nextSocket :: world.brokerClients }

def brokerClosed (socket : Nat) : BrowserWorld :=
  (world.setSocket socket { world.sockets socket with
    brokerOpen := false
    brokerClosed := true }).removeClient socket

def extensionHello : BrowserWorld :=
  let message := text "browser extension was replaced; " ++
    text "retry the browser request"
  let replaced := { world with extension := some {} }
  match world.extension with
  | none => replaced.broadcastStatus true
  | some _ =>
    ((replaced.rejectPending .owner message).rejectProxyRoutes
      message).broadcastStatus true

def extensionClosed : BrowserWorld :=
  match world.extension with
  | none => world
  | some _ =>
    let message := text "browser extension disconnected"
    ((BrowserWorld.rejectPending { world with extension := none } .owner
      message).rejectProxyRoutes message).broadcastStatus false

def wellFormed (message : ResponseMessage) : Bool :=
  match message.ok with
  | some true => message.result.isSome
  | some false => (validError message).isSome
  | none => false

/-- `handleExtensionMessage` for a response. -/
def extensionResponse (id : ExtensionId) (message : ResponseMessage) :
    BrowserWorld :=
  match world.extension, id with
  | none, _ => world
  | some _, .browser id =>
    if (world.registries .owner).contains id then
      (world.changeRequest id (·.answer message)).settle .owner id message
        (wellFormed message)
    else world
  | some _, .proxy number => world.settleExtensionResponse number message
  | some _, .unknown => world

/-- `handleUpstreamMessage`, after the hello of the broker. -/
def handleUpstreamMessage (socket : Nat) : BrokerMessage → BrowserWorld
  | .hello connected =>
    world.setClient (world.sockets socket).client {
      upstream := some socket
      proxyExtensionConnected := connected }
  | .status connected =>
    let number := (world.sockets socket).client
    let changed := world.setClient number
      { world.clients number with proxyExtensionConnected := connected }
    if connected then changed
    else changed.rejectPending (.client number)
      (text "browser extension disconnected")
  | .response id message observed =>
    world.settle (.client (world.sockets socket).client) id message observed

def clientReceives (socket : Nat) : BrowserWorld :=
  if (world.sockets socket).clientClosed then world
  else
    match (world.sockets socket).toClient with
    | [] => world
    | message :: rest =>
      (world.setSocket socket
        { world.sockets socket with toClient := rest }).handleUpstreamMessage
        socket message

def clientClosed (socket : Nat) : BrowserWorld :=
  let number := (world.sockets socket).client
  let closed := world.setSocket socket { world.sockets socket with
    clientOpen := false
    clientClosed := true }
  if (world.clients number).upstream = some socket then
    (closed.setClient number {}).rejectPending (.client number)
      (text "browser broker disconnected")
  else closed

/-- `closeBrokerTransports` -/
def stop (caller : Caller) : BrowserWorld :=
  let message := text "browser bridge stopped"
  match caller with
  | .owner =>
    let rejected := (world.rejectPending .owner message).rejectProxyRoutes
      message
    { rejected with
      extension := none
      brokerClients := []
      sockets := fun socket =>
        if socket ∈ world.brokerClients then
          { rejected.sockets socket with brokerOpen := false }
        else rejected.sockets socket }
  | .client number =>
    let rejected := world.rejectPending (.client number) message
    match (world.clients number).upstream with
    | none => rejected.setClient number {}
    | some socket =>
      (rejected.setSocket socket
        { rejected.sockets socket with clientOpen := false }).setClient
        number {}

def socketStep (socket : Nat) (next : BrowserWorld) : BrowserWorld :=
  if socket < world.nextSocket then next else world

def step : BrowserEvent → BrowserWorld
  | .request caller method params timeoutSeconds callId bytes =>
    world.request caller method params timeoutSeconds callId bytes
  | .timeout caller id => world.timeout caller id
  | .cancelCall caller callId timedOut =>
    world.cancelCall caller callId timedOut
  | .connect client => world.connect client
  | .brokerReceives socket =>
    world.socketStep socket (world.brokerReceives socket)
  | .clientReceives socket =>
    world.socketStep socket (world.clientReceives socket)
  | .clientCloses socket =>
    world.socketStep socket (world.setSocket socket
      { world.sockets socket with clientOpen := false })
  | .brokerCloses socket =>
    world.socketStep socket (world.closeBrokerEnd socket)
  | .clientClosed socket => world.socketStep socket (world.clientClosed socket)
  | .brokerClosed socket => world.socketStep socket (world.brokerClosed socket)
  | .clientFails socket fails =>
    world.socketStep socket (world.setSocket socket
      { world.sockets socket with clientFails := fails })
  | .brokerFails socket fails =>
    world.socketStep socket (world.setSocket socket
      { world.sockets socket with brokerFails := fails })
  | .routeTimeout number => world.routeTimeout number
  | .extensionHello => world.extensionHello
  | .extensionCloses =>
    { world with
      extension := world.extension.map ({ · with isOpen := false }) }
  | .extensionClosed => world.extensionClosed
  | .extensionFails fails =>
    { world with extension := world.extension.map ({ · with fails }) }
  | .extensionResponse id message => world.extensionResponse id message
  | .broadcast => world.broadcastStatus world.extensionConnected
  | .stop caller => world.stop caller

end BrowserWorld

end MachineBridge.Browser
