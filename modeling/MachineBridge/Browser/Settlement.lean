import MachineBridge.Foundation.Text

/-!
# Settlements of browser requests

The errors of `browser-request-settlement.mjs`.  A request whose method may
change the page and which was sent without an observed response is settled with
an error that is not retryable and says that its effects are unknown; the text
of that error tells a client that its broker knew no more.
-/

namespace MachineBridge.Browser

open Foundation

def mutatingBrowserMethods : List Text :=
  [text "manage_tabs", text "point_action", text "backend_node_action",
    text "action", text "fill_form", text "upload_files", text "screenshot"]

def browserMethodMayMutate (method : Text) : Bool :=
  mutatingBrowserMethods.contains method

def browserMutationTransportUnknown : Text :=
  text "browser mutation request may have been dispatched; " ++
    text "the outcome is unknown because its response was not observed. " ++
    text "Inspect browser state before retrying."

def browserPostDispatchTransportFailure (method fallback : Text) : Text :=
  if browserMethodMayMutate method then browserMutationTransportUnknown
  else if fallback = [] then text "browser transport failed"
  else fallback.take 2000

/-- `/^[a-z][a-z0-9_]{0,63}$/` -/
def isBrowserMethod (method : Text) : Bool :=
  match method with
  | [] => false
  | first :: rest =>
    isLower first && decide (rest.length ≤ 63) &&
      rest.all fun unit => isLower unit || isDigit unit || unit == 0x5F

/-- `value.includes(content)` -/
def includes (content : Text) : Text → Bool
  | [] => content.isEmpty
  | unit :: rest => content.isPrefixOf (unit :: rest) || includes content rest

/-- What the registry and the broker read in a response.  A result stands for
an object which is not an array. -/
structure ResponseMessage where
  /-- Whether `ok` is true or false, when it is one of them. -/
  ok : Option Bool
  result : Option Nat := none
  (error settlement : Option Text := none)

def validError (message : ResponseMessage) : Option Text :=
  match message.error with
  | none => none
  | some error =>
    if error = [] || error.contains 0 || decide (2000 < error.length) then
      none
    else some error

inductive BrowserErrorCode where
  | timeout
  | unavailable
  | cancelled
  | executionFailed
  | limitExceeded
deriving DecidableEq

inductive SideEffects where
  | started
  | unknown
deriving DecidableEq

inductive EffectSettlement where
  | pending
  | unknown
  | applied
deriving DecidableEq

structure EffectDetails where
  /-- `request_delivery: "sent"` -/
  requestSent : Bool
  sideEffectsStarted : SideEffects
  terminationRequested : Bool
  effectSettlement : EffectSettlement

structure BrowserError where
  code : BrowserErrorCode
  message : Text
  retryable : Bool
  details : Option EffectDetails := none

/-- An entry of the registry; its callbacks are those of its request. -/
structure Pending where
  (callId method : Text)
  timeoutSeconds : Nat
  /-- The socket of a client over which the request goes. -/
  transport : Option Nat
  dispatchAttempted : Bool

section

variable (pending : Pending)

def Pending.mutation : Bool :=
  pending.dispatchAttempted && browserMethodMayMutate pending.method

def Pending.timeoutMessage : Text :=
  text "browser request timed out after " ++
    decimal pending.timeoutSeconds ++ text "s"

def boundedMessage (value : Text) : Text :=
  if value = [] then text "browser transport failed" else value.take 2000

def browserRequestTransportError (code : BrowserErrorCode) (fallback : Text)
    (terminationRequested : Bool) : BrowserError :=
  if pending.mutation then
    { code
      message := browserPostDispatchTransportFailure pending.method
        (boundedMessage fallback)
      retryable := false
      details := some {
        requestSent := true
        sideEffectsStarted := .unknown
        terminationRequested
        effectSettlement :=
          if terminationRequested then .pending else .unknown } }
  else
    { code
      message := boundedMessage fallback
      retryable := decide (code ≠ .cancelled) }

end

def mutationPartialPrefixes : List Text :=
  [text "browser mutation may have completed;",
    text "trusted browser input may have been partially dispatched",
    text "form submission failed after partial changes",
    text "browser action may have been dispatched",
    text "browser tab mutation may have been dispatched",
    text "browser screenshot temporary tab activation may have been dispatched",
    text "browser screenshot restoration may have been dispatched"]

section

variable (message : Text)

def textClaimsPartialMutation : Bool :=
  mutationPartialPrefixes.any fun start => start.isPrefixOf message

/-- What the extension declares of the effects of a request. -/
def declaredError (pending : Pending) (declared : Text) : BrowserError :=
  if declared = text "applied" then
    { code := .executionFailed
      message
      retryable := false
      details := some {
        requestSent := false
        sideEffectsStarted := .started
        terminationRequested := false
        effectSettlement := .applied } }
  else if pending.mutation && (decide (declared = text "unknown") ||
      (decide (declared ≠ text "not_started") &&
        textClaimsPartialMutation message)) then
    { code := .executionFailed
      message
      retryable := false
      details := some {
        requestSent := false
        sideEffectsStarted := .started
        terminationRequested := false
        effectSettlement := .unknown } }
  else { code := .executionFailed, message, retryable := false }

def browserRequestResponseError (pending : Pending)
    (settlement : Option Text) : BrowserError :=
  if message = text "browser broker is busy" then
    { code := .limitExceeded, message, retryable := true }
  else if message = text "browser extension is not connected" ∨
      message = text "browser extension send failed" then
    { code := .unavailable, message, retryable := true }
  else if (text "browser mutation request may have been dispatched;").isPrefixOf
      message then
    browserRequestTransportError pending .unavailable message false
  else if (text "browser broker request timed out after dispatch").isPrefixOf
      message then
    browserRequestTransportError pending .timeout message
      (pending.mutation && includes (text "cancellation requested") message)
  else if (text "browser connection changed after request dispatch").isPrefixOf
      message then
    browserRequestTransportError pending .unavailable message false
  else declaredError message pending (settlement.getD [])

end

def invalidBrowserResponseSettlement (pending : Pending) : BrowserError :=
  if pending.mutation then
    browserRequestTransportError pending .executionFailed
      (text "browser extension response was malformed") false
  else
    { code := .executionFailed
      message := text "browser extension response was malformed"
      retryable := false }

inductive Settlement where
  | resolved (result : Nat)
  | rejected (error : BrowserError)
  /-- Thrown before the request was sent. -/
  | refused (message : Text)

/-- `settle` of the registry. -/
def settleResponse (message : ResponseMessage) (pending : Pending) :
    Settlement :=
  match message.ok with
  | some false =>
    match validError message with
    | none => .rejected (invalidBrowserResponseSettlement pending)
    | some error =>
      .rejected (browserRequestResponseError error pending
        message.settlement)
  | some true =>
    match message.result with
    | some result => .resolved result
    | none => .rejected (invalidBrowserResponseSettlement pending)
  | none => .rejected (invalidBrowserResponseSettlement pending)

/-- The error says that nobody knows the effects of the request. -/
structure BrowserError.StatesUnknown (error : BrowserError) : Prop where
  final : error.retryable = false
  message : error.message = browserMutationTransportUnknown
  details : ∃ details, error.details = some details ∧
    details.sideEffectsStarted = .unknown

variable {pending : Pending}

section

variable (mutation : pending.mutation = true)
include mutation

theorem transportError_statesUnknown
    (code : BrowserErrorCode) (fallback : Text) (terminationRequested : Bool) :
    (browserRequestTransportError pending code fallback
    terminationRequested).StatesUnknown := by
  have mutates : browserMethodMayMutate pending.method = true := by
    rw [Pending.mutation, Bool.and_eq_true] at mutation
    exact mutation.2
  rw [browserRequestTransportError, if_pos mutation,
    browserPostDispatchTransportFailure, if_pos mutates]
  exact ⟨rfl, rfl, _, rfl, rfl⟩

theorem invalidResponse_statesUnknown :
    (invalidBrowserResponseSettlement pending).StatesUnknown := by
  rw [invalidBrowserResponseSettlement, if_pos mutation]
  apply transportError_statesUnknown mutation

theorem unknownResponse_statesUnknown
    (settlement : Option Text) : (browserRequestResponseError
    browserMutationTransportUnknown pending settlement).StatesUnknown := by
  have start :
      (text "browser mutation request may have been dispatched;").isPrefixOf
        browserMutationTransportUnknown = true := by decide +kernel
  have notBusy : browserMutationTransportUnknown ≠
      text "browser broker is busy" := by decide +kernel
  have sent : ¬ (browserMutationTransportUnknown =
        text "browser extension is not connected" ∨
      browserMutationTransportUnknown =
        text "browser extension send failed") := by decide +kernel
  rw [browserRequestResponseError, if_neg notBusy, if_neg sent, if_pos start]
  apply transportError_statesUnknown mutation

end

theorem unknown_validError (settlement : Option Text) :
    validError {
      ok := some false
      error := some browserMutationTransportUnknown
      settlement } = some browserMutationTransportUnknown := by
  have short : (browserMutationTransportUnknown = [] ||
      browserMutationTransportUnknown.contains 0 ||
      decide (2000 < browserMutationTransportUnknown.length)) = false := by
    decide +kernel
  simp only [validError, short, Bool.false_eq_true, if_false]

end MachineBridge.Browser
