import Mathlib.Data.Rat.Floor
import MachineBridge.Foundation.Number
import MachineBridge.Foundation.Text

/-!
# The security audit state

Audit records are normalised when they are appended and checked field by field
when the state is loaded.  The events form a hash chain which starts at the
anchor; eviction moves the anchor to the last event it removes.
-/

namespace MachineBridge.Audit

open Foundation List

/-- A value of unknown type in an audit input. -/
inductive AuditValue where
  | undefined
  | null
  | text (value : Text)
  | number (value : Rat)
  | nan
  | infinity (negative : Bool)
  | boolean (value : Bool)
  | object
deriving DecidableEq

namespace AuditValue

def truthy : AuditValue → Bool
  | .undefined => false
  | .null => false
  | .text value => !value.isEmpty
  | .number value => value != 0
  | .nan => false
  | .infinity _ => true
  | .boolean value => value
  | .object => true

def asText : AuditValue → Option Text
  | .text value => some value
  | _ => none

end AuditValue

structure AuditPrincipal where
  (kind accountId clientId familyId accountVersion : AuditValue := .undefined)
  role : AuditValue := .undefined

structure AuditInput where
  (outcome tool riskCategory targetHash : AuditValue := .undefined)
  (pseudonymEpoch operationRef : AuditValue := .undefined)
  principal : AuditPrincipal := {}
  (durationMs inputBytes outputBytes errorCode : AuditValue := .undefined)
  (requestDelivery sideEffectsStarted : AuditValue := .undefined)
  (effectSettlement terminationRequested : AuditValue := .undefined)

structure AuditRecord where
  input : AuditInput
  nowMs : AuditValue

inductive SideEffectsStarted where
  | known (started : Bool)
  | unknown
deriving DecidableEq

/-- An event without its hash.  The timestamp is the instant that its text
denotes. -/
structure AuditBody where
  sequence : Nat
  timestamp : Int
  (outcome tool riskCategory : Text)
  targetHash : Option Text
  pseudonymEpoch : Text
  (operationRef accountRef clientRef familyRef : Option Text)
  accountVersion : Option Int
  role : Text
  (durationMs inputBytes outputBytes : Nat)
  (errorCode requestDelivery : Option Text)
  sideEffectsStarted : Option SideEffectsStarted
  effectSettlement : Option Text
  terminationRequested : Option Bool
  previousHash : Text
deriving DecidableEq

structure AuditEvent extends AuditBody where
  hash : Text
deriving DecidableEq

structure AuditState where
  (schemaVersion legacyEventCount : Nat)
  (identitySalt anchor : Text)
  nextSequence : Nat
  events : List AuditEvent
deriving DecidableEq

/-- Digests, serialized sizes and random values, and the check of events which
an earlier release wrote. -/
structure AuditPlatform where
  eventHash : AuditBody → HexText 64
  reference : Text → Text → HexText 64
  eventBytes : AuditEvent → Nat
  /-- The size of a state without its events. -/
  headBytes : AuditState → Nat
  randomBytes : Nat → HexText 64
  validBeta198AuditEvent : AuditEvent → Bool

def auditSchemaVersion : Nat := 3

def auditMaxEvents : Nat := 4096

def auditMaxBytes : Nat := 4 * 1024 * 1024

inductive AuditFailure where
  | timestampInvalid
  | epochInvalid
  | timestampOutOfRange
  | exceedsSizeLimit
  | schemaInvalid
  | identityInvalid
  | sequenceInvalid
  | eventsInvalid
  | sequenceDidNotAdvance
  | chainInvalid
  | storage
deriving DecidableEq

def isHash (value : Text) : Bool := fits isHex 64 64 value

def tokenUnit (unit : UInt16) : Bool :=
  isUpper unit || isLower unit || isDigit unit || unit == 0x2E ||
    unit == 0x5F || unit == 0x3A || unit == 0x2D

def controlUnit (unit : UInt16) : Bool := unit ≤ 0x1F || unit == 0x7F

def boundedToken (value : AuditValue) (fallback : Text) : Text :=
  orElse ((((value.asText).getD fallback).map fun unit =>
    if tokenUnit unit then unit else 0x5F).take 128) fallback

def boundedText (value : AuditValue) (fallback : Text) (maximum : Nat) :
    Text :=
  orElse ((trim (((value.asText).getD fallback).map fun unit =>
    if controlUnit unit then 0x20 else unit)).take maximum) fallback

def boundedNumber : AuditValue → Nat
  | .number value => if 0 ≤ value then min ⌊value⌋.toNat maxSafeInteger else 0
  | _ => 0

def exactToken (value : AuditValue) (allowed : List Text) : Option Text :=
  value.asText.filter allowed.contains

def requestDeliveries : List Text := [text "sent", text "unknown"]

def effectSettlements : List Text := [text "unknown", text "pending"]

def exactSideEffectsStarted : AuditValue → Option SideEffectsStarted
  | .boolean value => some (.known value)
  | .text value => if value = text "unknown" then some .unknown else none
  | _ => none

def safeInteger : AuditValue → Option Int
  | .number value =>
    if value.den = 1 ∧ isSafeInt value.num then some value.num else none
  | _ => none

variable (platform : AuditPlatform)

def privateReference (salt : Text) (value : AuditValue) : Option Text :=
  (value.asText.filter fun content => !content.isEmpty).map fun content =>
    (platform.reference salt content).val

/-- The instant of a time value, and whether a date can hold it. -/
def dateOf (value : Rat) : Except AuditFailure Int :=
  let instant := if 0 ≤ value then ⌊value⌋ else ⌈value⌉
  if -8640000000000000 ≤ value ∧ value ≤ 8640000000000000 then .ok instant
  else .error .timestampOutOfRange

def validIsoTimestamp (instant : Int) : Bool :=
  -8640000000000000 ≤ instant && instant ≤ 8640000000000000

def lastHash (state : AuditState) : Text :=
  match state.events.getLast? with
  | none => state.anchor
  | some event => event.hash

def buildBody (input : AuditInput) (state : AuditState) (epoch : Text)
    (timestamp : Int) : AuditBody where
  sequence := state.nextSequence
  timestamp
  outcome := boundedToken input.outcome (text "unknown")
  tool := boundedToken input.tool (text "unknown")
  riskCategory :=
    boundedText input.riskCategory (text "ordinary operation") 160
  targetHash := input.targetHash.asText.filter isHash
  pseudonymEpoch := epoch
  operationRef := input.operationRef.asText.filter isHash
  accountRef := privateReference platform state.identitySalt
    input.principal.accountId
  clientRef := privateReference platform state.identitySalt
    input.principal.clientId
  familyRef := privateReference platform state.identitySalt
    input.principal.familyId
  accountVersion := safeInteger input.principal.accountVersion
  role := boundedToken input.principal.role
    (if input.principal.kind = .text (text "local") then text "local"
      else text "unknown")
  durationMs := boundedNumber input.durationMs
  inputBytes := boundedNumber input.inputBytes
  outputBytes := boundedNumber input.outputBytes
  errorCode :=
    if input.errorCode.truthy then
      some (boundedToken input.errorCode (text "unknown"))
    else none
  requestDelivery := exactToken input.requestDelivery requestDeliveries
  sideEffectsStarted := exactSideEffectsStarted input.sideEffectsStarted
  effectSettlement := exactToken input.effectSettlement effectSettlements
  terminationRequested :=
    match input.terminationRequested with
    | .boolean value => some value
    | _ => none
  previousHash := lastHash state

def eventOf (body : AuditBody) : AuditEvent :=
  { body with hash := (platform.eventHash body).val }

section

variable (state : AuditState)

def appendAuditRecord (record : AuditRecord) :
    Except AuditFailure AuditState :=
  match record.nowMs with
  | .number nowMs =>
    match record.input.pseudonymEpoch.asText.filter isHash with
    | none => .error .epochInvalid
    | some epoch => do
      let timestamp ← dateOf nowMs
      return { state with
        nextSequence := increment state.nextSequence
        events := state.events ++ [eventOf platform
          (buildBody platform record.input state epoch timestamp)] }
  | _ => .error .timestampInvalid

def appendAuditRecords (records : List AuditRecord) :
    Except AuditFailure AuditState :=
  records.foldlM (appendAuditRecord platform) state

def eventsBytes (events : List AuditEvent) : Nat :=
  (events.map platform.eventBytes).sum + (events.length - 1)

/-- How many of the events are removed until the rest fits. -/
def evictedForBytes (maximumBytes head : Nat) : List AuditEvent → Nat
  | [] => 0
  | event :: rest =>
    if maximumBytes < head + eventsBytes platform (event :: rest) then
      evictedForBytes maximumBytes head rest + 1
    else 0

def evict (start : Nat) : AuditState :=
  { state with
    anchor :=
      if start = 0 then state.anchor
      else (state.events[start - 1]?.map (·.hash)).getD state.anchor
    legacyEventCount := state.legacyEventCount - start
    events := state.events.drop start }

def boundedAuditState (maximumEvents maximumBytes : Nat) :
    Except AuditFailure AuditState :=
  let surplus := state.events.length - maximumEvents
  let start := surplus + evictedForBytes platform maximumBytes
    (platform.headBytes { state with events := [] })
    (state.events.drop surplus)
  let next := evict state start
  if maximumBytes < platform.headBytes { next with events := [] } +
      eventsBytes platform next.events then .error .exceedsSizeLimit
  else .ok next

def validStoredToken (value : Text) : Bool := fits tokenUnit 1 128 value

def validStoredText (value : Text) (maximum : Nat) : Bool :=
  0 < value.length && value.length ≤ maximum && value == trim value &&
    !value.any controlUnit

def validEvent (event : AuditEvent) : Bool :=
  (isSafeInteger event.sequence && 0 < event.sequence) &&
    validIsoTimestamp event.timestamp &&
    validStoredToken event.outcome &&
    validStoredToken event.tool &&
    validStoredText event.riskCategory 160 &&
    event.targetHash.all isHash &&
    isHash event.pseudonymEpoch &&
    event.operationRef.all isHash &&
    event.accountRef.all isHash &&
    event.clientRef.all isHash &&
    event.familyRef.all isHash &&
    event.accountVersion.all isSafeInt &&
    validStoredToken event.role &&
    isSafeInteger event.durationMs &&
    isSafeInteger event.inputBytes &&
    isSafeInteger event.outputBytes &&
    event.errorCode.all validStoredToken &&
    event.requestDelivery.all requestDeliveries.contains &&
    event.effectSettlement.all effectSettlements.contains &&
    isHash event.previousHash &&
    isHash event.hash

def validateState (schemaVersion maximumEvents : Nat) :
    Except AuditFailure Unit :=
  if state.schemaVersion ≠ schemaVersion ∨ schemaVersion ≠ 3 ∨
      !isSafeInteger state.legacyEventCount then .error .schemaInvalid
  else if !isHash state.identitySalt || !isHash state.anchor then
    .error .identityInvalid
  else if !isSafeInteger state.nextSequence || state.nextSequence < 1 then
    .error .sequenceInvalid
  else if maximumEvents < state.events.length ||
      state.events.length < state.legacyEventCount ||
      !(state.events.take state.legacyEventCount).all
        platform.validBeta198AuditEvent ||
      !(state.events.drop state.legacyEventCount).all validEvent then
    .error .eventsInvalid
  else if state.events.getLast?.any (fun event =>
      state.nextSequence ≤ event.sequence) then
    .error .sequenceDidNotAdvance
  else .ok ()

/-- Each event names the hash before it and carries its own. -/
def chained (previous : Text) : List AuditEvent → Bool
  | [] => true
  | event :: events =>
    event.previousHash == previous &&
      event.hash == (platform.eventHash event.toAuditBody).val &&
      chained event.hash events

def decodeAndVerifyAuditState
    (schemaVersion maximumEvents : Nat) : Except AuditFailure AuditState := do
  validateState platform state schemaVersion maximumEvents
  if chained platform state.anchor state.events then .ok state
  else .error .chainInvalid

end

def emptyAuditState (salt anchor : Text) : AuditState where
  schemaVersion := auditSchemaVersion
  legacyEventCount := 0
  identitySalt := salt
  anchor
  nextSequence := 1
  events := []

variable {platform}

variable {content : Text}

theorem validStoredToken_orElse {fallback : Text}
    (short : content.length ≤ 128) (clean : content.all tokenUnit = true)
    (valid : validStoredToken fallback = true) :
    validStoredToken (orElse content fallback) = true := by
  simp only [orElse]
  split
  case isTrue => exact valid
  case isFalse filled =>
    apply fits_iff.mpr
    refine ⟨?_, short, clean⟩
    apply length_pos_iff.mpr
    simpa using filled

section

variable (value : AuditValue)

theorem validStoredToken_boundedToken {fallback : Text}
    (valid : validStoredToken fallback = true) :
    validStoredToken (boundedToken value fallback) = true := by
  apply validStoredToken_orElse _ _ valid
  · exact length_take_le _ _
  · rw [all_eq_true]
    intro unit member
    obtain ⟨original, -, same⟩ := List.mem_map.mp (mem_of_mem_take member)
    rw [← same]
    split
    case isTrue allowed => exact allowed
    case isFalse => decide

def cleanedCategory : Text :=
  trim (((value.asText).getD (text "ordinary operation")).map fun unit =>
    if controlUnit unit then 0x20 else unit)

/-- The cut to the stored length does not end inside a run of whitespace. -/
def cutsCleanly : Bool :=
  !((cleanedCategory value).take 160).getLast?.any isWhitespace

end

section

variable (head : content.head?.any isWhitespace = false)
include head

theorem dropWhile_eq_self : content.dropWhile isWhitespace = content := by
  cases content with
  | nil => rfl
  | cons unit rest =>
    have visible : isWhitespace unit = false := by simpa using head
    simp [visible]

theorem trim_eq_self (last : content.getLast?.any isWhitespace = false) :
    trim content = content := by
  have reversed : content.reverse.head?.any isWhitespace = false := by
    rw [head?_reverse]
    exact last
  rw [trim, dropWhile_eq_self head, dropWhile_eq_self reversed,
    reverse_reverse]

end

theorem head_dropWhile (content : Text) :
    (content.dropWhile isWhitespace).head?.any isWhitespace = false := by
  induction content with
  | nil => rfl
  | cons unit rest induction =>
    cases visible : isWhitespace unit with
    | true => simpa [visible] using induction
    | false => simp [visible]

theorem head_trim (content : Text) :
    (trim content).head?.any isWhitespace = false := by
  have first := head_dropWhile content
  have ends := dropWhile_suffix (l :=
    (content.dropWhile isWhitespace).reverse) isWhitespace
  rw [trim]
  obtain ⟨removed, same⟩ := ends
  have split : content.dropWhile isWhitespace =
      ((content.dropWhile isWhitespace).reverse.dropWhile isWhitespace).reverse
      ++ removed.reverse := by
    rw [← reverse_append, same, reverse_reverse]
  cases kept : ((content.dropWhile isWhitespace).reverse.dropWhile
      isWhitespace).reverse with
  | nil => rfl
  | cons unit rest =>
    rw [split, kept] at first
    simpa using first

theorem validStoredText_boundedText {value : AuditValue}
    (clean : cutsCleanly value = true) :
    validStoredText (boundedText value (text "ordinary operation") 160) 160 =
    true := by
  show validStoredText (orElse ((cleanedCategory value).take 160)
    (text "ordinary operation")) 160 = true
  simp only [orElse]
  split
  case isTrue => decide
  case isFalse filled =>
    have head :
        ((cleanedCategory value).take 160).head?.any isWhitespace = false := by
      have first : (cleanedCategory value).head?.any isWhitespace = false :=
        head_trim _
      cases content : cleanedCategory value with
      | nil => rfl
      | cons unit rest =>
        rw [content] at first
        simpa using first
    have last : ((cleanedCategory value).take 160).getLast?.any isWhitespace =
        false := by
      simpa [cutsCleanly] using clean
    have visible :
        ((cleanedCategory value).take 160).any controlUnit = false := by
      apply any_eq_false.mpr
      intro unit member control
      have kept : unit ∈ cleanedCategory value :=
        mem_of_mem_take member
      have original : unit ∈
          ((value.asText).getD (text "ordinary operation")).map fun unit => if
          controlUnit unit then 0x20 else unit := by
        have inner : unit ∈ (List.dropWhile isWhitespace _) :=
          mem_reverse.mp ((dropWhile_sublist _).subset
            (mem_reverse.mp kept))
        exact (dropWhile_sublist _).subset inner
      obtain ⟨source, -, same⟩ := List.mem_map.mp original
      rw [← same] at control
      split at control
      case isTrue => exact absurd control (by decide)
      case isFalse plain => exact plain control
    simp only [validStoredText, Bool.and_eq_true, decide_eq_true_eq,
      beq_iff_eq, Bool.not_eq_true']
    refine ⟨⟨⟨?_, length_take_le _ _⟩, ?_⟩, visible⟩
    · apply length_pos_iff.mpr
      simpa using filled
    · exact (trim_eq_self head last).symm

theorem isSafeInteger_boundedNumber (value : AuditValue) :
    isSafeInteger (boundedNumber value) = true := by
  rw [isSafeInteger_iff]
  cases value with
  | number value =>
    simp only [boundedNumber]
    split
    case isTrue => exact Nat.min_le_right _ _
    case isFalse => exact Nat.zero_le _
  | _ => exact Nat.zero_le _

theorem all_filter_self {α : Type} (value : Option α) (condition : α → Bool) :
    (value.filter condition).all condition = true := by
  cases value with
  | none => rfl
  | some content => cases holds : condition content <;> simp [holds]

theorem isHash_privateReference (salt : Text) (value : AuditValue) :
    (privateReference platform salt value).all isHash = true := by
  simp only [privateReference]
  cases value.asText.filter fun content => !content.isEmpty with
  | none => rfl
  | some content => exact (platform.reference salt content).property

theorem isSafeInt_safeInteger (value : AuditValue) :
    (safeInteger value).all isSafeInt = true := by
  cases value with
  | number value =>
    simp only [safeInteger]
    split
    case isTrue safe => exact safe.2
    case isFalse => rfl
  | _ => rfl

theorem validIsoTimestamp_dateOf {value : Rat} {timestamp : Int}
    (read : dateOf value = .ok timestamp) :
    validIsoTimestamp timestamp = true := by
  simp only [dateOf] at read
  split at read
  case isFalse => cases read
  case isTrue range =>
    cases read
    obtain ⟨low, high⟩ := range
    simp only [validIsoTimestamp, Bool.and_eq_true, decide_eq_true_eq]
    have lowInt : (-8640000000000000 : Rat) =
        ((-8640000000000000 : Int) : Rat) := by norm_num
    have highInt : (8640000000000000 : Rat) =
        ((8640000000000000 : Int) : Rat) := by norm_num
    split
    case isTrue =>
      exact ⟨Int.le_floor.mpr low,
        Int.cast_le.mp (le_trans (Int.floor_le value) high)⟩
    case isFalse =>
      exact ⟨Int.cast_le.mp (le_trans low (Int.le_ceil value)),
        Int.ceil_le.mpr high⟩

theorem validEvent_buildBody {input : AuditInput} {state : AuditState}
    {epoch : Text} {timestamp : Int} (clean : cutsCleanly input.riskCategory)
    (safe : state.nextSequence ≤ maxSafeInteger)
    (positive : 0 < state.nextSequence) (epochHash : isHash epoch = true)
    (instant : validIsoTimestamp timestamp = true)
    (previous : isHash (lastHash state) = true) : validEvent
    (eventOf platform (buildBody platform input state epoch timestamp)) =
    true := by
  have unknown : validStoredToken (text "unknown") = true := by decide
  have role : validStoredToken (if input.principal.kind =
      .text (text "local") then text "local" else text "unknown") = true := by
    split
    case isTrue => decide
    case isFalse => exact unknown
  have errorCode : (if input.errorCode.truthy then
      some (boundedToken input.errorCode (text "unknown"))
        else none).all validStoredToken = true := by
    split
    case isTrue => exact validStoredToken_boundedToken _ unknown
    case isFalse => rfl
  have hash : isHash
      (eventOf platform (buildBody platform input state epoch timestamp)).hash
      = true :=
    (platform.eventHash _).property
  simp only [validEvent, Bool.and_eq_true]
  refine ⟨⟨⟨⟨⟨⟨⟨⟨⟨⟨⟨⟨⟨⟨⟨⟨⟨⟨⟨⟨⟨?_, ?_⟩, instant⟩, validStoredToken_boundedToken
    _ unknown⟩, validStoredToken_boundedToken _ unknown⟩,
    validStoredText_boundedText clean⟩, all_filter_self _ _⟩, epochHash⟩,
    all_filter_self _ _⟩, isHash_privateReference _ _⟩, isHash_privateReference
    _ _⟩, isHash_privateReference _ _⟩, isSafeInt_safeInteger _⟩,
    validStoredToken_boundedToken _ role⟩, isSafeInteger_boundedNumber _⟩,
    isSafeInteger_boundedNumber _⟩, isSafeInteger_boundedNumber _⟩, errorCode⟩,
    all_filter_self _ _⟩, all_filter_self _ _⟩, previous⟩, hash⟩
  · exact isSafeInteger_iff.mpr safe
  · exact decide_eq_true positive

end MachineBridge.Audit
