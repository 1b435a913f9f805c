import MachineBridge.Foundation.Json

/-!
# Verification of a computer action

An action is followed by checks of the effect which was expected of it.  Each
check is made on the evidence of the observations, and evidence can be missing.
-/

namespace MachineBridge.ComputerUse

open Foundation

inductive BrowserState where
  | attached
  | detached
  | visible
  | hidden
  | enabled
  | editable
  | checked
  | unchecked
deriving DecidableEq

inductive LoadState where
  | domcontentloaded
  | complete
deriving DecidableEq

structure BrowserElement where
  ref : Text
  (visible enabled editable checked : Option Bool := none)
  /-- The fields which only the comparison of identities reads. -/
  details : Json := .null

structure RefTarget where
  frameId : Option Int
  ref : Text
  element : BrowserElement

inductive BrowserTarget where
  | ref (target : RefTarget)
  | point

def BrowserTarget.ref? : BrowserTarget → Option RefTarget
  | .ref target => some target
  | .point => none

structure SemanticTarget where
  selector : Json
  occurrence : Nat

inductive ApplicationTarget where
  | ref (target : SemanticTarget)
  | point (semanticDelivery : Option SemanticTarget)

def applicationVerificationTarget : Option ApplicationTarget →
    Option SemanticTarget
  | some (.ref target) => some target
  | some (.point semanticDelivery) => semanticDelivery
  | none => none

abbrev FilledText := { content : Text // content ≠ [] }

structure BrowserConditions where
  urlContains : Option FilledText := none
  urlChanged : Option Bool := none
  content : Option FilledText := none
  loadState : Option LoadState := none
  targetState : Option BrowserState := none
  (semanticChange visualChange : Option Bool := none)
deriving DecidableEq

structure BrowserExpectation (target : Option BrowserTarget) extends
    BrowserConditions where
  targeted : targetState.isSome = true →
    (target.bind BrowserTarget.ref?).isSome = true
  nonempty : toBrowserConditions ≠ {}

structure ApplicationConditions where
  (frontmost semanticChange visualChange targetExists : Option Bool := none)
  (targetEnabled targetFocused targetChecked : Option Bool := none)
  (targetSelected targetExpanded targetValueMatches : Option Bool := none)
deriving DecidableEq

def hasApplicationTargetExpectation (value : ApplicationConditions) : Bool :=
  value.targetExists.isSome || value.targetEnabled.isSome ||
    value.targetFocused.isSome || value.targetChecked.isSome ||
    value.targetSelected.isSome || value.targetExpanded.isSome ||
    value.targetValueMatches.isSome

structure ApplicationExpectation (target : Option ApplicationTarget) extends
    ApplicationConditions where
  targeted : hasApplicationTargetExpectation toApplicationConditions = true →
    (applicationVerificationTarget target).isSome = true
  nonempty : toApplicationConditions ≠ {}

def requiredBoolean (value : Json) (label : Text) : Except Text Bool :=
  match value with
  | .boolean value => .ok value
  | _ => .error (label ++ text " must be boolean")

def requiredString (maxLength : Nat) (value : Json) (label : Text) :
    Except Text FilledText :=
  let failure := label ++ text " must be a non-empty string of at most " ++
    decimal maxLength ++ text " characters"
  match value with
  | .string content =>
    if filled : content ≠ [] then
      if 0 ∈ content ∨ maxLength < content.length then .error failure
      else .ok ⟨content, filled⟩
    else .error failure
  | _ => .error failure

section

variable (value : Json)

def optional {α : Type} (key : String) (read : Json → Text → Except Text α) :
    Except Text (Option α) :=
  match value.field? (text key) with
  | none => .ok none
  | some field => (read field (text "expect." ++ text key)).map some

def flag (key : String) : Except Text (Option Bool) :=
  optional value key requiredBoolean

def readName {α : Type} (names : List (String × α)) (failure : String)
    (value : Json) (_ : Text) : Except Text α :=
  match value with
  | .string content =>
    match names.find? fun name => text name.1 = content with
    | some name => .ok name.2
    | none => .error (text failure)
  | _ => .error (text failure)

def browserStates : List (String × BrowserState) :=
  [("attached", .attached), ("detached", .detached), ("visible", .visible),
    ("hidden", .hidden), ("enabled", .enabled), ("editable", .editable),
    ("checked", .checked), ("unchecked", .unchecked)]

def browserLoadStates : List (String × LoadState) :=
  [("domcontentloaded", .domcontentloaded), ("complete", .complete)]

def assertExpectationKeys (allowed : List String) (surface : String) :
    Except Text Unit :=
  match value with
  | .object fields =>
    match fields.find? fun field =>
        !allowed.any fun key => text key = field.1 with
    | none => .ok ()
    | some field => .error (text "expect." ++ field.1 ++
        text " is not valid for " ++ text surface)
  | _ => .error (text "expect must be an object")

def emptyExpectation : Text :=
  text "expect must contain at least one condition"

def normalizeBrowserExpectation (target : Option BrowserTarget) :
    Except Text (BrowserExpectation target) := do
  assertExpectationKeys value ["url_contains", "url_changed", "text",
    "load_state", "target_state", "semantic_change", "visual_change"] "browser"
  let urlContains ← optional value "url_contains" (requiredString 32768)
  let urlChanged ← flag value "url_changed"
  let semanticChange ← flag value "semantic_change"
  let visualChange ← flag value "visual_change"
  let content ← optional value "text" (requiredString 4000)
  let loadState ← optional value "load_state" (readName browserLoadStates
    "expect.load_state must be domcontentloaded or complete")
  let targetState ← optional value "target_state" (readName browserStates
    "expect.target_state is not supported")
  let output : BrowserConditions := ⟨urlContains, urlChanged, content, loadState,
    targetState, semanticChange, visualChange⟩
  if targeted : output.targetState.isSome = true →
      (target.bind BrowserTarget.ref?).isSome = true then
    if nonempty : output ≠ {} then .ok { output with targeted, nonempty }
    else .error emptyExpectation
  else .error (text "expect.target_state requires a semantic ref target")

def normalizeApplicationExpectation (target : Option ApplicationTarget) :
    Except Text (ApplicationExpectation target) := do
  assertExpectationKeys value ["frontmost", "target_exists", "target_enabled",
    "target_focused", "target_checked", "target_selected", "target_expanded",
    "target_value_matches", "semantic_change", "visual_change"] "application"
  let frontmost ← flag value "frontmost"
  let semanticChange ← flag value "semantic_change"
  let visualChange ← flag value "visual_change"
  let targetExists ← flag value "target_exists"
  let targetEnabled ← flag value "target_enabled"
  let targetFocused ← flag value "target_focused"
  let targetChecked ← flag value "target_checked"
  let targetSelected ← flag value "target_selected"
  let targetExpanded ← flag value "target_expanded"
  let targetValueMatches ← flag value "target_value_matches"
  let output : ApplicationConditions := ⟨frontmost, semanticChange, visualChange,
    targetExists, targetEnabled, targetFocused, targetChecked, targetSelected,
    targetExpanded, targetValueMatches⟩
  if targeted : hasApplicationTargetExpectation output = true →
      (applicationVerificationTarget target).isSome = true then
    if nonempty : output ≠ {} then .ok { output with targeted, nonempty }
    else .error emptyExpectation
  else .error (text
    "target expectations require a semantic application target")

end

structure FrameDocument where
  (epoch url : Option Text := none)

structure BrowserFrame where
  frameId : Int
  truncated : Bool
  document : FrameDocument := {}
  elements : List BrowserElement := []

structure BrowserObservation where
  frames : List BrowserFrame
  framesTruncated : Bool

def BrowserObservation.frame? (observation : BrowserObservation)
    (frameId : Int) : Option BrowserFrame :=
  observation.frames.find? fun frame => frame.frameId = frameId

structure ObservationDiff where
  (urlChanged semanticChanged screenshotChanged : Option Bool := none)

structure ApplicationElement where
  (enabled focused checked selected expanded : Option Bool := none)

structure ApplicationObservation where
  (frontmost truncated : Bool)

inductive Condition where
  | urlChanged
  | semanticChange
  | visualChange
  | targetIdentity
  | targetState
  | processIdentity
  | frontmost
  | targetExists
  | targetEnabled
  | targetFocused
  | targetChecked
  | targetSelected
  | targetExpanded
  | targetValueMatches

structure Check where
  condition : Condition
  matched : Bool
  inconclusive : Bool := false

section

variable (condition : Condition)

def differenceCheck (marked : Bool) (observed : Option Bool)
    (expected : Bool) : Check where
  condition := condition
  matched := observed == some expected
  inconclusive := marked && observed.isNone

def applicationPostTargetCheck (found : Option ApplicationElement)
    (field : Option (ApplicationElement → Option Bool))
    (coverageComplete : Bool) (expected : Bool) : Check :=
  if found.isNone && !coverageComplete then
    { condition, matched := false, inconclusive := true }
  else
    { condition
      matched := match field with
        | some field => found.any fun element => field element == some expected
        | none => found.isSome == expected }

end

def named {α : Type} (expected : Option Bool) (compare : Bool → α) : List α :=
  (expected.map compare).toList

inductive FrameEpochStatus where
  | unknown
  | same
  | changed
deriving DecidableEq

section

variable (before after : BrowserObservation) (target : RefTarget)

def browserTargetFrameEpochStatus : FrameEpochStatus :=
  match target.frameId with
  | none => .unknown
  | some frameId =>
    match before.frame? frameId, after.frame? frameId with
    | none, _ => .unknown
    | some _, none => if after.framesTruncated then .unknown else .changed
    | some beforeFrame, some afterFrame =>
      let beforeEpoch := beforeFrame.document.epoch.getD []
      let afterEpoch := afterFrame.document.epoch.getD []
      let beforeUrl := beforeFrame.document.url.getD []
      let afterUrl := afterFrame.document.url.getD []
      if beforeEpoch = [] ∨ afterEpoch = [] ∨ beforeUrl = [] ∨ afterUrl = [] then
        .unknown
      else if beforeEpoch = afterEpoch ∧ beforeUrl = afterUrl then .same
      else .changed

def browserObservedTargetState (element : BrowserElement) :
    BrowserState → Option Bool
  | .attached => some true
  | .detached => some false
  | .visible => element.visible
  | .hidden => element.visible.map not
  | .enabled => element.enabled
  | .editable => element.editable
  | .checked => element.checked
  | .unchecked => element.checked.map not

def gone (state : BrowserState) : Bool :=
  state == .detached || state == .hidden

def targetFrame? : Option BrowserFrame :=
  target.frameId.bind after.frame?

def targetElement? : Option BrowserElement :=
  (targetFrame? after target).bind fun frame =>
    frame.elements.find? fun element => element.ref = target.ref

def coverageComplete : Bool :=
  !after.framesTruncated && (targetFrame? after target).any (!·.truncated)

variable (sameTargetIdentity : BrowserElement → BrowserElement → Bool)
  (state : BrowserState)

def browserPostTargetStateChecks : List Check :=
  match browserTargetFrameEpochStatus before after target with
  | .unknown => [{
      condition := .targetState, matched := false, inconclusive := true }]
  | .changed => [{ condition := .targetState, matched := gone state }]
  | .same =>
    match targetElement? after target with
    | none =>
      if coverageComplete after target then
        [{ condition := .targetState, matched := gone state }]
      else [{
        condition := .targetState, matched := false, inconclusive := true }]
    | some element =>
      if sameTargetIdentity target.element element then
        { condition := .targetIdentity, matched := true } ::
          match browserObservedTargetState element state with
          | none => [{
              condition := .targetState, matched := false, inconclusive := true }]
          | some observed => [{ condition := .targetState, matched := observed }]
      else [{ condition := .targetIdentity, matched := false },
        { condition := .targetState, matched := false }]

end

structure Probe where
  matched : Bool
  /-- Without an answer the field is not set. -/
  waitMatched : Option Bool := none
  (postCheckPending inconclusive : Bool := false)
  postChecks : List Check := []

def computerActVerificationTimeoutProbe : Probe :=
  { matched := false, inconclusive := true }

section

variable {target : Option BrowserTarget} (expectation : BrowserExpectation target)

def browserExpectationNeedsPostObservation : Bool :=
  expectation.urlChanged.isSome || expectation.semanticChange.isSome ||
    expectation.visualChange.isSome || expectation.targetState.isSome

def hasWaitCondition : Bool :=
  expectation.urlContains.isSome || expectation.content.isSome ||
    expectation.loadState.isSome || expectation.targetState.isSome

/-- The wait is answered or it fails. -/
def verifyBrowserExpectation (answered : Bool) : Probe :=
  let pending := browserExpectationNeedsPostObservation expectation
  if hasWaitCondition expectation && !answered then
    { matched := false, waitMatched := some false, postCheckPending := pending }
  else
    { matched := !pending, waitMatched := some true,
      postCheckPending := pending }

variable (diff : ObservationDiff) (before after : BrowserObservation)
  (sameTargetIdentity : BrowserElement → BrowserElement → Bool)

def targetStateChecks : List Check :=
  match expectation.targetState, target.bind BrowserTarget.ref? with
  | none, _ => []
  | some _, none => [{ condition := .targetState, matched := false }]
  | some state, some target =>
    browserPostTargetStateChecks before after target sameTargetIdentity state

def browserPostChecks : List Check :=
  named expectation.urlChanged
    (differenceCheck .urlChanged false diff.urlChanged) ++
  named expectation.semanticChange
    (differenceCheck .semanticChange true diff.semanticChanged) ++
  named expectation.visualChange
    (differenceCheck .visualChange false diff.screenshotChanged) ++
  targetStateChecks expectation before after sameTargetIdentity

end

def Probe.combine (probe : Probe) (checks : List Check) : Probe :=
  let matched :=
    (if probe.postCheckPending then probe.waitMatched == some true
      else probe.matched) &&
    checks.all fun check => check.matched && !check.inconclusive
  let definitiveFailure := probe.waitMatched == some false ||
    checks.any fun check => !check.matched && !check.inconclusive
  let inconclusive := !definitiveFailure && checks.any (·.inconclusive)
  { probe with
    matched := matched && !inconclusive
    inconclusive
    postCheckPending := false
    postChecks := checks }

def combineBrowserPostChecks {target : Option BrowserTarget}
    (expectation : BrowserExpectation target) (probe : Probe)
    (diff : ObservationDiff) (before after : BrowserObservation)
    (sameTargetIdentity : BrowserElement → BrowserElement → Bool) : Probe :=
  probe.combine
    (browserPostChecks expectation diff before after sameTargetIdentity)

structure ApplicationPost where
  after : ApplicationObservation
  diff : ObservationDiff
  processChanged : Option Bool
  findTarget : SemanticTarget → Option ApplicationElement
  /-- Whether the value matches, when it can be read back. -/
  valueProbe : Option Bool

section

variable {target : Option ApplicationTarget}
  (expectation : ApplicationExpectation target) (post : ApplicationPost)

def applicationTargetChecks (found : Option ApplicationElement) : List Check :=
  let check := fun condition field =>
    applicationPostTargetCheck condition found field (!post.after.truncated)
  named expectation.targetExists (check .targetExists none) ++
  named expectation.targetEnabled
    (check .targetEnabled (some (·.enabled))) ++
  named expectation.targetFocused
    (check .targetFocused (some (·.focused))) ++
  named expectation.targetChecked
    (check .targetChecked (some (·.checked))) ++
  named expectation.targetSelected
    (check .targetSelected (some (·.selected))) ++
  named expectation.targetExpanded
    (check .targetExpanded (some (·.expanded))) ++
  named expectation.targetValueMatches
    (differenceCheck .targetValueMatches true post.valueProbe)

def applicationPostChecks : List Check :=
  (if post.processChanged = some true then
    [{ condition := .processIdentity, matched := false }] else []) ++
  named expectation.frontmost
    (differenceCheck .frontmost false (some post.after.frontmost)) ++
  named expectation.semanticChange
    (differenceCheck .semanticChange true post.diff.semanticChanged) ++
  named expectation.visualChange
    (differenceCheck .visualChange false post.diff.screenshotChanged) ++
  match applicationVerificationTarget target with
  | none => []
  | some verificationTarget =>
    applicationTargetChecks expectation post (post.findTarget verificationTarget)

def verifyApplicationExpectation : Probe :=
  let postChecks := applicationPostChecks expectation post
  let definitiveFailure :=
    postChecks.any fun check => !check.matched && !check.inconclusive
  { matched := !postChecks.isEmpty && postChecks.all (·.matched)
    inconclusive := !definitiveFailure && postChecks.any (·.inconclusive)
    postChecks }

end

inductive DispatchStatus where
  | completed
  | unknown
deriving DecidableEq

inductive EffectStatus where
  | confirmed
  | notObserved
  | unknown
deriving DecidableEq

def classifyEffectStatus (dispatchStatus : DispatchStatus)
    (verificationProbe : Probe) (postCapture : Bool) : EffectStatus :=
  if verificationProbe.matched then .confirmed
  else if verificationProbe.inconclusive then .unknown
  else if dispatchStatus = .unknown ∨ !postCapture then .unknown
  else .notObserved

/-- A browser action, up to the observation after it. -/
structure BrowserAct where
  target : Option BrowserTarget
  expectation : BrowserExpectation target
  dispatchStatus : DispatchStatus
  sameTargetIdentity : BrowserElement → BrowserElement → Bool
  before : BrowserObservation
  /-- Whether the wait was answered; without time left there is no wait. -/
  wait : Option Bool
  post : Option (BrowserObservation × ObservationDiff)
  /-- Time which has run out for the wait has run out for the capture. -/
  late : wait = none → post = none

def BrowserAct.effectStatus (act : BrowserAct) : EffectStatus :=
  let probe := match act.wait with
    | none => computerActVerificationTimeoutProbe
    | some answered => verifyBrowserExpectation act.expectation answered
  match act.post with
  | none => classifyEffectStatus act.dispatchStatus probe false
  | some (after, diff) =>
    classifyEffectStatus act.dispatchStatus (combineBrowserPostChecks
      act.expectation probe diff act.before after act.sameTargetIdentity) true

structure ApplicationAct where
  target : Option ApplicationTarget
  expectation : ApplicationExpectation target
  dispatchStatus : DispatchStatus
  post : Option ApplicationPost

def ApplicationAct.effectStatus (act : ApplicationAct) : EffectStatus :=
  match act.post with
  | none => classifyEffectStatus act.dispatchStatus
      computerActVerificationTimeoutProbe false
  | some post => classifyEffectStatus act.dispatchStatus
      (verifyApplicationExpectation act.expectation post) true

section

variable (before after : BrowserObservation) (target : RefTarget)
  (sameTargetIdentity : BrowserElement → BrowserElement → Bool)
  (state : BrowserState)

def targetStateEvidence : Option Bool :=
  match browserTargetFrameEpochStatus before after target with
  | .unknown => none
  | .changed => some (gone state)
  | .same =>
    match targetElement? after target with
    | none => if coverageComplete after target then some (gone state) else none
    | some element =>
      if sameTargetIdentity target.element element then
        browserObservedTargetState element state
      else some false

end

def targetEvidence (found : Option ApplicationElement)
    (field : Option (ApplicationElement → Option Bool))
    (coverageComplete : Bool) (expected : Bool) : Option Bool :=
  match found, field with
  | none, _ =>
    if coverageComplete then some (field.isNone && !expected) else none
  | some _, none => some expected
  | some element, some field => (field element).map (· == expected)

def differenceEvidence (observed : Option Bool) (expected : Bool) :
    Option Bool :=
  observed.map (· == expected)

/-- What was found of every condition, the conditions of the wait together. -/
def BrowserAct.evidence (act : BrowserAct) : List (Option Bool) :=
  let expectation := act.expectation
  (if hasWaitCondition expectation then [act.wait] else []) ++
    match act.post with
    | none =>
      if browserExpectationNeedsPostObservation expectation then [none] else []
    | some (after, diff) =>
      named expectation.urlChanged (differenceEvidence diff.urlChanged) ++
      named expectation.semanticChange
        (differenceEvidence diff.semanticChanged) ++
      named expectation.visualChange
        (differenceEvidence diff.screenshotChanged) ++
      match expectation.targetState, act.target.bind BrowserTarget.ref? with
      | some state, some target => [targetStateEvidence act.before after target
          act.sameTargetIdentity state]
      | _, _ => []

def ApplicationPost.targetEvidence {target : Option ApplicationTarget}
    (expectation : ApplicationExpectation target) (post : ApplicationPost)
    (found : Option ApplicationElement) : List (Option Bool) :=
  let evidence := fun expected field => named expected
    (ComputerUse.targetEvidence found field (!post.after.truncated))
  evidence expectation.targetExists none ++
  evidence expectation.targetEnabled (some (·.enabled)) ++
  evidence expectation.targetFocused (some (·.focused)) ++
  evidence expectation.targetChecked (some (·.checked)) ++
  evidence expectation.targetSelected (some (·.selected)) ++
  evidence expectation.targetExpanded (some (·.expanded)) ++
  named expectation.targetValueMatches (differenceEvidence post.valueProbe)

/-- What was found of every condition and of the identity of the process. -/
def ApplicationAct.evidence (act : ApplicationAct) : List (Option Bool) :=
  match act.post with
  | none => [none]
  | some post =>
    (if post.processChanged = some true then [some false] else []) ++
    named act.expectation.frontmost
      (differenceEvidence (some post.after.frontmost)) ++
    named act.expectation.semanticChange
      (differenceEvidence post.diff.semanticChanged) ++
    named act.expectation.visualChange
      (differenceEvidence post.diff.screenshotChanged) ++
    match applicationVerificationTarget act.target with
    | none => []
    | some target => post.targetEvidence act.expectation (post.findTarget target)

structure Sound (evidence : List (Option Bool)) (status : EffectStatus) :
    Prop where
  confirmed : status = .confirmed → ∀ found ∈ evidence, found = some true
  notObserved : status = .notObserved → some false ∈ evidence
  unknown : none ∈ evidence → some false ∉ evidence → status = .unknown

/-- An unknown difference which no check marks. -/
def Unmarked (expected observed : Option Bool) : Prop :=
  expected.isSome = true ∧ observed = none

def BrowserAct.Overlooks (act : BrowserAct) : Prop :=
  ∃ after diff, act.post = some (after, diff) ∧
    (Unmarked act.expectation.urlChanged diff.urlChanged ∨
      Unmarked act.expectation.visualChange diff.screenshotChanged)

/-- The element has not the field which a condition names. -/
def LacksField {target : Option ApplicationTarget}
    (expectation : ApplicationExpectation target)
    (element : ApplicationElement) : Prop :=
  Unmarked expectation.targetEnabled element.enabled ∨
    Unmarked expectation.targetFocused element.focused ∨
    Unmarked expectation.targetChecked element.checked ∨
    Unmarked expectation.targetSelected element.selected ∨
    Unmarked expectation.targetExpanded element.expanded

def ApplicationAct.Overlooks (act : ApplicationAct) : Prop :=
  ∃ post, act.post = some post ∧
    (Unmarked act.expectation.visualChange post.diff.screenshotChanged ∨
      ∃ target element, applicationVerificationTarget act.target = some target ∧
        post.findTarget target = some element ∧
        LacksField act.expectation element)

/-- The checks of a part of the conditions, and whether one of them hides that
there is no evidence. -/
structure Reports (evidence : List (Option Bool)) (checks : List Check)
    (hidden : Prop) : Prop where
  met : (∀ check ∈ checks, check.matched = true) ↔
    ∀ found ∈ evidence, found = some true
  failed : (∃ check ∈ checks, check.matched = false ∧
    check.inconclusive = false) ↔ some false ∈ evidence ∨ hidden
  marked : ∀ check ∈ checks, check.inconclusive = true → check.matched = false
  missing : hidden → none ∈ evidence

section

variable {evidence more : List (Option Bool)} {checks others : List Check}
  {hidden another : Prop} {found : Option Bool} {check : Check}

theorem Reports.nil : Reports [] [] False :=
  ⟨by simp, by simp, by simp, False.elim⟩

theorem Reports.congr (reports : Reports evidence checks hidden)
    (same : hidden ↔ another) : Reports evidence checks another :=
  propext same ▸ reports

theorem Reports.append (reports : Reports evidence checks hidden)
    (also : Reports more others another) :
    Reports (evidence ++ more) (checks ++ others) (hidden ∨ another) where
  met := by
    simp only [List.forall_mem_append]
    rw [reports.met, also.met]
  failed := by
    simp only [List.mem_append, or_and_right, exists_or]
    rw [reports.failed, also.failed]
    exact or_or_or_comm
  marked := List.forall_mem_append.mpr ⟨reports.marked, also.marked⟩
  missing := by
    rintro (first | second)
    · exact List.mem_append_left _ (reports.missing first)
    · exact List.mem_append_right _ (also.missing second)

theorem reports_single (matched : check.matched = (found == some true))
    (conclusive : check.inconclusive = true → found = none) :
    Reports [found] [check] (found = none ∧ check.inconclusive = false) where
  met := by simp [matched]
  failed := by
    cases found with
    | none => simp [matched]
    | some found =>
      have known : check.inconclusive = false := by
        simpa using mt conclusive
      simp [matched, known]
  marked := by
    simp only [List.forall_mem_singleton]
    intro inconclusive
    simp [matched, conclusive inconclusive]
  missing := fun missing => by simp [missing.1]

theorem reports_named {expected : Option Bool} {checkOf : Bool → Check}
    {evidence : Bool → Option Bool} {hides : Bool → Prop}
    (each : ∀ value, Reports [evidence value] [checkOf value] (hides value)) :
    Reports (named expected evidence) (named expected checkOf)
      (∃ value, expected = some value ∧ hides value) := by
  cases expected with
  | none => exact Reports.nil.congr (by simp)
  | some value => exact (each value).congr (by simp)

theorem reports_difference {expected observed : Option Bool} {marked : Bool}
    {condition : Condition} :
    Reports (named expected (differenceEvidence observed))
      (named expected (differenceCheck condition marked observed))
      (marked = false ∧ Unmarked expected observed) := by
  refine (reports_named fun value => reports_single ?_ ?_).congr ?_
  · cases observed <;> simp [differenceCheck, differenceEvidence]
  · cases observed <;> simp [differenceCheck, differenceEvidence]
  · cases expected <;> cases observed <;>
      simp [differenceCheck, differenceEvidence, Unmarked]

theorem reports_target {expected : Option Bool} {condition : Condition}
    {found : Option ApplicationElement} {complete : Bool}
    {field : Option (ApplicationElement → Option Bool)} :
    Reports (named expected (targetEvidence found field complete))
      (named expected
        (applicationPostTargetCheck condition found field complete))
      (∃ element read, found = some element ∧ field = some read ∧
        Unmarked expected (read element)) := by
  refine (reports_named fun value => reports_single ?_ ?_).congr ?_
  · cases found with
    | none =>
      cases complete <;> cases field <;> cases value <;>
        simp [applicationPostTargetCheck, targetEvidence]
    | some element =>
      cases field with
      | none => simp [applicationPostTargetCheck, targetEvidence]
      | some read =>
        cases seen : read element <;>
          simp [applicationPostTargetCheck, targetEvidence, seen]
  · cases found <;> cases complete <;>
      simp [applicationPostTargetCheck, targetEvidence]
  · cases found with
    | none =>
      cases complete <;> simp [applicationPostTargetCheck, targetEvidence]
    | some element =>
      cases field <;> cases expected <;>
        simp [applicationPostTargetCheck, targetEvidence, Unmarked]

/-- The status says what the evidence is, unless a check hides that there is
none and nothing else is found to be false. -/
theorem sound_iff_of_reports {dispatchStatus : DispatchStatus} {probe : Probe}
    (reports : Reports evidence checks hidden)
    (matched : probe.matched = true ↔ ∀ check ∈ checks, check.matched = true)
    (inconclusive : probe.inconclusive = true ↔
      (¬ ∃ check ∈ checks, check.matched = false ∧
        check.inconclusive = false) ∧
      ∃ check ∈ checks, check.inconclusive = true) :
    Sound evidence (classifyEffectStatus dispatchStatus probe true) ↔
      ¬ (dispatchStatus = .completed ∧ some false ∉ evidence ∧ hidden) := by
  rw [reports.met] at matched
  rw [reports.failed] at inconclusive
  have unmet (missing : none ∈ evidence) : probe.matched = false := by
    rw [Bool.eq_false_iff, ne_eq, matched]
    intro met
    cases met none missing
  by_cases met : probe.matched = true
  · have found := matched.mp met
    have known : none ∉ evidence := fun missing => by
      rw [unmet missing] at met
      cases met
    rw [classifyEffectStatus, if_pos met]
    exact iff_of_true ⟨fun _ => found, nofun, fun missing => absurd missing known⟩
      fun holds => known (reports.missing holds.2.2)
  rw [classifyEffectStatus, if_neg met]
  by_cases failed : some false ∈ evidence ∨ hidden
  · rw [if_neg fun marked => (inconclusive.mp marked).1 failed]
    cases dispatchStatus with
    | unknown => exact iff_of_true ⟨nofun, nofun, fun _ _ => rfl⟩ nofun
    | completed =>
      refine ⟨fun sound holds => holds.2.1 (sound.notObserved rfl),
        fun shown => ?_⟩
      have seen : some false ∈ evidence := by
        by_contra unseen
        exact shown ⟨rfl, unseen, failed.resolve_left unseen⟩
      exact ⟨nofun, fun _ => seen, fun _ unseen => absurd seen unseen⟩
  · have marked : probe.inconclusive = true := by
      refine inconclusive.mpr ⟨failed, ?_⟩
      rw [← reports.failed] at failed
      rw [matched, ← reports.met] at met
      obtain ⟨check, member, unmatched⟩ := not_forall₂.mp met
      rw [Bool.not_eq_true] at unmatched
      refine ⟨check, member, ?_⟩
      by_contra conclusive
      rw [Bool.not_eq_true] at conclusive
      exact failed ⟨check, member, unmatched, conclusive⟩
    rw [if_pos marked]
    exact iff_of_true ⟨nofun, nofun, fun _ _ => rfl⟩
      fun holds => failed (.inr holds.2.2)

end

theorem reports_targetState {before after : BrowserObservation}
    {target : RefTarget} {state : BrowserState}
    {sameTargetIdentity : BrowserElement → BrowserElement → Bool} :
    Reports [targetStateEvidence before after target sameTargetIdentity state]
      (browserPostTargetStateChecks before after target sameTargetIdentity state)
      False := by
  have unknown : Reports [none] [{
      condition := .targetState, matched := false, inconclusive := true }]
      False := (reports_single rfl fun _ => rfl).congr (by simp)
  have known (matched : Bool) : Reports [some matched] [{
      condition := .targetState, matched }] False :=
    (reports_single (by simp) (by simp)).congr (by simp)
  have identified {evidence : List (Option Bool)} {checks : List Check}
      (reports : Reports evidence checks False) : Reports evidence
        ({ condition := .targetIdentity, matched := true } :: checks) False :=
    ⟨by simp [reports.met], by simp [← reports.failed],
      by simpa using reports.marked, False.elim⟩
  unfold targetStateEvidence browserPostTargetStateChecks
  split
  case h_1 => exact unknown
  case h_2 => exact known _
  case h_3 =>
    split
    case h_1 =>
      split
      case isTrue => exact known _
      case isFalse => exact unknown
    case h_2 element found =>
      split
      case isTrue =>
        cases observed : browserObservedTargetState element state with
        | none => exact identified unknown
        | some matched => exact identified (known matched)
      case isFalse => exact ⟨by simp, by simp, by simp, False.elim⟩

theorem reports_targetStateChecks {target : Option BrowserTarget}
    {expectation : BrowserExpectation target}
    {before after : BrowserObservation}
    {sameTargetIdentity : BrowserElement → BrowserElement → Bool} :
    Reports (match expectation.targetState, target.bind BrowserTarget.ref? with
        | some state, some target => [targetStateEvidence before after target
            sameTargetIdentity state]
        | _, _ => [])
      (targetStateChecks expectation before after sameTargetIdentity) False := by
  have targeted := expectation.targeted
  unfold targetStateChecks
  cases named : expectation.targetState with
  | none => exact Reports.nil
  | some state =>
    rw [named] at targeted
    cases bound : target.bind BrowserTarget.ref? with
    | none =>
      rw [bound] at targeted
      cases targeted rfl
    | some target => exact reports_targetState

section

variable {target : Option BrowserTarget}
  (expectation : BrowserExpectation target) (answered : Bool)
  {checks : List Check}

def waitCheck : Check where
  condition := .targetState
  matched := answered || !hasWaitCondition expectation

theorem reports_wait :
    Reports (if hasWaitCondition expectation then [some answered] else [])
      [waitCheck expectation answered] False := by
  unfold waitCheck
  cases hasWaitCondition expectation with
  | true => exact (reports_single (by simp) (by simp)).congr (by simp)
  | false => exact ⟨by simp, by simp, by simp, False.elim⟩

theorem verify_waits :
    let probe := verifyBrowserExpectation expectation answered
    probe.waitMatched = some (waitCheck expectation answered).matched ∧
      (if probe.postCheckPending then probe.waitMatched == some true
        else probe.matched) = (waitCheck expectation answered).matched := by
  unfold verifyBrowserExpectation waitCheck
  cases answered <;> cases hasWaitCondition expectation <;>
    cases browserExpectationNeedsPostObservation expectation <;> exact ⟨rfl, rfl⟩

theorem combine_matched (marked : ∀ check ∈ checks,
      check.inconclusive = true → check.matched = false) :
    ((verifyBrowserExpectation expectation answered).combine checks).matched =
      true ↔ ∀ check ∈ waitCheck expectation answered :: checks,
        check.matched = true := by
  simp only [Probe.combine, (verify_waits expectation answered).2,
    List.forall_mem_cons]
  rw [Bool.and_eq_true, Bool.and_eq_true, List.all_eq_true]
  constructor
  · rintro ⟨⟨waited, all⟩, -⟩
    exact ⟨waited, fun check member =>
      (Bool.and_eq_true_iff.mp (all check member)).1⟩
  · rintro ⟨waited, all⟩
    have conclusive : ∀ check ∈ checks, check.inconclusive = false := by
      intro check member
      by_contra inconclusive
      rw [Bool.not_eq_false] at inconclusive
      cases (marked check member inconclusive).symm.trans (all check member)
    refine ⟨⟨waited, fun check member => ?_⟩, ?_⟩
    · simp [all check member, conclusive check member]
    · have none : checks.any (·.inconclusive) = false := by
        simpa using conclusive
      simp [none]

theorem combine_inconclusive :
    ((verifyBrowserExpectation expectation answered).combine
        checks).inconclusive = true ↔
      (¬ ∃ check ∈ waitCheck expectation answered :: checks,
        check.matched = false ∧ check.inconclusive = false) ∧
      ∃ check ∈ waitCheck expectation answered :: checks,
        check.inconclusive = true := by
  have known : (waitCheck expectation answered).inconclusive = false := rfl
  simp [Probe.combine, (verify_waits expectation answered).1, known]

end

theorem BrowserAct.sound_iff (act : BrowserAct) :
    Sound act.evidence act.effectStatus ↔
      ¬ (act.dispatchStatus = .completed ∧ some false ∉ act.evidence ∧
        act.Overlooks) := by
  obtain ⟨target, expectation, dispatchStatus, sameTargetIdentity, before, wait,
    post, late⟩ := act
  cases post with
  | none =>
    refine iff_of_true ?_ fun ⟨_, _, _, _, absent, _⟩ => by cases absent
    cases wait with
    | none => exact ⟨nofun, nofun, fun _ _ => rfl⟩
    | some answered =>
      simp only [BrowserAct.evidence, BrowserAct.effectStatus,
        verifyBrowserExpectation]
      cases answered <;> cases hasWaitCondition expectation <;>
        cases browserExpectationNeedsPostObservation expectation <;>
        constructor <;> simp [classifyEffectStatus]
  | some post =>
    cases wait with
    | none => cases late rfl
    | some answered =>
      obtain ⟨after, diff⟩ := post
      have reports : Reports _ (browserPostChecks expectation diff before after
          sameTargetIdentity) _ :=
        ((reports_difference.append reports_difference).append
          reports_difference).append reports_targetStateChecks
      have all := (reports_wait expectation answered).append reports
      refine (sound_iff_of_reports all (combine_matched _ _ reports.marked)
        (combine_inconclusive _ _)).trans ?_
      simp [BrowserAct.Overlooks, BrowserAct.evidence]

section

variable {target : Option ApplicationTarget}
  (expectation : ApplicationExpectation target) (post : ApplicationPost)

theorem reports_applicationTarget (found : Option ApplicationElement) :
    Reports (post.targetEvidence expectation found)
      (applicationTargetChecks expectation post found)
      (∃ element, found = some element ∧ LacksField expectation element) := by
  have reports : Reports (post.targetEvidence expectation found)
      (applicationTargetChecks expectation post found) _ :=
    (((((reports_target.append reports_target).append reports_target).append
      reports_target).append reports_target).append reports_target).append
        reports_difference
  refine reports.congr ?_
  cases found <;> simp [LacksField, or_assoc]

theorem applicationPostChecks_ne_nil :
    applicationPostChecks expectation post ≠ [] := by
  obtain ⟨conditions, targeted, nonempty⟩ := expectation
  intro empty
  simp only [applicationPostChecks, List.append_eq_nil_iff, named,
    Option.toList_eq_nil_iff, Option.map_eq_none_iff] at empty
  obtain ⟨⟨⟨⟨-, frontmost⟩, semantic⟩, visual⟩, rest⟩ := empty
  have untargeted : hasApplicationTargetExpectation conditions = false := by
    cases bound : applicationVerificationTarget target with
    | none => simpa [bound] using targeted
    | some known =>
      rw [bound] at rest
      simpa [applicationTargetChecks, named, hasApplicationTargetExpectation,
        and_assoc] using rest
  apply nonempty
  obtain ⟨_, _, _, _, _, _, _, _, _, _⟩ := conditions
  simp only [hasApplicationTargetExpectation, Bool.or_eq_false_iff,
    Option.isSome_eq_false_iff, Option.isNone_iff_eq_none] at untargeted
  simp_all

end

theorem ApplicationAct.sound_iff (act : ApplicationAct) :
    Sound act.evidence act.effectStatus ↔
      ¬ (act.dispatchStatus = .completed ∧ some false ∉ act.evidence ∧
        act.Overlooks) := by
  obtain ⟨target, expectation, dispatchStatus, post⟩ := act
  cases post with
  | none =>
    refine iff_of_true ⟨nofun, nofun, fun _ _ => rfl⟩ fun holds => ?_
    obtain ⟨-, -, post, none, -⟩ := holds
    cases none
  | some post =>
    have process : Reports
        (if post.processChanged = some true then [some false] else [])
        (if post.processChanged = some true then
          [{ condition := .processIdentity, matched := false }] else [])
        False := by
      split
      case isTrue =>
        exact (reports_single (by simp) (by simp)).congr (by simp)
      case isFalse => exact Reports.nil
    have targets : Reports
        (match applicationVerificationTarget target with
          | none => []
          | some target =>
            post.targetEvidence expectation (post.findTarget target))
        (match applicationVerificationTarget target with
          | none => []
          | some target =>
            applicationTargetChecks expectation post (post.findTarget target))
        (∃ known element, applicationVerificationTarget target = some known ∧
          post.findTarget known = some element ∧
          LacksField expectation element) := by
      cases applicationVerificationTarget target with
      | none => exact Reports.nil.congr (by simp)
      | some target =>
        exact (reports_applicationTarget expectation post _).congr (by simp)
    have reports : Reports (ApplicationAct.mk target expectation dispatchStatus
        (some post)).evidence (applicationPostChecks expectation post) _ :=
      (((process.append reports_difference).append reports_difference).append
        reports_difference).append targets
    refine (sound_iff_of_reports reports ?_ ?_).trans ?_
    · have filled := applicationPostChecks_ne_nil expectation post
      simp [verifyApplicationExpectation, filled]
    · simp [verifyApplicationExpectation]
    · simp [ApplicationAct.Overlooks, Unmarked]

/-- The status is sound exactly when no check which hides that there is no
evidence decides it. -/
theorem effectStatus_sound_iff (browser : BrowserAct)
    (application : ApplicationAct) :
    (Sound browser.evidence browser.effectStatus ↔
      ¬ (browser.dispatchStatus = .completed ∧
        some false ∉ browser.evidence ∧ browser.Overlooks)) ∧
    (Sound application.evidence application.effectStatus ↔
      ¬ (application.dispatchStatus = .completed ∧
        some false ∉ application.evidence ∧ application.Overlooks)) :=
  ⟨browser.sound_iff, application.sound_iff⟩

/-- The screenshot after a click was not kept. -/
def omittedScreenshot : BrowserAct where
  target := none
  expectation := ⟨{ visualChange := some true }, nofun, by decide⟩
  dispatchStatus := .completed
  sameTargetIdentity := fun _ _ => true
  before := ⟨[], false⟩
  wait := some true
  post := some (⟨[], false⟩, { semanticChanged := some false })
  late := nofun

/-- The click is reported as without effect. -/
theorem omittedScreenshot_notSound :
    ¬ Sound omittedScreenshot.evidence omittedScreenshot.effectStatus := by
  intro sound
  have reported : omittedScreenshot.effectStatus = .notObserved := by decide
  have found := sound.notObserved reported
  revert found
  decide

end MachineBridge.ComputerUse
