import MachineBridge.Foundation.Numbering
import MachineBridge.Tasks.Store

/-!
# Claims of job monitors

A rendered monitor of a job claims the job for its principal.  The claims are
one stored value, which also counts the claims written so far: the claim with
the lowest number goes first when there are too many.
-/

namespace MachineBridge.Mcp

open Foundation Authority

def jobMonitorClaimTtlMs : Nat := 5 * 60 * 1000

def maxJobMonitorClaims : Nat := 128

inductive ClaimState where
  | issued
  | active
  | claimed
deriving DecidableEq

structure Claim where
  (jobId monitorId : Text)
  state : ClaimState
  (expiresAt sequence : Nat)
  (ownerKind ownerAccountId : Text)
  ownerAccountVersion : Nat
  (ownerClientId ownerFamilyId ownerRole : Text)

structure ClaimsState where
  schemaVersion : Nat := 1
  sequence : Nat
  claims : List Claim

/-- The value under the store key. -/
abbrev ClaimStorage := Option ClaimsState

def jobIdPattern : Text → Bool := Tasks.isMcpTaskJobId

def monitorIdPattern : Text → Bool :=
  labelled (text "mcp_jm_") (fits isHex 32 32)

/-- An identifier of a job.  The callers of the store have tested it. -/
abbrev JobId := { jobId : Text // jobIdPattern jobId = true }

/-- A reading of the clock which a date can hold. -/
abbrev Instant := { now : Nat // Tasks.validTimestamp now = true }

def nonempty (value : Text) : Bool := !value.isEmpty

def validClaim (claim : Claim) : Bool :=
  jobIdPattern claim.jobId && monitorIdPattern claim.monitorId &&
    (isSafeInteger claim.expiresAt && 0 < claim.expiresAt) &&
    (isSafeInteger claim.sequence && 0 < claim.sequence) &&
    (claim.ownerKind == text "account" && nonempty claim.ownerAccountId) &&
    (isSafeInteger claim.ownerAccountVersion &&
      0 < claim.ownerAccountVersion) &&
    (nonempty claim.ownerClientId && nonempty claim.ownerFamilyId &&
      nonempty claim.ownerRole)

def validClaimSet (claims : List Claim) (sequence : Nat) : Bool :=
  decide (claims.map (·.monitorId)).Nodup &&
    decide (claims.map (·.sequence)).Nodup &&
    claims.all fun claim => claim.sequence ≤ sequence

def validClaimsState (state : ClaimsState) : Bool :=
  state.schemaVersion == 1 && isSafeInteger state.sequence &&
    state.claims.length ≤ maxJobMonitorClaims &&
    state.claims.all validClaim && validClaimSet state.claims state.sequence

/-- `none` where the read throws. -/
def readClaims : ClaimStorage → Option ClaimsState
  | none => some { sequence := 0, claims := [] }
  | some state => if validClaimsState state then some state else none

def hexDigit (value : Nat) : UInt16 :=
  if value < 10 then (0x30 + value).toUInt16 else (0x57 + value).toUInt16

def hexByte (byte : UInt8) : Text :=
  [hexDigit (byte.toNat / 16), hexDigit (byte.toNat % 16)]

/-- The identifier from sixteen random bytes. -/
def createMonitorId (bytes : Fin 16 → UInt8) : Text :=
  text "mcp_jm_" ++ (List.ofFn bytes).flatMap hexByte

def makeClaim (jobId monitorId : Text) (authorized : Tasks.AuthorizedToken)
    (state : ClaimState) (now sequence : Nat) : Claim where
  jobId
  monitorId
  state
  expiresAt := now + jobMonitorClaimTtlMs
  sequence
  ownerKind := text "account"
  ownerAccountId := authorized.accountId
  ownerAccountVersion := authorized.accountVersion
  ownerClientId := authorized.clientId
  ownerFamilyId := authorized.familyId
  ownerRole := authorized.role

def Claim.matchesAuthorized (claim : Claim)
    (authorized : Tasks.AuthorizedToken) : Bool :=
  claim.ownerAccountId == authorized.accountId &&
    claim.ownerAccountVersion == authorized.accountVersion &&
    claim.ownerClientId == authorized.clientId &&
    claim.ownerFamilyId == authorized.familyId &&
    claim.ownerRole == authorized.role

section

variable (state : ClaimsState)

def exactClaim (jobId monitorId : Text) (authorized : Tasks.AuthorizedToken) :
    Option Claim :=
  state.claims.find? fun claim =>
    claim.jobId == jobId && claim.monitorId == monitorId &&
      claim.matchesAuthorized authorized

def pruneClaims (now : Nat) (claims : List Claim) : List Claim :=
  claims.filter fun claim =>
    claim.state == .claimed || decide (now < claim.expiresAt)

def replaceClaim (previous next : Claim) : ClaimsState :=
  let index := state.claims.findIdx (·.monitorId == previous.monitorId)
  { state with claims := state.claims.set index next }

/-- The place which the search for the lowest number ends at. -/
def oldestIndex (claims : List Claim) : Nat :=
  claims.zipIdx.foldl
    (fun best item =>
      let least := (claims[best]?.map (·.sequence)).getD maxSafeInteger
      if item.1.sequence < least then item.2 else best) 0

def evictOldest (claims : List Claim) : List Claim :=
  claims.eraseIdx (oldestIndex claims)

/-- As long as there is no room for one more; the number counts down the
claims. -/
def evictUntilRoom : Nat → List Claim → List Claim
  | 0, claims => claims
  | count + 1, claims =>
    if maxJobMonitorClaims ≤ claims.length then
      evictUntilRoom count (evictOldest claims)
    else claims

/-- Whether the counter has nearly reached the largest safe integer. -/
def exhausted (sequence : Nat) : Bool :=
  decide (maxSafeInteger - 1 ≤ sequence)

def withSequence (claim : Claim) (sequence : Nat) : Claim :=
  { claim with sequence }

/-- The counter of the result is the number which is given out. -/
def bumpSequence : ClaimsState :=
  if exhausted state.sequence then
    let claims := renumbered (·.sequence) withSequence state.claims
    { state with sequence := claims.length + 1, claims }
  else { state with sequence := state.sequence + 1 }

end

/-- `draws` are the random bytes as they are drawn.  No answer stands for a read
which throws, and for draws which all gave an identifier in use. -/
def issue (jobId : JobId) (authorized : Tasks.AuthorizedToken)
    (draws : List (Fin 16 → UInt8)) (now : Instant) (storage : ClaimStorage) :
    Option (Text × ClaimStorage) :=
  match readClaims storage with
  | none => none
  | some state =>
    let others := (pruneClaims now.val state.claims).filter fun claim =>
      claim.jobId != jobId.val || !claim.matchesAuthorized authorized
    let claims := evictUntilRoom others.length others
    match (draws.map createMonitorId).find? fun monitorId =>
        !claims.any (·.monitorId == monitorId) with
    | none => none
    | some monitorId =>
      let bumped := bumpSequence { state with claims }
      let claim := makeClaim jobId.val monitorId authorized .issued
        now.val bumped.sequence
      -- The list which is pushed to was read before the counter is bumped,
      -- and numbering anew makes another list.
      if exhausted state.sequence then some (monitorId, some bumped)
      else
        some (monitorId,
          some { bumped with claims := bumped.claims ++ [claim] })

def renewClaim (prunes : Bool) (allowed : ClaimState → Bool)
    (next : ClaimState) (jobId monitorId : Text)
    (authorized : Tasks.AuthorizedToken) (now : Instant)
    (storage : ClaimStorage) : Option (Bool × ClaimStorage) :=
  match readClaims storage with
  | none => none
  | some read =>
    let state :=
      if prunes then
        { read with claims := pruneClaims now.val read.claims }
      else read
    match exactClaim state jobId monitorId authorized with
    | none => some (false, storage)
    | some claim =>
      if !allowed claim.state then some (false, storage)
      else
        let bumped := bumpSequence state
        let renewed :=
          { claim with
            state := next
            expiresAt := now.val + jobMonitorClaimTtlMs
            sequence := bumped.sequence }
        some (true, some (replaceClaim bumped claim renewed))

def updateExact (required next : ClaimState) :=
  renewClaim true (· == required) next

def activate := updateExact .issued .active

def claim := renewClaim true (· != .issued) .claimed

/-- Expired claims are not removed here. -/
def refresh := renewClaim false (· == .claimed) .claimed

def has (jobId monitorId : Text) (authorized : Tasks.AuthorizedToken)
    (now : Instant) (storage : ClaimStorage) : Option Bool :=
  (readClaims storage).map fun state =>
    match exactClaim state jobId monitorId authorized with
    | none => false
    | some claim => claim.state == .claimed && now.val < claim.expiresAt

def Claim.principal (claim : Claim) : AuthorityPrincipal where
  accountId := claim.ownerAccountId
  accountVersion := claim.ownerAccountVersion
  clientId := claim.ownerClientId
  familyId := claim.ownerFamilyId

def Claim.revokedBy (claim : Claim) (revocation : AuthorityRevocation) :
    Bool :=
  claim.ownerKind == text "account" &&
    recordMatchesAuthorityRevocation claim.principal revocation

def cancelAuthority (revocation : AuthorityRevocation)
    (storage : ClaimStorage) : Option (Nat × ClaimStorage) :=
  match readClaims storage with
  | none => none
  | some state =>
    let claims := state.claims.filter (!·.revokedBy revocation)
    let removed := state.claims.length - claims.length
    if removed = 0 then some (0, storage)
    else if claims.isEmpty then some (removed, none)
    else some (removed, some { state with claims })

end MachineBridge.Mcp
