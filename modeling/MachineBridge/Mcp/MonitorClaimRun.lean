import MachineBridge.Mcp.MonitorClaimOrder

/-!
# Runs of the claim store

Every operation reads the stored value again and leaves a sound one, whatever
the counter has reached.  A claim which is issued when the counter has nearly
reached its end is not among those which are written.
-/

namespace MachineBridge.Mcp

open Foundation Authority List

namespace Sound

variable {state : ClaimsState} {claim : Claim}

/-- A claim with the number which was given out last. -/
structure Newest (state : ClaimsState) (claim : Claim) : Prop where
  valid : validClaim claim = true
  number : claim.sequence = state.sequence
  above : ∀ other ∈ state.claims, other.sequence < state.sequence

theorem append (sound : Sound state) (newest : Newest state claim)
    (room : state.claims.length < maxJobMonitorClaims)
    (newId : ∀ other ∈ state.claims, other.monitorId ≠ claim.monitorId)
    (newHolder : ∀ other ∈ state.claims, other.holder ≠ claim.holder) :
    Sound { state with claims := state.claims ++ [claim] } where
  __ := sound
  bounded := by
    rw [length_append, length_singleton]
    exact room
  valid := by
    intro other inside
    rcases mem_append.mp inside with old | new
    · exact sound.valid other old
    · rw [mem_singleton.mp new]
      exact newest.valid
  ids := by
    rw [map_append, map_singleton, ← concat_eq_append, nodup_concat]
    refine ⟨?_, sound.ids⟩
    intro listed
    obtain ⟨other, inside, same⟩ := List.mem_map.mp listed
    exact newId other inside same
  sequences := by
    rw [map_append, map_singleton, ← concat_eq_append, nodup_concat]
    refine ⟨?_, sound.sequences⟩
    intro listed
    obtain ⟨other, inside, same⟩ := List.mem_map.mp listed
    exact Nat.ne_of_lt (newest.above other inside) (same.trans newest.number)
  counted := by
    intro other inside
    rcases mem_append.mp inside with old | new
    · exact sound.counted other old
    · rw [mem_singleton.mp new]
      exact Nat.le_of_eq newest.number
  single := by
    rw [map_append, map_singleton, ← concat_eq_append, nodup_concat]
    refine ⟨?_, sound.single⟩
    intro listed
    obtain ⟨other, inside, same⟩ := List.mem_map.mp listed
    exact newHolder other inside same

theorem map_set_of_same {β : Type} {claims : List Claim} {index : Nat}
    {previous next : Claim} (key : Claim → β)
    (place : claims[index]? = some previous) (same : key next = key previous) :
    (claims.set index next).map key = claims.map key := by
  obtain ⟨inside, equal⟩ := List.getElem?_eq_some_iff.mp place
  rw [map_set, same, ← equal]
  apply ext_getElem?
  intro other
  rw [getElem?_set]
  split
  case isTrue equal =>
    subst equal
    simp [inside]
  case isFalse => rfl

theorem set (sound : Sound state) (newest : Newest state claim) {index : Nat}
    {previous : Claim} (place : state.claims[index]? = some previous)
    (sameId : claim.monitorId = previous.monitorId)
    (sameHolder : claim.holder = previous.holder) :
    Sound { state with claims := state.claims.set index claim } where
  __ := sound
  bounded := by
    rw [length_set]
    exact sound.bounded
  valid := by
    intro other inside
    rcases mem_or_eq_of_mem_set inside with old | new
    · exact sound.valid other old
    · rw [new]
      exact newest.valid
  ids := by
    rw [map_set_of_same (·.monitorId) place sameId]
    exact sound.ids
  sequences := by
    rw [map_set]
    apply sound.sequences.set
    intro listed
    obtain ⟨other, inside, same⟩ := List.mem_map.mp listed
    exact Nat.ne_of_lt (newest.above other inside) (same.trans newest.number)
  counted := by
    intro other inside
    rcases mem_or_eq_of_mem_set inside with old | new
    · exact sound.counted other old
    · rw [new]
      exact Nat.le_of_eq newest.number
  single := by
    rw [map_set_of_same Claim.holder place sameHolder]
    exact sound.single

theorem bump_find (sound : Sound state) (inside : claim ∈ state.claims) : ∃
    previous, (bumpSequence state).claims[(bumpSequence state).claims.findIdx
    (·.monitorId == claim.monitorId)]? = some previous ∧ claim.monitorId =
    previous.monitorId ∧ claim.holder = previous.holder := by
  have listed :
      claim.monitorId ∈ (bumpSequence state).claims.map (·.monitorId) := by
    by_cases last : exhausted state.sequence = true
    · rw [bumpSequence_exhausted last]
      have ids : ((renumbered (·.sequence) withSequence state.claims).map
          (·.monitorId)).Perm (state.claims.map (·.monitorId)) :=
        map_renumbered_perm _ fun _ _ => rfl
      exact ids.mem_iff.mpr (mem_map_of_mem inside)
    · rw [bumpSequence_next last]
      exact mem_map_of_mem inside
  obtain ⟨found, foundIn, same⟩ := List.mem_map.mp listed
  have there :
      (bumpSequence state).claims.findIdx (·.monitorId == claim.monitorId) <
      (bumpSequence state).claims.length :=
    findIdx_lt_length_of_exists ⟨found, foundIn, beq_iff_eq.mpr same⟩
  refine ⟨_, getElem?_eq_getElem there, ?_⟩
  have sameId := beq_iff_eq.mp (findIdx_getElem (w := there))
  obtain ⟨earlier, earlierIn, equal⟩ :=
    sound.keepsOrder_bump.origin _ (getElem_mem there) id
  have earlierId : earlier.monitorId = claim.monitorId := by
    rw [← sameId, equal]
    rfl
  have unique : earlier = claim :=
    inj_on_of_nodup_map sound.ids earlierIn inside earlierId
  refine ⟨sameId.symm, ?_⟩
  rw [equal, unique]
  rfl

end Sound

theorem oldestIndex_lt {claims : List Claim} (some : claims ≠ []) :
    oldestIndex claims < claims.length := by
  have each : ∀ item ∈ claims.zipIdx, item.2 < claims.length := by
    intro item inside
    have place := mem_zipIdx inside
    omega
  rw [oldestIndex]
  generalize claims.zipIdx = items at each
  have start : 0 < claims.length := length_pos_iff.mpr some
  generalize 0 = best at start
  induction items generalizing best with
  | nil => exact start
  | cons item items induction =>
    have later := (forall_mem_cons.mp each).2
    apply induction later
    dsimp only
    split
    case isTrue => exact each item mem_cons_self
    case isFalse => exact start

theorem evictOldest_sublist (claims : List Claim) :
    (evictOldest claims).Sublist claims :=
  eraseIdx_sublist _ _

theorem length_evictOldest {claims : List Claim} (some : claims ≠ []) :
    (evictOldest claims).length + 1 = claims.length := by
  have inside := oldestIndex_lt some
  rw [evictOldest, length_eraseIdx_of_lt inside]
  omega

theorem evictUntilRoom_sublist (count : Nat) (claims : List Claim) :
    (evictUntilRoom count claims).Sublist claims := by
  induction count generalizing claims with
  | zero => exact List.Sublist.refl _
  | succ count induction =>
    rw [evictUntilRoom]
    split
    case isTrue => exact (induction _).trans (evictOldest_sublist claims)
    case isFalse => exact List.Sublist.refl _

theorem evictUntilRoom_room (count : Nat) (claims : List Claim)
    (enough : claims.length ≤ count) :
    (evictUntilRoom count claims).length < maxJobMonitorClaims := by
  induction count generalizing claims with
  | zero =>
    rw [evictUntilRoom, Nat.le_zero.mp enough]
    decide
  | succ count induction =>
    rw [evictUntilRoom]
    split
    case isTrue full =>
      have positive : 0 < claims.length :=
        Nat.lt_of_lt_of_le (by decide) full
      have shorter := length_evictOldest (length_pos_iff.mp positive)
      apply induction
      omega
    case isFalse room => exact Nat.not_le.mp room

/-- The claims which a read finds. -/
def stored (storage : ClaimStorage) : ClaimsState :=
  storage.getD { sequence := 0, claims := [] }

theorem readClaims_eq_some {storage : ClaimStorage}
    (sound : Sound (stored storage)) :
    readClaims storage = some (stored storage) := by
  cases storage with
  | none => rfl
  | some state => exact if_pos sound.validClaimsState

inductive ClaimOperation where
  | issue (jobId : JobId) (authorized : Tasks.AuthorizedToken)
      (draws : List (Fin 16 → UInt8)) (now : Instant)
  | activate (jobId monitorId : Text) (authorized : Tasks.AuthorizedToken)
      (now : Instant)
  | claim (jobId monitorId : Text) (authorized : Tasks.AuthorizedToken)
      (now : Instant)
  | refresh (jobId monitorId : Text) (authorized : Tasks.AuthorizedToken)
      (now : Instant)
  | has (jobId monitorId : Text) (authorized : Tasks.AuthorizedToken)
      (now : Instant)
  | cancelAuthority (revocation : AuthorityRevocation)

inductive ClaimAnswer where
  | issued (monitorId : Text)
  | renewed (done : Bool)
  | found (claimed : Bool)
  | removed (count : Nat)

namespace ClaimOperation

/-- The answer, and the storage which the transaction leaves. -/
def perform (storage : ClaimStorage) :
    ClaimOperation → Option (ClaimAnswer × ClaimStorage)
  | .issue jobId authorized draws now =>
    (Mcp.issue jobId authorized draws now storage).map
      (Prod.map .issued id)
  | .activate jobId monitorId authorized now =>
    (Mcp.activate jobId monitorId authorized now storage).map
      (Prod.map .renewed id)
  | .claim jobId monitorId authorized now =>
    (Mcp.claim jobId monitorId authorized now storage).map
      (Prod.map .renewed id)
  | .refresh jobId monitorId authorized now =>
    (Mcp.refresh jobId monitorId authorized now storage).map
      (Prod.map .renewed id)
  | .has jobId monitorId authorized now =>
    (Mcp.has jobId monitorId authorized now storage).map
      fun claimed => (.found claimed, storage)
  | .cancelAuthority revocation =>
    (Mcp.cancelAuthority revocation storage).map (Prod.map .removed id)

def written (operation : ClaimOperation) (answer : ClaimAnswer) :
    Option Text :=
  match operation, answer with
  | _, .issued monitorId => some monitorId
  | .activate _ monitorId _ _, .renewed true => some monitorId
  | .claim _ monitorId _ _, .renewed true => some monitorId
  | .refresh _ monitorId _ _, .renewed true => some monitorId
  | _, _ => none

end ClaimOperation

/-- An operation, and whether its transaction commits. -/
structure ClaimCall where
  operation : ClaimOperation
  commits : Bool := true

def claimStep (storage : ClaimStorage) (call : ClaimCall) : ClaimStorage :=
  match call.operation.perform storage with
  | none => storage
  | some (_, next) => if call.commits then next else storage

structure Kept (written : Option Text) (storage next : ClaimStorage) :
    Prop where
  sound : Sound (stored next)
  order : KeepsOrder (fun monitorId => written = some monitorId)
    (stored storage).claims (stored next).claims

section Operations

variable {storage next : ClaimStorage} (sound : Sound (stored storage))

include sound

theorem Kept.unchanged (written : Option Text) :
    Kept written storage storage :=
  ⟨sound, .refl sound.ids⟩

variable {authorized : Tasks.AuthorizedToken} {monitorId : Text}
  {now : Instant}

theorem kept_issue {jobId : JobId} {draws : List (Fin 16 → UInt8)}
    (issued : issue jobId authorized draws now storage = some (monitorId, next))
    : Kept (some monitorId) storage next := by
  rw [issue, readClaims_eq_some sound] at issued
  dsimp only at issued
  generalize othersIs : (pruneClaims now.val (stored storage).claims).filter
    (fun claim => claim.jobId != jobId.val ||
      !claim.matchesAuthorized authorized) = others at issued
  generalize claimsIs : evictUntilRoom others.length others = claims at issued
  have fewerOthers : others.Sublist (stored storage).claims := by
    rw [← othersIs]
    exact filter_sublist.trans filter_sublist
  have fewer : claims.Sublist others := by
    rw [← claimsIs]
    exact evictUntilRoom_sublist _ _
  have room : claims.length < maxJobMonitorClaims := by
    rw [← claimsIs]
    exact evictUntilRoom_room _ _ (Nat.le_refl _)
  have others_differ : ∀ claim ∈ claims,
      claim.holder ≠ holderOf jobId.val authorized := by
    intro claim inside same
    have listed := fewer.subset inside
    rw [← othersIs] at listed
    have differs := (List.mem_filter.mp listed).2
    simp only [Claim.holder, holderOf, Prod.mk.injEq] at same
    obtain ⟨job, account, version, client, family, role⟩ := same
    simp [Claim.matchesAuthorized, job, account, version, client, family,
      role] at differs
  have cleared : Sound { stored storage with claims } :=
    sound.withClaims (fewer.trans fewerOthers)
  have removed : KeepsOrder (fun _ => False) (stored storage).claims claims :=
    .of_sublist sound.ids (fewer.trans fewerOthers)
  have bumped := cleared.bump
  have number := cleared.given_bump
  have above := cleared.lt_bump
  have kept := removed.trans cleared.keepsOrder_bump
  split at issued
  case h_1 => cases issued
  case h_2 drawn found =>
    obtain ⟨bytes, _, rfl⟩ := List.mem_map.mp (mem_of_find?_eq_some found)
    have unused : ∀ claim ∈ claims,
        claim.monitorId ≠ createMonitorId bytes := by
      intro claim inside same
      have free := find?_some found
      rw [Bool.not_eq_true', any_eq_false] at free
      exact free claim inside (beq_iff_eq.mpr same)
    split at issued
    case isTrue =>
      cases issued
      exact ⟨bumped, kept.trans (.refl bumped.ids)⟩
    case isFalse room' =>
      cases issued
      have same : (bumpSequence { stored storage with claims }).claims =
          claims := by
        rw [bumpSequence_next]
        exact room'
      constructor
      · apply bumped.append
        · exact ⟨validClaim_makeClaim jobId bytes authorized now number, rfl,
            above⟩
        · rw [same]
          exact room
        · rw [same]
          exact unused
        · rw [same]
          exact others_differ
      · apply kept.trans
        apply KeepsOrder.of_subset bumped.ids
        intro claim inside other
        rcases mem_append.mp inside with old | new
        · exact old
        · rw [mem_singleton.mp new] at other
          exact absurd rfl other

theorem kept_renewClaim {prunes : Bool} {allowed : ClaimState → Bool}
    {following : ClaimState} {jobId : Text} {done : Bool} (renewed : renewClaim
    prunes allowed following jobId monitorId authorized now storage = some
    (done, next)) : Kept (if done then some monitorId else none) storage
    next := by
  rw [renewClaim, readClaims_eq_some sound] at renewed
  dsimp only at renewed
  generalize stateIs : (if prunes then
    { stored storage with
      claims := pruneClaims now.val (stored storage).claims }
    else stored storage) = state at renewed
  have remaining : Sound state ∧
      state.claims.Sublist (stored storage).claims := by
    rw [← stateIs]
    split
    case isTrue => exact ⟨sound.withClaims filter_sublist, filter_sublist⟩
    case isFalse => exact ⟨sound, List.Sublist.refl _⟩
  obtain ⟨cleared, fewer⟩ := remaining
  have removed : KeepsOrder (fun _ => False) (stored storage).claims
      state.claims := .of_sublist sound.ids fewer
  split at renewed
  case h_1 =>
    cases renewed
    exact Kept.unchanged sound _
  case h_2 claim found =>
    have inside : claim ∈ state.claims := mem_of_find?_eq_some found
    have named : claim.monitorId = monitorId := by
      have matching := find?_some found
      simp only [Bool.and_eq_true, beq_iff_eq] at matching
      exact matching.1.2
    split at renewed
    case isTrue =>
      cases renewed
      exact Kept.unchanged sound _
    case isFalse =>
      cases renewed
      have bumped := cleared.bump
      obtain ⟨previous, place, sameId, sameHolder⟩ := cleared.bump_find inside
      have valid := validClaim_renewed (cleared.valid claim inside) following
        (given_ttl now) cleared.given_bump
      constructor
      · exact bumped.set ⟨valid, rfl, cleared.lt_bump⟩ place sameId sameHolder
      · apply (removed.trans cleared.keepsOrder_bump).trans
        apply KeepsOrder.of_subset bumped.ids
        intro other listed untouched
        rcases mem_or_eq_of_mem_set listed with old | new
        · exact old
        · rw [new] at untouched
          exact absurd (congrArg some named.symm) untouched

theorem kept_cancelAuthority {revocation : AuthorityRevocation} {count : Nat}
    (cancelled : cancelAuthority revocation storage = some (count, next)) :
    Kept none storage next := by
  rw [cancelAuthority, readClaims_eq_some sound] at cancelled
  dsimp only at cancelled
  split at cancelled
  case isTrue =>
    cases cancelled
    exact Kept.unchanged sound _
  case isFalse =>
    have fewer :
        ((stored storage).claims.filter (!·.revokedBy revocation)).Sublist
        (stored storage).claims :=
      filter_sublist
    split at cancelled
    case isTrue =>
      cases cancelled
      exact ⟨.empty, .of_sublist sound.ids (nil_sublist _)⟩
    case isFalse =>
      cases cancelled
      exact ⟨sound.withClaims fewer, .of_sublist sound.ids fewer⟩

theorem kept_perform {operation : ClaimOperation} {answer : ClaimAnswer}
    (performed : operation.perform storage = some (answer, next)) :
    Kept (operation.written answer) storage next := by
  cases operation with
  | issue jobId authorized draws now =>
    obtain ⟨⟨monitorId, after⟩, issued, same⟩ :=
      Option.map_eq_some_iff.mp performed
    cases same
    exact kept_issue sound issued
  | activate jobId monitorId authorized now =>
    obtain ⟨⟨done, after⟩, renewed, same⟩ :=
      Option.map_eq_some_iff.mp performed
    cases same
    rw [activate, updateExact] at renewed
    have kept := kept_renewClaim sound renewed
    cases done <;> exact kept
  | claim jobId monitorId authorized now
  | refresh jobId monitorId authorized now =>
    obtain ⟨⟨done, after⟩, renewed, same⟩ :=
      Option.map_eq_some_iff.mp performed
    cases same
    have kept := kept_renewClaim sound renewed
    cases done <;> exact kept
  | has jobId monitorId authorized now =>
    obtain ⟨found, _, same⟩ := Option.map_eq_some_iff.mp performed
    cases same
    exact Kept.unchanged sound _
  | cancelAuthority revocation =>
    obtain ⟨⟨count, after⟩, cancelled, same⟩ :=
      Option.map_eq_some_iff.mp performed
    cases same
    exact kept_cancelAuthority sound cancelled

theorem sound_claimStep (call : ClaimCall) :
    Sound (stored (claimStep storage call)) := by
  rw [claimStep]
  split
  case h_1 => exact sound
  case h_2 answer next performed =>
    split
    case isTrue => exact (kept_perform sound performed).sound
    case isFalse => exact sound

theorem sound_claimRun (calls : List ClaimCall) :
    Sound (stored (run claimStep storage calls)) := by
  have preserved : ∀ (storage : ClaimStorage) (call : ClaimCall),
      Sound (stored storage) → Sound (stored (claimStep storage call)) := by
    intro storage call kept
    exact sound_claimStep kept call
  exact run_induction preserved sound calls

/-- After every run the numbers differ and are at most the counter, each job and
principal has one claim at most, and the stored value is accepted.  The next
operation keeps the order of the claims which it does not write. -/
theorem claimRun_kept (calls : List ClaimCall) :
    let reached := run claimStep storage calls
    let state := stored reached
    readClaims reached = some state ∧
      (state.claims.map (·.sequence)).Nodup ∧
      (∀ claim ∈ state.claims, claim.sequence ≤ state.sequence) ∧
      (state.claims.map Claim.holder).Nodup ∧
      state.claims.length ≤ maxJobMonitorClaims ∧
      ∀ (operation : ClaimOperation) (answer : ClaimAnswer)
        (next : ClaimStorage),
        operation.perform reached = some (answer, next) →
          readClaims next = some (stored next) ∧
            KeepsOrder (fun id => operation.written answer = some id)
              state.claims (stored next).claims := by
  intro reached state
  have kept : Sound state := sound_claimRun sound calls
  refine ⟨readClaims_eq_some kept, kept.sequences, kept.counted, kept.single,
    kept.bounded, ?_⟩
  intro operation answer next performed
  have after := kept_perform kept performed
  exact ⟨readClaims_eq_some after.sound, after.order⟩

end Operations

theorem one_le_maxSafeInteger : 1 ≤ maxSafeInteger := by decide

theorem owner_nonempty : text "owner" ≠ [] := by decide

theorem family_nonempty : text "family" ≠ [] := by decide

def reader : Tasks.AuthorizedToken where
  accountId := text "acct"
  accountVersion := 1
  clientId := text "client"
  familyId := text "family"
  role := text "owner"
  accountId_nonempty := by decide
  accountVersion_positive := Nat.one_pos
  accountVersion_safe := one_le_maxSafeInteger
  clientId_nonempty := by decide
  familyId_nonempty := family_nonempty
  role_nonempty := owner_nonempty

def sampleJob (letter : UInt16) : Text :=
  text "job_" ++ List.replicate 24 letter

/-- Two claims, and no number left above the first one. -/
def exhaustedClaims : ClaimsState where
  sequence := maxSafeInteger - 1
  claims :=
    [makeClaim (sampleJob 0x61) (createMonitorId fun _ => 1) reader .claimed 0
      (maxSafeInteger - 1),
      makeClaim (sampleJob 0x62) (createMonitorId fun _ => 2) reader .claimed 0
        7]

def refreshFirst : ClaimCall where
  operation := .refresh (sampleJob 0x61) (createMonitorId fun _ => 1) reader
    ⟨1000, by decide⟩

theorem sound_exhaustedClaims : Sound (stored (some exhaustedClaims)) := by
  apply Sound.of_valid
  · decide
  · exact nodup_cons.mpr ⟨by decide, nodup_singleton _⟩

theorem exhaustedClaims_kept : (stored (run claimStep (some exhaustedClaims)
    [refreshFirst])).claims.map (·.sequence) = [1, 3] ∧ ((stored (run claimStep
    (some exhaustedClaims) [refreshFirst])).claims.map Claim.holder).Nodup :=
  ⟨by decide, (claimRun_kept sound_exhaustedClaims [refreshFirst]).2.2.2.1⟩

end MachineBridge.Mcp
