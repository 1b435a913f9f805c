import MachineBridge.Mcp.MonitorClaims

/-!
# Sets of claims

A sound state is one which the store accepts, with one claim for each job and
principal.  Removing claims keeps it sound, giving out a number does, and the
claim which gets that number may be added or take the place of an older one.
-/

namespace MachineBridge.Mcp

open Foundation Authority List

def Claim.holder (claim : Claim) : Text × Text × Nat × Text × Text × Text :=
  (claim.jobId, claim.ownerAccountId, claim.ownerAccountVersion,
    claim.ownerClientId, claim.ownerFamilyId, claim.ownerRole)

def holderOf (jobId : Text) (authorized : Tasks.AuthorizedToken) :
    Text × Text × Nat × Text × Text × Text :=
  (jobId, authorized.accountId, authorized.accountVersion,
    authorized.clientId, authorized.familyId, authorized.role)

structure Sound (state : ClaimsState) : Prop where
  schema : state.schemaVersion = 1
  safe : state.sequence ≤ maxSafeInteger
  bounded : state.claims.length ≤ maxJobMonitorClaims
  valid : ∀ claim ∈ state.claims, validClaim claim = true
  ids : (state.claims.map (·.monitorId)).Nodup
  sequences : (state.claims.map (·.sequence)).Nodup
  counted : ∀ claim ∈ state.claims, claim.sequence ≤ state.sequence
  single : (state.claims.map Claim.holder).Nodup

namespace Sound

variable {state : ClaimsState}

theorem empty : Sound { sequence := 0, claims := [] } where
  schema := rfl
  safe := Nat.zero_le _
  bounded := Nat.zero_le _
  valid := fun _ inside => absurd inside not_mem_nil
  ids := nodup_nil
  sequences := nodup_nil
  counted := fun _ inside => absurd inside not_mem_nil
  single := nodup_nil

theorem validClaimsState (sound : Sound state) :
    validClaimsState state = true := by
  have counted : (state.claims.all fun claim =>
      claim.sequence ≤ state.sequence) = true :=
    all_eq_true.mpr fun claim inside =>
      decide_eq_true (sound.counted claim inside)
  simp only [Mcp.validClaimsState, validClaimSet, counted, sound.schema,
    sound.ids, sound.sequences, sound.bounded,
    isSafeInteger_iff.mpr sound.safe, all_eq_true.mpr sound.valid]
  rfl

theorem of_valid (valid : Mcp.validClaimsState state = true)
    (single : (state.claims.map Claim.holder).Nodup) : Sound state := by
  simp only [Mcp.validClaimsState, validClaimSet, Bool.and_eq_true,
    all_eq_true, decide_eq_true_eq, beq_iff_eq, isSafeInteger_iff] at valid
  obtain ⟨⟨⟨⟨schema, safe⟩, bounded⟩, each⟩, ⟨ids, sequences⟩, counted⟩ :=
    valid
  exact ⟨schema, safe, bounded, each, ids, sequences, counted, single⟩

theorem withClaims (sound : Sound state) {claims : List Claim}
    (fewer : claims.Sublist state.claims) : Sound { state with claims } where
  __ := sound
  bounded := Nat.le_trans fewer.length_le sound.bounded
  valid := fun claim inside => sound.valid claim (fewer.subset inside)
  ids := sound.ids.sublist (fewer.map _)
  sequences := sound.sequences.sublist (fewer.map _)
  counted := fun claim inside => sound.counted claim (fewer.subset inside)
  single := sound.single.sublist (fewer.map _)

end Sound

def Given (number : Nat) : Prop := 0 < number ∧ number ≤ maxSafeInteger

theorem nonempty_iff {value : Text} : nonempty value = true ↔ value ≠ [] := by
  simp [nonempty]

variable {claim : Claim} {sequence : Nat}

theorem validClaim_iff : validClaim claim = true ↔
    (jobIdPattern claim.jobId = true ∧ monitorIdPattern claim.monitorId = true)
    ∧ Given claim.expiresAt ∧ Given claim.sequence ∧
    (claim.ownerKind = text "account" ∧ claim.ownerAccountId ≠ []) ∧
    Given claim.ownerAccountVersion ∧
    (claim.ownerClientId ≠ [] ∧ claim.ownerFamilyId ≠ []) ∧
    claim.ownerRole ≠ [] := by
  simp only [validClaim, Bool.and_eq_true, decide_eq_true_eq,
    isSafeInteger_iff, nonempty_iff, beq_iff_eq, Given]
  constructor
  · intro valid
    obtain ⟨⟨⟨⟨⟨ids, expires⟩, number⟩, owner⟩, version⟩, others⟩ := valid
    exact ⟨ids, expires.symm, number.symm, owner, version.symm, others⟩
  · intro valid
    obtain ⟨ids, expires, number, owner, version, others⟩ := valid
    exact ⟨⟨⟨⟨⟨ids, expires.symm⟩, number.symm⟩, owner⟩, version.symm⟩, others⟩

theorem validClaim_renewed (valid : validClaim claim = true)
    (state : ClaimState) {expiresAt : Nat} (expires : Given expiresAt)
    (number : Given sequence) :
    validClaim { claim with state, expiresAt, sequence } = true := by
  obtain ⟨ids, _, _, owner⟩ := validClaim_iff.mp valid
  exact validClaim_iff.mpr ⟨ids, expires, number, owner⟩

theorem validClaim_withSequence (valid : validClaim claim = true)
    (number : Given sequence) :
    validClaim (withSequence claim sequence) = true :=
  validClaim_renewed valid claim.state (validClaim_iff.mp valid).2.1 number

theorem given_ttl (now : Instant) :
    Given (now.val + jobMonitorClaimTtlMs) := by
  have range : now.val ≤ 8640000000000000 := by
    simpa [Tasks.validTimestamp] using now.property
  have ttl : jobMonitorClaimTtlMs = 300000 := rfl
  have largest : maxSafeInteger = 9007199254740991 := rfl
  constructor
  · omega
  · omega

theorem isHex_hexDigit {value : Nat} (digit : value < 16) :
    isHex (hexDigit value) = true := by
  have all : ∀ value : Fin 16, isHex (hexDigit value.val) = true := by decide
  exact all ⟨value, digit⟩

theorem all_isHex_hexByte (byte : UInt8) :
    (hexByte byte).all isHex = true := by
  have byte_lt : byte.toNat < 256 := byte.toNat_lt
  have high : isHex (hexDigit (byte.toNat / 16)) = true :=
    isHex_hexDigit (by omega)
  have low : isHex (hexDigit (byte.toNat % 16)) = true :=
    isHex_hexDigit (by omega)
  simp [hexByte, high, low]

theorem monitorIdPattern_createMonitorId (bytes : Fin 16 → UInt8) :
    monitorIdPattern (createMonitorId bytes) = true := by
  rw [monitorIdPattern, createMonitorId, labelled_append, fits_iff]
  have length : ((List.ofFn bytes).flatMap hexByte).length = 32 := by
    simp [hexByte]
  refine ⟨length.ge, length.le, ?_⟩
  rw [all_flatMap, all_eq_true]
  intro byte _
  exact all_isHex_hexByte byte

theorem validClaim_makeClaim (jobId : JobId) (bytes : Fin 16 → UInt8)
    (authorized : Tasks.AuthorizedToken) (now : Instant)
    (number : Given sequence) : validClaim (makeClaim jobId.val
    (createMonitorId bytes) authorized .issued now.val sequence) = true := by
  apply validClaim_iff.mpr
  refine ⟨⟨jobId.property, monitorIdPattern_createMonitorId bytes⟩,
    given_ttl now, number, ⟨rfl, authorized.accountId_nonempty⟩, ?_, ?_⟩
  · exact ⟨authorized.accountVersion_positive, authorized.accountVersion_safe⟩
  · exact ⟨⟨authorized.clientId_nonempty, authorized.familyId_nonempty⟩,
      authorized.role_nonempty⟩

end MachineBridge.Mcp
