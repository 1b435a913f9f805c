import MachineBridge.Mcp.MonitorClaimSet

/-!
# The order of claims

Claims which an operation does not write keep everything but their numbers, and
the numbers stay in the same order.
-/

namespace MachineBridge.Mcp

open Foundation Authority

structure KeepsOrder (written : Text → Prop) (before after : List Claim) :
    Prop where
  origin : ∀ claim ∈ after, ¬ written claim.monitorId →
    ∃ earlier ∈ before, claim = withSequence earlier claim.sequence
  order : ∀ left ∈ before, ∀ right ∈ before,
    ∀ newLeft ∈ after, ∀ newRight ∈ after,
      ¬ written newLeft.monitorId → ¬ written newRight.monitorId →
      newLeft.monitorId = left.monitorId →
      newRight.monitorId = right.monitorId →
      (newLeft.sequence < newRight.sequence ↔ left.sequence < right.sequence)

namespace KeepsOrder

variable {written : Text → Prop} {before middle after : List Claim}

theorem of_subset (ids : (before.map (·.monitorId)).Nodup)
    (subset : ∀ claim ∈ after, ¬ written claim.monitorId → claim ∈ before) :
    KeepsOrder written before after where
  origin := by
    intro claim inside other
    exact ⟨claim, subset claim inside other, rfl⟩
  order := by
    intro left leftIn right rightIn newLeft newLeftIn newRight newRightIn
      leftOther rightOther sameLeft sameRight
    have unique := List.inj_on_of_nodup_map ids
    have equalLeft : newLeft = left :=
      unique (subset _ newLeftIn leftOther) leftIn sameLeft
    have equalRight : newRight = right :=
      unique (subset _ newRightIn rightOther) rightIn sameRight
    rw [equalLeft, equalRight]

theorem of_sublist (ids : (before.map (·.monitorId)).Nodup)
    (fewer : after.Sublist before) : KeepsOrder written before after :=
  of_subset ids fun _ inside _ => fewer.subset inside

theorem refl (ids : (before.map (·.monitorId)).Nodup) :
    KeepsOrder written before before :=
  of_sublist ids (List.Sublist.refl _)

theorem trans (first : KeepsOrder (fun _ => False) before middle)
    (second : KeepsOrder written middle after) :
    KeepsOrder written before after where
  origin := by
    intro claim inside other
    obtain ⟨between, betweenIn, same⟩ := second.origin claim inside other
    obtain ⟨earlier, earlierIn, equal⟩ := first.origin between betweenIn id
    refine ⟨earlier, earlierIn, ?_⟩
    rw [same, equal]
    rfl
  order := by
    intro left leftIn right rightIn newLeft newLeftIn newRight newRightIn
      leftOther rightOther sameLeft sameRight
    obtain ⟨middleLeft, middleLeftIn, fromLeft⟩ :=
      second.origin newLeft newLeftIn leftOther
    obtain ⟨middleRight, middleRightIn, fromRight⟩ :=
      second.origin newRight newRightIn rightOther
    have idLeft : newLeft.monitorId = middleLeft.monitorId := by
      rw [fromLeft]
      rfl
    have idRight : newRight.monitorId = middleRight.monitorId := by
      rw [fromRight]
      rfl
    rw [second.order middleLeft middleLeftIn middleRight middleRightIn newLeft
      newLeftIn newRight newRightIn leftOther rightOther idLeft idRight]
    exact first.order left leftIn right rightIn middleLeft middleLeftIn
      middleRight middleRightIn id id (idLeft.symm.trans sameLeft)
      (idRight.symm.trans sameRight)

end KeepsOrder

section Bump

variable {state : ClaimsState}

theorem bumpSequence_exhausted (last : exhausted state.sequence = true) :
    bumpSequence state =
      { state with
        sequence := state.claims.length + 1
        claims := renumbered (·.sequence) withSequence state.claims } := by
  rw [bumpSequence, if_pos last]
  simp only [length_renumbered]

theorem bumpSequence_next (room : ¬ exhausted state.sequence = true) :
    bumpSequence state = { state with sequence := state.sequence + 1 } := by
  rw [bumpSequence, if_neg room]

theorem sequence_withSequence (claim : Claim) (sequence : Nat) :
    (withSequence claim sequence).sequence = sequence := rfl

theorem monitorId_withSequence (claim : Claim) (sequence : Nat) :
    (withSequence claim sequence).monitorId = claim.monitorId := rfl

theorem lt_of_not_exhausted {sequence : Nat}
    (room : ¬ exhausted sequence = true) : sequence < maxSafeInteger - 1 := by
  apply Nat.not_le.mp
  intro last
  exact room (decide_eq_true last)

theorem given_of_le_room {number : Nat} (positive : 0 < number)
    (small : number ≤ maxJobMonitorClaims + 1) : Given number := by
  have largest : maxJobMonitorClaims + 1 ≤ maxSafeInteger := by decide
  exact ⟨positive, Nat.le_trans small largest⟩

variable (sound : Sound state)

include sound

theorem Sound.given_bump : Given (bumpSequence state).sequence := by
  have bounded := sound.bounded
  by_cases last : exhausted state.sequence = true
  · rw [bumpSequence_exhausted last]
    exact given_of_le_room (Nat.succ_pos _) (Nat.succ_le_succ bounded)
  · have room := lt_of_not_exhausted last
    rw [bumpSequence_next last]
    constructor
    · exact Nat.succ_pos _
    · exact Nat.le_trans room (Nat.sub_le _ _)

theorem Sound.lt_bump : ∀ claim ∈ (bumpSequence state).claims,
    claim.sequence < (bumpSequence state).sequence := by
  intro claim inside
  by_cases last : exhausted state.sequence = true
  · rw [bumpSequence_exhausted last] at inside ⊢
    have small := rank_renumbered_le sequence_withSequence inside
    exact Nat.lt_succ_of_le small.2
  · rw [bumpSequence_next last] at inside ⊢
    exact Nat.lt_succ_of_le (sound.counted claim inside)

theorem Sound.keepsOrder_bump :
    KeepsOrder (fun _ => False) state.claims (bumpSequence state).claims := by
  by_cases last : exhausted state.sequence = true
  · rw [bumpSequence_exhausted last]
    constructor
    · intro claim inside _
      obtain ⟨index, source, found, same⟩ := mem_renumbered.mp inside
      have listed : source ∈ state.claims :=
        (ranked_perm _ _).subset (List.mem_of_getElem? found)
      refine ⟨source, listed, ?_⟩
      rw [same]
      rfl
    · intro left leftIn right rightIn newLeft newLeftIn newRight newRightIn
        _ _ sameLeft sameRight
      exact renumbered_lt_iff sequence_withSequence monitorId_withSequence
        sound.ids sound.sequences leftIn rightIn newLeftIn newRightIn sameLeft
        sameRight
  · rw [bumpSequence_next last]
    exact .refl sound.ids

theorem Sound.bump : Sound (bumpSequence state) := by
  have given := sound.given_bump
  have fresh := sound.lt_bump
  have origin := sound.keepsOrder_bump.origin
  by_cases last : exhausted state.sequence = true
  · rw [bumpSequence_exhausted last] at given fresh origin ⊢
    have ids : ((renumbered (·.sequence) withSequence state.claims).map
        (·.monitorId)).Perm (state.claims.map (·.monitorId)) :=
      map_renumbered_perm _ fun _ _ => rfl
    have holders : ((renumbered (·.sequence) withSequence state.claims).map
        Claim.holder).Perm (state.claims.map Claim.holder) :=
      map_renumbered_perm _ fun _ _ => rfl
    constructor
    · exact sound.schema
    · exact given.2
    · exact (length_renumbered _).trans_le sound.bounded
    · intro claim inside
      obtain ⟨earlier, earlierIn, same⟩ := origin claim inside id
      have small := rank_renumbered_le sequence_withSequence inside
      have number : Given claim.sequence := by
        apply given_of_le_room small.1
        exact Nat.le_succ_of_le (Nat.le_trans small.2 sound.bounded)
      rw [same]
      exact validClaim_withSequence (sound.valid earlier earlierIn) number
    · exact ids.nodup_iff.mpr sound.ids
    · exact renumbered_distinct sequence_withSequence
    · intro claim inside
      exact Nat.le_of_lt (fresh claim inside)
    · exact holders.nodup_iff.mpr sound.single
  · rw [bumpSequence_next last] at given fresh ⊢
    constructor
    · exact sound.schema
    · exact given.2
    · exact sound.bounded
    · exact sound.valid
    · exact sound.ids
    · exact sound.sequences
    · intro claim inside
      exact Nat.le_of_lt (fresh claim inside)
    · exact sound.single

end Bump

end MachineBridge.Mcp
