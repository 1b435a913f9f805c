import MachineBridge.Resources.WaiterOrder

/-!
# The selected waiter

Of the waiters which are admissible the first one in the order is selected,
unless a waiter ahead of it is blocked by leases only and has waited so long that
the others let these drain.
-/

namespace MachineBridge.Resources

open List

variable {Host Request Reservation : Type}
  {policy : AdmissionPolicy Host Request Reservation} {now : Nat}

theorem related_of_find? {α : Type} {relation : α → α → Prop}
    (reflexive : ∀ item, relation item item) {items : List α}
    (sorted : items.Pairwise relation) {wanted : α → Bool} {found : α}
    (first : items.find? wanted = some found) :
    ∀ other ∈ items, wanted other = true → relation found other := by
  induction items with
  | nil => cases first
  | cons item items induction =>
    obtain ⟨ahead, sorted⟩ := pairwise_cons.mp sorted
    intro other member fits
    cases wants : wanted item with
    | true =>
      rw [find?_cons_of_pos wants] at first
      cases first
      rcases mem_cons.mp member with same | later
      · rw [same]
        exact reflexive _
      · exact ahead other later
    | false =>
      rw [find?_cons_of_neg (by rw [wants]; decide)] at first
      rcases mem_cons.mp member with same | later
      · rw [same, wants] at fits
        cases fits
      · exact induction sorted first other later fits

theorem ranked_pairwise (waiters : List (Waiter Request)) :
    (waiters.mergeSort (waiterPrecedes policy now)).Pairwise fun left right =>
    ¬ RanksAhead policy now right left := by
  have sorted : (waiters.mergeSort (waiterPrecedes policy now)).Pairwise fun
      left right => waiterPrecedes policy now left right = true := by
    apply pairwise_mergeSort
    · intro first second third one two
      rw [precedes_iff_not_behind, ranksAhead_iff] at *
      omega
    · intro left right
      rw [Bool.or_eq_true, precedes_iff_not_behind, precedes_iff_not_behind,
        ranksAhead_iff, ranksAhead_iff]
      omega
  apply sorted.imp
  intro left right precedes
  exact precedes_iff_not_behind.mp precedes

/-- The first waiter in the order of which something holds. -/
structure FirstOf (policy : AdmissionPolicy Host Request Reservation)
    (now : Nat) (waiters : List (Waiter Request))
    (wanted : Waiter Request → Bool) (waiter : Waiter Request) : Prop where
  member : waiter ∈ waiters
  fits : wanted waiter = true
  first : ∀ other ∈ waiters, wanted other = true →
    ¬ RanksAhead policy now other waiter

theorem firstOf_of_find? {waiters : List (Waiter Request)}
    {wanted : Waiter Request → Bool} {waiter : Waiter Request} (found :
    (waiters.mergeSort (waiterPrecedes policy now)).find? wanted = some waiter)
    : FirstOf policy now waiters wanted waiter := by
  refine ⟨?_, find?_some found, ?_⟩
  · exact mem_mergeSort.mp (mem_of_find?_eq_some found)
  · intro other member
    exact related_of_find? ranksAhead_irrefl (ranked_pairwise waiters) found
      other (mem_mergeSort.mpr member)

theorem not_of_find? {waiters : List (Waiter Request)} {wanted : Waiter Request
    → Bool} (absent : (waiters.mergeSort (waiterPrecedes policy now)).find?
    wanted = none) : ∀ waiter ∈ waiters, wanted waiter = false := by
  intro waiter member
  rw [find?_eq_none] at absent
  exact Bool.eq_false_of_not_eq_true (absent waiter (mem_mergeSort.mpr member))

section Selection

variable (policy now) (waiters : List (Waiter Request))
  (leases : List (Lease Request)) (host : Host)

section

variable (waiter : Waiter Request)

def admissible : Bool :=
  (evaluateWaiter policy now host leases waiter).admitted

/-- Leases are let drain for a waiter. -/
def blockedByDraining : Bool :=
  !leases.isEmpty && drainsFor policy now host leases waiter

end

structure SelectedFrom (waiter : Waiter Request) : Prop where
  best : FirstOf policy now waiters (admissible policy now leases host) waiter
  draining : ∀ blocked ∈ waiters,
    blockedByDraining policy now leases host blocked = true →
    RanksAhead policy now waiter blocked

/-- Why no waiter is selected. -/
def NoneSelected : Prop :=
  (∀ waiter ∈ waiters, admissible policy now leases host waiter = false) ∨
    ∃ blocked ∈ waiters,
      blockedByDraining policy now leases host blocked = true ∧
      ∀ waiter ∈ waiters, admissible policy now leases host waiter = true →
        ¬ RanksAhead policy now waiter blocked

end Selection

variable {waiters : List (Waiter Request)} {leases : List (Lease Request)}
  {host : Host}

theorem guarded_find? : (if leases.isEmpty then none else (waiters.mergeSort
    (waiterPrecedes policy now)).find? (drainsFor policy now host leases)) =
    (waiters.mergeSort (waiterPrecedes policy now)).find?
    (blockedByDraining policy now leases host) := by
  unfold blockedByDraining
  cases leases.isEmpty with
  | true =>
    rw [if_pos rfl, eq_comm, find?_eq_none]
    intro waiter _ drains
    cases drains
  | false => rfl

variable (policy now waiters leases host) in
theorem selectedResourceWaiter_cases : (∃ waiter,
      selectedResourceWaiter policy now waiters leases host = some waiter ∧
      SelectedFrom policy now waiters leases host waiter) ∨
    (selectedResourceWaiter policy now waiters leases host = none ∧
      NoneSelected policy now waiters leases host) := by
  have selection : selectedResourceWaiter policy now waiters leases host =
      (let ranked := waiters.mergeSort (waiterPrecedes policy now)
      let selected := ranked.find? (admissible policy now leases host)
      let guarded := ranked.find? (blockedByDraining policy now leases host)
      if guarded.any fun waiter =>
        selected.all (waiterPrecedes policy now waiter) then none
      else selected) := by
    unfold selectedResourceWaiter
    dsimp only
    rw [guarded_find?]
    rfl
  rw [selection]
  dsimp only
  cases chosen : (waiters.mergeSort (waiterPrecedes policy now)).find?
      (admissible policy now leases host) with
  | none =>
    right
    exact ⟨by rw [ite_self], .inl (not_of_find? chosen)⟩
  | some waiter =>
    have best := firstOf_of_find? chosen
    cases guards : (waiters.mergeSort (waiterPrecedes policy now)).find?
        (blockedByDraining policy now leases host) with
    | none =>
      left
      refine ⟨waiter, rfl, best, ?_⟩
      intro blocked member drains
      rw [not_of_find? guards blocked member] at drains
      cases drains
    | some blocked =>
      have guarded := firstOf_of_find? guards
      rw [Option.any_some, Option.all_some]
      cases precedes : waiterPrecedes policy now blocked waiter with
      | true =>
        right
        refine ⟨rfl, .inr ⟨blocked, guarded.member, guarded.fits, ?_⟩⟩
        intro other member fits ahead
        have behind := precedes_iff_not_behind.mp precedes
        have first := best.first other member fits
        rw [ranksAhead_iff] at *
        omega
      | false =>
        left
        refine ⟨waiter, rfl, best, ?_⟩
        intro other member drains
        have first := guarded.first other member drains
        rw [← Bool.not_eq_true, precedes_iff_not_behind, not_not] at precedes
        rw [ranksAhead_iff] at *
        omega

theorem selected_spec {waiter : Waiter Request} (selected :
    selectedResourceWaiter policy now waiters leases host = some waiter) :
    SelectedFrom policy now waiters leases host waiter := by
  rcases selectedResourceWaiter_cases policy now waiters leases host with
    ⟨other, same, spec⟩ | ⟨none, _⟩
  · rw [same] at selected
    cases selected
    exact spec
  · rw [none] at selected
    cases selected

theorem none_spec
    (selected : selectedResourceWaiter policy now waiters leases host = none) :
    NoneSelected policy now waiters leases host := by
  rcases selectedResourceWaiter_cases policy now waiters leases host with
    ⟨other, same, _⟩ | ⟨_, reason⟩
  · rw [same] at selected
    cases selected
  · exact reason

/-- No waiter which comes after another one is protected is selected while that
one is admissible or blocked by leases only. -/
theorem newcomer_not_selected {before after newcomer : Waiter Request}
    {earlier : Nat}
    (guarded : resourceWaiterProtected policy earlier before = true)
    (same : SameWaiter policy before after) (passes : earlier ≤ now)
    (comes : earlier ≤ newcomer.enqueuedAt) (queued : after ∈ waiters)
    (waits : admissible policy now leases host after = true ∨
      blockedByDraining policy now leases host after = true) :
    selectedResourceWaiter policy now waiters leases host ≠ some newcomer := by
  intro selected
  have spec := selected_spec selected
  have ahead := ranksAhead_newcomer guarded same passes comes
  rcases waits with fits | drains
  · exact spec.best.first after queued fits ahead
  · exact ranksAhead_irrefl after
      (ahead.trans (spec.draining after queued drains))

end MachineBridge.Resources
