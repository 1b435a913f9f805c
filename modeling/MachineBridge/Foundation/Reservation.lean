import Mathlib.Data.List.Perm.Subperm

/-!
# Reservations under class limits

Each slot counts against the limit of every class it belongs to.  A line of
entries waits for slots in order.  An entry may be dead, and then never takes a
slot; it may hold a promise that there is room for it once all live entries
ahead of it have taken their slots.
-/

namespace Foundation

open List

variable {Slot Class : Type*} {counts : Class → Slot → Bool}
  {limit : Class → Nat}

section Limits

variable (counts : Class → Slot → Bool) (limit : Class → Nat)

def occupied (cls : Class) (slots : List Slot) : Nat :=
  slots.countP (counts cls)

/-- All limits hold. -/
def Fits (slots : List Slot) : Prop :=
  ∀ cls, occupied counts cls slots ≤ limit cls

/-- One more slot leaves the limits of its classes intact. -/
def Room (slots : List Slot) (slot : Slot) : Prop :=
  ∀ cls, counts cls slot = true → occupied counts cls slots < limit cls

end Limits

theorem occupied_append (cls : Class) (slots more : List Slot) :
    occupied counts cls (slots ++ more) = occupied counts cls slots +
    occupied counts cls more :=
  countP_append

theorem occupied_le {cls : Class} {fewer slots : List Slot}
    (sub : fewer.Subperm slots) :
    occupied counts cls fewer ≤ occupied counts cls slots :=
  sub.countP_le _

theorem occupied_eq_zero {cls : Class} {slots : List Slot}
    (none : ∀ slot ∈ slots, counts cls slot = false) :
    occupied counts cls slots = 0 := by
  apply countP_eq_zero.mpr
  intro slot member
  rw [none slot member]
  exact Bool.false_ne_true

theorem Room.of_subperm {fewer slots : List Slot} {slot : Slot}
    (room : Room counts limit slots slot) (sub : fewer.Subperm slots) :
    Room counts limit fewer slot := by
  intro cls counted
  exact Nat.lt_of_le_of_lt (occupied_le sub) (room cls counted)

theorem Room.occupied_le {slots : List Slot} {slot : Slot} {cls : Class}
    (room : Room counts limit slots slot)
    (fits : counts cls slot = true ∨ occupied counts cls slots ≤ limit cls) :
    occupied counts cls (slots ++ [slot]) ≤ limit cls := by
  rw [occupied_append]
  cases counted : counts cls slot with
  | true =>
    have less := room cls counted
    simp only [occupied, countP_singleton, counted, if_true] at less ⊢
    omega
  | false =>
    rcases fits with own | fits
    · rw [counted] at own
      cases own
    · simpa [occupied, counted] using fits

structure LineEntry (Slot : Type*) where
  slot : Slot
  (promised live : Bool)

def liveSlots (line : List (LineEntry Slot)) : List Slot :=
  (line.filter (·.live)).map (·.slot)

@[simp] theorem liveSlots_nil : liveSlots ([] : List (LineEntry Slot)) = [] := rfl

theorem liveSlots_append (line more : List (LineEntry Slot)) :
    liveSlots (line ++ more) = liveSlots line ++ liveSlots more := by
  simp [liveSlots]

section Honours

variable (counts : Class → Slot → Bool) (limit : Class → Nat)

/-- Every promise of a line can be kept after the taken slots. -/
def Honours : List Slot → List (LineEntry Slot) → Prop
  | _, [] => True
  | taken, entry :: line =>
    (entry.promised = true → Room counts limit taken entry.slot) ∧
      Honours (if entry.live then taken ++ [entry.slot] else taken) line

end Honours

inductive Thinner : List (LineEntry Slot) → List (LineEntry Slot) → Prop where
  | nil : Thinner [] []
  | drop {later earlier : List (LineEntry Slot)} (entry : LineEntry Slot)
      (rest : Thinner later earlier) : Thinner later (entry :: earlier)
  | keep {later earlier : List (LineEntry Slot)} {after before : LineEntry Slot}
      (slot : after.slot = before.slot)
      (promised : after.promised = before.promised)
      (lives : after.live = true → before.live = true)
      (rest : Thinner later earlier) :
      Thinner (after :: later) (before :: earlier)

theorem Thinner.of_sublist {later earlier : List (LineEntry Slot)}
    (sublist : later.Sublist earlier) : Thinner later earlier := by
  induction sublist with
  | slnil => exact .nil
  | cons entry _ induction => exact .drop entry induction
  | cons_cons entry _ induction => exact .keep rfl rfl id induction

theorem Thinner.append
    {later earlier laterMore earlierMore : List (LineEntry Slot)}
    (first : Thinner later earlier) (second : Thinner laterMore earlierMore) :
    Thinner (later ++ laterMore) (earlier ++ earlierMore) := by
  induction first with
  | nil => exact second
  | drop entry _ induction => exact .drop entry induction
  | keep slot promised lives _ induction =>
    exact .keep slot promised lives induction

theorem Thinner.of_map {Item : Type*} {items : List Item}
    {after before : Item → LineEntry Slot}
    (slot : ∀ item ∈ items, (after item).slot = (before item).slot)
    (promised : ∀ item ∈ items, (after item).promised = (before item).promised)
    (lives : ∀ item ∈ items, (after item).live = true →
      (before item).live = true) :
    Thinner (items.map after) (items.map before) := by
  induction items with
  | nil => exact .nil
  | cons item items induction =>
    have own := mem_cons_self (a := item) (l := items)
    have rest {other : Item} (member : other ∈ items) :
        other ∈ item :: items := mem_cons_of_mem _ member
    apply Thinner.keep (slot item own) (promised item own) (lives item own)
    apply induction
    · exact fun other member => slot other (rest member)
    · exact fun other member => promised other (rest member)
    · exact fun other member => lives other (rest member)

theorem Thinner.liveSlots {later earlier : List (LineEntry Slot)}
    (thinner : Thinner later earlier) :
    (Foundation.liveSlots later).Sublist (Foundation.liveSlots earlier) := by
  induction thinner with
  | nil => exact List.Sublist.refl _
  | @drop later earlier entry _ induction =>
    apply induction.trans
    rw [← singleton_append, liveSlots_append]
    exact sublist_append_right _ _
  | @keep later earlier after before slot _ lives _ induction =>
    rw [← singleton_append, ← singleton_append (x := before),
      liveSlots_append, liveSlots_append]
    apply List.Sublist.append _ induction
    cases alive : after.live with
    | false => simp [Foundation.liveSlots, alive]
    | true => simp [Foundation.liveSlots, alive, lives alive, slot]

theorem Honours.thinner {taken fewer : List Slot}
    {later earlier : List (LineEntry Slot)}
    (honours : Honours counts limit taken earlier) (sub : fewer.Subperm taken)
    (thinner : Thinner later earlier) : Honours counts limit fewer later := by
  induction thinner generalizing taken fewer with
  | nil => exact trivial
  | drop entry _ induction =>
    apply induction honours.2
    apply sub.trans
    split
    case isTrue => exact (sublist_append_left _ _).subperm
    case isFalse => exact List.Subperm.refl _
  | @keep later earlier after before slot promised lives _ induction =>
    refine ⟨?_, induction honours.2 ?_⟩
    · intro kept
      rw [slot]
      rw [promised] at kept
      exact (honours.1 kept).of_subperm sub
    · cases alive : after.live with
      | true =>
        rw [if_pos rfl, if_pos (lives alive), slot]
        exact (subperm_append_right _).mpr sub
      | false =>
        apply sub.trans
        split
        case isTrue => exact (sublist_append_left _ _).subperm
        case isFalse => exact List.Subperm.refl _

theorem honours_concat {taken : List Slot} {line : List (LineEntry Slot)}
    {entry : LineEntry Slot} : Honours counts limit taken (line ++ [entry]) ↔
    Honours counts limit taken line ∧ (entry.promised = true →
      Room counts limit (taken ++ liveSlots line) entry.slot) := by
  induction line generalizing taken with
  | nil => simp [Honours]
  | cons first line induction =>
    rw [cons_append]
    simp only [Honours, induction]
    cases alive : first.live with
    | true | false => simp [liveSlots, alive, and_assoc]

theorem Honours.take {taken : List Slot} {entry : LineEntry Slot}
    {line : List (LineEntry Slot)}
    (honours : Honours counts limit taken (entry :: line))
    (live : entry.live = true) :
    Honours counts limit (taken ++ [entry.slot]) line := by
  have rest := honours.2
  rwa [if_pos live] at rest

end Foundation
