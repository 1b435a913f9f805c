import MachineBridge.Foundation.Record
import MachineBridge.Foundation.Run
import MachineBridge.Foundation.Text

/-!
# Snapshots of observations

An action names the observation on which it is based.  The store keeps a
bounded number of observations for a limited time, drops the one which was used
least recently, and gives an observation up to one action only.
-/

namespace MachineBridge.ComputerUse

open Foundation List

def snapshotTtlMs : ℚ := 600000

def maxSnapshots : Nat := 64

structure SnapshotItem (α : Type) where
  createdAt : ℚ
  /-- The identity of the object. -/
  serial : Nat
  content : α

variable {α : Type}

structure ComputerUseSnapshotStore (α : Type) where
  items : Record Text (SnapshotItem α) := .empty
  lastNow : Option ℚ := none
  /-- The number of objects made so far. -/
  next : Nat := 0
  /-- The objects which were claimed, the latest first. -/
  claimed : List Nat := []

namespace ComputerUseSnapshotStore

section

variable (store : ComputerUseSnapshotStore α)

/-- The clock does not go back, whatever is read from it. -/
def now (reading : ℚ) : ℚ := (store.lastNow.map (max reading)).getD reading

def readNow (reading : ℚ) : ComputerUseSnapshotStore α :=
  { store with lastNow := some (store.now reading) }

def prune (reading : ℚ) : ComputerUseSnapshotStore α :=
  { store.readNow reading with
    items := store.items.filter fun _ item =>
      decide (store.now reading - snapshotTtlMs ≤ item.createdAt) }

/-- The oldest entries are deleted until there is room for one more. -/
def makeRoom : ComputerUseSnapshotStore α :=
  { store with
    items := ⟨store.items.entries.drop (store.items.size - (maxSnapshots - 1)),
      store.items.nodup.sublist ((drop_sublist _ _).map Prod.fst)⟩ }

/-- `createId` is asked until it gives an identifier which is not in use. -/
def add (pruned created : ℚ) (ids : List Text) (content : α) :
    ComputerUseSnapshotStore α × Option Text :=
  let roomy := (store.prune pruned).makeRoom
  match ids.find? fun id => !roomy.items.contains id with
  | none => (roomy, none)
  | some id =>
    let item : SnapshotItem α := ⟨roomy.now created, roomy.next, content⟩
    ({ roomy.readNow created with
        items := roomy.items.set id item
        next := roomy.next + 1 }, some id)

def get (reading : ℚ) (id : Text) :
    ComputerUseSnapshotStore α × Option (SnapshotItem α) :=
  let pruned := store.prune reading
  match pruned.items.get? id with
  | none => (pruned, none)
  | some item =>
    ({ pruned with items := (pruned.items.delete id).set id item }, some item)

/-- The object which is expected has to be the one which is stored. -/
def claim (reading : ℚ) (id : Text) (expected : Nat) :
    ComputerUseSnapshotStore α × Option (SnapshotItem α) :=
  let pruned := store.prune reading
  match (pruned.items.get? id).filter (·.serial = expected) with
  | none => (pruned, none)
  | some item =>
    ({ pruned with
        items := pruned.items.delete id
        claimed := item.serial :: pruned.claimed }, some item)

def discard (id : Text) : ComputerUseSnapshotStore α :=
  if id = [] then store else { store with items := store.items.delete id }

end

inductive SnapshotEvent (α : Type) where
  | add (pruned created : ℚ) (ids : List Text) (content : α)
  | get (reading : ℚ) (id : Text)
  | claim (reading : ℚ) (id : Text) (expected : Nat)
  | discard (id : Text)

def step (store : ComputerUseSnapshotStore α) :
    SnapshotEvent α → ComputerUseSnapshotStore α
  | .add pruned created ids content =>
    (store.add pruned created ids content).1
  | .get reading id => (store.get reading id).1
  | .claim reading id expected => (store.claim reading id expected).1
  | .discard id => store.discard id

/-- The objects which are stored or were claimed. -/
def serials (store : ComputerUseSnapshotStore α) : List Nat :=
  store.items.values.map SnapshotItem.serial ++ store.claimed

/-- An object is stored once at most, and no longer after it was claimed. -/
structure Sound (store : ComputerUseSnapshotStore α) : Prop where
  bounded : store.items.size ≤ maxSnapshots
  made : ∀ serial ∈ store.serials, serial < store.next
  once : store.serials.Nodup
  dated : ∀ item ∈ store.items.values, ∀ reading,
    item.createdAt ≤ store.now reading

variable {store after : ComputerUseSnapshotStore α}

theorem now_readNow (reading other : ℚ) :
    store.now reading ≤ (store.readNow reading).now other :=
  le_max_right _ _

theorem Sound.drop (sound : Sound store)
    (fewer : after.items.entries.Sublist store.items.entries)
    (claimed : after.claimed = store.claimed) (next : after.next = store.next)
    (later : ∀ reading, ∃ earlier, store.now earlier ≤ after.now reading) :
    Sound after := by
  have shorter : after.serials.Sublist store.serials := by
    rw [serials, serials, claimed]
    exact ((fewer.map Prod.snd).map _).append_right _
  refine ⟨fewer.length_le.trans sound.bounded, fun serial member => ?_,
    sound.once.sublist shorter, fun item member reading => ?_⟩
  · rw [next]
    exact sound.made serial (shorter.subset member)
  · obtain ⟨earlier, order⟩ := later reading
    exact (sound.dated item ((fewer.map Prod.snd).subset member) earlier).trans
      order

theorem Sound.permute (sound : Sound store)
    (size : after.items.size ≤ store.items.size)
    (within : ∀ item ∈ after.items.values, item ∈ store.items.values)
    (same : after.serials.Perm store.serials) (next : after.next = store.next)
    (clock : after.lastNow = store.lastNow) : Sound after := by
  refine ⟨size.trans sound.bounded, fun serial member => ?_,
    same.nodup_iff.mpr sound.once, fun item member reading => ?_⟩
  · rw [next]
    exact sound.made serial (same.subset member)
  · rw [now, clock]
    exact sound.dated item (within item member) reading

theorem prune_sound (sound : Sound store) (reading : ℚ) :
    Sound (store.prune reading) :=
  sound.drop filter_sublist rfl rfl fun other =>
    ⟨reading, now_readNow reading other⟩

theorem makeRoom_sound (sound : Sound store) : Sound store.makeRoom :=
  sound.drop (drop_sublist _ _) rfl rfl fun other => ⟨other, le_rfl⟩

theorem makeRoom_size (sound : Sound store) :
    store.makeRoom.items.size < maxSnapshots := by
  have bounded := sound.bounded
  simp only [makeRoom, Record.size, length_drop, maxSnapshots] at bounded ⊢
  omega

theorem add_sound (sound : Sound store) (pruned created : ℚ) (ids : List Text)
    (content : α) : Sound (store.add pruned created ids content).1 := by
  have roomy := makeRoom_sound (prune_sound sound pruned)
  have size := makeRoom_size (prune_sound sound pruned)
  unfold add
  dsimp only
  split
  case h_1 => exact roomy
  case h_2 id found =>
    generalize (store.prune pruned).makeRoom = before at roomy size found ⊢
    have absent : id ∉ before.items.keys := by
      have free := find?_some found
      simpa [← Record.contains_iff] using free
    have values := Record.values_set_of_not_mem absent
      (⟨before.now created, before.next, content⟩ : SnapshotItem α)
    have grown : (serials { before.readNow created with
        items := before.items.set id ⟨before.now created, before.next, content⟩
        next := before.next + 1 }).Perm (before.next :: before.serials) := by
      rw [serials, values, map_append, append_assoc]
      exact perm_middle
    refine ⟨?_, fun serial member => ?_, ?_, fun item member reading => ?_⟩
    · rw [Record.size_set_of_not_mem absent]
      exact size
    · rcases mem_cons.mp (grown.subset member) with rfl | old
      · exact Nat.lt_succ_self _
      · exact Nat.lt_succ_of_lt (roomy.made serial old)
    · rw [grown.nodup_iff, nodup_cons]
      exact ⟨fun used => Nat.lt_irrefl _ (roomy.made _ used), roomy.once⟩
    · have clock := before.now_readNow created reading
      rw [values] at member
      rcases mem_append.mp member with old | new
      · exact (roomy.dated item old created).trans clock
      · rw [mem_singleton.mp new]
        exact clock

theorem values_delete_perm {record : Record Text (SnapshotItem α)} {id : Text}
    {item : SnapshotItem α} (found : record.get? id = some item) :
    record.values.Perm (item :: (record.delete id).values) := by
  obtain ⟨before, rest, split⟩ := append_of_mem (Record.get?_eq_some.mp found)
  rw [Record.values, Record.values, Record.entries_delete_of_split split, split,
    map_append, map_append, map_cons]
  exact perm_middle

theorem get_sound (sound : Sound store) (reading : ℚ) (id : Text) :
    Sound (store.get reading id).1 := by
  have pruned := prune_sound sound reading
  unfold get
  dsimp only
  split
  case h_1 => exact pruned
  case h_2 item found =>
    have moved := values_delete_perm found
    have absent : id ∉ ((store.prune reading).items.delete id).keys := by simp
    have same : (((store.prune reading).items.delete id).set id item).values.Perm
        (store.prune reading).items.values := by
      rw [Record.values_set_of_not_mem absent]
      exact (perm_append_singleton _ _).trans moved.symm
    refine pruned.permute (Nat.le_of_eq ?_) (fun _ member => same.subset member)
      ((same.map _).append_right _) rfl rfl
    simpa [Record.values, Record.size] using same.length_eq

theorem claim_sound (sound : Sound store) (reading : ℚ) (id : Text)
    (expected : Nat) : Sound (store.claim reading id expected).1 := by
  have pruned := prune_sound sound reading
  unfold claim
  dsimp only
  split
  case h_1 => exact pruned
  case h_2 item found =>
    rw [Option.filter_eq_some_iff] at found
    have moved := values_delete_perm found.1
    refine pruned.permute filter_sublist.length_le
      (fun item member => moved.symm.subset (mem_cons_of_mem _ member)) ?_ rfl rfl
    exact perm_middle.trans ((moved.map _).append_right _).symm

theorem step_sound (store : ComputerUseSnapshotStore α)
    (event : SnapshotEvent α) (sound : Sound store) :
    Sound (store.step event) := by
  cases event with
  | add pruned created ids content =>
    exact add_sound sound pruned created ids content
  | get reading id => exact get_sound sound reading id
  | claim reading id expected => exact claim_sound sound reading id expected
  | discard id =>
    change Sound (store.discard id)
    unfold discard
    split
    case isTrue => exact sound
    case isFalse =>
      exact sound.drop filter_sublist rfl rfl fun other => ⟨other, le_rfl⟩

theorem initial_sound : Sound ({} : ComputerUseSnapshotStore α) where
  bounded := Nat.zero_le _
  made := by simp [serials, Record.values, Record.empty]
  once := nodup_nil
  dated := by simp [Record.values, Record.empty]

theorem mem_prune {reading : ℚ} {id : Text} {item : SnapshotItem α}
    (found : (store.prune reading).items.get? id = some item) :
    item ∈ store.items.values ∧
    store.now reading - snapshotTtlMs ≤ item.createdAt := by
  have member := Record.get?_eq_some.mp found
  simp only [prune, Record.mem_filter, decide_eq_true_eq] at member
  exact ⟨Record.mem_values.mpr ⟨id, member.1⟩, member.2⟩

/-- In every run the store stays bounded, no observation is claimed twice, and
one which is given out was not claimed before and is not too old. -/
theorem run_claimsOnce (events : List (SnapshotEvent α)) :
    let store := run step ({} : ComputerUseSnapshotStore α) events
    store.items.size ≤ maxSnapshots ∧ store.claimed.Nodup ∧
    ∀ reading id item, ((store.get reading id).2 = some item ∨
      ∃ expected, (store.claim reading id expected).2 = some item) →
      item.serial ∉ store.claimed ∧ item.createdAt ≤ store.now reading ∧
      store.now reading - item.createdAt ≤ snapshotTtlMs := by
  intro store
  have sound : Sound store := run_induction step_sound initial_sound events
  refine ⟨sound.bounded, (nodup_append.mp sound.once).2.1, ?_⟩
  intro reading id item given
  have found : (store.prune reading).items.get? id = some item := by
    rcases given with got | ⟨expected, claimed⟩
    · unfold get at got
      dsimp only at got
      split at got
      case h_1 => cases got
      case h_2 found => exact found.trans got
    · unfold claim at claimed
      dsimp only at claimed
      split at claimed
      case h_1 => cases claimed
      case h_2 other found =>
        cases claimed
        exact (Option.filter_eq_some_iff.mp found).1
  obtain ⟨member, young⟩ := mem_prune found
  refine ⟨fun used => ?_, sound.dated item member reading, by linarith⟩
  exact (nodup_append.mp sound.once).2.2 _ (mem_map_of_mem member) _ used rfl

end ComputerUseSnapshotStore

end MachineBridge.ComputerUse
