import MachineBridge.Foundation.Run
import MachineBridge.Foundation.Text
import Mathlib.Algebra.BigOperators.Group.Finset.Basic
import Mathlib.Data.Finset.Sort

/-!
# Subscriptions to the list of tools

An open subscription takes one place of its account and one of all places, and
gives both back when its stream ends.  Many events end a stream, and a request
that is aborted already ends it while it is still being opened.
-/

namespace MachineBridge.Mcp

open Foundation Function

def maxActiveMcpSubscriptions : Nat := 32

def maxActiveMcpSubscriptionsPerAccount : Nat := 8

structure SubscriptionOwner where
  accountId : Text
  accountVersion : Int
  (clientId familyId : Text)
deriving DecidableEq

/-- What the closures of one call of `open` share. -/
structure Subscription where
  owner : SubscriptionOwner
  requestKey : Text
  (aborted capacityReleased released : Bool := false)
  /-- How often the places were given back. -/
  closes : Nat := 0
  requestListening : Bool := true
  (leaseTimer streamListening : Bool := false)
  writable : Bool := true
  finalized : Bool := false
deriving DecidableEq

def Subscription.account (subscription : Subscription) :=
  (subscription.owner, subscription.requestKey, subscription.released,
    subscription.closes, subscription.capacityReleased)

structure McpSubscriptionRegistry where
  count : Nat := 0
  /-- An account without an entry has the count 0. -/
  byAccount : Text → Nat := fun _ => 0
  cancelByRequestKey : Text → Option Nat := fun _ => none
  active : Finset Nat := ∅
  subscriptions : Nat → Subscription :=
    fun _ => { owner := ⟨[], 0, [], []⟩, requestKey := [] }
  /-- The number of the next subscription. -/
  next : Nat := 0

inductive OpenResult where
  | refused
  | duplicate
  | failed
  | opened
deriving DecidableEq

structure OpenSubscriptionInput where
  owner : SubscriptionOwner
  requestKey : Text
  /-- The signal of the request is aborted already. -/
  aborted : Bool
  /-- The messages can be written as JSON. -/
  writes : Bool

namespace McpSubscriptionRegistry

variable (registry : McpSubscriptionRegistry) (id : Nat)

def change (flags : Subscription → Subscription) : McpSubscriptionRegistry :=
  { registry with
    subscriptions := update registry.subscriptions id
      (flags (registry.subscriptions id)) }

def unreserve (account : Text) : McpSubscriptionRegistry :=
  { registry with
    count := registry.count - 1
    byAccount := update registry.byAccount account
      (registry.byAccount account - 1) }

def releaseCapacity : McpSubscriptionRegistry :=
  let subscription := registry.subscriptions id
  if subscription.capacityReleased then registry
  else
    (registry.change id ({ · with capacityReleased := true })).unreserve
      subscription.owner.accountId

def unindex (key : Text) : McpSubscriptionRegistry :=
  { registry with
    cancelByRequestKey :=
      if key ≠ [] ∧ registry.cancelByRequestKey key = some id then
        update registry.cancelByRequestKey key none
      else registry.cancelByRequestKey }

def release : McpSubscriptionRegistry :=
  let subscription := registry.subscriptions id
  if subscription.released then registry
  else
    let registry := (registry.change id fun subscription =>
      { subscription with
        released := true
        closes := subscription.closes + 1
        leaseTimer := false
        requestListening := false }).unindex id subscription.requestKey
    { registry with active := registry.active.erase id }.releaseCapacity id

def finalize : McpSubscriptionRegistry :=
  if (registry.subscriptions id).finalized then registry
  else (registry.change id ({ · with finalized := true })).release id

/-- The stream's listener for the abort of its signal. -/
def streamAbort : McpSubscriptionRegistry :=
  if (registry.subscriptions id).writable then
    (registry.change id ({ · with writable := false })).finalize id
  else registry

def abort : McpSubscriptionRegistry :=
  if (registry.subscriptions id).aborted then registry
  else
    let registry := registry.change id ({ · with aborted := true })
    if (registry.subscriptions id).streamListening then registry.streamAbort id
    else registry

def streamCancel : McpSubscriptionRegistry :=
  if (registry.subscriptions id).writable then
    (registry.change id fun subscription => { subscription with
      writable := false, streamListening := false }).finalize id
  else registry

def requestAbort : McpSubscriptionRegistry :=
  if (registry.subscriptions id).requestListening then registry.abort id
  else registry

def leaseExpired : McpSubscriptionRegistry :=
  if (registry.subscriptions id).leaseTimer then registry.abort id
  else registry

def cancelRequest (key : Text) : McpSubscriptionRegistry :=
  if key = [] then registry
  else match registry.cancelByRequestKey key with
    | none => registry
    | some id => registry.abort id

def cancelAll (ids : List Nat) : McpSubscriptionRegistry :=
  ids.foldl abort registry

def cancelAuthority (matching : SubscriptionOwner → Bool) :
    McpSubscriptionRegistry :=
  registry.cancelAll ((registry.active.filter fun id =>
    matching (registry.subscriptions id).owner = true).sort (· ≤ ·))

def reserve (account : Text) : Option McpSubscriptionRegistry :=
  if account = [] ∨ maxActiveMcpSubscriptions ≤ registry.count ∨
      maxActiveMcpSubscriptionsPerAccount ≤ registry.byAccount account then
    none
  else some { registry with
    count := registry.count + 1
    byAccount := update registry.byAccount account
      (registry.byAccount account + 1) }

def enter (input : OpenSubscriptionInput) : McpSubscriptionRegistry :=
  { registry with
    cancelByRequestKey :=
      if input.requestKey = [] then registry.cancelByRequestKey
      else update registry.cancelByRequestKey input.requestKey
        (some registry.next)
    active := insert registry.next registry.active
    subscriptions := update registry.subscriptions registry.next
      { owner := input.owner
        requestKey := input.requestKey
        aborted := input.aborted }
    next := registry.next + 1 }

def openSubscriptionResponse : McpSubscriptionRegistry :=
  let registry := registry.change id ({ · with streamListening := true })
  if (registry.subscriptions id).aborted then registry.streamAbort id
  else registry

def openSubscription (input : OpenSubscriptionInput) :
    McpSubscriptionRegistry × OpenResult :=
  match registry.reserve input.owner.accountId with
  | none => (registry, .refused)
  | some reserved =>
    if input.requestKey ≠ [] ∧
        (reserved.cancelByRequestKey input.requestKey).isSome then
      (reserved.unreserve input.owner.accountId, .duplicate)
    else
      let entered := reserved.enter input
      let id := reserved.next
      if input.writes then
        let opened := entered.openSubscriptionResponse id
        (opened.change id fun subscription =>
          { subscription with leaseTimer := !subscription.released }, .opened)
      else (entered.release id, .failed)

end McpSubscriptionRegistry

inductive SubscriptionEvent where
  | opens (input : OpenSubscriptionInput)
  | streamCancel (id : Nat)
  | requestAbort (id : Nat)
  | leaseExpired (id : Nat)
  | cancelRequest (key : Text)
  | cancelAuthority (matching : SubscriptionOwner → Bool)

namespace McpSubscriptionRegistry

def step (registry : McpSubscriptionRegistry) :
    SubscriptionEvent → McpSubscriptionRegistry
  | .opens input => (registry.openSubscription input).1
  | .streamCancel id =>
    if id < registry.next then registry.streamCancel id else registry
  | .requestAbort id =>
    if id < registry.next then registry.requestAbort id else registry
  | .leaseExpired id =>
    if id < registry.next then registry.leaseExpired id else registry
  | .cancelRequest key => registry.cancelRequest key
  | .cancelAuthority matching => registry.cancelAuthority matching

def Ends (registry : McpSubscriptionRegistry) (id : Nat) :
    SubscriptionEvent → Prop
  | .opens _ => False
  | .streamCancel other | .requestAbort other | .leaseExpired other =>
    other = id
  | .cancelRequest key =>
    key ≠ [] ∧ (registry.subscriptions id).requestKey = key ∧
      id ∈ registry.active
  | .cancelAuthority matching =>
    matching (registry.subscriptions id).owner = true ∧ id ∈ registry.active

def Unreleased (registry : McpSubscriptionRegistry) (id : Nat) : Prop :=
  id < registry.next ∧ (registry.subscriptions id).released = false

structure SameAccounts (left right : McpSubscriptionRegistry) : Prop where
  count : left.count = right.count
  byAccount : left.byAccount = right.byAccount
  cancelByRequestKey : left.cancelByRequestKey = right.cancelByRequestKey
  active : left.active = right.active

variable {registry after : McpSubscriptionRegistry} {id other : Nat}
  {flags : Subscription → Subscription} {input : OpenSubscriptionInput}

def countOf (registry : McpSubscriptionRegistry) (account : Text) : Nat :=
  (registry.active.filter fun id =>
    (registry.subscriptions id).owner.accountId = account).card

/-- The counts and the indexes are those of the unreleased subscriptions. -/
structure Accounts (registry : McpSubscriptionRegistry) : Prop where
  count : registry.count = registry.active.card
  accounts : ∀ account, registry.byAccount account = registry.countOf account
  total : registry.count ≤ maxActiveMcpSubscriptions
  each : ∀ account,
    registry.byAccount account ≤ maxActiveMcpSubscriptionsPerAccount
  active : ∀ id, id ∈ registry.active ↔ registry.Unreleased id
  index : ∀ key id, registry.cancelByRequestKey key = some id ↔
    key ≠ [] ∧ (registry.subscriptions id).requestKey = key ∧
      registry.Unreleased id
  once : ∀ id < registry.next, (registry.subscriptions id).closes =
    if (registry.subscriptions id).released then 1 else 0
  capacity : ∀ id < registry.next,
    (registry.subscriptions id).capacityReleased =
      (registry.subscriptions id).released

/-- What is promised at every moment. -/
structure Accounted (registry : McpSubscriptionRegistry) : Prop extends
    Accounts registry where
  sum : ∀ accounts : Finset Text, (∀ id ∈ registry.active,
      (registry.subscriptions id).owner.accountId ∈ accounts) →
    ∑ account ∈ accounts, registry.byAccount account = registry.count
  ended : ∀ event, ∀ id < registry.next, registry.Ends id event →
    ((registry.step event).subscriptions id).closes = 1
  failed : ∀ input, (registry.openSubscription input).2 ≠ .opened →
    SameAccounts (registry.openSubscription input).1 registry

theorem change_accounts (accounts : Accounts registry)
    (same : (flags (registry.subscriptions id)).account =
      (registry.subscriptions id).account) :
    Accounts (registry.change id flags) := by
  have all : ∀ other, ((registry.change id flags).subscriptions other).account =
      (registry.subscriptions other).account := by
    intro other
    by_cases equal : other = id
    · simp [equal, change, same]
    · simp [equal, change]
  simp only [Subscription.account, Prod.mk.injEq] at all
  have unreleased : ∀ other, (registry.change id flags).Unreleased other ↔
      registry.Unreleased other := fun other => by
    rw [Unreleased, (all other).2.2.1]
    rfl
  refine ⟨accounts.count, fun account => ?_, accounts.total, accounts.each,
    fun other => ?_, fun key other => ?_, fun other => ?_, fun other => ?_⟩
  · rw [countOf]
    simp only [(all _).1]
    exact accounts.accounts account
  · rw [unreleased]
    exact accounts.active other
  · rw [unreleased, (all other).2.1]
    exact accounts.index key other
  · rw [(all other).2.2.1, (all other).2.2.2.1]
    exact accounts.once other
  · rw [(all other).2.2.1, (all other).2.2.2.2]
    exact accounts.capacity other

structure Releases (registry after : McpSubscriptionRegistry) (id : Nat) :
    Prop where
  next : after.next = registry.next
  others : ∀ other ≠ id,
    after.subscriptions other = registry.subscriptions other
  released : (after.subscriptions id).account =
    { registry.subscriptions id with
      released := true
      closes := (registry.subscriptions id).closes + 1
      capacityReleased := true }.account
  active : after.active = registry.active.erase id
  count : after.count = registry.count - 1
  byAccount : after.byAccount =
    update registry.byAccount (registry.subscriptions id).owner.accountId
      (registry.byAccount (registry.subscriptions id).owner.accountId - 1)
  index : ∀ key other, after.cancelByRequestKey key = some other ↔
    registry.cancelByRequestKey key = some other ∧ other ≠ id

theorem release_releases (accounts : Accounts registry)
    (unreleased : registry.Unreleased id) :
    Releases registry (registry.release id) id := by
  obtain ⟨known, open'⟩ := unreleased
  have capacity := (accounts.capacity id known).trans open'
  simp only [release, open', Bool.false_eq_true, if_false, releaseCapacity,
    unindex, change, unreserve, update_self, capacity]
  refine ⟨rfl, fun other different => ?_, ?_, rfl, rfl, rfl, fun key other => ?_⟩
  · simp [different]
  · simp [Subscription.account]
  · have own : registry.cancelByRequestKey key = some id →
        key ≠ [] ∧ (registry.subscriptions id).requestKey = key :=
      fun found => ⟨((accounts.index key id).mp found).1,
        ((accounts.index key id).mp found).2.1⟩
    split
    case isTrue indexed =>
      by_cases same : key = (registry.subscriptions id).requestKey
      · subst same
        simp [indexed.2, eq_comm]
      · simp only [update_of_ne same]
        refine ⟨fun found => ⟨found, ?_⟩, And.left⟩
        rintro rfl
        exact same (own found).2.symm
    case isFalse absent =>
      refine ⟨fun found => ⟨found, ?_⟩, And.left⟩
      rintro rfl
      obtain ⟨filled, same⟩ := own found
      exact absent (same ▸ ⟨filled, found⟩)

theorem release_accounts (accounts : Accounts registry)
    (known : id < registry.next) : Accounts (registry.release id) := by
  by_cases released : (registry.subscriptions id).released = true
  · rw [release, if_pos released]
    exact accounts
  rw [Bool.not_eq_true] at released
  have releases := release_releases accounts ⟨known, released⟩
  have member := (accounts.active id).mpr ⟨known, released⟩
  generalize registry.release id = after at releases
  obtain ⟨owner, key, done, closes, capacity⟩ :
      (after.subscriptions id).owner = (registry.subscriptions id).owner ∧
      (after.subscriptions id).requestKey =
        (registry.subscriptions id).requestKey ∧
      (after.subscriptions id).released = true ∧
      (after.subscriptions id).closes =
        (registry.subscriptions id).closes + 1 ∧
      (after.subscriptions id).capacityReleased = true := by
    simpa [Subscription.account] using releases.released
  have unreleased : ∀ other, after.Unreleased other ↔
      other ≠ id ∧ registry.Unreleased other := by
    intro other
    by_cases same : other = id
    · simp [same, Unreleased, done]
    · rw [Unreleased, releases.others other same, releases.next]
      exact (and_iff_right same).symm
  have same : ∀ other ∈ registry.active.erase id,
      after.subscriptions other = registry.subscriptions other :=
    fun other member => releases.others other (Finset.ne_of_mem_erase member)
  have counts : ∀ account, after.countOf account = ((registry.active.filter
      fun id => (registry.subscriptions id).owner.accountId = account).erase
        id).card := by
    intro account
    rw [countOf, releases.active, ← Finset.filter_erase]
    congr 1
    exact Finset.filter_congr fun other member => by rw [same other member]
  refine ⟨?_, fun account => ?_, ?_, fun account => ?_, fun other => ?_,
    fun key' other => ?_, fun other within => ?_, fun other within => ?_⟩
  · rw [releases.count, releases.active, Finset.card_erase_of_mem member,
      accounts.count]
  · rw [counts, releases.byAccount]
    by_cases mine : account = (registry.subscriptions id).owner.accountId
    · subst mine
      rw [update_self, accounts.accounts, Finset.card_erase_of_mem]
      · rfl
      · simp [member]
    · rw [update_of_ne mine, accounts.accounts, Finset.erase_eq_of_notMem]
      · rfl
      · simp [Ne.symm mine]
  · rw [releases.count]
    exact (Nat.sub_le ..).trans accounts.total
  · rw [releases.byAccount]
    have bound := accounts.each account
    unfold update
    split
    case isTrue same =>
      cases same
      exact (Nat.sub_le ..).trans bound
    case isFalse => exact bound
  · rw [releases.active, unreleased, Finset.mem_erase, accounts.active]
  · rw [releases.index, unreleased, accounts.index]
    by_cases mine : other = id
    · simp [mine]
    · simp [mine, releases.others other mine]
  · rw [releases.next] at within
    by_cases mine : other = id
    · rw [mine, closes, done, accounts.once id known, released]
      rfl
    · rw [releases.others other mine]
      exact accounts.once other within
  · rw [releases.next] at within
    by_cases mine : other = id
    · rw [mine, capacity, done]
    · rw [releases.others other mine]
      exact accounts.capacity other within

/-- What an operation on one subscription does.  When the subscription is ready
for the operation, it is released. -/
structure Ended (registry after : McpSubscriptionRegistry) (id : Nat)
    (ready : Prop) : Prop where
  accounts : Accounts after
  next : after.next = registry.next
  others : ∀ other ≠ id,
    after.subscriptions other = registry.subscriptions other
  owner : (after.subscriptions id).owner = (registry.subscriptions id).owner
  kept : (registry.subscriptions id).released = true →
    (after.subscriptions id).released = true
  done : ready → (after.subscriptions id).released = true

variable {ready better : Prop}

theorem Ended.refl (accounts : Accounts registry) (idle : ¬ ready) :
    Ended registry registry id ready :=
  ⟨accounts, rfl, fun _ _ => rfl, rfl, fun same => same,
    fun now => absurd now idle⟩

theorem Ended.change (accounts : Accounts registry)
    (same : (flags (registry.subscriptions id)).account =
      (registry.subscriptions id).account)
    (ended : Accounts (registry.change id flags) →
      Ended (registry.change id flags) after id better)
    (needs : ready → better) : Ended registry after id ready := by
  have ended := ended (change_accounts accounts same)
  simp only [Subscription.account, Prod.mk.injEq] at same
  refine ⟨ended.accounts, ended.next, fun other different => ?_, ?_,
    fun released => ended.kept ?_, fun now => ended.done (needs now)⟩
  · rw [ended.others other different]
    simp [McpSubscriptionRegistry.change, different]
  · rw [ended.owner]
    simp [McpSubscriptionRegistry.change, same.1]
  · simp [McpSubscriptionRegistry.change, same.2.2.1, released]

section

variable (accounts : Accounts registry)
include accounts

theorem release_ended (known : id < registry.next) :
    Ended registry (registry.release id) id True := by
  by_cases released : (registry.subscriptions id).released = true
  · rw [release, if_pos released]
    exact ⟨accounts, rfl, fun _ _ => rfl, rfl, fun same => same,
      fun _ => released⟩
  rw [Bool.not_eq_true] at released
  have releases := release_releases accounts ⟨known, released⟩
  have account := releases.released
  simp only [Subscription.account, Prod.mk.injEq] at account
  exact ⟨release_accounts accounts known, releases.next, releases.others,
    account.1, fun _ => account.2.2.1, fun _ => account.2.2.1⟩

theorem finalize_ended
    (known : id < registry.next) : Ended registry (registry.finalize id) id
      ((registry.subscriptions id).finalized = false) := by
  unfold finalize
  split
  case isTrue done => exact .refl accounts (by simp [done])
  case isFalse =>
    exact .change accounts rfl (fun kept => release_ended kept known)
      fun _ => trivial

theorem streamAbort_ended
    (known : id < registry.next) : Ended registry (registry.streamAbort id) id
      ((registry.subscriptions id).writable = true ∧
        (registry.subscriptions id).finalized = false) := by
  unfold streamAbort
  split
  case isTrue =>
    exact .change accounts rfl (fun kept => finalize_ended kept known)
      fun ready => by simp [change, ready.2]
  case isFalse idle => exact .refl accounts fun ready => idle ready.1

theorem streamCancel_ended
    (known : id < registry.next) : Ended registry (registry.streamCancel id) id
      ((registry.subscriptions id).writable = true ∧
        (registry.subscriptions id).finalized = false) := by
  unfold streamCancel
  split
  case isTrue =>
    exact .change accounts rfl (fun kept => finalize_ended kept known)
      fun ready => by simp [change, ready.2]
  case isFalse idle => exact .refl accounts fun ready => idle ready.1

end

/-- A subscription which has not ended yet. -/
structure Awake (subscription : Subscription) : Prop where
  aborted : subscription.aborted = false
  streamListening : subscription.streamListening = true
  writable : subscription.writable = true
  finalized : subscription.finalized = false
  requestListening : subscription.requestListening = true
  leaseTimer : subscription.leaseTimer = true

theorem abort_ended (accounts : Accounts registry)
    (known : id < registry.next) : Ended registry (registry.abort id) id
      (Awake (registry.subscriptions id)) := by
  unfold abort
  split
  case isTrue done => exact .refl accounts fun ready => by simp [ready.1] at done
  case isFalse =>
    dsimp only
    split
    case isTrue =>
      exact .change accounts rfl (fun kept => streamAbort_ended kept known)
        fun ready => by simp [change, ready.writable, ready.finalized]
    case isFalse deaf =>
      refine .change accounts rfl (fun kept => .refl kept not_false)
        fun ready => deaf ?_
      simp [change, ready.streamListening]

/-- Between two events every active subscription is awake. -/
structure Invariant (registry : McpSubscriptionRegistry) : Prop where
  accounts : Accounts registry
  awake : ∀ id ∈ registry.active, Awake (registry.subscriptions id)

theorem invariant_of_ended (accounts : Accounts registry)
    (awake : ∀ other ∈ registry.active, other ≠ id →
      Awake (registry.subscriptions other))
    (ended : Ended registry after id ready)
    (released : (after.subscriptions id).released = true) :
    Invariant after := by
  refine ⟨ended.accounts, fun other member => ?_⟩
  obtain ⟨within, unreleased⟩ := (ended.accounts.active other).mp member
  by_cases same : other = id
  · rw [same, released] at unreleased
    cases unreleased
  · rw [ended.others other same] at unreleased ⊢
    rw [ended.next] at within
    exact awake other ((accounts.active other).mpr ⟨within, unreleased⟩) same

theorem change_invariant (accounts : Accounts registry)
    (same : (flags (registry.subscriptions id)).account =
      (registry.subscriptions id).account)
    (awake : ∀ other ∈ registry.active, other ≠ id →
      Awake (registry.subscriptions other))
    (own : id ∈ registry.active →
      Awake (flags (registry.subscriptions id))) :
    Invariant (registry.change id flags) := by
  refine ⟨change_accounts accounts same, fun other member => ?_⟩
  by_cases mine : other = id
  · subst mine
    simpa [change] using own member
  · simpa [change, mine] using awake other member mine

/-- A subscription has ended, and the others are as before. -/
structure Settled (registry after : McpSubscriptionRegistry) (id : Nat) :
    Prop where
  invariant : Invariant after
  next : after.next = registry.next
  released : (after.subscriptions id).released = true

theorem Settled.closes (settled : Settled registry after id)
    (known : id < registry.next) : (after.subscriptions id).closes = 1 := by
  rw [settled.invariant.accounts.once id (settled.next ▸ known),
    settled.released, if_pos rfl]

section
variable (invariant : Invariant registry)
include invariant

theorem Invariant.released_or_awake (known : id < registry.next) :
    (registry.subscriptions id).released = true ∨
      Awake (registry.subscriptions id) := by
  cases before : (registry.subscriptions id).released with
  | true => exact .inl rfl
  | false => exact .inr (invariant.awake id
      ((invariant.accounts.active id).mpr ⟨known, before⟩))

theorem Invariant.ended (known : id < registry.next)
    (ended : Ended registry after id ready)
    (reaches : Awake (registry.subscriptions id) → ready) :
    Settled registry after id := by
  have released : (after.subscriptions id).released = true :=
    (invariant.released_or_awake known).elim ended.kept fun awake =>
      ended.done (reaches awake)
  refine ⟨?_, ended.next, released⟩
  exact invariant_of_ended invariant.accounts
    (fun other member _ => invariant.awake other member) ended released

theorem Invariant.abort (known : id < registry.next) :
    Settled registry (registry.abort id) id :=
  invariant.ended known (abort_ended invariant.accounts known) fun ready => ready

theorem Invariant.listener (known : id < registry.next) {listening : Bool}
    (listens : Awake (registry.subscriptions id) → listening = true) :
    Settled registry (if listening then registry.abort id else registry) id := by
  split
  case isTrue => exact invariant.abort known
  case isFalse deaf =>
    exact ⟨invariant, rfl, (invariant.released_or_awake known).resolve_right
      fun awake => deaf (listens awake)⟩

end

theorem Invariant.cancelAll {ids : List Nat} (invariant : Invariant registry)
    (known : ∀ id ∈ ids, id < registry.next) :
    Invariant (registry.cancelAll ids) ∧ (registry.cancelAll ids).next =
      registry.next ∧ ∀ id, id ∈ ids ∨
        (registry.subscriptions id).released = true →
          ((registry.cancelAll ids).subscriptions id).released = true := by
  induction ids generalizing registry with
  | nil =>
    refine ⟨invariant, rfl, fun id ended => ?_⟩
    exact ended.resolve_left List.not_mem_nil
  | cons first ids induction =>
    have within := known first List.mem_cons_self
    have ended := abort_ended invariant.accounts within
    have settled := invariant.abort within
    obtain ⟨holds, next, all⟩ := induction settled.invariant fun id member => by
      rw [ended.next]
      exact known id (List.mem_cons_of_mem _ member)
    refine ⟨holds, next.trans ended.next, fun id member => all id ?_⟩
    by_cases same : id = first
    · exact .inr (same ▸ settled.released)
    · rw [ended.others id same]
      simpa [same] using member

theorem next_not_active (accounts : Accounts registry) :
    registry.next ∉ registry.active := fun member =>
  Nat.lt_irrefl _ ((accounts.active _).mp member).1

theorem enter_accounts (accounts : Accounts registry)
    (reserved : registry.reserve input.owner.accountId = some after)
    (free : input.requestKey ≠ [] →
      registry.cancelByRequestKey input.requestKey = none) :
    Accounts (after.enter input) := by
  have absent := next_not_active accounts
  unfold reserve at reserved
  split at reserved
  case isTrue => cases reserved
  case isFalse room =>
    cases reserved
    simp only [not_or, Nat.not_le] at room
    obtain ⟨-, total, each⟩ := room
    have old : ∀ other ∈ registry.active, other ≠ registry.next :=
      fun other member same => absent (same ▸ member)
    have counts : ∀ account, (registry.active.filter fun other =>
        (update registry.subscriptions registry.next
          { owner := input.owner
            requestKey := input.requestKey
            aborted := input.aborted } other).owner.accountId = account).card =
        registry.byAccount account := by
      intro account
      rw [accounts.accounts, countOf]
      congr 1
      exact Finset.filter_congr fun other member => by
        rw [update_of_ne (old other member)]
    have before : ∀ other, other < registry.next + 1 → other ≠ registry.next →
        other < registry.next := fun other within different =>
      Nat.lt_of_le_of_ne (Nat.le_of_lt_succ within) different
    refine ⟨?_, fun account => ?_, total, fun account => ?_, fun other => ?_,
      fun key other => ?_, fun other within => ?_, fun other within => ?_⟩
    · simp [enter, Finset.card_insert_of_notMem absent, accounts.count]
    · simp only [enter, countOf, Finset.filter_insert, update_self]
      by_cases mine : account = input.owner.accountId
      · subst mine
        rw [update_self, if_pos rfl, Finset.card_insert_of_notMem, counts]
        exact fun member => absent (Finset.mem_filter.mp member).1
      · rw [update_of_ne mine, if_neg (Ne.symm mine), counts]
    · simp only [enter]
      by_cases mine : account = input.owner.accountId
      · subst mine
        rw [update_self]
        exact each
      · rw [update_of_ne mine]
        exact accounts.each account
    · by_cases new : other = registry.next
      · simp [enter, Unreleased, new]
      · have same := accounts.active other
        have within := before other
        simp only [enter, Unreleased, Finset.mem_insert, new, false_or,
          update_of_ne new, same]
        exact and_congr_left' ⟨Nat.lt_succ_of_lt, (within · new)⟩
    · have old := accounts.index key other
      by_cases new : other = registry.next
      · have unknown : registry.cancelByRequestKey key ≠ some other := fun found =>
          absurd (old.mp found).2.2.1 (new ▸ Nat.lt_irrefl _)
        subst new
        simp only [enter, Unreleased, update_self]
        split
        case isTrue keyless =>
          exact iff_of_false unknown fun indexed =>
            indexed.1 (indexed.2.1.symm.trans keyless)
        case isFalse keyed =>
          by_cases mine : key = input.requestKey
          · subst mine
            simp [keyed]
          · rw [update_of_ne mine]
            exact iff_of_false unknown fun indexed => mine indexed.2.1.symm
      · have within : other < registry.next + 1 ↔ other < registry.next :=
          ⟨(before other · new), Nat.lt_succ_of_lt⟩
        simp only [enter, Unreleased, update_of_ne new, within]
        rw [Unreleased] at old
        rw [← old]
        split
        case isTrue => rfl
        case isFalse keyed =>
          by_cases mine : key = input.requestKey
          · subst mine
            simp [free keyed, Ne.symm new]
          · rw [update_of_ne mine]
    · by_cases new : other = registry.next
      · simp [enter, new]
      · simp only [enter, update_of_ne new]
        exact accounts.once other (before other within new)
    · by_cases new : other = registry.next
      · simp [enter, new]
      · simp only [enter, update_of_ne new]
        exact accounts.capacity other (before other within new)

theorem initial_invariant : Invariant {} := by
  refine ⟨⟨rfl, fun _ => rfl, Nat.zero_le _, fun _ => Nat.zero_le _,
    fun id => ?_, fun key id => ?_, nofun, nofun⟩, fun id member => ?_⟩
  · simp [Unreleased]
  · simp [Unreleased]
  · cases Finset.notMem_empty id member

theorem reserve_eq (reserved : registry.reserve input.owner.accountId =
    some after) : after = { registry with
      count := registry.count + 1
      byAccount := update registry.byAccount input.owner.accountId
        (registry.byAccount input.owner.accountId + 1) } := by
  unfold reserve at reserved
  split at reserved
  case isTrue => cases reserved
  case isFalse => exact (Option.some.inj reserved).symm

theorem entered_accounts (accounts : Accounts registry)
    (reserved : registry.reserve input.owner.accountId = some after)
    (free : ¬ (input.requestKey ≠ [] ∧
      (after.cancelByRequestKey input.requestKey).isSome = true)) :
    Accounts (after.enter input) := by
  apply enter_accounts accounts reserved
  intro keyed
  have none := (not_and.mp free) keyed
  rw [Bool.not_eq_true, Option.isSome_eq_false_iff,
    Option.isNone_iff_eq_none, reserve_eq reserved] at none
  exact none

theorem release_enter (accounts : Accounts registry)
    (reserved : registry.reserve input.owner.accountId = some after)
    (entered : Accounts (after.enter input)) :
    SameAccounts ((after.enter input).release after.next) registry := by
  have same := reserve_eq reserved
  have unreleased : (after.enter input).Unreleased after.next := by
    simp [Unreleased, enter]
  have releases := release_releases entered unreleased
  subst same
  refine ⟨?_, ?_, ?_, ?_⟩
  · rw [releases.count]
    rfl
  · rw [releases.byAccount]
    simp [enter]
  · funext key
    apply Option.ext
    intro other
    rw [releases.index, entered.index, accounts.index]
    by_cases new : other = registry.next
    · simp [new, Unreleased]
    · have within : other < registry.next + 1 ↔ other < registry.next := by
        omega
      simp [enter, Unreleased, new, within]
  · rw [releases.active]
    exact Finset.erase_insert fun member => next_not_active accounts member

theorem openSubscription_failed (invariant : Invariant registry)
    (failed : (registry.openSubscription input).2 ≠ .opened) :
    SameAccounts (registry.openSubscription input).1 registry := by
  have accounts := invariant.accounts
  unfold openSubscription at failed ⊢
  split at failed
  case h_1 refused => exact ⟨rfl, rfl, rfl, rfl⟩
  case h_2 reserved found =>
    have same := reserve_eq found
    dsimp only
    split at failed
    case isTrue duplicate =>
      rw [if_pos duplicate]
      subst same
      exact ⟨rfl, by simp [unreserve], rfl, rfl⟩
    case isFalse free =>
      rw [if_neg free]
      cases writes : input.writes with
      | true => simp [writes] at failed
      | false =>
        rw [if_neg Bool.false_ne_true]
        exact release_enter accounts found
          (entered_accounts accounts found free)

theorem openSubscription_invariant (invariant : Invariant registry) :
    Invariant (registry.openSubscription input).1 := by
  have accounts := invariant.accounts
  unfold openSubscription
  split
  case h_1 => exact invariant
  case h_2 reserved found =>
    have same := reserve_eq found
    split
    case isTrue =>
      have restored : reserved.unreserve input.owner.accountId = registry := by
        subst same
        simp [unreserve]
      rw [restored]
      exact invariant
    case isFalse free =>
      have entered := entered_accounts accounts found free
      have next : reserved.next = registry.next := by rw [same]
      have known : registry.next < (reserved.enter input).next := by
        simp [enter, next]
      have awake : ∀ other ∈ (reserved.enter input).active,
          other ≠ registry.next →
            Awake ((reserved.enter input).subscriptions other) := by
        intro other member old
        subst same
        simp only [enter, Finset.mem_insert, old, false_or] at member
        simp only [enter, update_of_ne old]
        exact invariant.awake other member
      dsimp only
      rw [next]
      split
      case isTrue =>
        have listening : Accounts ((reserved.enter input).change registry.next
            ({ · with streamListening := true })) := change_accounts entered rfl
        unfold openSubscriptionResponse
        dsimp only
        split
        case isTrue =>
          have ended := streamAbort_ended listening known
          have released := ended.done (by simp [change, enter, next])
          have closed := invariant_of_ended listening (fun other member old => by
            simpa [change, old] using awake other member old) ended released
          refine change_invariant closed.accounts rfl
            (fun other member _ => closed.awake other member) fun member => ?_
          cases released.symm.trans ((closed.accounts.active _).mp member).2
        case isFalse unaborted =>
          refine change_invariant listening rfl (fun other member old => by
            simpa [change, old] using awake other member old) fun _ => ?_
          simp [change, enter, next] at unaborted ⊢
          exact ⟨unaborted, rfl, rfl, rfl, rfl, rfl⟩
      case isFalse =>
        have ended := release_ended entered known
        exact invariant_of_ended entered awake ended (ended.done trivial)

variable {event : SubscriptionEvent}

theorem cancelAuthority_settles {matching : SubscriptionOwner → Bool}
    (invariant : Invariant registry) :
    Invariant (registry.cancelAuthority matching) ∧ ∀ id < registry.next,
      registry.Ends id (.cancelAuthority matching) →
        Settled registry (registry.cancelAuthority matching) id := by
  have known : ∀ id ∈ (registry.active.filter fun id =>
      matching (registry.subscriptions id).owner = true).sort (· ≤ ·),
      id < registry.next := by
    intro id member
    rw [Finset.mem_sort, Finset.mem_filter] at member
    exact ((invariant.accounts.active id).mp member.1).1
  obtain ⟨holds, next, all⟩ := invariant.cancelAll known
  refine ⟨holds, fun id _ ends => ⟨holds, next, all id (.inl ?_)⟩⟩
  rw [Finset.mem_sort, Finset.mem_filter]
  exact ⟨ends.2, ends.1⟩

theorem cancelRequest_settles {key : Text} (invariant : Invariant registry) :
    Invariant (registry.cancelRequest key) ∧ ∀ id < registry.next,
      registry.Ends id (.cancelRequest key) →
        Settled registry (registry.cancelRequest key) id := by
  have indexed : ∀ id, registry.Ends id (.cancelRequest key) →
      registry.cancelByRequestKey key = some id := fun id ends =>
    (invariant.accounts.index key id).mpr ⟨ends.1, ends.2.1,
      (invariant.accounts.active id).mp ends.2.2⟩
  unfold cancelRequest
  split
  case isTrue keyless => exact ⟨invariant, fun id _ ends => absurd keyless ends.1⟩
  case isFalse =>
    split
    case h_1 missing =>
      refine ⟨invariant, fun id _ ends => ?_⟩
      cases missing.symm.trans (indexed id ends)
    case h_2 other found =>
      have known := ((invariant.accounts.index key other).mp found).2.2.1
      refine ⟨(invariant.abort known).invariant, fun id _ ends => ?_⟩
      cases found.symm.trans (indexed id ends)
      exact invariant.abort known

theorem step_settles (invariant : Invariant registry) :
    Invariant (registry.step event) ∧ ∀ id < registry.next,
      registry.Ends id event → Settled registry (registry.step event) id := by
  have one : ∀ other, ∀ after : McpSubscriptionRegistry,
      (other < registry.next → Settled registry after other) →
      Invariant (if other < registry.next then after else registry) ∧
        ∀ id < registry.next, other = id →
          Settled registry (if other < registry.next then after else registry)
            id := by
    intro other after settles
    split
    case isTrue known =>
      refine ⟨(settles known).invariant, fun id _ same => ?_⟩
      exact same ▸ settles known
    case isFalse unknown =>
      exact ⟨invariant, fun id known same => absurd (same ▸ known) unknown⟩
  cases event with
  | opens input =>
    exact ⟨openSubscription_invariant invariant, fun _ _ => False.elim⟩
  | streamCancel other =>
    exact one other _ fun known => invariant.ended known
      (streamCancel_ended invariant.accounts known)
      fun awake => ⟨awake.writable, awake.finalized⟩
  | requestAbort other =>
    exact one other _ fun known => invariant.listener known (·.requestListening)
  | leaseExpired other =>
    exact one other _ fun known => invariant.listener known (·.leaseTimer)
  | cancelRequest key => exact cancelRequest_settles invariant
  | cancelAuthority matching => exact cancelAuthority_settles invariant

theorem accounted_of_invariant (invariant : Invariant registry) :
    Accounted registry := by
  have accounts := invariant.accounts
  refine ⟨accounts, fun all covered => ?_, fun event id known ends => ?_,
    fun input failed => openSubscription_failed invariant failed⟩
  · rw [accounts.count, Finset.card_eq_sum_card_fiberwise covered]
    exact Finset.sum_congr rfl fun account _ => accounts.accounts account
  · exact ((step_settles invariant).2 id known ends).closes known

/-- In every run the counts and the indexes account for the subscriptions. -/
theorem run_accounted (events : List SubscriptionEvent) :
    Accounted (run step {} events) := by
  apply accounted_of_invariant
  apply run_induction _ initial_invariant events
  exact fun _ _ invariant => (step_settles invariant).1

end McpSubscriptionRegistry

end MachineBridge.Mcp
