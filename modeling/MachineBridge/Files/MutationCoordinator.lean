import Mathlib.Data.List.Dedup
import Mathlib.Data.List.Sort
import MachineBridge.Foundation.Record
import MachineBridge.Foundation.Run

/-!
# Coordination of file mutations

A mutation reserves every path it names before it waits.  A reservation chains
onto the tail of its key, so the requests on one key form a queue, and a
request runs when the tails it found have resolved.  Promises resolve in
separate steps, in any order which their chains admit.
-/

namespace MachineBridge.Files

open Foundation List

variable {Path Key : Type} [LinearOrder Key]

/-- A key, and the request whose tail was the last one on it. -/
structure MutationReservation (Key : Type) where
  key : Key
  current : Option Nat

inductive MutationPhase where
  | waiting
  | running
  | finished
deriving DecidableEq

structure MutationRequest (Key : Type) where
  reservations : List (MutationReservation Key)
  phase : MutationPhase := .waiting

namespace MutationRequest

def keys (request : MutationRequest Key) : List Key :=
  request.reservations.map (·.key)

end MutationRequest

/-- Requests are numbered as they come.  A tail is named by its request and its
key; `queues` holds the last one of each key, `settled` the resolved ones. -/
structure FileMutationCoordinator (Key : Type) where
  requests : List (MutationRequest Key) := []
  queues : Record Key Nat := .empty
  settled : List (Nat × Key) := []

inductive MutationEvent (Path Key : Type) where
  | withPaths (paths : List Path)
  | settle (request : Nat) (key : Key)
  | start (request : Nat)
  /-- The callback has returned or thrown. -/
  | finish (request : Nat) (failed : Bool)

namespace FileMutationCoordinator

section

variable (coordinator : FileMutationCoordinator Key)

def resolved (reservation : MutationReservation Key) : Bool :=
  match reservation.current with
  | none => true
  | some request => coordinator.settled.contains (request, reservation.key)

def setPhase (request : Nat) (phase : MutationPhase) :
    FileMutationCoordinator Key :=
  { coordinator with
    requests := coordinator.requests.modify request ({ · with phase }) }

/-- The keys of a request, each once and in order; none when the list is empty
or a path is not absolute. -/
def requestKeys (pathKey : Path → Option Key) (paths : List Path) :
    Option (List Key) :=
  if paths.isEmpty then none
  else (paths.mapM pathKey).map fun keys => keys.dedup.insertionSort (· ≤ ·)

def withPaths (keys : List Key) : FileMutationCoordinator Key :=
  let id := coordinator.requests.length
  let reservations := keys.map fun key =>
    { key, current := coordinator.queues.get? key }
  { coordinator with
    requests := coordinator.requests ++ [{ reservations }]
    queues := keys.foldl (fun queues key => queues.set key id)
      coordinator.queues }

/-- A tail resolves when its gate has been released and the tail before it has
resolved. -/
def settle (id : Nat) (key : Key) : FileMutationCoordinator Key :=
  match coordinator.requests[id]? with
  | none => coordinator
  | some request =>
    if request.phase = .finished && request.reservations.any
        (fun reservation => reservation.key == key &&
          coordinator.resolved reservation) then
      { coordinator with settled := (id, key) :: coordinator.settled }
    else coordinator

def start (id : Nat) : FileMutationCoordinator Key :=
  match coordinator.requests[id]? with
  | none => coordinator
  | some request =>
    if request.phase = .waiting &&
        request.reservations.all coordinator.resolved then
      coordinator.setPhase id .running
    else coordinator

/-- Release every gate, and forget the keys whose last tail is the request's
own. -/
def finish (id : Nat) : FileMutationCoordinator Key :=
  match coordinator.requests[id]? with
  | none => coordinator
  | some request =>
    if request.phase = .running then
      { coordinator.setPhase id .finished with
        queues := request.keys.foldl (fun queues key =>
          if queues.get? key = some id then queues.delete key else queues)
          coordinator.queues }
    else coordinator

end

def step (pathKey : Path → Option Key)
    (coordinator : FileMutationCoordinator Key) :
    MutationEvent Path Key → FileMutationCoordinator Key
  | .withPaths paths =>
    match requestKeys pathKey paths with
    | none => coordinator
    | some keys => coordinator.withPaths keys
  | .settle id key => coordinator.settle id key
  | .start id => coordinator.start id
  | .finish id _ => coordinator.finish id

theorem get?_foldl_set (keys : List Key) (queues : Record Key Nat) (id : Nat)
    (key : Key) :
    (keys.foldl (fun queues key => queues.set key id) queues).get? key =
    if key ∈ keys then some id else queues.get? key := by
  induction keys generalizing queues with
  | nil => simp
  | cons head keys induction =>
    rw [foldl_cons, induction, Record.get?_set]
    by_cases later : key ∈ keys
    · simp [later]
    · by_cases same : key = head <;> simp [later, same]

theorem get?_foldl_delete (keys : List Key) (queues : Record Key Nat)
    (id : Nat) (key : Key) : (keys.foldl (fun queues key => if queues.get? key
    = some id then queues.delete key else queues) queues).get? key = if key ∈
    keys ∧ queues.get? key = some id then none else queues.get? key := by
  induction keys generalizing queues with
  | nil => simp
  | cons head keys induction =>
    rw [foldl_cons, induction]
    by_cases same : key = head
    · subst same
      by_cases own : queues.get? key = some id <;> simp [own]
    · have kept : (if queues.get? head = some id then queues.delete head
          else queues).get? key = queues.get? key := by
        split
        case isTrue => simp [same]
        case isFalse => rfl
      simp [kept, same]

section

variable (coordinator : FileMutationCoordinator Key)

/-- The request with a number has a reservation. -/
def Holds (id : Nat) (reservation : MutationReservation Key) : Prop :=
  ∃ request : MutationRequest Key,
    coordinator.requests[id]? = some request ∧
      reservation ∈ request.reservations

def Reserves (id : Nat) (key : Key) : Prop :=
  ∃ reservation, coordinator.Holds id reservation ∧ reservation.key = key

def InPhase (id : Nat) (phase : MutationPhase) : Prop :=
  ∃ request : MutationRequest Key,
    coordinator.requests[id]? = some request ∧ request.phase = phase

end

section Effects

variable {coordinator : FileMutationCoordinator Key}
  {id other : Nat} {key : Key} {phase first second : MutationPhase}
  {reservation : MutationReservation Key}

theorem InPhase.unique (one : coordinator.InPhase id first)
    (two : coordinator.InPhase id second) : first = second := by
  obtain ⟨request, found, same⟩ := one
  obtain ⟨again, stored, equal⟩ := two
  rw [found] at stored
  cases stored
  rw [← same, equal]

theorem Holds.lt (holds : coordinator.Holds id reservation) :
    id < coordinator.requests.length := by
  obtain ⟨request, found, -⟩ := holds
  exact (List.getElem?_eq_some_iff.mp found).1

theorem Reserves.lt (reserves : coordinator.Reserves id key) :
    id < coordinator.requests.length := by
  obtain ⟨reservation, holds, -⟩ := reserves
  exact holds.lt

theorem InPhase.lt (inPhase : coordinator.InPhase id phase) :
    id < coordinator.requests.length := by
  obtain ⟨request, found, -⟩ := inPhase
  exact (List.getElem?_eq_some_iff.mp found).1

@[simp] theorem queues_setPhase :
    (coordinator.setPhase id phase).queues = coordinator.queues := rfl

@[simp] theorem settled_setPhase :
    (coordinator.setPhase id phase).settled = coordinator.settled := rfl

@[simp] theorem holds_setPhase :
    (coordinator.setPhase other phase).Holds id reservation ↔
    coordinator.Holds id reservation := by
  simp only [Holds, setPhase, getElem?_modify]
  by_cases same : other = id
  · cases found : coordinator.requests[id]? <;> simp [same]
  · simp [same]

theorem inPhase_setPhase_self (exists_ : coordinator.InPhase id first) :
    (coordinator.setPhase id phase).InPhase id second ↔ second = phase := by
  obtain ⟨request, found, -⟩ := exists_
  simp [InPhase, setPhase, found, eq_comm]

theorem inPhase_setPhase_of_ne (different : other ≠ id) :
    (coordinator.setPhase id phase).InPhase other first ↔
    coordinator.InPhase other first := by
  simp [InPhase, setPhase, Ne.symm different]

theorem holds_withPaths {keys : List Key} :
    (coordinator.withPaths keys).Holds id reservation ↔
    coordinator.Holds id reservation ∨ (id = coordinator.requests.length ∧
      reservation.key ∈ keys ∧
      reservation.current = coordinator.queues.get? reservation.key) := by
  constructor
  · intro holds
    obtain ⟨request, found, member⟩ := holds
    by_cases earlier : id < coordinator.requests.length
    · rw [withPaths, getElem?_append_left earlier] at found
      exact .inl ⟨request, found, member⟩
    · have bound := (List.getElem?_eq_some_iff.mp found).1
      simp only [withPaths, length_append, length_singleton] at bound
      have last : id = coordinator.requests.length := by omega
      subst last
      rw [withPaths, getElem?_concat_length] at found
      cases found
      obtain ⟨key, listed, same⟩ := List.mem_map.mp member
      cases same
      exact .inr ⟨rfl, listed, rfl⟩
  · intro holds
    rcases holds with holds | ⟨last, listed, current⟩
    · obtain ⟨request, found, member⟩ := holds
      refine ⟨request, ?_, member⟩
      have earlier := (List.getElem?_eq_some_iff.mp found).1
      rw [withPaths, getElem?_append_left earlier]
      exact found
    · subst last
      refine ⟨_, getElem?_concat_length, ?_⟩
      refine List.mem_map.mpr ⟨reservation.key, listed, ?_⟩
      rw [← current]

theorem inPhase_withPaths {keys : List Key} :
    (coordinator.withPaths keys).InPhase id phase ↔
    coordinator.InPhase id phase ∨
    (id = coordinator.requests.length ∧ phase = .waiting) := by
  constructor
  · intro inPhase
    obtain ⟨request, found, same⟩ := inPhase
    by_cases earlier : id < coordinator.requests.length
    · rw [withPaths, getElem?_append_left earlier] at found
      exact .inl ⟨request, found, same⟩
    · have bound := (List.getElem?_eq_some_iff.mp found).1
      simp only [withPaths, length_append, length_singleton] at bound
      have last : id = coordinator.requests.length := by omega
      subst last
      rw [withPaths, getElem?_concat_length] at found
      cases found
      exact .inr ⟨rfl, same.symm⟩
  · intro inPhase
    rcases inPhase with inPhase | ⟨last, same⟩
    · obtain ⟨request, found, same⟩ := inPhase
      refine ⟨request, ?_, same⟩
      have earlier := (List.getElem?_eq_some_iff.mp found).1
      rw [withPaths, getElem?_append_left earlier]
      exact found
    · subst last
      exact ⟨_, getElem?_concat_length, same.symm⟩

theorem reserves_withPaths {keys : List Key} :
    (coordinator.withPaths keys).Reserves id key ↔
    coordinator.Reserves id key ∨
    (id = coordinator.requests.length ∧ key ∈ keys) := by
  constructor
  · intro reserves
    obtain ⟨reservation, holds, same⟩ := reserves
    subst same
    rcases holds_withPaths.mp holds with old | ⟨last, listed, -⟩
    · exact .inl ⟨reservation, old, rfl⟩
    · exact .inr ⟨last, listed⟩
  · intro reserves
    rcases reserves with ⟨reservation, holds, same⟩ | ⟨last, listed⟩
    · exact ⟨reservation, holds_withPaths.mpr (.inl holds), same⟩
    · exact ⟨⟨key, coordinator.queues.get? key⟩,
        holds_withPaths.mpr (.inr ⟨last, listed, rfl⟩), rfl⟩

theorem get?_withPaths {keys : List Key} :
    (coordinator.withPaths keys).queues.get? key = if key ∈ keys then some
    coordinator.requests.length else coordinator.queues.get? key :=
  get?_foldl_set keys coordinator.queues coordinator.requests.length key

end Effects

structure Sound (coordinator : FileMutationCoordinator Key) : Prop where
  /-- A reservation found the tail of the request before it on its key. -/
  chained : ∀ id reservation before, coordinator.Holds id reservation →
    reservation.current = some before →
      before < id ∧ coordinator.Reserves before reservation.key ∧
      ∀ other, before < other → other < id →
        ¬ coordinator.Reserves other reservation.key
  unchained : ∀ id reservation other, coordinator.Holds id reservation →
    reservation.current = none → other < id →
      coordinator.Reserves other reservation.key →
        coordinator.InPhase other .finished
  /-- A key in the map belongs to its last request, which has not finished. -/
  queued : ∀ key id, coordinator.queues.get? key = some id →
    coordinator.Reserves id key ∧ ¬ coordinator.InPhase id .finished ∧
      ∀ other, id < other → ¬ coordinator.Reserves other key
  unqueued : ∀ key id, coordinator.queues.get? key = none →
    coordinator.Reserves id key → coordinator.InPhase id .finished
  released : ∀ id key, (id, key) ∈ coordinator.settled →
    coordinator.InPhase id .finished
  /-- A request has started only after the earlier ones on its keys. -/
  ordered : ∀ id other key, coordinator.Reserves id key →
    ¬ coordinator.InPhase id .waiting → other < id →
      coordinator.Reserves other key → coordinator.InPhase other .finished

theorem sound_initial : Sound ({} : FileMutationCoordinator Key) where
  chained := by
    intro id reservation before holds
    obtain ⟨request, found, -⟩ := holds
    cases found
  unchained := by
    intro id reservation other holds
    obtain ⟨request, found, -⟩ := holds
    cases found
  queued := by
    intro key id found
    cases found
  unqueued := by
    intro key id found reserves
    obtain ⟨reservation, ⟨request, stored, -⟩, -⟩ := reserves
    cases stored
  released := by
    intro id key member
    cases member
  ordered := by
    intro id other key reserves
    obtain ⟨reservation, ⟨request, stored, -⟩, -⟩ := reserves
    cases stored

variable {coordinator : FileMutationCoordinator Key} {id other : Nat}
  {reservation : MutationReservation Key}

theorem reserves_setPhase {key : Key} {phase : MutationPhase} :
    (coordinator.setPhase other phase).Reserves id key ↔
    coordinator.Reserves id key := by
  simp [Reserves]

section

variable (sound : Sound coordinator)
include sound

theorem sound_withPaths (keys : List Key) :
    Sound (coordinator.withPaths keys) where
  chained := by
    intro id reservation before holds current
    rcases holds_withPaths.mp holds with old | ⟨last, -, found⟩
    · obtain ⟨earlier, reserves, between⟩ :=
        sound.chained id reservation before old current
      refine ⟨earlier, reserves_withPaths.mpr (.inl reserves), ?_⟩
      intro other above below new
      have bound := old.lt
      rcases reserves_withPaths.mp new with older | ⟨same, -⟩
      · exact between other above below older
      · omega
    · rw [found] at current
      obtain ⟨reserves, -, latest⟩ := sound.queued _ _ current
      have bound := reserves.lt
      refine ⟨by omega, reserves_withPaths.mpr (.inl reserves), ?_⟩
      intro other above below new
      rcases reserves_withPaths.mp new with older | ⟨same, -⟩
      · exact latest other above older
      · omega
  unchained := by
    intro id reservation other holds current earlier reserves
    have old : coordinator.Reserves other reservation.key := by
      rcases reserves_withPaths.mp reserves with old | ⟨same, -⟩
      · exact old
      · have bound := holds.lt
        simp only [withPaths, length_append, length_singleton] at bound
        omega
    apply inPhase_withPaths.mpr
    apply Or.inl
    rcases holds_withPaths.mp holds with before | ⟨-, -, found⟩
    · exact sound.unchained id reservation other before current earlier old
    · rw [found] at current
      exact sound.unqueued _ _ current old
  queued := by
    intro key id found
    rw [get?_withPaths] at found
    split at found
    case isTrue listed =>
      cases found
      refine ⟨reserves_withPaths.mpr (.inr ⟨rfl, listed⟩), ?_, ?_⟩
      · intro finished
        rcases inPhase_withPaths.mp finished with old | ⟨-, waiting⟩
        · exact absurd old.lt (by omega)
        · cases waiting
      · intro other above reserves
        rcases reserves_withPaths.mp reserves with old | ⟨same, -⟩
        · exact absurd old.lt (by omega)
        · omega
    case isFalse unlisted =>
      obtain ⟨reserves, unfinished, latest⟩ := sound.queued key id found
      have bound := reserves.lt
      refine ⟨reserves_withPaths.mpr (.inl reserves), ?_, ?_⟩
      · intro finished
        rcases inPhase_withPaths.mp finished with old | ⟨-, waiting⟩
        · exact unfinished old
        · cases waiting
      · intro other above new
        rcases reserves_withPaths.mp new with old | ⟨-, listed⟩
        · exact latest other above old
        · exact unlisted listed
  unqueued := by
    intro key id found reserves
    rw [get?_withPaths] at found
    split at found
    case isTrue => cases found
    case isFalse unlisted =>
      apply inPhase_withPaths.mpr
      apply Or.inl
      rcases reserves_withPaths.mp reserves with old | ⟨-, listed⟩
      · exact sound.unqueued key id found old
      · exact absurd listed unlisted
  released := by
    intro id key member
    exact inPhase_withPaths.mpr (.inl (sound.released id key member))
  ordered := by
    intro id other key reserves started earlier before
    have old : coordinator.Reserves id key := by
      rcases reserves_withPaths.mp reserves with old | ⟨last, -⟩
      · exact old
      · exact absurd (inPhase_withPaths.mpr (.inr ⟨last, rfl⟩)) started
    have bound := old.lt
    have older : coordinator.Reserves other key := by
      rcases reserves_withPaths.mp before with older | ⟨last, -⟩
      · exact older
      · omega
    apply inPhase_withPaths.mpr
    apply Or.inl
    refine sound.ordered id other key old ?_ earlier older
    intro waiting
    exact started (inPhase_withPaths.mpr (.inl waiting))

theorem finished_of_settled {key : Key}
    (settled : (id, key) ∈ coordinator.settled)
    (reserves : coordinator.Reserves id key) (earlier : other ≤ id)
    (before : coordinator.Reserves other key) :
    coordinator.InPhase other .finished := by
  have finished := sound.released id key settled
  rcases Nat.lt_or_eq_of_le earlier with less | same
  · refine sound.ordered id other key reserves ?_ less before
    intro waiting
    cases finished.unique waiting
  · rw [same]
    exact finished

theorem sound_settle (id : Nat) (key : Key) :
    Sound (coordinator.settle id key) := by
  simp only [settle]
  split
  case h_1 => exact sound
  case h_2 request found =>
    split
    case isFalse => exact sound
    case isTrue ready =>
      simp only [Bool.and_eq_true, decide_eq_true_eq] at ready
      exact
        { chained := sound.chained
          __ := sound
          released := by
            intro other otherKey member
            rcases mem_cons.mp member with same | old
            · cases same
              exact ⟨request, found, ready.1⟩
            · exact sound.released other otherKey old
          ordered := sound.ordered }

theorem finished_of_resolved (holds : coordinator.Holds id reservation)
    (resolved : coordinator.resolved reservation = true) (earlier : other < id)
    (reserves : coordinator.Reserves other reservation.key) :
    coordinator.InPhase other .finished := by
  cases current : reservation.current with
  | none =>
    exact sound.unchained id reservation other holds current earlier reserves
  | some before =>
    obtain ⟨-, previous, between⟩ :=
      sound.chained id reservation before holds current
    have settled : (before, reservation.key) ∈ coordinator.settled := by
      simpa [FileMutationCoordinator.resolved, current] using resolved
    refine finished_of_settled sound settled previous ?_ reserves
    apply Nat.not_lt.mp
    intro above
    exact between other above earlier reserves

theorem sound_start (id : Nat) : Sound (coordinator.start id) := by
  simp only [start]
  split
  case h_1 => exact sound
  case h_2 request found =>
    split
    case isFalse => exact sound
    case isTrue ready =>
      simp only [Bool.and_eq_true, decide_eq_true_eq, all_eq_true] at ready
      obtain ⟨waiting, resolved⟩ := ready
      have present : coordinator.InPhase id .waiting :=
        ⟨request, found, waiting⟩
      have finished : ∀ other,
          (coordinator.setPhase id .running).InPhase other .finished ↔
          coordinator.InPhase other .finished := by
        intro other
        by_cases same : other = id
        · subst same
          rw [inPhase_setPhase_self present]
          constructor
          · intro impossible
            cases impossible
          · intro done
            cases done.unique present
        · exact inPhase_setPhase_of_ne same
      exact
        { chained := by
            simpa only [holds_setPhase, reserves_setPhase] using
              sound.chained
          unchained := by
            simpa only [holds_setPhase, reserves_setPhase, finished] using
              sound.unchained
          queued := by
            simpa only [queues_setPhase, reserves_setPhase, finished] using
              sound.queued
          unqueued := by
            simpa only [queues_setPhase, reserves_setPhase, finished] using
              sound.unqueued
          released := by
            simpa only [settled_setPhase, finished] using sound.released
          ordered := by
            intro other before key reserves started earlier previous
            rw [reserves_setPhase] at reserves previous
            rw [finished]
            by_cases same : other = id
            · subst same
              obtain ⟨reservation, holds, equal⟩ := reserves
              subst equal
              obtain ⟨again, stored, member⟩ := holds
              rw [found] at stored
              cases stored
              exact finished_of_resolved sound ⟨request, found, member⟩
                (resolved reservation member) earlier previous
            · rw [inPhase_setPhase_of_ne same] at started
              exact sound.ordered other before key reserves started earlier
                previous }

theorem sound_finish (id : Nat) : Sound (coordinator.finish id) := by
  simp only [finish]
  split
  case h_1 => exact sound
  case h_2 request found =>
    split
    case isFalse => exact sound
    case isTrue running =>
      have present : coordinator.InPhase id .running :=
        ⟨request, found, running⟩
      have own : ∀ key, key ∈ request.keys ↔ coordinator.Reserves id key := by
        intro key
        constructor
        · intro member
          obtain ⟨reservation, listed, same⟩ := List.mem_map.mp member
          exact ⟨reservation, ⟨request, found, listed⟩, same⟩
        · intro reserves
          obtain ⟨reservation, ⟨again, stored, listed⟩, same⟩ := reserves
          rw [found] at stored
          cases stored
          exact List.mem_map.mpr ⟨reservation, listed, same⟩
      have finished : ∀ other,
          (coordinator.setPhase id .finished).InPhase other .finished ↔
          other = id ∨ coordinator.InPhase other .finished := by
        intro other
        by_cases same : other = id
        · subst same
          simp [inPhase_setPhase_self present]
        · rw [inPhase_setPhase_of_ne same]
          simp [same]
      have queues : ∀ key, (request.keys.foldl (fun queues key =>
          if queues.get? key = some id then queues.delete key else queues)
          coordinator.queues).get? key =
            if coordinator.queues.get? key = some id then none
            else coordinator.queues.get? key := by
        intro key
        rw [get?_foldl_delete]
        by_cases same : coordinator.queues.get? key = some id
        · have listed := (own key).mpr (sound.queued key id same).1
          simp [same, listed]
        · simp [same]
      exact
        { chained := by
            intro other reservation before holds current
            obtain ⟨earlier, reserves, between⟩ := sound.chained other
              reservation before (holds_setPhase.mp holds) current
            refine ⟨earlier, reserves_setPhase.mpr reserves, ?_⟩
            intro later above below again
            exact between later above below (reserves_setPhase.mp again)
          unchained := by
            intro other reservation before holds current earlier reserves
            exact (finished before).mpr (.inr (sound.unchained other
              reservation before (holds_setPhase.mp holds) current earlier
              (reserves_setPhase.mp reserves)))
          queued := by
            intro key other stored
            rw [queues] at stored
            split at stored
            case isTrue => cases stored
            case isFalse different =>
              obtain ⟨reserves, unfinished, latest⟩ :=
                sound.queued key other stored
              refine ⟨reserves_setPhase.mpr reserves, ?_, ?_⟩
              · intro done
                rcases (finished other).mp done with same | old
                · rw [same] at stored
                  exact different stored
                · exact unfinished old
              · intro later above again
                exact latest later above (reserves_setPhase.mp again)
          unqueued := by
            intro key other absent reserves
            rw [queues] at absent
            apply (finished other).mpr
            replace reserves : coordinator.Reserves other key :=
              reserves_setPhase.mp reserves
            split at absent
            case isTrue last =>
              obtain ⟨holds, -, latest⟩ := sound.queued key id last
              by_cases same : other = id
              · exact .inl same
              · apply Or.inr
                refine sound.ordered id other key holds ?_ ?_ reserves
                · intro waiting
                  cases present.unique waiting
                · apply Nat.lt_of_le_of_ne _ same
                  apply Nat.not_lt.mp
                  intro above
                  exact latest other above reserves
            case isFalse => exact .inr (sound.unqueued key other absent
              reserves)
          released := by
            intro other key member
            exact (finished other).mpr (.inr (sound.released other key
              member))
          ordered := by
            intro other before key reserves started earlier previous
            apply (finished before).mpr
            apply Or.inr
            refine sound.ordered other before key
              (reserves_setPhase.mp reserves) ?_ earlier
              (reserves_setPhase.mp previous)
            intro waiting
            apply started
            by_cases same : other = id
            · subst same
              cases present.unique waiting
            · exact (inPhase_setPhase_of_ne same).mpr waiting }

end

section

variable (pathKey : Path → Option Key)

theorem sound_step (coordinator : FileMutationCoordinator Key)
    (event : MutationEvent Path Key) (sound : Sound coordinator) :
    Sound (step pathKey coordinator event) := by
  cases event with
  | withPaths paths =>
    simp only [step]
    split
    case h_1 => exact sound
    case h_2 keys _ => exact sound_withPaths sound keys
  | settle id key => exact sound_settle sound id key
  | start id => exact sound_start sound id
  | finish id failed => exact sound_finish sound id

theorem sound_run (events : List (MutationEvent Path Key)) :
    Sound (run (step pathKey) {} events) :=
  run_induction (sound_step pathKey) sound_initial events

end

/-- A waiting request waits for the tail of another one. -/
def WaitsOn (coordinator : FileMutationCoordinator Key) (id before : Nat) :
    Prop :=
  coordinator.InPhase id .waiting ∧ ∃ reservation,
    coordinator.Holds id reservation ∧ reservation.current = some before ∧
      coordinator.resolved reservation = false

/-- Reached by resolutions of tails only. -/
structure Settles (pathKey : Path → Option Key)
    (before after : FileMutationCoordinator Key) : Prop where
  reached : ∃ events : List (MutationEvent Path Key),
    run (step pathKey) before events = after
  requests : after.requests = before.requests
  settled : ∀ tail ∈ before.settled, tail ∈ after.settled

namespace Settles

variable {pathKey : Path → Option Key}
  {first second third : FileMutationCoordinator Key}

theorem refl (coordinator : FileMutationCoordinator Key) :
    Settles pathKey coordinator coordinator where
  reached := ⟨[], rfl⟩
  requests := rfl
  settled := fun _ member => member

theorem trans (one : Settles pathKey first second)
    (two : Settles pathKey second third) : Settles pathKey first third where
  reached := by
    obtain ⟨before, same⟩ := one.reached
    obtain ⟨after, equal⟩ := two.reached
    refine ⟨before ++ after, ?_⟩
    rw [run_append, same, equal]
  requests := two.requests.trans one.requests
  settled := fun tail member => two.settled tail (one.settled tail member)

section

variable (settles : Settles pathKey first second)
include settles

theorem holds_iff {id : Nat} {reservation : MutationReservation Key} :
    second.Holds id reservation ↔ first.Holds id reservation := by
  simp only [Holds, settles.requests]

theorem inPhase_iff {id : Nat} {phase : MutationPhase} :
    second.InPhase id phase ↔ first.InPhase id phase := by
  simp only [InPhase, settles.requests]

end

theorem resolved (settles : Settles pathKey first second)
    {reservation : MutationReservation Key}
    (already : first.resolved reservation = true) :
    second.resolved reservation = true := by
  cases current : reservation.current with
  | none => simp [FileMutationCoordinator.resolved, current]
  | some before =>
    have settled : (before, reservation.key) ∈ first.settled := by
      simpa [FileMutationCoordinator.resolved, current] using already
    simpa [FileMutationCoordinator.resolved, current] using
      settles.settled _ settled

end Settles

section

variable (pathKey : Path → Option Key)

theorem settles_own (holds : coordinator.Holds id reservation)
    (finished : coordinator.InPhase id .finished)
    (resolved : coordinator.resolved reservation = true) : ∃ after,
    Settles pathKey coordinator after ∧
    (id, reservation.key) ∈ after.settled := by
  obtain ⟨request, found, member⟩ := holds
  obtain ⟨again, stored, phase⟩ := finished
  rw [found] at stored
  cases stored
  have ready : (decide (request.phase = .finished) &&
      request.reservations.any (fun other => other.key == reservation.key &&
        coordinator.resolved other)) = true := by
    simp only [Bool.and_eq_true, decide_eq_true_eq, any_eq_true]
    exact ⟨phase, reservation, member, by simp, resolved⟩
  have settled : coordinator.settle id reservation.key =
      { coordinator with
        settled := (id, reservation.key) :: coordinator.settled } := by
    simp only [settle, found, ready, ↓reduceIte]
  refine ⟨coordinator.settle id reservation.key, ⟨⟨[.settle id
    reservation.key], rfl⟩, ?_, ?_⟩, ?_⟩
  · rw [settled]
  · intro tail old
    rw [settled]
    exact mem_cons_of_mem _ old
  · rw [settled]
    exact mem_cons_self

section

variable (sound : Sound coordinator)
include sound

theorem settles_reservation
    (holds : coordinator.Holds id reservation) (finished : ∀ other < id,
      coordinator.Reserves other reservation.key →
      coordinator.InPhase other .finished) : ∃ after,
    Settles pathKey coordinator after ∧ after.resolved reservation = true := by
  induction id using Nat.strong_induction_on generalizing reservation with
  | _ id induction =>
    cases current : reservation.current with
    | none =>
      exact ⟨coordinator, .refl coordinator, by simp [resolved, current]⟩
    | some before =>
      obtain ⟨earlier, previous, -⟩ :=
        sound.chained id reservation before holds current
      have done := finished before earlier previous
      obtain ⟨prior, held, same⟩ := previous
      have rest : ∀ other < before, coordinator.Reserves other prior.key →
          coordinator.InPhase other .finished := by
        intro other less reserves
        rw [same] at reserves
        exact finished other (Nat.lt_trans less earlier) reserves
      obtain ⟨middle, settles, ready⟩ :=
        induction before earlier held rest
      obtain ⟨after, settlesOwn, settled⟩ := settles_own pathKey
        (settles.holds_iff.mpr held) (settles.inPhase_iff.mpr done) ready
      refine ⟨after, settles.trans settlesOwn, ?_⟩
      rw [same] at settled
      simpa [resolved, current] using settled

theorem settles_reservations (id : Nat)
    (reservations : List (MutationReservation Key))
    (holds : ∀ reservation ∈ reservations, coordinator.Holds id reservation)
    (finished : ∀ reservation ∈ reservations, ∀ other < id,
      coordinator.Reserves other reservation.key →
      coordinator.InPhase other .finished) : ∃ after,
    Settles pathKey coordinator after ∧ ∀ reservation ∈ reservations,
    after.resolved reservation = true := by
  induction reservations with
  | nil =>
    refine ⟨coordinator, .refl coordinator, ?_⟩
    intro reservation member
    cases member
  | cons head rest induction =>
    obtain ⟨middle, settles, ready⟩ := induction
      (fun reservation member => holds reservation (mem_cons_of_mem _ member))
      (fun reservation member =>
        finished reservation (mem_cons_of_mem _ member))
    have soundMiddle : Sound middle := by
      obtain ⟨events, same⟩ := settles.reached
      rw [← same]
      exact run_induction (sound_step pathKey) sound events
    have before : ∀ other < id, middle.Reserves other head.key →
        middle.InPhase other .finished := by
      intro other less reserves
      apply settles.inPhase_iff.mpr
      apply finished head mem_cons_self other less
      obtain ⟨reservation, held, same⟩ := reserves
      exact ⟨reservation, settles.holds_iff.mp held, same⟩
    obtain ⟨after, later, first⟩ := settles_reservation pathKey soundMiddle
      (settles.holds_iff.mpr (holds head mem_cons_self)) before
    refine ⟨after, settles.trans later, ?_⟩
    intro reservation member
    rcases mem_cons.mp member with same | old
    · rw [same]
      exact first
    · exact later.resolved (ready reservation old)

theorem runnable_of_finished
    (waiting : coordinator.InPhase id .waiting) (finished : ∀ other < id,
      ∀ key, coordinator.Reserves id key → coordinator.Reserves other key →
      coordinator.InPhase other .finished) :
    ∃ events : List (MutationEvent Path Key),
    (run (step pathKey) coordinator events).InPhase id .running := by
  obtain ⟨request, found, phase⟩ := waiting
  obtain ⟨after, settles, ready⟩ := settles_reservations pathKey sound
    id request.reservations
    (fun reservation member => ⟨request, found, member⟩)
    (by
      intro reservation member other less reserves
      exact finished other less reservation.key
        ⟨reservation, ⟨request, found, member⟩, rfl⟩ reserves)
  obtain ⟨events, same⟩ := settles.reached
  refine ⟨events ++ [.start id], ?_⟩
  have stored : after.requests[id]? = some request := by
    rw [settles.requests]
    exact found
  have started : after.start id = after.setPhase id .running := by
    have all : request.reservations.all after.resolved = true :=
      all_eq_true.mpr ready
    simp only [start, stored, phase, all, decide_true, Bool.and_self,
      ↓reduceIte]
  rw [run_append, same, run_cons, run_nil]
  have present : after.InPhase id .waiting := ⟨request, stored, phase⟩
  rw [step, started]
  exact (inPhase_setPhase_self present).mpr rfl

end

end

theorem waitsOn_lt (sound : Sound coordinator) {before : Nat}
    (waits : Relation.TransGen coordinator.WaitsOn id before) :
    before < id := by
  have one : ∀ first second, coordinator.WaitsOn first second →
      second < first := by
    intro first second direct
    obtain ⟨-, reservation, holds, current, -⟩ := direct
    exact (sound.chained first reservation second holds current).1
  induction waits with
  | single direct => exact one _ _ direct
  | tail _ direct induction => exact Nat.lt_trans (one _ _ direct) induction

/-- Coordination in every state of every run: callbacks which share a key do
not overlap and run in the order of their requests, no request waits for
itself through others, a request whose predecessors have finished can run, and
the map holds the keys of the unfinished requests. -/
theorem run_coordinates (pathKey : Path → Option Key)
    (events : List (MutationEvent Path Key)) :
    let coordinator := run (step pathKey) {} events
    (∀ id other key, coordinator.InPhase id .running →
      coordinator.InPhase other .running → coordinator.Reserves id key →
        coordinator.Reserves other key → id = other) ∧
    (∀ id other key, other < id → coordinator.Reserves id key →
      coordinator.Reserves other key → ¬ coordinator.InPhase id .waiting →
        coordinator.InPhase other .finished) ∧
    (∀ id, ¬ Relation.TransGen coordinator.WaitsOn id id) ∧
    (∀ id, coordinator.InPhase id .waiting →
      (∀ other < id, ∀ key, coordinator.Reserves id key →
        coordinator.Reserves other key → coordinator.InPhase other .finished) →
      ∃ later : List (MutationEvent Path Key),
        (run (step pathKey) coordinator later).InPhase id .running) ∧
    ∀ key, key ∈ coordinator.queues.keys ↔
      ∃ id, coordinator.Reserves id key ∧
        ¬ coordinator.InPhase id .finished := by
  intro coordinator
  have sound : Sound coordinator := sound_run pathKey events
  have order : ∀ id other key, other < id → coordinator.Reserves id key →
      coordinator.Reserves other key → ¬ coordinator.InPhase id .waiting →
      coordinator.InPhase other .finished := by
    intro id other key earlier reserves before started
    exact sound.ordered id other key reserves started earlier before
  refine ⟨?_, order, ?_, ?_, ?_⟩
  · intro id other key running again reserves before
    rcases Nat.lt_trichotomy id other with less | same | more
    · have done := order other id key less before reserves (by
        intro waiting
        cases waiting.unique again)
      cases done.unique running
    · exact same
    · have done := order id other key more reserves before (by
        intro waiting
        cases waiting.unique running)
      cases done.unique again
  · intro id cycle
    exact absurd (waitsOn_lt sound cycle) (Nat.lt_irrefl id)
  · intro id waiting finished
    exact runnable_of_finished pathKey sound waiting finished
  · intro key
    constructor
    · intro member
      obtain ⟨id, stored⟩ := Record.mem_keys.mp member
      obtain ⟨reserves, unfinished, -⟩ :=
        sound.queued key id (Record.get?_eq_some.mpr stored)
      exact ⟨id, reserves, unfinished⟩
    · intro reserved
      obtain ⟨id, reserves, unfinished⟩ := reserved
      cases found : coordinator.queues.get? key with
      | none => exact absurd (sound.unqueued key id found reserves) unfinished
      | some last =>
        exact Record.mem_keys.mpr ⟨last, Record.get?_eq_some.mp found⟩

/-- Two requests on one path and a third on another: the second waits, the
third runs beside the first. -/
example :
    let events : List (MutationEvent Nat Nat) :=
      [.withPaths [1, 2, 1], .withPaths [2], .withPaths [3], .start 0,
        .start 1, .start 2]
    ((run (step fun path : Nat => some path) {} events).requests.map
      (·.phase)) = [.running, .waiting, .running] := by
  decide

end FileMutationCoordinator

end MachineBridge.Files
