import MachineBridge.Activation.Runtime
import Mathlib.Data.List.Infix

/-!
# What the events of an activation show

The events are read from the latest to the first.  They show which locks are
held, which candidates are running, whether a service was started next to a
running candidate, and which service was last verified.
-/

namespace MachineBridge.Activation

open List

/-- An acquisition without a later request to release the lock. -/
def unreleased (lock : LockName) : List ActivationEvent → Bool
  | [] => false
  | .acquired other :: events => other == lock || unreleased lock events
  | .released other _ :: events => other != lock && unreleased lock events
  | _ :: events => unreleased lock events

/-- An acquisition without a later release which returned. -/
def held (lock : LockName) : List ActivationEvent → Bool
  | [] => false
  | .acquired other :: events => other == lock || held lock events
  | .released other true :: events => other != lock && held lock events
  | _ :: events => held lock events

/-- A candidate which was created and has not been stopped since. -/
def candidateRunning (candidate : Candidate) : List ActivationEvent → Bool
  | [] => false
  | .created other :: events =>
    other == candidate || candidateRunning candidate events
  | .candidateStopped other true :: events =>
    other != candidate && candidateRunning candidate events
  | _ :: events => candidateRunning candidate events

/-- Whenever a service was started, no candidate was running. -/
def QuietStarts : List ActivationEvent → Prop
  | [] => True
  | event :: events => QuietStarts events ∧
      (event = .started →
        ∀ candidate, candidateRunning candidate events = false)

namespace ActivationEvent

def changesService : ActivationEvent → Bool
  | .started => true
  | .stopped _ => true
  | _ => false

/-- Neither a lock nor a candidate is concerned. -/
def aboutService : ActivationEvent → Bool
  | .acquired _ => false
  | .released _ _ => false
  | .created _ => false
  | .candidateStopped _ _ => false
  | _ => true

end ActivationEvent

/-- The expected version was seen to have converged, and no service was started
or stopped since. -/
def CandidateVerified (expectedVersion : String)
    (events : List ActivationEvent) : Prop :=
  ∃ later earlier daemon worker,
    events = later ++ .checked worker :: .inspected daemon :: earlier ∧
      convergedDaemon expectedVersion daemon = true ∧
      convergedWorker expectedVersion worker = true ∧
      ∀ event ∈ later, event.changesService = false

/-- The previous service was seen to be ready, and no service was started or
stopped since. -/
def PreviousVerified (events : List ActivationEvent) : Prop :=
  ∃ later earlier daemon ownership,
    events = later ++ .inspectedPrevious daemon :: earlier ∧
      .ownership ownership ∈ earlier ∧
      restoredServiceReady daemon ownership.previousRuntime.version = true ∧
      ∀ event ∈ later, event.changesService = false

/-- The owner was committed, and an installation had carried its transaction. -/
def OwnerCommitted (owner : String) (events : List ActivationEvent) : Prop :=
  .committed owner ∈ events ∧ ∃ answer, .installed answer ∈ events ∧
    answer.transaction = .pending owner

/-- Before it started any service, the activation asked to stop the verified
service, or a stop said that a service has to be restored. -/
def PreviousStopped (events : List ActivationEvent) : Prop :=
  ∃ later earlier answer, events = later ++ .stopped answer :: earlier ∧
    .started ∉ earlier ∧
    ((∃ ownership, .ownership ownership ∈ earlier ∧
        ownership.previousActive = true) ∨
      ∃ stop, answer = some stop ∧ validateProviderStop stop = .ok true)

section OneMore

variable {event : ActivationEvent} {events : List ActivationEvent}

variable {lock : LockName}

theorem held_of_unreleased (asked : unreleased lock events = true) :
    held lock events = true := by
  induction events with
  | nil => exact asked
  | cons event events induction =>
    cases event with
    | acquired other =>
      simp only [unreleased, held, Bool.or_eq_true] at asked ⊢
      exact asked.imp_right induction
    | released other returned =>
      simp only [unreleased, Bool.and_eq_true] at asked
      cases returned with
      | true =>
        simp only [held, Bool.and_eq_true]
        exact ⟨asked.1, induction asked.2⟩
      | false => exact induction asked.2
    | _ => exact induction asked

theorem held_aboutService (service : event.aboutService = true) :
    held lock (event :: events) = held lock events := by
  cases event <;> simp_all [held, ActivationEvent.aboutService]

theorem unreleased_aboutService (service : event.aboutService = true) :
    unreleased lock (event :: events) = unreleased lock events := by
  cases event <;> simp_all [unreleased, ActivationEvent.aboutService]

theorem candidateRunning_aboutService {candidate : Candidate}
    (service : event.aboutService = true) :
    candidateRunning candidate (event :: events) =
    candidateRunning candidate events := by
  cases event <;> simp_all [candidateRunning, ActivationEvent.aboutService]

theorem QuietStarts.cons (quiet : QuietStarts events)
    (different : event ≠ .started) : QuietStarts (event :: events) :=
  ⟨quiet, fun same => absurd same different⟩

theorem CandidateVerified.cons {version : String}
    (verified : CandidateVerified version events)
    (unchanged : event.changesService = false) :
    CandidateVerified version (event :: events) := by
  obtain ⟨later, earlier, daemon, worker, rfl, ready, right, kept⟩ := verified
  refine ⟨event :: later, earlier, daemon, worker, rfl, ready, right, ?_⟩
  intro other member
  rcases mem_cons.mp member with rfl | member
  · exact unchanged
  · exact kept other member

theorem PreviousVerified.cons (verified : PreviousVerified events)
    (unchanged : event.changesService = false) :
    PreviousVerified (event :: events) := by
  obtain ⟨later, earlier, daemon, ownership, rfl, inspected, ready, kept⟩ :=
    verified
  refine ⟨event :: later, earlier, daemon, ownership, rfl, inspected, ready,
    ?_⟩
  intro other member
  rcases mem_cons.mp member with rfl | member
  · exact unchanged
  · exact kept other member

theorem OwnerCommitted.cons {owner : String}
    (committed : OwnerCommitted owner events) :
    OwnerCommitted owner (event :: events) := by
  obtain ⟨done, answer, installed, pending⟩ := committed
  exact ⟨mem_cons_of_mem _ done, answer, mem_cons_of_mem _ installed, pending⟩

theorem PreviousStopped.mem (stopped : PreviousStopped events) :
    ∃ answer, .stopped answer ∈ events := by
  obtain ⟨later, earlier, answer, rfl, -⟩ := stopped
  exact ⟨answer, by simp⟩

theorem PreviousStopped.of_cons (stopped : PreviousStopped (event :: events))
    (other : ∀ answer, event = .stopped answer → .started ∈ events) :
    PreviousStopped events := by
  obtain ⟨later, earlier, answer, split, unstarted, reason⟩ := stopped
  cases later with
  | nil =>
    obtain ⟨rfl, rfl⟩ := List.cons.inj split
    exact absurd (other answer rfl) unstarted
  | cons first later =>
    obtain ⟨-, rfl⟩ := List.cons.inj split
    exact ⟨later, earlier, answer, rfl, unstarted, reason⟩

end OneMore

end MachineBridge.Activation
