import MachineBridge.Resources.ElasticRequest
import Mathlib.Tactic.Positivity

/-!
# Admission of fitted requests

Fitting inverts the inequalities of the admission.  What a request adds to the
leases is what exceeds a slack of theirs, and the fitted amounts stay below what
is left together with the part of the request that the slack covers.
-/

namespace MachineBridge.Resources

section Refusal

variable {host : HostSnapshot} {leases : List (Lease ValidRequest)}
  {request : ResourceRequest} {accounting : LeaseAccounting}

/-- The reasons which are not about a reservation or a window of the processors
or of the memory. -/
def otherReasons : List String :=
  ["cpu_request_exceeds_launch_window", "project_resource_busy",
    "host_pressure_red", "disk_reserve_floor", "io_reservation"]

/-- A refusal for the processors or the memory states which limit is exceeded. -/
inductive Exceeds (host : HostSnapshot) (leases : List (Lease ValidRequest))
    (request : ResourceRequest) (accounting : LeaseAccounting) :
    String → Prop where
  | cpuReservation
      (exceeded :
        (admissionLimits host leases request accounting).cpu *
            (admissionLimits host leases request accounting).cpuOvercommit +
          1 / 100 <
        (aggregateResourceLeases leases accounting).amounts .cpu +
          requestedAmounts host leases request accounting .cpu) :
      Exceeds host leases request accounting "cpu_reservation"
  | memoryReservation
      (exceeded :
        (admissionLimits host leases request accounting).memoryMb *
            (admissionLimits host leases request
              accounting).memoryOvercommit + 1 <
        (aggregateResourceLeases leases accounting).amounts .memoryMb +
          requestedAmounts host leases request accounting .memoryMb) :
      Exceeds host leases request accounting "memory_reservation"
  | cpuPressureWindow
      (exceeded :
        (admissionLimits host leases request accounting).cpu + 1 / 4 <
        host.cpuBusyCores.getD 0 +
          unobservedResourceCpu leases accounting host.sampledAtMs +
          requestedAmounts host leases request accounting .cpu) :
      Exceeds host leases request accounting "cpu_pressure_window"

variable {reason : String}

section

variable (exceeds : Exceeds host leases request accounting reason)
include exceeds

theorem Exceeds.cpu_reserved (named : reason = "cpu_reservation") :
    (admissionLimits host leases request accounting).cpu *
    (admissionLimits host leases request accounting).cpuOvercommit + 1 / 100 <
    (aggregateResourceLeases leases accounting).amounts .cpu +
    requestedAmounts host leases request accounting .cpu := by
  cases exceeds with
  | cpuReservation exceeded => exact exceeded
  | memoryReservation | cpuPressureWindow => exact absurd named (by decide)

theorem Exceeds.memory_reserved (named : reason = "memory_reservation") :
    (admissionLimits host leases request accounting).memoryMb *
    (admissionLimits host leases request accounting).memoryOvercommit + 1 <
    (aggregateResourceLeases leases accounting).amounts .memoryMb +
    requestedAmounts host leases request accounting .memoryMb := by
  cases exceeds with
  | cpuReservation => exact absurd named (by decide)
  | memoryReservation exceeded => exact exceeded
  | cpuPressureWindow => exact absurd named (by decide)

theorem Exceeds.cpu_window (named : reason = "cpu_pressure_window") :
    (admissionLimits host leases request accounting).cpu + 1 / 4 <
    host.cpuBusyCores.getD 0 +
    unobservedResourceCpu leases accounting host.sampledAtMs +
    requestedAmounts host leases request accounting .cpu := by
  cases exceeds with
  | cpuReservation | memoryReservation => exact absurd named (by decide)
  | cpuPressureWindow exceeded => exact exceeded

end

theorem refusal_cases (refused : refusal host leases request accounting = some
    reason) : reason ∈ otherReasons ∨ (¬ ((pressureOf host leases
    accounting).state = .red ∧ !diskOnlyCritical host leases request
    accounting) ∧ Exceeds host leases request accounting reason) := by
  unfold refusal at refused
  dsimp only at refused
  split at refused
  case isTrue => left; simp [← Option.some.inj refused, otherReasons]
  case isFalse =>
    split at refused
    case isTrue => left; simp [← Option.some.inj refused, otherReasons]
    case isFalse =>
      split at refused
      case isTrue => left; simp [← Option.some.inj refused, otherReasons]
      case isFalse calm =>
        split at refused
        case isTrue => left; simp [← Option.some.inj refused, otherReasons]
        case isFalse =>
          split at refused
          case isTrue exceeded =>
            rw [← Option.some.inj refused]
            exact .inr ⟨calm, .cpuReservation exceeded⟩
          case isFalse =>
            split at refused
            case isTrue =>
              left
              simp [← Option.some.inj refused, otherReasons]
            case isFalse =>
              split at refused
              case isTrue exceeded =>
                rw [← Option.some.inj refused]
                exact .inr ⟨calm, .memoryReservation exceeded⟩
              case isFalse =>
                split at refused
                case isTrue exceeded =>
                  rw [← Option.some.inj refused]
                  exact .inr ⟨calm, .cpuPressureWindow exceeded⟩
                case isFalse => cases refused

theorem refusal_of_refused (refused : (evaluateResourceAdmission host leases
    request accounting).admitted = false) : refusal host leases request
    accounting = some
    (evaluateResourceAdmission host leases request accounting).reason := by
  unfold evaluateResourceAdmission at refused ⊢
  split at refused
  case isTrue => cases refused
  case isFalse heavy =>
    rw [if_neg heavy]
    split at refused
    case h_1 other known => rw [known]
    case h_2 => cases refused

end Refusal

section Increment

variable {leases : List (Lease ValidRequest)} {accounting : LeaseAccounting}

theorem exists_increment (leases : List (Lease ValidRequest))
    (accounting : LeaseAccounting) (key : ResourceKey) : ∃ slack, 0 ≤ slack ∧
    ∀ request : ResourceRequest, request.heavy = true →
    0 ≤ request.amount key →
    resourceRequestIncrement leases request accounting key =
    max 0 (request.amount key - slack) := by
  obtain ⟨slack, positive, grows⟩ := exists_slack leases accounting key
  refine ⟨slack, positive, ?_⟩
  intro request heavy amount
  have vector : requestVector request key = request.amount key :=
    max_eq_right amount
  change max 0 (_ - _) = _
  rw [grows request heavy, add_sub_cancel_left, vector]
  exact max_eq_right (le_max_left _ _)

theorem covered_eq {slack amount : ℚ} (positive : 0 ≤ slack)
    (weight : 0 ≤ amount) :
    max 0 (amount - max 0 (amount - slack)) = min amount slack := by
  rcases le_total amount slack with below | above
  · rw [max_eq_left (sub_nonpos.mpr below), sub_zero, max_eq_right weight,
      min_eq_left below]
  · rw [max_eq_right (sub_nonneg.mpr above), sub_sub_cancel,
      max_eq_right positive, min_eq_right above]

theorem excess_le {slack amount fitted left : ℚ} (enough : 0 ≤ left)
    (below : fitted ≤ left + min amount slack) :
    max 0 (fitted - slack) ≤ left := by
  have least : min amount slack ≤ slack := min_le_right _ _
  apply max_le enough
  linarith only [below, least]

theorem amounts_nonneg (key : ResourceKey) :
    0 ≤ (aggregateResourceLeases leases accounting).amounts key := by
  have named : Named (leases.map Lease.accounted) := named_accounted
  by_cases forested : Forested (leases.map Lease.accounted) accounting.parents
  · rw [aggregateResourceLeases, amounts_of_forested named forested]
    apply Finset.sum_nonneg
    intro root top
    apply (valueOf_effective named forested.distinct forested.grounded
      key).nonneg
    · intro id member
      exact ownVector_nonneg id key
    · exact Foundation.Forest.roots_subset top
  · rw [aggregateResourceLeases, amounts_of_wild named forested]
    apply List.sum_nonneg
    intro amount member
    obtain ⟨lease, listed, rfl⟩ := List.mem_map.mp member
    split
    case isTrue => exact le_rfl
    case isFalse => exact requestVector_nonneg _ _

end Increment

/-- The elastic requests: those of builds for which no number of jobs is given.
Their processors are their jobs. -/
structure ElasticBuild where
  request : ResourceRequest
  jobs : Nat
  compilerJobs : request.compilerJobs = some jobs
  several : 1 < jobs
  elastic : isElasticCompilerRequest request = true
  heavy : request.heavy = true
  bounded : request.unbounded = false
  build : request.family ≠ "disk-reclaim"
  cpu_le : request.cpu ≤ jobs
  amount_nonneg : ∀ key, 0 ≤ request.amount key

/-- The request was lowered to one job although one job does not fit either. -/
def ForcedToOne (build : ElasticBuild) (pressure : PressureSnapshot) : Prop :=
  hostAvailable build.request pressure < 1 ∨
    reservedAvailable build.request pressure < 1 ∨
    ∃ floor, memoryFloor build.request = some floor ∧
      memoryFits build.request pressure build.jobs floor 1 = false

theorem isDiskReclaimRequest_of_family {request : ResourceRequest}
    (other : request.family ≠ "disk-reclaim") :
    isDiskReclaimRequest request = false := by
  have family : (request.family == "disk-reclaim") = false :=
    beq_eq_false_iff_ne.mpr other
  simp [isDiskReclaimRequest, family]

section Fitting

variable (build : ElasticBuild) (pressure : PressureSnapshot)

def ElasticBuild.lowered (jobs : Nat) : ResourceRequest :=
  { build.request with
    cpu := min (max 0 build.request.cpu) jobs
    memoryMb := elasticMemoryMb build.request build.jobs jobs
      (memoryFloor build.request)
    compilerJobs := some jobs }

theorem fit_cases :
    (fitElasticRequestToPressure build.request (some pressure) = build.request ∧
      (pressure.state = .red ∨
        build.jobs ≤ fittedJobs build.request pressure build.jobs)) ∨
    (pressure.state ≠ .red ∧
      fittedJobs build.request pressure build.jobs < build.jobs ∧
      fitElasticRequestToPressure build.request (some pressure) =
      build.lowered (fittedJobs build.request pressure build.jobs)) := by
  unfold fitElasticRequestToPressure
  rw [build.compilerJobs]
  dsimp only
  rw [build.elastic]
  by_cases red : pressure.state = .red
  · left
    simp [red]
  · rw [if_neg (by simp [red])]
    by_cases enough : build.jobs ≤ fittedJobs build.request pressure build.jobs
    · left
      rw [if_pos enough]
      exact ⟨rfl, .inr enough⟩
    · right
      rw [if_neg enough]
      exact ⟨red, not_le.mp enough, rfl⟩

theorem one_le_processorJobs :
    1 ≤ processorJobs build.request pressure build.jobs := by
  unfold processorJobs
  omega

theorem fittedJobs_le : fittedJobs build.request pressure build.jobs ≤
    processorJobs build.request pressure build.jobs :=
  min_le_left _ _

variable {build pressure}

theorem fitted_of_cases {P : ResourceRequest → Prop} (same : P build.request)
    (fewer : fittedJobs build.request pressure build.jobs < build.jobs →
      P (build.lowered (fittedJobs build.request pressure build.jobs))) :
    P (fitElasticRequestToPressure build.request (some pressure)) := by
  rcases fit_cases build pressure with unchanged | ⟨calm, less, lowered⟩
  · rw [unchanged.1]
    exact same
  · rw [lowered]
    exact fewer less

theorem elasticMemoryMb_le (request : ResourceRequest)
    (compilerJobs jobs : Nat) (floor : Option ℚ) :
    elasticMemoryMb request compilerJobs jobs floor ≤ request.memoryMb := by
  unfold elasticMemoryMb
  split
  case h_1 => exact le_rfl
  case h_2 => exact min_le_left _ _

theorem elasticMemoryMb_nonneg {request : ResourceRequest}
    (positive : 0 ≤ request.memoryMb) (compilerJobs jobs : Nat)
    (floor : Option ℚ) :
    0 ≤ elasticMemoryMb request compilerJobs jobs floor := by
  unfold elasticMemoryMb
  split
  case h_1 => exact positive
  case h_2 =>
    apply le_min positive
    apply le_max_of_le_right
    have share : 0 ≤ request.memoryMb * jobs / compilerJobs := by positivity
    exact_mod_cast Int.ceil_nonneg share

theorem lowered_amount_le (jobs : Nat) (key : ResourceKey) :
    (build.lowered jobs).amount key ≤ build.request.amount key := by
  cases key with
  | cpu =>
    have positive : 0 ≤ build.request.cpu := build.amount_nonneg .cpu
    change min (max 0 build.request.cpu) _ ≤ build.request.cpu
    rw [max_eq_right positive]
    exact min_le_left _ _
  | io => exact le_rfl
  | memoryMb => exact elasticMemoryMb_le build.request build.jobs jobs _
  | diskReserveBytes => exact le_rfl

theorem lowered_amount_nonneg (jobs : Nat) (key : ResourceKey) :
    0 ≤ (build.lowered jobs).amount key := by
  cases key with
  | cpu => exact le_min (le_max_left _ _) (Nat.cast_nonneg jobs)
  | io => exact build.amount_nonneg .io
  | memoryMb =>
    have positive : 0 ≤ build.request.memoryMb := build.amount_nonneg .memoryMb
    exact elasticMemoryMb_nonneg positive build.jobs jobs _
  | diskReserveBytes => exact build.amount_nonneg .diskReserveBytes

theorem fitted_amount_le (key : ResourceKey) :
    (fitElasticRequestToPressure build.request (some pressure)).amount key ≤
    build.request.amount key :=
  fitted_of_cases (P := fun fitted => fitted.amount key ≤ _) le_rfl
    fun _ => lowered_amount_le _ key

theorem one_le_mostJobs (fits : Nat → Bool) (maximum : Nat) :
    1 ≤ mostJobs fits maximum := by
  induction maximum with
  | zero => exact le_rfl
  | succ maximum induction =>
    rw [mostJobs]
    split
    case isTrue => omega
    case isFalse => exact induction

theorem mostJobs_le (fits : Nat → Bool) {maximum : Nat} (some : 1 ≤ maximum) :
    mostJobs fits maximum ≤ maximum := by
  induction maximum with
  | zero => omega
  | succ maximum induction =>
    rw [mostJobs]
    split
    case isTrue => exact le_rfl
    case isFalse =>
      cases maximum with
      | zero => exact le_rfl
      | succ rest => exact (induction (by omega)).trans (Nat.le_succ _)

theorem fits_mostJobs {fits : Nat → Bool} (one : fits 1 = true)
    (maximum : Nat) : fits (mostJobs fits maximum) = true := by
  induction maximum with
  | zero => exact one
  | succ maximum induction =>
    rw [mostJobs]
    split
    case isTrue fitting => exact fitting
    case isFalse => exact induction

section

variable (free : ¬ ForcedToOne build pressure)
include free

theorem processorJobs_le :
    (processorJobs build.request pressure build.jobs : ℤ) ≤ build.jobs ∧
    (processorJobs build.request pressure build.jobs : ℤ) ≤
    hostAvailable build.request pressure ∧
    (processorJobs build.request pressure build.jobs : ℤ) ≤
    reservedAvailable build.request pressure := by
  have host : ¬ hostAvailable build.request pressure < 1 :=
    fun forced => free (.inl forced)
  have reserved : ¬ reservedAvailable build.request pressure < 1 :=
    fun forced => free (.inr (.inl forced))
  have several := build.several
  unfold processorJobs
  omega

theorem memoryFits_fittedJobs {floor : ℚ}
    (declared : memoryFloor build.request = some floor) : memoryFits
    build.request pressure build.jobs floor
    (fittedJobs build.request pressure build.jobs) = true := by
  have one : memoryFits build.request pressure build.jobs floor 1 = true := by
    by_contra small
    rw [Bool.not_eq_true] at small
    exact free (.inr (.inr ⟨floor, declared, small⟩))
  have most := mostJobs_le (memoryFits build.request pressure build.jobs floor)
    (one_le_processorJobs build pressure)
  have fitted : fittedJobs build.request pressure build.jobs = mostJobs
      (memoryFits build.request pressure build.jobs floor)
      (processorJobs build.request pressure build.jobs) := by
    rw [fittedJobs, declared]
    exact min_eq_right most
  rw [fitted]
  exact fits_mostJobs one _

end

theorem elasticMemoryMb_all (floor : ℚ) :
    elasticMemoryMb build.request build.jobs build.jobs (some floor) =
    build.request.memoryMb := by
  have several : (build.jobs : ℚ) ≠ 0 := by
    have positive := build.several
    exact_mod_cast (by omega : build.jobs ≠ 0)
  rw [elasticMemoryMb, mul_div_cancel_right₀ _ several]
  apply min_eq_left
  exact le_max_of_le_right (Int.le_ceil _)

section

variable (free : ¬ ForcedToOne build pressure)
include free

theorem fitted_memory_le (calm : pressure.state ≠ .red) {floor : ℚ}
    (declared : memoryFloor build.request = some floor) :
    (fitElasticRequestToPressure build.request (some pressure)).memoryMb ≤
    availableMemoryMb build.request pressure := by
  have fits := memoryFits_fittedJobs free declared
  rw [memoryFits, decide_eq_true_eq] at fits
  rcases fit_cases build pressure with ⟨same, all⟩ | ⟨_, less, lowered⟩
  · have enough := all.resolve_left calm
    have limit := (processorJobs_le free).1
    have fewer := fittedJobs_le build pressure
    have equal : fittedJobs build.request pressure build.jobs =
        build.jobs := by omega
    rw [equal, elasticMemoryMb_all] at fits
    rw [same]
    exact fits
  · rw [lowered]
    change elasticMemoryMb _ _ _ _ ≤ _
    rw [declared]
    exact fits

theorem fitted_cpu_le (calm : pressure.state ≠ .red) :
    (fitElasticRequestToPressure build.request (some pressure)).cpu ≤
    hostAvailable build.request pressure ∧
    (fitElasticRequestToPressure build.request (some pressure)).cpu ≤
    reservedAvailable build.request pressure := by
  have fewer := fittedJobs_le build pressure
  obtain ⟨limit, host, reserved⟩ := processorJobs_le free
  have jobs : (fitElasticRequestToPressure build.request (some pressure)).cpu ≤
      (processorJobs build.request pressure build.jobs : ℤ) := by
    rcases fit_cases build pressure with ⟨same, all⟩ | ⟨_, less, lowered⟩
    · have enough := all.resolve_left calm
      rw [same]
      calc build.request.cpu ≤ build.jobs := build.cpu_le
        _ ≤ (processorJobs build.request pressure build.jobs : ℤ) := by
          exact_mod_cast enough.trans fewer
    · rw [lowered]
      calc min (max 0 build.request.cpu)
            ((fittedJobs build.request pressure build.jobs : ℕ) : ℚ)
          ≤ (fittedJobs build.request pressure build.jobs : ℕ) :=
            min_le_right _ _
        _ ≤ (processorJobs build.request pressure build.jobs : ℤ) := by
          exact_mod_cast fewer
  constructor
  · exact jobs.trans (by exact_mod_cast host)
  · exact jobs.trans (by exact_mod_cast reserved)

end

end Fitting

section Admission

variable (host : HostSnapshot) (leases : List (Lease ValidRequest))
  (accounting : LeaseAccounting) (build : ElasticBuild)

def ElasticBuild.pressure : PressureSnapshot :=
  resourcePressureSnapshot host leases build.request accounting

def ElasticBuild.fitted : ResourceRequest :=
  fitElasticRequestToPressure build.request
    (some (build.pressure host leases accounting))

def ElasticBuild.RefusedFor (reason : String) : Prop :=
  (evaluateResourceAdmission host leases
      (build.fitted host leases accounting) accounting).admitted = false ∧
    (evaluateResourceAdmission host leases
      (build.fitted host leases accounting) accounting).reason = reason

section

variable (limits : ResourceLimits)

def ReservedCpuExceeded : Prop :=
  limits.cpu * limits.cpuOvercommit + 1 / 100 <
    (aggregateResourceLeases leases accounting).amounts .cpu

def ReservedMemoryExceeded : Prop :=
  limits.memoryMb * limits.memoryOvercommit + 1 <
    (aggregateResourceLeases leases accounting).amounts .memoryMb

/-- The processors are busy beyond the limit without the build. -/
def CpuWindowExceeded : Prop :=
  limits.cpu + 1 / 4 < host.cpuBusyCores.getD 0 +
    unobservedResourceCpu leases accounting host.sampledAtMs

end

variable {host leases accounting build}

theorem fitted_keeps : (build.fitted host leases accounting).heavy = true ∧
    (build.fitted host leases accounting).unbounded = false ∧
    (build.fitted host leases accounting).family = build.request.family ∧
    (build.fitted host leases accounting).priority =
    build.request.priority := by
  apply fitted_of_cases (P := fun fitted => fitted.heavy = true ∧
    fitted.unbounded = false ∧ fitted.family = build.request.family ∧
    fitted.priority = build.request.priority)
  · exact ⟨build.heavy, build.bounded, rfl, rfl⟩
  · intro less
    exact ⟨build.heavy, build.bounded, rfl, rfl⟩

theorem fitted_amount_nonneg (key : ResourceKey) :
    0 ≤ (build.fitted host leases accounting).amount key :=
  fitted_of_cases (P := fun fitted => 0 ≤ fitted.amount key)
    (build.amount_nonneg key) fun _ => lowered_amount_nonneg _ key

theorem fitted_not_reclaim :
    isDiskReclaimRequest (build.fitted host leases accounting) = false := by
  apply isDiskReclaimRequest_of_family
  rw [fitted_keeps.2.2.1]
  exact build.build

theorem fitted_not_critical : diskOnlyCritical host leases
    (build.fitted host leases accounting) accounting = false := by
  rw [diskOnlyCritical, fitted_not_reclaim]
  rfl

theorem admissionLimits_fitted : admissionLimits host leases
    (build.fitted host leases accounting) accounting =
    (build.pressure host leases accounting).limits := by
  unfold admissionLimits
  rw [fitted_not_critical, fitted_keeps.2.2.2]
  rfl

theorem declaredAmounts_fitted (key : ResourceKey) : declaredAmounts host
    leases (build.fitted host leases accounting) accounting key =
    (build.fitted host leases accounting).amount key := by
  have positive : 0 ≤ (build.fitted host leases accounting).amount key :=
    fitted_amount_nonneg key
  cases key with
  | cpu =>
    rw [declaredAmounts, fitted_keeps.2.1]
    exact max_eq_right positive
  | io | memoryMb | diskReserveBytes => exact max_eq_right positive

variable (host leases accounting build) in
/-- The admission charges what exceeds the slack which fitting counted as
covered. -/
theorem exists_requested (key : ResourceKey) : ∃ slack, 0 ≤ slack ∧
    requestedAmounts host leases (build.fitted host leases accounting)
    accounting key =
    max 0 ((build.fitted host leases accounting).amount key - slack) ∧
    coveredAmount build.request (build.pressure host leases accounting) key =
    min (build.request.amount key) slack := by
  obtain ⟨slack, positive, adds⟩ := exists_increment leases accounting key
  refine ⟨slack, positive, ?_, ?_⟩
  · have amounts : (chargedRequest host leases
        (build.fitted host leases accounting) accounting).amount key =
          (build.fitted host leases accounting).amount key := by
      rw [chargedRequest_amount, declaredAmounts_fitted]
    have positive : 0 ≤ (chargedRequest host leases
        (build.fitted host leases accounting) accounting).amount key := by
      rw [amounts]
      exact fitted_amount_nonneg key
    have heavy : (chargedRequest host leases
        (build.fitted host leases accounting) accounting).heavy = true := by
      rw [chargedRequest_heavy, fitted_keeps.1]
    rw [requestedAmounts, adds _ heavy positive, amounts]
  · have requested : (build.pressure host leases accounting).requested =
        some (resourceRequestIncrement leases build.request accounting) := by
      change (if build.request.heavy = true then _ else _) = _
      rw [if_pos build.heavy]
    unfold coveredAmount
    rw [requested]
    dsimp only
    rw [adds build.request build.heavy (build.amount_nonneg key)]
    exact covered_eq positive (build.amount_nonneg key)

theorem exceeds_of_refusedFor {reason : String}
    (refused : build.RefusedFor host leases accounting reason)
    (other : reason ∉ otherReasons) :
    (build.pressure host leases accounting).state ≠ .red ∧ Exceeds host leases
    (build.fitted host leases accounting) accounting reason := by
  obtain ⟨denied, named⟩ := refused
  have known := refusal_of_refused denied
  rw [named] at known
  rcases refusal_cases known with listed | ⟨calm, exceeds⟩
  · exact absurd listed other
  · refine ⟨?_, exceeds⟩
    intro red
    exact calm ⟨red, by rw [fitted_not_critical]; rfl⟩

/-- What fitting promises about the admission of a build. -/
structure FitsAdmission (host : HostSnapshot)
    (leases : List (Lease ValidRequest)) (accounting : LeaseAccounting)
    (build : ElasticBuild) : Prop where
  smaller : ∀ key, (build.fitted host leases accounting).amount key ≤
    build.request.amount key
  fewer : ∃ jobs ≤ build.jobs,
    (build.fitted host leases accounting).compilerJobs = some jobs
  cpuReservation :
    ¬ ForcedToOne build (build.pressure host leases accounting) →
    build.RefusedFor host leases accounting "cpu_reservation" →
      ReservedCpuExceeded leases accounting
        (build.pressure host leases accounting).limits
  cpuPressureWindow :
    ¬ ForcedToOne build (build.pressure host leases accounting) →
    build.RefusedFor host leases accounting "cpu_pressure_window" →
      CpuWindowExceeded host leases accounting
        (build.pressure host leases accounting).limits
  memoryReservation :
    ¬ ForcedToOne build (build.pressure host leases accounting) →
    (memoryFloor build.request).isSome = true →
    build.RefusedFor host leases accounting "memory_reservation" →
      ReservedMemoryExceeded leases accounting
        (build.pressure host leases accounting).limits

theorem fitted_compilerJobs : ∃ jobs ≤ build.jobs,
    (build.fitted host leases accounting).compilerJobs = some jobs := by
  apply fitted_of_cases (P := fun fitted => ∃ jobs ≤ build.jobs,
    fitted.compilerJobs = some jobs)
  · exact ⟨build.jobs, le_rfl, build.compilerJobs⟩
  · intro less
    exact ⟨_, less.le, rfl⟩

variable (free : ¬ ForcedToOne build (build.pressure host leases accounting))
include free

theorem fitted_cpuReservation
    (refused : build.RefusedFor host leases accounting "cpu_reservation") :
    ReservedCpuExceeded leases accounting
    (build.pressure host leases accounting).limits := by
  obtain ⟨calm, exceeds⟩ := exceeds_of_refusedFor refused (by decide)
  have exceeded := exceeds.cpu_reserved rfl
  obtain ⟨slack, positive, adds, covers⟩ :=
    exists_requested host leases accounting build .cpu
  have fits := (fitted_cpu_le free calm).2.trans (Int.floor_le _)
  have used := le_max_right 0
    ((aggregateResourceLeases leases accounting).amounts .cpu)
  rw [covers] at fits
  rw [admissionLimits_fitted, adds] at exceeded
  by_contra within
  have enough := sub_nonneg.mpr (not_lt.mp within)
  have below := excess_le enough (fits.trans (by
    apply add_le_add_left
    apply sub_le_sub_left
    exact used))
  exact absurd exceeded (not_lt.mpr (le_sub_iff_add_le'.mp below))

theorem fitted_cpuPressureWindow
    (refused : build.RefusedFor host leases accounting "cpu_pressure_window") :
    CpuWindowExceeded host leases accounting
    (build.pressure host leases accounting).limits := by
  obtain ⟨calm, exceeds⟩ := exceeds_of_refusedFor refused (by decide)
  have exceeded := exceeds.cpu_window rfl
  obtain ⟨slack, positive, adds, covers⟩ :=
    exists_requested host leases accounting build .cpu
  have fits := (fitted_cpu_le free calm).1.trans (Int.floor_le _)
  have unobserved := le_max_right 0
    (unobservedResourceCpu leases accounting host.sampledAtMs)
  rw [covers] at fits
  rw [admissionLimits_fitted, adds] at exceeded
  by_contra within
  have enough := sub_nonneg.mpr (not_lt.mp within)
  have below := excess_le enough (fits.trans (by
    rw [← sub_sub]
    apply add_le_add_left
    apply sub_le_sub_left
    exact unobserved))
  exact absurd exceeded (not_lt.mpr (le_sub_iff_add_le'.mp below))

theorem fitted_memoryReservation
    (declared : (memoryFloor build.request).isSome = true)
    (refused : build.RefusedFor host leases accounting "memory_reservation") :
    ReservedMemoryExceeded leases accounting
    (build.pressure host leases accounting).limits := by
  obtain ⟨floor, declared⟩ := Option.isSome_iff_exists.mp declared
  obtain ⟨calm, exceeds⟩ := exceeds_of_refusedFor refused (by decide)
  have exceeded := exceeds.memory_reserved rfl
  obtain ⟨slack, positive, adds, covers⟩ :=
    exists_requested host leases accounting build .memoryMb
  have fits := fitted_memory_le free calm declared
  have used :
      max 0 ((aggregateResourceLeases leases accounting).amounts .memoryMb) =
      (aggregateResourceLeases leases accounting).amounts .memoryMb :=
    max_eq_right (amounts_nonneg .memoryMb)
  rw [admissionLimits_fitted, adds] at exceeded
  by_contra within
  have enough := sub_nonneg.mpr (not_lt.mp within)
  have covered : 0 ≤ min (build.request.amount .memoryMb) slack :=
    le_min (build.amount_nonneg .memoryMb) positive
  unfold availableMemoryMb at fits
  rw [covers] at fits
  have below := excess_le enough (fits.trans (by
    apply max_le (add_nonneg enough covered)
    apply add_le_add_left
    apply sub_le_sub_left
    exact used.ge))
  exact absurd exceeded (not_lt.mpr (le_sub_iff_add_le'.mp below))

end Admission

theorem fitElasticRequest_fitsAdmission (host : HostSnapshot)
    (leases : List (Lease ValidRequest)) (accounting : LeaseAccounting)
    (build : ElasticBuild) : FitsAdmission host leases accounting build where
  smaller := fitted_amount_le
  fewer := fitted_compilerJobs
  cpuReservation := fitted_cpuReservation
  cpuPressureWindow := fitted_cpuPressureWindow
  memoryReservation := fitted_memoryReservation

/-- A host with eight processors, of which `busy` are in use. -/
def eightCores (busy : ℚ) : HostSnapshot where
  cpuCores := some 8
  totalMemoryMb := some 16384
  cpuBusyCores := some busy

def leaseRequest (cpu memoryMb : ℚ) : ResourceRequest :=
  { uniformRequest 0 with
    cpu := cpu
    memoryMb := memoryMb }

theorem leaseRequest_valid {cpu memoryMb : ℚ} (some : 0 ≤ cpu)
    (few : cpu ≤ 1024) (memory : 0 ≤ memoryMb)
    (small : memoryMb ≤ 16 * 1024 * 1024) :
    validateResourceRequest (leaseRequest cpu memoryMb) = true := by
  have family : familyMatches "command" = true := by decide
  simp [validateResourceRequest, leaseRequest, uniformRequest, finiteRange,
    validCompilerJobs, family, some, few, memory, small]

def memoryLease : Lease ValidRequest :=
  exampleLease 1 ⟨leaseRequest 1 13000, leaseRequest_valid (by norm_num)
    (by norm_num) (by norm_num) (by norm_num)⟩

def parentLease : Lease ValidRequest :=
  exampleLease 1 ⟨leaseRequest 3 3072, leaseRequest_valid (by norm_num)
    (by norm_num) (by norm_num) (by norm_num)⟩

/-- A build with three jobs which does not tell how little memory it needs. -/
def cargoRequest : ResourceRequest :=
  { uniformRequest 0 with
    family := "cargo"
    cpu := 3
    memoryMb := 3072
    compilerJobs := some 3
    elastic := some none }

def cargoBuild : ElasticBuild where
  request := cargoRequest
  jobs := 3
  compilerJobs := rfl
  several := by decide
  elastic := rfl
  heavy := rfl
  bounded := rfl
  build := by decide
  cpu_le := by norm_num [cargoRequest]
  amount_nonneg := by
    intro key
    cases key <;>
      norm_num [ResourceRequest.amount, cargoRequest, uniformRequest]

/-- The nearest lease of the requester is the lease `id`. -/
def nestedAccounting (id : Nat) : LeaseAccounting where
  parentByLeaseId := fun _ => none
  parentLeaseId := some id
  ancestorLeaseIds := [id]

theorem cargoBuild_free {pressure : PressureSnapshot}
    (enough : 1 ≤ hostAvailable cargoRequest pressure ∧
      1 ≤ reservedAvailable cargoRequest pressure) :
    ¬ ForcedToOne cargoBuild pressure := by
  rintro (host | reserved | ⟨floor, declared, _⟩)
  · exact absurd enough.1 (not_le.mpr host)
  · exact absurd enough.2 (not_le.mpr reserved)
  · cases declared

/-- Where the memory is reserved, a build without a floor is not lowered and
refused; where the host is busy, a build which its parent covers is lowered and
refused. -/
theorem fittedBuilds_refused : (¬ ForcedToOne cargoBuild (cargoBuild.pressure
    (eightCores 0) [memoryLease] .empty) ∧ cargoBuild.RefusedFor (eightCores 0)
    [memoryLease] .empty "memory_reservation") ∧ ¬ ForcedToOne cargoBuild
    (cargoBuild.pressure (eightCores 7) [parentLease] (nestedAccounting 1)) ∧
    cargoBuild.RefusedFor (eightCores 7) [parentLease] (nestedAccounting 1)
    "cpu_pressure_window" := by
  refine ⟨⟨cargoBuild_free ?_, ?_⟩, cargoBuild_free ?_, ?_⟩
  · decide +kernel
  · unfold ElasticBuild.RefusedFor
    decide +kernel
  · decide +kernel
  · unfold ElasticBuild.RefusedFor
    decide +kernel

section Admitted

variable {host : HostSnapshot} {leases : List (Lease ValidRequest)}
  {request : ResourceRequest} {accounting : LeaseAccounting}

theorem not_refused (heavy : request.heavy = true) (admitted :
    (evaluateResourceAdmission host leases request accounting).admitted =
    true) : refusal host leases request accounting = none := by
  unfold evaluateResourceAdmission at admitted
  rw [heavy] at admitted
  cases known : refusal host leases request accounting with
  | none => rfl
  | some reason => simp [known] at admitted

theorem passed_of_none {check : Prop} [Decidable check] {reason : String}
    {rest : Option String}
    (none : (if check then some reason else rest) = none) :
    ¬ check ∧ rest = Option.none := by
  split at none
  case isTrue => cases none
  case isFalse passed => exact ⟨passed, none⟩

variable (host leases request accounting) in
def amountsWith : Amounts :=
  (aggregateWithRequest leases (chargedRequest host leases request accounting)
    accounting).amounts

variable (host leases request accounting) in
/-- With the request the leases stay within the limits for the state of the
host: their usage, the project and the free disk. -/
structure WithinLimits (limits : ResourceLimits) : Prop where
  cpu : amountsWith host leases request accounting .cpu ≤
    limits.cpu * limits.cpuOvercommit + 1 / 100
  io : amountsWith host leases request accounting .io ≤
    limits.io * limits.ioOvercommit + 1 / 100
  memory : amountsWith host leases request accounting .memoryMb ≤
    limits.memoryMb * limits.memoryOvercommit + 1
  disk : isDiskReclaimRequest request = false → diskReservationFits host
    ((aggregateResourceLeases leases accounting).amounts .diskReserveBytes)
    (amountsWith host leases request accounting .diskReserveBytes -
      (aggregateResourceLeases leases accounting).amounts .diskReserveBytes) =
    true
  project : ∀ lease ∈ leases, lease.request.val.contentionKey ≠ none →
    lease.request.val.contentionKey = request.contentionKey →
    lease.leaseId ∈ accounting.ancestorLeaseIds
  least : ∀ lease ∈ leases, ∀ key, lease.request.val.amount key ≤
    amountsWith host leases request accounting key

theorem withinLimits_of_admitted (heavy : request.heavy = true) (admitted :
    (evaluateResourceAdmission host leases request accounting).admitted =
    true) : WithinLimits host leases request accounting
      (admissionLimits host leases request accounting) := by
  have charged : ∀ key, (aggregateResourceLeases leases
      accounting).amounts key + requestedAmounts host leases request
      accounting key = amountsWith host leases request accounting key := by
    intro key
    have grows := sub_nonneg.mpr (withRequest_bounds leases accounting
      (chargedRequest host leases request accounting) key).1
    change _ + max 0 (_ - _) = _
    rw [max_eq_right grows, add_sub_cancel, amountsWith]
  have none := not_refused heavy admitted
  unfold refusal at none
  obtain ⟨-, none⟩ := passed_of_none none
  obtain ⟨busy, none⟩ := passed_of_none none
  obtain ⟨-, none⟩ := passed_of_none none
  obtain ⟨disk, none⟩ := passed_of_none none
  obtain ⟨cpu, none⟩ := passed_of_none none
  obtain ⟨io, none⟩ := passed_of_none none
  obtain ⟨memory, -⟩ := passed_of_none none
  refine ⟨?_, ?_, ?_, ?_, ?_, ?_⟩
  · rw [← charged]
    exact not_lt.mp cpu
  · rw [← charged]
    exact not_lt.mp io
  · rw [← charged]
    exact not_lt.mp memory
  · intro other
    rw [← charged, add_sub_cancel_left]
    simpa [other] using disk
  · intro lease member keyed same
    obtain ⟨key, found⟩ := Option.ne_none_iff_exists'.mp keyed
    by_contra foreign
    apply busy
    simp only [contends, ← same, found, Option.any_some, List.any_eq_true]
    exact ⟨lease, member, by simp [found, foreign]⟩
  · intro lease member key
    rw [← requestVector_valid]
    exact (le_amounts named_accounted heavy_accounted
      (List.mem_map_of_mem member) key).trans
      (withRequest_bounds leases accounting _ key).1

end Admitted

end MachineBridge.Resources
