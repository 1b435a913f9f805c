import MachineBridge.Resources.ElasticAdmission

/-!
# The policy of the coordinator

Requests are recorded without their marks, and fitted to the host before each
attempt.  Neither changes what a valid request is, nor its priority.  The
judgement of requests may be replaced by another one.
-/

namespace MachineBridge.Resources

/-- The mark of an elastic request is not recorded. -/
def normalizeResourceRequest (request : ResourceRequest) : ResourceRequest :=
  { request with elastic := none }

theorem normalizeResourceRequest_valid (request : ValidRequest) :
    validateResourceRequest (normalizeResourceRequest request.val) = true :=
  request.property

section

variable (request : ResourceRequest)

theorem one_le_fittedJobs (pressure : PressureSnapshot) (compilerJobs : Nat) :
    1 ≤ fittedJobs request pressure compilerJobs := by
  have processors : 1 ≤ processorJobs request pressure compilerJobs := by
    unfold processorJobs
    omega
  apply le_min processors
  unfold elasticMemoryJobLimit
  split
  case h_1 => exact processors
  case h_2 => exact one_le_mostJobs _ _

theorem fitElasticRequest_cases (pressure : Option PressureSnapshot) :
    fitElasticRequestToPressure request pressure = request ∨
      ∃ compilerJobs jobs, request.compilerJobs = some compilerJobs ∧
        1 ≤ jobs ∧ jobs < compilerJobs ∧
        fitElasticRequestToPressure request pressure =
          { request with
            cpu := min (max 0 request.cpu) jobs
            memoryMb := elasticMemoryMb request compilerJobs jobs
              (memoryFloor request)
            compilerJobs := some jobs } := by
  unfold fitElasticRequestToPressure
  split
  case h_2 => exact .inl rfl
  case h_1 _ _ compilerJobs pressure several =>
    split
    case isTrue => exact .inl rfl
    case isFalse =>
      dsimp only
      split
      case isTrue => exact .inl rfl
      case isFalse fewer =>
        exact .inr ⟨compilerJobs, fittedJobs request pressure compilerJobs,
          several, one_le_fittedJobs request pressure compilerJobs,
          not_le.mp fewer, rfl⟩

theorem fitElasticRequest_priority (pressure : Option PressureSnapshot) :
    (fitElasticRequestToPressure request pressure).priority =
    request.priority := by
  rcases fitElasticRequest_cases request pressure with
    same | ⟨compilerJobs, jobs, _, _, _, lowered⟩
  · rw [same]
  · rw [lowered]

end

theorem fitElasticRequest_valid (request : ValidRequest)
    (pressure : Option PressureSnapshot) : validateResourceRequest
    (fitElasticRequestToPressure request.val pressure) = true := by
  have valid := request.property
  rcases fitElasticRequest_cases request.val pressure with
    same | ⟨compilerJobs, jobs, several, some, fewer, lowered⟩
  · rw [same]
    exact valid
  · rw [lowered]
    simp only [validateResourceRequest, finiteRange, validCompilerJobs,
      Bool.and_eq_true, decide_eq_true_eq, several] at valid ⊢
    obtain ⟨⟨⟨⟨⟨named, processors⟩, disks⟩, memory⟩, floor⟩, count⟩ := valid
    have least : (0 : ℚ) ≤ min (max 0 request.val.cpu) jobs :=
      le_min (le_max_left _ _) (Nat.cast_nonneg jobs)
    have most : min (max 0 request.val.cpu) (jobs : ℚ) ≤ 1024 := by
      rw [max_eq_right processors.1]
      exact (min_le_left _ _).trans processors.2
    exact ⟨⟨⟨⟨⟨named, least, most⟩, disks⟩, elasticMemoryMb_nonneg memory.1 _ _
      _, (elasticMemoryMb_le _ _ _ _).trans memory.2⟩, floor⟩, some, by omega⟩

/-- A sample of the host, and the parents of its processes if they were
listed. -/
structure AdmissionHost where
  snapshot : HostSnapshot
  processParents : Option (Nat → Option Nat)

def resourceCoordinatorAccounting (host : AdmissionHost)
    (leases : List (Lease ValidRequest)) (requesterPid : Nat) :
    LeaseAccounting :=
  resourceLeaseAccountingContext leases host.processParents requesterPid

def fitRequest (host : AdmissionHost) (leases : List (Lease ValidRequest))
    (request : ValidRequest) (_now requesterPid : Nat) : ValidRequest :=
  ⟨fitElasticRequestToPressure request.val
      (some (resourcePressureSnapshot host.snapshot leases request.val
        (resourceCoordinatorAccounting host leases requesterPid))),
    fitElasticRequest_valid request _⟩

/-- Whether a waiter has to be recorded anew. -/
def requestDiffers (request fitted : ValidRequest) : Bool :=
  decide (request.val.cpu ≠ fitted.val.cpu ∨
    request.val.memoryMb ≠ fitted.val.memoryMb ∨
    request.val.compilerJobs ≠ fitted.val.compilerJobs)

abbrev Evaluator (Reservation : Type) :=
  AdmissionHost → List (Lease ValidRequest) → ValidRequest → Nat → Nat →
    AdmissionDecision Reservation

def resourceAdmissionPolicy {Reservation : Type}
    (evaluate : Evaluator Reservation)
    (reserve : ValidRequest → Reservation → ValidRequest) :
    AdmissionPolicy AdmissionHost ValidRequest Reservation where
  heavy request := request.val.heavy
  priority request := request.val.priority
  normalize request :=
    ⟨normalizeResourceRequest request.val,
      normalizeResourceRequest_valid request⟩
  reserve := reserve
  differs := requestDiffers
  fit := fitRequest
  evaluate := evaluate

/-- The judgement which is used where no other one is given. -/
def evaluateAdmission : Evaluator Amounts :=
  fun host leases request _now requesterPid =>
    evaluateResourceAdmission host.snapshot leases request.val
      (resourceCoordinatorAccounting host leases requesterPid)

/-- Neither fitting nor recording a request changes its priority. -/
structure KeepsPriority {Host Request Reservation : Type}
    (policy : AdmissionPolicy Host Request Reservation) : Prop where
  fit : ∀ host leases request now requesterPid,
    policy.priority (policy.fit host leases request now requesterPid) =
      policy.priority request
  normalize : ∀ request,
    policy.priority (policy.normalize request) = policy.priority request

theorem resourceAdmissionPolicy_keepsPriority {Reservation : Type}
    (evaluate : Evaluator Reservation)
    (reserve : ValidRequest → Reservation → ValidRequest) :
    KeepsPriority (resourceAdmissionPolicy evaluate reserve) := by
  constructor
  · intro host leases request now requesterPid
    exact fitElasticRequest_priority request.val _
  · intro request
    rfl

end MachineBridge.Resources
