import MachineBridge.Resources.WaiterRun

/-!
# Fairness among waiters

The order of waiters is strict and total, the selection follows it, and a waiter
which is protected is not overtaken by those which come later, as long as it is
admissible or blocked by leases only.  A waiter which the load of the host keeps
back may be overtaken.
-/

namespace MachineBridge.Resources

open Foundation LeaseWorld

variable {Host Request Reservation : Type}

/-- Waiters are in a strict order, total for different identifiers. -/
structure OrdersWaiters (policy : AdmissionPolicy Host Request Reservation)
    (now : Nat) : Prop where
  irrefl : ∀ waiter, ¬ RanksAhead policy now waiter waiter
  trans : ∀ first second third, RanksAhead policy now first second →
    RanksAhead policy now second third → RanksAhead policy now first third
  total : ∀ left right, left.waiterId ≠ right.waiterId →
    (RanksAhead policy now left right ∧
        ¬ RanksAhead policy now right left) ∨
      (RanksAhead policy now right left ∧
        ¬ RanksAhead policy now left right)

theorem ordersWaiters (policy : AdmissionPolicy Host Request Reservation)
    (now : Nat) : OrdersWaiters policy now := by
  refine ⟨ranksAhead_irrefl, ?_, ?_⟩
  · intro first second third one two
    exact one.trans two
  · intro left right other
    exact ranksAhead_total other

/-- What is selected of a queue, and why there may be nothing. -/
structure SelectsInOrder (policy : AdmissionPolicy Host Request Reservation)
    (now : Nat) (waiters : List (Waiter Request))
    (leases : List (Lease Request)) (host : Host) : Prop where
  selected : ∀ waiter,
    selectedResourceWaiter policy now waiters leases host = some waiter →
    SelectedFrom policy now waiters leases host waiter
  none : selectedResourceWaiter policy now waiters leases host = none →
    NoneSelected policy now waiters leases host

section

variable (policy : AdmissionPolicy Host Request Reservation)

def coordinatorRun (started : Nat) (events : List (LeaseEvent Host Request)) :
    LeaseWorld Host Request :=
  run (step policy) (boot started) events

theorem coordinatorRun_append (started : Nat)
    (before after : List (LeaseEvent Host Request)) :
    coordinatorRun policy started (before ++ after) =
    run (step policy) (coordinatorRun policy started before) after :=
  run_append _ _ before after

end

/-- Waiters are ordered, and selected in this order.  In every run in which the
clock does not go back after a waiter is protected, that waiter stays protected
until it leaves, and no later one is ahead of it. -/
theorem resourceWaiters_fair (evaluate : Evaluator Reservation)
    (reserve : ValidRequest → Reservation → ValidRequest) : (∀ now,
    OrdersWaiters (resourceAdmissionPolicy evaluate reserve) now) ∧ (∀ now
    waiters leases host, SelectsInOrder (resourceAdmissionPolicy evaluate
    reserve) now waiters leases host) ∧ ∀ (started : Nat) (before after : List
    (LeaseEvent AdmissionHost ValidRequest)) (waiter : Waiter ValidRequest),
    (coordinatorRun (resourceAdmissionPolicy evaluate reserve) started
    before).waiters.get? waiter.waiterId = some waiter →
    resourceWaiterProtected (resourceAdmissionPolicy evaluate reserve)
    (coordinatorRun (resourceAdmissionPolicy evaluate reserve) started
    before).clock waiter = true → Meets (step (resourceAdmissionPolicy evaluate
    reserve)) (fun world event => world.clockPasses event = true)
    (coordinatorRun (resourceAdmissionPolicy evaluate reserve) started before)
    after → Unpostponed (resourceAdmissionPolicy evaluate reserve)
    (coordinatorRun (resourceAdmissionPolicy evaluate reserve) started
    before).issued waiter (coordinatorRun (resourceAdmissionPolicy evaluate
    reserve) started (before ++ after)) := by
  refine ⟨ordersWaiters _, ?_, ?_⟩
  · intro now waiters leases host
    exact ⟨fun _ => selected_spec, none_spec⟩
  · intro started before after waiter recorded guarded meets
    have keeps := resourceAdmissionPolicy_keepsPriority evaluate reserve
    have coherent := run_coherent keeps started before
    have known : (coordinatorRun (resourceAdmissionPolicy evaluate reserve)
        started before).Mentions waiter := .inl ⟨waiter.waiterId, recorded⟩
    have used : waiter.waiterId < _ := coherent.issued waiter known
    have since := run_since keeps used (coherent.since known) meets
    rw [coordinatorRun_append]
    exact since.unpostponed guarded

/-- The amounts of a decision in place of those of the request; a lease whose
request is not valid could not be read. -/
def reserveAmounts (request : ValidRequest) (amounts : Amounts) :
    ValidRequest :=
  if valid : validateResourceRequest (request.val.withAmounts amounts) = true
  then ⟨request.val.withAmounts amounts, valid⟩
  else request

def coordinatorPolicy : AdmissionPolicy AdmissionHost ValidRequest Amounts :=
  resourceAdmissionPolicy evaluateAdmission reserveAmounts

def cpuRequest (cpu : ℚ) (some : 0 ≤ cpu) (few : cpu ≤ 1024) : ValidRequest :=
  ⟨leaseRequest cpu 0, leaseRequest_valid some few le_rfl (by norm_num)⟩

def largeRequest : ValidRequest :=
  cpuRequest 6 (by norm_num) (by norm_num)

def smallRequest : ValidRequest :=
  cpuRequest 4 (by norm_num) (by norm_num)

def longWait : List (LeaseEvent AdmissionHost ValidRequest) :=
  [.acquire 0 0 largeRequest 0 true, .time 120000]

/-- Another one comes, when the first one is protected. -/
theorem longWait_unpostponed :
    Unpostponed coordinatorPolicy
      (coordinatorRun coordinatorPolicy 0 longWait).issued
      { waiterId := 0
        token := 1
        enqueuedAt := 0
        expiresAt := 10000
        owner := ⟨1, 0⟩
        request := largeRequest }
      (coordinatorRun coordinatorPolicy 0
        (longWait ++ [.acquire 1 0 smallRequest 0 true, .time 130000])) := by
  apply (resourceWaiters_fair evaluateAdmission reserveAmounts).2.2 0
  · rfl
  · decide
  · exact ⟨rfl, by decide, trivial⟩

/-- A newcomer is selected before a protected waiter, which could be admitted
later but for the lease of the newcomer. -/
structure Postponed (policy : AdmissionPolicy Host Request Reservation)
    (now : Nat) (waiters : List (Waiter Request)) (host later : Host)
    (guard newcomer : Waiter Request) (lease : Lease Request) : Prop where
  guarded : resourceWaiterProtected policy now guard = true
  queued : guard ∈ waiters
  comes : now ≤ newcomer.enqueuedAt
  selected : selectedResourceWaiter policy now waiters [] host = some newcomer
  granted : lease.request = newcomer.request
  free : admissible policy now [] later guard = true
  taken : admissible policy now [lease] later guard = false

def exampleWaiter (id enqueuedAt : Nat) (request : ValidRequest) :
    Waiter ValidRequest where
  waiterId := id
  token := id + 1
  enqueuedAt := enqueuedAt
  expiresAt := 1800000
  owner :=
    { pid := id
      processStartedAt := 0 }
  request := request

def patientWaiter : Waiter ValidRequest :=
  exampleWaiter 1 0 largeRequest

def newWaiter : Waiter ValidRequest :=
  exampleWaiter 2 200000 smallRequest

def loadedHost (busy : ℚ) : AdmissionHost where
  snapshot := eightCores busy
  processParents := none

/-- Six processors are not free while the host is busy, but four are; when it is
not busy any more, these are taken.  And a clock which goes back takes the
protection away. -/
theorem patientWaiter_postponed : Postponed coordinatorPolicy 200000
    [patientWaiter, newWaiter] (loadedHost (5 / 2)) (loadedHost 0)
    patientWaiter newWaiter (exampleLease 2 newWaiter.request) ∧
    resourceWaiterProtected coordinatorPolicy 100000 patientWaiter =
    false := by
  have refused : admissible coordinatorPolicy 200000 [] (loadedHost (5 / 2))
      patientWaiter = false := by
    decide +kernel
  have fits :
      admissible coordinatorPolicy 200000 [] (loadedHost (5 / 2)) newWaiter =
      true := by
    decide +kernel
  refine ⟨⟨by decide, List.mem_cons_self, by decide, ?_, rfl, ?_, ?_⟩,
    by decide⟩
  · rcases selectedResourceWaiter_cases coordinatorPolicy 200000
      [patientWaiter, newWaiter] [] (loadedHost (5 / 2)) with
      ⟨waiter, selected, spec⟩ | ⟨_, reason⟩
    · rw [selected]
      rcases List.mem_cons.mp spec.best.member with first | second
      · have admits := spec.best.fits
        rw [first, refused] at admits
        cases admits
      · rw [List.mem_singleton.mp second]
    · rcases reason with unfit | ⟨blocked, _, drains, _⟩
      · rw [unfit newWaiter (by simp)] at fits
        cases fits
      · cases drains
  · decide +kernel
  · decide +kernel

/-- With the request the recorded leases stay within the limits. -/
def GrantedWithinLimits (grant : LeaseGrant AdmissionHost ValidRequest) : Prop :=
  let accounting := resourceCoordinatorAccounting grant.host grant.recorded
    grant.waiter.owner.pid
  WithinLimits grant.host.snapshot grant.recorded grant.request.val accounting
    (admissionLimits grant.host.snapshot grant.recorded grant.request.val
      accounting)

def twoRequests : List (LeaseEvent AdmissionHost ValidRequest) :=
  [0, 1].flatMap fun call => .acquire call 0 smallRequest 0 true ::
    List.replicate 7 (.advance call (loadedHost 0) true)

end MachineBridge.Resources
