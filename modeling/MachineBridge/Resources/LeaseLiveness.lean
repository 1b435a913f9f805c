import MachineBridge.Resources.LeaseCoordinator

/-!
# When a lease may be removed

A lease is removed by its holder, when it is provisional beyond its time, or
when its owner and the isolated group of its owner have ended.  Everything that
makes a lease stale is one of these, unless a start time of an earlier listing
passes a running owner off as another process.
-/

namespace MachineBridge.Resources

variable {Host Request : Type}

section Inspection

variable {alive : Bool} {now pid startedAt processStartedAt : Nat}
  {observedStart : Option Nat}

theorem inspect_cases :
    let status := inspectProcessInstance alive now pid startedAt
      processStartedAt observedStart
    pid = 0 ∧ status = ⟨false, true, .invalidPid⟩ ∨
      alive = false ∧ status = ⟨false, true, .notRunning⟩ ∨
      alive = true ∧ status = ⟨true, true, .pidReused⟩ ∨
      status.reclaimable = false ∧ status.reason ≠ .pidReused := by
  intro status
  unfold status inspectProcessInstance
  split
  case isTrue invalid => exact .inl ⟨invalid, rfl⟩
  case isFalse =>
    right
    split
    case isTrue ended => exact .inl ⟨ended, rfl⟩
    case isFalse runs =>
      right
      rw [Bool.not_eq_false] at runs
      split
      · right
        exact ⟨rfl, by decide⟩
      · split
        · right
          exact ⟨rfl, by decide⟩
        · split
          · right
            exact ⟨rfl, by decide⟩
          · split
            · exact .inl ⟨runs, rfl⟩
            · right
              exact ⟨rfl, by decide⟩

end Inspection

/-- The row of an owner has its identifier, and only a bound lease can have a
group. -/
structure LeaseOwner.Known (table : ProcessTable) (owner : LeaseOwner) :
    Prop where
  row : ∃ info, table[owner.process]? = some info ∧ info.pid = owner.pid
  provisional : owner.kind = .provisional → owner.processGroupIsolated = false
  group : owner.processGroupIsolated = true →
    owner.processGroupId = some owner.pid

theorem LeaseOwner.Known.grows {table next : ProcessTable} {owner : LeaseOwner}
    (known : owner.Known table) (grows : ProcessTable.Grows table next) :
    owner.Known next := by
  refine ⟨?_, known.provisional, known.group⟩
  obtain ⟨info, found, same⟩ := known.row
  obtain ⟨now, stored, kept⟩ := grows.kept owner.process info found
  exact ⟨now, stored, kept.trans same⟩

namespace LeaseRemoval

/-- A removal is one by the holder, of a lease whose owner and group have
ended, or of a provisional lease beyond its time. -/
def justified (removal : LeaseRemoval Request) : Bool :=
  removal.released || (!removal.ownerAlive && !removal.groupAlive) ||
    provisionalExpired removal.clock removal.lease

end LeaseRemoval

namespace LeaseWorld

section Judging

variable {world : LeaseWorld Host Request} {call : Nat}
  {lease : Lease Request}

/-- A running owner is taken for a process which has ended, by its start. -/
def misjudges (world : LeaseWorld Host Request) (call : Nat)
    (lease : Lease Request) : Bool :=
  world.processes.isRunning lease.owner.process &&
    (resourceLeaseOwnerStatus world.processes world.clock lease
      (world.evidence call)).reason == .pidReused &&
    !provisionalExpired world.clock lease

theorem ownerStatus_cases (table : ProcessTable) (now : Nat)
    (lease : Lease Request) (evidence : ProcessEvidence) :
    let status := resourceLeaseOwnerStatus table now lease evidence
    lease.owner.pid = 0 ∧ status = ⟨false, true, .invalidPid⟩ ∨
      table.isPidAlive lease.owner.pid = false ∧
        status = ⟨false, true, .notRunning⟩ ∨
      table.isPidAlive lease.owner.pid = true ∧
        status = ⟨true, true, .pidReused⟩ ∨
      status.reclaimable = false ∧ status.reason ≠ .pidReused :=
  inspect_cases

theorem stale_justified (valid : world.processes.Valid)
    (known : lease.owner.Known world.processes)
    (trusted : world.misjudges call lease = false)
    (stale : world.isStale call lease = true) :
    (world.removal lease false).justified = true := by
  obtain ⟨info, found, same⟩ := known.row
  have positive := valid.positive _ info found
  rw [same] at positive
  unfold LeaseRemoval.justified removal
  by_cases expired : provisionalExpired world.clock lease = true
  · rw [expired, Bool.or_true]
  · rw [Bool.not_eq_true] at expired
    unfold misjudges at trusted
    unfold isStale resourceLeaseIsStale at stale
    rw [expired] at trusted stale
    have answers := ownerStatus_cases world.processes world.clock lease
      (world.evidence call)
    generalize resourceLeaseOwnerStatus world.processes world.clock lease
      (world.evidence call) = status at trusted stale answers
    have ended : world.processes.isRunning lease.owner.process = false ∧
        (lease.owner.processGroupIsolated &&
          world.processes.groupRuns lease.owner.process) = false := by
      rcases answers with ⟨zero, _⟩ | ⟨unused, rfl⟩ | ⟨used, rfl⟩ | kept
      · exact absurd zero positive
      · rw [← same] at unused
        refine ⟨ProcessTable.not_running found unused, ?_⟩
        cases isolated : lease.owner.processGroupIsolated with
        | false => rfl
        | true =>
          have bound : lease.owner.kind = .process := by
            cases kind : lease.owner.kind with
            | process => rfl
            | provisional =>
              rw [known.provisional kind] at isolated
              cases isolated
          have empty : leaseGroupAlive world.processes lease = false := by
            rw [← Bool.not_eq_true]
            intro alive
            rw [if_neg (by simp), if_pos ⟨bound, alive⟩] at stale
            cases stale
          rw [leaseGroupAlive, isolated, known.group isolated,
            Option.any_some, Bool.true_and, ← same] at empty
          exact valid.group_ended found empty
      · have ended : world.processes.isRunning lease.owner.process = false := by
          simpa using trusted
        refine ⟨ended, ?_⟩
        rw [← same] at used
        rw [valid.group_replaced found ended used, Bool.and_false]
      · obtain ⟨reclaimable, reason⟩ := kept
        exfalso
        rw [if_neg (fun reused => reason reused.2), reclaimable] at stale
        simp at stale
    rw [ended.1, ended.2]
    rfl

theorem misjudged_stale (misjudged : world.misjudges call lease = true) :
    world.isStale call lease = true ∧
    (world.removal lease false).justified = false := by
  unfold misjudges at misjudged
  rw [Bool.and_eq_true, Bool.and_eq_true, Bool.not_eq_true',
    beq_iff_eq] at misjudged
  obtain ⟨⟨running, reused⟩, expired⟩ := misjudged
  refine ⟨?_, ?_⟩
  · unfold isStale resourceLeaseIsStale
    have answers := ownerStatus_cases world.processes world.clock lease
      (world.evidence call)
    generalize resourceLeaseOwnerStatus world.processes world.clock lease
      (world.evidence call) = status at reused answers
    have reclaimable : status.reclaimable = true := by
      rcases answers with ⟨_, rfl⟩ | ⟨_, rfl⟩ | ⟨_, rfl⟩ | ⟨_, differs⟩
      · rfl
      · rfl
      · rfl
      · exact absurd reused differs
    cases kind : lease.owner.kind with
    | process => rw [if_pos ⟨rfl, reused⟩]
    | provisional =>
      rw [if_neg (by simp), if_neg (by simp), expired, reclaimable]
      rfl
  · unfold LeaseRemoval.justified removal
    rw [running, expired]
    rfl

end Judging

end LeaseWorld

end MachineBridge.Resources
