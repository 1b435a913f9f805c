import MachineBridge.Relay.PollingInvariant

/-!
# The pace of the polls

No request starts before the instants which the failures since the last
successful exchange imposed, or sooner than the minimum interval after the one
before.  At most one request which was not aborted is in flight, and an open
connection without one has its timer armed.
-/

namespace MachineBridge.Relay

open Foundation List

variable {α : Type}

def RequestStart.Waited (start : RequestStart α) : Prop :=
  ∀ instant ∈ start.notBefore, instant ≤ start.instant

namespace RequestPacing

variable (options : PollingOptions)

/-- The requests of the past kept the pace, and the next one will. -/
structure Paced (pacing : RequestPacing α) : Prop where
  imposed_le : ∀ instant ∈ pacing.imposed, instant ≤ pacing.retryNotBeforeAt
  latest : pacing.starts.head?.map RequestStart.instant =
    pacing.lastRequestStartedAt
  waited : ∀ start ∈ pacing.starts, start.Waited
  spaced : pacing.starts.IsChain fun (later earlier : RequestStart α) =>
    earlier.instant + (options.minimumRequestIntervalMs : ℚ) ≤ later.instant
  inFlight : ∀ controller ∈ pacing.unaborted, pacing.inFlight = some controller
  unsettled : ∀ controller ∈ pacing.unaborted, controller ∈ pacing.unsettled
  single : pacing.unaborted.length ≤ 1

/-- An open connection with no request in flight has its timer armed. -/
def Armed (pacing : RequestPacing α) : Prop :=
  pacing.closed = false → pacing.inFlight = none →
    pacing.pollTimer.isSome = true

variable {options}

variable {pacing : RequestPacing α}

theorem Paced.update (paced : Paced options pacing) (now : ℚ) (closed : Bool)
    (pollTimer : Option ℚ) :
    Paced options { pacing with now, closed, pollTimer } :=
  ⟨paced.imposed_le, paced.latest, paced.waited, paced.spaced,
    paced.inFlight, paced.unsettled, paced.single⟩

theorem Paced.clearPollTimer (paced : Paced options pacing) :
    Paced options pacing.clearPollTimer :=
  paced.update pacing.now pacing.closed none

variable (options) in
theorem schedulePoll_cases (pacing : RequestPacing α) (delay : ℚ) :
    pacing.schedulePoll options delay = pacing ∨
      ∃ dueAt, pacing.schedulePoll options delay =
        { pacing with pollTimer := some dueAt } := by
  rw [schedulePoll]
  split
  · left
    rfl
  · dsimp only
    split
    · left
      rfl
    · right
      exact ⟨_, rfl⟩

theorem Paced.schedulePoll (paced : Paced options pacing) (delay : ℚ) :
    Paced options (pacing.schedulePoll options delay) := by
  rcases pacing.schedulePoll_cases options delay with
    same | ⟨dueAt, armed⟩
  · rw [same]
    exact paced
  · rw [armed]
    exact paced.update pacing.now pacing.closed (some dueAt)

theorem schedulePoll_armed (pacing : RequestPacing α) (delay : ℚ) :
    Armed (pacing.schedulePoll options delay) := by
  rw [RequestPacing.schedulePoll]
  split
  case isTrue busy =>
    intro opened idle
    simp [opened, idle] at busy
  case isFalse =>
    dsimp only
    split
    case isTrue kept =>
      intro _ _
      cases timer : pacing.pollTimer with
      | none =>
        rw [timer] at kept
        cases kept
      | some dueAt => rfl
    case isFalse =>
      intro _ _
      rfl

theorem Paced.abort (paced : Paced options pacing) (controller : Nat) :
    Paced options (pacing.abort controller) where
  __ := paced
  inFlight := by
    intro other member
    exact paced.inFlight other (List.mem_filter.mp member).1
  unsettled := by
    intro other member
    exact paced.unsettled other (List.mem_filter.mp member).1
  single := (length_filter_le _ _).trans paced.single

theorem Paced.abort_idle (paced : Paced options pacing) {controller : Nat}
    (current : pacing.inFlight = some controller) :
    Paced options { pacing.abort controller with inFlight := none } where
  __ := paced
  inFlight := by
    intro other member
    obtain ⟨unaborted, apart⟩ := List.mem_filter.mp member
    have same := paced.inFlight other unaborted
    rw [current] at same
    simp [Option.some.inj same] at apart
  unsettled := (paced.abort controller).unsettled
  single := (paced.abort controller).single

theorem Paced.giveUp (paced : Paced options pacing) :
    Paced options pacing.giveUp := by
  rw [RequestPacing.giveUp]
  split
  · exact paced
  case h_2 current => exact paced.abort_idle current

theorem Paced.settle (paced : Paced options pacing) (controller : Nat) :
    Paced options (pacing.settle controller) where
  __ := paced
  inFlight := (paced.abort controller).inFlight
  unsettled := by
    intro other member
    obtain ⟨unaborted, apart⟩ := List.mem_filter.mp member
    exact List.mem_filter.mpr ⟨paced.unsettled other unaborted, apart⟩
  single := (paced.abort controller).single

theorem Paced.release (paced : Paced options pacing) {controller : Nat}
    (settled : controller ∉ pacing.unsettled) :
    Paced options (pacing.release controller) := by
  rw [RequestPacing.release]
  split
  case isTrue current =>
    refine { paced with inFlight := ?_ }
    intro other member
    have same := paced.inFlight other member
    rw [current] at same
    rw [← Option.some.inj same] at member
    exact absurd (paced.unsettled controller member) settled
  case isFalse => exact paced

theorem Paced.impose (paced : Paced options pacing) (instant : ℚ) :
    Paced options (pacing.impose instant) where
  imposed_le := by
    intro other member
    rcases mem_cons.mp member with here | earlier
    · rw [here]
      exact le_max_right _ _
    · exact (paced.imposed_le other earlier).trans (le_max_left _ _)
  __ := paced

theorem Paced.lift (paced : Paced options pacing) :
    Paced options pacing.lift where
  imposed_le := nofun
  __ := paced

theorem retryNotBeforeAt_le_earliest (pacing : RequestPacing α) :
    pacing.retryNotBeforeAt ≤ pacing.earliest options := by
  rw [earliest]
  split
  · exact le_refl _
  · exact le_max_right _ _

theorem Paced.startRequest (paced : Paced options pacing)
    (idle : pacing.inFlight = none)
    (late : pacing.earliest options ≤ pacing.now) (queued : List (Entry α))
    (envelope : RelayEnvelope α) :
    Paced options (pacing.startRequest queued envelope) := by
  have alone : pacing.unaborted = [] := by
    apply eq_nil_iff_forall_not_mem.mpr
    intro controller member
    have current := paced.inFlight controller member
    rw [idle] at current
    cases current
  refine ⟨paced.imposed_le, rfl, ?_, ?_, ?_, ?_, ?_⟩
  · intro start member
    rcases mem_cons.mp member with here | earlier
    · rw [here]
      intro instant imposed
      calc
        instant ≤ pacing.retryNotBeforeAt := paced.imposed_le instant imposed
        _ ≤ pacing.earliest options := pacing.retryNotBeforeAt_le_earliest
        _ ≤ pacing.now := late
    · exact paced.waited start earlier
  · cases starts : pacing.starts with
    | nil =>
      simp only [RequestPacing.startRequest, starts]
      exact .singleton _
    | cons last earlier =>
      have latest := paced.latest
      have spaced := paced.spaced
      rw [starts] at spaced latest
      simp only [RequestPacing.startRequest, starts]
      apply isChain_cons_cons.mpr
      refine ⟨?_, spaced⟩
      simp only [earliest, ← latest, head?_cons, Option.map_some] at late
      exact (le_max_left _ _).trans late
  · intro controller member
    simp only [RequestPacing.startRequest, alone, nil_append,
      mem_singleton] at member
    rw [member]
    rfl
  · intro controller member
    simp only [RequestPacing.startRequest, alone, nil_append] at member
    exact mem_append_right _ member
  · simp [RequestPacing.startRequest, alone]

end RequestPacing

namespace PollingRelay

variable {environment : PollingEnvironment α}

/-- The pace is kept, and an idle open connection will poll. -/
def InPace (options : PollingOptions) (relay : PollingRelay α) : Prop :=
  relay.Paced options ∧ relay.Armed

variable {relay : PollingRelay α}

theorem InPace.schedulePoll (paced : relay.Paced environment.options)
    (delay : ℚ) :
    InPace environment.options (schedulePoll environment relay delay) :=
  ⟨paced.schedulePoll delay, RequestPacing.schedulePoll_armed _ delay⟩

theorem InPace.enqueue (kept : InPace environment.options relay) (value : α) :
    InPace environment.options (enqueue environment relay value) := by
  rw [PollingRelay.enqueue]
  split
  · exact kept
  · exact InPace.schedulePoll kept.1 0

theorem InPace.call {reset : PollingRelay α → PollingRelay α}
    (resets : ∀ other, InPace environment.options other →
      InPace environment.options (reset other))
    (kept : InPace environment.options relay) (method : RelayCall α) :
    InPace environment.options (call environment reset relay method) := by
  obtain ⟨paced, armed⟩ := kept
  cases method with
  | start takeover =>
    rw [PollingRelay.call, start]
    dsimp only
    split
    · split
      · exact InPace.schedulePoll paced.clearPollTimer.giveUp 0
      · exact InPace.schedulePoll paced 0
    · apply InPace.schedulePoll
      exact paced.update relay.now false relay.pollTimer
  | stop =>
    rw [PollingRelay.call, stop]
    split
    · exact ⟨paced, armed⟩
    · constructor
      · apply RequestPacing.Paced.giveUp
        exact paced.update relay.now true none
      · intro opened
        rw [RequestPacing.giveUp] at opened
        split at opened
        · cases opened
        · cases opened
  | send value =>
    rw [PollingRelay.call, send]
    split
    · exact ⟨paced, armed⟩
    · exact InPace.enqueue ⟨paced, armed⟩ value
  | sendForSession value expectedSessionId =>
    rw [PollingRelay.call, sendForSession]
    split
    · exact ⟨paced, armed⟩
    · split
      · exact ⟨paced, armed⟩
      · split
        · exact ⟨paced, armed⟩
        · exact InPace.enqueue ⟨paced, armed⟩ value
  | confirmReady matching =>
    rw [PollingRelay.call, confirmReady]
    split
    · exact ⟨paced, armed⟩
    · split
      · exact resets relay ⟨paced, armed⟩
      · split
        · exact ⟨paced, armed⟩
        · exact ⟨paced, armed⟩
  | interrupt =>
    rw [PollingRelay.call, interrupt]
    split
    · exact ⟨paced, armed⟩
    · apply InPace.schedulePoll
      apply And.left
      apply resets
      cases relay.inFlight with
      | none => exact ⟨paced, armed⟩
      | some controller => exact ⟨paced.abort controller, armed⟩
  | pass reading => exact ⟨paced.update _ relay.closed relay.pollTimer, armed⟩

theorem InPace.poll (paced : relay.Paced environment.options)
    (data : PollData α) :
    InPace environment.options (poll environment relay data) := by
  rw [PollingRelay.poll]
  split
  case isTrue busy =>
    refine ⟨paced, ?_⟩
    intro opened idle
    simp [opened, idle] at busy
  case isFalse free =>
    have cleared := paced.clearPollTimer
    dsimp only
    split
    · exact InPace.schedulePoll cleared _
    case isFalse late =>
      have idle : relay.inFlight = none := by
        cases current : relay.inFlight with
        | none => rfl
        | some controller => simp [current] at free
      constructor
      · exact cleared.startRequest idle (not_lt.mp late) _ _
      · intro _ none
        cases none

theorem InPace.release {controller : Nat}
    (kept : InPace environment.options relay) (ended : Ended relay controller)
    (stale : relay.inFlight ≠ some controller ∨ relay.closed = true) :
    InPace environment.options { relay with
      toRequestPacing := relay.toRequestPacing.release controller } := by
  refine ⟨kept.1.release ended.2, ?_⟩
  rcases stale with other | closed
  · rw [RequestPacing.release, if_neg other]
    exact kept.2
  · intro opened
    rw [RequestPacing.release] at opened
    split at opened
    · exact absurd (closed.symm.trans opened) (by decide)
    · exact absurd (closed.symm.trans opened) (by decide)

theorem InPace.finishPoll {controller : Nat}
    (kept : InPace environment.options relay)
    (ended : Ended relay controller) :
    InPace environment.options (finishPoll environment relay controller) := by
  have released := kept.1.release ended.2
  rw [PollingRelay.finishPoll]
  dsimp only
  split
  case isTrue closed =>
    refine ⟨released, ?_⟩
    intro opened
    exact absurd (closed.symm.trans opened) (by decide)
  case isFalse => exact InPace.schedulePoll released _

theorem inPace_preserved :
    PreservesPolls environment (InPace environment.options) where
  dropSession := fun _ kept => kept
  call := fun _ _ method resets kept => kept.call resets method
  callback := fun _ kept => kept
  recordFailure := fun _ _ kept => ⟨kept.1.impose _, kept.2⟩
  authenticate := by
    intro relay token kept
    rw [authenticate]
    split
    · exact kept
    · exact kept
  ready := fun _ _ kept => kept
  commit := fun _ _ _ _ kept => kept
  acknowledge := fun _ _ _ _ kept => kept
  lift := fun _ kept => ⟨kept.1.lift, kept.2⟩
  standby := fun _ kept => kept
  handlers := fun _ _ kept => kept
  settle := fun _ controller kept => ⟨kept.1.settle controller, kept.2⟩
  poll := fun _ data kept => InPace.poll kept.1 data
  timer := fun _ data kept => InPace.poll kept.1.clearPollTimer data
  ignore := fun _ _ ended stale kept => kept.release ended stale
  finishPoll := fun _ _ ended kept => kept.finishPoll ended

/-- Whatever happens to a connection, its requests keep the pace: each starts
after all that the failures since the last successful exchange imposed, and the
minimum interval after the one before.  At most one unaborted request is in
flight, and an open connection with none in flight has a timer armed. -/
theorem relayPolling_inPace (environment : PollingEnvironment α)
    (events : List (PollingEvent α)) :
    let relay := runPolling environment events
    (∀ start ∈ relay.starts, ∀ instant ∈ start.notBefore,
      instant ≤ start.instant) ∧
    (relay.starts.IsChain fun (later earlier : RequestStart α) =>
      earlier.instant +
        (environment.options.minimumRequestIntervalMs : ℚ) ≤ later.instant) ∧
    relay.unaborted.length ≤ 1 ∧
    (relay.closed = false → relay.inFlight = none →
      relay.pollTimer.isSome = true) := by
  have initial : InPace environment.options ({} : PollingRelay α) :=
    ⟨⟨nofun, rfl, List.forall_mem_nil _, .nil, nofun, nofun, Nat.zero_le 1⟩,
      nofun⟩
  obtain ⟨paced, armed⟩ := inPace_preserved.run initial events
  exact ⟨paced.waited, paced.spaced, paced.single, armed⟩

end PollingRelay

end MachineBridge.Relay
