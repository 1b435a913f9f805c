import Mathlib.Data.List.Basic

/-!
# Processes, groups and their identifiers

A process is a row of a table which only grows.  The system gives an identifier
again once no running process and no process group has it, and a group lives as
long as one of its members.
-/

namespace MachineBridge.Resources

open List

/-- A process of the host, with the row of the process that began its group. -/
structure OsProcess where
  (pid started group leader : Nat)
  alive : Bool := true

abbrev ProcessTable := List OsProcess

abbrev ProcessStarts := List (Nat × Nat)

namespace ProcessTable

variable (table : ProcessTable)

def running (pid : Nat) : Option OsProcess :=
  table.find? fun info => info.alive && info.pid == pid

def isPidAlive (pid : Nat) : Bool := (table.running pid).isSome

def processStartTimeMs (pid : Nat) : Option Nat :=
  (table.running pid).map OsProcess.started

def resourceProcessGroupAlive (group : Nat) : Bool :=
  table.any fun info => info.alive && info.group == group

def sampleProcessStartTimes : ProcessStarts :=
  (table.filter OsProcess.alive).map fun info => (info.pid, info.started)

section

variable (process : Nat)

def isRunning : Bool := table[process]?.any OsProcess.alive

/-- Whether a member of the group which a process began is running. -/
def groupRuns : Bool :=
  table.any fun info => info.alive && info.leader == process

/-- A process starts a child, in its own group or in a new one. -/
def spawn (parent pid : Nat) (isolated : Bool) (now : Nat) : ProcessTable :=
  match table[parent]? with
  | none => table
  | some info =>
    if info.alive ∧ pid ≠ 0 ∧ table.isPidAlive pid = false ∧
        table.resourceProcessGroupAlive pid = false then
      table ++ [{
        pid
        started := now
        group := if isolated then pid else info.group
        leader := if isolated then table.length else info.leader }]
    else table

def exit : ProcessTable :=
  List.modify table process fun info => { info with alive := false }

end

end ProcessTable

def processStartTimeFromSnapshot (snapshot : Option ProcessStarts)
    (pid : Nat) : Option Nat :=
  (snapshot.bind (List.lookup pid)).filter (0 < ·)

inductive InspectionReason where
  | invalidPid
  | notRunning
  | invalidLockTimestamp
  | futureLockTimestamp
  | invalidProcessTimestamp
  | pidReused
  | currentProcess
deriving DecidableEq

structure ProcessInspection where
  (alive reclaimable : Bool)
  reason : InspectionReason

def startTimeToleranceMs : Nat := 15000

def startsApart (observed recorded : Nat) : Bool :=
  recorded + startTimeToleranceMs < observed ||
    observed + startTimeToleranceMs < recorded

def inspectProcessInstance (alive : Bool)
    (now pid startedAt processStartedAt : Nat) (observedStart : Option Nat) :
    ProcessInspection :=
  if pid = 0 then ⟨false, true, .invalidPid⟩
  else if alive = false then ⟨false, true, .notRunning⟩
  else if startedAt = 0 then ⟨true, false, .invalidLockTimestamp⟩
  else if now + startTimeToleranceMs < startedAt then
    ⟨true, false, .futureLockTimestamp⟩
  else if processStartedAt = 0 then ⟨true, false, .invalidProcessTimestamp⟩
  else if observedStart.any fun observed =>
      0 < observed && startsApart observed processStartedAt then
    ⟨true, true, .pidReused⟩
  else ⟨true, false, .currentProcess⟩

namespace ProcessTable

/-- Identifiers are used by one process, or one group, at a time. -/
structure Valid (table : ProcessTable) : Prop where
  unique : ∀ (first second : Nat) (one other : OsProcess),
    table[first]? = some one → table[second]? = some other →
    one.alive = true → other.alive = true → one.pid = other.pid →
    first = second
  grouped : ∀ (first second : Nat) (one other : OsProcess),
    table[first]? = some one → table[second]? = some other →
    one.alive = true → other.alive = true → one.group = other.group →
    one.leader = other.leader
  led : ∀ (first second : Nat) (one other : OsProcess),
    table[first]? = some one → table[second]? = some other →
    one.alive = true → other.alive = true → one.pid = other.group →
    other.leader = first
  begun : ∀ (process : Nat) (info : OsProcess), table[process]? = some info →
    ∃ leader, table[info.leader]? = some leader ∧ leader.pid = info.group
  positive : ∀ (process : Nat) (info : OsProcess),
    table[process]? = some info → info.pid ≠ 0

/-- Rows keep what identifies them, and a process which has ended stays so. -/
structure Grows (table next : ProcessTable) : Prop where
  kept : ∀ (process : Nat) (info : OsProcess), table[process]? = some info →
    ∃ now, next[process]? = some now ∧ now.pid = info.pid

section Validity

variable {table : ProcessTable} {pid : Nat}

theorem Grows.refl : Grows table table := by
  constructor
  intro process info found
  exact ⟨info, found, rfl⟩

theorem isPidAlive_eq_true : table.isPidAlive pid = true ↔
    ∃ (process : Nat) (info : OsProcess), table[process]? = some info ∧
    info.alive = true ∧ info.pid = pid := by
  rw [isPidAlive, running, find?_isSome]
  constructor
  · rintro ⟨info, member, condition⟩
    obtain ⟨process, found⟩ := mem_iff_getElem?.mp member
    rw [Bool.and_eq_true] at condition
    exact ⟨process, info, found, condition.1, beq_iff_eq.mp condition.2⟩
  · rintro ⟨process, info, found, alive, same⟩
    refine ⟨info, mem_of_getElem? found, ?_⟩
    rw [alive, same, beq_self_eq_true]
    rfl

theorem resourceProcessGroupAlive_eq_false :
    table.resourceProcessGroupAlive pid = false ↔
    ∀ (process : Nat) (info : OsProcess), table[process]? = some info →
    info.alive = true → info.group ≠ pid := by
  rw [resourceProcessGroupAlive, any_eq_false]
  constructor
  · intro none process info found alive same
    apply none info (mem_of_getElem? found)
    rw [alive, same, beq_self_eq_true]
    rfl
  · intro none info member condition
    obtain ⟨process, found⟩ := mem_iff_getElem?.mp member
    rw [Bool.and_eq_true] at condition
    exact none process info found condition.1 (beq_iff_eq.mp condition.2)

variable {process : Nat} {info : OsProcess}

theorem groupRuns_eq_false : table.groupRuns process = false ↔
    ∀ (member : Nat) (info : OsProcess), table[member]? = some info →
    info.alive = true → info.leader ≠ process := by
  rw [groupRuns, any_eq_false]
  constructor
  · intro none member info found alive same
    apply none info (mem_of_getElem? found)
    rw [alive, same, beq_self_eq_true]
    rfl
  · intro none info belongs condition
    obtain ⟨member, found⟩ := mem_iff_getElem?.mp belongs
    rw [Bool.and_eq_true] at condition
    exact none member info found condition.1 (beq_iff_eq.mp condition.2)

theorem getElem?_concat {new : OsProcess}
    (found : (table ++ [new])[process]? = some info) :
    table[process]? = some info ∨ process = table.length ∧ info = new := by
  rcases Nat.lt_trichotomy process table.length with old | last | beyond
  · left
    rw [← found, getElem?_append_left old]
  · right
    rw [last, getElem?_append_right (Nat.le_refl _), Nat.sub_self] at found
    cases found
    exact ⟨last, rfl⟩
  · rw [getElem?_append_right (Nat.le_of_lt beyond)] at found
    have positive : process - table.length ≠ 0 := by omega
    cases count : process - table.length with
    | zero => exact absurd count positive
    | succ rest =>
      rw [count] at found
      cases found

theorem Grows.concat (new : OsProcess) : Grows table (table ++ [new]) := by
  constructor
  intro process info found
  refine ⟨info, ?_, rfl⟩
  have bound := (List.getElem?_eq_some_iff.mp found).1
  rw [getElem?_append_left bound]
  exact found

theorem Valid.concat {new : OsProcess} (valid : table.Valid)
    (free : table.isPidAlive new.pid = false)
    (unled : table.resourceProcessGroupAlive new.pid = false)
    (joins : new.group = new.pid ∧ new.leader = table.length ∨
      ∃ (parent : Nat) (info : OsProcess), table[parent]? = some info ∧
      info.alive = true ∧ new.group = info.group ∧ new.leader = info.leader)
    (positive : new.pid ≠ 0) : ProcessTable.Valid (table ++ [new]) := by
  rw [resourceProcessGroupAlive_eq_false] at unled
  have unused : ∀ (process : Nat) (info : OsProcess),
      table[process]? = some info → info.alive = true →
      info.pid ≠ new.pid := by
    intro process info found alive same
    have taken := isPidAlive_eq_true.mpr ⟨process, info, found, alive, same⟩
    rw [free] at taken
    cases taken
  -- A process of the table and the new one are in one group by inheritance.
  have inherits : ∀ (process : Nat) (info : OsProcess),
      table[process]? = some info → info.alive = true →
      info.group = new.group → info.leader = new.leader := by
    intro process info found alive same
    rcases joins with ⟨group, _⟩ | ⟨parent, other, row, runs, group, leader⟩
    · exact absurd (same.trans group) (unled process info found alive)
    · rw [leader]
      exact valid.grouped process parent info other found row alive runs
        (same.trans group)
  constructor
  · intro first second one other found stored runs lives same
    rcases getElem?_concat found with old | ⟨last, rfl⟩
    · rcases getElem?_concat stored with early | ⟨late, rfl⟩
      · exact valid.unique first second one other old early runs lives same
      · exact absurd same (unused first one old runs)
    · rcases getElem?_concat stored with early | ⟨late, rfl⟩
      · exact absurd same.symm (unused second other early lives)
      · rw [last, late]
  · intro first second one other found stored runs lives same
    rcases getElem?_concat found with old | ⟨last, rfl⟩
    · rcases getElem?_concat stored with early | ⟨late, rfl⟩
      · exact valid.grouped first second one other old early runs lives same
      · exact inherits first one old runs same
    · rcases getElem?_concat stored with early | ⟨late, rfl⟩
      · exact (inherits second other early lives same.symm).symm
      · rfl
  · intro first second one other found stored runs lives same
    rcases getElem?_concat found with old | ⟨last, rfl⟩
    · rcases getElem?_concat stored with early | ⟨late, rfl⟩
      · exact valid.led first second one other old early runs lives same
      · rcases joins with ⟨group, _⟩ | ⟨parent, info, row, live, group, leader⟩
        · exact absurd (same.trans group) (unused first one old runs)
        · rw [leader]
          exact valid.led first parent one info old row runs live
            (same.trans group)
    · rcases getElem?_concat stored with early | ⟨late, rfl⟩
      · exact absurd same.symm (unled second other early lives)
      · rcases joins with ⟨_, leader⟩ | ⟨parent, info, row, live, group, _⟩
        · rw [leader, last]
        · exact absurd (group.symm.trans same.symm)
            (unled parent info row live)
  · intro process info found
    rcases getElem?_concat found with old | ⟨last, rfl⟩
    · obtain ⟨leader, row, same⟩ := valid.begun process info old
      obtain ⟨now, stored, kept⟩ := (Grows.concat new).kept _ leader row
      exact ⟨now, stored, kept.trans same⟩
    · rcases joins with ⟨group, leader⟩ | ⟨parent, other, row, _, group, leader⟩
      · refine ⟨info, ?_, group.symm⟩
        rw [leader, getElem?_append_right (Nat.le_refl _), Nat.sub_self]
        rfl
      · obtain ⟨begun, stored, same⟩ := valid.begun parent other row
        obtain ⟨now, found, kept⟩ := (Grows.concat info).kept _ begun stored
        rw [leader, group]
        exact ⟨now, found, kept.trans same⟩
  · intro process info found
    rcases getElem?_concat found with old | ⟨_, rfl⟩
    · exact valid.positive process info old
    · exact positive

theorem spawn_grows (table : ProcessTable) (parent pid : Nat) (isolated : Bool)
    (now : Nat) : Grows table (table.spawn parent pid isolated now) := by
  unfold spawn
  split
  case h_1 => exact Grows.refl
  case h_2 =>
    split
    case isTrue => exact Grows.concat _
    case isFalse => exact Grows.refl

theorem Valid.spawn (valid : table.Valid) (parent pid : Nat) (isolated : Bool)
    (now : Nat) : (table.spawn parent pid isolated now).Valid := by
  unfold ProcessTable.spawn
  split
  case h_1 => exact valid
  case h_2 info found =>
    split
    case isFalse => exact valid
    case isTrue condition =>
      obtain ⟨alive, positive, free, unled⟩ := condition
      apply valid.concat free unled _ positive
      cases isolated with
      | true => exact .inl ⟨rfl, rfl⟩
      | false => exact .inr ⟨parent, info, found, alive, rfl, rfl⟩

theorem getElem?_exit {other : Nat}
    (found : (table.exit process)[other]? = some info) : ∃ old,
    table[other]? = some old ∧ info.pid = old.pid ∧ info.group = old.group ∧
    info.leader = old.leader ∧ (info.alive = true → old.alive = true) := by
  unfold ProcessTable.exit at found
  rw [getElem?_modify] at found
  split at found
  case isTrue =>
    obtain ⟨old, stored, same⟩ := Option.map_eq_some_iff.mp found
    refine ⟨old, stored, ?_⟩
    rw [← same]
    refine ⟨rfl, rfl, rfl, ?_⟩
    intro impossible
    cases impossible
  case isFalse =>
    obtain ⟨old, stored, same⟩ := Option.map_eq_some_iff.mp found
    refine ⟨old, stored, ?_⟩
    rw [← same]
    exact ⟨rfl, rfl, rfl, id⟩

theorem exit_grows (process : Nat) : Grows table (table.exit process) := by
  constructor
  intro other info found
  unfold ProcessTable.exit
  rw [getElem?_modify, found]
  split
  case isTrue | isFalse => exact ⟨_, rfl, rfl⟩

theorem Valid.exit (valid : table.Valid) (process : Nat) :
    (table.exit process).Valid := by
  constructor
  · intro first second one other found stored runs lives same
    obtain ⟨before, row, pid, _, _, alive⟩ := getElem?_exit found
    obtain ⟨after, line, id, _, _, live⟩ := getElem?_exit stored
    apply valid.unique first second before after row line (alive runs)
      (live lives)
    rw [← pid, ← id]
    exact same
  · intro first second one other found stored runs lives same
    obtain ⟨before, row, _, group, leader, alive⟩ := getElem?_exit found
    obtain ⟨after, line, _, team, head, live⟩ := getElem?_exit stored
    rw [leader, head]
    apply valid.grouped first second before after row line (alive runs)
      (live lives)
    rw [← group, ← team]
    exact same
  · intro first second one other found stored runs lives same
    obtain ⟨before, row, pid, _, _, alive⟩ := getElem?_exit found
    obtain ⟨after, line, _, team, head, live⟩ := getElem?_exit stored
    rw [head]
    apply valid.led first second before after row line (alive runs)
      (live lives)
    rw [← pid, ← team]
    exact same
  · intro other info found
    obtain ⟨old, stored, _, group, leader, _⟩ := getElem?_exit found
    obtain ⟨begun, row, same⟩ := valid.begun other old stored
    obtain ⟨now, line, kept⟩ := (exit_grows process).kept _ begun row
    rw [leader, group]
    exact ⟨now, line, kept.trans same⟩
  · intro other info found
    obtain ⟨old, stored, pid, _⟩ := getElem?_exit found
    rw [pid]
    exact valid.positive other old stored

theorem not_running (found : table[process]? = some info)
    (unused : table.isPidAlive info.pid = false) :
    table.isRunning process = false := by
  rw [isRunning, found, Option.any_some, ← Bool.not_eq_true]
  intro alive
  have taken := isPidAlive_eq_true.mpr ⟨process, info, found, alive, rfl⟩
  rw [unused] at taken
  cases taken

theorem Valid.group_ended (valid : table.Valid)
    (found : table[process]? = some info)
    (unled : table.resourceProcessGroupAlive info.pid = false) :
    table.groupRuns process = false := by
  rw [resourceProcessGroupAlive_eq_false] at unled
  rw [groupRuns_eq_false]
  intro member row stored alive leads
  obtain ⟨leader, begun, same⟩ := valid.begun member row stored
  rw [leads, found] at begun
  cases begun
  exact unled member row stored alive same.symm

theorem Valid.group_replaced (valid : table.Valid)
    (found : table[process]? = some info)
    (ended : table.isRunning process = false)
    (used : table.isPidAlive info.pid = true) :
    table.groupRuns process = false := by
  obtain ⟨owner, other, row, alive, same⟩ := isPidAlive_eq_true.mp used
  rw [groupRuns_eq_false]
  intro member rows stored lives leads
  obtain ⟨leader, begun, group⟩ := valid.begun member rows stored
  rw [leads, found] at begun
  cases begun
  have replaced := valid.led owner member other rows row stored alive lives
    (same.trans group)
  rw [leads] at replaced
  rw [replaced, isRunning, row, Option.any_some, alive] at ended
  cases ended

end Validity

end ProcessTable

end MachineBridge.Resources
