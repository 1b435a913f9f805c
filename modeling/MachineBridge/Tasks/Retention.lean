import Mathlib.Algebra.Order.BigOperators.Group.List
import MachineBridge.Tasks.Store

/-!
# What the task store retains

The chunks in storage are those of the retained results, the room which records
claim is within its limit, and a result is read back as the value which an
update stored, by the principal of its task only.
-/

namespace MachineBridge.Tasks

open Foundation Authority List

theorem colon_not_mem {taskId : Text} (valid : isMcpTaskJobId taskId = true) :
    0x3A ∉ taskId := by
  obtain ⟨label, body⟩ := Bool.and_eq_true_iff.mp valid
  obtain ⟨rest, same⟩ := isPrefixOf_iff_prefix.mp label
  rw [← same, drop_left] at body
  rw [← same]
  intro member
  rcases mem_append.mp member with first | second
  · exact absurd first (by decide)
  · have all := (Bool.and_eq_true_iff.mp body).2
    have allowed := all_eq_true.mp all 0x3A second
    exact absurd allowed (by decide)

theorem resultChunkKey_inj {first second : Text} {index other : Nat}
    (one : isMcpTaskJobId first = true) (two : isMcpTaskJobId second = true)
    (same : resultChunkKey first index = resultChunkKey second other) :
    first = second ∧ index = other := by
  obtain ⟨task, number⟩ := append_separator_inj (colon_not_mem one)
    (colon_not_mem two) (append_cancel_left same)
  exact ⟨task, decimal_injective number⟩

theorem mem_chunkKeys {task : McpTaskRecord} {key : Text} :
    key ∈ chunkKeys task ↔ ∃ index < task.resultChunkCount,
    resultChunkKey task.taskId index = key := by
  simp [chunkKeys]

theorem nodup_resultChunkKeys {taskId : Text}
    (valid : isMcpTaskJobId taskId = true) (count : Nat) :
    ((List.range count).map (resultChunkKey taskId)).Nodup :=
  nodup_range.map fun _ _ same => (resultChunkKey_inj valid valid same).2

theorem foldl_deleteTaskResult (chunks : ResultChunks)
    (tasks : List McpTaskRecord) : tasks.foldl deleteTaskResult chunks =
    chunks.deleteAll (tasks.flatMap chunkKeys) := by
  rw [Record.deleteAll, foldl_flatMap]
  rfl

theorem flatten_chunks (bytes : List UInt8) (count : Nat) :
    ((List.range count).map (chunkOf bytes)).flatten =
    bytes.take (count * resultChunkBytes) := by
  induction count with
  | zero => simp
  | succ count induction =>
    rw [range_succ, map_append, flatten_append, induction, map_singleton,
      flatten_singleton, chunkOf, Nat.succ_mul, take_add]

theorem chunkCount_covers (bytes : Nat) :
    bytes ≤ chunkCount bytes * resultChunkBytes := by
  have positive : 0 < resultChunkBytes := by decide
  have division := Nat.div_add_mod' (bytes + (resultChunkBytes - 1))
    resultChunkBytes
  have rest := Nat.mod_lt (bytes + (resultChunkBytes - 1)) positive
  simp only [chunkCount]
  omega

theorem chunkCount_pos {bytes : Nat} (positive : 0 < bytes) :
    0 < chunkCount bytes := by
  apply Nat.div_pos
  · omega
  · decide

theorem chunks_complete (bytes : List UInt8) :
    ((List.range (chunkCount bytes.length)).map (chunkOf bytes)).flatten =
    bytes := by
  rw [flatten_chunks]
  exact take_of_length_le (chunkCount_covers bytes.length)

section Invariant

variable {platform : ResultPlatform}

structure HoldsResult (task : McpTaskRecord) (chunks : ResultChunks)
    (value : platform.Json) : Prop where
  completed : task.status = .completed
  bytes : task.resultBytes = (platform.stringify value).length
  digest : task.resultSha256 = (platform.sha256 (platform.stringify value)).val
  chunks : ∀ index < task.resultChunkCount,
    chunks.get? (resultChunkKey task.taskId index) =
      some (encodeBase64 (chunkOf (platform.stringify value) index))

structure Held (tasks : List McpTaskRecord) (chunks : ResultChunks)
    (stored : Record Text platform.Json) : Prop where
  bounded : tasks.length ≤ maxMcpTasks
  valid : ∀ task ∈ tasks, validTask task = true
  distinct : (tasks.map (·.taskId)).Nodup
  room : retainedResultBytes tasks ≤ maxMcpTaskResultBytesTotal
  keys : ∀ key, key ∈ chunks.keys ↔ ∃ task ∈ tasks, key ∈ chunkKeys task
  results : ∀ task ∈ tasks, task.resultBytes ≠ 0 → ∃ value,
    stored.get? task.taskId = some value ∧ HoldsResult task chunks value

variable {task : McpTaskRecord} {tasks others : List McpTaskRecord}
  {chunks : ResultChunks} {stored : Record Text platform.Json}

section

variable (valid : validTask task = true)
include valid

theorem isMcpTaskJobId_of_valid : isMcpTaskJobId task.taskId = true := by
  simp only [validTask, Bool.and_eq_true] at valid
  exact valid.1.1.1.1.1.1.1.1.1.1.1

theorem reserved_of_valid : task.reservedResultBytes =
    if task.status.active then maxMcpTaskResultBytes else 0 := by
  simp only [validTask, Bool.and_eq_true] at valid
  have reserved := valid.1.1.1.1.2
  split
  case isTrue active => simpa [active] using reserved
  case isFalse passive => simpa [passive] using reserved

theorem chunkCount_of_valid : task.resultChunkCount = if task.resultBytes =
    0 then 0 else chunkCount task.resultBytes := by
  simp only [validTask, Bool.and_eq_true] at valid
  have counted := valid.1.1.1.2
  split
  case isTrue empty => simpa using (by simpa [empty] using counted : _ ∧ _).1
  case isFalse filled => simpa using (by simpa [filled] using counted : _ ∧ _).1

theorem resultSha256_of_valid
    (empty : task.resultBytes = 0) : task.resultSha256 = [] := by
  simp only [validTask, Bool.and_eq_true] at valid
  have digest := valid.1.1.1.2
  simpa using (by simpa [empty] using digest : _ ∧ _).2

end

theorem chunkKeys_disjoint {first second : McpTaskRecord} {key : Text}
    (one : validTask first = true) (two : validTask second = true)
    (inFirst : key ∈ chunkKeys first) (inSecond : key ∈ chunkKeys second) :
    first.taskId = second.taskId := by
  obtain ⟨index, _, same⟩ := mem_chunkKeys.mp inFirst
  obtain ⟨other, _, equal⟩ := mem_chunkKeys.mp inSecond
  rw [← equal] at same
  exact (resultChunkKey_inj (isMcpTaskJobId_of_valid one)
    (isMcpTaskJobId_of_valid two) same).1

theorem task_unique (distinct : (tasks.map (·.taskId)).Nodup)
    {first second : McpTaskRecord} (one : first ∈ tasks) (two : second ∈ tasks)
    (same : first.taskId = second.taskId) : first = second :=
  inj_on_of_nodup_map distinct one two same

theorem HoldsResult.congr {others : ResultChunks} {value : platform.Json}
    (holds : HoldsResult task chunks value)
    (same : ∀ key ∈ chunkKeys task, others.get? key = chunks.get? key) :
    HoldsResult task others value where
  __ := holds
  chunks := by
    intro index inside
    rw [same _ (mem_chunkKeys.mpr ⟨index, inside, rfl⟩)]
    exact holds.chunks index inside

theorem held_empty (stored : Record Text platform.Json) :
    Held [] .empty stored where
  bounded := Nat.zero_le _
  valid := by
    intro task member
    cases member
  distinct := nodup_nil
  room := Nat.zero_le _
  keys := by simp
  results := by
    intro task member
    cases member

theorem retainedResultBytes_filter_le (tasks : List McpTaskRecord)
    (keep : McpTaskRecord → Bool) :
    retainedResultBytes (tasks.filter keep) ≤ retainedResultBytes tasks := by
  apply List.Sublist.sum_le_sum
  · exact filter_sublist.map _
  · intro bytes _
    exact Nat.zero_le bytes

theorem retainedResultBytes_perm (order : tasks.Perm others) :
    retainedResultBytes tasks = retainedResultBytes others := by
  exact List.Perm.sum_eq (order.map _)

@[simp] theorem retainedResultBytes_cons (task : McpTaskRecord)
    (tasks : List McpTaskRecord) : retainedResultBytes (task :: tasks) =
    task.resultBytes + task.reservedResultBytes +
    retainedResultBytes tasks := by
  simp [retainedResultBytes]

theorem Held.filter (held : Held tasks chunks stored)
    {keep remove : McpTaskRecord → Bool}
    (opposite : ∀ task, remove task = !keep task) : Held (tasks.filter keep)
    ((tasks.filter remove).foldl deleteTaskResult chunks) stored := by
  have kept : ∀ task ∈ tasks, keep task = true → ∀ key ∈ chunkKeys task,
      key ∉ (tasks.filter remove).flatMap chunkKeys := by
    intro task member keeps key listed again
    obtain ⟨other, removed, shared⟩ := mem_flatMap.mp again
    obtain ⟨inside, gone⟩ := List.mem_filter.mp removed
    have same := task_unique held.distinct member inside
      (chunkKeys_disjoint (held.valid task member) (held.valid other inside)
        listed shared)
    rw [← same, opposite, keeps] at gone
    cases gone
  rw [foldl_deleteTaskResult]
  constructor
  case bounded => exact Nat.le_trans (length_filter_le _ _) held.bounded
  case valid =>
    intro task member
    exact held.valid task (List.mem_filter.mp member).1
  case distinct => exact held.distinct.sublist (filter_sublist.map _)
  case room =>
    exact Nat.le_trans (retainedResultBytes_filter_le tasks keep) held.room
  case keys =>
    intro key
    rw [Record.contains_eq_isSome, Record.get?_deleteAll]
    constructor
    · intro present
      split at present
      case isTrue => cases present
      case isFalse left =>
        obtain ⟨task, member, listed⟩ := (held.keys key).mp
          ((Record.contains_eq_isSome chunks key).mpr present)
        refine ⟨task, List.mem_filter.mpr ⟨member, ?_⟩, listed⟩
        cases keeps : keep task with
        | true => rfl
        | false =>
          have gone : task ∈ tasks.filter remove := by
            simp [member, opposite, keeps]
          exact absurd (mem_flatMap.mpr ⟨task, gone, listed⟩) left
    · rintro ⟨task, member, listed⟩
      obtain ⟨inside, keeps⟩ := List.mem_filter.mp member
      rw [if_neg (kept task inside keeps key listed)]
      exact (Record.contains_eq_isSome chunks key).mp
        ((held.keys key).mpr ⟨task, inside, listed⟩)
  case results =>
    intro task member filled
    obtain ⟨inside, keeps⟩ := List.mem_filter.mp member
    obtain ⟨value, same, holds⟩ := held.results task inside filled
    refine ⟨value, same, holds.congr ?_⟩
    intro key listed
    rw [Record.get?_deleteAll, if_neg (kept task inside keeps key listed)]

theorem Held.validState (held : Held tasks chunks stored) :
    validState { tasks } = true := by
  have all : tasks.all validTask = true := all_eq_true.mpr held.valid
  simp [Tasks.validState, held.bounded, all, held.distinct, held.room]

theorem Held.append (held : Held tasks chunks stored) (space : tasks.length <
    maxMcpTasks) (valid : validTask task = true) (fresh : ∀ other ∈ tasks,
    other.taskId ≠ task.taskId) (empty : task.resultBytes = 0) (room :
    retainedResultBytes tasks + task.reservedResultBytes ≤
    maxMcpTaskResultBytesTotal) : Held (tasks ++ [task]) chunks stored where
  bounded := by
    rw [length_append]
    exact space
  valid := by
    intro other member
    rcases mem_append.mp member with old | new
    · exact held.valid other old
    · rw [mem_singleton.mp new]
      exact valid
  distinct := by
    rw [map_append, nodup_append]
    refine ⟨held.distinct, nodup_singleton _, ?_⟩
    intro taskId old other new
    obtain ⟨earlier, inside, same⟩ := List.mem_map.mp old
    rw [← same, mem_singleton.mp new]
    exact fresh earlier inside
  room := by simpa [retainedResultBytes, empty] using room
  keys := by
    have none : ∀ key, key ∉ chunkKeys task := by
      simp [chunkKeys, chunkCount_of_valid valid, empty]
    intro key
    rw [held.keys key]
    constructor
    · rintro ⟨other, member, listed⟩
      exact ⟨other, mem_append_left _ member, listed⟩
    · rintro ⟨other, member, listed⟩
      rcases mem_append.mp member with old | new
      · exact ⟨other, old, listed⟩
      · rw [mem_singleton.mp new] at listed
        exact absurd listed (none key)
  results := by
    intro other member filled
    rcases mem_append.mp member with old | new
    · exact held.results other old filled
    · rw [mem_singleton.mp new] at filled
      exact absurd empty filled

theorem Held.perm (held : Held tasks chunks stored)
    (order : tasks.Perm others) : Held others chunks stored where
  bounded := order.length_eq ▸ held.bounded
  valid := by
    intro task member
    exact held.valid task (order.mem_iff.mpr member)
  distinct := (order.map (·.taskId)).nodup_iff.mp held.distinct
  room := retainedResultBytes_perm order ▸ held.room
  keys := by
    intro key
    simp only [held.keys key, order.mem_iff]
  results := by
    intro task member
    exact held.results task (order.mem_iff.mpr member)

theorem Held.replace {previous next : McpTaskRecord}
    {later : Record Text platform.Json}
    (held : Held (previous :: others) chunks stored)
    (empty : previous.resultBytes = 0) (same : next.taskId = previous.taskId)
    (valid : validTask next = true)
    (room : retainedResultBytes (next :: others) ≤ maxMcpTaskResultBytesTotal)
    {puts : List (Text × Text)} (complete : puts.map Prod.fst = chunkKeys next)
    (result : next.resultBytes ≠ 0 → ∃ value,
      later.get? next.taskId = some value ∧
      HoldsResult next (chunks.setAll puts) value) (unchanged : ∀ taskId,
      taskId ≠ next.taskId → later.get? taskId = stored.get? taskId) :
    Held (next :: others) (chunks.setAll puts) later := by
  have apart : ∀ task ∈ others, task.taskId ≠ next.taskId := by
    intro task member equal
    have distinct := held.distinct
    rw [map_cons, nodup_cons, ← same, ← equal] at distinct
    exact distinct.1 (mem_map_of_mem member)
  have others_valid : ∀ task ∈ others, validTask task = true := by
    intro task member
    exact held.valid task (mem_cons_of_mem _ member)
  constructor
  case bounded => exact held.bounded
  case valid =>
    intro task member
    rcases mem_cons.mp member with rfl | old
    · exact valid
    · exact others_valid task old
  case distinct =>
    rw [map_cons, same]
    exact held.distinct
  case room => exact room
  case keys =>
    have none : chunkKeys previous = [] := by
      have count := chunkCount_of_valid (held.valid previous mem_cons_self)
      rw [if_pos empty] at count
      simp [chunkKeys, count]
    intro key
    rw [Record.mem_keys_setAll, complete, held.keys key]
    simp [none]
  case results =>
    intro task member filled
    rcases mem_cons.mp member with rfl | old
    · exact result filled
    · obtain ⟨value, found, holds⟩ := held.results task
        (mem_cons_of_mem _ old) filled
      refine ⟨value, ?_, holds.congr ?_⟩
      · rw [unchanged task.taskId (apart task old), found]
      · intro key listed
        apply Record.get?_setAll_of_not_mem
        rw [complete]
        intro again
        exact apart task old
          (chunkKeys_disjoint (others_valid task old) valid listed again)

end Invariant

end MachineBridge.Tasks
