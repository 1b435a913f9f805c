import MachineBridge.Tasks.Retention

/-!
# Runs of the task store

Every operation keeps the invariant of what is retained, so it holds after any
sequence of operations.
-/

namespace MachineBridge.Tasks

open Foundation Authority List

inductive TaskOperation (platform : ResultPlatform) where
  | create (taskId : Text) (authorized : AuthorizedToken) (now : Nat)
  | get (taskId : Text) (authorized : AuthorizedToken) (now : Nat)
  | getResult (taskId : Text) (authorized : AuthorizedToken) (now : Nat)
  | updateStatus (taskId : Text) (authorized : AuthorizedToken)
      (status : McpTaskStatus) (statusMessage : Text)
      (result : TaskResult platform.Json) (now : Nat)
  | cancelAuthority (revocation : AuthorityRevocation)

/-- An operation, and whether its transaction commits. -/
structure TaskCall (platform : ResultPlatform) where
  operation : TaskOperation platform
  commits : Bool := true

variable {platform : ResultPlatform}

def TaskOperation.after (storage : TaskStorage) :
    TaskOperation platform → Except TaskFailure TaskStorage
  | .create taskId authorized now =>
    (McpTaskStore.create taskId authorized now storage).map Prod.snd
  | .get taskId authorized now =>
    (McpTaskStore.get taskId authorized now storage).map Prod.snd
  | .getResult taskId authorized now =>
    (McpTaskStore.getResult platform taskId authorized now storage).map Prod.snd
  | .updateStatus taskId authorized status statusMessage result now =>
    (McpTaskStore.updateStatus platform taskId authorized status
      statusMessage result now storage).map Prod.snd
  | .cancelAuthority revocation =>
    (McpTaskStore.cancelAuthority revocation storage).map Prod.snd

def completes (before after : TaskStorage) (taskId : Text) : Bool :=
  (before.tasks.any fun task =>
      task.taskId == taskId && task.status.active) &&
    after.tasks.any fun task =>
      task.taskId == taskId && task.status == .completed &&
        task.resultChunkCount != 0

/-- The storage, and for each task the value of the update which completed
it. -/
structure TaskLedger (platform : ResultPlatform) where
  storage : TaskStorage := {}
  stored : Record Text platform.Json := .empty

namespace TaskLedger

section

variable (ledger : TaskLedger platform)

def recorded (next : TaskStorage) :
    TaskOperation platform → Record Text platform.Json
  | .updateStatus taskId _ _ _ (.json value) _ =>
    if completes ledger.storage next taskId then
      ledger.stored.set taskId value
    else ledger.stored
  | _ => ledger.stored

def step (call : TaskCall platform) : TaskLedger platform :=
  match call.operation.after ledger.storage with
  | .error _ => ledger
  | .ok next =>
    if call.commits then
      { storage := next, stored := ledger.recorded next call.operation }
    else ledger

end

end TaskLedger

section

variable (tasks : List McpTaskRecord)

def storageOf (chunks : ResultChunks) : TaskStorage where
  state := stateOf tasks
  chunks

@[simp] theorem tasks_storageOf (chunks : ResultChunks) :
    (storageOf tasks chunks).tasks = tasks := by
  cases tasks <;> rfl

end

/-- The storage of a ledger is written from its tasks, and they are held. -/
structure Sound (ledger : TaskLedger platform) : Prop where
  written : ledger.storage =
    storageOf ledger.storage.tasks ledger.storage.chunks
  held : Held ledger.storage.tasks ledger.storage.chunks ledger.stored

variable {chunks : ResultChunks} {tasks : List McpTaskRecord}
  {ledger : TaskLedger platform} {answer : Option McpTaskRecord}
  {authorized : AuthorizedToken} {next storage : TaskStorage} {now : Nat}
  {taskId statusMessage : Text} {transaction : Transaction}
  {result : TaskResult platform.Json} {status : McpTaskStatus}
  {task previous : McpTaskRecord} {value : platform.Json}
  {stored : Option (List UInt8)} {operation : TaskOperation platform}

theorem sound_storageOf {stored : Record Text platform.Json}
    (held : Held tasks chunks stored) :
    Sound { storage := storageOf tasks chunks, stored } where
  written := by rw [tasks_storageOf]; rfl
  held := by rw [tasks_storageOf]; exact held

theorem readState_of_sound (sound : Sound ledger) :
    readState ledger.storage = .ok ledger.storage.tasks := by
  have state : ledger.storage.state = stateOf ledger.storage.tasks :=
    congrArg TaskStorage.state sound.written
  rw [readState, state, stateOf]
  by_cases none : ledger.storage.tasks.isEmpty = true
  · rw [if_pos none, List.isEmpty_iff.mp none]
  · rw [if_neg none]
    exact if_pos sound.held.validState

/-- What an operation with a time finds after it removed the expired tasks. -/
structure Opened (ledger : TaskLedger platform) (now : Nat)
    (transaction : Transaction) : Prop where
  opened : openTransaction ledger.storage now = .ok transaction
  tasks : transaction.tasks =
    ledger.storage.tasks.filter fun task => now < task.expiresAt
  held : Held transaction.tasks transaction.chunks ledger.stored
  closed : transaction.close = storageOf transaction.tasks transaction.chunks

theorem open_of_sound (sound : Sound ledger) (now : Nat) :
    ∃ transaction, Opened ledger now transaction := by
  have opposite : ∀ task : McpTaskRecord,
      decide (task.expiresAt ≤ now) = !decide (now < task.expiresAt) := by
    intro task
    by_cases live : now < task.expiresAt
    · simp [live, Nat.not_le.mpr live]
    · simp [live, Nat.not_lt.mp live]
  have held := sound.held.filter opposite
  refine ⟨⟨ledger.storage.tasks.length, ledger.storage.state, _, _⟩, ?_, rfl,
    held, ?_⟩
  · rw [openTransaction, readState_of_sound sound]
    rfl
  · simp only [Transaction.close]
    split
    case isTrue => rfl
    case isFalse same =>
      have all := filter_eq_self.mpr
        (length_filter_eq_length_iff.mp (not_not.mp same).symm)
      have state : ledger.storage.state = stateOf ledger.storage.tasks :=
        congrArg TaskStorage.state sound.written
      rw [storageOf, all, state]

section

variable (opened : openTransaction storage now = .ok transaction)
include opened

theorem create_cases
    (made : McpTaskStore.create taskId authorized now storage = .ok (answer,
    next)) : next = storage ∨ next = transaction.close ∨ ∃ task, task =
    makeTask taskId authorized now (now + mcpTaskTtlMs) ∧ next =
    transaction.write (transaction.tasks ++ [task]) ∧ isMcpTaskJobId taskId =
    true ∧ validTimestamp now = true ∧ (∀ other ∈ transaction.tasks,
    other.taskId ≠ taskId) ∧ transaction.tasks.length < maxMcpTasks ∧
    retainedResultBytes transaction.tasks + maxMcpTaskResultBytes ≤
    maxMcpTaskResultBytesTotal := by
  simp only [McpTaskStore.create] at made
  split at made
  case isTrue =>
    cases made
    exact .inl rfl
  case isFalse valid =>
    simp only [opened] at made
    split at made
    case h_1 =>
      cases made
      exact .inr (.inl rfl)
    case h_2 fresh =>
      split at made
      case isTrue =>
        cases made
        exact .inr (.inl rfl)
      case isFalse space =>
        split at made
        case isTrue =>
          cases made
          exact .inr (.inl rfl)
        case isFalse room =>
          cases date : toIsoString now with
          | error failure =>
            rw [date] at made
            cases made
          | ok createdAt =>
            rw [date] at made
            simp only [toIsoString] at date
            split at date
            case isFalse => cases date
            case isTrue valid_date =>
              cases date
              simp only at made
              split at made
              case isTrue =>
                cases made
                exact .inr (.inl rfl)
              case isFalse =>
                cases made
                refine .inr (.inr ⟨_, rfl, rfl, by simpa using valid,
                  valid_date, ?_, by omega, by omega⟩)
                intro other member
                simpa using find?_eq_none.mp fresh other member

theorem get_cases
    (got : McpTaskStore.get taskId authorized now storage = .ok (answer, next))
    : next = transaction.close := by
  simp only [McpTaskStore.get, opened] at got
  cases got
  rfl

end

theorem getResult_cases {answer : Option platform.Json}
    (opened : openTransaction storage now = .ok transaction) (got :
    McpTaskStore.getResult platform taskId authorized now storage = .ok
    (answer, next)) : next = transaction.close ∧ ∀ value, answer = some value →
    ∃ task, transaction.tasks.find? (ownsTask taskId authorized) = some task ∧
    task.status = .completed ∧ task.resultChunkCount ≠ 0 ∧ readResult platform
    transaction.chunks task = .ok value := by
  simp only [McpTaskStore.getResult, opened] at got
  split at got
  case h_1 =>
    cases got
    refine ⟨rfl, ?_⟩
    intro value impossible
    cases impossible
  case h_2 task found =>
    split at got
    case isTrue =>
      cases got
      refine ⟨rfl, ?_⟩
      intro value impossible
      cases impossible
    case isFalse complete =>
      split at got
      case h_1 => cases got
      case h_2 value read =>
        cases got
        refine ⟨rfl, ?_⟩
        intro other same
        cases same
        simp only [Bool.or_eq_true, decide_eq_true_eq, not_or,
          not_not] at complete
        exact ⟨task, found, complete.1, complete.2, read⟩

def Changeable (previous : McpTaskRecord) (status : McpTaskStatus) : Prop :=
  previous.status.active = true ∨
    previous.status = .completed ∧ previous.resultChunkCount = 0 ∧
      status = .failed

theorem updateStatus_cases
    (opened : openTransaction storage now = .ok transaction) (updated :
    McpTaskStore.updateStatus platform taskId authorized status statusMessage
    result now storage = .ok (answer, next)) : next = transaction.close ∨ ∃
    previous stored task, transaction.tasks.find? (ownsTask taskId authorized)
    = some previous ∧ Changeable previous status ∧ validTimestamp now = true ∧
    storedResult platform transaction previous status result = stored ∧ task =
    updatedTask previous (resultMetadata platform previous status stored)
    status (statusMessage.take 512) now ∧ next = storageOf
    (transaction.tasks.set (transaction.tasks.findIdx (ownsTask taskId
    authorized)) task) (putResult transaction.chunks taskId stored) := by
  simp only [McpTaskStore.updateStatus, opened] at updated
  split at updated
  case h_1 =>
    cases updated
    exact .inl rfl
  case h_2 previous found =>
    split at updated
    case isTrue =>
      cases updated
      exact .inl rfl
    case isFalse changeable =>
      split at updated
      case isTrue =>
        cases updated
        exact .inl rfl
      case isFalse =>
        cases date : toIsoString now with
        | error failure =>
          rw [date] at updated
          cases updated
        | ok lastUpdatedAt =>
          rw [date] at updated
          simp only [toIsoString] at date
          split at date
          case isFalse => cases date
          case isTrue valid =>
            cases date
            cases updated
            refine .inr ⟨previous, _, _, found, ?_, valid, rfl, rfl, rfl⟩
            cases active : previous.status.active with
            | true => exact .inl active
            | false => exact .inr (by simpa [active] using changeable)

theorem cancelAuthority_cases (sound : Sound ledger)
    {revocation : AuthorityRevocation} {removed : Nat} (cancelled :
    McpTaskStore.cancelAuthority revocation ledger.storage = .ok (removed,
    next)) : next = ledger.storage ∨ next = storageOf
    (ledger.storage.tasks.filter fun task => !revokes revocation task)
    ((ledger.storage.tasks.filter (revokes revocation)).foldl deleteTaskResult
    ledger.storage.chunks) := by
  simp only [McpTaskStore.cancelAuthority, readState_of_sound sound]
    at cancelled
  split at cancelled
  case isTrue =>
    cases cancelled
    exact .inl rfl
  case isFalse =>
    cases cancelled
    exact .inr rfl

theorem mapM_of_ok {α β : Type} {read : α → Except TaskFailure β}
    {value : α → β} {items : List α}
    (each : ∀ item ∈ items, read item = .ok (value item)) :
    items.mapM read = .ok (items.map value) := by
  induction items with
  | nil => rfl
  | cons item items induction =>
    have first := each item mem_cons_self
    have rest := induction fun other member =>
      each other (mem_cons_of_mem _ member)
    rw [mapM_cons, first, rest]
    rfl

theorem readChunk_of_stored {key : Text} {bytes : List UInt8}
    (found : chunks.get? key = some (encodeBase64 bytes)) :
    readChunk chunks key = .ok bytes := by
  simp only [readChunk, found, decodeBase64, encodeBase64, atob_btoa]

theorem readResult_of_holds (valid : validTask task = true)
    (filled : task.resultBytes ≠ 0) (holds : HoldsResult task chunks value) :
    readResult platform chunks task =
    if platform.isObject value then .ok value else .error .shapeInvalid := by
  have counted : task.resultChunkCount =
      chunkCount (platform.stringify value).length := by
    rw [chunkCount_of_valid valid, if_neg filled, holds.bytes]
  have parts : (chunkKeys task).mapM (readChunk chunks) = .ok ((List.range
      task.resultChunkCount).map (chunkOf (platform.stringify value))) := by
    rw [chunkKeys, mapM_map]
    apply mapM_of_ok
    intro index member
    exact readChunk_of_stored (holds.chunks index (mem_range.mp member))
  have whole : ((List.range task.resultChunkCount).map (chunkOf
      (platform.stringify value))).flatten = platform.stringify value := by
    rw [counted]
    exact chunks_complete _
  simp only [readResult, parts, concatenate, whole, holds.bytes, holds.digest,
    platform.parse_stringify, ↓reduceIte, ne_eq, not_true_eq_false]

/-- What an update puts under chunk keys. -/
def puts (taskId : Text) : Option (List UInt8) → List (Text × Text)
  | none => []
  | some bytes => chunkEntries taskId bytes

theorem putResult_eq (chunks : ResultChunks) (taskId : Text)
    (stored : Option (List UInt8)) :
    putResult chunks taskId stored = chunks.setAll (puts taskId stored) := by
  cases stored <;> rfl

theorem keys_chunkEntries (taskId : Text) (bytes : List UInt8) :
    (chunkEntries taskId bytes).map Prod.fst =
    (List.range (chunkCount bytes.length)).map (resultChunkKey taskId) := by
  simp [chunkEntries, Function.comp_def]

theorem storedResult_eq_some {bytes : List UInt8} (kept : storedResult platform
    transaction previous status result = some bytes) : ∃ value, result = .json
    value ∧ bytes = platform.stringify value ∧ status = .completed ∧
    bytes.length ≤ maxMcpTaskResultBytes ∧ retainedResultBytes
    transaction.tasks - previous.resultBytes - previous.reservedResultBytes +
    bytes.length ≤ maxMcpTaskResultBytesTotal := by
  cases result with
  | absent => cases kept
  | unserializable => cases kept
  | json value =>
    simp only [storedResult] at kept
    split at kept
    case isTrue fit =>
      cases kept
      exact ⟨value, rfl, rfl, fit⟩
    case isFalse => cases kept

theorem resultBytes_of_changeable {stored : Record Text platform.Json}
    (held : Held tasks chunks stored) (member : previous ∈ tasks)
    (changeable : Changeable previous status) : previous.resultBytes = 0 := by
  apply Decidable.byContradiction
  intro filled
  rcases changeable with active | ⟨_, none, _⟩
  · obtain ⟨value, _, holds⟩ := held.results previous member filled
    rw [holds.completed] at active
    cases active
  · have counted := chunkCount_of_valid (held.valid previous member)
    rw [if_neg filled, none] at counted
    have positive := chunkCount_pos (Nat.pos_of_ne_zero filled)
    omega

theorem active_of_changeable (changeable : Changeable previous status)
    (other : status ≠ .failed) : previous.status.active = true := by
  rcases changeable with active | ⟨_, _, failed⟩
  · exact active
  · exact absurd failed other

theorem validTask_makeTask (id : isMcpTaskJobId taskId = true)
    (date : validTimestamp now = true) :
    validTask (makeTask taskId authorized now (now + mcpTaskTtlMs)) =
    true := by
  have bound : now ≤ 8640000000000000 := by simpa [validTimestamp] using date
  have expiry : now + mcpTaskTtlMs ≤ maxSafeInteger := by
    simp only [mcpTaskTtlMs, maxSafeInteger]
    omega
  have later : 0 < now + mcpTaskTtlMs := by
    simp only [mcpTaskTtlMs]
    omega
  have message : (text "Accepted for execution.").length ≤ 512 := by decide
  have room : maxMcpTaskResultBytes ≤ maxSafeInteger := by decide
  simp [validTask, makeTask, id, date, expiry, later, message, room,
    McpTaskStatus.active, authorized.accountId_nonempty,
    authorized.accountVersion_positive, authorized.accountVersion_safe,
    authorized.clientId_nonempty, authorized.familyId_nonempty,
    authorized.role_nonempty]

theorem validTask_updatedTask {metadata : ResultMetadata}
    (valid : validTask previous = true) (message : statusMessage.length ≤ 512)
    (date : validTimestamp now = true)
    (bytes : metadata.resultBytes ≤ maxMcpTaskResultBytes) (reserved :
    metadata.reservedResultBytes = if status.active then maxMcpTaskResultBytes
    else 0) (result : if metadata.resultBytes = 0 then
    metadata.resultChunkCount = 0 ∧ metadata.resultSha256 = [] else
    metadata.resultChunkCount = chunkCount metadata.resultBytes ∧ fits isHex 64
    64 metadata.resultSha256 = true) : validTask
    (updatedTask previous metadata status statusMessage now) = true := by
  simp only [validTask, Bool.and_eq_true] at valid ⊢
  obtain ⟨⟨⟨⟨⟨⟨⟨⟨⟨⟨⟨id, -⟩, created⟩, expiry⟩, -⟩, -⟩, -⟩, -⟩, -⟩, owner⟩,
    version⟩, rest⟩ := valid
  have room : maxMcpTaskResultBytes ≤ maxSafeInteger := by decide
  have counted : metadata.resultChunkCount ≤ maxSafeInteger := by
    have most : chunkCount metadata.resultBytes ≤ maxSafeInteger := by
      have division := Nat.div_le_self
        (metadata.resultBytes + (resultChunkBytes - 1)) resultChunkBytes
      have chunk : resultChunkBytes ≤ maxMcpTaskResultBytes := by decide
      have double : maxMcpTaskResultBytes + maxMcpTaskResultBytes ≤
          maxSafeInteger := by decide
      simp only [chunkCount]
      omega
    split at result
    case isTrue => omega
    case isFalse => omega
  refine ⟨⟨⟨⟨⟨⟨⟨⟨⟨⟨⟨id, ?_⟩, ⟨created.1, date⟩⟩, expiry⟩, ?_⟩, ?_⟩, ?_⟩, ?_⟩,
    ?_⟩, owner⟩, version⟩, rest⟩
  · exact decide_eq_true message
  · exact isSafeInteger_iff.mpr counted
  · refine ⟨isSafeInteger_iff.mpr (Nat.le_trans bytes room), ?_⟩
    exact decide_eq_true bytes
  · simp only [updatedTask, reserved]
    split
    case isTrue => simp [room]
    case isFalse => simp
  · simp only [updatedTask, reserved]
    split
    case isTrue => simp
    case isFalse => simp
  · simp only [updatedTask]
    split at result
    case isTrue empty => simp [empty, result.1, result.2]
    case isFalse filled => simp [filled, result.1, result.2]

theorem sound_start : Sound ({} : TaskLedger platform) where
  written := rfl
  held := held_empty _

section

variable (opened : Opened ledger now transaction)
include opened

theorem Opened.sound :
    Sound { storage := transaction.close, stored := ledger.stored } := by
  rw [opened.closed]
  exact sound_storageOf opened.held

theorem sound_create
    (id : isMcpTaskJobId taskId = true) (date : validTimestamp now = true)
    (fresh : ∀ other ∈ transaction.tasks, other.taskId ≠ taskId)
    (space : transaction.tasks.length < maxMcpTasks)
    (room : retainedResultBytes transaction.tasks + maxMcpTaskResultBytes ≤
      maxMcpTaskResultBytesTotal) :
    Sound
      { storage := transaction.write (transaction.tasks ++
          [makeTask taskId authorized now (now + mcpTaskTtlMs)])
        stored := ledger.stored } :=
  sound_storageOf (opened.held.append space (validTask_makeTask id date) fresh
    rfl room)

end

theorem set_findIdx {found : McpTaskRecord → Bool}
    (first : tasks.find? found = some previous) (next : McpTaskRecord) :
    ∃ others, tasks.Perm (previous :: others) ∧
    (tasks.set (tasks.findIdx found) next).Perm (next :: others) := by
  obtain ⟨holds, before, after, rfl, earlier⟩ :=
    find?_eq_some_iff_append.mp first
  have none : before.findIdx found = before.length :=
    findIdx_eq_length.mpr (by simpa using earlier)
  have index :
      (before ++ previous :: after).findIdx found = before.length := by
    rw [findIdx_append, none, if_neg (Nat.lt_irrefl _), findIdx_cons, holds]
    simp
  refine ⟨before ++ after, perm_middle, ?_⟩
  rw [index, set_append_right _ _ (Nat.le_refl _), Nat.sub_self, set_cons_zero]
  exact perm_middle

theorem get?_recorded_of_ne {other : Text} (apart : other ≠ taskId) :
    (ledger.recorded next (.updateStatus taskId authorized status statusMessage
    result now)).get? other = ledger.stored.get? other := by
  cases result with
  | absent => rfl
  | unserializable => rfl
  | json value =>
    simp only [TaskLedger.recorded]
    split
    case isTrue => rw [Record.get?_set, if_neg apart]
    case isFalse => rfl

theorem holdsResult_updated (valid : isMcpTaskJobId previous.taskId = true)
    (completed : status = .completed) : HoldsResult (updatedTask previous
    (resultMetadata platform previous status (some (platform.stringify value)))
    status statusMessage now) (transaction.chunks.setAll (chunkEntries
    previous.taskId (platform.stringify value))) value where
  completed := completed
  bytes := rfl
  digest := rfl
  chunks := by
    intro index inside
    apply Record.get?_setAll_of_mem
    · rw [keys_chunkEntries]
      exact nodup_resultChunkKeys valid _
    · exact List.mem_map.mpr ⟨index, mem_range.mpr inside, rfl⟩

section

variable (valid : validTask previous = true)
include valid

theorem resultMetadata_none (empty : previous.resultBytes = 0) :
    (resultMetadata platform previous status none).resultBytes = 0 ∧
    (resultMetadata platform previous status none).resultChunkCount = 0 ∧
    (resultMetadata platform previous status none).resultSha256 = [] := by
  have counted := chunkCount_of_valid valid
  rw [if_pos empty] at counted
  simp only [resultMetadata]
  split
  case isTrue => exact ⟨empty, counted, resultSha256_of_valid valid empty⟩
  case isFalse => exact ⟨rfl, rfl, rfl⟩

theorem resultMetadata_reserved (changeable : Changeable previous status)
    (finished : stored.isSome = true → status = .completed) :
    (resultMetadata platform previous status stored).reservedResultBytes =
    if status.active then maxMcpTaskResultBytes else 0 := by
  cases stored with
  | some bytes => rw [finished rfl]; rfl
  | none =>
    simp only [resultMetadata]
    split
    case isTrue active =>
      have other : status ≠ .failed := by
        intro failed
        rw [failed] at active
        cases active
      rw [reserved_of_valid valid,
        if_pos (active_of_changeable changeable other)]
    case isFalse => rfl

theorem validTask_update
    (empty : previous.resultBytes = 0) (changeable : Changeable previous
    status) (date : validTimestamp now = true) (kept : storedResult platform
    transaction previous status result = stored) : validTask (updatedTask
    previous (resultMetadata platform previous status stored) status
    (statusMessage.take 512) now) = true := by
  have message : (statusMessage.take 512).length ≤ 512 := length_take_le _ _
  have finished : stored.isSome = true → status = .completed := by
    intro some
    obtain ⟨bytes, rfl⟩ := Option.isSome_iff_exists.mp some
    obtain ⟨_, _, _, completed, _, _⟩ := storedResult_eq_some kept
    exact completed
  have reserved :
      (resultMetadata platform previous status stored).reservedResultBytes =
      _ :=
    resultMetadata_reserved valid changeable finished
  cases stored with
  | none =>
    obtain ⟨bytes, counted, digest⟩ :
        (resultMetadata platform previous status none).resultBytes = 0 ∧
          _ := resultMetadata_none valid empty
    apply validTask_updatedTask valid message date _ reserved
    · rw [if_pos bytes]
      exact ⟨counted, digest⟩
    · rw [bytes]
      exact Nat.zero_le _
  | some bytes =>
    obtain ⟨value, _, same, _, fit, _⟩ := storedResult_eq_some kept
    apply validTask_updatedTask valid message date fit reserved
    split
    case isTrue none =>
      have nonempty := platform.stringify_nonempty value
      rw [← same] at nonempty
      exact absurd (length_eq_zero_iff.mp none) nonempty
    case isFalse => exact ⟨rfl, (platform.sha256 bytes).property⟩

end

theorem room_update {others : List McpTaskRecord} (valid : validTask previous =
    true) (empty : previous.resultBytes = 0) (order : transaction.tasks.Perm
    (previous :: others)) (room : retainedResultBytes transaction.tasks ≤
    maxMcpTaskResultBytesTotal) (kept : storedResult platform transaction
    previous status result = stored) : retainedResultBytes (updatedTask
    previous (resultMetadata platform previous status stored) status
    statusMessage now :: others) ≤ maxMcpTaskResultBytesTotal := by
  rw [retainedResultBytes_perm order, retainedResultBytes_cons] at room
  rw [retainedResultBytes_cons]
  cases stored with
  | some bytes =>
    obtain ⟨_, _, _, _, _, total⟩ := storedResult_eq_some kept
    rw [retainedResultBytes_perm order, retainedResultBytes_cons] at total
    simp only [updatedTask, resultMetadata]
    omega
  | none =>
    have bytes : (resultMetadata platform previous status
        none).resultBytes = 0 := (resultMetadata_none valid empty).1
    have reserved :
        (resultMetadata platform previous status none).reservedResultBytes ≤
        previous.reservedResultBytes := by
      simp only [resultMetadata]
      split
      case isTrue => exact Nat.le_refl _
      case isFalse => exact Nat.zero_le _
    simp only [updatedTask, bytes]
    omega

theorem keys_puts (valid : validTask previous = true)
    (empty : previous.resultBytes = 0) : (puts previous.taskId stored).map
    Prod.fst = chunkKeys (updatedTask previous (resultMetadata platform
    previous status stored) status statusMessage now) := by
  cases stored with
  | some bytes => exact keys_chunkEntries previous.taskId bytes
  | none =>
    have counted : (resultMetadata platform previous status
        none).resultChunkCount = 0 := (resultMetadata_none valid empty).2.1
    simp [puts, chunkKeys, updatedTask, counted]

theorem recorded_of_completed (before : previous ∈ ledger.storage.tasks)
    (active : previous.status.active = true) (after : task ∈ next.tasks)
    (same : task.taskId = previous.taskId) (completed : task.status =
    .completed) (counted : task.resultChunkCount ≠ 0) : (ledger.recorded next
    (.updateStatus previous.taskId authorized status statusMessage (.json
    value) now)).get? previous.taskId = some value := by
  have changes : completes ledger.storage next previous.taskId = true := by
    rw [completes, Bool.and_eq_true, any_eq_true, any_eq_true]
    refine ⟨⟨previous, before, ?_⟩, ⟨task, after, ?_⟩⟩
    · simp [active]
    · simp [same, completed, counted]
  simp [TaskLedger.recorded, changes]

theorem sound_update (opened : Opened ledger now transaction)
    (found : transaction.tasks.find? (ownsTask taskId authorized) =
      some previous) (changeable : Changeable previous status)
    (date : validTimestamp now = true)
    (kept : storedResult platform transaction previous status result = stored)
    (updated : task = updatedTask previous
      (resultMetadata platform previous status stored) status
      (statusMessage.take 512) now)
    (written : next = storageOf
      (transaction.tasks.set
        (transaction.tasks.findIdx (ownsTask taskId authorized)) task)
      (putResult transaction.chunks taskId stored)) :
    Sound
      { storage := next
        stored := ledger.recorded next (.updateStatus taskId authorized status
          statusMessage result now) } := by
  have member := mem_of_find?_eq_some found
  have valid := opened.held.valid previous member
  have empty := resultBytes_of_changeable opened.held member changeable
  have same : previous.taskId = taskId := by
    have owns := find?_some found
    simp only [ownsTask, Bool.and_eq_true, beq_iff_eq] at owns
    exact owns.1
  obtain ⟨others, order, replaced⟩ := set_findIdx found task
  have before : previous ∈ ledger.storage.tasks := by
    rw [opened.tasks] at member
    exact (List.mem_filter.mp member).1
  have after : task ∈ next.tasks := by
    rw [written, tasks_storageOf]
    exact replaced.mem_iff.mpr mem_cons_self
  have id : task.taskId = previous.taskId := by
    rw [updated]
    rfl
  have result : task.resultBytes ≠ 0 → ∃ value, (ledger.recorded next
      (.updateStatus taskId authorized status statusMessage result now)).get?
      task.taskId = some value ∧ HoldsResult task (transaction.chunks.setAll
      (puts previous.taskId stored)) value := by
    intro filled
    cases stored with
    | none =>
      have none : (resultMetadata platform previous status
          none).resultBytes = 0 := (resultMetadata_none valid empty).1
      rw [updated] at filled
      exact absurd none filled
    | some bytes =>
      obtain ⟨value, rfl, rfl, completed, _, _⟩ := storedResult_eq_some kept
      have active := active_of_changeable changeable
        (by rw [completed]; decide)
      have nonempty := length_pos_iff.mpr
        (platform.stringify_nonempty value)
      have counted : task.resultChunkCount ≠ 0 := by
        rw [updated]
        exact Nat.ne_of_gt (chunkCount_pos nonempty)
      have finished : task.status = .completed := by
        rw [updated]
        exact completed
      refine ⟨value, ?_, ?_⟩
      · rw [id, ← same]
        exact recorded_of_completed before active after id finished counted
      · rw [updated]
        exact holdsResult_updated (isMcpTaskJobId_of_valid valid) completed
  have held := (opened.held.perm order).replace empty id
    (updated ▸ validTask_update valid empty changeable date kept)
    (updated ▸ room_update valid empty order opened.held.room kept)
    (updated ▸ keys_puts valid empty) result (by
      intro other apart
      apply get?_recorded_of_ne
      rw [← same, ← id]
      exact apart)
  rw [same, ← putResult_eq] at held
  have sound := sound_storageOf (held.perm replaced.symm)
  rw [← written] at sound
  exact sound

theorem exists_of_map_snd {Answer : Type} {outcome : Outcome Answer}
    (done : outcome.map Prod.snd = .ok next) :
    ∃ answer, outcome = .ok (answer, next) := by
  cases outcome with
  | error failure => cases done
  | ok result =>
    cases done
    exact ⟨result.1, rfl⟩

theorem completes_eq_false {before after : TaskStorage}
    (distinct : (before.tasks.map (·.taskId)).Nodup)
    (subset : ∀ task ∈ after.tasks, task ∈ before.tasks) :
    completes before after taskId = false := by
  apply Bool.eq_false_iff.mpr
  intro changes
  rw [completes, Bool.and_eq_true, any_eq_true, any_eq_true] at changes
  obtain ⟨⟨task, old, first⟩, other, new, second⟩ := changes
  simp only [Bool.and_eq_true, beq_iff_eq] at first second
  have same := task_unique distinct old (subset other new)
    (by rw [first.1, second.1.1])
  rw [same, second.1.2] at first
  cases first.2

theorem Opened.subset (opened : Opened ledger now transaction) :
    ∀ task ∈ transaction.close.tasks, task ∈ ledger.storage.tasks := by
  intro task member
  rw [opened.closed, tasks_storageOf, opened.tasks] at member
  exact (List.mem_filter.mp member).1

theorem recorded_of_closed (sound : Sound ledger)
    (opened : Opened ledger now transaction) : ledger.recorded
    transaction.close
    (.updateStatus taskId authorized status statusMessage result now) =
    ledger.stored := by
  cases result with
  | absent => rfl
  | unserializable => rfl
  | json value =>
    simp [TaskLedger.recorded,
      completes_eq_false sound.held.distinct opened.subset]

theorem sound_after (sound : Sound ledger)
    (done : operation.after ledger.storage = .ok next) :
    Sound { storage := next, stored := ledger.recorded next operation } := by
  cases operation with
  | create taskId authorized now =>
    obtain ⟨transaction, opened⟩ := open_of_sound sound now
    obtain ⟨answer, made⟩ := exists_of_map_snd done
    obtain same | closed | ⟨task, rfl, written, id, date, fresh, space,
      room⟩ := create_cases opened.opened made
    · rw [same]
      exact sound
    · rw [closed]
      exact opened.sound
    · rw [written]
      exact sound_create opened id date fresh space room
  | get taskId authorized now =>
    obtain ⟨transaction, opened⟩ := open_of_sound sound now
    obtain ⟨answer, got⟩ := exists_of_map_snd done
    rw [get_cases opened.opened got]
    exact opened.sound
  | getResult taskId authorized now =>
    obtain ⟨transaction, opened⟩ := open_of_sound sound now
    obtain ⟨answer, got⟩ := exists_of_map_snd done
    rw [(getResult_cases opened.opened got).1]
    exact opened.sound
  | updateStatus taskId authorized status statusMessage result now =>
    obtain ⟨transaction, opened⟩ := open_of_sound sound now
    obtain ⟨answer, done⟩ := exists_of_map_snd done
    obtain closed | ⟨previous, stored, task, found, changeable, date, kept,
      updated, written⟩ := updateStatus_cases opened.opened done
    · rw [closed, recorded_of_closed sound opened]
      exact opened.sound
    · exact sound_update opened found changeable date kept updated written
  | cancelAuthority revocation =>
    obtain ⟨removed, cancelled⟩ := exists_of_map_snd done
    rcases cancelAuthority_cases sound cancelled with same | written
    · rw [same]
      exact sound
    · rw [written]
      apply sound_storageOf
      apply sound.held.filter
      simp

theorem sound_step (ledger : TaskLedger platform) (call : TaskCall platform)
    (sound : Sound ledger) : Sound (ledger.step call) := by
  simp only [TaskLedger.step]
  split
  case h_1 => exact sound
  case h_2 next done =>
    split
    case isTrue => exact sound_after sound done
    case isFalse => exact sound

section

variable (calls : List (TaskCall platform))

theorem sound_run : Sound (run TaskLedger.step {} calls) :=
  run_induction sound_step sound_start calls

/-- What may become of a task which is not active. -/
def StaysTerminal (operation : TaskOperation platform)
    (task later : McpTaskRecord) : Prop :=
  later.status = task.status ∨
    (task.status = .completed ∧ task.resultChunkCount = 0 ∧
      later.status = .failed) ∨
    ∃ authorized now, operation = .create task.taskId authorized now ∧
      task.expiresAt ≤ now

theorem staysTerminal_of_subset (sound : Sound ledger)
    (subset : ∀ later ∈ next.tasks, later ∈ ledger.storage.tasks)
    {later : McpTaskRecord} (before : task ∈ ledger.storage.tasks)
    (after : later ∈ next.tasks) (same : later.taskId = task.taskId) :
    StaysTerminal operation task later := by
  have equal := task_unique sound.held.distinct (subset later after) before
    same
  rw [equal]
  exact .inl rfl

theorem staysTerminal_after (sound : Sound ledger)
    (done : operation.after ledger.storage = .ok next) {later : McpTaskRecord}
    (before : task ∈ ledger.storage.tasks) (after : later ∈ next.tasks)
    (same : later.taskId = task.taskId)
    (terminal : task.status.active = false) :
    StaysTerminal operation task later := by
  have unchanged : (∀ other ∈ next.tasks, other ∈ ledger.storage.tasks) →
      StaysTerminal operation task later := by
    intro subset
    exact staysTerminal_of_subset sound subset before after same
  cases operation with
  | create taskId authorized now =>
    obtain ⟨transaction, opened⟩ := open_of_sound sound now
    obtain ⟨answer, made⟩ := exists_of_map_snd done
    obtain kept | closed | ⟨created, made, written, -, -, fresh, -, -⟩ :=
      create_cases opened.opened made
    · apply unchanged
      rw [kept]
      exact fun other member => member
    · apply unchanged
      rw [closed]
      exact opened.subset
    · have tasks : next.tasks = transaction.tasks ++ [created] := by
        rw [written]
        exact tasks_storageOf _ transaction.chunks
      rw [tasks] at after
      rcases mem_append.mp after with old | new
      · rw [opened.tasks] at old
        have equal := task_unique sound.held.distinct
          (List.mem_filter.mp old).1 before same
        rw [equal]
        exact .inl rfl
      · have id : task.taskId = taskId := by
          rw [← same, mem_singleton.mp new, made]
          rfl
        refine .inr (.inr ⟨authorized, now, by rw [id], ?_⟩)
        apply Nat.le_of_not_lt
        intro live
        apply fresh task _ id
        rw [opened.tasks]
        exact List.mem_filter.mpr ⟨before, decide_eq_true live⟩
  | get taskId authorized now =>
    obtain ⟨transaction, opened⟩ := open_of_sound sound now
    obtain ⟨answer, got⟩ := exists_of_map_snd done
    apply unchanged
    rw [get_cases opened.opened got]
    exact opened.subset
  | getResult taskId authorized now =>
    obtain ⟨transaction, opened⟩ := open_of_sound sound now
    obtain ⟨answer, got⟩ := exists_of_map_snd done
    apply unchanged
    rw [(getResult_cases opened.opened got).1]
    exact opened.subset
  | updateStatus taskId authorized status statusMessage result now =>
    obtain ⟨transaction, opened⟩ := open_of_sound sound now
    obtain ⟨answer, done⟩ := exists_of_map_snd done
    obtain closed | ⟨previous, stored, updated, found, changeable, -, -,
      made, written⟩ := updateStatus_cases opened.opened done
    · apply unchanged
      rw [closed]
      exact opened.subset
    · have live : ∀ other ∈ transaction.tasks,
          other ∈ ledger.storage.tasks := by
        intro other member
        rw [opened.tasks] at member
        exact (List.mem_filter.mp member).1
      rw [written, tasks_storageOf] at after
      rcases mem_or_eq_of_mem_set after with old | new
      · have equal := task_unique sound.held.distinct (live later old)
          before same
        rw [equal]
        exact .inl rfl
      · have id : previous.taskId = task.taskId := by
          rw [← same, new, made]
          rfl
        have equal := task_unique sound.held.distinct
          (live previous (mem_of_find?_eq_some found)) before id
        rcases changeable with active | ⟨completed, none, failed⟩
        · rw [equal, terminal] at active
          cases active
        · rw [equal] at completed none
          refine .inr (.inl ⟨completed, none, ?_⟩)
          rw [new, made]
          exact failed
  | cancelAuthority revocation =>
    obtain ⟨removed, cancelled⟩ := exists_of_map_snd done
    apply unchanged
    rcases cancelAuthority_cases sound cancelled with kept | written
    · rw [kept]
      exact fun other member => member
    · rw [written, tasks_storageOf]
      intro other member
      exact (List.mem_filter.mp member).1

theorem filled_of_counted (valid : validTask task = true)
    (counted : task.resultChunkCount ≠ 0) : task.resultBytes ≠ 0 := by
  intro empty
  have count := chunkCount_of_valid valid
  rw [if_pos empty] at count
  exact counted count

theorem getResult_returns (sound : Sound ledger) (got : McpTaskStore.getResult
    platform taskId authorized now ledger.storage = .ok (some value, next)) : ∃
    task ∈ ledger.storage.tasks, task.taskId = taskId ∧ matchesAuthorized task
    authorized = true ∧ ledger.stored.get? taskId = some value := by
  obtain ⟨transaction, opened⟩ := open_of_sound sound now
  obtain ⟨task, found, _, counted, read⟩ :=
    (getResult_cases opened.opened got).2 value rfl
  have member := mem_of_find?_eq_some found
  have owns := find?_some found
  simp only [ownsTask, Bool.and_eq_true, beq_iff_eq] at owns
  have valid := opened.held.valid task member
  have filled := filled_of_counted valid counted
  obtain ⟨stored, same, holds⟩ := opened.held.results task member filled
  rw [readResult_of_holds valid filled holds] at read
  split at read
  case isTrue =>
    cases read
    rw [opened.tasks] at member
    exact ⟨task, (List.mem_filter.mp member).1, owns.1, owns.2, owns.1 ▸ same⟩
  case isFalse => cases read

theorem getResult_available (sound : Sound ledger) (member : task ∈
    ledger.storage.tasks) (counted : task.resultChunkCount ≠ 0) : ∃ value,
    ledger.stored.get? task.taskId = some value ∧ ∀ authorized now,
    matchesAuthorized task authorized = true → now < task.expiresAt →
    (McpTaskStore.getResult platform task.taskId authorized now
    ledger.storage).map Prod.fst = if platform.isObject value then .ok
    (some value) else .error .shapeInvalid := by
  have valid := sound.held.valid task member
  have filled := filled_of_counted valid counted
  obtain ⟨value, same, held⟩ := sound.held.results task member filled
  refine ⟨value, same, ?_⟩
  intro authorized now owner live
  obtain ⟨transaction, opened⟩ := open_of_sound sound now
  have kept : task ∈ transaction.tasks := by
    rw [opened.tasks]
    exact List.mem_filter.mpr ⟨member, decide_eq_true live⟩
  have found : transaction.tasks.find? (ownsTask task.taskId authorized) =
      some task := by
    cases first : transaction.tasks.find?
        (ownsTask task.taskId authorized) with
    | none =>
      have absent := find?_eq_none.mp first task kept
      simp [ownsTask, owner] at absent
    | some other =>
      have owns := find?_some first
      simp only [ownsTask, Bool.and_eq_true, beq_iff_eq] at owns
      rw [task_unique opened.held.distinct
        (mem_of_find?_eq_some first) kept owns.1]
  obtain ⟨stored, equal, holds⟩ := opened.held.results task kept filled
  rw [same] at equal
  cases equal
  have complete :
      (decide (task.status ≠ .completed) || decide (task.resultChunkCount = 0))
      = false := by
    simp [holds.completed, counted]
  simp only [McpTaskStore.getResult, opened.opened, found, complete,
    readResult_of_holds valid filled holds]
  by_cases object : platform.isObject value = true
  · simp [object, Except.map]
  · simp [object, Except.map]

/-- Every stored state is valid and within its limits, the chunks in storage
are those of the retained results, a terminal task stays what it is unless its
result was lost, and a result is returned to its principal as it was stored. -/
theorem run_retainsResults : (∀ state, (run TaskLedger.step {}
    calls).storage.state = some state → validState state = true) ∧
    (run TaskLedger.step {} calls).storage.tasks.length ≤ maxMcpTasks ∧
    retainedResultBytes (run TaskLedger.step {} calls).storage.tasks ≤
    maxMcpTaskResultBytesTotal ∧ (∀ key, key ∈ (run TaskLedger.step {}
    calls).storage.chunks.keys ↔ ∃ task ∈ (run TaskLedger.step {}
    calls).storage.tasks, ∃ index < task.resultChunkCount, resultChunkKey
    task.taskId index = key) ∧ (∀ operation next, TaskOperation.after (run
    TaskLedger.step {} calls).storage operation = .ok next → ∀ task ∈ (run
    TaskLedger.step {} calls).storage.tasks, ∀ later ∈ next.tasks, later.taskId
    = task.taskId → task.status.active = false → @StaysTerminal platform
    operation task later) ∧ (∀ taskId authorized now value next,
    McpTaskStore.getResult platform taskId authorized now (run TaskLedger.step
    {} calls).storage = .ok (some value, next) → ∃ task ∈ (run TaskLedger.step
    {} calls).storage.tasks, task.taskId = taskId ∧ matchesAuthorized task
    authorized = true ∧ (run TaskLedger.step {} calls).stored.get? taskId =
    some value) ∧ ∀ task ∈ (run TaskLedger.step {} calls).storage.tasks,
    task.resultChunkCount ≠ 0 → ∃ value, (run TaskLedger.step {}
    calls).stored.get? task.taskId = some value ∧ ∀ authorized now,
    matchesAuthorized task authorized = true → now < task.expiresAt →
    (McpTaskStore.getResult platform task.taskId authorized now (run
    TaskLedger.step {} calls).storage).map Prod.fst = if platform.isObject
    value then .ok (some value) else .error .shapeInvalid := by
  have sound := sound_run calls
  refine ⟨?_, sound.held.bounded, sound.held.room, ?_, ?_, ?_, ?_⟩
  · intro state stored
    have written := congrArg TaskStorage.state sound.written
    rw [stored] at written
    simp only [storageOf, stateOf] at written
    split at written
    case isTrue => cases written
    case isFalse =>
      rw [Option.some.inj written]
      exact sound.held.validState
  · intro key
    simp only [sound.held.keys key, mem_chunkKeys]
  · intro operation next done task before later after same terminal
    exact staysTerminal_after sound done before after same terminal
  · intro taskId authorized now value next got
    exact getResult_returns sound got
  · intro task member counted
    exact getResult_available sound member counted

end

end MachineBridge.Tasks
