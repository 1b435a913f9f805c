import MachineBridge.Authority.Revocations
import MachineBridge.Foundation.Base64
import MachineBridge.Foundation.Record

/-!
# The task store

One value holds the records of all retained tasks.  The result of a completed
task lies in chunks under keys of their own, and an active task reserves the
room of a largest result.  Every operation is one storage transaction, which
first removes the expired tasks together with their chunks.
-/

namespace MachineBridge.Tasks

open Foundation Authority

inductive McpTaskStatus where
  | working
  | inputRequired
  | completed
  | cancelled
  | failed
deriving DecidableEq

def McpTaskStatus.active : McpTaskStatus → Bool
  | .working => true
  | .inputRequired => true
  | _ => false

/-- Timestamps are the instants which their texts denote. -/
structure McpTaskRecord where
  taskId : Text
  status : McpTaskStatus
  statusMessage : Text
  (createdAt lastUpdatedAt expiresAt resultChunkCount resultBytes : Nat)
  resultSha256 : Text
  reservedResultBytes : Nat
  (ownerKind ownerAccountId : Text)
  ownerAccountVersion : Nat
  (ownerClientId ownerFamilyId ownerRole : Text)

structure TaskState where
  schemaVersion : Nat := 1
  tasks : List McpTaskRecord

/-- The principal of an operation.  The daemon refuses a call whose principal
lacks one of these, so no job and no task ever belongs to such a principal. -/
structure AuthorizedToken where
  accountId : Text
  accountVersion : Nat
  (clientId familyId role : Text)
  accountId_nonempty : accountId ≠ []
  accountVersion_positive : 0 < accountVersion
  accountVersion_safe : accountVersion ≤ maxSafeInteger
  clientId_nonempty : clientId ≠ []
  familyId_nonempty : familyId ≠ []
  role_nonempty : role ≠ []

def maxMcpTasks : Nat := 128

def maxMcpTaskResultBytes : Nat := 8 * 1024 * 1024

def maxMcpTaskResultBytesTotal : Nat := 32 * 1024 * 1024

def resultChunkBytes : Nat := 384 * 1024

def mcpTaskTtlMs : Nat := 24 * 60 * 60 * 1000

inductive TaskFailure where
  | stateInvalid
  | timestampOutOfRange
  | chunkMissing
  | chunkInvalid
  | lengthInvalid
  | integrityCheckFailed
  | jsonInvalid
  | shapeInvalid
deriving DecidableEq

/-- `^job_[A-Za-z0-9_-]{24,}$` -/
def isMcpTaskJobId : Text → Bool :=
  labelled (text "job_") fun body => 24 ≤ body.length && body.all isBase64Url

def resultChunkKey (taskId : Text) (index : Nat) : Text :=
  text "mcp-task-result-v1:" ++ (taskId ++ 0x3A :: decimal index)

/-- The JSON functions of the language and the digest of the platform.  The
octets are the UTF-8 form of a serialized value, which is never empty, and
parsing them gives the value back. -/
structure ResultPlatform where
  Json : Type
  stringify : Json → List UInt8
  parse : List UInt8 → Option Json
  /-- Whether a value is an object and neither null nor an array. -/
  isObject : Json → Bool
  sha256 : List UInt8 → HexText 64
  stringify_nonempty : ∀ value, stringify value ≠ []
  parse_stringify : ∀ value, parse (stringify value) = some value

inductive TaskResult (Json : Type) where
  | absent
  /-- A value which the serialization throws on or leaves out. -/
  | unserializable
  | json (value : Json)

def encodeBase64 (bytes : List UInt8) : Text := btoa bytes

def decodeBase64 (value : Text) : Option (List UInt8) := atob value

def concatenate (chunks : List (List UInt8)) (expectedBytes : Nat) :
    Except TaskFailure (List UInt8) :=
  if chunks.flatten.length = expectedBytes then .ok chunks.flatten
  else .error .lengthInvalid

/-- The number of chunks of a result. -/
def chunkCount (bytes : Nat) : Nat :=
  (bytes + (resultChunkBytes - 1)) / resultChunkBytes

def chunkOf (bytes : List UInt8) (index : Nat) : List UInt8 :=
  (bytes.drop (index * resultChunkBytes)).take resultChunkBytes

abbrev ResultChunks := Record Text Text

/-- The value under the store key, and those under the chunk keys. -/
structure TaskStorage where
  state : Option TaskState := none
  chunks : ResultChunks := .empty

def TaskStorage.tasks (storage : TaskStorage) : List McpTaskRecord :=
  (storage.state.map (·.tasks)).getD []

def validTimestamp (instant : Nat) : Bool := instant ≤ 8640000000000000

def validTask (task : McpTaskRecord) : Bool :=
  isMcpTaskJobId task.taskId &&
    task.statusMessage.length ≤ 512 &&
    (validTimestamp task.createdAt && validTimestamp task.lastUpdatedAt) &&
    (isSafeInteger task.expiresAt && 0 < task.expiresAt) &&
    isSafeInteger task.resultChunkCount &&
    (isSafeInteger task.resultBytes &&
      task.resultBytes ≤ maxMcpTaskResultBytes) &&
    (isSafeInteger task.reservedResultBytes &&
      (task.reservedResultBytes == 0 ||
        task.reservedResultBytes == maxMcpTaskResultBytes)) &&
    (if task.status.active then
      task.reservedResultBytes == maxMcpTaskResultBytes
    else task.reservedResultBytes == 0) &&
    (if task.resultBytes = 0 then
      task.resultChunkCount == 0 && task.resultSha256.isEmpty
    else
      task.resultChunkCount == chunkCount task.resultBytes &&
        fits isHex 64 64 task.resultSha256) &&
    (task.ownerKind == text "account" && !task.ownerAccountId.isEmpty) &&
    (isSafeInteger task.ownerAccountVersion &&
      0 < task.ownerAccountVersion) &&
    (!task.ownerClientId.isEmpty && !task.ownerFamilyId.isEmpty &&
      !task.ownerRole.isEmpty)

section

variable (tasks : List McpTaskRecord)

def retainedResultBytes : Nat :=
  (tasks.map fun task => task.resultBytes + task.reservedResultBytes).sum

def validState (state : TaskState) : Bool :=
  state.schemaVersion == 1 &&
    state.tasks.length ≤ maxMcpTasks &&
    state.tasks.all validTask &&
    (state.tasks.map (·.taskId)).Nodup &&
    retainedResultBytes state.tasks ≤ maxMcpTaskResultBytesTotal

def readState (storage : TaskStorage) :
    Except TaskFailure (List McpTaskRecord) :=
  match storage.state with
  | none => .ok []
  | some state =>
    if validState state then .ok state.tasks else .error .stateInvalid

def stateOf : Option TaskState :=
  if tasks.isEmpty then none else some { tasks }

end

/-- A transaction after it has removed the expired tasks. -/
structure Transaction where
  before : Nat
  state : Option TaskState
  tasks : List McpTaskRecord
  chunks : ResultChunks

namespace Transaction

section

variable (transaction : Transaction)

def write (tasks : List McpTaskRecord) : TaskStorage where
  state := stateOf tasks
  chunks := transaction.chunks

/-- The transaction ends; it writes the state if tasks were removed. -/
def close : TaskStorage :=
  if transaction.before ≠ transaction.tasks.length then
    transaction.write transaction.tasks
  else { state := transaction.state, chunks := transaction.chunks }

end

end Transaction

def chunkKeys (task : McpTaskRecord) : List Text :=
  (List.range task.resultChunkCount).map (resultChunkKey task.taskId)

def deleteTaskResult (chunks : ResultChunks) (task : McpTaskRecord) :
    ResultChunks :=
  chunks.deleteAll (chunkKeys task)

def prune (chunks : ResultChunks) (tasks : List McpTaskRecord) (now : Nat) :
    ResultChunks × List McpTaskRecord :=
  let expired := tasks.filter fun task => task.expiresAt ≤ now
  (expired.foldl deleteTaskResult chunks,
    tasks.filter fun task => now < task.expiresAt)

/-- Every operation with a time starts this way. -/
def openTransaction (storage : TaskStorage) (now : Nat) :
    Except TaskFailure Transaction :=
  match readState storage with
  | .error failure => .error failure
  | .ok tasks =>
    let pruned := prune storage.chunks tasks now
    .ok
      { before := tasks.length
        state := storage.state
        tasks := pruned.2
        chunks := pruned.1 }

def matchesAuthorized (task : McpTaskRecord) (authorized : AuthorizedToken) :
    Bool :=
  task.ownerAccountId == authorized.accountId &&
    task.ownerAccountVersion == authorized.accountVersion &&
    task.ownerClientId == authorized.clientId &&
    task.ownerFamilyId == authorized.familyId &&
    task.ownerRole == authorized.role

section

variable (taskId : Text)

/-- Whether a task has an identifier and belongs to the principal. -/
def ownsTask (authorized : AuthorizedToken) (candidate : McpTaskRecord) :
    Bool :=
  candidate.taskId == taskId && matchesAuthorized candidate authorized

def makeTask (authorized : AuthorizedToken) (createdAt expiresAt : Nat) :
    McpTaskRecord where
  taskId
  status := .working
  statusMessage := text "Accepted for execution."
  createdAt
  lastUpdatedAt := createdAt
  expiresAt
  ownerKind := text "account"
  resultChunkCount := 0
  resultBytes := 0
  resultSha256 := []
  reservedResultBytes := maxMcpTaskResultBytes
  ownerAccountId := authorized.accountId
  ownerAccountVersion := authorized.accountVersion
  ownerClientId := authorized.clientId
  ownerFamilyId := authorized.familyId
  ownerRole := authorized.role

/-- The date of a time, when a date can hold it. -/
def toIsoString (now : Nat) : Except TaskFailure Nat :=
  if validTimestamp now then .ok now else .error .timestampOutOfRange

abbrev Outcome (Answer : Type) := Except TaskFailure (Answer × TaskStorage)

def McpTaskStore.create (authorized : AuthorizedToken) (now : Nat)
    (storage : TaskStorage) : Outcome (Option McpTaskRecord) :=
  if !isMcpTaskJobId taskId then .ok (none, storage)
  else
    match openTransaction storage now with
    | .error failure => .error failure
    | .ok transaction =>
      match transaction.tasks.find? (·.taskId == taskId) with
      | some existing =>
        .ok (if matchesAuthorized existing authorized then some existing
          else none, transaction.close)
      | none =>
        if maxMcpTasks ≤ transaction.tasks.length then
          .ok (none, transaction.close)
        else if maxMcpTaskResultBytesTotal <
            retainedResultBytes transaction.tasks +
              maxMcpTaskResultBytes then
          .ok (none, transaction.close)
        else
          match toIsoString now with
          | .error failure => .error failure
          | .ok createdAt =>
            let expiresAt := createdAt + mcpTaskTtlMs
            if !isSafeInteger expiresAt || expiresAt ≤ now then
              .ok (none, transaction.close)
            else
              let task := makeTask taskId authorized createdAt expiresAt
              .ok (some task, transaction.write (transaction.tasks ++ [task]))

def McpTaskStore.get (authorized : AuthorizedToken) (now : Nat)
    (storage : TaskStorage) : Outcome (Option McpTaskRecord) :=
  match openTransaction storage now with
  | .error failure => .error failure
  | .ok transaction =>
    let task := transaction.tasks.find? (ownsTask taskId authorized)
    .ok (task.filter fun task => now < task.expiresAt, transaction.close)

end

variable (platform : ResultPlatform)

def readChunk (chunks : ResultChunks) (key : Text) :
    Except TaskFailure (List UInt8) :=
  match chunks.get? key with
  | none => .error .chunkMissing
  | some encoded =>
    match decodeBase64 encoded with
    | none => .error .chunkInvalid
    | some bytes => .ok bytes

def readResult (chunks : ResultChunks) (task : McpTaskRecord) :
    Except TaskFailure platform.Json :=
  match (chunkKeys task).mapM (readChunk chunks) with
  | .error failure => .error failure
  | .ok parts =>
    match concatenate parts task.resultBytes with
    | .error failure => .error failure
    | .ok serialized =>
      if (platform.sha256 serialized).val ≠ task.resultSha256 then
        .error .integrityCheckFailed
      else
        match platform.parse serialized with
        | none => .error .jsonInvalid
        | some value =>
          if platform.isObject value then .ok value
          else .error .shapeInvalid

def McpTaskStore.getResult (taskId : Text) (authorized : AuthorizedToken)
    (now : Nat) (storage : TaskStorage) : Outcome (Option platform.Json) :=
  match openTransaction storage now with
  | .error failure => .error failure
  | .ok transaction =>
    match transaction.tasks.find? (ownsTask taskId authorized) with
    | none => .ok (none, transaction.close)
    | some task =>
      if task.status ≠ .completed || task.resultChunkCount = 0 then
        .ok (none, transaction.close)
      else
        match readResult platform transaction.chunks task with
        | .error failure => .error failure
        | .ok value => .ok (some value, transaction.close)

structure ResultMetadata where
  (resultChunkCount resultBytes : Nat)
  resultSha256 : Text
  reservedResultBytes : Nat

/-- The octets of a result which there is room for beside the others. -/
def storedResult (transaction : Transaction) (previous : McpTaskRecord)
    (status : McpTaskStatus) (result : TaskResult platform.Json) :
    Option (List UInt8) :=
  match result with
  | .absent => none
  | .unserializable => none
  | .json value =>
    let bytes := platform.stringify value
    let current := retainedResultBytes transaction.tasks
    let other :=
      current - previous.resultBytes - previous.reservedResultBytes
    if status = .completed ∧ bytes.length ≤ maxMcpTaskResultBytes ∧
        other + bytes.length ≤ maxMcpTaskResultBytesTotal then some bytes
    else none

section

variable (previous : McpTaskRecord)

def resultMetadata (status : McpTaskStatus) (stored : Option (List UInt8)) :
    ResultMetadata :=
  match stored with
  | some bytes =>
    { resultChunkCount := chunkCount bytes.length
      resultBytes := bytes.length
      resultSha256 := (platform.sha256 bytes).val
      reservedResultBytes := 0 }
  | none =>
    if status.active then
      { resultChunkCount := previous.resultChunkCount
        resultBytes := previous.resultBytes
        resultSha256 := previous.resultSha256
        reservedResultBytes := previous.reservedResultBytes }
    else
      { resultChunkCount := 0
        resultBytes := 0
        resultSha256 := []
        reservedResultBytes := 0 }

/-- The chunks of a result under their keys. -/
def chunkEntries (taskId : Text) (bytes : List UInt8) : List (Text × Text) :=
  (List.range (chunkCount bytes.length)).map fun index =>
    (resultChunkKey taskId index, encodeBase64 (chunkOf bytes index))

def putResult (chunks : ResultChunks) (taskId : Text)
    (stored : Option (List UInt8)) : ResultChunks :=
  match stored with
  | none => chunks
  | some bytes => chunks.setAll (chunkEntries taskId bytes)

def updatedTask (metadata : ResultMetadata) (status : McpTaskStatus)
    (statusMessage : Text) (lastUpdatedAt : Nat) : McpTaskRecord :=
  { previous with
    resultChunkCount := metadata.resultChunkCount
    resultBytes := metadata.resultBytes
    resultSha256 := metadata.resultSha256
    reservedResultBytes := metadata.reservedResultBytes
    status, statusMessage, lastUpdatedAt }

end

def McpTaskStore.updateStatus (taskId : Text) (authorized : AuthorizedToken)
    (status : McpTaskStatus) (statusMessage : Text)
    (result : TaskResult platform.Json) (now : Nat) (storage : TaskStorage) :
    Outcome (Option McpTaskRecord) :=
  match openTransaction storage now with
  | .error failure => .error failure
  | .ok transaction =>
    match transaction.tasks.find? (ownsTask taskId authorized) with
    | none => .ok (none, transaction.close)
    | some previous =>
      let terminalResultMissing := previous.status = .completed ∧
        previous.resultChunkCount = 0 ∧ status = .failed
      if !previous.status.active && !decide terminalResultMissing then
        .ok (some previous, transaction.close)
      else
        let normalizedMessage := statusMessage.take 512
        if previous.status = status &&
            previous.statusMessage = normalizedMessage then
          .ok (some previous, transaction.close)
        else
          let stored :=
            storedResult platform transaction previous status result
          let metadata := resultMetadata platform previous status stored
          match toIsoString now with
          | .error failure => .error failure
          | .ok lastUpdatedAt =>
            let next := updatedTask previous metadata status
              normalizedMessage lastUpdatedAt
            let index :=
              transaction.tasks.findIdx (ownsTask taskId authorized)
            .ok (some next,
              { state := stateOf (transaction.tasks.set index next)
                chunks :=
                  putResult transaction.chunks taskId stored })

/-- The owner whom a revocation is compared with. -/
def McpTaskRecord.principal (task : McpTaskRecord) : AuthorityPrincipal where
  accountId := task.ownerAccountId
  accountVersion := task.ownerAccountVersion
  clientId := task.ownerClientId
  familyId := task.ownerFamilyId

section

variable (revocation : AuthorityRevocation)

def revokes (task : McpTaskRecord) : Bool :=
  task.ownerKind == text "account" &&
    recordMatchesAuthorityRevocation task.principal revocation

def McpTaskStore.cancelAuthority (storage : TaskStorage) : Outcome Nat :=
  match readState storage with
  | .error failure => .error failure
  | .ok tasks =>
    let removedTasks := tasks.filter (revokes revocation)
    let kept := tasks.filter fun task => !revokes revocation task
    let removed := tasks.length - kept.length
    if removed = 0 then .ok (0, storage)
    else
      .ok (removed,
        { state := stateOf kept
          chunks := removedTasks.foldl deleteTaskResult storage.chunks })

end

end MachineBridge.Tasks
