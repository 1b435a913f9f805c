import Mathlib.Data.List.Basic

/-!
# Searching files in batches

The walked files are gathered, and a batch of them is searched at once.  The
outcomes are then taken in the order of the files, up to the limits, so what was
searched beyond a limit is as if it had not been.
-/

namespace MachineBridge.Search

universe u

variable {File Match Error : Type u}

def searchFileBatchSize : Nat := 16

/-- Anything but an integer counts as none. -/
def boundedBatchSize (value : Option Int) : Nat :=
  match value with
  | some size =>
    if 0 < size ∧ size ≤ 64 then size.toNat else searchFileBatchSize
  | none => searchFileBatchSize

/-- A walk finds files, and says in the end whether it was cut short.  What it
says when it is told to stop may depend on what is left. -/
structure Walk (File : Type u) where
  files : List File
  truncated : Bool
  stopped : List File → Bool

/-- The walk hands over its files one after another, until it is told to
stop. -/
def Walk.each {State : Type u} (walk : Walk File)
    (onFile : State → File → Except Error (State × Bool)) :
    State → List File → Except Error (State × Bool)
  | state, [] => .ok (state, walk.truncated)
  | state, file :: rest =>
    match onFile state file with
    | .error error => .error error
    | .ok (next, true) => walk.each onFile next rest
    | .ok (next, false) => .ok (next, walk.stopped rest)

structure SearchProgress (Match : Type u) where
  found : List Match := []
  visitedFiles : Nat := 0

structure SearchResult (Match : Type u) where
  found : List Match
  visitedFiles : Nat
  truncated : Bool

variable (searchFile : File → Except Error (List Match))
  (maximumFiles maximumMatches : Nat)

section

variable (progress : SearchProgress Match)

/-- One of the limits is reached. -/
def SearchProgress.full : Bool :=
  maximumMatches ≤ progress.found.length ||
    maximumFiles ≤ progress.visitedFiles

/-- The matches of one more file, as many as there is room for. -/
def SearchProgress.visit (found : List Match) : SearchProgress Match where
  found := progress.found ++
    found.take (maximumMatches - progress.found.length)
  visitedFiles := progress.visitedFiles + 1

def SearchProgress.result (truncated : Bool) : SearchResult Match where
  found := progress.found
  visitedFiles := progress.visitedFiles
  truncated := progress.full maximumFiles maximumMatches || truncated

end

structure BatchState (File Match : Type u) where
  progress : SearchProgress Match := {}
  scheduledFiles : Nat := 0
  batch : List File := []

/-- The outcomes of a batch, and whether the search goes on. -/
def settle : SearchProgress Match → List (Except Error (List Match)) →
    Except Error (SearchProgress Match × Bool)
  | progress, [] => .ok (progress, !progress.full maximumFiles maximumMatches)
  | progress, outcome :: rest =>
    if progress.full maximumFiles maximumMatches then .ok (progress, false)
    else
      match outcome with
      | .error error => .error error
      | .ok found => settle (progress.visit maximumMatches found) rest

def flush (state : BatchState File Match) :
    Except Error (BatchState File Match × Bool) :=
  (settle maximumFiles maximumMatches state.progress
    (state.batch.map searchFile)).map fun (progress, continues) =>
      ({ state with progress, batch := [] }, continues)

variable (batchSize : Nat)

section

variable (state : BatchState File Match)

/-- What the walk calls for each file. -/
def schedule (file : File) : Except Error (BatchState File Match × Bool) :=
  if maximumMatches ≤ state.progress.found.length ∨
      maximumFiles ≤ state.scheduledFiles then .ok (state, false)
  else
    let next :=
      { state with
        scheduledFiles := state.scheduledFiles + 1
        batch := state.batch ++ [file] }
    if next.batch.length < batchSize ∧ next.scheduledFiles < maximumFiles then
      .ok (next, true)
    else flush searchFile maximumFiles maximumMatches next

/-- The batch which the walk left. -/
def flushRest : Except Error (BatchState File Match) :=
  if state.batch ≠ [] ∧ state.progress.found.length < maximumMatches ∧
      state.progress.visitedFiles < maximumFiles then
    (flush searchFile maximumFiles maximumMatches state).map Prod.fst
  else .ok state

end

def searchWorkspaceFiles (batchSize : Option Int) (walk : Walk File) :
    Except Error (SearchResult Match) :=
  (walk.each (schedule searchFile maximumFiles maximumMatches
      (boundedBatchSize batchSize)) {} walk.files).bind
    fun (state, truncated) =>
      (flushRest searchFile maximumFiles maximumMatches state).map
        fun state => state.progress.result maximumFiles maximumMatches
          truncated

def searchNext (progress : SearchProgress Match) (file : File) :
    Except Error (SearchProgress Match × Bool) :=
  if progress.full maximumFiles maximumMatches then .ok (progress, false)
  else
    (searchFile file).map fun found =>
      let next := progress.visit maximumMatches found
      (next, !next.full maximumFiles maximumMatches)

def searchOneByOne (walk : Walk File) : Except Error (SearchResult Match) :=
  (walk.each (searchNext searchFile maximumFiles maximumMatches) {}
    walk.files).map fun (progress, truncated) =>
      progress.result maximumFiles maximumMatches truncated

end MachineBridge.Search
