import MachineBridge.Search.BatchedSearch

/-!
# Batches and single files

What the walk hands over is consumed in its order, whether one by one or in
batches.  Between two calls of the walk, the files of the batch come before those
which are still to be walked.
-/

namespace MachineBridge.Search

open List

universe u

variable {File Match Error : Type u}

variable (searchFile : File → Except Error (List Match))
  (maximumFiles maximumMatches batchSize : Nat)

def consume : SearchProgress Match → List File →
    Except Error (SearchProgress Match)
  | progress, [] => .ok progress
  | progress, file :: rest =>
    if progress.full maximumFiles maximumMatches then .ok progress
    else
      match searchFile file with
      | .error error => .error error
      | .ok found => consume (progress.visit maximumMatches found) rest

section Consume

variable {searchFile maximumFiles maximumMatches batchSize}
variable {progress : SearchProgress Match}

theorem consume_full (full : progress.full maximumFiles maximumMatches = true)
    (files : List File) :
    consume searchFile maximumFiles maximumMatches progress files =
    .ok progress := by
  cases files with
  | nil => rfl
  | cons file rest => exact if_pos full

theorem consume_cons (room : progress.full maximumFiles maximumMatches = false)
    (file : File) (rest : List File) :
    consume searchFile maximumFiles maximumMatches progress (file :: rest) =
    (searchFile file).bind fun found => consume searchFile maximumFiles
    maximumMatches (progress.visit maximumMatches found) rest := by
  rw [consume, room]
  cases searchFile file with
  | error error => rfl
  | ok found => rfl

theorem consume_append (first second : List File) :
    consume searchFile maximumFiles maximumMatches progress (first ++ second) =
    (consume searchFile maximumFiles maximumMatches progress first).bind fun
    next => consume searchFile maximumFiles maximumMatches next second := by
  induction first generalizing progress with
  | nil => rfl
  | cons file rest induction =>
    cases full : progress.full maximumFiles maximumMatches with
    | true =>
      rw [consume_full full (file :: rest)]
      exact (consume_full full _).trans (consume_full full second).symm
    | false =>
      rw [cons_append, consume_cons full, consume_cons full]
      cases searchFile file with
      | error error => rfl
      | ok found => exact induction

theorem settle_eq (files : List File) :
    settle maximumFiles maximumMatches progress (files.map searchFile) =
    (consume searchFile maximumFiles maximumMatches progress files).map fun
    next => (next, !next.full maximumFiles maximumMatches) := by
  induction files generalizing progress with
  | nil => rfl
  | cons file rest induction =>
    cases full : progress.full maximumFiles maximumMatches with
    | true =>
      rw [consume_full full, map_cons, settle.eq_def]
      dsimp only
      rw [if_pos full, Except.map, full]
      rfl
    | false =>
      rw [consume_cons full, map_cons]
      cases searchFile file with
      | error error =>
        rw [settle, full]
        rfl
      | ok found =>
        rw [settle, full]
        exact induction

theorem visitedFiles_consume {files : List File} {next : SearchProgress Match}
    (consumed : consume searchFile maximumFiles maximumMatches progress files =
    .ok next) (room : next.full maximumFiles maximumMatches = false) :
    next.visitedFiles = progress.visitedFiles + files.length := by
  induction files generalizing progress with
  | nil =>
    cases consumed
    rfl
  | cons file rest induction =>
    cases full : progress.full maximumFiles maximumMatches with
    | true =>
      rw [consume_full full] at consumed
      cases consumed
      rw [full] at room
      cases room
    | false =>
      rw [consume_cons full] at consumed
      cases outcome : searchFile file with
      | error error =>
        rw [outcome] at consumed
        cases consumed
      | ok found =>
        rw [outcome] at consumed
        rw [induction consumed, length_cons]
        exact Nat.succ_add_eq_add_succ _ _

theorem result_full (full : progress.full maximumFiles maximumMatches = true)
    (first second : Bool) : progress.result maximumFiles maximumMatches first =
    progress.result maximumFiles maximumMatches second := by
  rw [SearchProgress.result, SearchProgress.result, full, Bool.true_or,
    Bool.true_or]

end Consume

section Equal

variable {searchFile maximumFiles maximumMatches batchSize}
variable {walk : Walk File}

variable {State : Type u} {file : File}
  {onFile : State → File → Except Error (State × Bool)} {state : State}

theorem Walk.each_continues {next : State}
    (continued : onFile state file = .ok (next, true)) (rest : List File) :
    walk.each onFile state (file :: rest) = walk.each onFile next rest := by
  rw [Walk.each, continued]

theorem Walk.each_stops {next : State}
    (stopped : onFile state file = .ok (next, false)) (rest : List File) :
    walk.each onFile state (file :: rest) = .ok (next, walk.stopped rest) := by
  rw [Walk.each, stopped]

theorem Walk.each_fails {error : Error}
    (failed : onFile state file = .error error) (rest : List File) :
    walk.each onFile state (file :: rest) = .error error := by
  rw [Walk.each, failed]

theorem each_searchNext (progress : SearchProgress Match) (files : List File) :
    (walk.each (searchNext searchFile maximumFiles maximumMatches) progress
    files).map (fun (progress, truncated) => progress.result maximumFiles
    maximumMatches truncated) =
    (consume searchFile maximumFiles maximumMatches progress files).map fun
    next => next.result maximumFiles maximumMatches walk.truncated := by
  induction files generalizing progress with
  | nil => rfl
  | cons file rest induction =>
    cases full : progress.full maximumFiles maximumMatches with
    | true =>
      rw [consume_full full, Walk.each_stops (if_pos full)]
      exact congrArg Except.ok (result_full full _ _)
    | false =>
      have next :
          searchNext searchFile maximumFiles maximumMatches progress file =
          (searchFile file).map fun found =>
          (progress.visit maximumMatches found,
            !(progress.visit maximumMatches found).full maximumFiles
            maximumMatches) := by
        rw [searchNext, full]
        rfl
      rw [consume_cons full]
      cases outcome : searchFile file with
      | error error =>
        rw [outcome] at next
        rw [Walk.each_fails next]
        rfl
      | ok found =>
        rw [outcome, Except.map] at next
        cases last : (progress.visit maximumMatches found).full
            maximumFiles maximumMatches with
        | true =>
          rw [last] at next
          rw [Walk.each_stops next, Except.bind, consume_full last]
          exact congrArg Except.ok (result_full last _ _)
        | false =>
          rw [last] at next
          rw [Walk.each_continues next]
          exact induction _

/-- What holds of the gathered files between two calls of the walk. -/
structure Gathering (maximumFiles maximumMatches batchSize : Nat)
    (state : BatchState File Match) : Prop where
  room : state.batch.length < batchSize
  searching : state.batch ≠ [] →
    state.progress.full maximumFiles maximumMatches = false ∧
      state.scheduledFiles < maximumFiles
  counted : state.progress.visitedFiles + state.batch.length ≤
    state.scheduledFiles
  scheduled : state.progress.full maximumFiles maximumMatches = false →
    state.scheduledFiles = state.progress.visitedFiles + state.batch.length

theorem full_iff {progress : SearchProgress Match} :
    progress.full maximumFiles maximumMatches = true ↔
    maximumMatches ≤ progress.found.length ∨
    maximumFiles ≤ progress.visitedFiles := by
  rw [SearchProgress.full, Bool.or_eq_true, decide_eq_true_eq,
    decide_eq_true_eq]

theorem flush_eq (state : BatchState File Match) :
    flush searchFile maximumFiles maximumMatches state =
      (consume searchFile maximumFiles maximumMatches state.progress
        state.batch).map fun next =>
          ({ state with progress := next, batch := [] },
            !next.full maximumFiles maximumMatches) := by
  rw [flush, settle_eq]
  cases consume searchFile maximumFiles maximumMatches state.progress
    state.batch with
  | error error => rfl
  | ok next => rfl

theorem flushRest_eq {state : BatchState File Match} (gathering : Gathering
    maximumFiles maximumMatches batchSize state) (truncated : Bool) :
    ((flushRest searchFile maximumFiles maximumMatches state).map fun state =>
    state.progress.result maximumFiles maximumMatches truncated) = (consume
    searchFile maximumFiles maximumMatches state.progress state.batch).map fun
    next => next.result maximumFiles maximumMatches truncated := by
  by_cases empty : state.batch = []
  · rw [flushRest, if_neg, empty]
    · rfl
    · intro filled
      exact filled.1 empty
  · have room := (gathering.searching empty).1
    rw [← Bool.not_eq_true, full_iff, not_or, Nat.not_le, Nat.not_le] at room
    rw [flushRest, if_pos ⟨empty, room⟩, flush_eq]
    cases consume searchFile maximumFiles maximumMatches state.progress
      state.batch with
    | error error => rfl
    | ok next => rfl

theorem each_schedule {state : BatchState File Match} (files : List File)
    (gathering : Gathering maximumFiles maximumMatches batchSize state) :
    ((walk.each (schedule searchFile maximumFiles maximumMatches batchSize)
    state files).bind fun (state, truncated) => (flushRest searchFile
    maximumFiles maximumMatches state).map fun state => state.progress.result
    maximumFiles maximumMatches truncated) = (consume searchFile maximumFiles
    maximumMatches state.progress (state.batch ++ files)).map fun next =>
    next.result maximumFiles maximumMatches walk.truncated := by
  induction files generalizing state with
  | nil =>
    rw [append_nil]
    exact flushRest_eq gathering walk.truncated
  | cons file rest induction =>
    by_cases stops : maximumMatches ≤ state.progress.found.length ∨
        maximumFiles ≤ state.scheduledFiles
    · have empty : state.batch = [] := by
        by_contra filled
        obtain ⟨room, fewer⟩ := gathering.searching filled
        rw [← Bool.not_eq_true, full_iff, not_or] at room
        rcases stops with matched | visited
        · exact room.1 matched
        · exact absurd fewer (Nat.not_lt.mpr visited)
      have full : state.progress.full maximumFiles maximumMatches = true := by
        by_contra room
        have counted :=
          gathering.scheduled (Bool.eq_false_iff.mpr room)
        rw [full_iff] at room
        rw [empty, length_nil, Nat.add_zero] at counted
        rw [counted] at stops
        exact room stops
      rw [Walk.each_stops (if_pos stops), Except.bind]
      dsimp only
      rw [flushRest_eq gathering, empty, nil_append,
        consume_full full, consume_full full]
      exact congrArg Except.ok (result_full full _ _)
    · have limits := stops
      have room : state.progress.full maximumFiles maximumMatches = false := by
        have counted := gathering.counted
        rw [← Bool.not_eq_true, full_iff, not_or]
        omega
      have counted := gathering.scheduled room
      let next : BatchState File Match :=
        { state with
          scheduledFiles := state.scheduledFiles + 1
          batch := state.batch ++ [file] }
      have size : next.batch.length = state.batch.length + 1 := by simp [next]
      have whole : state.batch ++ file :: rest = next.batch ++ rest := by
        simp [next]
      by_cases waits : next.batch.length < batchSize ∧
          next.scheduledFiles < maximumFiles
      · have continued : schedule searchFile maximumFiles maximumMatches
            batchSize state file = .ok (next, true) := by
          rw [schedule, if_neg stops]
          exact if_pos waits
        have gathered :
            Gathering maximumFiles maximumMatches batchSize next := by
          constructor
          · exact waits.1
          · intro _
            exact ⟨room, waits.2⟩
          · rw [size]
            exact Nat.succ_le_succ gathering.counted
          · intro _
            rw [size]
            exact congrArg Nat.succ counted
        rw [Walk.each_continues continued, whole]
        exact induction gathered
      · have flushed : schedule searchFile maximumFiles maximumMatches
            batchSize state file =
            flush searchFile maximumFiles maximumMatches next := by
          rw [schedule, if_neg stops]
          exact if_neg waits
        rw [flush_eq] at flushed
        rw [whole, consume_append]
        cases consumed : consume searchFile maximumFiles maximumMatches
            next.progress next.batch with
        | error error =>
          rw [consumed] at flushed
          rw [Walk.each_fails flushed]
          rfl
        | ok progress =>
          rw [consumed, Except.map] at flushed
          cases full : progress.full maximumFiles maximumMatches with
          | true =>
            rw [full] at flushed
            rw [Walk.each_stops flushed, Except.bind, Except.bind,
              consume_full full]
            exact congrArg Except.ok (result_full full _ _)
          | false =>
            rw [full] at flushed
            have visited := visitedFiles_consume consumed full
            rw [size, ← Nat.add_assoc, ← counted] at visited
            rw [Walk.each_continues flushed]
            apply induction
            constructor
            · exact Nat.zero_lt_of_lt gathering.room
            · intro filled
              exact absurd rfl filled
            · exact Nat.le_of_eq visited
            · intro _
              exact visited.symm

end Equal

theorem boundedBatchSize_pos (value : Option Int) :
    0 < boundedBatchSize value := by
  cases value with
  | none => decide
  | some size =>
    rw [boundedBatchSize]
    split
    case isTrue inside => exact Int.pos_iff_toNat_pos.mp inside.1
    case isFalse => decide

theorem searchWorkspaceFiles_eq (batchSize : Option Int) (walk : Walk File) :
    searchWorkspaceFiles searchFile maximumFiles maximumMatches batchSize walk
    = searchOneByOne searchFile maximumFiles maximumMatches walk := by
  have gathering : Gathering maximumFiles maximumMatches
      (boundedBatchSize batchSize) ({} : BatchState File Match) := by
    constructor
    · exact boundedBatchSize_pos batchSize
    · intro filled
      exact absurd rfl filled
    · exact Nat.le_refl _
    · intro _
      rfl
  rw [searchWorkspaceFiles, searchOneByOne, each_schedule walk.files gathering,
    each_searchNext]
  rfl

section Results

variable {searchFile maximumFiles maximumMatches}

theorem mem_of_consume {files : List File}
    {progress next : SearchProgress Match} {item : Match} (consumed : consume
    searchFile maximumFiles maximumMatches progress files = .ok next)
    (inside : item ∈ next.found) : item ∈ progress.found ∨ ∃ file ∈ files, ∃
    found, searchFile file = .ok found ∧ item ∈ found := by
  induction files generalizing progress with
  | nil =>
    cases consumed
    exact Or.inl inside
  | cons file rest induction =>
    cases full : progress.full maximumFiles maximumMatches with
    | true =>
      rw [consume_full full] at consumed
      cases consumed
      exact Or.inl inside
    | false =>
      rw [consume_cons full] at consumed
      cases outcome : searchFile file with
      | error error =>
        rw [outcome] at consumed
        cases consumed
      | ok found =>
        rw [outcome] at consumed
        rcases induction consumed with visited | later
        · rcases mem_append.mp visited with old | new
          · exact Or.inl old
          · exact Or.inr ⟨file, mem_cons_self, found, outcome,
              mem_of_mem_take new⟩
        · obtain ⟨other, member, result, searched, listed⟩ := later
          exact Or.inr ⟨other, mem_cons_of_mem _ member, result,
            searched, listed⟩

theorem mem_of_searchWorkspaceFiles {batchSize : Option Int} {walk : Walk File}
    {result : SearchResult Match} {item : Match} (searched :
    searchWorkspaceFiles searchFile maximumFiles maximumMatches batchSize walk
    = .ok result) (inside : item ∈ result.found) : ∃ file ∈ walk.files, ∃
    found, searchFile file = .ok found ∧ item ∈ found := by
  rw [searchWorkspaceFiles_eq, searchOneByOne, each_searchNext] at searched
  cases consumed : consume searchFile maximumFiles maximumMatches {}
      walk.files with
  | error error =>
    rw [consumed] at searched
    cases searched
  | ok next =>
    rw [consumed] at searched
    cases searched
    rcases mem_of_consume consumed inside with start | found
    · exact absurd start not_mem_nil
    · exact found

end Results

end MachineBridge.Search
