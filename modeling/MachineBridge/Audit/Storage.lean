import MachineBridge.Audit.State
import MachineBridge.Foundation.Run
import Mathlib.Data.List.Induction

/-!
# The stored security audit

A session keeps the state it last read or wrote, together with the identity of
the file.  A batch is appended to a copy, bounded, and written by replacing the
file; the directory is synchronised afterwards.  `appended` lists every event
that has reached the file.
-/

namespace MachineBridge.Audit

open Foundation List

structure AuditLedger where
  file : Option (AuditState × Nat) := none
  /-- The number of file identities used so far. -/
  identities : Nat := 0
  cache : Option (AuditState × Option Nat) := none
  drawn : Nat := 0
  appended : List AuditEvent := []

/-- Where the writing of a batch fails. -/
inductive WriteFault where
  | beforeReplacement
  /-- The synchronisation of the directory or the inspection of the new file
  fails. -/
  | afterReplacement
deriving DecidableEq

inductive AuditStep where
  | recordBatch (records : List AuditRecord) (fault : Option WriteFault)
  | restart

namespace AuditLedger

variable (platform : AuditPlatform)

def contentBytes (state : AuditState) : Nat :=
  platform.headBytes { state with events := [] } +
    eventsBytes platform state.events

def readVerifiedAuditState (state : AuditState) :
    Except AuditFailure AuditState :=
  if auditMaxBytes < contentBytes platform state then .error .storage
  else decodeAndVerifyAuditState platform state auditSchemaVersion
    auditMaxEvents

section

variable (ledger : AuditLedger)

def loadVerifiedState : Except AuditFailure AuditState × AuditLedger :=
  let read :=
    match ledger.file with
    | none =>
      let state := emptyAuditState (platform.randomBytes ledger.drawn).val
        (platform.randomBytes (ledger.drawn + 1)).val
      (.ok state, { ledger with
        cache := some (state, none)
        drawn := ledger.drawn + 2 })
    | some (content, identity) =>
      match readVerifiedAuditState platform content with
      | .error failure => (.error failure, ledger)
      | .ok state =>
        (.ok state, { ledger with cache := some (state, some identity) })
  match ledger.cache with
  | none => read
  | some (state, identity) =>
    if identity = ledger.file.map Prod.snd then (.ok state, ledger)
    else read

def appendAuditBatch (state : AuditState) (records : List AuditRecord) :
    Except AuditFailure (AuditState × List AuditEvent) :=
  match appendAuditRecords platform state records with
  | .error failure => .error failure
  | .ok extended =>
    (boundedAuditState platform extended auditMaxEvents auditMaxBytes).map
      fun next => (next, extended.events.drop state.events.length)

def writeState (next : AuditState) (added : List AuditEvent)
    (fault : Option WriteFault) : Except AuditFailure Unit × AuditLedger :=
  let replaced := { ledger with
    file := some (next, ledger.identities)
    identities := ledger.identities + 1
    appended := ledger.appended ++ added }
  match fault with
  | some .beforeReplacement => (.error .storage, ledger)
  | some .afterReplacement => (.error .storage, replaced)
  | none =>
    (.ok (), { replaced with cache := some (next, some ledger.identities) })

def recordBatch (records : List AuditRecord) (fault : Option WriteFault) :
    Except AuditFailure Unit × AuditLedger :=
  match loadVerifiedState platform ledger with
  | (.error failure, loaded) => (.error failure, loaded)
  | (.ok state, loaded) =>
    if records.isEmpty then (.ok (), loaded)
    else
      match appendAuditBatch platform state records with
      | .error failure => (.error failure, loaded)
      | .ok (next, added) => writeState loaded next added fault

def step : AuditStep → AuditLedger
  | .recordBatch records fault => (recordBatch platform ledger records fault).2
  | .restart => { ledger with cache := none }

/-- Every risk category is cut cleanly, the sequence numbers stay safe, and the
write does not fail once the file has been replaced. -/
def Admissible : AuditStep → Prop
  | .recordBatch records fault =>
    (∀ record ∈ records, cutsCleanly record.input.riskCategory = true) ∧
      ledger.appended.length + records.length < maxSafeInteger ∧
        fault ≠ some .afterReplacement
  | .restart => True

end

end AuditLedger

variable {platform : AuditPlatform}

/-- The hash which the next event of a chain names. -/
def endOfChain (previous : Text) (events : List AuditEvent) : Text :=
  (events.getLast?.map (·.hash)).getD previous

theorem endOfChain_cons (previous : Text) (event : AuditEvent)
    (events : List AuditEvent) :
    endOfChain previous (event :: events) = endOfChain event.hash events := by
  cases events with
  | nil => rfl
  | cons next rest =>
    simp [endOfChain, getLast?_cons_cons,
      getLast?_eq_some_getLast (cons_ne_nil next rest)]

theorem lastHash_eq (state : AuditState) :
    lastHash state = endOfChain state.anchor state.events := by
  simp only [lastHash, endOfChain]
  cases state.events.getLast? <;> rfl

theorem chained_append {previous : Text} {before after : List AuditEvent} :
    chained platform previous (before ++ after) = true ↔
    chained platform previous before = true ∧
    chained platform (endOfChain previous before) after = true := by
  induction before generalizing previous with
  | nil => simp [chained, endOfChain]
  | cons event before induction =>
    simp only [cons_append, chained, endOfChain_cons,
      Bool.and_eq_true, induction, and_assoc]

theorem isHash_endOfChain {previous : Text} {events : List AuditEvent}
    (start : isHash previous = true)
    (valid : ∀ event ∈ events, validEvent event = true) :
    isHash (endOfChain previous events) = true := by
  cases last : events.getLast? with
  | none => simpa [endOfChain, last] using start
  | some event =>
    have member : event ∈ events := mem_of_getLast? last
    have checked := valid event member
    simp only [validEvent, Bool.and_eq_true] at checked
    simpa [endOfChain, last] using checked.2

/-- A state which the load accepts and which holds the last events of a
history. -/
structure Continues (platform : AuditPlatform) (history : List AuditEvent)
    (state : AuditState) : Prop where
  schema : state.schemaVersion = auditSchemaVersion
  legacy : state.legacyEventCount = 0
  salt : isHash state.identitySalt = true
  anchor : isHash state.anchor = true
  next : state.nextSequence = history.length + 1
  retained : ∃ evicted, history = evicted ++ state.events ∧
    (evicted ≠ [] → state.anchor = endOfChain state.anchor evicted)
  chain : chained platform state.anchor state.events = true
  valid : ∀ event ∈ state.events, validEvent event = true

def Numbered (history : List AuditEvent) : Prop :=
  ∀ index event, history[index]? = some event → event.sequence = index + 1

variable {history : List AuditEvent} {next state : AuditState}

theorem numbered_append {event : AuditEvent} (numbered : Numbered history)
    (sequence : event.sequence = history.length + 1) :
    Numbered (history ++ [event]) := by
  intro index stored found
  by_cases earlier : index < history.length
  · rw [getElem?_append_left earlier] at found
    exact numbered index stored found
  · have bound := (List.getElem?_eq_some_iff.mp found).1
    rw [length_append, length_singleton] at bound
    have last : index = history.length := by omega
    subst last
    rw [getElem?_concat_length] at found
    cases found
    exact sequence

theorem continues_empty {salt anchor : Text} (saltHash : isHash salt = true)
    (anchorHash : isHash anchor = true) :
    Continues platform [] (emptyAuditState salt anchor) where
  schema := rfl
  legacy := rfl
  salt := saltHash
  anchor := anchorHash
  next := rfl
  retained := by
    refine ⟨[], rfl, ?_⟩
    intro absurd_
    exact absurd rfl absurd_
  chain := rfl
  valid := by
    intro event member
    cases member

theorem continues_append {record : AuditRecord}
    (continues : Continues platform history state)
    (numbered : Numbered history)
    (clean : cutsCleanly record.input.riskCategory = true)
    (safe : history.length < maxSafeInteger)
    (appended : appendAuditRecord platform state record = .ok next) : ∃ event,
    next.events = state.events ++ [event] ∧
    Continues platform (history ++ [event]) next ∧
    Numbered (history ++ [event]) := by
  simp only [appendAuditRecord] at appended
  split at appended
  case h_2 => cases appended
  case h_1 nowMs _ =>
    split at appended
    case h_1 => cases appended
    case h_2 epoch epochFound =>
      cases read : dateOf nowMs with
      | error failure => rw [read] at appended; cases appended
      | ok timestamp =>
        rw [read] at appended
        cases appended
        have epochHash : isHash epoch = true :=
          (Option.filter_eq_some_iff.mp epochFound).2
        have previous : isHash (lastHash state) = true := by
          rw [lastHash_eq]
          exact isHash_endOfChain continues.anchor continues.valid
        have sequence := continues.next
        have event : validEvent (eventOf platform
            (buildBody platform record.input state epoch timestamp)) = true :=
          validEvent_buildBody clean (by omega) (by omega) epochHash
            (validIsoTimestamp_dateOf read) previous
        refine ⟨_, rfl, ⟨continues.schema, continues.legacy, continues.salt,
          continues.anchor, ?_, ?_, ?_, ?_⟩, numbered_append numbered sequence⟩
        · show increment state.nextSequence = _
          rw [sequence, length_append, length_singleton, increment]
          omega
        · obtain ⟨evicted, split, linked⟩ := continues.retained
          refine ⟨evicted, ?_, linked⟩
          rw [split, append_assoc]
        · apply chained_append.mpr
          refine ⟨continues.chain, ?_⟩
          simp [chained, eventOf, buildBody, lastHash_eq]
        · intro stored member
          rcases mem_append.mp member with old | new
          · exact continues.valid stored old
          · rw [mem_singleton.mp new]
            exact event

theorem continues_appendAll {records : List AuditRecord}
    (continues : Continues platform history state)
    (numbered : Numbered history)
    (clean : ∀ record ∈ records, cutsCleanly record.input.riskCategory = true)
    (safe : history.length + records.length ≤ maxSafeInteger)
    (appended : appendAuditRecords platform state records = .ok next) :
    ∃ added, next.events = state.events ++ added ∧
    added.length = records.length ∧
    Continues platform (history ++ added) next ∧ Numbered (history ++ added) :=
    by
  induction records generalizing history state with
  | nil =>
    cases appended
    exact ⟨[], by simp, rfl, by simpa using continues, by simpa using numbered⟩
  | cons record records induction =>
    rw [appendAuditRecords, foldlM_cons] at appended
    cases first : appendAuditRecord platform state record with
    | error failure => rw [first] at appended; cases appended
    | ok middle =>
      rw [first] at appended
      rw [length_cons] at safe
      obtain ⟨event, events, kept, counted⟩ := continues_append continues
        numbered (clean record mem_cons_self) (by omega) first
      obtain ⟨added, more, length, rest, all⟩ := induction kept counted
        (fun other member => clean other (mem_cons_of_mem _ member))
        (by
          rw [length_append, length_singleton]
          omega) appended
      refine ⟨event :: added, ?_, ?_, ?_, ?_⟩
      · rw [more, events, append_assoc]
        rfl
      · rw [length_cons, length_cons, length]
      · simpa [append_assoc] using rest
      · simpa [append_assoc] using all

theorem anchor_evict {start : Nat} (bound : start ≤ state.events.length) :
    (evict state start).anchor =
    endOfChain state.anchor (state.events.take start) := by
  cases start with
  | zero => simp [evict, endOfChain]
  | succ start =>
    have inside : start < state.events.length := bound
    simp only [evict, Nat.add_one_ne_zero, ↓reduceIte,
      Nat.add_one_sub_one, getElem?_eq_getElem inside, Option.map_some,
      Option.getD_some, endOfChain]
    rw [take_add_one, getElem?_eq_getElem inside,
      Option.toList_some, getLast?_concat]
    rfl

theorem continues_evict {start : Nat}
    (continues : Continues platform history state)
    (bound : start ≤ state.events.length) :
    Continues platform history (evict state start) := by
  have chain := continues.chain
  rw [← take_append_drop start state.events, chained_append] at chain
  have anchor := anchor_evict bound
  exact
    { schema := continues.schema
      legacy := by simp [evict, continues.legacy]
      __ := continues
      anchor := by
        rw [anchor]
        apply isHash_endOfChain continues.anchor
        intro event member
        exact continues.valid event (mem_of_mem_take member)
      retained := by
        obtain ⟨evicted, split, linked⟩ := continues.retained
        refine ⟨evicted ++ state.events.take start, ?_, ?_⟩
        · rw [append_assoc]
          show history = evicted ++ (state.events.take start ++
            state.events.drop start)
          rw [take_append_drop]
          exact split
        · intro removed
          rw [anchor]
          cases taken : state.events.take start with
          | nil =>
            rw [taken, append_nil] at removed
            simp only [append_nil]
            have same := linked removed
            exact same
          | cons event rest =>
            simp [endOfChain, getLast?_append, getLast?_cons]
      chain := by
        rw [anchor]
        exact chain.2
      valid := by
        intro event member
        exact continues.valid event (mem_of_mem_drop member) }

theorem evictedForBytes_le (maximumBytes head : Nat)
    (events : List AuditEvent) :
    evictedForBytes platform maximumBytes head events ≤ events.length := by
  induction events with
  | nil => exact Nat.le_refl _
  | cons event events induction =>
    simp only [evictedForBytes, length_cons]
    split
    case isTrue => omega
    case isFalse => omega

theorem continues_bounded {maximumEvents maximumBytes : Nat}
    (continues : Continues platform history state) (bounded : boundedAuditState
    platform state maximumEvents maximumBytes = .ok next) : Continues platform
    history next ∧ next.events.length ≤ maximumEvents ∧
    AuditLedger.contentBytes platform next ≤ maximumBytes := by
  simp only [boundedAuditState] at bounded
  split at bounded
  case isTrue => cases bounded
  case isFalse fits =>
    cases bounded
    have removed : evictedForBytes platform maximumBytes
        (platform.headBytes { state with events := [] })
        (state.events.drop (state.events.length - maximumEvents)) ≤ _ :=
      evictedForBytes_le _ _ _
    rw [length_drop] at removed
    refine ⟨continues_evict continues (by omega), ?_, Nat.not_lt.mp fits⟩
    show (state.events.drop _).length ≤ maximumEvents
    rw [length_drop]
    omega

theorem decodeAndVerify_of_continues
    (continues : Continues platform history state)
    (numbered : Numbered history) (few : state.events.length ≤ auditMaxEvents)
    (safe : history.length < maxSafeInteger) : decodeAndVerifyAuditState
    platform state auditSchemaVersion auditMaxEvents = .ok state := by
  have next := continues.next
  have advanced : state.events.getLast?.any (fun event =>
      state.nextSequence ≤ event.sequence) = false := by
    cases last : state.events.getLast? with
    | none => rfl
    | some event =>
      obtain ⟨evicted, split, -⟩ := continues.retained
      have present : event ∈ history := by
        rw [split]
        exact mem_append_right _ (mem_of_getLast? last)
      obtain ⟨index, inside, found⟩ := getElem_of_mem present
      have sequence := numbered index event (by
        rw [getElem?_eq_getElem inside, found])
      simp
      omega
  have valid : state.events.all validEvent = true :=
    all_eq_true.mpr continues.valid
  have checked :
      validateState platform state auditSchemaVersion auditMaxEvents =
      .ok () := by
    have schema := continues.schema
    have legacy := continues.legacy
    have safeNext : isSafeInteger state.nextSequence = true := by
      rw [isSafeInteger_iff]
      omega
    have positive : ¬ state.nextSequence < 1 := by omega
    have room : ¬ auditMaxEvents < state.events.length := by omega
    have safeLegacy : isSafeInteger 0 = true := by decide
    simp only [validateState, schema, legacy, continues.salt,
      continues.anchor, safeNext, positive, room, safeLegacy, valid,
      advanced, take_zero, drop_zero, all_nil]
    simp [auditSchemaVersion]
  rw [decodeAndVerifyAuditState, checked]
  simp only [bind, Except.bind, continues.chain, ↓reduceIte]

namespace AuditLedger

structure Sound (platform : AuditPlatform) (ledger : AuditLedger) : Prop where
  numbered : Numbered ledger.appended
  safe : ledger.appended.length < maxSafeInteger
  stored : ∀ state identity, ledger.file = some (state, identity) →
    Continues platform ledger.appended state ∧
      state.events.length ≤ auditMaxEvents ∧
        contentBytes platform state ≤ auditMaxBytes ∧
          identity < ledger.identities
  fresh : ledger.file = none → ledger.appended = []
  cached : ∀ state identity, ledger.cache = some (state, identity) →
    (identity = none → ledger.file = none → Continues platform [] state) ∧
    (∀ number, identity = some number → number < ledger.identities) ∧
    ∀ content number, identity = some number →
      ledger.file = some (content, number) → state = content

theorem sound_initial : Sound platform {} where
  numbered := by
    intro index event found
    cases found
  safe := by decide
  stored := by
    intro state identity stored
    cases stored
  fresh := fun _ => rfl
  cached := by
    intro state identity cached
    cases cached

variable {ledger : AuditLedger}

theorem read_of_sound (sound : Sound platform ledger) {state : AuditState}
    {identity : Nat} (stored : ledger.file = some (state, identity)) :
    readVerifiedAuditState platform state = .ok state := by
  obtain ⟨continues, few, small, -⟩ := sound.stored state identity stored
  rw [readVerifiedAuditState, if_neg (Nat.not_lt.mpr small)]
  exact decodeAndVerify_of_continues continues sound.numbered few sound.safe

/-- The state of the session, when it is up to date. -/
def memory (ledger : AuditLedger) : Option AuditState :=
  match ledger.cache with
  | none => none
  | some (state, identity) =>
    if identity = ledger.file.map Prod.snd then some state else none

theorem load_of_sound (sound : Sound platform ledger) : ∃ state,
    (loadVerifiedState platform ledger).1 = .ok state ∧
    Continues platform ledger.appended state ∧
    Sound platform (loadVerifiedState platform ledger).2 ∧
    (loadVerifiedState platform ledger).2.file = ledger.file ∧
    (loadVerifiedState platform ledger).2.appended = ledger.appended ∧
    (loadVerifiedState platform ledger).2.identities = ledger.identities ∧
    (memory (loadVerifiedState platform ledger).2 = memory ledger ∨
      memory ledger = none) := by
  have read : ∀ next : Except AuditFailure AuditState × AuditLedger,
      next = (match ledger.file with
        | none =>
          let state := emptyAuditState
            (platform.randomBytes ledger.drawn).val
            (platform.randomBytes (ledger.drawn + 1)).val
          (.ok state, { ledger with
            cache := some (state, none)
            drawn := ledger.drawn + 2 })
        | some (content, identity) =>
          match readVerifiedAuditState platform content with
          | .error failure => (.error failure, ledger)
          | .ok state => (.ok state, { ledger with
              cache := some (state, some identity) })) →
      ∃ state, next.1 = .ok state ∧
        Continues platform ledger.appended state ∧
        Sound platform next.2 ∧ next.2.file = ledger.file ∧
        next.2.appended = ledger.appended ∧
        next.2.identities = ledger.identities := by
    intro next equal
    subst equal
    split
    case h_1 absent =>
      have started : Continues platform []
          (emptyAuditState (platform.randomBytes ledger.drawn).val
            (platform.randomBytes (ledger.drawn + 1)).val) :=
        continues_empty (platform.randomBytes _).property
          (platform.randomBytes _).property
      refine ⟨_, rfl, ?_, ⟨sound.numbered, sound.safe, sound.stored,
        sound.fresh, ?_⟩, rfl, rfl, rfl⟩
      · rw [sound.fresh absent]
        exact started
      · intro state identity cached
        cases cached
        refine ⟨fun _ _ => started, ?_, ?_⟩
        · intro number impossible
          cases impossible
        · intro content number impossible
          cases impossible
    case h_2 content identity stored =>
      rw [read_of_sound sound stored]
      obtain ⟨continues, -, -, bound⟩ := sound.stored content identity stored
      refine ⟨content, rfl, continues, ⟨sound.numbered, sound.safe,
        sound.stored, sound.fresh, ?_⟩, rfl, rfl, rfl⟩
      intro state number cached
      cases cached
      refine ⟨?_, ?_, ?_⟩
      · intro impossible
        cases impossible
      · intro number same
        cases same
        exact bound
      · intro other number same file
        cases same
        rw [stored] at file
        cases file
        rfl
  simp only [loadVerifiedState]
  split
  case h_1 absent =>
    obtain ⟨state, first, rest⟩ := read _ rfl
    refine ⟨state, first, rest.1, rest.2.1, rest.2.2.1, rest.2.2.2.1,
      rest.2.2.2.2, .inr ?_⟩
    simp [memory, absent]
  case h_2 state identity cached =>
    split
    case isTrue current =>
      refine ⟨state, rfl, ?_, sound, rfl, rfl, rfl, .inl rfl⟩
      obtain ⟨initial, -, same⟩ := sound.cached state identity cached
      cases file : ledger.file with
      | none =>
        rw [file] at current
        rw [sound.fresh file]
        exact initial current file
      | some stored =>
        obtain ⟨content, number⟩ := stored
        rw [file] at current
        rw [same content number current file]
        exact (sound.stored content number file).1
    case isFalse stale =>
      obtain ⟨next, first, rest⟩ := read _ rfl
      refine ⟨next, first, rest.1, rest.2.1, rest.2.2.1, rest.2.2.2.1,
        rest.2.2.2.2, .inr ?_⟩
      simp [memory, cached, stale]

theorem appendAuditBatch_eq {state : AuditState} {records : List AuditRecord}
    {next : AuditState} {added : List AuditEvent}
    (batch : appendAuditBatch platform state records = .ok (next, added)) :
    ∃ extended, appendAuditRecords platform state records = .ok extended ∧
    boundedAuditState platform extended auditMaxEvents auditMaxBytes =
    .ok next ∧ added = extended.events.drop state.events.length := by
  simp only [appendAuditBatch] at batch
  split at batch
  case h_1 => cases batch
  case h_2 extended append =>
    cases bound : boundedAuditState platform extended auditMaxEvents
        auditMaxBytes with
    | error failure =>
      rw [bound] at batch
      cases batch
    | ok bounded =>
      rw [bound] at batch
      obtain ⟨same, equal⟩ := Prod.mk.inj (Except.ok.inj batch)
      rw [same] at bound
      exact ⟨extended, append, bound, equal.symm⟩

/-- What a batch can do: replace the file by a state which continues the longer
history, or change nothing but what the session remembers. -/
theorem recordBatch_cases (sound : Sound platform ledger)
    {records : List AuditRecord} {fault : Option WriteFault}
    (admissible : Admissible ledger (.recordBatch records fault)) :
    (Sound platform (recordBatch platform ledger records fault).2 ∧
      (recordBatch platform ledger records fault).2.file = ledger.file ∧
      (memory (recordBatch platform ledger records fault).2 = memory ledger ∨
        memory ledger = none)) ∨
    ((recordBatch platform ledger records fault).1 = .ok () ∧
      Sound platform (recordBatch platform ledger records fault).2) := by
  obtain ⟨clean, safe, afterwards⟩ := admissible
  obtain ⟨state, loaded, continues, kept, file, appended, identities,
    remembered⟩ := load_of_sound sound
  have split : loadVerifiedState platform ledger =
      (.ok state, (loadVerifiedState platform ledger).2) := by
    rw [← loaded]
  simp only [recordBatch]
  rw [split]
  simp only
  split
  case isTrue => exact .inl ⟨kept, file, remembered⟩
  case isFalse =>
    split
    case h_1 => exact .inl ⟨kept, file, remembered⟩
    case h_2 next added batch =>
      obtain ⟨extended, append, bound, same⟩ := appendAuditBatch_eq batch
      have longer := continues_appendAll continues sound.numbered clean
        (by omega) append
      obtain ⟨events, grown, length, continued, numbered⟩ := longer
      have equal : added = events := by rw [same, grown, drop_left]
      subst equal
      obtain ⟨written, few, small⟩ := continues_bounded continued bound
      cases fault with
      | some fault =>
        cases fault with
        | beforeReplacement => exact .inl ⟨kept, file, remembered⟩
        | afterReplacement => exact absurd rfl afterwards
      | none =>
        refine .inr ⟨rfl, ⟨?_, ?_, ?_, ?_, ?_⟩⟩
        · show Numbered (_ ++ added)
          rw [appended]
          exact numbered
        · show (_ ++ added).length < maxSafeInteger
          rw [appended, length_append, length]
          exact safe
        · intro stored identity found
          cases found
          refine ⟨?_, few, small, Nat.lt_succ_self _⟩
          show Continues platform (_ ++ added) next
          rw [appended]
          exact written
        · intro absent
          cases absent
        · intro stored identity found
          cases found
          refine ⟨?_, ?_, ?_⟩
          · intro impossible
            cases impossible
          · intro number equal
            cases equal
            exact Nat.lt_succ_self _
          · intro content number equal found
            cases equal
            cases found
            rfl

theorem sound_step (ledger : AuditLedger) (event : AuditStep)
    (admissible : Admissible ledger event) (sound : Sound platform ledger) :
    Sound platform (step platform ledger event) := by
  cases event with
  | recordBatch records fault =>
    rcases recordBatch_cases sound admissible with
      ⟨kept, -⟩ | ⟨-, written⟩
    · exact kept
    · exact written
  | restart =>
    refine ⟨sound.numbered, sound.safe, sound.stored, sound.fresh, ?_⟩
    intro state identity cached
    cases cached

/-- A platform whose digests are constant. -/
def examplePlatform : AuditPlatform where
  eventHash := fun _ => ⟨List.replicate 64 0x61, by decide⟩
  reference := fun _ _ => ⟨List.replicate 64 0x61, by decide⟩
  eventBytes := fun _ => 600
  headBytes := fun _ => 300
  randomBytes := fun _ => ⟨List.replicate 64 0x61, by decide⟩
  validBeta198AuditEvent := fun _ => false

def exampleRecord (category : Text) : AuditRecord where
  nowMs := .number 1000
  input :=
    { outcome := .text (text "completed"), tool := .text (text "read_file")
      riskCategory := .text category
      pseudonymEpoch := .text (List.replicate 64 0x61) }

/-- No two events of the histories have one hash without being the same. -/
def CollisionFree (platform : AuditPlatform) (left right : List AuditEvent) :
    Prop :=
  ∀ one ∈ left, ∀ other ∈ right,
    platform.eventHash one.toAuditBody = platform.eventHash other.toAuditBody →
      one.toAuditBody = other.toAuditBody

variable {platform : AuditPlatform} {left right : AuditState}

theorem hash_of_chained {previous : Text} {event : AuditEvent}
    (chain : chained platform previous [event] = true) :
    event.previousHash = previous ∧
    event.hash = (platform.eventHash event.toAuditBody).val := by
  simpa [chained] using chain

theorem suffix_of_chained {first second : Text}
    {before after : List AuditEvent}
    (collisionFree : CollisionFree platform before after)
    (one : chained platform first before = true)
    (other : chained platform second after = true)
    (same : endOfChain first before = endOfChain second after) :
    (∃ removed, after = removed ++ before ∧
      endOfChain second removed = first) ∨
    ∃ removed, before = removed ++ after ∧
      endOfChain first removed = second := by
  induction before using reverseRecOn generalizing after with
  | nil => exact .inl ⟨after, (append_nil after).symm, same.symm⟩
  | append_singleton before event induction =>
    rcases eq_nil_or_concat' after with rfl | ⟨after, last, rfl⟩
    · exact .inr ⟨before ++ [event], (append_nil _).symm, same⟩
    · rw [chained_append] at one other
      obtain ⟨link, hash⟩ := hash_of_chained one.2
      obtain ⟨otherLink, otherHash⟩ := hash_of_chained other.2
      have equal : event.hash = last.hash := by simpa [endOfChain] using same
      have body : event.toAuditBody = last.toAuditBody := by
        apply collisionFree event (by simp) last (by simp)
        rw [hash, otherHash] at equal
        exact Subtype.ext equal
      have event_eq : event = last := by
        cases event
        cases last
        cases body
        cases equal
        rfl
      subst event_eq
      have shorter := induction (fun one member other inside =>
        collisionFree one (mem_append_left _ member) other
          (mem_append_left _ inside)) one.1 other.1 (link.symm.trans otherLink)
      rcases shorter with ⟨removed, rfl, ends⟩ | ⟨removed, rfl, ends⟩
      · exact .inl ⟨removed, append_assoc _ _ _, ends⟩
      · exact .inr ⟨removed, append_assoc _ _ _, ends⟩

theorem chained_of_accepted (accepted : decodeAndVerifyAuditState platform left
    auditSchemaVersion auditMaxEvents = .ok left) :
    chained platform left.anchor left.events = true := by
  unfold decodeAndVerifyAuditState at accepted
  cases valid : validateState platform left auditSchemaVersion auditMaxEvents
    with
  | error failure =>
    rw [valid] at accepted
    cases accepted
  | ok =>
    rw [valid] at accepted
    by_contra broken
    simp [broken, bind, Except.bind] at accepted

/-- The last hash commits to the history: of two states which the load accepts
and which end in one hash, one holds the last events of the other, and states
of one length hold the same events. -/
theorem lastHash_commits
    (one : decodeAndVerifyAuditState platform left auditSchemaVersion
      auditMaxEvents = .ok left)
    (two : decodeAndVerifyAuditState platform right auditSchemaVersion
      auditMaxEvents = .ok right)
    (collisionFree : CollisionFree platform left.events right.events)
    (same : lastHash left = lastHash right) :
    (left.events <:+ right.events ∨ right.events <:+ left.events) ∧
    (left.events.length = right.events.length →
      left.events = right.events ∧ left.anchor = right.anchor) := by
  rw [lastHash_eq, lastHash_eq] at same
  rcases suffix_of_chained collisionFree (chained_of_accepted one)
      (chained_of_accepted two) same with
    ⟨removed, whole, ends⟩ | ⟨removed, whole, ends⟩
  · refine ⟨.inl ⟨removed, whole.symm⟩, fun size => ?_⟩
    obtain rfl : removed = [] := by simpa [whole] using size
    exact ⟨whole.symm, ends.symm⟩
  · refine ⟨.inr ⟨removed, whole.symm⟩, fun size => ?_⟩
    obtain rfl : removed = [] := by simpa [whole] using size
    exact ⟨whole, ends⟩

/-- Events are told apart by their numbers. -/
def numberingPlatform : AuditPlatform :=
  { examplePlatform with
    eventHash := fun body =>
      if body.sequence = 1 then ⟨List.replicate 64 0x61, by decide⟩
      else ⟨List.replicate 64 0x62, by decide⟩ }

def twoEvents : AuditState :=
  let start := emptyAuditState (List.replicate 64 0x61) (List.replicate 64 0x61)
  match appendAuditRecords numberingPlatform start
      [exampleRecord (text "read"), exampleRecord (text "mutation")] with
  | .ok state => state
  | .error _ => start

theorem lastHash_commits_evicted :
    (evict twoEvents 1).events <:+ twoEvents.events ∨
    twoEvents.events <:+ (evict twoEvents 1).events := by
  have collisionFree : CollisionFree numberingPlatform
      (evict twoEvents 1).events twoEvents.events := by
    unfold CollisionFree
    decide +kernel
  exact (lastHash_commits (by decide +kernel) (by decide +kernel) collisionFree
    (by decide +kernel)).1

end AuditLedger

end MachineBridge.Audit
