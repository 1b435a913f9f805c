import MachineBridge.Foundation.Number
import MachineBridge.Foundation.Record
import MachineBridge.Foundation.Run
import MachineBridge.Foundation.Text

/-!
# Bounded replay protection

A nonce is accepted once before its expiry.  Each replay key holds the accepted
nonces with their expiries; expired ones are dropped when the key is next
written, and a full set refuses every new nonce.
-/

namespace MachineBridge.Security

open Foundation List

abbrev NonceRecord := Record Text Int

abbrev NonceStorage := Record Text NonceRecord

structure NonceOptions where
  (key nonce : Text)
  (expiresAt now : Int)
  noncePattern : Text → Bool
  (maximum maxFutureSeconds : Int)

/-- `^[a-z][a-z0-9-]{1,127}$` -/
def nonceKeyPattern (key : Text) : Bool :=
  2 ≤ key.length && key.length ≤ 128 && (key.head?.map isLower).getD false &&
    key.all fun unit => isLower unit || isDigit unit || unit == 0x2D

def validateOptions (options : NonceOptions) : Bool :=
  let latestExpiry := options.now + options.maxFutureSeconds
  nonceKeyPattern options.key &&
    options.noncePattern options.nonce &&
    (isSafeInt options.now && 0 < options.now) &&
    (isSafeInt options.maximum && 1 ≤ options.maximum &&
      options.maximum ≤ 4096) &&
    (isSafeInt options.maxFutureSeconds && 1 ≤ options.maxFutureSeconds &&
      isSafeInt latestExpiry) &&
    (isSafeInt options.expiresAt && options.now < options.expiresAt &&
      options.expiresAt ≤ latestExpiry)

def validNonceRecord (record : NonceRecord) (noncePattern : Text → Bool)
    (maximum latestExpiry : Int) : Bool :=
  (record.size : Int) ≤ maximum && record.entries.all fun entry =>
    noncePattern entry.1 && isSafeInt entry.2 && 0 < entry.2 &&
      entry.2 ≤ latestExpiry

/-- Names under which every object of the language already has a value. -/
def inheritedNames : List Text :=
  ["constructor", "__defineGetter__", "__defineSetter__", "hasOwnProperty",
    "__lookupGetter__", "__lookupSetter__", "isPrototypeOf",
    "propertyIsEnumerable", "toString", "valueOf", "__proto__",
    "toLocaleString"].map text

section

variable (raw : Option NonceRecord)

def liveNonces (now : Int) : NonceRecord :=
  (raw.getD .empty).filter fun _ expiresAt => !decide (expiresAt ≤ now)

def consumeInStorage (options : NonceOptions) : Option NonceRecord :=
  if raw.any fun record => !validNonceRecord record options.noncePattern
      options.maximum (options.now + options.maxFutureSeconds) then none
  else
    let nonces := liveNonces raw options.now
    if inheritedNames.contains options.nonce ||
        (nonces.get? options.nonce).any (· != 0) then none
    else if options.maximum ≤ (nonces.size : Int) then none
    else some (nonces.set options.nonce options.expiresAt)

end

inductive NonceOutcome where
  | accepted
  | refused
  | thrown
deriving DecidableEq

/-- A call, and whether the storage answers it. -/
structure NonceCall where
  options : NonceOptions
  available : Bool := true

def consumeBoundedNonce (storage : NonceStorage) (call : NonceCall) :
    NonceOutcome × NonceStorage :=
  let options := call.options
  if !validateOptions options || !call.available then (.thrown, storage)
  else
    match consumeInStorage (storage.get? options.key) options with
    | none => (.refused, storage)
    | some nonces => (.accepted, storage.set options.key nonces)

/-- The storage, the latest time of a call, and the calls which were accepted,
the oldest first. -/
structure NonceLedger where
  storage : NonceStorage := .empty
  clock : Int
  accepted : List NonceOptions := []

namespace NonceLedger

def step (ledger : NonceLedger) (call : NonceCall) : NonceLedger :=
  let result := consumeBoundedNonce ledger.storage call
  { storage := result.2
    clock := max ledger.clock call.options.now
    accepted :=
      if result.1 = .accepted then ledger.accepted ++ [call.options]
      else ledger.accepted }

/-- The clock of the calls does not go back. -/
def InOrder (ledger : NonceLedger) (call : NonceCall) : Prop :=
  ledger.clock ≤ call.options.now

end NonceLedger

theorem mem_liveNonces {raw : Option NonceRecord} {now expiresAt : Int}
    {nonce : Text} : (nonce, expiresAt) ∈ (liveNonces raw now).entries ↔
    (∃ record, raw = some record ∧ (nonce, expiresAt) ∈ record.entries) ∧
    now < expiresAt := by
  cases raw with
  | none | some record => simp [liveNonces]

section Accepted

variable {raw : Option NonceRecord} {options : NonceOptions}
  {nonces : NonceRecord}
  (consumed : consumeInStorage raw options = some nonces)
include consumed

theorem consumeInStorage_eq :
    nonces = (liveNonces raw options.now).set options.nonce options.expiresAt ∧
    ((liveNonces raw options.now).get? options.nonce).any (· != 0) = false ∧
    ((liveNonces raw options.now).size : Int) < options.maximum := by
  simp only [consumeInStorage] at consumed
  split at consumed
  case isTrue => cases consumed
  case isFalse =>
    split at consumed
    case isTrue => cases consumed
    case isFalse fresh =>
      split at consumed
      case isTrue => cases consumed
      case isFalse room =>
        rw [Bool.or_eq_true, not_or] at fresh
        exact ⟨(Option.some.inj consumed).symm,
          Bool.eq_false_iff.mpr fresh.2, Int.not_le.mp room⟩

theorem expired_of_consumeInStorage {record : NonceRecord} {expiresAt : Int}
    (positive : 0 < options.now) (stored : raw = some record)
    (member : (options.nonce, expiresAt) ∈ record.entries) :
    expiresAt ≤ options.now := by
  obtain ⟨-, fresh, -⟩ := consumeInStorage_eq consumed
  apply Int.not_lt.mp
  intro live
  have known :
      (liveNonces raw options.now).get? options.nonce = some expiresAt :=
    Record.get?_eq_some.mpr (mem_liveNonces.mpr ⟨⟨record, stored, member⟩,
      live⟩)
  have nonzero : expiresAt ≠ 0 := by omega
  simp [known, nonzero] at fresh

theorem mem_of_consumeInStorage {record : NonceRecord} {nonce : Text}
    {expiresAt : Int} (positive : 0 < options.now) (stored : raw = some record)
    (member : (nonce, expiresAt) ∈ record.entries)
    (live : options.now < expiresAt) :
    (nonce, expiresAt) ∈ nonces.entries := by
  obtain ⟨same, -, -⟩ := consumeInStorage_eq consumed
  rw [same, Record.mem_set]
  apply Or.inr
  refine ⟨?_, mem_liveNonces.mpr ⟨⟨record, stored, member⟩, live⟩⟩
  intro equal
  rw [equal] at member
  have expired := expired_of_consumeInStorage consumed positive stored member
  omega

theorem size_of_consumeInStorage : (nonces.size : Int) ≤ options.maximum := by
  obtain ⟨same, -, room⟩ := consumeInStorage_eq consumed
  have grown := Record.size_set_le (liveNonces raw options.now) options.nonce
    options.expiresAt
  rw [same]
  omega

end Accepted

theorem validateOptions_bounds {options : NonceOptions}
    (valid : validateOptions options = true) :
    0 < options.now ∧ options.now < options.expiresAt := by
  simp only [validateOptions, Bool.and_eq_true, decide_eq_true_eq] at valid
  exact ⟨valid.1.1.1.2.2, valid.2.1.2⟩

theorem consumeBoundedNonce_cases (storage : NonceStorage) (call : NonceCall) :
    ((consumeBoundedNonce storage call).1 ≠ .accepted ∧
      (consumeBoundedNonce storage call).2 = storage) ∨
    (validateOptions call.options = true ∧ ∃ nonces,
      consumeInStorage (storage.get? call.options.key) call.options =
      some nonces ∧ consumeBoundedNonce storage call =
      (.accepted, storage.set call.options.key nonces)) := by
  simp only [consumeBoundedNonce]
  split
  case isTrue => exact .inl ⟨by simp, rfl⟩
  case isFalse valid =>
    simp only [Bool.or_eq_true, Bool.not_eq_true', not_or,
      Bool.not_eq_false] at valid
    split
    case h_1 => exact .inl ⟨by simp, rfl⟩
    case h_2 nonces consumed => exact .inr ⟨valid.1, nonces, consumed, rfl⟩

theorem live_of_consumeBoundedNonce {storage : NonceStorage} {call : NonceCall}
    {key nonce : Text} {record : NonceRecord} {expiresAt : Int}
    (stored : storage.get? key = some record)
    (member : (nonce, expiresAt) ∈ record.entries)
    (live : call.options.now < expiresAt) : ∃ next,
    (consumeBoundedNonce storage call).2.get? key = some next ∧
    (nonce, expiresAt) ∈ next.entries := by
  obtain ⟨-, same⟩ | ⟨valid, nonces, consumed, same⟩ :=
    consumeBoundedNonce_cases storage call
  · rw [same]
    exact ⟨record, stored, member⟩
  · rw [same]
    by_cases equal : key = call.options.key
    · rw [equal] at stored
      refine ⟨nonces, by simp [equal], ?_⟩
      exact mem_of_consumeInStorage consumed (validateOptions_bounds valid).1
        stored member live
    · exact ⟨record, by simp [equal, stored], member⟩

namespace NonceLedger

/-- Two acceptances of one nonce are separated by the expiry of the first. -/
def Separated (earlier later : NonceOptions) : Prop :=
  earlier.key = later.key → earlier.nonce = later.nonce →
    earlier.expiresAt ≤ later.now

structure Sound (ledger : NonceLedger) : Prop where
  separated : ledger.accepted.Pairwise Separated
  remembered : ∀ options ∈ ledger.accepted,
    ledger.clock < options.expiresAt → ∃ record,
      ledger.storage.get? options.key = some record ∧
        (options.nonce, options.expiresAt) ∈ record.entries
  bounded : ∀ key record, ledger.storage.get? key = some record →
    ∃ options ∈ ledger.accepted, options.key = key ∧
      (record.size : Int) ≤ options.maximum

section

variable (clock : Int)

theorem sound_start : Sound { clock } where
  separated := List.Pairwise.nil
  remembered := by
    intro options member
    cases member
  bounded := by
    intro key record stored
    cases stored

theorem sound_step (ledger : NonceLedger) (call : NonceCall)
    (inOrder : InOrder ledger call) (sound : Sound ledger) :
    Sound (step ledger call) := by
  have later : (step ledger call).clock = call.options.now :=
    Int.max_eq_right inOrder
  have kept : ∀ options ∈ ledger.accepted,
      (step ledger call).clock < options.expiresAt → ∃ record,
      (step ledger call).storage.get? options.key = some record ∧
      (options.nonce, options.expiresAt) ∈ record.entries := by
    intro options member live
    rw [later] at live
    obtain ⟨record, stored, entry⟩ := sound.remembered options member
      (Int.lt_of_le_of_lt inOrder live)
    exact live_of_consumeBoundedNonce stored entry live
  obtain ⟨rejected, same⟩ | ⟨valid, nonces, consumed, same⟩ :=
    consumeBoundedNonce_cases ledger.storage call
  · have unchanged : (step ledger call).accepted = ledger.accepted :=
      if_neg rejected
    constructor
    case separated =>
      rw [unchanged]
      exact sound.separated
    case remembered =>
      rw [unchanged]
      exact kept
    case bounded =>
      rw [unchanged]
      intro key record stored
      apply sound.bounded key record
      rw [← same]
      exact stored
  · have grown : (step ledger call).accepted =
        ledger.accepted ++ [call.options] := by
      simp [step, same]
    have stored : (step ledger call).storage =
        ledger.storage.set call.options.key nonces := by
      simp [step, same]
    constructor
    case separated =>
      rw [grown, pairwise_append]
      refine ⟨sound.separated, pairwise_singleton _ _, ?_⟩
      intro earlier member other last sameKey sameNonce
      rw [mem_singleton.mp last] at sameKey sameNonce ⊢
      apply Int.not_lt.mp
      intro live
      obtain ⟨record, found, entry⟩ := sound.remembered earlier member
        (Int.lt_of_le_of_lt inOrder live)
      rw [sameKey] at found
      rw [sameNonce] at entry
      have expired := expired_of_consumeInStorage consumed
        (validateOptions_bounds valid).1 found entry
      omega
    case remembered =>
      rw [grown]
      intro options member live
      rcases mem_append.mp member with old | new
      · exact kept options old live
      · rw [mem_singleton.mp new]
        refine ⟨nonces, by simp [stored], ?_⟩
        rw [(consumeInStorage_eq consumed).1, Record.mem_set]
        exact .inl ⟨rfl, rfl⟩
    case bounded =>
      rw [grown, stored]
      intro key record found
      rw [Record.get?_set] at found
      split at found
      case isTrue equal =>
        cases found
        exact ⟨call.options, mem_append_right _ mem_cons_self,
          equal.symm, size_of_consumeInStorage consumed⟩
      case isFalse =>
        obtain ⟨options, member, rest⟩ := sound.bounded key record found
        exact ⟨options, mem_append_left _ member, rest⟩

theorem sound_run {calls : List NonceCall}
    (inOrder : Meets step InOrder { clock } calls) :
    Sound (run step { clock } calls) :=
  run_induction_of_meets sound_step (sound_start clock) inOrder

theorem accepted_run (ledger : NonceLedger) (calls : List NonceCall) :
    ∀ options ∈ (run step ledger calls).accepted, options ∈ ledger.accepted ∨
    ∃ call ∈ calls, call.options = options := by
  induction calls generalizing ledger with
  | nil => exact fun _ member => .inl member
  | cons call calls induction =>
    intro options member
    rcases induction (step ledger call) options member with
      old | ⟨other, later, same⟩
    · simp only [step] at old
      split at old
      case isTrue =>
        rcases mem_append.mp old with earlier | new
        · exact .inl earlier
        · exact .inr ⟨call, mem_cons_self, (mem_singleton.mp new).symm⟩
      case isFalse => exact .inl old
    · exact .inr ⟨other, mem_cons_of_mem _ later, same⟩

/-- Replay protection over every sequence of calls: a nonce is not accepted
again before its expiry, a key holds at most its maximum, and no call changes
the set it rejects a nonce from or drops a nonce which has not expired. -/
theorem run_rejectsReplays (calls : List NonceCall)
    (inOrder : Meets step InOrder { clock } calls) :
    (run step { clock } calls).accepted.Pairwise Separated ∧
    (∀ key maximum,
      (∀ call ∈ calls, call.options.key = key →
        call.options.maximum ≤ maximum) →
      ∀ record, (run step { clock } calls).storage.get? key = some record →
        (record.size : Int) ≤ maximum) ∧
    ∀ call : NonceCall,
      ((consumeBoundedNonce (run step { clock } calls).storage call).1 ≠
          .accepted →
        (consumeBoundedNonce (run step { clock } calls).storage call).2 =
          (run step { clock } calls).storage) ∧
      ∀ key record nonce expiresAt,
        (run step { clock } calls).storage.get? key = some record →
        (nonce, expiresAt) ∈ record.entries →
        call.options.now < expiresAt → ∃ next,
          (consumeBoundedNonce (run step { clock } calls).storage
            call).2.get? key = some next ∧
          (nonce, expiresAt) ∈ next.entries := by
  have sound := sound_run clock inOrder
  refine ⟨sound.separated, ?_, ?_⟩
  · intro key maximum limit record stored
    obtain ⟨options, member, same, size⟩ := sound.bounded key record stored
    rcases accepted_run _ calls options member with old | ⟨call, made, equal⟩
    · cases old
    · have allowed := limit call made (by rw [equal, same])
      rw [equal] at allowed
      omega
  · intro call
    constructor
    · intro rejected
      obtain ⟨-, same⟩ | ⟨-, nonces, -, same⟩ :=
        consumeBoundedNonce_cases (run step { clock } calls).storage call
      · exact same
      · rw [same] at rejected
        exact absurd rfl rejected
    · intro key record nonce expiresAt stored member live
      exact live_of_consumeBoundedNonce stored member live

end

/-- A nonce, its replay before the expiry, and its use after the expiry. -/
def replayedNonce (now : Int) : NonceCall where
  options :=
    { key := text "dpop-proof-jtis", nonce := text "nonce"
      expiresAt := now + 60, now, noncePattern := fun _ => true
      maximum := 1, maxFutureSeconds := 120 }

theorem run_rejectsReplays_replayed :
    (run step { clock := 0 }
      [replayedNonce 10, replayedNonce 69, replayedNonce 70]).accepted.map
        (·.now) = [10, 70] ∧
    (run step { clock := 0 }
      [replayedNonce 10, replayedNonce 69, replayedNonce 70]).accepted.Pairwise
        Separated := by
  refine ⟨by decide, (run_rejectsReplays 0 _ ?_).1⟩
  simp only [meets_cons, meets_nil, InOrder]
  decide

/-- The calls for a key check alike. -/
def Alike (options other : NonceOptions) : Prop :=
  other.key = options.key → other.noncePattern = options.noncePattern ∧
    other.maximum = options.maximum ∧
    other.maxFutureSeconds = options.maxFutureSeconds

/-- What is stored was accepted, by a call which was valid. -/
structure Accountable (ledger : NonceLedger) : Prop where
  stored : ∀ key record, ledger.storage.get? key = some record →
    ∀ nonce expiresAt, (nonce, expiresAt) ∈ record.entries →
      ∃ options ∈ ledger.accepted, options.key = key ∧
        options.nonce = nonce ∧ options.expiresAt = expiresAt
  valid : ∀ options ∈ ledger.accepted,
    validateOptions options = true ∧ options.now ≤ ledger.clock

theorem accountable_step (ledger : NonceLedger) (call : NonceCall)
    (accountable : Accountable ledger) : Accountable (step ledger call) := by
  obtain ⟨rejected, same⟩ | ⟨valid, nonces, consumed, same⟩ :=
    consumeBoundedNonce_cases ledger.storage call
  · have unchanged : (step ledger call).accepted = ledger.accepted :=
      if_neg rejected
    refine ⟨?_, fun options member => ?_⟩
    · rw [unchanged]
      change ∀ key record, Record.get? (consumeBoundedNonce _ _).2 key = _ → _
      rw [same]
      exact accountable.stored
    · rw [unchanged] at member
      exact (accountable.valid options member).imp_right
        (·.trans (le_max_left _ _))
  · have grown : (step ledger call).accepted =
        ledger.accepted ++ [call.options] := by simp [step, same]
    refine ⟨fun key record found nonce expiresAt entry => ?_,
      fun options member => ?_⟩
    · rw [grown]
      have old : ∀ record, ledger.storage.get? key = some record →
          (nonce, expiresAt) ∈ record.entries →
          ∃ options ∈ ledger.accepted ++ [call.options], options.key = key ∧
            options.nonce = nonce ∧ options.expiresAt = expiresAt := by
        intro record found entry
        obtain ⟨options, member, rest⟩ :=
          accountable.stored key record found nonce expiresAt entry
        exact ⟨options, mem_append_left _ member, rest⟩
      simp only [step, same, Record.get?_set] at found
      split at found
      case isFalse => exact old record found entry
      case isTrue equal =>
        cases found
        rw [(consumeInStorage_eq consumed).1, Record.mem_set] at entry
        rcases entry with ⟨rfl, rfl⟩ | ⟨-, kept⟩
        · exact ⟨call.options, by simp, equal.symm, rfl, rfl⟩
        · obtain ⟨⟨record, before, entry⟩, -⟩ := mem_liveNonces.mp kept
          exact old record (equal ▸ before) entry
    · rw [grown] at member
      rcases mem_append.mp member with earlier | last
      · exact (accountable.valid options earlier).imp_right
          (·.trans (le_max_left _ _))
      · rw [mem_singleton.mp last]
        exact ⟨valid, le_max_right _ _⟩

/-- A nonce which was accepted for the key and has not expired. -/
def Live (ledger : NonceLedger) (key : Text) (now : Int) (nonce : Text) :
    Prop :=
  ∃ options ∈ ledger.accepted, options.key = key ∧ options.nonce = nonce ∧
    now < options.expiresAt

/-- Why a nonce is refused: it is a name of the language, it is live, or there
are as many live ones as the key may hold. -/
def Refusable (ledger : NonceLedger) (options : NonceOptions) : Prop :=
  inheritedNames.contains options.nonce = true ∨
  Live ledger options.key options.now options.nonce ∨
  ∃ live : List Text, live.Nodup ∧ options.maximum ≤ live.length ∧
    ∀ nonce ∈ live, Live ledger options.key options.now nonce

theorem live_of_mem {ledger : NonceLedger} (accountable : Accountable ledger)
    {key nonce : Text} {now expiresAt : Int} (entry : (nonce, expiresAt) ∈
      (liveNonces (ledger.storage.get? key) now).entries) :
    Live ledger key now nonce := by
  obtain ⟨⟨record, found, entry⟩, ahead⟩ := mem_liveNonces.mp entry
  obtain ⟨options, member, same, named, rfl⟩ :=
    accountable.stored key record found nonce expiresAt entry
  exact ⟨options, member, same, named, ahead⟩

theorem validNonceRecord_of_alike {ledger : NonceLedger}
    {options : NonceOptions} (sound : Sound ledger)
    (accountable : Accountable ledger)
    (alike : ∀ other ∈ ledger.accepted, Alike options other)
    (later : ledger.clock ≤ options.now) {record : NonceRecord}
    (found : ledger.storage.get? options.key = some record) :
    validNonceRecord record options.noncePattern options.maximum
      (options.now + options.maxFutureSeconds) = true := by
  rw [validNonceRecord, Bool.and_eq_true, decide_eq_true_eq, all_eq_true]
  constructor
  · obtain ⟨other, member, same, size⟩ := sound.bounded _ record found
    rwa [(alike other member same).2.1] at size
  · rintro ⟨nonce, expiresAt⟩ entry
    obtain ⟨other, member, same, rfl, rfl⟩ :=
      accountable.stored _ record found nonce expiresAt entry
    obtain ⟨valid, before⟩ := accountable.valid other member
    obtain ⟨pattern, -, future⟩ := alike other member same
    rw [← pattern, ← future]
    simp only [validateOptions, Bool.and_eq_true, decide_eq_true_eq] at valid ⊢
    obtain ⟨⟨⟨⟨⟨-, matching⟩, -, positive⟩, -⟩, -⟩, ⟨safe, ahead⟩, near⟩ := valid
    exact ⟨⟨⟨matching, safe⟩, by omega⟩, by omega⟩

/-- A key whose calls check alike refuses only what it may refuse. -/
theorem run_refusesOnlyReplays (clock : Int) (calls : List NonceCall)
    (inOrder : Meets step InOrder { clock } calls) (call : NonceCall)
    (alike : ∀ other ∈ calls, Alike call.options other.options)
    (later : InOrder (run step { clock } calls) call)
    (refused : (consumeBoundedNonce (run step { clock } calls).storage
      call).1 = .refused) : Refusable (run step { clock } calls) call.options := by
  have sound := sound_run clock inOrder
  have accountable : Accountable (run step { clock } calls) := by
    refine run_induction accountable_step ⟨?_, ?_⟩ calls
    · intro key record found
      cases found
    · intro options member
      cases member
  have accepted := accepted_run { clock } calls
  generalize run step { clock } calls = ledger at *
  have alike : ∀ other ∈ ledger.accepted, Alike call.options other := by
    intro options member
    rcases accepted options member with old | ⟨other, made, rfl⟩
    · cases old
    · exact alike other made
  have kept : (ledger.storage.get? call.options.key).any (fun record =>
      !validNonceRecord record call.options.noncePattern call.options.maximum
        (call.options.now + call.options.maxFutureSeconds)) = false := by
    cases found : ledger.storage.get? call.options.key with
    | none => rfl
    | some record => simpa using
        validNonceRecord_of_alike sound accountable alike later found
  simp only [consumeBoundedNonce] at refused
  split at refused
  case isTrue => cases refused
  case isFalse =>
    split at refused
    case h_2 => cases refused
    case h_1 full =>
      rw [consumeInStorage, kept, if_neg Bool.false_ne_true] at full
      dsimp only at full
      split_ifs at full with taken crowded
      · rcases Bool.or_eq_true_iff.mp taken with inherited | known
        · exact .inl inherited
        · obtain ⟨expiresAt, found, -⟩ := (Option.any_eq_true _ _).mp known
          exact .inr (.inl (live_of_mem accountable
            (Record.get?_eq_some.mp found)))
      · refine .inr (.inr ⟨(liveNonces (ledger.storage.get? call.options.key)
          call.options.now).keys, Record.keys_nodup _, ?_, ?_⟩)
        · rwa [Record.length_keys]
        · intro nonce member
          obtain ⟨expiresAt, entry⟩ := Record.mem_keys.mp member
          exact live_of_mem accountable entry

theorem run_refusesOnlyReplays_replayed : Refusable
    (run step { clock := 0 } [replayedNonce 10]) (replayedNonce 69).options :=
  run_refusesOnlyReplays 0 [replayedNonce 10]
    (by simp only [meets_cons, meets_nil, InOrder]; decide) (replayedNonce 69)
    (by simp [Alike, replayedNonce]) (by unfold InOrder; decide) (by decide)

end NonceLedger

end MachineBridge.Security
