import Mathlib.Data.List.Nodup
import MachineBridge.Foundation.Number
import MachineBridge.Foundation.Run
import MachineBridge.Foundation.Text

/-!
# Queued authority revocations

A revocation names an account version, or one client of it, or one token family
of a client.  The queue keeps what the daemon has not acknowledged.  A record
covers another when it names at least its principals; a covered record is
dropped, and a full queue replaces the records of an account by one for the
whole account version.
-/

namespace MachineBridge.OAuth

open Foundation List

def token (length : Nat) : Text → Bool := fits isBase64Url length length

def clientIdPattern : Text → Bool := labelled (text "mcp_client_") (token 43)

def refreshFamilyIdPattern : Text → Bool :=
  labelled (text "mcp_family_") (token 43)

def refreshAccountIdPattern : Text → Bool :=
  labelled (text "acct_") (fits isBase64Url 20 96)

/-- What an operation throws. -/
inductive Failure where
  | http (status : Nat) (code message : String)
  | error (name message : String)

end MachineBridge.OAuth

namespace MachineBridge.Authority

open Foundation OAuth List

structure AuthorityRevocation where
  accountId : Text
  accountVersion : Nat
  (clientId familyId : Option Text := none)

structure AuthorityRevocationRecord extends AuthorityRevocation where
  id : Text
  queuedAt : Nat

structure AuthorityRevocationQueue where
  schemaVersion : Nat := 1
  records : List AuthorityRevocationRecord := []

/-- The owner of a unit of work at the daemon. -/
structure AuthorityPrincipal where
  accountId : Text
  accountVersion : Nat
  (clientId familyId : Text)

def maxAuthorityRevocations : Nat := 1024

def revocationIdPattern : Text → Bool := labelled (text "revoke_") (token 43)

def recordMatchesAuthorityRevocation (principal : AuthorityPrincipal)
    (revocation : AuthorityRevocation) : Bool :=
  principal.accountId == revocation.accountId &&
    principal.accountVersion == revocation.accountVersion &&
    revocation.clientId.all (· == principal.clientId) &&
    revocation.familyId.all (· == principal.familyId)

section

variable (value : AuthorityRevocation)

def normalizeAuthorityRevocation : Option AuthorityRevocation :=
  if !refreshAccountIdPattern value.accountId ||
      !(isSafeInteger value.accountVersion && 0 < value.accountVersion) then
    none
  else if !value.clientId.all clientIdPattern then none
  else if !value.familyId.all (fun familyId =>
      value.clientId.isSome && refreshFamilyIdPattern familyId) then none
  else some value

def recordFromRevocation (id : Text) (now : Nat) : AuthorityRevocationRecord :=
  { value with id, queuedAt := max 1 now }

end

def sameAccountVersion (left right : AuthorityRevocationRecord) : Bool :=
  left.accountId == right.accountId &&
    left.accountVersion == right.accountVersion

def covers (left right : AuthorityRevocationRecord) : Bool :=
  if !sameAccountVersion left right then false
  else
    match left.clientId with
    | none => true
    | some clientId =>
      if right.clientId ≠ some clientId then false
      else left.familyId.isNone || left.familyId == right.familyId

def queueFull : Failure :=
  .error "Error" "authority revocation queue is full"

def collapsedRecord (candidate : AuthorityRevocationRecord) :
    AuthorityRevocationRecord :=
  recordFromRevocation
    { accountId := candidate.accountId
      accountVersion := candidate.accountVersion }
    candidate.id candidate.queuedAt

section

variable (records : List AuthorityRevocationRecord)

def withinLimit : Except Failure (List AuthorityRevocationRecord) :=
  if maxAuthorityRevocations < records.length then .error queueFull
  else .ok records

def mergeRevocation (candidate : AuthorityRevocationRecord) :
    Except Failure (List AuthorityRevocationRecord) :=
  if records.any (covers · candidate) then .ok records
  else
    let uncovered := records.filter fun record => !covers candidate record
    if maxAuthorityRevocations ≤ uncovered.length then
      let collapsed := collapsedRecord candidate
      let others := uncovered.filter fun record =>
        !sameAccountVersion record collapsed
      if others.any (covers · collapsed) then withinLimit others
      else withinLimit (others ++ [collapsed])
    else withinLimit (uncovered ++ [candidate])

end

def mergeRevocations (records candidates : List AuthorityRevocationRecord) :
    Except Failure (List AuthorityRevocationRecord) :=
  candidates.foldlM mergeRevocation records

def validRevocationRecord (record : AuthorityRevocationRecord) : Bool :=
  revocationIdPattern record.id && isSafeInteger record.queuedAt &&
    0 < record.queuedAt &&
    (normalizeAuthorityRevocation record.toAuthorityRevocation).isSome

def validQueue (queue : AuthorityRevocationQueue) : Bool :=
  queue.schemaVersion == 1 &&
    queue.records.length ≤ maxAuthorityRevocations &&
    queue.records.all validRevocationRecord &&
    (queue.records.map (·.id)).Nodup

section

variable (raw : Option AuthorityRevocationQueue)

def readQueue : Except Failure AuthorityRevocationQueue :=
  match raw with
  | none => .ok {}
  | some queue =>
    if validQueue queue then .ok queue
    else .error (.error "Error" "authority revocation state is invalid")

/-- A revocation and the random part of the identifier it is given. -/
abbrev RevocationDraft := AuthorityRevocation × Base64Url 43

def candidateOf (now : Nat) (draft : RevocationDraft) :
    Except Failure AuthorityRevocationRecord :=
  match normalizeAuthorityRevocation draft.1 with
  | none => .error (.error "Error" "authority revocation is invalid")
  | some revocation =>
    .ok (recordFromRevocation revocation
      (text "revoke_" ++ draft.2.val) now)

/-- The queue which a transaction stores; nothing is written for an empty
list. -/
def writeAuthorityRevocations (drafts : List RevocationDraft) (now : Nat) :
    Except Failure (Option AuthorityRevocationQueue) :=
  if drafts.isEmpty then .ok raw
  else do
    let candidates ← drafts.mapM (candidateOf now)
    let queue ← readQueue raw
    let records ← mergeRevocations queue.records candidates
    return some { queue with records }

def acknowledgeAuthorityRevocation (revocationId : Text) :
    Except Failure (Option AuthorityRevocationQueue) :=
  if !revocationIdPattern revocationId then .ok raw
  else do
    let queue ← readQueue raw
    let next := queue.records.filter fun record => record.id != revocationId
    return if next.length = queue.records.length then raw
      else if next.isEmpty then none
      else some { records := next }

end

/-- A time in seconds which the clock of the platform can show. -/
abbrev ClockSeconds := { seconds : Nat // seconds ≤ 8640000000000 }

inductive RevocationEvent where
  | put (drafts : List RevocationDraft) (now : ClockSeconds)
      (commits : Bool)
  | acknowledge (revocationId : Text) (commits : Bool)

section

variable (raw : Option AuthorityRevocationQueue)

def RevocationEvent.outcome :
    RevocationEvent → Except Failure (Option AuthorityRevocationQueue)
  | .put drafts now _ => writeAuthorityRevocations raw drafts now.val
  | .acknowledge revocationId _ =>
    acknowledgeAuthorityRevocation raw revocationId

def RevocationEvent.commits : RevocationEvent → Bool
  | .put _ _ commits => commits
  | .acknowledge _ commits => commits

def RevocationEvent.drawn : RevocationEvent → List Text
  | .put drafts _ _ => drafts.map fun draft => text "revoke_" ++ draft.2.val
  | .acknowledge _ _ => []

/-- A transaction which throws or does not commit leaves the queue. -/
def step (event : RevocationEvent) : Option AuthorityRevocationQueue :=
  match event.outcome raw with
  | .error _ => raw
  | .ok next => if event.commits then next else raw

end

def records (raw : Option AuthorityRevocationQueue) :
    List AuthorityRevocationRecord :=
  (raw.map (·.records)).getD []

def Covered (records : List AuthorityRevocationRecord)
    (principal : AuthorityPrincipal) : Prop :=
  ∃ record ∈ records, recordMatchesAuthorityRevocation principal
    record.toAuthorityRevocation = true

/-- A family is named together with its client. -/
def Scoped (revocation : AuthorityRevocation) : Prop :=
  revocation.clientId = none → revocation.familyId = none

variable {left right candidate record : AuthorityRevocationRecord}
  {next candidates : List AuthorityRevocationRecord}
  {value : AuthorityRevocation} {now : Nat}
  {raw : Option AuthorityRevocationQueue}

theorem sameAccountVersion_iff : sameAccountVersion left right = true ↔
    left.accountId = right.accountId ∧
    left.accountVersion = right.accountVersion := by
  simp [sameAccountVersion]

theorem sameAccountVersion_of_covers (covering : covers left right = true) :
    sameAccountVersion left right = true := by
  simp only [covers] at covering
  split at covering
  case isTrue => cases covering
  case isFalse same => simpa using same

theorem matches_of_covers (wellScoped : Scoped left.toAuthorityRevocation)
    (covering : covers left right = true) {principal : AuthorityPrincipal}
    (named : recordMatchesAuthorityRevocation principal
    right.toAuthorityRevocation = true) : recordMatchesAuthorityRevocation
    principal left.toAuthorityRevocation = true := by
  obtain ⟨account, version⟩ := sameAccountVersion_iff.mp
    (sameAccountVersion_of_covers covering)
  simp only [recordMatchesAuthorityRevocation, Bool.and_eq_true, beq_iff_eq]
    at named ⊢
  obtain ⟨⟨⟨sameAccount, sameVersion⟩, client⟩, family⟩ := named
  rw [account, version]
  cases leftClient : left.clientId with
  | none =>
    rw [wellScoped leftClient]
    exact ⟨⟨⟨sameAccount, sameVersion⟩, rfl⟩, rfl⟩
  | some clientId =>
    simp only [covers, leftClient] at covering
    split at covering
    case isTrue => cases covering
    case isFalse =>
      split at covering
      case isTrue => cases covering
      case isFalse sameClient =>
        rw [not_not] at sameClient
        rw [sameClient] at client
        refine ⟨⟨⟨sameAccount, sameVersion⟩, client⟩, ?_⟩
        rw [Bool.or_eq_true, Option.isNone_iff_eq_none, beq_iff_eq] at covering
        rcases covering with open_ | sameFamily
        · rw [open_]
          rfl
        · rw [sameFamily]
          exact family

theorem covers_collapsed (same : sameAccountVersion candidate record = true) :
    covers (collapsedRecord candidate) record = true := by
  rw [sameAccountVersion_iff] at same
  simp [covers, collapsedRecord, recordFromRevocation, sameAccountVersion,
    same]

def Incomparable (records : List AuthorityRevocationRecord) : Prop :=
  records.Pairwise fun left right =>
    covers left right = false ∧ covers right left = false

theorem incomparable_filter {records : List AuthorityRevocationRecord}
    (incomparable : Incomparable records)
    (condition : AuthorityRevocationRecord → Bool) :
    Incomparable (records.filter condition) :=
  incomparable.sublist filter_sublist

theorem incomparable_append {records : List AuthorityRevocationRecord}
    {added : AuthorityRevocationRecord} (incomparable : Incomparable records)
    (apart : ∀ record ∈ records, covers record added = false ∧
      covers added record = false) : Incomparable (records ++ [added]) := by
  apply List.pairwise_append.mpr
  refine ⟨incomparable, List.pairwise_singleton _ _, ?_⟩
  intro record member other last
  rw [mem_singleton.mp last]
  exact apart record member

/-- What a merge can do: nothing, since the candidate is covered; put the
candidate in the place of what it covers; or put a record for the whole account
version in the place of the account's records. -/
theorem mergeRevocation_cases {records : List AuthorityRevocationRecord}
    (merged : mergeRevocation records candidate = .ok next) :
    ((∃ record ∈ records, covers record candidate = true) ∧ next = records) ∨
    ((∀ record ∈ records, covers record candidate = false) ∧ next.length ≤
    maxAuthorityRevocations ∧ next = (records.filter fun record => !covers
    candidate record) ++ [candidate]) ∨ ((∀ record ∈ records, covers record
    candidate = false) ∧ next.length ≤ maxAuthorityRevocations ∧ next =
    ((records.filter fun record => !covers candidate record).filter fun record
    => !sameAccountVersion record (collapsedRecord candidate)) ++
    [collapsedRecord candidate]) := by
  have fits : ∀ list, withinLimit list = .ok next →
      next.length ≤ maxAuthorityRevocations ∧ next = list := by
    intro list within
    simp only [withinLimit] at within
    split at within
    case isTrue => cases within
    case isFalse room =>
      cases within
      exact ⟨Nat.not_lt.mp room, rfl⟩
  simp only [mergeRevocation] at merged
  split at merged
  case isTrue covered =>
    cases merged
    exact .inl ⟨any_eq_true.mp covered, rfl⟩
  case isFalse uncovered =>
    have apart : ∀ record ∈ records, covers record candidate = false := by
      intro record member
      apply Bool.eq_false_iff.mpr
      intro covering
      exact uncovered (any_eq_true.mpr ⟨record, member, covering⟩)
    split at merged
    case isFalse => exact .inr (.inl ⟨apart, fits _ merged⟩)
    case isTrue =>
      split at merged
      case isFalse => exact .inr (.inr ⟨apart, fits _ merged⟩)
      case isTrue again =>
        obtain ⟨record, member, covering⟩ := any_eq_true.mp again
        have other := (mem_filter.mp member).2
        rw [sameAccountVersion_of_covers covering] at other
        cases other

section Merge

variable {records next : List AuthorityRevocationRecord}
  {candidate : AuthorityRevocationRecord}
  (merged : mergeRevocation records candidate = .ok next)
include merged

theorem covered_merge (wellScoped : ∀ record ∈ candidate :: records,
      Scoped record.toAuthorityRevocation) {principal : AuthorityPrincipal}
    (covered : Covered (candidate :: records) principal) :
    Covered next principal := by
  obtain ⟨record, member, named⟩ := covered
  obtain ⟨⟨wide, stored, covering⟩, same⟩ | ⟨-, -, same⟩ | ⟨-, -, same⟩ :=
    mergeRevocation_cases merged
  · subst same
    rcases mem_cons.mp member with new | old
    · subst new
      exact ⟨wide, stored, matches_of_covers
        (wellScoped wide (mem_cons_of_mem _ stored)) covering named⟩
    · exact ⟨record, old, named⟩
  · subst same
    by_cases covering : covers candidate record = true
    · exact ⟨candidate, mem_append_right _ mem_cons_self,
        matches_of_covers (wellScoped candidate mem_cons_self)
          covering named⟩
    · rcases mem_cons.mp member with new | old
      · subst new
        exact ⟨record, mem_append_right _ mem_cons_self, named⟩
      · refine ⟨record, mem_append_left _ ?_, named⟩
        exact mem_filter.mpr ⟨old, by simp [covering]⟩
  · subst same
    by_cases account : sameAccountVersion candidate record = true
    · refine ⟨collapsedRecord candidate,
        mem_append_right _ mem_cons_self, ?_⟩
      refine matches_of_covers ?_ (covers_collapsed account) named
      intro _
      rfl
    · rcases mem_cons.mp member with new | old
      · subst new
        exact absurd (sameAccountVersion_iff.mpr ⟨rfl, rfl⟩) account
      · refine ⟨record, mem_append_left _ (mem_filter.mpr
          ⟨mem_filter.mpr ⟨old, ?_⟩, ?_⟩), named⟩
        · rw [Bool.not_eq_true']
          apply Bool.eq_false_iff.mpr
          intro covering
          exact account (sameAccountVersion_of_covers covering)
        · rw [Bool.not_eq_true']
          apply Bool.eq_false_iff.mpr
          intro equal
          apply account
          have both := sameAccountVersion_iff.mp equal
          exact sameAccountVersion_iff.mpr ⟨both.1.symm, both.2.symm⟩

theorem incomparable_merge (incomparable : Incomparable records) :
    Incomparable next := by
  obtain ⟨-, same⟩ | ⟨apart, -, same⟩ | ⟨-, -, same⟩ :=
    mergeRevocation_cases merged
  · rw [same]
    exact incomparable
  · rw [same]
    apply incomparable_append (incomparable_filter incomparable _)
    intro record member
    obtain ⟨stored, uncovered⟩ := mem_filter.mp member
    exact ⟨apart record stored, by simpa using uncovered⟩
  · rw [same]
    apply incomparable_append
      (incomparable_filter (incomparable_filter incomparable _) _)
    intro record member
    have outside := (mem_filter.mp member).2
    constructor
    · apply Bool.eq_false_iff.mpr
      intro covering
      rw [sameAccountVersion_of_covers covering] at outside
      cases outside
    · apply Bool.eq_false_iff.mpr
      intro covering
      have equal := sameAccountVersion_iff.mp
        (sameAccountVersion_of_covers covering)
      rw [sameAccountVersion_iff.mpr ⟨equal.1.symm, equal.2.symm⟩] at outside
      cases outside

theorem length_merge (bounded : records.length ≤ maxAuthorityRevocations) :
    next.length ≤ maxAuthorityRevocations := by
  obtain ⟨-, same⟩ | ⟨-, fits, -⟩ | ⟨-, fits, -⟩ :=
    mergeRevocation_cases merged
  · rw [same]
    exact bounded
  · exact fits
  · exact fits

theorem mem_merge {record : AuthorityRevocationRecord}
    (member : record ∈ next) : record ∈ records ∨ record = candidate ∨
    record = collapsedRecord candidate := by
  obtain ⟨-, same⟩ | ⟨-, -, same⟩ | ⟨-, -, same⟩ :=
    mergeRevocation_cases merged
  · rw [same] at member
    exact .inl member
  · rw [same] at member
    rcases mem_append.mp member with old | new
    · exact .inl (mem_filter.mp old).1
    · exact .inr (.inl (mem_singleton.mp new))
  · rw [same] at member
    rcases mem_append.mp member with old | new
    · exact .inl (mem_filter.mp (mem_filter.mp old).1).1
    · exact .inr (.inr (mem_singleton.mp new))

theorem nodup_merge (distinct : (records.map (·.id)).Nodup)
    (fresh : candidate.id ∉ records.map (·.id)) : (next.map (·.id)).Nodup := by
  have extended : ∀ (kept : List AuthorityRevocationRecord)
      (added : AuthorityRevocationRecord), kept.Sublist records →
      added.id = candidate.id → ((kept ++ [added]).map (·.id)).Nodup := by
    intro kept added sublist same
    rw [List.map_append, List.map_singleton, ← List.concat_eq_append,
      List.nodup_concat, same]
    refine ⟨?_, distinct.sublist (sublist.map _)⟩
    intro member
    exact fresh ((sublist.map (·.id)).subset member)
  obtain ⟨-, same⟩ | ⟨-, -, same⟩ | ⟨-, -, same⟩ :=
    mergeRevocation_cases merged
  · rw [same]
    exact distinct
  · rw [same]
    exact extended _ candidate filter_sublist rfl
  · rw [same]
    exact extended _ (collapsedRecord candidate)
      (filter_sublist.trans filter_sublist) rfl

theorem widens_merge (full : records.length = maxAuthorityRevocations)
    {record : AuthorityRevocationRecord} (member : record ∈ next) :
    record ∈ records ∨ ∃ old ∈ records, covers record old = true := by
  obtain ⟨-, same⟩ | ⟨-, fits, same⟩ | ⟨-, fits, same⟩ :=
    mergeRevocation_cases merged
  · rw [same] at member
    exact .inl member
  · rw [same, length_append, length_singleton] at fits
    obtain ⟨old, stored, replaced⟩ :=
      List.length_filter_lt_length_iff_exists.mp
        (show (records.filter fun record =>
          !covers candidate record).length < records.length by omega)
    rw [same] at member
    rcases mem_append.mp member with kept | new
    · exact .inl (mem_filter.mp kept).1
    · rw [mem_singleton.mp new]
      exact .inr ⟨old, stored, by simpa using replaced⟩
  · rw [same, length_append, length_singleton,
      List.filter_filter] at fits
    obtain ⟨old, stored, replaced⟩ :=
      List.length_filter_lt_length_iff_exists.mp
        (show (records.filter fun record =>
          !sameAccountVersion record (collapsedRecord candidate) &&
            !covers candidate record).length < records.length by omega)
    rw [same] at member
    rcases mem_append.mp member with kept | new
    · exact .inl (mem_filter.mp (mem_filter.mp kept).1).1
    · rw [mem_singleton.mp new]
      refine .inr ⟨old, stored, covers_collapsed ?_⟩
      simp only [Bool.and_eq_true, Bool.not_eq_true', not_and_or,
        Bool.not_eq_false] at replaced
      rcases replaced with account | covering
      · have both := sameAccountVersion_iff.mp account
        exact sameAccountVersion_iff.mpr ⟨both.1.symm, both.2.symm⟩
      · exact sameAccountVersion_of_covers covering

end Merge

theorem normalizeAuthorityRevocation_eq {revocation : AuthorityRevocation}
    (normalized : normalizeAuthorityRevocation value = some revocation) :
    revocation = value := by
  simp only [normalizeAuthorityRevocation] at normalized
  repeat (split at normalized; cases normalized)
  exact (Option.some.inj normalized).symm

section

variable (normalized : (normalizeAuthorityRevocation value).isSome = true)
include normalized

theorem scoped_of_normalized : Scoped value := by
  simp only [normalizeAuthorityRevocation] at normalized
  split at normalized
  case isTrue => cases normalized
  case isFalse =>
    split at normalized
    case isTrue => cases normalized
    case isFalse =>
      split at normalized
      case isTrue => cases normalized
      case isFalse family =>
        intro absent
        cases named : value.familyId with
        | none => rfl
        | some familyId => simp [named, absent] at family

theorem normalized_account : (normalizeAuthorityRevocation
      { accountId := value.accountId
        accountVersion := value.accountVersion }).isSome = true := by
  simp only [normalizeAuthorityRevocation] at normalized ⊢
  split at normalized
  case isTrue => cases normalized
  case isFalse account =>
    rw [if_neg account]
    rfl

end

theorem validRevocationRecord_iff : validRevocationRecord record = true ↔
    revocationIdPattern record.id = true ∧ record.queuedAt ≤ maxSafeInteger ∧
    0 < record.queuedAt ∧
    (normalizeAuthorityRevocation record.toAuthorityRevocation).isSome =
    true := by
  simp [validRevocationRecord, and_assoc]

theorem scoped_of_valid (valid : validRevocationRecord record = true) :
    Scoped record.toAuthorityRevocation :=
  scoped_of_normalized (validRevocationRecord_iff.mp valid).2.2.2

theorem valid_collapsedRecord
    (valid : validRevocationRecord candidate = true) :
    validRevocationRecord (collapsedRecord candidate) = true := by
  obtain ⟨id, safe, positive, normalized⟩ := validRevocationRecord_iff.mp valid
  apply validRevocationRecord_iff.mpr
  refine ⟨id, ?_, ?_, normalized_account normalized⟩
  · show max 1 candidate.queuedAt ≤ maxSafeInteger
    omega
  · show 0 < max 1 candidate.queuedAt
    omega

theorem candidateOf_eq {draft : RevocationDraft}
    (bounded : now ≤ 8640000000000)
    (made : candidateOf now draft = .ok candidate) :
    candidate.id = text "revoke_" ++ draft.2.val ∧
    candidate.toAuthorityRevocation = draft.1 ∧
    validRevocationRecord candidate = true := by
  simp only [candidateOf] at made
  split at made
  case h_1 => cases made
  case h_2 revocation normalized =>
    cases made
    have same := normalizeAuthorityRevocation_eq normalized
    subst same
    refine ⟨rfl, rfl, validRevocationRecord_iff.mpr ⟨?_, ?_, ?_, ?_⟩⟩
    · rw [revocationIdPattern, recordFromRevocation, labelled_append]
      exact draft.2.property
    · show max 1 now ≤ maxSafeInteger
      have large : 8640000000000 ≤ maxSafeInteger := by decide
      omega
    · show 0 < max 1 now
      omega
    · rw [recordFromRevocation, normalized]
      rfl

theorem candidates_eq (bounded : now ≤ 8640000000000)
    {drafts : List RevocationDraft}
    (made : drafts.mapM (candidateOf now) = .ok candidates) :
    candidates.map (·.id) =
    drafts.map (fun draft => text "revoke_" ++ draft.2.val) ∧
    candidates.map (·.toAuthorityRevocation) = drafts.map (·.1) ∧
    ∀ candidate ∈ candidates, validRevocationRecord candidate = true := by
  induction drafts generalizing candidates with
  | nil =>
    cases made
    exact ⟨rfl, rfl, by simp⟩
  | cons draft drafts induction =>
    rw [List.mapM_cons] at made
    cases first : candidateOf now draft with
    | error failure => rw [first] at made; cases made
    | ok candidate =>
      cases others : drafts.mapM (candidateOf now) with
      | error failure => rw [first, others] at made; cases made
      | ok rest =>
        rw [first, others] at made
        cases made
        obtain ⟨id, revocation, valid⟩ := candidateOf_eq bounded first
        obtain ⟨ids, revocations, all⟩ := induction others
        refine ⟨?_, ?_, ?_⟩
        · simp only [map_cons, id, ids]
        · simp only [map_cons, revocation, revocations]
        · intro record member
          rcases mem_cons.mp member with same | later
          · rw [same]
            exact valid
          · exact all record later

structure Settled (records : List AuthorityRevocationRecord) : Prop where
  valid : ∀ record ∈ records, validRevocationRecord record = true
  distinct : (records.map (·.id)).Nodup
  incomparable : Incomparable records
  bounded : records.length ≤ maxAuthorityRevocations

theorem Settled.nil : Settled [] where
  valid := by
    intro record member
    cases member
  distinct := List.nodup_nil
  incomparable := List.Pairwise.nil
  bounded := Nat.zero_le _

theorem Settled.merge {records : List AuthorityRevocationRecord}
    (settled : Settled records)
    (valid : validRevocationRecord candidate = true)
    (fresh : candidate.id ∉ records.map (·.id))
    (merged : mergeRevocation records candidate = .ok next) :
    Settled next where
  valid := by
    intro record member
    rcases mem_merge merged member with old | new | wide
    · exact settled.valid record old
    · rw [new]
      exact valid
    · rw [wide]
      exact valid_collapsedRecord valid
  distinct := nodup_merge merged settled.distinct fresh
  incomparable := incomparable_merge merged settled.incomparable
  bounded := length_merge merged settled.bounded

theorem mergeRevocations_cons {records : List AuthorityRevocationRecord}
    (merged : mergeRevocations records (candidate :: candidates) = .ok next) :
    ∃ middle, mergeRevocation records candidate = .ok middle ∧
    mergeRevocations middle candidates = .ok next := by
  rw [mergeRevocations, List.foldlM_cons] at merged
  cases first : mergeRevocation records candidate with
  | error failure => rw [first] at merged; cases merged
  | ok middle =>
    rw [first] at merged
    exact ⟨middle, rfl, merged⟩

theorem ids_mergeRevocations {records : List AuthorityRevocationRecord}
    (merged : mergeRevocations records candidates = .ok next) :
    ∀ record ∈ next, record.id ∈ records.map (·.id) ∨
    record.id ∈ candidates.map (·.id) := by
  induction candidates generalizing records with
  | nil =>
    cases merged
    intro record member
    exact .inl (mem_map_of_mem member)
  | cons candidate candidates induction =>
    obtain ⟨middle, first, rest⟩ := mergeRevocations_cons merged
    intro record member
    rcases induction rest record member with old | new
    · obtain ⟨other, stored, same⟩ := mem_map.mp old
      rw [← same]
      rcases mem_merge first stored with older | made | wide
      · exact .inl (mem_map_of_mem older)
      · rw [made]
        exact .inr (by simp)
      · rw [wide]
        exact .inr (by simp [collapsedRecord, recordFromRevocation])
    · exact .inr (mem_cons_of_mem _ new)

theorem Settled.mergeAll {records : List AuthorityRevocationRecord}
    (settled : Settled records)
    (valid : ∀ candidate ∈ candidates, validRevocationRecord candidate = true)
    (distinct : (candidates.map (·.id)).Nodup)
    (fresh : ∀ candidate ∈ candidates, candidate.id ∉ records.map (·.id))
    (merged : mergeRevocations records candidates = .ok next) :
    Settled next := by
  induction candidates generalizing records with
  | nil =>
    cases merged
    exact settled
  | cons candidate candidates induction =>
    obtain ⟨middle, first, rest⟩ := mergeRevocations_cons merged
    rw [map_cons, List.nodup_cons] at distinct
    refine induction (settled.merge (valid candidate mem_cons_self) (fresh
      candidate mem_cons_self) first) (fun other member => valid other
      (mem_cons_of_mem _ member)) distinct.2 ?_ rest
    intro other member listed
    obtain ⟨record, stored, same⟩ := mem_map.mp listed
    have separate : other.id ≠ candidate.id := by
      intro equal
      apply distinct.1
      rw [← equal]
      exact mem_map_of_mem member
    rcases mem_merge first stored with old | new | wide
    · apply fresh other (mem_cons_of_mem _ member)
      rw [← same]
      exact mem_map_of_mem old
    · exact separate (by rw [← same, new])
    · exact separate (by
        rw [← same, wide]
        rfl)

theorem covered_mergeRevocations {records : List AuthorityRevocationRecord}
    (valid : ∀ record ∈ candidates ++ records,
      validRevocationRecord record = true)
    (merged : mergeRevocations records candidates = .ok next)
    {principal : AuthorityPrincipal}
    (covered : Covered (candidates ++ records) principal) :
    Covered next principal := by
  induction candidates generalizing records with
  | nil =>
    cases merged
    exact covered
  | cons candidate candidates induction =>
    obtain ⟨middle, first, rest⟩ := mergeRevocations_cons merged
    have validMiddle : ∀ record ∈ candidates ++ middle,
        validRevocationRecord record = true := by
      intro record member
      rcases mem_append.mp member with later | stored
      · exact valid record (mem_cons_of_mem _
          (mem_append_left _ later))
      · rcases mem_merge first stored with old | new | wide
        · exact valid record (mem_cons_of_mem _
            (mem_append_right _ old))
        · rw [new]
          exact valid candidate mem_cons_self
        · rw [wide]
          exact valid_collapsedRecord
            (valid candidate mem_cons_self)
    apply induction validMiddle rest
    have one : ∀ record ∈ candidate :: records,
        recordMatchesAuthorityRevocation principal record.toAuthorityRevocation
        = true → Covered (candidates ++ middle) principal := by
      intro record member named
      obtain ⟨wide, stored, matching⟩ := covered_merge first
        (by
          intro other listed
          apply scoped_of_valid
          apply valid other
          rcases mem_cons.mp listed with same | old
          · rw [same]
            exact mem_cons_self
          · exact mem_cons_of_mem _ (mem_append_right _ old))
        ⟨record, member, named⟩
      exact ⟨wide, mem_append_right _ stored, matching⟩
    obtain ⟨record, member, named⟩ := covered
    rcases mem_cons.mp member with same | later
    · exact one record (by simp [same]) named
    · rcases mem_append.mp later with pending | old
      · exact ⟨record, mem_append_left _ pending, named⟩
      · exact one record (mem_cons_of_mem _ old) named

theorem readQueue_eq {queue : AuthorityRevocationQueue}
    (read : readQueue raw = .ok queue) :
    queue.records = records raw ∧ queue.schemaVersion = 1 := by
  cases raw with
  | none =>
    cases read
    exact ⟨rfl, rfl⟩
  | some stored =>
    simp only [readQueue] at read
    split at read
    case isTrue valid =>
      cases read
      simp only [validQueue, Bool.and_eq_true, beq_iff_eq] at valid
      exact ⟨rfl, valid.1.1.1⟩
    case isFalse => cases read

theorem writeAuthorityRevocations_eq {next : Option AuthorityRevocationQueue}
    {drafts : List RevocationDraft}
    (written : writeAuthorityRevocations raw drafts now = .ok next) :
    (drafts = [] ∧ next = raw) ∨ ∃ candidates merged,
      drafts.mapM (candidateOf now) = .ok candidates ∧
        mergeRevocations (records raw) candidates = .ok merged ∧
          next = some { schemaVersion := 1, records := merged } := by
  simp only [writeAuthorityRevocations] at written
  split at written
  case isTrue empty =>
    cases written
    exact .inl ⟨isEmpty_iff.mp empty, rfl⟩
  case isFalse =>
    cases made : drafts.mapM (candidateOf now) with
    | error failure => rw [made] at written; cases written
    | ok candidates =>
      cases read : readQueue raw with
      | error failure => rw [made, read] at written; cases written
      | ok queue =>
        obtain ⟨stored, version⟩ := readQueue_eq read
        cases merge : mergeRevocations queue.records candidates with
        | error failure =>
          rw [made, read] at written
          simp only [bind, Except.bind, merge] at written
          cases written
        | ok merged =>
          rw [made, read] at written
          simp only [bind, Except.bind, merge] at written
          cases written
          rw [stored] at merge
          exact .inr ⟨candidates, merged, rfl, merge, by simp [version]⟩

theorem acknowledgeAuthorityRevocation_records
    {next : Option AuthorityRevocationQueue} {revocationId : Text}
    (acknowledged : acknowledgeAuthorityRevocation raw revocationId =
      .ok next) :
    next = raw ∨ (next = none ∧
        (records raw).filter (fun record => record.id != revocationId) = []) ∨
      next = some { records := (records raw).filter fun record =>
        record.id != revocationId } := by
  simp only [acknowledgeAuthorityRevocation] at acknowledged
  split at acknowledged
  case isTrue =>
    cases acknowledged
    exact .inl rfl
  case isFalse =>
    cases read : readQueue raw with
    | error failure => rw [read] at acknowledged; cases acknowledged
    | ok queue =>
      have stored := (readQueue_eq read).1
      rw [read] at acknowledged
      cases acknowledged
      rw [stored]
      split
      case isTrue => exact .inl rfl
      case isFalse =>
        split
        case isTrue empty => exact .inr (.inl ⟨rfl, isEmpty_iff.mp empty⟩)
        case isFalse => exact .inr (.inr rfl)

/-- The stored queue is one that the load accepts, and its identifiers are
among the drawn ones. -/
structure Sound (drawn : List Text)
    (raw : Option AuthorityRevocationQueue) : Prop where
  settled : Settled (records raw)
  version : ∀ queue, raw = some queue → queue.schemaVersion = 1
  known : ∀ record ∈ records raw, record.id ∈ drawn

theorem Sound.validQueue {drawn : List Text} (sound : Sound drawn raw)
    {queue : AuthorityRevocationQueue} (stored : raw = some queue) :
    validQueue queue = true := by
  have settled := sound.settled
  rw [stored] at settled
  simp only [Authority.validQueue, Bool.and_eq_true, beq_iff_eq,
    decide_eq_true_eq, List.all_eq_true]
  exact ⟨⟨⟨sound.version queue stored, settled.bounded⟩, settled.valid⟩,
    settled.distinct⟩

theorem Sound.mono {drawn more : List Text} (sound : Sound drawn raw)
    (subset : ∀ id ∈ drawn, id ∈ more) : Sound more raw where
  __ := sound
  known := fun record member => subset record.id (sound.known record member)

theorem sound_step {drawn : List Text} (sound : Sound drawn raw)
    (event : RevocationEvent) (distinct : event.drawn.Nodup)
    (fresh : ∀ id ∈ event.drawn, id ∉ drawn) :
    Sound (drawn ++ event.drawn) (step raw event) := by
  have unchanged : Sound (drawn ++ event.drawn) raw :=
    sound.mono fun id member => mem_append_left _ member
  simp only [step]
  split
  case h_1 => exact unchanged
  case h_2 next outcome =>
    split
    case isFalse => exact unchanged
    case isTrue =>
      cases event with
      | put drafts now commits =>
        rcases writeAuthorityRevocations_eq outcome with
          ⟨-, same⟩ | ⟨candidates, merged, made, merge, same⟩
        · rw [same]
          exact unchanged
        · obtain ⟨ids, -, valid⟩ := candidates_eq now.property made
          subst same
          refine ⟨?_, ?_, ?_⟩
          · refine sound.settled.mergeAll valid ?_ ?_ merge
            · rw [ids]
              exact distinct
            · intro candidate member listed
              obtain ⟨record, stored, equal⟩ := mem_map.mp listed
              apply fresh candidate.id
              · show candidate.id ∈ drafts.map _
                rw [← ids]
                exact mem_map_of_mem member
              · rw [← equal]
                exact sound.known record stored
          · intro queue stored
            cases stored
            rfl
          · intro record member
            rcases ids_mergeRevocations merge record member with old | new
            · obtain ⟨other, stored, equal⟩ := mem_map.mp old
              rw [← equal]
              exact mem_append_left _ (sound.known other stored)
            · apply mem_append_right
              show record.id ∈ drafts.map _
              rw [← ids]
              exact new
      | acknowledge revocationId commits =>
        rcases acknowledgeAuthorityRevocation_records outcome with
          same | ⟨same, -⟩ | same
        · rw [same]
          exact unchanged
        · subst same
          exact ⟨.nil, by simp, by simp [records]⟩
        · subst same
          have sublist : ((records raw).filter fun record =>
              record.id != revocationId).Sublist (records raw) :=
            filter_sublist
          refine ⟨⟨?_, ?_, ?_, ?_⟩, ?_, ?_⟩
          · intro record member
            exact sound.settled.valid record (sublist.subset member)
          · exact sound.settled.distinct.sublist (sublist.map _)
          · exact sound.settled.incomparable.sublist sublist
          · exact Nat.le_trans sublist.length_le sound.settled.bounded
          · intro queue stored
            cases stored
            rfl
          · intro record member
            exact unchanged.known record (sublist.subset member)

theorem sound_run {events : List RevocationEvent} {drawn : List Text}
    (sound : Sound drawn raw)
    (distinct : (drawn ++ events.flatMap (·.drawn)).Nodup) :
    Sound (drawn ++ events.flatMap (·.drawn)) (run step raw events) := by
  induction events generalizing drawn raw with
  | nil => simpa using sound
  | cons event events induction =>
    rw [List.flatMap_cons, ← List.append_assoc] at distinct ⊢
    have own := (nodup_append.mp distinct).1
    obtain ⟨-, each, apart⟩ := nodup_append.mp own
    refine induction (sound_step sound event each ?_) distinct
    intro id new old
    exact apart id old id new rfl

/-- A random part for the examples. -/
def exampleBytes : Base64Url 43 :=
  ⟨List.replicate 43 0x41, by decide⟩

def exampleRevocation : AuthorityRevocation where
  accountId := text "acct_" ++ List.replicate 43 0x41
  accountVersion := 1
  clientId := some (text "mcp_client_" ++ List.replicate 43 0x41)

end MachineBridge.Authority
