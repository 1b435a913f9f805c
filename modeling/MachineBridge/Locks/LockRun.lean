import MachineBridge.Locks.LockSteps

/-!
# Exclusion by a lock file

At most one running process is entitled to the lock, the lock names its file,
and no running process loses it to another one, as long as every removal still
finds the file which it has checked.  Nothing in a removal makes sure of that:
the path may be replaced before its last step.
-/

namespace MachineBridge.Locks

open Foundation Foundation.Filesystem

variable {Detail : Type}

namespace LockWorld

section Entering

variable {world next : LockWorld Detail} {actor process other : ProcessId}
  {entered phase : LockPhase Detail}

theorem phase_enter : (world.enter actor phase).phase actor = phase := by
  rw [LockWorld.phase, enter, setProcess_self]

@[simp] theorem alive_enter :
    (world.enter actor phase).alive process = world.alive process := by
  by_cases same : process = actor
  · subst same
    rw [LockWorld.alive, enter, setProcess_self, LockWorld.alive]
  · rw [LockWorld.alive, enter, setProcess_of_ne same, LockWorld.alive]

@[simp] theorem temporary_enter :
    (world.enter actor phase).temporary process = world.temporary process := by
  by_cases same : process = actor
  · subst same
    rw [temporary, enter, setProcess_self, temporary]
  · rw [temporary, enter, setProcess_of_ne same, temporary]

variable {token : LockToken}

theorem holds_enter : (world.enter actor phase).Holds process token ↔
    world.Holds process token := by
  constructor
  · intro holds
    refine ⟨?_, holds.held⟩
    rw [← holds.alive, alive_enter]
  · intro holds
    refine ⟨?_, holds.held⟩
    rw [alive_enter]
    exact holds.alive

theorem Drafts.enter {inode : Nat} {content : Option (LockOwner Detail)}
    (drafts : world.Drafts process inode content) :
    (world.enter actor phase).Drafts process inode content := by
  refine ⟨?_, drafts.content, ?_⟩
  · rw [temporary_enter]
    exact drafts.named
  · rw [temporary_enter]
    exact drafts.only

theorem Released.enter (released : world.Released process token) :
    (world.enter actor phase).Released process token :=
  ⟨released.own, fun other unlike holds =>
    released.others other unlike (holds_enter.mp holds)⟩

theorem Replaces.enter (replaces : world.Replaces process token) :
    (world.enter actor phase).Replaces process token :=
  ⟨replaces.own, replaces.held⟩

theorem publishes_enter {owner : LockOwner Detail} {publication : Publication}
    (publishes : world.Publishes process owner publication) :
    (world.enter actor phase).Publishes process owner publication := by
  cases publication with
  | exclusive number => exact publishes
  | update => exact ⟨publishes.1, publishes.2.enter⟩
  | handoff => exact Replaces.enter publishes

theorem keeps_enter {owner : LockOwner Detail} {publication : Publication}
    {inode : Nat} (keeps : world.Keeps process owner inode publication) :
    (world.enter actor phase).Keeps process owner inode publication := by
  cases publication with
  | exclusive number => trivial
  | update => trivial
  | handoff =>
    exact fun other unlike holds => keeps other unlike (holds_enter.mp holds)

theorem removal_enter {snapshot : LockSnapshot Detail}
    {purpose : RemovalPurpose Detail}
    (removal : world.RemovalInvariant process snapshot purpose) :
    (world.enter actor phase).RemovalInvariant process snapshot purpose := by
  cases purpose with
  | reclaim owner number =>
    refine ⟨removal.1, ?_⟩
    rw [alive_enter]
    exact removal.2
  | release token => exact ⟨removal.1, removal.2.enter⟩

theorem phaseInvariant_enter (invariant : world.PhaseInvariant process phase) :
    (world.enter actor entered).PhaseInvariant process phase := by
  cases phase with
  | idle => trivial
  | creating owner publication => exact publishes_enter invariant
  | writing owner publication inode =>
    exact ⟨publishes_enter invariant.1, invariant.2.enter⟩
  | publishing owner publication =>
    obtain ⟨publishes, inode, drafts⟩ := invariant
    exact ⟨publishes_enter publishes, inode, drafts.enter⟩
  | unstaging owner number linked | counting owner number
  | protecting owner publication => exact invariant
  | inspecting owner publication inode =>
    exact ⟨invariant.1, keeps_enter invariant.2⟩
  | changing owner publication inode => trivial
  | reading purpose reader =>
    cases purpose with
    | acquire owner number => exact invariant
    | report => trivial
    | update token startupReadyAt => exact Replaces.enter invariant
    | release token => exact Released.enter invariant
  | judging owner number snapshot => exact invariant
  | comparing purpose snapshot | rereading purpose snapshot reader
  | unlinking purpose snapshot =>
    exact ⟨invariant.1, removal_enter invariant.2⟩
  | claiming token phase =>
    cases phase with
    | first reader => trivial
    | comparing snapshot | second snapshot reader
    | unlinking snapshot => exact invariant

theorem Lawful.enters (lawful : Lawful world next actor)
    (invariant : world.LockInvariant)
    (own : next.alive actor = true → next.PhaseInvariant actor phase) :
    (next.enter actor phase).LockInvariant := by
  apply (lawful.enter phase).invariant invariant
  intro alive
  rw [alive_enter] at alive
  rw [phase_enter]
  exact phaseInvariant_enter (own alive)

theorem LockInvariant.enters (invariant : world.LockInvariant)
    (own : world.alive actor = true → world.PhaseInvariant actor phase) :
    (world.enter actor phase).LockInvariant :=
  (invariant.lawful actor).enters invariant own

end Entering

section Ends

variable {program : LockProgram Detail} {world next : LockWorld Detail}
  {actor : ProcessId} {owner : LockOwner Detail} {token : LockToken}

theorem Lawful.endRelease (lawful : Lawful world next actor)
    (invariant : world.LockInvariant)
    (own : token.process = actor ∨ next.files.lookup .lock = none) :
    (next.endRelease actor token).LockInvariant :=
  (lawful.surrender own).enters invariant fun _ => trivial

theorem Lawful.nextAttempt (lawful : Lawful world next actor)
    (invariant : world.LockInvariant) (own : Own actor owner) (number : Nat) :
    (next.nextAttempt program actor owner number).LockInvariant := by
  rw [LockWorld.nextAttempt]
  split
  case isTrue =>
    rw [attempt]
    split
    case isTrue =>
      refine (lawful.setProcess ?_).invariant invariant ?_
      · exact fun _ alive => alive
      · intro _
        rw [LockWorld.phase, setProcess_self]
        exact ⟨own.pid, rfl⟩
    case isFalse => exact lawful.enters invariant fun _ => own
  case isFalse =>
    split
    case isTrue | isFalse => exact lawful.enters invariant fun _ => trivial

theorem Lawful.endRemoval (lawful : Lawful world next actor)
    (invariant : world.LockInvariant) {snapshot : LockSnapshot Detail}
    {purpose : RemovalPurpose Detail}
    (removal : world.RemovalInvariant actor snapshot purpose) :
    (next.endRemoval program actor purpose).LockInvariant := by
  cases purpose with
  | reclaim owner number => exact lawful.nextAttempt invariant removal.1 number
  | release token => exact lawful.endRelease invariant (.inl removal.2.own)

theorem LockInvariant.failRemoval (invariant : world.LockInvariant)
    {snapshot : LockSnapshot Detail} {purpose : RemovalPurpose Detail}
    (removal : world.RemovalInvariant actor snapshot purpose) :
    (world.failRemoval actor purpose).LockInvariant := by
  cases purpose with
  | reclaim owner number => exact invariant.enters fun _ => trivial
  | release token =>
    exact (invariant.lawful actor).endRelease invariant (.inl removal.2.own)

theorem Replaces.released (invariant : world.LockInvariant)
    (alive : world.alive actor = true)
    (replaces : world.Replaces actor token) : world.Released actor token where
  own := replaces.own
  others := fun _ different holds =>
    different (invariant.single holds ⟨alive, replaces.held⟩).1

theorem released_of_missing (invariant : world.LockInvariant)
    (missing : world.files.lookup .lock = none) (own : token.process = actor) :
    world.Released actor token where
  own := own
  others := by
    intro other _ holds
    obtain ⟨inode, named⟩ := invariant.named holds
    rw [missing] at named
    cases named

theorem LockInvariant.failPublication (invariant : world.LockInvariant)
    {publication : Publication} (own : ∀ number,
      publication = .exclusive number → owner.token.process = actor)
    (released : publication = .handoff → world.Released actor owner.token) :
    (world.failPublication actor owner publication).LockInvariant := by
  cases publication with
  | exclusive number =>
    exact (invariant.lawful actor).endRelease invariant (.inl (own number rfl))
  | update => exact invariant.enters fun _ => trivial
  | handoff => exact invariant.enters fun _ => released rfl

end Ends

section Publications

variable {program : LockProgram Detail} {world : LockWorld Detail}
  {actor : ProcessId} {owner : LockOwner Detail} {publication : Publication}

theorem publishes_token (publishes : world.Publishes actor owner publication) :
    owner.token.process = actor := by
  cases publication with
  | exclusive number => exact publishes.token
  | update => exact publishes.1.token
  | handoff => exact publishes.own

theorem publishes_released (invariant : world.LockInvariant)
    (alive : world.alive actor = true)
    (publishes : world.Publishes actor owner publication)
    (handoff : publication = .handoff) : world.Released actor owner.token := by
  subst handoff
  exact Replaces.released invariant alive publishes

theorem publishes_withFiles {files : LockFiles Detail}
    (publishes : world.Publishes actor owner publication) :
    (world.withFiles files).Publishes actor owner publication := by
  cases publication with
  | exclusive number => exact publishes
  | update => exact ⟨publishes.1, publishes.2.own, publishes.2.held⟩
  | handoff => exact ⟨publishes.own, publishes.held⟩

theorem create_invariant (invariant : world.LockInvariant)
    (alive : world.alive actor = true)
    (publishes : world.Publishes actor owner publication) {again : Bool}
    (phase : world.phase actor = .creating owner publication) :
    (world.advance program actor again).LockInvariant := by
  rw [advance, phase]
  dsimp only
  split
  case h_1 files created =>
    obtain ⟨lawful, drafts⟩ := create_lawful invariant created
    apply lawful.enters invariant
    intro _
    exact ⟨publishes_withFiles publishes, drafts⟩
  case h_2 =>
    apply invariant.failPublication
    · exact fun _ _ => publishes_token publishes
    · exact publishes_released invariant alive publishes

variable {inode : Nat}

theorem write_invariant (invariant : world.LockInvariant)
    (publishes : world.Publishes actor owner publication)
    (drafts : world.Drafts actor inode none) {again : Bool}
    (phase : world.phase actor = .writing owner publication inode) :
    (world.advance program actor again).LockInvariant := by
  rw [advance, phase]
  obtain ⟨lawful, written⟩ := write_lawful invariant drafts
  apply lawful.enters invariant
  intro _
  exact ⟨publishes_withFiles publishes, inode, written⟩

theorem link_invariant (invariant : world.LockInvariant) {number : Nat}
    (own : Own actor owner) (drafts : world.Drafts actor inode (some owner)) :
    (world.link actor owner number).LockInvariant := by
  rw [link]
  split
  case h_1 files linked =>
    exact (link_lawful invariant own drafts linked).enters invariant
      fun _ => own
  case h_2 => exact invariant.enters fun _ => own
  case h_3 => exact invariant.enters fun _ => trivial

theorem replace_invariant (invariant : world.LockInvariant)
    (alive : world.alive actor = true)
    (replaces : world.Replaces actor owner.token)
    (published : Published actor owner publication)
    (exclusive : ∀ number, publication ≠ .exclusive number)
    (drafts : world.Drafts actor inode (some owner)) :
    (world.replace actor owner publication).LockInvariant := by
  rw [replace]
  split
  case h_1 files renamed =>
    refine ((replace_lawful invariant alive replaces drafts
      renamed).setProcess ?_).invariant invariant ?_
    · exact fun _ alive => alive
    · intro _
      rw [LockWorld.phase, setProcess_self]
      exact published
  case h_2 =>
    apply invariant.failPublication
    · exact fun number same => absurd same (exclusive number)
    · exact fun _ => replaces.released invariant alive

theorem publish_invariant (invariant : world.LockInvariant)
    (alive : world.alive actor = true)
    (publishes : world.Publishes actor owner publication)
    (drafts : world.Drafts actor inode (some owner)) :
    (world.publish actor owner publication).LockInvariant := by
  cases publication with
  | exclusive number => exact link_invariant invariant publishes drafts
  | update =>
    exact replace_invariant invariant alive publishes.2 trivial nofun drafts
  | handoff =>
    exact replace_invariant invariant alive publishes publishes.own nofun
      drafts

theorem unstage_invariant (invariant : world.LockInvariant)
    (own : Own actor owner) (number : Nat) (linked : Bool) :
    (world.unstage actor owner number linked).LockInvariant := by
  have removed :
      Lawful world (world.removeFile (world.temporary actor)) actor := by
    apply removeFile_lawful invariant temporary_ne_lock
    intro process different _ _ _ same
    exact temporary_ne different same.symm
  refine (removed.setProcess ?_).invariant invariant ?_
  · exact fun _ alive => alive
  · intro _
    rw [LockWorld.phase, setProcess_self]
    cases linked with
    | true => exact own
    | false => exact own

theorem openPublished_invariant (invariant : world.LockInvariant)
    (published : Published actor owner publication) :
    (world.openPublished actor owner publication).LockInvariant := by
  rw [openPublished]
  split
  case h_1 missing =>
    apply invariant.failPublication
    · rintro number rfl
      exact published.token
    · rintro rfl
      exact released_of_missing invariant missing published
  case h_2 inode named =>
    apply invariant.enters
    intro _
    refine ⟨published, ?_⟩
    cases publication with
    | exclusive number => trivial
    | update => trivial
    | handoff => exact fun _ _ _ => named

theorem inspectPublished_invariant (invariant : world.LockInvariant)
    (published : Published actor owner publication)
    (keeps : world.Keeps actor owner inode publication) :
    (world.inspectPublished actor owner publication inode).LockInvariant := by
  rw [inspectPublished]
  split
  case isTrue => exact invariant.enters fun _ => trivial
  case isFalse refused =>
    apply invariant.failPublication
    · rintro number rfl
      exact published.token
    · rintro rfl
      refine ⟨published, fun other different holds => refused ?_⟩
      have named := keeps other different holds
      obtain ⟨found, ⟨same, renamed, content⟩, pid, token⟩ :=
        invariant.entitled _ _ holds
      rw [named] at renamed
      cases renamed
      have foreign : found.pid ≠ found.token.process := by
        rw [pid, token, show owner.token.process = actor from published]
        exact different
      have single := invariant.files.handed _ _ content foreign
      rw [content, Bool.and_eq_true, decide_eq_true_eq]
      exact ⟨rfl, links_le_one single⟩

end Publications

section Reads

variable {program : LockProgram Detail} {world : LockWorld Detail}
  {actor : ProcessId} {snapshot : LockSnapshot Detail}

variable {reader : Reader} {purpose : RemovalPurpose Detail}

theorem advanceReader_read {limits : ReadLimits} {files : LockFiles Detail}
    {content : Option (LockOwner Detail)} {identity : FileIdentity}
    (read : advanceReader limits files reader = .read content identity) :
    files.kind identity.inode = .regular content := by
  rw [advanceReader] at read
  split at read
  case h_1 => split at read <;> cases read
  case h_2 =>
    split at read
    case isTrue => cases read
    case isFalse =>
      split at read
      case isTrue => cases read
      case isFalse =>
        rw [retryMultipleLinks] at read
        split at read
        case isTrue => cases read
        case isFalse =>
          split at read
          case isTrue => cases read
          case isFalse =>
            split at read
            case isTrue => split at read <;> cases read
            case isFalse => cases read
  case h_3 =>
    split at read
    case h_1 => cases read
    case h_2 =>
      split at read
      case isTrue => cases read
      case isFalse =>
        rw [retryIdentity] at read
        split at read <;> cases read
  case h_4 known =>
    split at read
    case h_1 found regular =>
      cases read
      exact regular
    case h_2 => cases read

theorem readSnapshot_invariant (invariant : world.LockInvariant)
    {purpose : ReadPurpose Detail}
    (reads : world.ReadInvariant actor purpose) :
    (world.readSnapshot program actor purpose reader).LockInvariant := by
  have failed : (world.useFailed actor purpose).LockInvariant := by
    cases purpose with
    | acquire owner number | report
    | update token startupReadyAt => exact invariant.enters fun _ => trivial
    | release token =>
      exact (invariant.lawful actor).endRelease invariant (.inl reads.own)
  rw [readSnapshot]
  split
  case h_1 next _ =>
    apply invariant.enters
    cases purpose with
    | acquire owner number => exact fun _ => reads
    | report => exact fun _ => trivial
    | update token startupReadyAt | release token => exact fun _ => reads
  case h_2 =>
    cases purpose with
    | acquire owner number =>
      exact (invariant.lawful actor).nextAttempt invariant reads number
    | report
    | update token startupReadyAt => exact invariant.enters fun _ => trivial
    | release token =>
      exact (invariant.lawful actor).endRelease invariant (.inl reads.own)
  case h_3 => exact failed
  case h_4 => exact failed
  case h_5 => exact failed
  case h_6 found identity read =>
    have known := advanceReader_read read
    cases purpose with
    | acquire owner number =>
      simp only [useSnapshot]
      split
      case isTrue => exact invariant.enters fun _ => ⟨reads, known⟩
      case isFalse => exact invariant.enters fun _ => trivial
    | report => exact invariant.enters fun _ => trivial
    | update token startupReadyAt =>
      simp only [useSnapshot, verifyUpdate]
      split
      case isTrue same =>
        obtain ⟨rfl, pid⟩ := same
        split
        case h_1 => exact invariant.enters fun _ => trivial
        case h_2 detail _ =>
          exact invariant.enters fun _ => ⟨⟨pid, reads.own⟩, reads⟩
      case isFalse => exact invariant.enters fun _ => trivial
    | release token =>
      simp only [useSnapshot]
      split
      case isTrue same => exact invariant.enters fun _ => ⟨known, same, reads⟩
      case isFalse =>
        exact (invariant.lawful actor).endRelease invariant (.inl reads.own)

theorem compare_invariant (invariant : world.LockInvariant)
    (known : world.Sealed snapshot)
    (removal : world.RemovalInvariant actor snapshot purpose) :
    (world.compare program actor purpose snapshot).LockInvariant := by
  have ended : (world.endRemoval program actor purpose).LockInvariant :=
    (invariant.lawful actor).endRemoval invariant removal
  rw [compare]
  split
  case h_1 => exact ended
  case h_2 =>
    split
    case isTrue => exact invariant.enters fun _ => ⟨known, removal⟩
    case isFalse => exact ended

theorem reread_invariant (invariant : world.LockInvariant)
    (known : world.Sealed snapshot)
    (removal : world.RemovalInvariant actor snapshot purpose) :
    (world.reread program actor purpose snapshot reader).LockInvariant := by
  have ended : (world.endRemoval program actor purpose).LockInvariant :=
    (invariant.lawful actor).endRemoval invariant removal
  rw [reread]
  split
  case h_1 => exact invariant.enters fun _ => ⟨known, removal⟩
  case h_2 => exact ended
  case h_3 | h_4 => exact invariant.failRemoval removal
  case h_5 =>
    split
    case isTrue => exact invariant.enters fun _ => ⟨known, removal⟩
    case isFalse => exact ended

/-- The path still names the file of a snapshot, or nothing. -/
def namesChecked (world : LockWorld Detail) (snapshot : LockSnapshot Detail) :
    Bool :=
  (world.files.lookup .lock).all (· == snapshot.identity.inode)

theorem names_of_namesChecked (undisturbed : world.namesChecked snapshot)
    (known : world.Sealed snapshot) {inode : Nat}
    (named : world.files.lookup .lock = some inode) :
    world.Names snapshot.owner := by
  rw [namesChecked, named, Option.all_some, beq_iff_eq] at undisturbed
  subst undisturbed
  exact ⟨_, named, known⟩

theorem unlinkOwn_invariant (invariant : world.LockInvariant)
    {token : LockToken} (names : world.Names snapshot.owner)
    (fair : snapshot.owner.pid = actor ∨
      world.alive snapshot.owner.pid = false) (mine : ∀ process other,
      world.Holds process other → process = actor ∧ other = token) :
    ((world.unlink actor).endRelease actor token).LockInvariant := by
  obtain ⟨files, removed, unlinked⟩ := unlink_files names
  rw [endRelease, unlinked]
  refine Lawful.enters (erase_lawful invariant ?_ ?_ ?_ ?_ ?_) invariant
    fun _ => trivial
  · rw [files_surrender]
    exact removed
  · rw [processes_surrender]
    rfl
  · rw [Owned, losses_surrender]
    apply invariant.owned.recordLoss
    intro owner named
    rw [named.unique names]
    exact fair
  · intro process other holds
    have held := holds.held
    have kept := held_of_surrender held
    have before : world.Holds process other := by
      refine ⟨?_, kept⟩
      have alive := holds.alive
      rw [LockWorld.alive, processes_surrender] at alive
      exact alive
    obtain ⟨rfl, rfl⟩ := mine process other before
    rw [held_surrender, if_pos ⟨rfl, before.held⟩] at held
    cases held
  · intro process different other holds
    exact absurd (mine process other holds).1 different

theorem unlinkDead_lawful (invariant : world.LockInvariant)
    (names : world.Names snapshot.owner)
    (dead : world.alive snapshot.owner.pid = false) :
    Lawful world (world.unlink actor) actor := by
  obtain ⟨files, removed, unlinked⟩ := unlink_files names
  have nobody : ∀ process token, ¬ world.Holds process token := by
    intro process token holds
    obtain ⟨owner, named, rfl, -⟩ := invariant.entitled _ _ holds
    rw [names.unique named, holds.alive] at dead
    cases dead
  rw [unlinked]
  apply erase_lawful invariant removed
  · rfl
  · apply invariant.owned.recordLoss
    intro owner named
    rw [named.unique names]
    exact .inr dead
  · exact fun process token holds =>
      nobody process token ⟨holds.alive, holds.held⟩
  · exact fun process _ token holds => absurd holds (nobody process token)

theorem removeLock_invariant (invariant : world.LockInvariant)
    (undisturbed : world.namesChecked snapshot) (known : world.Sealed snapshot)
    (removal : world.RemovalInvariant actor snapshot purpose) :
    (world.removeLock program actor purpose).LockInvariant := by
  rw [removeLock]
  split
  case h_1 => exact (invariant.lawful actor).endRemoval invariant removal
  case h_2 inode named =>
    have names := names_of_namesChecked undisturbed known named
    cases purpose with
    | reclaim owner number =>
      exact (unlinkDead_lawful invariant names removal.2).nextAttempt
        invariant removal.1 number
    | release token =>
      obtain ⟨same, released⟩ := removal
      apply unlinkOwn_invariant invariant names
      · by_contra neither
        obtain ⟨different, alive⟩ := not_or.mp neither
        rw [Bool.not_eq_false] at alive
        have foreign : snapshot.owner.pid ≠ snapshot.owner.token.process := by
          rw [same, released.own]
          exact different
        have held := invariant.received _ names alive foreign
        rw [same] at held
        exact released.others _ different ⟨alive, held⟩
      · intro process other holds
        obtain ⟨owner, named, rfl, rfl⟩ := invariant.entitled _ _ holds
        rw [← names.unique named, same] at holds ⊢
        refine ⟨?_, rfl⟩
        by_contra different
        exact released.others _ different holds

end Reads

section Claims

variable {world : LockWorld Detail} {actor : ProcessId} {token : LockToken}
  {snapshot : LockSnapshot Detail}

theorem retryClaim_invariant (invariant : world.LockInvariant) (again : Bool) :
    (world.retryClaim actor token again).LockInvariant := by
  rw [retryClaim]
  split
  case isTrue | isFalse => exact invariant.enters fun _ => trivial

theorem matches_claimed {owner : LockOwner Detail}
    (matched : matchesExpected actor token owner = true) :
    owner.pid = actor ∧ owner.token = token := by
  simpa [matchesExpected] using matched

theorem advanceClaim_invariant (invariant : world.LockInvariant)
    {phase : ClaimPhase Detail} {again : Bool} (undisturbed : ∀ snapshot,
      phase = .unlinking snapshot → world.namesChecked snapshot)
    (claims : world.ClaimInvariant actor token phase) :
    (world.advanceClaim actor token again phase).LockInvariant := by
  have retried : (world.retryClaim actor token again).LockInvariant :=
    retryClaim_invariant invariant again
  cases phase with
  | first reader =>
    simp only [advanceClaim]
    split
    case h_1 => exact invariant.enters fun _ => trivial
    case h_2 => exact retried
    case h_3 => exact retried
    case h_4 => exact invariant.enters fun _ => trivial
    case h_5 => exact retried
    case h_6 owner identity read =>
      split
      case isTrue matched =>
        exact invariant.enters fun _ =>
          ⟨advanceReader_read read, matches_claimed matched⟩
      case isFalse => exact retried
  | comparing snapshot =>
    simp only [advanceClaim]
    split
    case h_1 missing =>
      exact (invariant.lawful actor).endRelease invariant (.inr missing)
    case h_2 =>
      split
      case isTrue => exact invariant.enters fun _ => claims
      case isFalse => exact retried
  | second snapshot reader =>
    simp only [advanceClaim]
    split
    case h_1 => exact invariant.enters fun _ => claims
    case h_2 => exact retried
    case h_3 | h_4 => exact invariant.enters fun _ => trivial
    case h_5 =>
      split
      case isTrue => exact invariant.enters fun _ => claims
      case isFalse => exact retried
  | unlinking snapshot =>
    obtain ⟨known, pid, same⟩ := claims
    simp only [advanceClaim]
    split
    case h_1 missing =>
      exact (invariant.lawful actor).endRelease invariant (.inr missing)
    case h_2 inode named =>
      have names := names_of_namesChecked (undisturbed snapshot rfl) known
        named
      apply unlinkOwn_invariant invariant names (.inl pid)
      intro process other holds
      obtain ⟨owner, named, rfl, rfl⟩ := invariant.entitled _ _ holds
      rw [← names.unique named]
      exact ⟨pid, same⟩

end Claims

section Steps

variable {program : LockProgram Detail} {world : LockWorld Detail}

/-- A removal takes its last step while the path still names the file which it
has checked, or nothing. -/
def undisturbed (world : LockWorld Detail) : LockEvent Detail → Bool
  | .advance process _ =>
    !world.alive process ||
      match world.phase process with
      | .unlinking _ snapshot => world.namesChecked snapshot
      | .claiming _ (.unlinking snapshot) => world.namesChecked snapshot
      | _ => true
  | _ => true

variable {process : ProcessId}

theorem advance_invariant (invariant : world.LockInvariant) {again : Bool}
    (alive : world.alive process = true)
    (undisturbed : world.undisturbed (.advance process again) = true) :
    (world.advance program process again).LockInvariant := by
  have own := invariant.phases process alive
  rw [LockWorld.undisturbed, alive] at undisturbed
  cases phase : world.phase process with
  | idle =>
    rw [advance, phase]
    exact invariant
  | creating owner publication =>
    rw [phase] at own
    exact create_invariant invariant alive own phase
  | writing owner publication inode =>
    rw [phase] at own
    exact write_invariant invariant own.1 own.2 phase
  | publishing owner publication =>
    rw [phase] at own
    obtain ⟨publishes, inode, drafts⟩ := own
    rw [advance, phase]
    exact publish_invariant invariant alive publishes drafts
  | unstaging owner number linked =>
    rw [phase] at own
    rw [advance, phase]
    exact unstage_invariant invariant own number linked
  | counting owner number =>
    rw [phase] at own
    rw [advance, phase]
    dsimp only
    split
    case isTrue => exact invariant.enters fun _ => own
    case isFalse => exact invariant.enters fun _ => trivial
  | protecting owner publication =>
    rw [phase] at own
    rw [advance, phase]
    exact openPublished_invariant invariant own
  | inspecting owner publication inode =>
    rw [phase] at own
    rw [advance, phase]
    exact inspectPublished_invariant invariant own.1 own.2
  | changing owner publication inode =>
    rw [advance, phase]
    exact (changeMode_lawful invariant 0o600).enters invariant fun _ => trivial
  | reading purpose reader =>
    rw [phase] at own
    rw [advance, phase]
    exact readSnapshot_invariant invariant own
  | judging owner number snapshot =>
    rw [phase] at own
    rw [advance, phase]
    dsimp only
    split
    case isTrue => exact invariant.enters fun _ => trivial
    case isFalse dead =>
      rw [Bool.not_eq_true] at dead
      exact invariant.enters fun _ => ⟨own.2, own.1, dead⟩
  | comparing purpose snapshot =>
    rw [phase] at own
    rw [advance, phase]
    exact compare_invariant invariant own.1 own.2
  | rereading purpose snapshot reader =>
    rw [phase] at own
    rw [advance, phase]
    exact reread_invariant invariant own.1 own.2
  | unlinking purpose snapshot =>
    rw [phase] at own undisturbed
    rw [advance, phase]
    exact removeLock_invariant invariant undisturbed own.1 own.2
  | claiming token claim =>
    rw [phase] at own undisturbed
    rw [advance, phase]
    apply advanceClaim_invariant invariant _ own
    rintro snapshot rfl
    exact undisturbed

theorem replaces_of_ownToken {token : LockToken}
    (found : world.ownToken process = some token) :
    world.Replaces process token := by
  rw [ownToken, Option.filter_eq_some_iff, beq_iff_eq] at found
  exact ⟨found.2, found.1⟩

theorem repair_invariant (invariant : world.LockInvariant)
    (process number : Nat) :
    (world.repair (.temporary process number)).LockInvariant := by
  rw [repair]
  split
  case h_1 => exact invariant
  case h_2 inode named =>
    split
    case isTrue repairable =>
      obtain ⟨unlocked, published, -⟩ := repairable
      have lawful : ∀ actor, Lawful world
          (world.removeFile (.temporary process number)) actor := by
        intro actor
        apply removeFile_lawful invariant unlocked
        rintro other - found content drafts same
        rw [same, drafts.named] at named
        cases named
        exact temporary_ne_lock (drafts.only _ published).symm
      refine ⟨(lawful 0).files, (lawful 0).owned, (lawful 0).entitled,
        (lawful 0).received, ?_⟩
      intro other alive
      have different : other ≠ other + 1 := Nat.ne_of_lt (Nat.lt_succ_self _)
      have spares := (lawful (other + 1)).spares
      have same := spares.others other different
      rw [LockWorld.alive, same] at alive
      rw [LockWorld.phase, same]
      exact spares.phase different alive (invariant.phases other alive)
    case isFalse => exact invariant

theorem ready_alive (ready : world.ready process = true) :
    world.alive process = true :=
  ((Bool.and_eq_true _ _).mp ready).1

theorem step_invariant (invariant : world.LockInvariant)
    {event : LockEvent Detail} (undisturbed : world.undisturbed event = true) :
    (step program world event).LockInvariant := by
  cases event with
  | acquire process detail =>
    rw [step]
    split
    case isTrue =>
      refine ((invariant.lawful process).setProcess ?_).invariant invariant ?_
      · exact fun _ alive => alive
      · intro _
        rw [LockWorld.phase, setProcess_self]
        exact ⟨rfl, rfl⟩
    case isFalse => exact invariant
  | update process startupReadyAt | handoff process receiver detail =>
    rw [step]
    split
    case isTrue =>
      split
      case h_1 => exact invariant
      case h_2 token found =>
        exact invariant.enters fun _ => replaces_of_ownToken found
    case isFalse => exact invariant
  | release process =>
    rw [step]
    split
    case isTrue ready =>
      split
      case h_1 => exact invariant
      case h_2 token found =>
        exact invariant.enters fun _ =>
          (replaces_of_ownToken found).released invariant (ready_alive ready)
    case isFalse => exact invariant
  | claim process token =>
    rw [step]
    split
    case isTrue => exact invariant.enters fun _ => trivial
    case isFalse => exact invariant
  | advance process again =>
    rw [step]
    split
    case isTrue alive => exact advance_invariant invariant alive undisturbed
    case isFalse => exact invariant
  | repair process number => exact repair_invariant invariant process number
  | crash process =>
    rw [step]
    refine ((invariant.lawful process).setProcess ?_).invariant invariant ?_
    · intro _ alive
      cases alive
    · intro alive
      rw [LockWorld.alive, setProcess_self] at alive
      cases alive

theorem empty_invariant : LockInvariant ({} : LockWorld Detail) where
  files := ⟨fun _ _ => rfl, nofun, nofun⟩
  owned := nofun
  entitled := fun _ _ holds => nomatch holds.held
  received := by
    rintro owner ⟨inode, named, -⟩
    cases named
  phases := fun _ _ => trivial

end Steps

section Runs

structure Exclusive (world : LockWorld Detail) : Prop where
  single : ∀ first second token other, world.Holds first token →
    world.Holds second other → first = second
  /-- The lock stays with the process which is entitled to it. -/
  kept : ∀ process token, world.Holds process token →
    ∃ owner, world.publisher = some owner ∧ owner.pid = process ∧
      owner.token = token
  owned : world.Owned

theorem LockInvariant.exclusive {world : LockWorld Detail}
    (invariant : world.LockInvariant) : Exclusive world where
  single := fun _ _ _ _ one other => (invariant.single one other).1
  kept := by
    intro process token holds
    obtain ⟨owner, names, same⟩ := invariant.entitled process token holds
    exact ⟨owner, publisher_names.mpr names, same⟩
  owned := invariant.owned

theorem exclusive_of_undisturbed {program : LockProgram Detail}
    {events : List (LockEvent Detail)} (meets : Meets (step program) (fun world
    event => world.undisturbed event = true) {} events) (before after : List
    (LockEvent Detail)) (split : events = before ++ after) : Exclusive
    (run (step program) {} before) := by
  rw [split] at meets
  obtain ⟨early, -⟩ := meets_append.mp meets
  have kept : (run (step program) {} before).LockInvariant := by
    refine run_induction_of_meets ?_ empty_invariant early
    exact fun world event condition invariant =>
      step_invariant invariant condition
  exact kept.exclusive

end Runs

end LockWorld

end MachineBridge.Locks
