import MachineBridge.Resources.TransactionInvariant

/-!
# What each operation on the lock changes

One lemma for every operation of the filesystem.  Only the last step of a
removal can take away what another process has published, unless the lock still
names the file which was checked.
-/

namespace MachineBridge.Resources

open Foundation Foundation.Filesystem

namespace LockWorld

section Operations

variable {world : LockWorld} {process other : ProcessId} {files : LockFiles}

@[simp] theorem files_withFiles :
    (world.withFiles files).files = files := rfl

theorem publisher_congr {next : LockWorld}
    (same : next.files.lookup .lock = world.files.lookup .lock)
    (kinds : ∀ inode, world.files.lookup .lock = some inode →
      next.files.kind inode = world.files.kind inode) :
    next.publisher = world.publisher := by
  unfold publisher
  rw [same]
  split
  case h_1 => rfl
  case h_2 inode named => rw [kinds inode named]

theorem publisher_eq_some {owner : FileOwner}
    (published : world.publisher = some owner) : ∃ inode,
    world.files.lookup .lock = some inode ∧
    world.files.kind inode = .regular (some owner) := by
  unfold publisher at published
  split at published
  case h_1 => cases published
  case h_2 inode named =>
    refine ⟨inode, named, ?_⟩
    split at published
    case h_1 content kind => rw [kind, published]
    case h_2 => cases published

theorem stagingName_injective
    (same : world.stagingName other = world.stagingName process) :
    other = process := by
  cases same
  rfl

variable {inode : Nat} {name : LockName}

theorem Drafts.ne {draft : Nat} {content held : Option FileOwner}
    (differ : other ≠ process) (own : world.Drafts process inode content)
    (theirs : world.Drafts other draft held) : draft ≠ inode := by
  intro same
  rw [same] at theirs
  apply differ
  apply stagingName_injective
  apply own.only
  exact theirs.named

theorem Drafts.lock_ne {content : Option FileOwner}
    (own : world.Drafts process inode content) :
    world.files.lookup .lock ≠ some inode := by
  intro named
  have impossible := own.only .lock named
  cases impossible

theorem createNew_changes (invariant : world.LockInvariant) (created :
    world.files.createNew (world.stagingName process) none 0o600 = .ok files) :
    Changes world (world.withFiles files) process ∧
    (world.withFiles files).Drafts process world.files.next none := by
  obtain ⟨grown, old, absent, lookup⟩ := createNew_eq_ok created
  have kinds := kind_createNew created
  have unwritten : ∀ inode owner,
      world.files.kind inode = .regular (some owner) →
      inode ≠ world.files.next := by
    intro inode owner content same
    have fresh := invariant.unused inode (Nat.le_of_eq same.symm)
    rw [fresh] at content
    cases content
  refine ⟨?_, ?_⟩
  · constructor
    · intro other _
      rfl
    · intro other dead
      exact dead
    · intro inode owner content
      rw [files_withFiles, kinds, if_neg (unwritten inode owner content)]
      exact content
    · intro other differ inode content drafts
      have bound := lt_next drafts.named
      have elsewhere : world.stagingName other ≠ world.stagingName process := by
        intro same
        exact differ (stagingName_injective same)
      refine ⟨?_, ?_, ?_⟩
      · rw [files_withFiles, lookup]
        exact (if_neg elsewhere).trans drafts.named
      · rw [files_withFiles, old inode bound]
        exact drafts.content
      · intro name named
        rw [files_withFiles, lookup] at named
        split at named
        case isTrue =>
          cases named
          exact absurd bound (Nat.lt_irrefl _)
        case isFalse => exact drafts.only name named
    · intro other _ _
      apply publisher_congr
      · rw [files_withFiles, lookup, if_neg]
        intro same
        cases same
      · intro inode named
        exact old inode (lt_next named)
    · intro inode owner content
      rw [files_withFiles, kinds] at content
      split at content
      case isTrue => cases content
      case isFalse => exact invariant.genuine inode owner content
    · intro inode beyond
      rw [files_withFiles, grown] at beyond
      rw [files_withFiles, kinds, if_neg (Nat.ne_of_gt beyond)]
      exact invariant.unused inode (Nat.le_of_succ_le beyond)
  · refine ⟨?_, ?_, ?_⟩
    · rw [files_withFiles, lookup]
      exact if_pos rfl
    · rw [files_withFiles, kinds, if_pos rfl]
    · intro name named
      rw [files_withFiles, lookup] at named
      split at named
      case isTrue same => exact same
      case isFalse => exact absurd (lt_next named) (Nat.lt_irrefl _)

theorem write_changes (invariant : world.LockInvariant)
    (own : world.Drafts process inode none) : Changes world (world.withFiles
    (world.files.write inode (some (world.fileOwner process)))) process ∧
    (world.withFiles (world.files.write inode (some (world.fileOwner
    process)))).Drafts process inode (some (world.fileOwner process)) := by
  refine ⟨?_, ?_⟩
  · constructor
    · intro other _
      rfl
    · intro other dead
      exact dead
    · intro sealed owner content
      rw [files_withFiles, kind_write_of_ne]
      · exact content
      · intro same
        rw [same, own.content] at content
        cases content
    · intro other differ draft content drafts
      refine ⟨drafts.named, ?_, drafts.only⟩
      rw [files_withFiles, kind_write_of_ne _ (own.ne differ drafts)]
      exact drafts.content
    · intro other _ _
      apply publisher_congr
      · rfl
      · intro locked named
        apply kind_write_of_ne
        intro same
        rw [same] at named
        exact own.lock_ne named
    · intro sealed owner content
      by_cases same : sealed = inode
      · rw [same, files_withFiles, kind_write_self] at content
        cases content
        rfl
      · rw [files_withFiles, kind_write_of_ne _ same] at content
        exact invariant.genuine sealed owner content
    · intro beyond bound
      have used : inode < world.files.next := lt_next own.named
      rw [files_withFiles, kind_write_of_ne]
      · exact invariant.unused beyond bound
      · exact Nat.ne_of_gt (Nat.lt_of_lt_of_le used bound)
  · refine ⟨own.named, ?_, own.only⟩
    rw [files_withFiles, kind_write_self]

theorem link_changes (invariant : world.LockInvariant)
    (own : world.Drafts process inode (some (world.fileOwner process)))
    (linked : world.files.link (world.stagingName process) .lock = .ok files) :
    Changes world (world.withFiles files) process ∧
    (world.withFiles files).publisher = some (world.fileOwner process) := by
  obtain ⟨found, named, absent, same, kinds, lookup⟩ := link_eq_ok linked
  rw [own.named] at named
  cases named
  refine ⟨?_, ?_⟩
  · constructor
    · intro other _
      rfl
    · intro other dead
      exact dead
    · intro sealed owner content
      rw [files_withFiles, kinds]
      exact content
    · intro other differ draft content drafts
      refine ⟨?_, ?_, ?_⟩
      · rw [files_withFiles, lookup, if_neg]
        · exact drafts.named
        · intro equal
          cases equal
      · rw [files_withFiles, kinds]
        exact drafts.content
      · intro name naming
        rw [files_withFiles, lookup] at naming
        split at naming
        case isTrue =>
          cases naming
          exact absurd rfl (own.ne differ drafts)
        case isFalse => exact drafts.only name naming
    · intro other differ holding
      have held := (invariant.processes other).held holding
      obtain ⟨locked, taken, _⟩ := publisher_eq_some held
      rw [absent] at taken
      cases taken
    · intro sealed owner content
      rw [files_withFiles, kinds] at content
      exact invariant.genuine sealed owner content
    · intro beyond bound
      rw [files_withFiles, same] at bound
      rw [files_withFiles, kinds]
      exact invariant.unused beyond bound
  · have locked : files.lookup .lock = some inode := by
      rw [lookup, if_pos rfl]
    unfold publisher
    rw [files_withFiles, locked]
    dsimp only
    rw [kinds, own.content]

theorem removeFile_changes (invariant : world.LockInvariant) (locked : ∀ third,
      third ≠ process → world.holds third = true → name ≠ .lock)
    (foreign : ∀ third, third ≠ process → ∀ inode content,
      world.Drafts third inode content → name ≠ world.stagingName third) :
    Changes world (world.removeFile name) process := by
  unfold removeFile
  split
  case h_2 => exact invariant.unchanged
  case h_1 files removed =>
    obtain ⟨same, kinds, lookup⟩ := remove_eq_ok removed
    constructor
    · intro other _
      rfl
    · intro other dead
      exact dead
    · intro sealed owner content
      rw [files_withFiles, kinds]
      exact content
    · intro third other draft content drafts
      refine ⟨?_, ?_, ?_⟩
      · rw [files_withFiles, lookup]
        exact (if_neg (Ne.symm (foreign third other _ _ drafts))).trans
          drafts.named
      · rw [files_withFiles, kinds]
        exact drafts.content
      · intro found naming
        rw [files_withFiles, lookup] at naming
        split at naming
        case isTrue => cases naming
        case isFalse => exact drafts.only found naming
    · intro third differ holding
      apply publisher_congr
      · rw [files_withFiles, lookup, if_neg]
        exact Ne.symm (locked third differ holding)
      · intro inode _
        exact kinds inode
    · intro sealed owner content
      rw [files_withFiles, kinds] at content
      exact invariant.genuine sealed owner content
    · intro beyond bound
      rw [files_withFiles, same] at bound
      rw [files_withFiles, kinds]
      exact invariant.unused beyond bound

theorem publisher_removeFile (differ : name ≠ .lock) :
    (world.removeFile name).publisher = world.publisher := by
  unfold removeFile
  split
  case h_2 => rfl
  case h_1 files removed =>
    obtain ⟨_, kinds, lookup⟩ := remove_eq_ok removed
    apply publisher_congr
    · rw [files_withFiles, lookup, if_neg (Ne.symm differ)]
    · intro inode _
      exact kinds inode

@[simp] theorem processes_removeFile :
    (world.removeFile name).processes = world.processes := by
  unfold removeFile
  split <;> rfl

end Operations

section Readings

variable {files : LockFiles}

theorem advanceSnapshot_read {allowed : Option FileIdentity}
    {snapshot : SnapshotPhase} {content : Option FileOwner}
    {identity : FileIdentity}
    (read : advanceSnapshot files allowed snapshot = .read content identity) :
    files.kind identity.inode = .regular content := by
  cases snapshot with
  | opening =>
    simp only [advanceSnapshot] at read
    split at read <;> cases read
  | inspecting inode | locating opened =>
    simp only [advanceSnapshot] at read
    split at read
    · cases read
    · split at read <;> cases read
  | reading opened =>
    simp only [advanceSnapshot] at read
    split at read
    case h_1 stored kind =>
      cases read
      exact kind
    case h_2 => cases read

theorem matchesExpected_eq_true {content : Option FileOwner}
    {token : LockToken} (expected : matchesExpected content token = true) :
    ∃ owner, content = some owner ∧ owner.token = token := by
  cases content with
  | none => cases expected
  | some owner =>
    rw [matchesExpected, Option.any_some, Bool.and_eq_true] at expected
    exact ⟨owner, rfl, by simpa using expected.1⟩

theorem advanceRemoval_checked {removal : Removal} {identity : FileIdentity}
    (checked : advanceRemoval files removal = .going (.unlinking identity)) :
    ∃ owner, files.kind identity.inode = .regular (some owner) ∧
    owner.token = removal.token := by
  unfold advanceRemoval at checked
  split at checked
  case h_1 =>
    split at checked
    case h_5 => split at checked <;> cases checked
    all_goals cases checked
  case h_2 =>
    split at checked
    · cases checked
    · split at checked <;> cases checked
  case h_3 =>
    split at checked
    case h_5 content current read =>
      split at checked
      case isTrue expected =>
        cases checked
        obtain ⟨owner, same, token⟩ := matchesExpected_eq_true expected.2
        refine ⟨owner, ?_, token⟩
        rw [advanceSnapshot_read read, same]
      case isFalse => cases checked
    all_goals cases checked
  case h_4 => split at checked <;> cases checked

theorem advanceRemoval_unlinks {removal : Removal}
    (unlinks : advanceRemoval files removal = .unlinks) :
    ∃ identity, removal.phase = .unlinking identity := by
  unfold advanceRemoval at unlinks
  split at unlinks
  case h_1 =>
    split at unlinks
    case h_5 => split at unlinks <;> cases unlinks
    all_goals cases unlinks
  case h_2 =>
    split at unlinks
    · cases unlinks
    · split at unlinks <;> cases unlinks
  case h_3 =>
    split at unlinks
    case h_5 => split at unlinks <;> cases unlinks
    all_goals cases unlinks
  case h_4 identity phase => exact ⟨identity, phase⟩

end Readings

section Unlinking

variable {world : LockWorld} {process : ProcessId} {token : LockToken}
  {identity : FileIdentity}

theorem unlinking_eq_some {phase : LockPhase}
    (unlinking : phase.unlinking = some (token, identity)) :
    (∃ observed allowed,
      phase = .reclaiming observed ⟨token, allowed, .unlinking identity⟩) ∨
    ∃ allowed, phase = .releasing ⟨token, allowed, .unlinking identity⟩ := by
  unfold LockPhase.unlinking at unlinking
  split at unlinking
  case h_1 observed _ allowed _ =>
    cases unlinking
    exact .inl ⟨observed, allowed, rfl⟩
  case h_2 _ allowed _ =>
    cases unlinking
    exact .inr ⟨allowed, rfl⟩
  case h_3 => cases unlinking

theorem LockInvariant.published_by (invariant : world.LockInvariant)
    (unlinking : (world.phase process).unlinking = some (token, identity))
    (undisturbed : ∀ inode, world.files.lookup .lock = some inode →
      inode = identity.inode) {owner : FileOwner}
    (published : world.publisher = some owner) :
    owner.pid = process ∨ world.alive owner.pid = false := by
  have own := invariant.processes process
  obtain ⟨inode, named, content⟩ := publisher_eq_some published
  obtain ⟨read, kind, same⟩ := own.checked token identity unlinking
  have genuine := invariant.genuine inode owner content
  rw [undisturbed inode named, kind] at content
  cases content
  rcases unlinking_eq_some unlinking with reclaiming | releasing
  · obtain ⟨observed, allowed, phase⟩ := reclaiming
    obtain ⟨expected, pid, dead⟩ := own.reclaimed observed _ phase
    right
    have observes : owner.pid = observed.pid := by
      rw [genuine, same, pid, ← expected]
    rw [observes]
    exact dead
  · obtain ⟨allowed, phase⟩ := releasing
    left
    have expected := own.released _ phase
    rw [genuine, same]
    exact congrArg LockToken.process expected

theorem unlink_changes (invariant : world.LockInvariant)
    (unlinking : (world.phase process).unlinking = some (token, identity))
    (undisturbed : ∀ inode, world.files.lookup .lock = some inode →
      inode = identity.inode) :
    Changes world (world.unlink process) process := by
  have alone : ∀ third, third ≠ process → world.holds third = true →
      False := by
    intro third differ holding
    have held := (invariant.processes third).held holding
    rcases invariant.published_by unlinking undisturbed held with own | dead
    · exact differ own
    · rw [LockWorld.holds, Bool.and_eq_true] at holding
      have lives : world.alive third = true := holding.1
      have crashed : world.alive third = false := dead
      rw [lives] at crashed
      cases crashed
  apply Changes.recorded
  apply removeFile_changes invariant
  · intro third differ holding
    exact (alone third differ holding).elim
  · intro third _ inode content _ same
    cases same

theorem unlink_owned (invariant : world.LockInvariant)
    (unlinking : (world.phase process).unlinking = some (token, identity))
    (undisturbed : ∀ inode, world.files.lookup .lock = some inode →
      inode = identity.inode) {entry : LockUnlink}
    (member : entry ∈ (world.unlink process).unlinks) : entry ∈ world.unlinks ∨
    entry.publisher = entry.remover ∨ entry.alive = false := by
  unfold unlink at member
  split at member
  case h_1 => exact .inl member
  case h_2 owner published =>
    rcases List.mem_append.mp member with old | new
    · exact .inl old
    · rw [List.mem_singleton.mp new]
      right
      exact invariant.published_by unlinking undisturbed published

end Unlinking

end LockWorld

end MachineBridge.Resources
