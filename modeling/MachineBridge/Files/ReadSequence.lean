import MachineBridge.Files.ReadWindow

/-!
# Following the windows of a file

A caller who follows the returned lines reads every line of the file once.  The
lines of a content are its parts with their ends; a window returns consecutive
ones, from the line at which it starts.
-/

namespace MachineBridge.Files

open Foundation Git List

theorem lineStartsFrom_eq (index : Nat) (content : Text) :
    lineStartsFrom index content =
    (startsAt index (linesOf content)).tail := by
  induction content generalizing index with
  | nil => rfl
  | cons unit rest induction =>
    have below := induction (index + 1)
    rw [lineStartsFrom, linesOf]
    cases parts : linesOf rest with
    | nil => exact absurd parts (linesOf_ne_nil rest)
    | cons line lines =>
      rw [parts] at below
      split
      case isTrue =>
        rw [below]
        rfl
      case isFalse =>
        rw [below]
        simp [consFirst, startsAt, Nat.add_assoc, Nat.add_comm 1]

section

variable (content : Text)

theorem lineStarts_eq : lineStarts content = startsAt 0 (linesOf content) := by
  rw [lineStarts, lineStartsFrom_eq]
  cases parts : linesOf content with
  | nil => exact absurd parts (linesOf_ne_nil content)
  | cons line lines => rfl

theorem totalLines_eq : totalLines content = (linesOf content).length := by
  rw [totalLines, lineStarts_eq, length_startsAt]

theorem totalLines_pos : 0 < totalLines content :=
  Nat.succ_pos _

/-- The lines from `first` through `last`. -/
def linesBetween (first last : Nat) : Text :=
  (((linesOf content).take last).drop (first - 1)).flatten

theorem endOffset_eq (line : Nat) :
    endOffset content line = ((linesOf content).take line).flatten.length := by
  rw [endOffset, totalLines_eq]
  split
  case isTrue below =>
    rw [getD_eq_getElem?_getD, lineStarts_eq, getElem?_startsAt below,
      Option.getD_some, Nat.zero_add]
  case isFalse last =>
    rw [take_of_length_le (Nat.le_of_not_lt last), flatten_linesOf]

end

variable {content : Text} {next : Nat}

theorem selectLines_eq {startLine endLine : Nat} (positive : 0 < startLine)
    (order : startLine ≤ endLine) (inside : endLine ≤ totalLines content) :
    selectLines content startLine endLine =
    linesBetween content startLine endLine := by
  have before : startLine - 1 < (linesOf content).length := by
    rw [totalLines_eq] at inside
    omega
  have start : (lineStarts content).getD (startLine - 1) 0 =
      ((linesOf content).take (startLine - 1)).flatten.length := by
    rw [getD_eq_getElem?_getD, lineStarts_eq, getElem?_startsAt before,
      Option.getD_some, Nat.zero_add]
  have between := flatten_between (linesOf content)
    (show startLine - 1 ≤ endLine by omega)
  rw [flatten_linesOf] at between
  rw [selectLines, slice, start, endOffset_eq, between, linesBetween]

theorem linesBetween_append {first middle last : Nat}
    (before : first ≤ middle + 1) (behind : middle ≤ last) :
    linesBetween content first middle ++
    linesBetween content (middle + 1) last =
    linesBetween content first last := by
  rw [linesBetween, linesBetween, linesBetween, ← flatten_append]
  congr 1
  rw [drop_take, drop_take, drop_take, Nat.add_sub_cancel]
  have later : (linesOf content).drop middle =
      ((linesOf content).drop (first - 1)).drop (middle - (first - 1)) := by
    rw [drop_drop]
    congr 1
    omega
  have width : last - (first - 1) =
      middle - (first - 1) + (last - middle) := by omega
  rw [later, width, take_add]

theorem linesBetween_all (content : Text) :
    linesBetween content 1 (totalLines content) = content := by
  rw [linesBetween, totalLines_eq, take_length, Nat.sub_self,
    drop_zero, flatten_linesOf]

theorem totalLines_le (content : Text) :
    totalLines content ≤ content.length + 1 := by
  have starts : ∀ (rest : Text) (index : Nat),
      (lineStartsFrom index rest).length ≤ rest.length := by
    intro rest
    induction rest with
    | nil => exact fun _ => Nat.le_refl 0
    | cons unit rest induction =>
      intro index
      have below := induction (index + 1)
      rw [lineStartsFrom]
      split
      case isTrue => exact Nat.succ_le_succ below
      case isFalse => exact Nat.le_succ_of_le below
  exact Nat.succ_le_succ (starts content 0)

/-- The window returns the lines from `next`, and where the next one starts. -/
structure Covers (content : Text) (next : Nat) (window : FileWindow) : Prop
    where
  starts : window.startLine = next
  progress : next ≤ window.endLine
  inside : window.endLine ≤ totalLines content
  selected : window.content = linesBetween content next window.endLine
  continues : window.nextStartLine =
    if window.endLine < totalLines content then some (window.endLine + 1)
    else none

section

variable (environment : ReadEnvironment)

def TooLarge (content : Text) (limit : Nat) (next : Nat) (error : ReadError) :
    Prop :=
  if environment.relay then
    ∃ window : FileWindow, window.content = linesBetween content next next ∧
      error = .hostedResultLimit (environment.jsonBytes window) limit
        (byteLength window.content) ∧
      (limit < byteLength window.content ∨
        maxHostedResultBytes < environment.jsonBytes window)
  else
    error = .selectedLimit (byteLength (linesBetween content next next))
      limit ∧ limit < byteLength (linesBetween content next next)

/-- A read returns the lines from `next`, or the first of them is too large. -/
def Answers (content : Text)
    (limit next : Nat) : Except ReadError FileWindow → Prop
  | .ok window => Covers content next window
  | .error error => TooLarge environment content limit next error

end

namespace ReadSelection

/-- A request for the lines from `startLine` to the end. -/
structure Automatic (selection : ReadSelection) : Prop where
  positive : 0 < selection.startLine
  inside : selection.startLine ≤ selection.total
  toEnd : selection.selectedEnd = selection.total
  automatic : selection.automatic = true
  plain : selection.withLineNumbers = false

variable {selection : ReadSelection} {environment : ReadEnvironment}

theorem Automatic.render (request : selection.Automatic) {endLine : Nat}
    (order : selection.startLine ≤ endLine)
    (inside : endLine ≤ selection.total) : selection.render endLine =
    linesBetween selection.content selection.startLine endLine := by
  rw [ReadSelection.render, renderLines, request.plain]
  exact selectLines_eq request.positive order inside

theorem Automatic.window_covers (request : selection.Automatic)
    (environment : ReadEnvironment) {endLine : Nat} {continuation : Bool}
    (order : selection.startLine ≤ endLine)
    (inside : endLine ≤ selection.total)
    (continues : continuation = decide (endLine < selection.total)) : Covers
    selection.content selection.startLine
    (selection.window environment endLine continuation) := by
  refine ⟨rfl, order, inside, request.render order inside, ?_⟩
  subst continues
  change (if decide (endLine < selection.total) = true then
      some (endLine + 1) else none) =
    if endLine < selection.total then some (endLine + 1) else none
  simp only [decide_eq_true_eq]

theorem searchLocal_spec (selection : ReadSelection) (low high : Nat)
    (order : low ≤ high) : low ≤ selection.searchLocal low high ∧
    selection.searchLocal low high ≤ high ∧
    (selection.searchLocal low high = low ∨
      selection.bytesThrough (selection.searchLocal low high) ≤
      selection.maxContentBytes) := by
  induction low, high using searchLocal.induct selection with
  | case1 low high active middle fit induction =>
    have step : selection.searchLocal low high =
        selection.searchLocal middle high := by
      rw [searchLocal, if_pos active]
      exact if_pos fit
    obtain ⟨lower, upper, choice⟩ := induction (by omega)
    rw [step]
    refine ⟨by omega, upper, ?_⟩
    rcases choice with same | below
    · right
      rw [same]
      exact fit
    · exact .inr below
  | case2 low high active middle unfit induction =>
    have step : selection.searchLocal low high =
        selection.searchLocal low (middle - 1) := by
      rw [searchLocal, if_pos active]
      exact if_neg unfit
    obtain ⟨lower, upper, choice⟩ := induction (by omega)
    rw [step]
    exact ⟨lower, by omega, choice⟩
  | case3 low high done =>
    rw [searchLocal, if_neg done]
    exact ⟨Nat.le_refl low, order, .inl rfl⟩

theorem localFileReadResult_answers (request : selection.Automatic)
    (plain : environment.relay = false) : Answers environment selection.content
    selection.maxContentBytes selection.startLine
    (selection.localFileReadResult environment) := by
  have order : selection.startLine ≤ selection.selectedEnd := by
    rw [request.toEnd]
    exact request.inside
  obtain ⟨lower, upper, choice⟩ := searchLocal_spec selection
    selection.startLine selection.selectedEnd order
  rw [localFileReadResult, request.automatic, Bool.true_and]
  by_cases large : selection.maxContentBytes <
      selection.bytesThrough selection.selectedEnd
  · rw [decide_eq_true large]
    simp only [if_true]
    generalize selection.searchLocal selection.startLine
      selection.selectedEnd = line at lower upper choice ⊢
    have inside : line ≤ selection.total := request.toEnd ▸ upper
    split
    case isTrue exceeded =>
      rcases choice with rfl | below
      · have content := request.render (Nat.le_refl _) request.inside
        rw [bytesThrough, content] at exceeded ⊢
        simp only [Answers, TooLarge, plain, Bool.false_eq_true, if_false]
        exact ⟨trivial, exceeded⟩
      · exact absurd exceeded (Nat.not_lt.mpr below)
    case isFalse fit =>
      have short : line < selection.total := by
        apply Nat.lt_of_le_of_ne inside
        rintro rfl
        rw [← request.toEnd] at fit
        exact fit large
      have covers := request.window_covers environment lower inside
        (decide_eq_true short).symm
      exact ⟨covers.1, covers.2, covers.3, covers.4, covers.5⟩
  · rw [decide_eq_false large]
    simp only [Bool.false_eq_true, if_false]
    rw [if_neg large, request.toEnd]
    have covers := request.window_covers environment request.inside
      (Nat.le_refl _) (decide_eq_false (Nat.lt_irrefl _)).symm
    exact ⟨covers.1, covers.2, covers.3, covers.4, covers.5⟩

theorem searchHosted_spec (selection : ReadSelection)
    (environment : ReadEnvironment) (low limit : Nat) (best : FileWindow) :
    selection.searchHosted environment low limit best = best ∨ ∃ line,
    low ≤ line ∧ line < limit ∧
    selection.searchHosted environment low limit best =
    selection.window environment line true := by
  induction low, limit, best using searchHosted.induct environment selection
    with
  | case1 low limit best active middle current fit induction =>
    have step : selection.searchHosted environment low limit best =
        selection.searchHosted environment (middle + 1) limit current := by
      rw [searchHosted, if_pos active]
      exact if_pos fit
    right
    rw [step]
    rcases induction with same | ⟨line, lower, upper, same⟩
    · exact ⟨middle, by omega, by omega, same⟩
    · exact ⟨line, by omega, upper, same⟩
  | case2 low limit best active middle current unfit induction =>
    have step : selection.searchHosted environment low limit best =
        selection.searchHosted environment low middle best := by
      rw [searchHosted, if_pos active]
      exact if_neg unfit
    rw [step]
    rcases induction with same | ⟨line, lower, upper, same⟩
    · exact .inl same
    · exact .inr ⟨line, lower, by omega, same⟩
  | case3 low limit best done =>
    left
    rw [searchHosted, if_neg done]

theorem over_of_not_fits {candidate : FileWindow}
    (wide : selection.fits environment candidate ≠ true) :
    selection.maxContentBytes < byteLength candidate.content ∨
    maxHostedResultBytes < environment.jsonBytes candidate := by
  simp only [fits, Bool.and_eq_true, decide_eq_true_eq, ne_eq] at wide
  omega

theorem hostedFileReadResult_answers (request : selection.Automatic)
    (hosted : environment.relay = true) : Answers environment selection.content
    selection.maxContentBytes selection.startLine
    (selection.hostedFileReadResult environment) := by
  rw [hostedFileReadResult, request.automatic, request.toEnd]
  dsimp only
  split
  case isTrue fit =>
    exact request.window_covers environment request.inside (Nat.le_refl _)
      (decide_eq_false (Nat.lt_irrefl _)).symm
  case isFalse unfit =>
    rw [if_neg (by decide)]
    split
    case isTrue refused =>
      have content := request.render (Nat.le_refl _) request.inside
      have wide := over_of_not_fits (by simpa using refused)
      simp only [Answers, TooLarge, hosted, if_true]
      exact ⟨_, content, rfl, wide⟩
    case isFalse accepted =>
      have several : selection.startLine < selection.total := by
        apply Nat.lt_of_le_of_ne request.inside
        intro same
        rw [same, decide_eq_false (Nat.lt_irrefl _)] at accepted
        simp [unfit] at accepted
      rw [decide_eq_true several]
      rcases searchHosted_spec selection environment selection.startLine
          selection.total (selection.window environment selection.startLine
            true) with same | ⟨line, lower, upper, same⟩
      · rw [same]
        exact request.window_covers environment (Nat.le_refl _) request.inside
          (decide_eq_true several).symm
      · rw [same]
        exact request.window_covers environment lower (Nat.le_of_lt upper)
          (decide_eq_true upper).symm

end ReadSelection

theorem readContent_answers (environment : ReadEnvironment) (size : Nat)
    (maxBytes : Option Int) (positive : 0 < next)
    (inside : next ≤ totalLines content)
    (safe : totalLines content ≤ maxSafeInteger) :
    Answers environment content (contentLimit environment maxBytes) next
      (readContent environment content size
        { startLine := some next, maxBytes }) := by
  have start : lineArgument (some (next : Int)) 1 = next := by
    simp only [lineArgument, clampInteger, Option.getD_some]
    omega
  unfold readContent
  dsimp only
  rw [start, Option.isNone_none, if_pos rfl, if_neg (Nat.not_lt.mpr inside),
    if_neg (Nat.not_lt.mpr inside), Nat.min_self]
  split
  case isTrue hosted =>
    exact ReadSelection.hostedFileReadResult_answers
      ⟨positive, inside, rfl, rfl, rfl⟩ hosted
  case isFalse plain =>
    exact ReadSelection.localFileReadResult_answers
      ⟨positive, inside, rfl, rfl, rfl⟩ (Bool.not_eq_true _ ▸ plain)

/-- One read of a sequence: who reads, and the limit of the request. -/
structure ReadStep where
  environment : ReadEnvironment
  maxBytes : Option Int

inductive Ending where
  | finished
  | refused (step : ReadStep) (error : ReadError)
  | continues (next : Nat)

/-- The reads which follow the returned lines, from `next` on. -/
def followWindows (file : FileEntry) :
    List ReadStep → Nat → List FileWindow × Ending
  | [], next => ([], .continues next)
  | step :: steps, next =>
    match readFile step.environment file
        { startLine := some next, maxBytes := step.maxBytes } with
    | .error error => ([], .refused step error)
    | .ok window =>
      match window.nextStartLine with
      | none => ([window], .finished)
      | some following =>
        let rest := followWindows file steps following
        (window :: rest.1, rest.2)

/-- The windows cover the lines from `next` up to `stop`, each one once. -/
inductive Tiles (content : Text) : Nat → List FileWindow → Nat → Prop
    where
  | nil (next : Nat) : Tiles content next [] next
  | cons {next stop : Nat} {window : FileWindow} {windows : List FileWindow}
      (covers : Covers content next window)
      (rest : Tiles content (window.endLine + 1) windows stop) :
      Tiles content next (window :: windows) stop

def fragments (windows : List FileWindow) : Text :=
  windows.flatMap (·.content)

theorem Tiles.bounds {stop : Nat} {windows : List FileWindow}
    (tiles : Tiles content next windows stop)
    (inside : next ≤ totalLines content + 1) :
    next + windows.length ≤ stop ∧ stop ≤ totalLines content + 1 := by
  induction tiles with
  | nil next => exact ⟨Nat.le_refl next, inside⟩
  | cons covers rest induction =>
    have progress := covers.progress
    obtain ⟨lower, upper⟩ := induction (Nat.succ_le_succ covers.inside)
    rw [length_cons]
    omega

theorem Tiles.fragments_eq {stop : Nat} {windows : List FileWindow}
    (tiles : Tiles content next windows stop) (positive : 0 < next)
    (inside : next ≤ totalLines content + 1) :
    fragments windows = linesBetween content next (stop - 1) := by
  induction tiles with
  | nil next =>
    rw [linesBetween, drop_eq_nil_of_le (length_take_le _ _)]
    rfl
  | cons covers rest induction =>
    rename_i first last window windows
    have after := Nat.succ_le_succ covers.inside
    have progress := covers.progress
    have bounds := rest.bounds after
    calc fragments (window :: windows)
        = window.content ++ fragments windows := rfl
      _ = linesBetween content first window.endLine ++
            linesBetween content (window.endLine + 1) (last - 1) := by
          rw [covers.selected, induction (Nat.succ_pos _) after]
      _ = linesBetween content first (last - 1) :=
          linesBetween_append (by omega) (by omega)

def StopsAt (content : Text) (steps : List ReadStep)
    (windows : List FileWindow) (stop : Nat) : Ending → Prop
  | .finished => stop = totalLines content + 1
  | .refused step error => TooLarge step.environment content
      (contentLimit step.environment step.maxBytes) stop error
  | .continues following => following = stop ∧
      stop ≤ totalLines content ∧ windows.length = steps.length

theorem totalLines_safe {file : FileEntry}
    (readable : readUtf8File file = .ok content) :
    totalLines content ≤ maxSafeInteger := by
  have opened : file.octets.length ≤ maxWriteBytes ∧
      decodeUtf8 file.octets = .ok content := by
    rw [readUtf8File, readBoundedFile] at readable
    split at readable
    · cases readable
    · split at readable
      · cases readable
      · split at readable
        · cases readable
        case isFalse small => exact ⟨Nat.le_of_not_lt small, readable⟩
  obtain ⟨small, decoded⟩ := opened
  have text : ofUtf8 file.octets = some content := by
    rw [decodeUtf8] at decoded
    split at decoded
    · cases decoded
    case h_2 found => rw [found, Except.ok.inj decoded]
  have octets := congrArg List.length (toUtf8_of_ofUtf8 text)
  have units := length_le_byteLength content
  have lines := totalLines_le content
  rw [byteLength, octets] at units
  have bound : maxWriteBytes + 1 ≤ maxSafeInteger := by decide
  omega

theorem followWindows_tiles {file : FileEntry}
    (readable : readUtf8File file = .ok content) (steps : List ReadStep)
    (positive : 0 < next) (inside : next ≤ totalLines content) : ∃ stop,
    Tiles content next (followWindows file steps next).1 stop ∧ StopsAt content
    steps (followWindows file steps next).1 stop
    (followWindows file steps next).2 := by
  induction steps generalizing next with
  | nil => exact ⟨next, .nil next, rfl, inside, rfl⟩
  | cons step steps induction =>
    have answers := readContent_answers step.environment file.octets.length
      step.maxBytes positive inside (totalLines_safe readable)
    have read : readFile step.environment file
        { startLine := some next, maxBytes := step.maxBytes } =
        readContent step.environment content file.octets.length
          { startLine := some next, maxBytes := step.maxBytes } := by
      rw [readFile, readable]
      rfl
    rw [followWindows, read]
    cases result : readContent step.environment content file.octets.length
        { startLine := some next, maxBytes := step.maxBytes } with
    | error error =>
      rw [result] at answers
      exact ⟨next, .nil next, answers⟩
    | ok window =>
      rw [result] at answers
      have covers : Covers content next window := answers
      have continues := covers.continues
      by_cases last : window.endLine < totalLines content
      · rw [if_pos last] at continues
        obtain ⟨stop, tiles, stops⟩ := induction (Nat.succ_pos _) last
        dsimp only
        rw [continues]
        refine ⟨stop, .cons covers tiles, ?_⟩
        revert stops
        cases (followWindows file steps (window.endLine + 1)).2 with
        | finished => exact id
        | refused step error => exact id
        | continues following =>
          intro stops
          exact ⟨stops.1, stops.2.1, congrArg Nat.succ stops.2.2⟩
      · rw [if_neg last] at continues
        dsimp only
        rw [continues]
        have reached : window.endLine = totalLines content :=
          Nat.le_antisymm covers.inside (Nat.le_of_not_lt last)
        exact ⟨window.endLine + 1, .cons covers (.nil _),
          congrArg Nat.succ reached⟩

/-- Whoever follows the returned lines from the first one reads every line
once and in order, until the end of the file or a line which is too large. -/
theorem followWindows_reads {file : FileEntry} {content : Text}
    (readable : readUtf8File file = .ok content) (steps : List ReadStep) :
    ∃ stop, Tiles content 1 (followWindows file steps 1).1 stop ∧ StopsAt
    content steps (followWindows file steps 1).1 stop
    (followWindows file steps 1).2 ∧ fragments (followWindows file steps 1).1 =
    linesBetween content 1 (stop - 1) ∧
    ((followWindows file steps 1).2 = .finished →
      fragments (followWindows file steps 1).1 = content) ∧
    (totalLines content ≤ steps.length → ∀ following,
      (followWindows file steps 1).2 ≠ .continues following) := by
  have first := totalLines_pos content
  have inside : 1 ≤ totalLines content + 1 := Nat.le_add_left 1 _
  obtain ⟨stop, tiles, stops⟩ :=
    followWindows_tiles readable steps Nat.one_pos first
  have read := tiles.fragments_eq Nat.one_pos inside
  refine ⟨stop, tiles, stops, read, ?_, ?_⟩
  · intro finished
    rw [finished] at stops
    have last : stop = totalLines content + 1 := stops
    rw [read, last, Nat.add_sub_cancel, linesBetween_all]
  · intro enough following continues
    rw [continues] at stops
    obtain ⟨-, before, all⟩ := stops
    have count := (tiles.bounds inside).1
    omega

/-- The octets of two lines, the second without an end. -/
def twoLines : FileEntry where
  regular := true
  links := 1
  octets := [0x61, 0x0A, 0x62]

def twoBytes (relay : Bool) : ReadStep where
  environment := {
    relay
    displayPath := text "a.txt"
    sha256 := id
    jsonBytes := fun window => byteLength window.content + 100 }
  maxBytes := some 2

theorem followWindows_reads_twoLines :
    readUtf8File twoLines = .ok [0x61, 0x0A, 0x62] ∧ ∃ stop, Tiles
    [0x61, 0x0A, 0x62] 1
    (followWindows twoLines [twoBytes false, twoBytes true] 1).1 stop ∧ StopsAt
    [0x61, 0x0A, 0x62] [twoBytes false, twoBytes true]
    (followWindows twoLines [twoBytes false, twoBytes true] 1).1 stop
    (followWindows twoLines [twoBytes false, twoBytes true] 1).2 ∧
    fragments (followWindows twoLines [twoBytes false, twoBytes true] 1).1 =
    linesBetween [0x61, 0x0A, 0x62] 1 (stop - 1) := by
  have readable : readUtf8File twoLines = .ok [0x61, 0x0A, 0x62] := by rfl
  obtain ⟨stop, tiles, stops, read, -⟩ :=
    followWindows_reads readable [twoBytes false, twoBytes true]
  exact ⟨readable, stop, tiles, stops, read⟩

namespace ReadSelection

variable {selection : ReadSelection} {environment : ReadEnvironment}

/-- The window keeps to its limits, and one which ends before the last selected
line exceeds them with one more line. -/
def Longest (environment : ReadEnvironment) (selection : ReadSelection)
    (window : FileWindow) : Prop :=
  if environment.relay then
    selection.fits environment window = true ∧
      (window.endLine = selection.selectedEnd ∨
        selection.fits environment (selection.window environment
          (window.endLine + 1)
          (decide (window.endLine + 1 < selection.selectedEnd))) = false)
  else
    byteLength window.content ≤ selection.maxContentBytes ∧
      (window.endLine = selection.selectedEnd ∨
        selection.maxContentBytes <
          selection.bytesThrough (window.endLine + 1))

theorem searchLocal_stops (selection : ReadSelection) {low high : Nat}
    (order : low ≤ high) : selection.searchLocal low high = high ∨
    selection.maxContentBytes <
      selection.bytesThrough (selection.searchLocal low high + 1) := by
  induction low, high using searchLocal.induct selection with
  | case1 low high active middle fit induction =>
    have step : selection.searchLocal low high =
        selection.searchLocal middle high := by
      rw [searchLocal, if_pos active]
      exact if_pos fit
    rw [step]
    exact induction (by omega)
  | case2 low high active middle unfit induction =>
    have step : selection.searchLocal low high =
        selection.searchLocal low (middle - 1) := by
      rw [searchLocal, if_pos active]
      exact if_neg unfit
    rw [step]
    right
    rcases induction (by omega) with last | more
    · rw [last, Nat.sub_add_cancel (by omega)]
      exact Nat.not_le.mp unfit
    · exact more
  | case3 low high done =>
    rw [searchLocal, if_neg done]
    exact .inl (by omega)

theorem searchHosted_stops (selection : ReadSelection)
    (environment : ReadEnvironment) {low limit : Nat} {best : FileWindow}
    (order : low ≤ limit) (fit : selection.fits environment best = true) :
    selection.fits environment
      (selection.searchHosted environment low limit best) = true ∧
    ∃ stop, low ≤ stop ∧ stop ≤ limit ∧
      (stop = limit ∨ selection.fits environment
        (selection.window environment stop true) = false) ∧
      selection.searchHosted environment low limit best =
        if stop = low then best
        else selection.window environment (stop - 1) true := by
  induction low, limit, best using searchHosted.induct environment selection
    with
  | case1 low limit best active middle current fits induction =>
    have step : selection.searchHosted environment low limit best =
        selection.searchHosted environment (middle + 1) limit current := by
      rw [searchHosted, if_pos active]
      exact if_pos fits
    obtain ⟨kept, stop, lower, upper, ends, same⟩ := induction (by omega) fits
    rw [step]
    refine ⟨kept, stop, by omega, upper, ends, ?_⟩
    rw [same, if_neg (show stop ≠ low by omega)]
    split
    case isTrue next => rw [next, Nat.add_sub_cancel]
    case isFalse => rfl
  | case2 low limit best active middle current unfit induction =>
    have step : selection.searchHosted environment low limit best =
        selection.searchHosted environment low middle best := by
      rw [searchHosted, if_pos active]
      exact if_neg unfit
    obtain ⟨kept, stop, lower, upper, ends, same⟩ := induction (by omega) fit
    rw [step]
    refine ⟨kept, stop, lower, by omega, .inr ?_, same⟩
    rcases ends with last | past
    · rw [last]
      exact Bool.not_eq_true _ ▸ unfit
    · exact past
  | case3 low limit best done =>
    rw [searchHosted, if_neg done]
    exact ⟨fit, low, Nat.le_refl low, order, .inl (by omega), (if_pos rfl).symm⟩

variable {window : FileWindow}

theorem localFileReadResult_longest (plain : environment.relay = false)
    (order : selection.startLine ≤ selection.selectedEnd)
    (read : selection.localFileReadResult environment = .ok window) :
    selection.Longest environment window := by
  rw [Longest, if_neg (by simp [plain])]
  unfold localFileReadResult at read
  dsimp only at read
  generalize (selection.automatic && decide (selection.maxContentBytes <
    selection.bytesThrough selection.selectedEnd)) = truncated at read
  by_cases past : selection.maxContentBytes < selection.bytesThrough
      (if truncated then selection.searchLocal selection.startLine
        selection.selectedEnd else selection.selectedEnd)
  · rw [if_pos past] at read
    cases read
  · rw [if_neg past] at read
    cases Except.ok.inj read
    refine ⟨Nat.le_of_not_lt past, ?_⟩
    dsimp only [ReadSelection.window]
    cases truncated with
    | true => exact searchLocal_stops selection order
    | false => exact .inl rfl

theorem hostedFileReadResult_longest (hosted : environment.relay = true)
    (order : selection.startLine ≤ selection.selectedEnd)
    (read : selection.hostedFileReadResult environment = .ok window) :
    selection.Longest environment window := by
  rw [Longest, if_pos hosted]
  unfold hostedFileReadResult at read
  dsimp only at read
  split at read
  case isTrue fit =>
    cases Except.ok.inj read
    exact ⟨fit, .inl rfl⟩
  case isFalse past =>
    split at read
    case isTrue => cases read
    case isFalse =>
      split at read
      case isTrue => cases read
      case isFalse kept =>
        have several : selection.startLine < selection.selectedEnd := by
          apply Nat.lt_of_le_of_ne order
          intro same
          rw [same, decide_eq_false (Nat.lt_irrefl _)] at kept
          simp [past] at kept
        rw [decide_eq_true several, Bool.not_eq_true, Bool.not_eq_false'] at kept
        rw [decide_eq_true several] at read
        obtain ⟨fit, stop, lower, upper, ends, found⟩ :=
          searchHosted_stops selection environment order kept
        have first : stop ≠ selection.startLine := by
          rintro rfl
          rcases ends with last | unfit
          · exact Nat.ne_of_lt several last
          · simp [unfit] at kept
        obtain ⟨line, rfl⟩ : ∃ line, stop = line + 1 := ⟨stop - 1, by omega⟩
        rw [found, if_neg first] at fit read
        cases Except.ok.inj read
        refine ⟨fit, .inr ?_⟩
        show selection.fits environment (selection.window environment (line + 1)
          (decide (line + 1 < selection.selectedEnd))) = false
        by_cases last : line + 1 = selection.selectedEnd
        · rw [last, decide_eq_false (Nat.lt_irrefl _)]
          exact Bool.not_eq_true _ ▸ past
        · rw [decide_eq_true (Nat.lt_of_le_of_ne upper last)]
          exact ends.resolve_left last

end ReadSelection

def requestedEnd (content : Text) (args : ReadArgs) : Nat :=
  if args.endLine.isNone then totalLines content
  else lineArgument args.endLine (totalLines content)

def selectionOf (environment : ReadEnvironment) (content : Text) (size : Nat)
    (args : ReadArgs) : ReadSelection where
  content
  size
  startLine := lineArgument args.startLine 1
  selectedEnd := min (requestedEnd content args) (totalLines content)
  maxContentBytes := contentLimit environment args.maxBytes
  automatic := args.endLine.isNone
  withLineNumbers := args.withLineNumbers

theorem readContent_eq (environment : ReadEnvironment) (content : Text)
    (size : Nat) (args : ReadArgs) :
    readContent environment content size args =
    if requestedEnd content args < lineArgument args.startLine 1 then
      .error .invalidLineRange
    else if totalLines content < lineArgument args.startLine 1 then
      .error (.lineOutOfRange (totalLines content))
    else if environment.relay then
      (selectionOf environment content size args).hostedFileReadResult
        environment
    else (selectionOf environment content size args).localFileReadResult
      environment := rfl

/-- A read stops before the last line which it selects only where one more line
would exceed its limits, and never exceeds them itself. -/
theorem readFile_longest {environment : ReadEnvironment} {file : FileEntry}
    {args : ReadArgs} {window : FileWindow}
    (read : readFile environment file args = .ok window) : ∃ content,
    readUtf8File file = .ok content ∧
    (selectionOf environment content file.octets.length args).Longest
      environment window := by
  unfold readFile at read
  cases decoded : readUtf8File file with
  | error failure =>
    rw [decoded] at read
    cases read
  | ok content =>
    refine ⟨content, rfl, ?_⟩
    rw [decoded] at read
    change readContent environment content file.octets.length args = .ok window
      at read
    rw [readContent_eq] at read
    split_ifs at read with reversed outside hosted
    all_goals
      have order : (selectionOf environment content file.octets.length
          args).startLine ≤ (selectionOf environment content
          file.octets.length args).selectedEnd :=
        le_min (Nat.le_of_not_lt reversed) (Nat.le_of_not_lt outside)
    · exact ReadSelection.hostedFileReadResult_longest hosted order read
    · exact ReadSelection.localFileReadResult_longest
        (Bool.not_eq_true _ ▸ hosted) order read

theorem readFile_longest_twoLines : ∃ window content,
    (readFile (twoBytes false).environment twoLines { maxBytes := some 2 } =
      .ok window ∧ window.endLine = 1) ∧
    readUtf8File twoLines = .ok content ∧
    (selectionOf (twoBytes false).environment content twoLines.octets.length
      { maxBytes := some 2 }).Longest (twoBytes false).environment window := by
  have first : (readFile (twoBytes false).environment twoLines
      { maxBytes := some 2 }).toOption.map FileWindow.endLine = some 1 := by
    decide +kernel
  cases read : readFile (twoBytes false).environment twoLines
      { maxBytes := some 2 } with
  | error failure =>
    rw [read] at first
    cases first
  | ok window =>
    rw [read] at first
    obtain ⟨content, readable, longest⟩ := readFile_longest read
    exact ⟨window, content, ⟨rfl, Option.some.inj first⟩, readable, longest⟩

end MachineBridge.Files
