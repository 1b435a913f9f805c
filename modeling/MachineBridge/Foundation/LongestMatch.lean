import Mathlib.Data.List.Sort
import Mathlib.Data.List.TakeDrop

/-!
# Replacing the longest matches

A list is read from the left.  Where a pattern begins, the longest one is
replaced as a whole and the reading goes on behind it; all other symbols are
kept.  Symbols are compared under a fold, which may identify some of them.
-/

namespace Foundation

open List

structure Replacement (α : Type) where
  (pattern replacement : List α)
  nonempty : pattern ≠ []

/-- What becomes of a symbol. -/
inductive Piece (α : Type) where
  | kept (symbol : α)
  | opened (symbol : α) (replacement : List α)
  | covered (symbol : α)

namespace Piece

variable {α : Type}

def symbol : Piece α → α
  | kept symbol => symbol
  | opened symbol _ => symbol
  | covered symbol => symbol

def output : Piece α → List α
  | kept symbol => [symbol]
  | opened _ replacement => replacement
  | covered _ => []

end Piece

section

variable {α : Type}

def Occurs (fold : α → α) (symbols : List α) (position : Nat)
    (pattern : List α) : Prop :=
  pattern.map fold <+: (symbols.map fold).drop position

namespace Occurs

variable {fold : α → α} {symbols pattern : List α} {position : Nat}

section

variable (occurs : Occurs fold symbols position pattern)
include occurs

theorem inside
    (some : pattern ≠ []) : position + pattern.length ≤ symbols.length := by
  have short := occurs.length_le
  rw [length_map, length_drop, length_map] at short
  have pos := length_pos_iff.mpr some
  omega

theorem append (some : pattern ≠ []) (more : List α) :
    Occurs fold (symbols ++ more) position pattern := by
  have fits := occurs.inside some
  rw [Occurs, map_append, drop_append_of_le_length (by rw [length_map]; omega)]
  exact occurs.trans (prefix_append _ _)

end

theorem of_append {before after : List α}
    (occurs : Occurs fold (before ++ after) position pattern)
    (fits : position + pattern.length ≤ before.length) :
    Occurs fold before position pattern := by
  rw [Occurs, map_append, drop_append_of_le_length
    (by rw [length_map]; omega)] at occurs
  apply prefix_of_prefix_length_le occurs (prefix_append _ _)
  rw [length_map, length_drop, length_map]
  omega

theorem under (occurs : Occurs id symbols position pattern) (change : α → α) :
    Occurs change symbols position pattern := by
  rw [Occurs, map_id, map_id] at occurs
  rw [Occurs, ← map_drop]
  exact occurs.map change

theorem drop_iff : Occurs fold (symbols.drop position) 0 pattern ↔
    Occurs fold symbols position pattern := by
  rw [Occurs, Occurs, map_drop, drop_zero]

end Occurs

end

section

variable {α : Type} [DecidableEq α] (fold : α → α)
  (entries : List (Replacement α))

def findEntry (rest : List α) : Option (Replacement α) :=
  entries.find? fun entry =>
    (entry.pattern.map fold).isPrefixOf (rest.map fold)

variable {fold entries}

def LongestFirst (entries : List (Replacement α)) : Prop :=
  entries.Pairwise fun first second =>
    second.pattern.length ≤ first.pattern.length

variable {rest : List α}

theorem occurs_zero_iff {pattern : List α} : Occurs fold rest 0 pattern ↔
    (pattern.map fold).isPrefixOf (rest.map fold) = true :=
  isPrefixOf_iff_prefix.symm

theorem findEntry_some {entry : Replacement α}
    (found : findEntry fold entries rest = some entry) :
    entry ∈ entries ∧ Occurs fold rest 0 entry.pattern := by
  have begins := find?_some found
  exact ⟨mem_of_find?_eq_some found, occurs_zero_iff.mpr begins⟩

theorem findEntry_longest (sorted : LongestFirst entries)
    {entry other : Replacement α}
    (found : findEntry fold entries rest = some entry)
    (member : other ∈ entries) (occurs : Occurs fold rest 0 other.pattern) :
    other.pattern.length ≤ entry.pattern.length := by
  obtain ⟨_, before, after, split, earlier⟩ :=
    find?_eq_some_iff_append.mp found
  rw [split] at member
  rw [split, LongestFirst, pairwise_append] at sorted
  rcases mem_append.mp member with first | here
  · have fails := earlier other first
    rw [occurs_zero_iff.mp occurs] at fails
    cases fails
  · rcases mem_cons.mp here with same | later
    · rw [same]
    · exact (pairwise_cons.mp sorted.2.1).1 other later

theorem findEntry_none {other : Replacement α}
    (missing : findEntry fold entries rest = none) (member : other ∈ entries) :
    ¬ Occurs fold rest 0 other.pattern :=
  fun occurs => find?_eq_none.mp missing other member
    (occurs_zero_iff.mp occurs)

end

def KeptAt {α : Type} (list : List (Piece α)) (position : Nat) : Prop :=
  ∃ symbol, list[position]? = some (.kept symbol)

theorem KeptAt.lt {α : Type} {list : List (Piece α)} {position : Nat}
    (kept : KeptAt list position) : position < list.length := by
  obtain ⟨symbol, found⟩ := kept
  exact (List.getElem?_eq_some_iff.mp found).1

section

variable {α : Type} [DecidableEq α] (fold : α → α)
  (entries : List (Replacement α))

/-- The pieces of a list of which the first symbols are covered. -/
def pieces : Nat → List α → List (Piece α)
  | _, [] => []
  | skip + 1, symbol :: rest => .covered symbol :: pieces skip rest
  | 0, symbol :: rest =>
    match findEntry fold entries (symbol :: rest) with
    | none => .kept symbol :: pieces 0 rest
    | some entry => .opened symbol entry.replacement ::
        pieces (entry.pattern.length - 1) rest

def replaceLongest (symbols : List α) : List α :=
  (pieces fold entries 0 symbols).flatMap Piece.output

variable {fold entries}

theorem pieces_symbols (skip : Nat) (symbols : List α) :
    (pieces fold entries skip symbols).map Piece.symbol = symbols := by
  induction symbols generalizing skip with
  | nil => rw [pieces, map_nil]
  | cons symbol rest induction =>
    cases skip with
    | succ skip =>
      rw [pieces, map_cons, induction]
      rfl
    | zero =>
      rw [pieces]
      split
      case h_1 | h_2 =>
          rw [map_cons, induction]
          rfl

theorem length_pieces (skip : Nat) (symbols : List α) :
    (pieces fold entries skip symbols).length = symbols.length := by
  rw [← length_map Piece.symbol, pieces_symbols]

theorem pieces_none {symbol : α} {rest : List α}
    (missing : findEntry fold entries (symbol :: rest) = none) :
    pieces fold entries 0 (symbol :: rest) = .kept symbol ::
    pieces fold entries 0 rest := by
  rw [pieces, missing]

variable {entry : Replacement α} {skip position start : Nat} {symbols : List α}

theorem pieces_some {symbol : α} {rest : List α}
    (found : findEntry fold entries (symbol :: rest) = some entry) :
    pieces fold entries 0 (symbol :: rest) =
    .opened symbol entry.replacement ::
    pieces fold entries (entry.pattern.length - 1) rest := by
  rw [pieces, found]

theorem exists_entry_of_opened {replacement : List α} {symbol : α}
    (member : .opened symbol replacement ∈ pieces fold entries skip symbols) :
    ∃ entry ∈ entries, entry.replacement = replacement := by
  induction symbols generalizing skip with
  | nil => cases member
  | cons first rest induction =>
    cases skip with
    | succ skip =>
      rcases mem_cons.mp member with same | later
      · cases same
      · exact induction later
    | zero =>
      cases found : findEntry fold entries (first :: rest) with
      | none =>
        rw [pieces_none found] at member
        rcases mem_cons.mp member with same | later
        · cases same
        · exact induction later
      | some entry =>
        rw [pieces_some found] at member
        rcases mem_cons.mp member with same | later
        · cases same
          exact ⟨entry, (findEntry_some found).1, rfl⟩
        · exact induction later

theorem not_keptAt_of_lt (covered : position < skip) :
    ¬ KeptAt (pieces fold entries skip symbols) position := by
  induction symbols generalizing skip position with
  | nil =>
    intro kept
    obtain ⟨symbol, found⟩ := kept
    cases found
  | cons symbol rest induction =>
    cases skip with
    | zero => omega
    | succ skip =>
      cases position with
      | zero =>
        intro kept
        obtain ⟨symbol, found⟩ := kept
        cases found
      | succ position => exact induction (Nat.lt_of_succ_lt_succ covered)

theorem findEntry_of_keptAt
    (kept : KeptAt (pieces fold entries skip symbols) position) :
    findEntry fold entries (symbols.drop position) = none := by
  induction symbols generalizing skip position with
  | nil =>
    obtain ⟨symbol, found⟩ := kept
    cases found
  | cons symbol rest induction =>
    cases skip with
    | succ skip =>
      cases position with
      | zero =>
        obtain ⟨symbol, found⟩ := kept
        cases found
      | succ position => exact induction kept
    | zero =>
      rw [pieces] at kept
      split at kept
      case h_1 missing =>
          cases position with
          | zero => exact missing
          | succ position => exact induction kept
      case h_2 =>
          cases position with
          | zero =>
            obtain ⟨symbol, found⟩ := kept
            cases found
          | succ position => exact induction kept

/-- An entry is found at a position, and all its symbols are replaced. -/
structure ReplacedAt (fold : α → α) (entries : List (Replacement α))
    (symbols : List α) (list : List (Piece α)) (start : Nat)
    (entry : Replacement α) : Prop where
  found : findEntry fold entries (symbols.drop start) = some entry
  replaced : ∀ position, start ≤ position →
    position < start + entry.pattern.length → ¬ KeptAt list position

theorem ReplacedAt.succ {list : List (Piece α)}
    (replaced : ReplacedAt fold entries symbols list start entry) (symbol : α)
    (piece : Piece α) : ReplacedAt fold entries (symbol :: symbols)
    (piece :: list) (start + 1) entry where
  found := replaced.found
  replaced := by
    intro position from' before
    cases position with
    | zero => omega
    | succ position => exact replaced.replaced position (by omega) (by omega)

theorem replacedAt_of_not_keptAt (inside : position < symbols.length)
    (replaced : ¬ KeptAt (pieces fold entries skip symbols) position) :
    position < skip ∨ ∃ start entry, start ≤ position ∧
    position < start + entry.pattern.length ∧ ReplacedAt fold entries symbols
    (pieces fold entries skip symbols) start entry := by
  induction symbols generalizing skip position with
  | nil => cases inside
  | cons symbol rest induction =>
    have later : ∀ skip piece position, position < rest.length →
        ¬ KeptAt (pieces fold entries skip rest) position → position < skip ∨
        ∃ start entry, start ≤ position + 1 ∧
        position + 1 < start + entry.pattern.length ∧ ReplacedAt fold entries
        (symbol :: rest) (piece :: pieces fold entries skip rest) start entry
        := by
      intro skip piece position shorter absent
      rcases induction shorter absent with covered | found
      · exact .inl covered
      · obtain ⟨start, entry, before, behind, here⟩ := found
        exact .inr ⟨start + 1, entry, by omega, by omega,
          here.succ symbol piece⟩
    cases skip with
    | succ skip =>
      cases position with
      | zero => exact .inl (Nat.succ_pos skip)
      | succ position =>
        exact (later skip _ position (Nat.lt_of_succ_lt_succ inside)
          replaced).imp_left Nat.succ_lt_succ
    | zero =>
      cases found : findEntry fold entries (symbol :: rest) with
      | none =>
        rw [pieces_none found] at replaced ⊢
        cases position with
        | zero => exact absurd ⟨symbol, rfl⟩ replaced
        | succ position =>
          exact (later 0 _ position (Nat.lt_of_succ_lt_succ inside)
            replaced).imp_left fun none => absurd none (Nat.not_lt_zero _)
      | some entry =>
        have here : ReplacedAt fold entries (symbol :: rest)
            (pieces fold entries 0 (symbol :: rest)) 0 entry := by
          refine ⟨found, fun place _ before kept => ?_⟩
          rw [pieces_some found] at kept
          cases place with
          | zero =>
            obtain ⟨symbol, same⟩ := kept
            cases same
          | succ place => exact not_keptAt_of_lt (by omega) kept
        have pos := length_pos_iff.mpr entry.nonempty
        cases position with
        | zero => exact .inr ⟨0, entry, Nat.le_refl 0, by omega, here⟩
        | succ position =>
          rw [pieces_some found] at replaced here ⊢
          rcases later _ (.opened symbol entry.replacement) position
            (Nat.lt_of_succ_lt_succ inside) replaced with
            covered | found
          · exact .inr ⟨0, entry, Nat.zero_le _, by omega, here⟩
          · exact .inr found

theorem occurs_of_not_keptAt (inside : position < symbols.length)
    (replaced : ¬ KeptAt (pieces fold entries 0 symbols) position) : ∃ start,
    ∃ entry ∈ entries, Occurs fold symbols start entry.pattern ∧
    start ≤ position ∧ position < start + entry.pattern.length := by
  rcases replacedAt_of_not_keptAt inside replaced with impossible | found
  · exact absurd impossible (Nat.not_lt_zero _)
  · obtain ⟨start, entry, before, behind, here⟩ := found
    obtain ⟨member, occurs⟩ := findEntry_some here.found
    exact ⟨start, entry, member, Occurs.drop_iff.mp occurs, before, behind⟩

theorem not_keptAt_of_occurs (member : entry ∈ entries)
    (occurs : Occurs fold symbols start entry.pattern) :
    ¬ KeptAt (pieces fold entries 0 symbols) start :=
  fun kept => findEntry_none (findEntry_of_keptAt kept) member
    (Occurs.drop_iff.mpr occurs)

theorem crossed_of_keptAt (sorted : LongestFirst entries)
    (member : entry ∈ entries)
    (occurs : Occurs fold symbols start entry.pattern)
    (from' : start ≤ position)
    (before : position < start + entry.pattern.length)
    (kept : KeptAt (pieces fold entries 0 symbols) position) : ∃ earlier,
    ∃ other ∈ entries, Occurs fold symbols earlier other.pattern ∧
    earlier < start ∧ start < earlier + other.pattern.length ∧
    earlier + other.pattern.length ≤ position := by
  have fits := occurs.inside entry.nonempty
  rcases replacedAt_of_not_keptAt (by omega)
    (not_keptAt_of_occurs member occurs) with impossible | found
  · exact absurd impossible (Nat.not_lt_zero _)
  obtain ⟨earlier, other, begins, behind, here⟩ := found
  obtain ⟨known, occursThere⟩ := findEntry_some here.found
  have past : earlier + other.pattern.length ≤ position := by
    by_contra within
    exact here.replaced position (by omega) (by omega) kept
  refine ⟨earlier, other, known, Occurs.drop_iff.mp occursThere, ?_, behind,
    past⟩
  rcases Nat.lt_or_eq_of_le begins with less | same
  · exact less
  · rw [same] at here past
    have longest := findEntry_longest sorted here.found member
      (Occurs.drop_iff.mpr occurs)
    omega

end

end Foundation
