import Mathlib.Data.List.Infix
import Mathlib.Algebra.Order.Group.Nat

/-!
# Replacing the tokens of a text

A text is read from the left, and every token of a class is replaced by a text
of its own.  No two tokens overlap, but an inserted text may overlap a token
which a later replacement looks for.
-/

namespace Foundation

open List

variable {α κ ε : Type}

/-- A part at the end of one text meets the beginning of the other. -/
def Overlap (one other : List α) : Prop :=
  ∃ part, part ≠ [] ∧ part <:+ one ∧ (part <+: other ∨ other <+: part)

/-- Tokens and how they are spelled.  Two of them overlap only as a whole. -/
structure Lexicon (α κ : Type) where
  spell : κ → List α
  nonempty : ∀ key, spell key ≠ []
  apart : ∀ {one other part}, part ≠ [] → part <:+ spell one →
    (part <+: spell other ∨ spell other <+: part) →
    part = spell one ∧ one = other

namespace Lexicon

variable (lexicon : Lexicon α κ)

/-- The tokens of a class are found where they stand. -/
structure Scanner where
  covers : κ → Prop
  read : List α → Option κ
  read_iff : ∀ {content key}, read content = some key ↔
    covers key ∧ lexicon.spell key <+: content

variable {lexicon}

namespace Scanner

/-- What stands before and after a token may decide what replaces it. -/
def replaceFrom (scanner : lexicon.Scanner)
    (insert : List α → κ → List α → Except ε (List α)) :
    List α → Nat → List α → Except ε (List α)
  | _, _, [] => .ok []
  | before, skip + 1, symbol :: rest =>
    replaceFrom scanner insert (before ++ [symbol]) skip rest
  | before, 0, symbol :: rest =>
    match scanner.read (symbol :: rest) with
    | some key => do
      let length := (lexicon.spell key).length
      let inserted ← insert before key ((symbol :: rest).drop length)
      let more ← replaceFrom scanner insert (before ++ [symbol])
        (length - 1) rest
      return inserted ++ more
    | none => do
      let more ← replaceFrom scanner insert (before ++ [symbol]) 0 rest
      return symbol :: more

def replaceAll (scanner : lexicon.Scanner)
    (insert : List α → κ → List α → Except ε (List α)) (content : List α) :
    Except ε (List α) :=
  scanner.replaceFrom insert [] 0 content

variable {scanner : lexicon.Scanner} {key : κ}
  {insert : List α → κ → List α → Except ε (List α)}
  {before content rest result : List α}

theorem replaceFrom_skip (length : Nat) : ∀ (content before : List α),
    content.length = length →
    scanner.replaceFrom insert before length (content ++ rest) =
    scanner.replaceFrom insert (before ++ content) 0 rest := by
  induction length with
  | zero =>
    intro content before none
    rw [length_eq_zero_iff.mp none, append_nil, nil_append]
  | succ length induction =>
    intro content before long
    cases content with
    | nil => cases long
    | cons symbol content =>
      rw [cons_append, replaceFrom,
        induction content _ (Nat.succ.inj long), append_assoc]
      rfl

theorem replaceFrom_token (covered : scanner.covers key) :
    scanner.replaceFrom insert before 0 (lexicon.spell key ++ rest) = do
      let inserted ← insert before key rest
      let more ← scanner.replaceFrom insert (before ++ lexicon.spell key) 0
        rest
      return inserted ++ more := by
  have found : scanner.read (lexicon.spell key ++ rest) = some key :=
    scanner.read_iff.mpr ⟨covered, prefix_append _ _⟩
  cases spelled : lexicon.spell key with
  | nil => exact absurd spelled (lexicon.nonempty key)
  | cons symbol tail =>
    rw [spelled, cons_append] at found
    rw [cons_append, replaceFrom, found]
    simp only [spelled, length_cons, Nat.add_sub_cancel]
    rw [← cons_append, ← length_cons (a := symbol),
      drop_left, replaceFrom_skip _ tail _ rfl, append_assoc]
    rfl

theorem replaceFrom_symbol {symbol : α}
    (none : ∀ key, scanner.covers key → ¬ lexicon.spell key <+: symbol :: rest)
    : scanner.replaceFrom insert before 0 (symbol :: rest) =
    (scanner.replaceFrom insert (before ++ [symbol]) 0 rest).map (symbol :: ·)
    := by
  have missing : scanner.read (symbol :: rest) = Option.none := by
    cases found : scanner.read (symbol :: rest) with
    | none => rfl
    | some key =>
      obtain ⟨covered, stands⟩ := scanner.read_iff.mp found
      exact absurd stands (none key covered)
  rw [replaceFrom, missing]
  rfl

theorem replaced_token (covered : scanner.covers key) (replaced :
    scanner.replaceFrom insert before 0 (lexicon.spell key ++ rest) = .ok
    result) : ∃ inserted more, insert before key rest = .ok inserted ∧
    scanner.replaceFrom insert (before ++ lexicon.spell key) 0 rest = .ok more
    ∧ result = inserted ++ more := by
  rw [replaceFrom_token covered] at replaced
  cases inserts : insert before key rest with
  | error failure =>
    rw [inserts] at replaced
    cases replaced
  | ok inserted =>
    cases later : scanner.replaceFrom insert
        (before ++ lexicon.spell key) 0 rest with
    | error failure =>
      rw [inserts, later] at replaced
      cases replaced
    | ok more =>
      rw [inserts, later] at replaced
      cases replaced
      exact ⟨inserted, more, rfl, rfl, rfl⟩

theorem replaced_of_map {outcome : Except ε (List α)} {front : List α}
    (replaced : outcome.map (front ++ ·) = .ok result) :
    ∃ more, outcome = .ok more ∧ result = front ++ more := by
  cases outcome with
  | error failure => cases replaced
  | ok more =>
    cases replaced
    exact ⟨more, rfl, rfl⟩

theorem replaced_symbol {symbol : α}
    (none : ∀ key, scanner.covers key → ¬ lexicon.spell key <+: symbol :: rest)
    (replaced : scanner.replaceFrom insert before 0 (symbol :: rest) = .ok
    result) : ∃ more, scanner.replaceFrom insert (before ++ [symbol]) 0 rest =
    .ok more ∧ result = symbol :: more := by
  rw [replaceFrom_symbol none] at replaced
  exact @replaced_of_map _ _ _ _ [symbol] replaced

section

variable (scanner : lexicon.Scanner)

theorem begins (content : List α) : content = [] ∨
    (∃ key rest, scanner.covers key ∧ content = lexicon.spell key ++ rest) ∨
    ∃ symbol rest, content = symbol :: rest ∧ ∀ key, scanner.covers key →
    ¬ lexicon.spell key <+: content := by
  cases content with
  | nil => exact Or.inl rfl
  | cons symbol rest =>
    by_cases found : ∃ key, scanner.covers key ∧
        lexicon.spell key <+: symbol :: rest
    · obtain ⟨key, covered, after, same⟩ := found
      exact Or.inr (Or.inl ⟨key, after, covered, same.symm⟩)
    · refine Or.inr (Or.inr ⟨symbol, rest, rfl, ?_⟩)
      intro key covered stands
      exact found ⟨key, covered, stands⟩

theorem reading {motive : List α → Prop} (nil : motive []) (token : ∀ key rest,
      scanner.covers key → motive rest → motive (lexicon.spell key ++ rest))
    (symbol : ∀ symbol rest,
      (∀ key, scanner.covers key → ¬ lexicon.spell key <+: symbol :: rest) →
      motive rest → motive (symbol :: rest)) (content : List α) :
    motive content := by
  generalize long : content.length = length
  induction length using Nat.strong_induction_on generalizing content with
  | h length induction =>
    subst long
    rcases scanner.begins content with rfl | ⟨key, rest, covered, rfl⟩ |
        ⟨unit, rest, rfl, none⟩
    · exact nil
    · apply token key rest covered
      apply induction rest.length _ rest rfl
      have some := length_pos_iff.mpr (lexicon.nonempty key)
      rw [length_append]
      omega
    · exact symbol unit rest none
        (induction rest.length (Nat.lt_succ_self _) rest rfl)

end

theorem replaceFrom_mono {other : List α → κ → List α → Except ε (List α)}
    (more : ∀ {before key after inserted}, scanner.covers key →
      insert before key after = .ok inserted →
      other before key after = .ok inserted)
    (replaced : scanner.replaceFrom insert before 0 content = .ok result) :
    scanner.replaceFrom other before 0 content = .ok result := by
  induction content using scanner.reading generalizing before result with
  | nil => exact replaced
  | token key rest covered induction =>
    obtain ⟨inserted, tail, inserts, later, rfl⟩ :=
      replaced_token covered replaced
    rw [replaceFrom_token covered, more covered inserts, induction later]
    rfl
  | symbol symbol rest none induction =>
    obtain ⟨tail, later, rfl⟩ := replaced_symbol none replaced
    rw [replaceFrom_symbol none, induction later]
    rfl

/-- No token of the class begins in a text before another one. -/
def Quiet (scanner : lexicon.Scanner) (content rest : List α) : Prop :=
  ∀ part, part ≠ [] → part <:+ content → ∀ key, scanner.covers key →
    ¬ lexicon.spell key <+: part ++ rest

theorem replaceFrom_quiet (quiet : scanner.Quiet content rest) :
    scanner.replaceFrom insert before 0 (content ++ rest) =
    (scanner.replaceFrom insert (before ++ content) 0 rest).map (content ++ ·)
    := by
  induction content generalizing before with
  | nil =>
    rw [append_nil, nil_append]
    cases scanner.replaceFrom insert before 0 rest with
    | error failure => rfl
    | ok result => rfl
  | cons symbol content induction =>
    have later : scanner.Quiet content rest := by
      intro part filled inside
      exact quiet part filled (inside.trans (suffix_cons _ _))
    rw [cons_append, replaceFrom_symbol, induction later,
      append_assoc, singleton_append]
    · cases scanner.replaceFrom insert (before ++ symbol :: content) 0
        rest with
      | error failure => rfl
      | ok result => rfl
    · exact quiet _ (cons_ne_nil _ _) suffix_rfl

theorem quiet_of_not_overlap
    (apart : ∀ key, scanner.covers key → ¬ Overlap content (lexicon.spell key))
    : scanner.Quiet content rest := by
  intro part filled inside key covered stands
  exact apart key covered ⟨part, filled, inside,
    prefix_or_prefix_of_prefix (prefix_append _ _) stands⟩

theorem quiet_token (other : ¬ scanner.covers key) :
    scanner.Quiet (lexicon.spell key) rest := by
  apply quiet_of_not_overlap
  intro found covered overlap
  obtain ⟨part, filled, inside, meets⟩ := overlap
  obtain ⟨-, rfl⟩ := lexicon.apart filled inside meets
  exact other covered

theorem quiet_before {framed : κ} {more : List α} (filled : more ≠ [])
    (spelled : lexicon.spell framed = content ++ more) :
    scanner.Quiet content (lexicon.spell key ++ rest) := by
  intro part some inside found covered stands
  have whole : part ++ more <:+ lexicon.spell framed := by
    obtain ⟨start, rfl⟩ := inside
    exact ⟨start, by rw [spelled, append_assoc]⟩
  have within : ¬ lexicon.spell found <+: part := by
    intro early
    obtain ⟨same, rfl⟩ := lexicon.apart (by simp [some]) whole
      (Or.inr (early.trans (prefix_append _ _)))
    have short := early.length_le
    rw [← same, length_append] at short
    have long := length_pos_iff.mpr filled
    omega
  rcases prefix_or_prefix_of_prefix (prefix_append part _) stands
    with starts | early
  · obtain ⟨tail, tailed⟩ := starts
    rw [← tailed, prefix_append_right_inj] at stands
    by_cases ended : tail = []
    · rw [← tailed, ended, append_nil] at within
      exact within prefix_rfl
    · obtain ⟨same, -⟩ := lexicon.apart ended ⟨part, tailed⟩
        (List.prefix_or_prefix_of_prefix stands (prefix_append _ _))
      rw [same] at tailed
      exact some (append_left_eq_self.mp tailed)
  · exact within early

theorem quiet_after {framed : κ} {more : List α} (filled : more ≠ [])
    (spelled : lexicon.spell framed = more ++ content) :
    scanner.Quiet content [] := by
  intro part some inside found covered stands
  rw [append_nil] at stands
  have short := inside.length_le
  obtain ⟨same, -⟩ := lexicon.apart some
    (inside.trans ⟨more, spelled.symm⟩) (Or.inr stands)
  rw [same, spelled, length_append] at short
  have long := length_pos_iff.mpr filled
  omega

theorem replaceFrom_ends (ends : scanner.Quiet rest []) :
    scanner.replaceFrom insert before 0 rest = .ok rest := by
  have whole := @replaceFrom_quiet _ _ ε _ scanner insert before _ _ ends
  rw [append_nil, replaceFrom] at whole
  rw [whole, Except.map, append_nil]

theorem replaceAll_framed {front : List α}
    (starts : scanner.Quiet front (lexicon.spell key ++ rest))
    (ends : scanner.Quiet rest []) (covered : scanner.covers key) :
    scanner.replaceAll insert (front ++ (lexicon.spell key ++ rest)) =
    (insert front key rest).map fun inserted => front ++
    (inserted ++ rest) := by
  rw [replaceAll, replaceFrom_quiet starts, nil_append,
    replaceFrom_token covered, replaceFrom_ends ends]
  cases insert front key rest with
  | error failure => rfl
  | ok inserted => rfl

theorem replaceAll_unframed {front : List α}
    (starts : scanner.Quiet front (lexicon.spell key ++ rest))
    (ends : scanner.Quiet rest []) (other : ¬ scanner.covers key) :
    scanner.replaceAll insert (front ++ (lexicon.spell key ++ rest)) =
    .ok (front ++ (lexicon.spell key ++ rest)) := by
  rw [replaceAll, replaceFrom_quiet starts,
    replaceFrom_quiet (quiet_token other), replaceFrom_ends ends]
  rfl

variable {weight : List α → Nat}

/-- What a replacement does to a measure: it grows, unless the text has no
token of the class and is kept. -/
def Grows (lexicon : Lexicon α κ) (weight : List α → Nat) (covers : κ → Prop)
    (replace : List α → Except ε (List α)) : Prop :=
  ∀ {content result}, replace content = .ok result →
    weight content < weight result ∨ result = content ∧
      ∀ key, covers key → ¬ lexicon.spell key <:+: content

theorem Grows.bind {first second : κ → Prop}
    {replace again : List α → Except ε (List α)}
    (one : Grows lexicon weight first replace)
    (other : Grows lexicon weight second again) : Grows lexicon weight
    (fun key => first key ∨ second key) fun content => replace content >>=
    again := by
  intro content result replaced
  change replace content >>= again = .ok result at replaced
  cases found : replace content with
  | error failure =>
    rw [found] at replaced
    cases replaced
  | ok middle =>
    rw [found] at replaced
    rcases one found with grown | ⟨rfl, absent⟩
    · rcases other replaced with more | ⟨rfl, -⟩
      · exact Or.inl (grown.trans more)
      · exact Or.inl grown
    · rcases other replaced with more | ⟨rfl, missing⟩
      · exact Or.inl more
      · exact Or.inr ⟨rfl, fun key covered =>
          covered.elim (absent key) (missing key)⟩

theorem Grows.weaken {covers fewer : κ → Prop}
    {replace : List α → Except ε (List α)}
    (grows : Grows lexicon weight covers replace)
    (within : ∀ key, fewer key → covers key) :
    Grows lexicon weight fewer replace := fun replaced =>
  (grows replaced).imp_right fun kept =>
    ⟨kept.1, fun key covered => kept.2 key (within key covered)⟩

theorem replaceAll_grows
    (additive : ∀ one other, weight (one ++ other) = weight one + weight other)
    (light : ∀ key, weight (lexicon.spell key) = 0)
    (heavy : ∀ {before key after inserted}, scanner.covers key →
      insert before key after = .ok inserted → 1 ≤ weight inserted) :
    Grows lexicon weight scanner.covers (scanner.replaceAll insert) := by
  intro content result replaced
  rw [replaceAll] at replaced
  generalize ([] : List α) = before at replaced
  induction content using scanner.reading generalizing before result with
  | nil =>
    cases replaced
    refine Or.inr ⟨rfl, ?_⟩
    intro key covered inside
    exact lexicon.nonempty key (infix_nil.mp inside)
  | token key rest covered induction =>
    obtain ⟨inserted, more, inserts, later, rfl⟩ :=
      replaced_token covered replaced
    have gain := heavy covered inserts
    left
    rw [additive, additive, light]
    rcases induction _ later with grown | ⟨rfl, -⟩
    · omega
    · omega
  | symbol symbol rest none induction =>
    obtain ⟨more, later, rfl⟩ := replaced_symbol none replaced
    rcases induction _ later with grown | ⟨rfl, absent⟩
    · left
      have one := additive [symbol] rest
      have other := additive [symbol] more
      rw [singleton_append] at one other
      omega
    · refine Or.inr ⟨rfl, ?_⟩
      intro key covered inside
      rcases infix_cons_iff.mp inside with here | there
      · exact none key covered here
      · exact absent key covered there

/-- Both classes at once. -/
def union (first second : lexicon.Scanner) : lexicon.Scanner where
  covers key := first.covers key ∨ second.covers key
  read content := first.read content <|> second.read content
  read_iff := by
    intro content key
    have same : ∀ {other}, lexicon.spell other <+: content →
        lexicon.spell key <+: content → other = key := by
      intro other one two
      exact (lexicon.apart (lexicon.nonempty other) suffix_rfl
        (List.prefix_or_prefix_of_prefix one two)).2
    cases found : first.read content with
    | some other =>
      obtain ⟨covered, stands⟩ := first.read_iff.mp found
      constructor
      · intro is
        cases is
        exact ⟨Or.inl covered, stands⟩
      · intro both
        rw [same stands both.2]
        rfl
    | none =>
      change second.read content = some key ↔ _
      rw [second.read_iff]
      constructor
      · intro both
        exact ⟨Or.inr both.1, both.2⟩
      · intro both
        refine ⟨both.1.resolve_left ?_, both.2⟩
        intro covered
        rw [first.read_iff.mpr ⟨covered, both.2⟩] at found
        cases found

variable {first second : lexicon.Scanner}
  {insert : κ → Except ε (List α)}

/-- A text which is inserted neither contains nor completes a later token. -/
def Inert (second : lexicon.Scanner) (inserted : List α) : Prop :=
  inserted ≠ [] ∧ ∀ key, second.covers key →
    ¬ Overlap inserted (lexicon.spell key) ∧
    ¬ Overlap (lexicon.spell key) inserted

theorem prefix_of_replaced (inert : ∀ {key inserted}, first.covers key →
      insert key = .ok inserted → second.Inert inserted)
    (covered : second.covers key) {part : List α} :
    ∀ {before content result : List α}, part <:+ lexicon.spell key →
    first.replaceFrom (fun _ key _ => insert key) before 0 content =
    .ok result → part <+: result → part <+: content := by
  induction part with
  | nil => exact fun _ _ _ => nil_prefix
  | cons symbol part induction =>
    intro before content result inside replaced stands
    rcases first.begins content with rfl | ⟨found, rest, held, rfl⟩ |
        ⟨other, rest, rfl, none⟩
    · cases replaced
      exact stands
    · obtain ⟨inserted, more, inserts, -, rfl⟩ := replaced_token held replaced
      refine absurd ?_ ((inert held inserts).2 key covered).2
      exact ⟨_, cons_ne_nil _ _, inside,
        prefix_or_prefix_of_prefix stands (prefix_append _ _)⟩
    · obtain ⟨more, later, rfl⟩ := replaced_symbol none replaced
      rw [cons_prefix_cons] at stands ⊢
      exact ⟨stands.1, induction
        ((suffix_cons _ _).trans inside) later stands.2⟩

theorem first_of_union {both : List α} (replaced : (first.union
    second).replaceFrom (fun _ key _ => insert key) both 0 content = .ok
    result) : ∃ middle, first.replaceFrom (fun _ key _ => insert key) before 0
    content = .ok middle := by
  induction content using (first.union second).reading
    generalizing before both result with
  | nil => exact ⟨[], rfl⟩
  | token key rest covered induction =>
    obtain ⟨inserted, more, inserts, later, -⟩ :=
      replaced_token covered replaced
    by_cases held : first.covers key
    · obtain ⟨middle, found⟩ := induction later
      rw [replaceFrom_token held, inserts, found]
      exact ⟨_, rfl⟩
    · obtain ⟨middle, found⟩ := induction later
      rw [replaceFrom_quiet (quiet_token held), found]
      exact ⟨_, rfl⟩
  | symbol symbol rest none induction =>
    obtain ⟨more, later, -⟩ := replaced_symbol none replaced
    obtain ⟨middle, found⟩ := induction later
    rw [replaceFrom_symbol fun key covered => none key (Or.inl covered), found]
    exact ⟨_, rfl⟩

theorem replaceFrom_union {after both middle : List α} (inert : ∀ {key
    inserted}, first.covers key → insert key = .ok inserted → second.Inert
    inserted) (replaced : first.replaceFrom (fun _ key _ => insert key) before
    0 content = .ok middle) : (first.union second).replaceFrom
    (fun _ key _ => insert key) both 0 content = second.replaceFrom
    (fun _ key _ => insert key) after 0 middle := by
  induction content using (first.union second).reading
    generalizing before after both middle with
  | nil =>
    cases replaced
    rfl
  | token key rest covered induction =>
    rw [replaceFrom_token covered]
    by_cases held : first.covers key
    · obtain ⟨inserted, more, inserts, later, rfl⟩ :=
        replaced_token held replaced
      have quiet : second.Quiet inserted more :=
        quiet_of_not_overlap fun other kept =>
          ((inert held inserts).2 other kept).1
      rw [replaceFrom_quiet quiet, inserts, induction later]
      rfl
    · have kept : second.covers key := covered.resolve_left held
      rw [replaceFrom_quiet (quiet_token held)] at replaced
      obtain ⟨more, later, rfl⟩ := replaced_of_map replaced
      rw [replaceFrom_token kept, induction later]
  | symbol symbol rest none induction =>
    have here : ∀ key, first.covers key →
        ¬ lexicon.spell key <+: symbol :: rest :=
      fun key covered => none key (Or.inl covered)
    obtain ⟨more, later, rfl⟩ := replaced_symbol here replaced
    rw [replaceFrom_symbol none, replaceFrom_symbol, induction later]
    intro key covered stands
    refine none key (Or.inr covered) ?_
    cases spelled : lexicon.spell key with
    | nil => exact absurd spelled (lexicon.nonempty key)
    | cons letter tail =>
      rw [spelled, cons_prefix_cons] at stands
      rw [cons_prefix_cons]
      refine ⟨stands.1, ?_⟩
      apply prefix_of_replaced inert covered _ later stands.2
      rw [spelled]
      exact suffix_cons _ _

theorem replaceAll_union (inert : ∀ {key inserted}, first.covers key → insert
    key = .ok inserted → second.Inert inserted) (replaced : (first.union
    second).replaceAll (fun _ key _ => insert key) content = .ok result) : ∃
    middle, first.replaceAll (fun _ key _ => insert key) content = .ok middle ∧
    second.replaceAll (fun _ key _ => insert key) middle = .ok result := by
  obtain ⟨middle, found⟩ := first_of_union replaced
  exact ⟨middle, found, (replaceFrom_union inert found).symm.trans replaced⟩

def single [DecidableEq α] (lexicon : Lexicon α κ) (token : κ) :
    lexicon.Scanner where
  covers key := key = token
  read content :=
    if (lexicon.spell token).isPrefixOf content then some token else none
  read_iff := by
    intro content key
    split
    case isTrue stands =>
      rw [Option.some_inj]
      constructor
      · rintro rfl
        exact ⟨rfl, isPrefixOf_iff_prefix.mp stands⟩
      · exact fun both => both.1.symm
    case isFalse absent =>
      constructor
      · exact fun found => absurd found (by simp)
      · rintro ⟨rfl, stands⟩
        exact absurd (List.isPrefixOf_iff_prefix.mpr stands) absent

end Scanner

end Lexicon

end Foundation
