import MachineBridge.Foundation.Text

/-!
# Lines of a text

A line ends with a line feed, which may follow a carriage return.  The last
line of a text may be without an end, and a text has at least one line.
-/

namespace Foundation

open List

def lineFeed : UInt16 := 0x0A

def carriageReturn : UInt16 := 0x0D

def crlf : Text := [carriageReturn, lineFeed]

/-- The text with `/\r?\n/g` replaced by a carriage return and a line feed. -/
def toCrlf : Text → Text
  | [] => []
  | [unit] => if unit = lineFeed then crlf else [unit]
  | unit :: next :: rest =>
    if unit = carriageReturn ∧ next = lineFeed then crlf ++ toCrlf rest
    else if unit = lineFeed then crlf ++ toCrlf (next :: rest)
    else unit :: toCrlf (next :: rest)

/-- The text with `/\r\n/g` replaced by a line feed. -/
def toLf : Text → Text
  | [] => []
  | [unit] => [unit]
  | unit :: next :: rest =>
    if unit = carriageReturn ∧ next = lineFeed then lineFeed :: toLf rest
    else unit :: toLf (next :: rest)

def consFirst (unit : UInt16) : List Text → List Text
  | [] => [[unit]]
  | part :: parts => (unit :: part) :: parts

/-- The parts between the line feeds. -/
def splitLf : Text → List Text
  | [] => [[]]
  | unit :: rest =>
    if unit = lineFeed then [] :: splitLf rest
    else consFirst unit (splitLf rest)

section

variable (content : Text)

def splitLines : List Text := splitLf (toLf content)

def linesOf : Text → List Text
  | [] => [[]]
  | unit :: rest =>
    if unit = lineFeed ∧ rest ≠ [] then [unit] :: linesOf rest
    else consFirst unit (linesOf rest)

theorem count_lineFeed_cons (rest : Text) :
    (lineFeed :: rest).count carriageReturn = rest.count carriageReturn :=
  count_cons_of_ne (by decide)

theorem count_crlf_append (rest : Text) :
    (crlf ++ rest).count carriageReturn = rest.count carriageReturn + 1 := by
  rw [crlf, cons_append, cons_append, nil_append,
    count_cons_self, count_lineFeed_cons]

theorem toCrlf_eq_or_count_lt : toCrlf content = content ∨
    content.count carriageReturn < (toCrlf content).count carriageReturn := by
  induction content using toCrlf.induct with
  | case1 => exact .inl rfl
  | case2 => exact .inr (by decide)
  | case3 unit other => exact .inl (if_neg other)
  | case4 unit next rest pair induction =>
    obtain ⟨rfl, rfl⟩ := pair
    rw [toCrlf, if_pos ⟨rfl, rfl⟩]
    rcases induction with same | more
    · exact .inl (congrArg (crlf ++ ·) same)
    · right
      rw [count_cons_self, count_lineFeed_cons, count_crlf_append]
      exact Nat.succ_lt_succ more
  | case5 next rest other induction =>
    right
    rw [toCrlf, if_neg other, if_pos rfl, count_lineFeed_cons,
      count_crlf_append]
    rcases induction with same | more
    · rw [same]
      exact Nat.lt_succ_self _
    · exact Nat.lt_succ_of_lt more
  | case6 unit next rest other plain induction =>
    rw [toCrlf, if_neg other, if_neg plain]
    rcases induction with same | more
    · exact .inl (congrArg (unit :: ·) same)
    · right
      rw [count_cons, count_cons (l := toCrlf _)]
      exact Nat.add_lt_add_right more _

theorem toLf_eq_or_count_lt : toLf content = content ∨
    (toLf content).count carriageReturn < content.count carriageReturn := by
  induction content using toLf.induct with
  | case1 => exact .inl rfl
  | case2 unit => exact .inl rfl
  | case3 unit next rest pair induction =>
    right
    obtain ⟨rfl, rfl⟩ := pair
    rw [toLf, if_pos ⟨rfl, rfl⟩, count_cons_self,
      count_lineFeed_cons, count_lineFeed_cons]
    rcases induction with same | fewer
    · rw [same]
      exact Nat.lt_succ_self _
    · exact Nat.lt_succ_of_lt fewer
  | case4 unit next rest other induction =>
    rw [toLf, if_neg other]
    rcases induction with same | fewer
    · exact .inl (congrArg (unit :: ·) same)
    · right
      rw [count_cons, count_cons (l := next :: rest)]
      exact Nat.add_lt_add_right fewer _

end

theorem toLf_eq_self {content : Text}
    (plain : ∀ before after, content ≠ before ++ crlf ++ after) :
    toLf content = content := by
  induction content using toLf.induct with
  | case1 => rfl
  | case2 unit => rfl
  | case3 unit next rest pair induction =>
    obtain ⟨rfl, rfl⟩ := pair
    exact absurd rfl (plain [] rest)
  | case4 unit next rest other induction =>
    rw [toLf, if_neg other, induction]
    intro before after same
    apply plain (unit :: before) after
    rw [same]
    rfl

theorem splitLf_ne_nil (content : Text) : splitLf content ≠ [] := by
  cases content with
  | nil => exact cons_ne_nil _ _
  | cons unit rest =>
    rw [splitLf]
    split
    · exact cons_ne_nil _ _
    · cases splitLf rest <;> exact cons_ne_nil _ _

theorem lineFeed_not_mem_splitLf {content part : Text}
    (member : part ∈ splitLf content) : lineFeed ∉ part := by
  induction content generalizing part with
  | nil =>
    rw [mem_singleton.mp member]
    exact not_mem_nil
  | cons unit rest induction =>
    rw [splitLf] at member
    split at member
    case isTrue =>
      rcases mem_cons.mp member with rfl | below
      · exact not_mem_nil
      · exact induction below
    case isFalse other =>
      cases parts : splitLf rest with
      | nil => exact absurd parts (splitLf_ne_nil rest)
      | cons first others =>
        rw [parts] at member induction
        rcases mem_cons.mp member with rfl | below
        · intro feed
          rcases mem_cons.mp feed with same | inner
          · exact other same.symm
          · exact induction mem_cons_self inner
        · exact induction (mem_cons_of_mem _ below)

variable {line : Text}

theorem splitLf_append (plain : lineFeed ∉ line) (rest : Text) :
    splitLf (line ++ lineFeed :: rest) = line :: splitLf rest := by
  induction line with
  | nil => rfl
  | cons unit line induction =>
    rw [mem_cons, not_or] at plain
    rw [cons_append, splitLf, if_neg (Ne.symm plain.1), induction plain.2]
    rfl

theorem splitLf_of_plain (plain : lineFeed ∉ line) :
    splitLf line = [line] := by
  induction line with
  | nil => rfl
  | cons unit line induction =>
    rw [mem_cons, not_or] at plain
    rw [splitLf, if_neg (Ne.symm plain.1), induction plain.2]
    rfl

theorem intercalate_cons_cons (first second : Text) (rest : List Text) :
    [lineFeed].intercalate (first :: second :: rest) = first ++ lineFeed ::
    [lineFeed].intercalate (second :: rest) := by
  simp [List.intercalate]

theorem splitLf_intercalate {lines : List Text} (filled : lines ≠ [])
    (plain : ∀ line ∈ lines, lineFeed ∉ line) :
    splitLf ([lineFeed].intercalate lines) = lines := by
  induction lines with
  | nil => exact absurd rfl filled
  | cons first rest induction =>
    obtain ⟨own, others⟩ := forall_mem_cons.mp plain
    cases rest with
    | nil =>
      have single : [lineFeed].intercalate [first] = first := by
        simp [List.intercalate]
      rw [single, splitLf_of_plain own]
    | cons second rest =>
      rw [intercalate_cons_cons, splitLf_append own,
        induction (cons_ne_nil _ _) others]

theorem toLf_append (plain : lineFeed ∉ line)
    (ends : line.getLast? ≠ some carriageReturn) (rest : Text) :
    toLf (line ++ lineFeed :: rest) = line ++ lineFeed :: toLf rest := by
  have feed : ∀ tail, toLf (lineFeed :: tail) = lineFeed :: toLf tail := by
    intro tail
    cases tail with
    | nil => rfl
    | cons next tail =>
      rw [toLf, if_neg]
      exact fun pair => absurd pair.1 (by decide)
  induction line with
  | nil => exact feed rest
  | cons unit line induction =>
    rw [mem_cons, not_or] at plain
    cases line with
    | nil =>
      have other : unit ≠ carriageReturn := fun same =>
        ends (congrArg some same)
      rw [cons_append, nil_append, toLf,
        if_neg (fun pair => other pair.1), feed]
      rfl
    | cons next line =>
      have tail : (next :: line).getLast? ≠ some carriageReturn := by
        rwa [getLast?_cons_cons] at ends
      have below := induction plain.2 tail
      rw [cons_append] at below
      have other : next ≠ lineFeed := fun same =>
        plain.2 (by rw [same]; exact mem_cons_self)
      rw [cons_append, cons_append, toLf,
        if_neg (fun pair => other pair.2), below]
      rfl

theorem toLf_of_plain (plain : lineFeed ∉ line) : toLf line = line := by
  apply toLf_eq_self
  intro before after same
  apply plain
  simp [same, crlf]

theorem toLf_intercalate {lines : List Text}
    (plain : ∀ line ∈ lines, lineFeed ∉ line)
    (ends : ∀ line ∈ lines, line.getLast? ≠ some carriageReturn) :
    toLf ([lineFeed].intercalate lines) = [lineFeed].intercalate lines := by
  induction lines with
  | nil => rfl
  | cons first rest induction =>
    obtain ⟨own, others⟩ := forall_mem_cons.mp plain
    obtain ⟨last, lasts⟩ := forall_mem_cons.mp ends
    cases rest with
    | nil =>
      have single : [lineFeed].intercalate [first] = first := by
        simp [List.intercalate]
      rw [single, toLf_of_plain own]
    | cons second rest =>
      rw [intercalate_cons_cons, toLf_append own last, induction others lasts]

theorem consFirst_ne_nil (unit : UInt16) (parts : List Text) :
    consFirst unit parts ≠ [] := by
  cases parts <;> simp [consFirst]

@[simp] theorem flatten_consFirst (unit : UInt16) (parts : List Text) :
    (consFirst unit parts).flatten = unit :: parts.flatten := by
  cases parts <;> simp [consFirst]

theorem linesOf_ne_nil (content : Text) : linesOf content ≠ [] := by
  cases content with
  | nil => simp [linesOf]
  | cons unit rest =>
    rw [linesOf]
    split
    case isTrue => exact cons_ne_nil _ _
    case isFalse => exact consFirst_ne_nil _ _

@[simp] theorem flatten_linesOf (content : Text) :
    (linesOf content).flatten = content := by
  induction content with
  | nil => rfl
  | cons unit rest induction =>
    rw [linesOf]
    split
    case isTrue => rw [flatten_cons, induction, singleton_append]
    case isFalse => rw [flatten_consFirst, induction]

def startsAt : Nat → List Text → List Nat
  | _, [] => []
  | offset, part :: parts => offset :: startsAt (offset + part.length) parts

@[simp] theorem length_startsAt (offset : Nat) (parts : List Text) :
    (startsAt offset parts).length = parts.length := by
  induction parts generalizing offset with
  | nil => rfl
  | cons part parts induction => simp [startsAt, induction]

theorem getElem?_startsAt {offset place : Nat} {parts : List Text}
    (inside : place < parts.length) : (startsAt offset parts)[place]? =
    some (offset + (parts.take place).flatten.length) := by
  induction parts generalizing offset place with
  | nil => exact absurd inside (Nat.not_lt_zero place)
  | cons part parts induction =>
    cases place with
    | zero => rfl
    | succ place =>
      rw [startsAt, getElem?_cons_succ,
        induction (Nat.lt_of_succ_lt_succ inside), take_succ_cons,
        flatten_cons, length_append, Nat.add_assoc]

theorem flatten_between (parts : List Text) {first last : Nat}
    (order : first ≤ last) :
    (parts.flatten.take (parts.take last).flatten.length).drop
    (parts.take first).flatten.length =
    ((parts.take last).drop first).flatten := by
  have front : (parts.take last).flatten ++ (parts.drop last).flatten =
      parts.flatten := by
    rw [← flatten_append, take_append_drop]
  have inner : (parts.take first).flatten ++
      ((parts.take last).drop first).flatten = (parts.take last).flatten := by
    rw [← flatten_append]
    congr 1
    calc parts.take first ++ (parts.take last).drop first
        = (parts.take last).take first ++ (parts.take last).drop first := by
          rw [take_take, Nat.min_eq_left order]
      _ = parts.take last := take_append_drop first _
  rw [← front, take_left, ← inner, drop_left]

end Foundation
