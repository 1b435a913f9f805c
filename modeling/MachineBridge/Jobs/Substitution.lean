import MachineBridge.Foundation.Substitution
import MachineBridge.Foundation.Text

/-!
# Placeholders in the arguments of a step

The runner replaces the runtime directory, the workspace, the resources and the
temporary files, one kind after the other.  The first two replacements are
strings, in which the language reads patterns; the other two are functions.
-/

namespace MachineBridge.Jobs

open Foundation List

/-- The class `[a-z0-9._-]`. -/
def isNameUnit (unit : UInt16) : Bool :=
  isLower unit || isDigit unit || unit == 0x2E || unit == 0x5F || unit == 0x2D

/-- `[a-z][a-z0-9._-]{0,63}` -/
def isPlaceholderName (name : Text) : Bool :=
  (name.head?.map isLower).getD false && fits isNameUnit 1 64 name

abbrev PlaceholderName := { name : Text // isPlaceholderName name = true }

inductive Placeholder where
  | runtime
  | workspace
  | resource (name : PlaceholderName)
  | temp (name : PlaceholderName)

namespace Placeholder

def braced (body : Text) : Text :=
  0x7B :: 0x7B :: (body ++ [0x7D, 0x7D])

def body : Placeholder → Text
  | runtime => text "job:runtime"
  | workspace => text "job:workspace"
  | resource name => text "resource:" ++ name.val
  | temp name => text "temp:" ++ name.val

theorem name_clean (name : PlaceholderName) {unit : UInt16}
    (strange : isNameUnit unit = false) : unit ∉ name.val := by
  intro inside
  have all := name.property
  rw [isPlaceholderName, Bool.and_eq_true, fits_iff, all_eq_true] at all
  rw [all.2.2.2 unit inside] at strange
  cases strange

theorem body_clean (key : Placeholder) :
    (0x7B : UInt16) ∉ key.body ∧ (0x7D : UInt16) ∉ key.body := by
  cases key with
  | runtime | workspace => decide
  | resource name | temp name =>
    rw [body, mem_append, mem_append, not_or, not_or]
    exact ⟨⟨by decide, name_clean name rfl⟩, by decide, name_clean name rfl⟩

def head : Placeholder → UInt16
  | runtime | workspace => 0x6A
  | resource _ => 0x72
  | temp _ => 0x74

theorem head?_body (key : Placeholder) : key.body.head? = some key.head := by
  cases key with
  | runtime | workspace | resource name | temp name => rfl

theorem body_injective : Function.Injective body := by
  intro one other same
  have heads := congrArg List.head? same
  rw [head?_body, head?_body, Option.some_inj] at heads
  cases one with
  | runtime | workspace =>
    cases other with
    | runtime | workspace => first | rfl | exact absurd same (by decide)
    | resource name | temp name => simp [head] at heads
  | resource name =>
    cases other with
    | resource name' => rw [Subtype.ext (append_cancel_left same)]
    | runtime | workspace | temp name' => simp [head] at heads
  | temp name =>
    cases other with
    | temp name' => rw [Subtype.ext (append_cancel_left same)]
    | runtime | workspace | resource name' => simp [head] at heads

theorem braced_apart {one other : Placeholder} {part : Text}
    (filled : part ≠ []) (inside : part <:+ braced one.body)
    (meets : part <+: braced other.body ∨ braced other.body <+: part) :
    part = braced one.body ∧ one = other := by
  have head : ∀ {unit more}, part = unit :: more → unit = 0x7B := by
    rintro unit more rfl
    rcases meets with starts | starts
    · exact (cons_prefix_cons.mp starts).1
    · exact (cons_prefix_cons.mp starts).1.symm
  have opening : ∀ unit, unit ∈ one.body ++ [0x7D, 0x7D] → unit ≠ 0x7B := by
    intro unit member same
    rw [same, mem_append] at member
    exact member.elim (body_clean one).1 (by decide)
  rw [braced, suffix_cons_iff, suffix_cons_iff] at inside
  rcases inside with whole | short | short
  · refine ⟨whole, body_injective ?_⟩
    have closing : (one.body ++ [0x7D, 0x7D] <+: other.body ++ [0x7D, 0x7D]) ∨
        other.body ++ [0x7D, 0x7D] <+: one.body ++ [0x7D, 0x7D] := by
      simpa only [whole, braced, cons_prefix_cons, true_and] using meets
    rcases closing with ⟨more, same⟩ | ⟨more, same⟩
    · rw [append_assoc] at same
      exact (append_separator_inj (body_clean one).2 (body_clean other).2
        same).1
    · rw [append_assoc] at same
      exact (append_separator_inj (body_clean other).2 (body_clean one).2
        same).1.symm
  · cases rest : one.body ++ [0x7D, 0x7D] with
    | nil => simp at rest
    | cons unit more =>
      rw [short, rest, braced] at meets
      simp only [cons_prefix_cons] at meets
      refine absurd ?_ (opening unit (by rw [rest]; simp))
      rcases meets with starts | starts
      · exact starts.2.1
      · exact starts.2.1.symm
  · cases part with
    | nil => exact absurd rfl filled
    | cons unit more =>
      exact absurd (head rfl) (opening unit (short.subset (by simp)))

def lexicon : Lexicon UInt16 Placeholder where
  spell key := braced key.body
  nonempty _ := cons_ne_nil _ _
  apart := braced_apart

def closing : Text := [0x7D, 0x7D]

/-- A name between an opening and two closing braces. -/
def matchName (opening content : Text) : Option PlaceholderName :=
  if opening.isPrefixOf content then
    let rest := content.drop opening.length
    let name := rest.takeWhile isNameUnit
    if valid : isPlaceholderName name = true then
      if closing.isPrefixOf (rest.drop name.length) then some ⟨name, valid⟩
      else none
    else none
  else none

theorem matchName_eq_some {opening content : Text} {name : PlaceholderName} :
    matchName opening content = some name ↔
    opening ++ (name.val ++ closing) <+: content := by
  have all : name.val.all isNameUnit = true := by
    have valid := name.property
    rw [isPlaceholderName, Bool.and_eq_true, fits_iff] at valid
    exact valid.2.2.2
  constructor
  · intro found
    rw [matchName] at found
    split at found
    case isTrue starts =>
      rw [List.isPrefixOf_iff_prefix, prefix_iff_eq_append] at starts
      rw [← starts, prefix_append_right_inj]
      generalize content.drop opening.length = rest at found
      dsimp only at found
      split at found
      case isTrue valid =>
        split at found
        case isTrue ends =>
          cases found
          obtain ⟨more, same⟩ := isPrefixOf_iff_prefix.mp ends
          refine ⟨more, ?_⟩
          rw [append_assoc, same]
          exact prefix_iff_eq_append.mp (List.takeWhile_prefix _)
        case isFalse => cases found
      case isFalse => cases found
    case isFalse => cases found
  · rintro ⟨rest, rfl⟩
    have taken :
        (name.val ++ (closing ++ rest)).takeWhile isNameUnit = name.val := by
      rw [takeWhile_append_of_pos (all_eq_true.mp all)]
      exact append_nil _
    have starts :
        opening.isPrefixOf (opening ++ (name.val ++ closing) ++ rest) =
        true := by
      rw [List.isPrefixOf_iff_prefix, append_assoc]
      exact prefix_append _ _
    rw [matchName, if_pos starts]
    simp only [append_assoc, drop_left, taken]
    rw [dif_pos name.property, if_pos]
    rw [List.isPrefixOf_iff_prefix]
    exact prefix_append _ _

def runtimeScanner : lexicon.Scanner := .single lexicon runtime

def workspaceScanner : lexicon.Scanner := .single lexicon workspace

def nameToken (label : Text) (make : PlaceholderName → Placeholder)
    (spelled : ∀ name, (make name).body = label ++ name.val) :
    lexicon.Scanner where
  covers key := ∃ name, key = make name
  read content := (matchName (0x7B :: 0x7B :: label) content).map make
  read_iff := by
    intro content key
    have same : ∀ name, lexicon.spell (make name) = (0x7B :: 0x7B :: label) ++
        (name.val ++ closing) := by
      intro name
      change braced (make name).body = _
      rw [spelled, braced, append_assoc]
      rfl
    rw [Option.map_eq_some_iff]
    constructor
    · rintro ⟨name, found, rfl⟩
      rw [same]
      exact ⟨⟨name, rfl⟩, matchName_eq_some.mp found⟩
    · rintro ⟨⟨name, rfl⟩, stands⟩
      rw [same] at stands
      exact ⟨name, matchName_eq_some.mpr stands, rfl⟩

/-- `RESOURCE_TOKEN` -/
def resourceToken : lexicon.Scanner :=
  nameToken (text "resource:") resource fun _ => rfl

/-- `TEMP_TOKEN` -/
def tempToken : lexicon.Scanner :=
  nameToken (text "temp:") temp fun _ => rfl

end Placeholder

open Placeholder Lexicon.Scanner

/-- The characters after a dollar sign which make a pattern of it. -/
def isPatternMark (unit : UInt16) : Bool :=
  unit == 0x24 || unit == 0x26 || unit == 0x60 || unit == 0x27

/-- What the language makes of a replacement string: `$$` is a dollar sign, and
the matched text and what stands before and after it are inserted for `$&` and
for the dollar sign with a grave accent and with an apostrophe. -/
def expandReplacement (before matched after : Text) : Text → Text
  | [] => []
  | [unit] => [unit]
  | unit :: next :: rest =>
    if unit == 0x24 && isPatternMark next then
      (if next == 0x24 then [0x24] else if next == 0x26 then matched
        else if next == 0x60 then before else after) ++
        expandReplacement before matched after rest
    else unit :: expandReplacement before matched after (next :: rest)

def isPathSeparator (unit : UInt16) : Bool := unit == 0x2F || unit == 0x5C

/-- An absolute path contains a separator on every platform. -/
abbrev PathText := { path : Text // path.any isPathSeparator = true }

/-- The paths of a job, with the entries of the two objects of paths. -/
structure StepContext where
  (runtimeDir workspace : PathText)
  paths : Text → Option PathText
  temporaryPaths : Text → Option PathText

namespace StepContext

/-- `String(Object)` -/
def objectText : Text := text "function Object() \x7b [native code] \x7d"

/-- A property of an object of paths.  Of the names which a placeholder can
have, only `constructor` is inherited. -/
def property (paths : Text → Option PathText) (name : Text) : Option Text :=
  match paths name with
  | some path => some path.val
  | none => if name = text "constructor" then some objectText else none

/-- What a callback inserts. -/
def materialized (failure : Text) (name : PlaceholderName) :
    Option Text → Except Text Text
  | some path => .ok path
  | none => .error (failure ++ name.val)

def resourceMissing : Text := text "resource was not materialized: "

def temporaryMissing : Text := text "temporary file was not materialized: "

variable (context : StepContext)

/-- What stands for a placeholder, before patterns are expanded. -/
def inserted : Placeholder → Except Text Text
  | runtime => .ok context.runtimeDir
  | .workspace => .ok context.workspace
  | resource name =>
    materialized resourceMissing name (property context.paths name)
  | temp name =>
    materialized temporaryMissing name (property context.temporaryPaths name)

def expanded (before : Text) (key : Placeholder) (after : Text) :
    Except Text Text :=
  (context.inserted key).map
    (expandReplacement before (lexicon.spell key) after)

def substitute (value : Text) : Except Text Text :=
  runtimeScanner.replaceAll context.expanded value >>= fun value =>
  workspaceScanner.replaceAll context.expanded value >>= fun value =>
  resourceToken.replaceAll (fun _ key _ => context.inserted key) value >>=
  tempToken.replaceAll fun _ key _ => context.inserted key

def named : Placeholder → Except Text Text
  | runtime => .ok context.runtimeDir
  | .workspace => .ok context.workspace
  | resource name =>
    materialized resourceMissing name ((context.paths name).map (·.val))
  | temp name =>
    materialized temporaryMissing name
      ((context.temporaryPaths name).map (·.val))

def allTokens : lexicon.Scanner :=
  runtimeScanner.union (workspaceScanner.union (resourceToken.union tempToken))

/-- What an argument asks for: every placeholder is replaced by the path it
names, and all else is kept. -/
def requested (value : Text) : Except Text Text :=
  allTokens.replaceAll (fun _ key _ => context.named key) value

/-- A replacement string without a pattern. -/
def isLiteral : Text → Bool
  | unit :: next :: rest =>
    !(unit == 0x24 && isPatternMark next) && isLiteral (next :: rest)
  | _ => true

theorem expandReplacement_literal {before matched after path : Text}
    (literal : isLiteral path = true) :
    expandReplacement before matched after path = path := by
  induction path using isLiteral.induct with
  | case1 unit next rest induction =>
    rw [isLiteral, Bool.and_eq_true, Bool.not_eq_true'] at literal
    rw [expandReplacement, if_neg (Bool.eq_false_iff.mp literal.1),
      induction literal.2]
  | case2 path short =>
    cases path with
    | nil => rfl
    | cons unit rest =>
      cases rest with
      | nil => rfl
      | cons next rest => exact absurd rfl (short unit next rest)

theorem count_expandReplacement {before matched after : Text}
    (one : 0x24 ∉ before) (other : 0x24 ∉ matched) (last : 0x24 ∉ after)
    (path : Text) : (expandReplacement before matched after path).count 0x24 ≤
    path.count 0x24 ∧ (isLiteral path = false →
      (expandReplacement before matched after path).count 0x24 <
      path.count 0x24) := by
  induction path using expandReplacement.induct with
  | case1
  | case2 unit => exact ⟨Nat.le_refl _, fun strange => by cases strange⟩
  | case3 unit next rest mark induction =>
    have dollar : unit = 0x24 := by
      rw [Bool.and_eq_true, beq_iff_eq] at mark
      exact mark.1
    have insertion : (if next == 0x24 then [0x24] else if next == 0x26 then
        matched else if next == 0x60 then before else after).count 0x24 ≤
        [next].count 0x24 := by
      split
      case isTrue double => rw [beq_iff_eq.mp double]
      case isFalse =>
        split
        case isTrue => exact count_eq_zero.mpr other ▸ Nat.zero_le _
        case isFalse =>
          split
          case isTrue => exact count_eq_zero.mpr one ▸ Nat.zero_le _
          case isFalse => exact count_eq_zero.mpr last ▸ Nat.zero_le _
    have pair : (unit :: next :: rest).count 0x24 = 1 + [next].count 0x24 +
        rest.count 0x24 := by
      rw [dollar, ← singleton_append, count_append,
        ← singleton_append (x := next), count_append, Nat.add_assoc]
      rfl
    have less :
        (expandReplacement before matched after (unit :: next :: rest)).count
        0x24 < (unit :: next :: rest).count 0x24 := by
      rw [expandReplacement, if_pos mark, count_append, pair]
      have below := induction.1
      omega
    exact ⟨Nat.le_of_lt less, fun _ => less⟩
  | case4 unit next rest plain induction =>
    have literal :
        isLiteral (unit :: next :: rest) = isLiteral (next :: rest) := by
      rw [isLiteral, Bool.eq_false_iff.mpr plain]
      rfl
    rw [expandReplacement, if_neg plain, literal, count_cons,
      count_cons (l := next :: rest)]
    exact ⟨Nat.add_le_add_right induction.1 _, fun strange =>
      Nat.add_lt_add_right (induction.2 strange) _⟩

def isForeign (unit : UInt16) : Bool := isPathSeparator unit || unit == 0x20

def foreign (content : Text) : Nat := content.countP isForeign

theorem foreign_append (one other : Text) :
    foreign (one ++ other) = foreign one + foreign other :=
  countP_append ..

theorem foreign_of_name (name : PlaceholderName) : foreign name.val = 0 := by
  rw [foreign, countP_eq_zero]
  intro unit inside strange
  rw [isForeign, isPathSeparator, Bool.or_eq_true, Bool.or_eq_true, beq_iff_eq,
    beq_iff_eq, beq_iff_eq] at strange
  rcases strange with (rfl | rfl) | rfl
  · exact name_clean name rfl inside
  · exact name_clean name rfl inside
  · exact name_clean name rfl inside

theorem foreign_spell (key : Placeholder) :
    foreign (lexicon.spell key) = 0 := by
  cases key with
  | runtime | workspace => decide
  | resource name | temp name =>
    change foreign ([0x7B, 0x7B] ++ ((_ ++ name.val) ++ [0x7D, 0x7D])) = 0
    rw [foreign_append, foreign_append, foreign_append, foreign_of_name]
    decide

theorem foreign_expandReplacement (before matched after path : Text) :
    foreign path ≤ foreign (expandReplacement before matched after path) := by
  have split : ∀ unit rest, foreign (unit :: rest) =
      foreign [unit] + foreign rest := fun unit rest => foreign_append [unit] rest
  induction path using expandReplacement.induct with
  | case1 | case2 => exact Nat.le_refl _
  | case3 unit next rest mark induction =>
    have none : foreign [unit] = 0 ∧ foreign [next] = 0 := by
      simp only [isPatternMark, Bool.and_eq_true, Bool.or_eq_true,
        beq_iff_eq] at mark
      rcases mark with ⟨rfl, ((rfl | rfl) | rfl) | rfl⟩ <;> decide
    rw [expandReplacement, if_pos mark, foreign_append, split, split next rest]
    omega
  | case4 unit next rest plain induction =>
    rw [expandReplacement, if_neg plain, split, split unit (expandReplacement ..)]
    omega

variable {context : StepContext} {key : Placeholder} {path : Text}

theorem foreign_path (path : PathText) : 1 ≤ foreign path.val := by
  obtain ⟨unit, inside, separates⟩ := any_eq_true.mp path.property
  rw [foreign, Nat.one_le_iff_ne_zero, Ne, countP_eq_zero]
  intro none
  exact none unit inside (by rw [isForeign, separates]; rfl)

theorem foreign_inserted (found : context.inserted key = .ok path) :
    1 ≤ foreign path := by
  have property : ∀ {paths name other}, property paths name = some other →
      1 ≤ foreign other := by
    intro paths name other found
    rw [StepContext.property] at found
    split at found
    case h_1 path _ =>
      cases found
      exact foreign_path path
    case h_2 =>
      split at found
      case isTrue =>
        cases found
        decide
      case isFalse => cases found
  cases key with
  | runtime | workspace =>
    cases found
    exact foreign_path _
  | resource name | temp name =>
    rw [inserted] at found
    cases read : StepContext.property _ name.val with
    | none =>
      rw [read] at found
      cases found
    | some other =>
      rw [read] at found
      cases found
      exact property read

theorem foreign_expanded {before after : Text}
    (found : context.expanded before key after = .ok path) :
    1 ≤ foreign path := by
  rw [expanded] at found
  cases read : context.inserted key with
  | error failure =>
    rw [read] at found
    cases found
  | ok other =>
    rw [read] at found
    cases found
    exact (foreign_inserted read).trans (foreign_expandReplacement ..)

theorem inserted_of_named (found : context.named key = .ok path) :
    context.inserted key = .ok path := by
  cases key with
  | runtime | workspace => exact found
  | resource name | temp name =>
    rw [named] at found
    rw [inserted, property]
    split
    case h_1 _ own =>
      rw [own] at found
      exact found
    case h_2 _ none =>
      rw [none] at found
      cases found

/-- The order of the replacements. -/
def rank : Placeholder → Nat
  | runtime => 0
  | .workspace => 1
  | resource _ => 2
  | temp _ => 3

/-- The two replacement strings have no pattern, and no path overlaps a
placeholder which is replaced after it was inserted. -/
structure Undisturbed (context : StepContext) : Prop where
  runtimeDir_literal : isLiteral context.runtimeDir = true
  workspace_literal : isLiteral context.workspace = true
  apart : ∀ {one other path}, context.named one = .ok path →
    rank one < rank other → ¬ Overlap path (lexicon.spell other) ∧
      ¬ Overlap (lexicon.spell other) path

theorem rank_covers {key : Placeholder} :
    (runtimeScanner.covers key ↔ rank key = 0) ∧
    (workspaceScanner.covers key ↔ rank key = 1) ∧
    (resourceToken.covers key ↔ rank key = 2) ∧
    (tempToken.covers key ↔ rank key = 3) := by
  cases key with
  | runtime | workspace | resource name | temp name =>
    simp [runtimeScanner, workspaceScanner, Lexicon.Scanner.single,
      resourceToken, tempToken, nameToken, rank, -Subtype.exists]

theorem Undisturbed.inert (undisturbed : context.Undisturbed)
    {second : lexicon.Scanner} (found : context.named key = .ok path)
    (later : ∀ other, second.covers other → rank key < rank other) :
    second.Inert path := by
  constructor
  · rintro rfl
    exact absurd (foreign_inserted (inserted_of_named found)) (by decide)
  · intro other covered
    exact undisturbed.apart found (later other covered)

theorem Undisturbed.substitute (undisturbed : context.Undisturbed)
    {value result : Text} (asked : context.requested value = .ok result) :
    context.substitute value = .ok result := by
  obtain ⟨first, runtimes, asked⟩ := replaceAll_union
    (fun covered found => undisturbed.inert found fun other later => by
      have low := rank_covers.1.mp covered
      rcases later with ws | res | tmp
      · have high := rank_covers.2.1.mp ws
        omega
      · have high := rank_covers.2.2.1.mp res
        omega
      · have high := rank_covers.2.2.2.mp tmp
        omega) asked
  obtain ⟨second, workspaces, asked⟩ := replaceAll_union
    (fun covered found => undisturbed.inert found fun other later => by
      have low := rank_covers.2.1.mp covered
      rcases later with res | tmp
      · have high := rank_covers.2.2.1.mp res
        omega
      · have high := rank_covers.2.2.2.mp tmp
        omega) asked
  obtain ⟨third, resources, temps⟩ := replaceAll_union
    (fun covered found => undisturbed.inert found fun other later => by
      have low := rank_covers.2.2.1.mp covered
      have high := rank_covers.2.2.2.mp later
      omega) asked
  have literal : ∀ {before key after path}, (rank key = 0 ∨ rank key = 1) →
      context.named key = .ok path →
      context.expanded before key after = .ok path := by
    intro before key after path early found
    rw [expanded, inserted_of_named found]
    cases key with
    | runtime =>
      cases found
      exact congrArg _
        (expandReplacement_literal undisturbed.runtimeDir_literal)
    | workspace =>
      cases found
      exact congrArg _
        (expandReplacement_literal undisturbed.workspace_literal)
    | resource name | temp name => simp [rank] at early
  have one :
      runtimeScanner.replaceFrom context.expanded [] 0 value = .ok first :=
    replaceFrom_mono (fun covered found =>
      literal (Or.inl (rank_covers.1.mp covered)) found) runtimes
  have two :
      workspaceScanner.replaceFrom context.expanded [] 0 first = .ok second :=
    replaceFrom_mono (fun covered found =>
      literal (Or.inr (rank_covers.2.1.mp covered)) found) workspaces
  have three : resourceToken.replaceFrom (fun _ key _ => context.inserted key)
      [] 0 second = .ok third :=
    replaceFrom_mono (fun _ found => inserted_of_named found) resources
  have four :
      tempToken.replaceFrom (fun _ key _ => context.inserted key) [] 0 third =
      .ok result :=
    replaceFrom_mono (fun _ found => inserted_of_named found) temps
  simp only [StepContext.substitute, replaceAll, one, two, three, four, bind,
    Except.bind]

/-- A text can stand before or after the placeholder. -/
structure Framed (front : Text) (key : Placeholder) (back : Text) : Prop where
  starts : ∀ scanner : lexicon.Scanner,
    scanner.Quiet front (lexicon.spell key ++ back)
  ends : ∀ scanner : lexicon.Scanner, scanner.Quiet back []

section

variable (key : Placeholder)

theorem framed_newline : Framed [0x0A] key [0x0A] := by
  have quiet : ∀ (scanner : lexicon.Scanner) (rest : Text),
      scanner.Quiet [0x0A] rest := by
    intro scanner rest part filled inside found covered stands
    obtain rfl : part = [0x0A] :=
      (suffix_cons_iff.mp inside).resolve_right
        fun empty => filled (suffix_nil.mp empty)
    exact absurd (cons_prefix_cons.mp stands).1 (by decide)
  exact ⟨fun scanner => quiet scanner _, fun scanner => quiet scanner []⟩

theorem framed_nil : Framed [] key [] := by
  have quiet : ∀ (scanner : lexicon.Scanner) (rest : Text),
      scanner.Quiet [] rest := fun _ _ part filled inside =>
    absurd (suffix_nil.mp inside) filled
  exact ⟨fun scanner => quiet scanner _, fun scanner => quiet scanner []⟩

theorem framed_of_overlap {one other : Placeholder} {path : Text}
    (some : 1 ≤ foreign path) (overlap : Overlap path (lexicon.spell other) ∨
      Overlap (lexicon.spell other) path) : ∃ front back,
    Framed front one back ∧
    lexicon.spell other <:+: front ++ (path ++ back) := by
  have light : ∀ {part : Text}, part <:+: lexicon.spell other → path <+: part →
      False := by
    rintro part ⟨before, after, whole⟩ ⟨rest, rfl⟩
    have none := foreign_spell other
    rw [← whole, foreign_append, foreign_append, foreign_append] at none
    omega
  have empty := framed_nil one
  rcases overlap with ⟨part, filled, ⟨early, rfl⟩, meets⟩ |
    ⟨part, filled, ⟨early, spelled⟩, meets⟩
  · rcases meets with ⟨rest, spelled⟩ | ⟨rest, rfl⟩
    · refine ⟨[], rest, ⟨fun scanner => ?_, fun scanner =>
        quiet_after filled spelled.symm⟩, early, [], ?_⟩
      · exact fun part filled inside => absurd (suffix_nil.mp inside) filled
      · rw [← spelled]
        simp
    · exact ⟨[], [], empty, early, rest, by simp⟩
  · rcases meets with ⟨rest, rfl⟩ | starts
    · refine ⟨early, [], ⟨fun scanner => quiet_before filled spelled.symm,
        empty.ends⟩, [], rest, ?_⟩
      rw [← spelled]
      simp
    · exact (light (List.IsSuffix.isInfix ⟨early, spelled⟩) starts).elim

theorem rank_le : rank key ≤ 3 := by
  cases key with
  | runtime | workspace | resource name | temp name => simp [rank]

end

theorem grows_later : Grows lexicon foreign (3 ≤ rank ·)
    (tempToken.replaceAll fun _ key _ => context.inserted key) ∧ Grows lexicon
    foreign (2 ≤ rank ·) (fun value => resourceToken.replaceAll (fun _ key _ =>
    context.inserted key) value >>= tempToken.replaceAll fun _ key _ =>
    context.inserted key) ∧ Grows lexicon foreign (1 ≤ rank ·) (fun value =>
    workspaceScanner.replaceAll context.expanded value >>= fun value =>
    resourceToken.replaceAll (fun _ key _ => context.inserted key) value >>=
    tempToken.replaceAll fun _ key _ => context.inserted key) := by
  have temps : Grows lexicon foreign tempToken.covers
      (tempToken.replaceAll fun _ key _ => context.inserted key) :=
    replaceAll_grows foreign_append foreign_spell fun _ found =>
      foreign_inserted found
  have resources : Grows lexicon foreign resourceToken.covers
      (resourceToken.replaceAll fun _ key _ => context.inserted key) :=
    replaceAll_grows foreign_append foreign_spell fun _ found =>
      foreign_inserted found
  have workspaces : Grows lexicon foreign workspaceScanner.covers
      (workspaceScanner.replaceAll context.expanded) :=
    replaceAll_grows foreign_append foreign_spell fun _ found =>
      foreign_expanded found
  refine ⟨Grows.weaken temps ?_, Grows.weaken (Grows.bind resources temps) ?_,
    Grows.weaken (Grows.bind workspaces (Grows.bind resources temps)) ?_⟩
  all_goals
    intro key high
    have bound := rank_le key
    simp only [rank_covers]
    omega

section

variable (correct : ∀ {value result}, context.requested value = .ok result →
  context.substitute value = .ok result)
  {one : Placeholder} {front back : Text} (framed : Framed front one back)
  (found : context.named one = .ok path)

include correct framed found

theorem settled_of_correct : (rank one ≤ 1 →
      expandReplacement front (lexicon.spell one) back path = path) ∧ ∀ other,
    rank one < rank other →
    ¬ lexicon.spell other <:+: front ++ (path ++ back) := by
  have covered : allTokens.covers one := by
    have ranks := @rank_covers one
    have bound := rank_le one
    change _ ∨ _ ∨ _ ∨ _
    rw [ranks.1, ranks.2.1, ranks.2.2.1, ranks.2.2.2]
    omega
  have whole : context.substitute (front ++ (lexicon.spell one ++ back)) =
      .ok (front ++ (path ++ back)) := by
    apply correct
    rw [requested, replaceAll_framed (framed.starts _) (framed.ends _) covered,
      found]
    rfl
  have own := inserted_of_named found
  -- What the later replacements make of a text with as many foreign units.
  have kept : ∀ {text : Text} {covers : Placeholder → Prop}
      {replace : Text → Except Text Text},
      Grows lexicon foreign covers replace →
      replace (front ++ (text ++ back)) = .ok (front ++ (path ++ back)) →
      foreign path ≤ foreign text → text = path ∧ ∀ other, covers other →
      ¬ lexicon.spell other <:+: front ++ (path ++ back) := by
    intro text covers replace grows replaced more
    rcases grows replaced with grown | ⟨same, absent⟩
    · simp only [foreign_append] at grown
      omega
    · rw [← same] at absent
      exact ⟨(append_cancel_right (append_cancel_left same)).symm, absent⟩
  have pass : ∀ {scanner : lexicon.Scanner}
      {insert : Text → Placeholder → Text → Except Text Text},
      ¬ scanner.covers one →
      scanner.replaceAll insert (front ++ (lexicon.spell one ++ back)) =
        .ok (front ++ (lexicon.spell one ++ back)) := fun other =>
    replaceAll_unframed (framed.starts _) (framed.ends _) other
  obtain ⟨grows3, grows2, grows1⟩ := @grows_later context
  have ranks := @rank_covers one
  cases one with
  | runtime =>
    rw [substitute, replaceAll_framed (framed.starts _) (framed.ends _)
      (ranks.1.mpr rfl), expanded, own] at whole
    obtain ⟨same, absent⟩ := kept grows1 whole (foreign_expandReplacement ..)
    exact ⟨fun _ => same, absent⟩
  | workspace =>
    rw [substitute, pass (mt ranks.1.mp (by simp [rank]))] at whole
    change workspaceScanner.replaceAll context.expanded _ >>= _ = _ at whole
    rw [replaceAll_framed (framed.starts _) (framed.ends _)
      (ranks.2.1.mpr rfl), expanded, own] at whole
    obtain ⟨same, absent⟩ := kept grows2 whole (foreign_expandReplacement ..)
    exact ⟨fun _ => same, absent⟩
  | resource name =>
    rw [substitute, pass (mt ranks.1.mp (by simp [rank]))] at whole
    change workspaceScanner.replaceAll context.expanded _ >>= _ = _ at whole
    rw [pass (mt ranks.2.1.mp (by simp [rank]))] at whole
    change resourceToken.replaceAll _ _ >>= _ = _ at whole
    rw [replaceAll_framed (framed.starts _) (framed.ends _)
      (ranks.2.2.1.mpr rfl), own] at whole
    obtain ⟨-, absent⟩ := kept grows3 whole (Nat.le_refl _)
    exact ⟨fun low => absurd low (by simp [rank]), absent⟩
  | temp name =>
    refine ⟨fun low => absurd low (by simp [rank]), ?_⟩
    intro other higher
    exact absurd higher (Nat.not_lt.mpr (rank_le other))

end

/-- A job in a directory with two dollar signs in its name. -/
def dollarContext : StepContext where
  runtimeDir := ⟨text "/jobs/runtime", by decide⟩
  workspace := ⟨text "/home/a$$b", by decide⟩
  paths _ := none
  temporaryPaths _ := none

end StepContext

end MachineBridge.Jobs
