import MachineBridge.Foundation.Text

/-!
# Scans of a source text

A scanner takes units from the front of a text, and writes something for each of
them.  A scan is what it took, piece by piece, together with what is left; the
pieces and the rest make up the text.
-/

namespace MachineBridge.Symbols

open Foundation

def newline : UInt16 := 0x0A

def space : UInt16 := 0x20

def backslash : UInt16 := 0x5C

/-- What is taken in one step.  An escape takes the unit after the backslash
with it, if there is one. -/
inductive ScanPiece where
  | copy (unit : UInt16)
  | blank (unit : UInt16)
  /-- In a string or a regular expression. -/
  | escape (next : Option UInt16)
  | templateEscape (next : Option UInt16)

def ScanPiece.written : ScanPiece → Text
  | .copy unit => [unit]
  | .blank unit => if unit = newline then [newline] else [space]
  | .escape _ => [space, space]
  | .templateEscape next =>
    if next = some newline then [space, newline] else [space, space]

/-- A text is taken apart into pieces and a rest.  An escape without a next
unit is the last piece. -/
inductive Scans : Text → List ScanPiece → Text → Prop where
  | done (code : Text) : Scans code [] code
  | copy (unit : UInt16) {code pieces rest} (scans : Scans code pieces rest) :
      Scans (unit :: code) (.copy unit :: pieces) rest
  | blank (unit : UInt16) {code pieces rest} (scans : Scans code pieces rest) :
      Scans (unit :: code) (.blank unit :: pieces) rest
  | escape (next : UInt16) {code pieces rest}
      (scans : Scans code pieces rest) :
      Scans (backslash :: next :: code) (.escape (some next) :: pieces) rest
  | escapeEnd : Scans [backslash] [.escape none] []
  | templateEscape (next : UInt16) {code pieces rest}
      (scans : Scans code pieces rest) :
      Scans (backslash :: next :: code)
        (.templateEscape (some next) :: pieces) rest
  | templateEscapeEnd : Scans [backslash] [.templateEscape none] []

namespace Scans

variable {code middle rest : Text} {pieces later : List ScanPiece}

theorem length_le (scans : Scans code pieces rest) :
    rest.length ≤ code.length := by
  induction scans with
  | done code => exact Nat.le_refl _
  | copy unit scans induction
  | blank unit scans induction => exact Nat.le_succ_of_le induction
  | escape next scans induction =>
    exact Nat.le_succ_of_le (Nat.le_succ_of_le induction)
  | escapeEnd => exact Nat.zero_le _
  | templateEscape next scans induction =>
    exact Nat.le_succ_of_le (Nat.le_succ_of_le induction)
  | templateEscapeEnd => exact Nat.zero_le _

theorem of_nil (scans : Scans [] pieces rest) : pieces = [] ∧ rest = [] := by
  cases scans
  exact ⟨rfl, rfl⟩

theorem trans (first : Scans code pieces middle)
    (second : Scans middle later rest) :
    Scans code (pieces ++ later) rest := by
  induction first with
  | done code => exact second
  | copy unit scans induction => exact .copy unit (induction second)
  | blank unit scans induction => exact .blank unit (induction second)
  | escape next scans induction => exact .escape next (induction second)
  | escapeEnd =>
    obtain ⟨rfl, rfl⟩ := second.of_nil
    exact .escapeEnd
  | templateEscape next scans induction =>
    exact .templateEscape next (induction second)
  | templateEscapeEnd =>
    obtain ⟨rfl, rfl⟩ := second.of_nil
    exact .templateEscapeEnd

end Scans

structure ScanOf (code : Text) where
  pieces : List ScanPiece
  rest : Text
  scans : Scans code pieces rest

namespace ScanOf

variable {code : Text}

def done (code : Text) : ScanOf code := ⟨[], code, .done code⟩

def copy (unit : UInt16) (scan : ScanOf code) : ScanOf (unit :: code) :=
  ⟨.copy unit :: scan.pieces, scan.rest, .copy unit scan.scans⟩

def blank (unit : UInt16) (scan : ScanOf code) : ScanOf (unit :: code) :=
  ⟨.blank unit :: scan.pieces, scan.rest, .blank unit scan.scans⟩

/-- `first` is a backslash. -/
def escape {first : UInt16} (same : first = backslash) (next : UInt16)
    (scan : ScanOf code) : ScanOf (first :: next :: code) :=
  ⟨.escape (some next) :: scan.pieces, scan.rest,
    same ▸ .escape next scan.scans⟩

def escapeEnd {first : UInt16} (same : first = backslash) :
    ScanOf [first] := ⟨[.escape none], [], same ▸ .escapeEnd⟩

def templateEscape {first : UInt16} (same : first = backslash) (next : UInt16)
    (scan : ScanOf code) : ScanOf (first :: next :: code) :=
  ⟨.templateEscape (some next) :: scan.pieces, scan.rest,
    same ▸ .templateEscape next scan.scans⟩

def templateEscapeEnd {first : UInt16} (same : first = backslash) :
    ScanOf [first] :=
  ⟨[.templateEscape none], [], same ▸ .templateEscapeEnd⟩

def andThen (scan : ScanOf code) (next : ScanOf scan.rest) : ScanOf code :=
  ⟨scan.pieces ++ next.pieces, next.rest, scan.scans.trans next.scans⟩

/-- One unit, if there is one. -/
def blankOne : (code : Text) → ScanOf code
  | [] => done []
  | unit :: rest => (done rest).blank unit

def text (scan : ScanOf code) : Text := scan.pieces.flatMap ScanPiece.written

end ScanOf

end MachineBridge.Symbols
