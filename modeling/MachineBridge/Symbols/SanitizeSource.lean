import MachineBridge.Symbols.SourceScan

/-!
# Blanking comments and literals

Before symbols are looked for, comments, strings, templates and regular
expressions are replaced by spaces.  Whether a slash begins a regular expression
is told from what comes before it.
-/

namespace MachineBridge.Symbols

open Foundation

def slash : UInt16 := 0x2F
def star : UInt16 := 0x2A
def doubleQuote : UInt16 := 0x22
def singleQuote : UInt16 := 0x27
def backtick : UInt16 := 0x60
def dollar : UInt16 := 0x24
def openBrace : UInt16 := 0x7B
def closeBrace : UInt16 := 0x7D
def openBracket : UInt16 := 0x5B
def closeBracket : UInt16 := 0x5D
def closeParenthesis : UInt16 := 0x29
def semicolon : UInt16 := 0x3B

def regexPrecedingTokens : List UInt16 := text "([\x7b;,:?=!&|^~+-*%<>/"

def regexPrecedingKeywords : List Text :=
  ["return", "case", "typeof", "delete", "void", "throw", "instanceof", "in",
    "of", "yield", "await", "default"].map text

/-- After the slashes. -/
def skipLineComment : (code : Text) → ScanOf code
  | [] => .done []
  | unit :: rest =>
    if unit = newline then (ScanOf.done rest).blank unit
    else (skipLineComment rest).blank unit

/-- After the slash and the star. -/
def skipBlockComment : (code : Text) → ScanOf code
  | [] => .done []
  | unit :: rest =>
    if unit = star ∧ rest.head? = some slash then
      (ScanOf.blankOne rest).blank unit
    else (skipBlockComment rest).blank unit

def skipStringLiteral (quote : UInt16) : (code : Text) → ScanOf code
  | [] => .done []
  | [unit] =>
    if unit = quote then (ScanOf.done []).blank unit
    else if unit = newline then .done [unit]
    else if same : unit = backslash then .escapeEnd same
    else (ScanOf.done []).blank unit
  | unit :: next :: rest =>
    if unit = quote then (ScanOf.done (next :: rest)).blank unit
    else if unit = newline then .done (unit :: next :: rest)
    else if same : unit = backslash then
      (skipStringLiteral quote rest).escape same next
    else (skipStringLiteral quote (next :: rest)).blank unit

def isFlag (unit : UInt16) : Bool := isLower unit || isUpper unit

/-- The letters after a regular expression. -/
def skipFlags : (code : Text) → ScanOf code
  | [] => .done []
  | unit :: rest =>
    if isFlag unit then (skipFlags rest).blank unit
    else .done (unit :: rest)

/-- After the slash. -/
def skipRegexLiteral (inClass : Bool) : (code : Text) → ScanOf code
  | [] => .done []
  | [unit] =>
    if same : unit = backslash then .escapeEnd same
    else (ScanOf.done []).blank unit
  | unit :: next :: rest =>
    if unit = newline then (ScanOf.done (next :: rest)).blank unit
    else if same : unit = backslash then
      (skipRegexLiteral inClass rest).escape same next
    else if unit = openBracket ∧ inClass = false then
      (skipRegexLiteral true (next :: rest)).blank unit
    else if unit = closeBracket ∧ inClass = true then
      (skipRegexLiteral false (next :: rest)).blank unit
    else if unit = slash ∧ inClass = false then
      (skipFlags (next :: rest)).blank unit
    else (skipRegexLiteral inClass (next :: rest)).blank unit

/-- The last unit and the last word which were seen. -/
structure Lexical where
  lastChar : Option UInt16
  lastToken : Text := []
  inToken : Bool := false

def isWordUnit (unit : UInt16) : Bool :=
  isLower unit || isUpper unit || isDigit unit || unit == 0x5F ||
    unit == dollar

namespace Lexical

def isRegex (lexical : Lexical) : Bool :=
  match lexical.lastChar with
  | none => true
  | some unit =>
    regexPrecedingTokens.contains unit ||
      regexPrecedingKeywords.contains lexical.lastToken

def advance (lexical : Lexical) (unit : UInt16) : Lexical :=
  if isWhitespace unit then { lexical with inToken := false }
  else if isWordUnit unit then
    { lastChar := some unit
      lastToken :=
        if lexical.inToken then lexical.lastToken ++ [unit] else [unit]
      inToken := true }
  else { lastChar := some unit }

/-- After a literal. -/
def closed : Lexical := { lastChar := some closeParenthesis }

end Lexical

/-- The branches which both loops have: `none` inside is for a unit which begins
no comment and no literal.  `template` scans what follows a backtick. -/
def scanLiteral (template : (code : Text) → Option (ScanOf code))
    (lexical : Lexical) (unit : UInt16) (rest : Text) :
    Option (Option (ScanOf (unit :: rest) × Lexical)) :=
  if unit = slash ∧ rest.head? = some slash then
    let scan := (ScanOf.blankOne rest).andThen (skipLineComment _)
    some (some (scan.blank unit, { lastChar := some semicolon }))
  else if unit = slash ∧ rest.head? = some star then
    let scan := (ScanOf.blankOne rest).andThen (skipBlockComment _)
    some (some (scan.blank unit, { lexical with inToken := false }))
  else if unit = doubleQuote ∨ unit = singleQuote then
    some (some ((skipStringLiteral unit rest).blank unit, .closed))
  else if unit = backtick then
    (template rest).map fun scan => some (scan.blank unit, .closed)
  else if unit = slash ∧ lexical.isRegex then
    some (some ((skipRegexLiteral false rest).blank unit, .closed))
  else some none

mutual

/-- After the backtick.  `none` stands for a scan which has not ended. -/
def sanitizeTemplate : Nat → (code : Text) → Option (ScanOf code)
  | 0, _ => none
  | _ + 1, [] => some (.done [])
  | _ + 1, [unit] =>
    if same : unit = backslash then some (.templateEscapeEnd same)
    else some ((ScanOf.done []).blank unit)
  | fuel + 1, unit :: next :: rest =>
    if unit = backtick then some ((ScanOf.done (next :: rest)).blank unit)
    else if same : unit = backslash then
      (sanitizeTemplate fuel rest).map (ScanOf.templateEscape same next)
    else if unit = dollar ∧ next = openBrace then
      (sanitizeTemplateExpr fuel 1 { lastChar := some openBrace }
        rest).bind fun scan =>
        (sanitizeTemplate fuel scan.rest).map fun later =>
          ((scan.andThen later).blank next).blank unit
    else (sanitizeTemplate fuel (next :: rest)).map (ScanOf.blank unit)

/-- After the opening brace. -/
def sanitizeTemplateExpr : Nat → Nat → Lexical → (code : Text) →
    Option (ScanOf code)
  | 0, _, _, _ => none
  | _ + 1, _, _, [] => some (.done [])
  | fuel + 1, braceDepth, lexical, unit :: rest =>
    (scanLiteral (sanitizeTemplate fuel) lexical unit rest).bind
      fun
      | some (scan, lexical) =>
        (sanitizeTemplateExpr fuel braceDepth lexical scan.rest).map
          scan.andThen
      | none =>
        if unit = openBrace then
          (sanitizeTemplateExpr fuel (braceDepth + 1)
            { lastChar := some unit } rest).map (ScanOf.blank unit)
        else if unit = closeBrace then
          if braceDepth ≤ 1 then some ((ScanOf.done rest).blank unit)
          else
            (sanitizeTemplateExpr fuel (braceDepth - 1)
              { lastChar := some unit } rest).map (ScanOf.blank unit)
        else
          (sanitizeTemplateExpr fuel braceDepth (lexical.advance unit)
            rest).map (ScanOf.blank unit)

end

def sanitizeLoop : Nat → Lexical → (code : Text) → Option (ScanOf code)
  | 0, _, _ => none
  | _ + 1, _, [] => some (.done [])
  | fuel + 1, lexical, unit :: rest =>
    (scanLiteral (sanitizeTemplate fuel) lexical unit rest).bind
      fun
      | some (scan, lexical) =>
        (sanitizeLoop fuel lexical scan.rest).map scan.andThen
      | none =>
        (sanitizeLoop fuel (lexical.advance unit) rest).map
          (ScanOf.copy unit)

def scanSource (code : Text) : Option (ScanOf code) :=
  sanitizeLoop (code.length + 1) { lastChar := none } code

def sanitizeSource (code : Text) : Option Text :=
  (scanSource code).map ScanOf.text

end MachineBridge.Symbols
