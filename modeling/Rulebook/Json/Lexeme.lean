import Rulebook.Json.Numeral

/-!
# Lexemes of JSON

A JSON text is first cut into lexemes: punctuation, the three literal names, numbers and strings.
Only space, tab, line feed and carriage return may stand between them. Where no lexeme begins the
text is junk from there on, and `lexemes` ends with `Lexeme.junk`.

A string is kept as its pieces, because an escape of the form `\u` names a UTF-16 code unit: whether
the units make up characters is asked only when the string is read (`Pieces.text?`).
-/

namespace Rulebook.Json

/-- A part of a written string: a character, or a UTF-16 code unit named by an escape. -/
inductive Piece where
  | char (c : Char)
  | unit (u : Nat)
  deriving DecidableEq, Repr

/-- The lexemes of JSON. -/
inductive Lexeme where
  | openBrace
  | closeBrace
  | openBracket
  | closeBracket
  | colon
  | comma
  | null
  | boolean (b : Bool)
  | number (n : Numeral)
  | string (pieces : List Piece)
  /-- No lexeme begins here. -/
  | junk
  deriving DecidableEq, Repr

/-! ### Strings -/

/-- The code unit named by four hexadecimal digits. -/
def hexUnit? (a b c d : Char) : Option Nat := do
  let a ← Text.hexDigit? a
  let b ← Text.hexDigit? b
  let c ← Text.hexDigit? c
  let d ← Text.hexDigit? d
  return 4096 * a + 256 * b + 16 * c + d

/-- The character named by an escape of one letter. -/
def shortEscape? : Char → Option Char
  | '"' => some '"'
  | '\\' => some '\\'
  | '/' => some '/'
  | 'b' => some '\x08'
  | 'f' => some '\x0c'
  | 'n' => some '\n'
  | 'r' => some '\r'
  | 't' => some '\t'
  | _ => none

/-- Reads a string up to its closing quote; the opening quote has been read. Control characters
and unknown escapes do not belong in a string. -/
def scanString : List Char → Option (List Piece × List Char)
  | [] => none
  | '"' :: cs => some ([], cs)
  -- an escape with too few digits ends below, as `u` is no escape of one letter
  | '\\' :: 'u' :: a :: b :: c :: d :: cs => do
    let u ← hexUnit? a b c d
    let (ps, rest) ← scanString cs
    return (.unit u :: ps, rest)
  | '\\' :: e :: cs => do
    let c ← shortEscape? e
    let (ps, rest) ← scanString cs
    return (.char c :: ps, rest)
  | c :: cs =>
    if c = '\\' ∨ c.toNat < 0x20 then none
    else do
      let (ps, rest) ← scanString cs
      return (.char c :: ps, rest)

/-- The unit begins a pair that names one character. -/
def isHighSurrogate (u : Nat) : Bool :=
  decide (0xd800 ≤ u) && decide (u < 0xdc00)

/-- The unit ends a pair that names one character. -/
def isLowSurrogate (u : Nat) : Bool :=
  decide (0xdc00 ≤ u) && decide (u < 0xe000)

/-- The characters that pieces make up. A unit that begins a pair must be followed by one that ends
a pair, and a unit that ends a pair must not stand alone. -/
def readPieces : List Piece → Option (List Char)
  | [] => some []
  | .char c :: ps => (readPieces ps).map (c :: ·)
  | .unit u :: ps =>
    if isHighSurrogate u then
      match ps with
      | .unit v :: ps =>
        if isLowSurrogate v then
          (readPieces ps).map (Char.ofNat (0x10000 + 1024 * (u - 0xd800) + (v - 0xdc00)) :: ·)
        else none
      | _ => none
    else if isLowSurrogate u then none
    else (readPieces ps).map (Char.ofNat u :: ·)

/-- The text that pieces make up. -/
def text? (pieces : List Piece) : Option String :=
  (readPieces pieces).map String.ofList

/-! ### Numbers -/

/-- Cuts a text behind its leading digits. -/
def spanDigits (cs : List Char) : List Char × List Char :=
  (cs.takeWhile Text.isDigit, cs.dropWhile Text.isDigit)

/-- Reads the digits of a whole part: a zero, or a run of digits that begins with another. -/
def scanWhole (cs : List Char) : Option (List Char × List Char) :=
  match spanDigits cs with
  | ([], _) => none
  | ('0' :: _ :: _, _) => none
  | r => some r

/-- Reads a point and the digits behind it, if there is a point. -/
def scanFraction : List Char → Option (List Char × List Char)
  | '.' :: cs =>
    match spanDigits cs with
    | ([], _) => none
    | r => some r
  | cs => some ([], cs)

/-- Reads an exponent, if there is one. -/
def scanExponent : List Char → Option (Option (Bool × List Char) × List Char)
  | [] => some (none, [])
  | c :: cs =>
    if c = 'e' ∨ c = 'E' then
      let (negative, cs) := Text.cutSign cs
      match spanDigits cs with
      | ([], _) => none
      | (ds, rest) => some (some (negative, ds), rest)
    else some (none, c :: cs)

/-- Reads a number whose sign has been read. -/
def scanNumber (negative : Bool) (cs : List Char) : Option (Numeral × List Char) := do
  let (whole, cs) ← scanWhole cs
  let (fraction, cs) ← scanFraction cs
  let (exponent, cs) ← scanExponent cs
  return (⟨negative, whole, fraction, exponent⟩, cs)

/-! ### Texts -/

/-- One of the four characters that may stand between lexemes. -/
def isSpace (c : Char) : Bool :=
  c = ' ' || c = '\t' || c = '\n' || c = '\r'

/-- Reads the lexeme at the front of a text that does not begin with a space. -/
def scanLexeme : List Char → Option (Lexeme × List Char)
  | '\x7b' :: cs => some (.openBrace, cs)
  | '\x7d' :: cs => some (.closeBrace, cs)
  | '[' :: cs => some (.openBracket, cs)
  | ']' :: cs => some (.closeBracket, cs)
  | ':' :: cs => some (.colon, cs)
  | ',' :: cs => some (.comma, cs)
  | 'n' :: 'u' :: 'l' :: 'l' :: cs => some (.null, cs)
  | 't' :: 'r' :: 'u' :: 'e' :: cs => some (.boolean true, cs)
  | 'f' :: 'a' :: 'l' :: 's' :: 'e' :: cs => some (.boolean false, cs)
  | '"' :: cs => (scanString cs).map fun r => (.string r.1, r.2)
  | '-' :: cs => (scanNumber true cs).map fun r => (.number r.1, r.2)
  | cs => (scanNumber false cs).map fun r => (.number r.1, r.2)

/-- The lexemes of a text, with a bound on their number. -/
def lexemesUpTo : Nat → List Char → List Lexeme
  | 0, _ => []
  | n + 1, cs =>
    match cs.dropWhile isSpace with
    | [] => []
    | c :: cs =>
      match scanLexeme (c :: cs) with
      | none => [.junk]
      | some (l, rest) => l :: lexemesUpTo n rest

/-- The lexemes of a text. Every lexeme takes a character, so their number is at most the length
of the text. -/
def lexemes (cs : List Char) : List Lexeme :=
  lexemesUpTo cs.length cs

end Rulebook.Json
