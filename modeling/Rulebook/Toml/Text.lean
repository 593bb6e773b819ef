import Rulebook.Text.Numeral

/-!
# Characters, strings and keys of TOML

The lowest level of TOML: blanks, ends of lines, comments, the four kinds of strings, and keys.
Every function reads from the front of a text and gives the rest; where recursion does not follow
the text, its depth is bounded by the first argument.
-/

namespace Rulebook.Toml

/-- A space or a tab. -/
def isGap (c : Char) : Bool :=
  c = ' ' || c = '\t'

/-- A character that may not stand in a string or a comment as it is. -/
def isControl (c : Char) : Bool :=
  (decide (c.toNat < 0x20) && c ≠ '\t') || c.toNat = 0x7f

/-- The text without the gap in front. -/
def skipGap (cs : List Char) : List Char :=
  cs.dropWhile isGap

/-- Reads the end of a line. -/
def takeNewline : List Char → Option (List Char)
  | '\n' :: cs => some cs
  | '\r' :: '\n' :: cs => some cs
  | _ => none

/-- Reads a comment up to the end of its line; the `#` has been read. -/
def skipComment : List Char → Option (List Char)
  | [] => some []
  | c :: cs =>
    if (takeNewline (c :: cs)).isSome then some (c :: cs)
    else if isControl c then none
    else skipComment cs

/-- Reads gaps, comments and ends of lines. -/
def skipVoid : Nat → List Char → Option (List Char)
  | 0, _ => none
  | n + 1, cs =>
    match skipGap cs with
    | '#' :: cs => skipComment cs >>= skipVoid n
    | cs =>
      match takeNewline cs with
      | some cs => skipVoid n cs
      | none => some cs

/-- Reads what may stand behind a statement, up to the end of its line. -/
def finishLine (cs : List Char) : Option (List Char) :=
  match skipGap cs with
  | [] => some []
  | '#' :: cs => skipComment cs >>= fun
    | [] => some []
    | cs => takeNewline cs
  | cs => takeNewline cs

/-! ### Strings -/

/-- The character with a code point, if there is one. -/
def charOf? (n : Nat) : Option Char :=
  if n < 0xd800 ∨ (0xe000 ≤ n ∧ n < 0x110000) then some (Char.ofNat n) else none

/-- The character that hexadecimal digits name. -/
def namedChar? (ds : List Char) : Option Char :=
  (ds.foldlM (fun n d => (Text.hexDigit? d).map (16 * n + ·)) 0) >>= charOf?

/-- The character that an escape of one letter names. -/
def shortEscape? : Char → Option Char
  | 'b' => some '\x08'
  | 't' => some '\t'
  | 'n' => some '\n'
  | 'f' => some '\x0c'
  | 'r' => some '\r'
  | 'e' => some '\x1b'
  | '"' => some '"'
  | '\\' => some '\\'
  | _ => none

/-- Reads an escape; the backslash has been read. -/
def takeEscape : List Char → Option (Char × List Char)
  | 'x' :: a :: b :: cs => (namedChar? [a, b]).map (·, cs)
  | 'u' :: a :: b :: c :: d :: cs => (namedChar? [a, b, c, d]).map (·, cs)
  | 'U' :: a :: b :: c :: d :: e :: f :: g :: h :: cs =>
    (namedChar? [a, b, c, d, e, f, g, h]).map (·, cs)
  | c :: cs => (shortEscape? c).map (·, cs)
  | [] => none

/-- Reads a string with escapes up to its closing quote. -/
def takeBasic : Nat → List Char → Option (List Char × List Char)
  | _, [] => none
  | 0, _ => none
  | n + 1, c :: cs =>
    if c = '"' then some ([], cs)
    else if c = '\\' then do
      let (e, cs) ← takeEscape cs
      let (s, rest) ← takeBasic n cs
      return (e :: s, rest)
    else if isControl c then none
    else do
      let (s, rest) ← takeBasic n cs
      return (c :: s, rest)

/-- Reads a string without escapes up to its closing quote. -/
def takeLiteral : List Char → Option (List Char × List Char)
  | [] => none
  | c :: cs =>
    if c = '\'' then some ([], cs)
    else if isControl c then none
    else do
      let (s, rest) ← takeLiteral cs
      return (c :: s, rest)

/-- Reads the three quotes that close a string of several lines. Up to two quotes in front of them
belong to the string. -/
def takeClosing (q : Char) (cs : List Char) : Option (List Char × List Char) :=
  let quotes := (cs.take 5).takeWhile (· = q)
  if 3 ≤ quotes.length then some (quotes.drop 3, cs.drop quotes.length) else none

/-- Skips gaps and ends of lines. -/
def skipLines : Nat → List Char → List Char
  | 0, cs => cs
  | n + 1, cs =>
    match takeNewline (skipGap cs) with
    | some cs => skipLines n cs
    | none => skipGap cs

/-- Reads the rest of a line that ends in a backslash, and the blanks that begin the next lines. -/
def takeContinuation (cs : List Char) : Option (List Char) :=
  (takeNewline (skipGap cs)).map fun cs => skipLines (cs.length + 1) cs

/-- Reads a string of several lines up to its closing quotes; `q` is the quote, and a double quote
allows escapes. The ends of the lines belong to the string as they are written. -/
def takeLines (q : Char) : Nat → List Char → Option (List Char × List Char)
  | _, [] => none
  | 0, _ => none
  | n + 1, c :: cs =>
    match takeClosing q (c :: cs) with
    | some r => some r
    | none =>
      if c = '\\' ∧ q = '"' then
        -- a backslash at the end of a line joins it to the next text
        match takeContinuation cs with
        | some cs => takeLines q n cs
        | none => do
          let (e, cs) ← takeEscape cs
          let (s, rest) ← takeLines q n cs
          return (e :: s, rest)
      -- of the control characters only those that end a line may stand here
      else if isControl c && (takeNewline (c :: cs)).isNone then none
      else do
        let (s, rest) ← takeLines q n cs
        return (c :: s, rest)

/-- Reads a string of several lines; the opening quotes have been read. -/
def takeBlock (q : Char) (cs : List Char) : Option (List Char × List Char) :=
  takeLines q (cs.length + 1) ((takeNewline cs).getD cs)

/-- Reads a string of any kind. -/
def takeString : List Char → Option (List Char × List Char)
  | '"' :: '"' :: '"' :: cs => takeBlock '"' cs
  | '\'' :: '\'' :: '\'' :: cs => takeBlock '\'' cs
  | '"' :: cs => takeBasic (cs.length + 1) cs
  | '\'' :: cs => takeLiteral cs
  | _ => none

/-! ### Keys -/

/-- A character of a key without quotes. -/
def isKeyChar (c : Char) : Bool :=
  c.isAlphanum || c = '_' || c = '-'

/-- Reads a key of one part. -/
def takeKey : List Char → Option (String × List Char)
  | '"' :: cs => (takeBasic (cs.length + 1) cs).map fun r => (String.ofList r.1, r.2)
  | '\'' :: cs => (takeLiteral cs).map fun r => (String.ofList r.1, r.2)
  | cs =>
    let key := cs.takeWhile isKeyChar
    if key.isEmpty then none else some (String.ofList key, cs.drop key.length)

/-- The greatest number of parts of a key. -/
def maxParts : Nat := 80

/-- Reads a key of parts between dots, at most as many as the first argument says. -/
def takeParts : Nat → List Char → Option (List String × List Char)
  | 0, _ => none
  | n + 1, cs => do
    let (key, cs) ← takeKey (skipGap cs)
    match skipGap cs with
    | '.' :: cs =>
      let (keys, cs) ← takeParts n cs
      return (key :: keys, cs)
    | cs => return ([key], cs)

/-- Reads a key of parts between dots. -/
def takeKeys (cs : List Char) : Option (List String × List Char) :=
  takeParts maxParts cs

end Rulebook.Toml
