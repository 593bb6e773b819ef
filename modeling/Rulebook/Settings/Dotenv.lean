import Rulebook.Settings.Variables
import Rulebook.Text.Alphanumeric
import Rulebook.Text.Blank
import Rulebook.Text.Parts

/-!
# Files of variables

A file of variables has an assignment on each line: `NAME=value`, perhaps with `export` in front. A
value may have quoted parts, which may go on over several lines; a comment begins with `#` behind a
blank. `$NAME` stands for the value of a variable, except between single quotes, and so does the
name between braces behind a dollar sign. What stands directly behind a name without braces is taken
as it is.

Reading stops at the first line that is no assignment, and a variable that is set already keeps its
value.
-/

namespace Rulebook.Dotenv

/-! ### Lines -/

/-- How the characters of a line are to be understood. -/
inductive Quoting where
  | plain
  /-- Behind a blank. -/
  | gap
  | escaped
  | single
  | singleEscaped
  | double
  | doubleEscaped
  /-- Within a comment. -/
  | comment
  deriving DecidableEq, Repr

namespace Quoting

/-- What a character opens outside of quotes. -/
def opened (c : Char) : Quoting :=
  if c = '\\' then .escaped
  else if c = '"' then .double
  else if c = '\'' then .single
  else .plain

/-- Reads a character. -/
def step (c : Char) : Quoting → Quoting
  | .plain => if Text.isBlank c && c ≠ '\n' && c ≠ '\r' then .gap else opened c
  | .gap => if c = '#' then .comment else opened c
  | .escaped => .plain
  | .single => if c = '\\' then .singleEscaped else if c = '\'' then .plain else .single
  | .singleEscaped => .single
  | .double => if c = '\\' then .doubleEscaped else if c = '"' then .plain else .double
  | .doubleEscaped => .double
  | .comment => .comment

end Quoting

/-- The lines of a text, with their ends. -/
def rawLines : List Char → List (List Char)
  | [] => []
  | c :: cs =>
    if c = '\n' then [c] :: rawLines cs
    else match rawLines cs with
      | l :: ls => (c :: l) :: ls
      | [] => [[c]]

/-- The characters of a line up to a comment, and how the line leaves what follows. -/
def scanLine (q : Quoting) : List Char → List Char × Quoting
  | [] => ([], q)
  | c :: cs =>
    match q.step c with
    | .comment => ([], .comment)
    | q =>
      let (kept, q) := scanLine q cs
      (c :: kept, q)

/-- The line without its end. -/
def dropEnd (cs : List Char) : List Char :=
  match cs.reverse with
  | '\n' :: '\r' :: cs => cs.reverse
  | '\n' :: cs => cs.reverse
  | _ => cs

/-- The lines of a text, those that go on joined. A line that goes on at the end of the text is
lost. `begun` is what has been read of a line, and `q` how it goes on. -/
def joinLines (begun : List Char) (q : Quoting) : List (List Char) → List (List Char)
  | [] => []
  | l :: ls =>
    -- a comment on a line by itself leaves an empty line
    if (Text.skipBlank (begun ++ l)).head? = some '#' then [] :: joinLines [] .plain ls
    else
      let (kept, q) := scanLine q l
      match q with
      | .comment => (begun ++ kept) :: joinLines [] .plain ls
      | .plain => dropEnd (begun ++ l) :: joinLines [] .plain ls
      | q => joinLines (begun ++ l) q ls

/-! ### Values -/

/-- Where a reader of a value stands. -/
inductive Mode where
  | plain
  | escaped
  | single
  /-- Within the name of a variable. -/
  | name (cs : List Char)
  /-- Within the name of a variable between braces. -/
  | braced (cs : List Char)
  /-- Behind the value. -/
  | ended
  deriving DecidableEq, Repr

/-- What has been read of a value. -/
structure Reading where
  mode : Mode
  /-- A double quote is open. -/
  inDouble : Bool
  /-- The characters of the value so far, the last one first. -/
  value : List Char
  deriving DecidableEq, Repr

namespace Reading

/-- The reading with further characters of the value. -/
def emit (r : Reading) (cs : List Char) : Reading :=
  { r with value := cs.reverse ++ r.value }

/-- What an escaped character stands for. -/
def unescape? (c : Char) : Option Char :=
  if c = 'n' then some '\n'
  else if ['\\', '\'', '"', '$', ' '].contains c then some c
  else none

/-- The value of a variable; one that is not set is empty. -/
def valueOf (vs : Variables) (name : List Char) : List Char :=
  ((vs.get? (String.ofList name)).getD "").toList

/-- Reads a character that is neither escaped nor between single quotes nor part of a name. -/
def stepPlain (c : Char) (r : Reading) : Reading :=
  if c = '$' then { r with mode := .name [] }
  else if c = '\\' then { r with mode := .escaped }
  else if c = '"' then { r with mode := .plain, inDouble := !r.inDouble }
  else if r.inDouble then r.emit [c]
  else if c = '\'' then { r with mode := .single }
  else if c = ' ' ∨ c = '\t' then { r with mode := .ended }
  else r.emit [c]

/-- Reads a character. `none` stands for a broken value; a comment ends the value. -/
def step (vs : Variables) (c : Char) (r : Reading) : Option Reading :=
  match r.mode with
  | .ended => if c = ' ' ∨ c = '\t' then some r else none
  | .escaped => (unescape? c).map fun c => { r with mode := .plain }.emit [c]
  | .single => if c = '\'' then some { r with mode := .plain } else some (r.emit [c])
  | .name cs =>
    if Text.isAlphanumeric c then some { r with mode := .name (cs ++ [c]) }
    else if c = '\x7b' ∧ cs.isEmpty then some { r with mode := .braced [] }
    else
      -- what ends the name begins another one or belongs to the value as it is
      let r := r.emit (valueOf vs cs)
      if c = '$' then some { r with mode := .name [] }
      else some ({ r with mode := .plain }.emit [c])
  | .braced cs =>
    if c = '\x7d' then some ({ r with mode := .plain }.emit (valueOf vs cs))
    else some { r with mode := .braced (cs ++ [c]) }
  | .plain => some (stepPlain c r)

/-- The value that has been read. -/
def finish (vs : Variables) (r : Reading) : Option (List Char) :=
  if r.inDouble then none
  else match r.mode with
    | .single | .braced _ => none
    | .name cs => some (r.emit (valueOf vs cs)).value.reverse
    | _ => some r.value.reverse

/-- Reads the rest of a value. -/
def run (vs : Variables) (r : Reading) : List Char → Option (List Char)
  | [] => r.finish vs
  | c :: cs =>
    -- behind the value a comment is all that may stand
    if r.mode = .ended ∧ c = '#' then r.finish vs
    else match r.step vs c with
      | some r => run vs r cs
      | none => none

end Reading

/-- The value that a text denotes. -/
def value? (vs : Variables) (cs : List Char) : Option (List Char) :=
  Reading.run vs ⟨.plain, false, []⟩ cs

/-! ### Assignments -/

/-- Reads a name: letters, digits, underscores and dots, beginning with a letter or an underscore.
-/
def takeName (cs : List Char) : Option (List Char × List Char) :=
  match cs with
  | [] => none
  | c :: _ =>
    if c.isAlpha || c = '_' then
      let name := cs.takeWhile fun c => c.isAlphanum || c = '_' || c = '.'
      some (name, Text.skipBlank (cs.drop name.length))
    else none

/-- Reads an equals sign. -/
def takeEquals : List Char → Option (List Char)
  | '=' :: cs => some (Text.skipBlank cs)
  | _ => none

/-- Reads a name and an equals sign. The word `export` may stand in front of a name, and may be one.
-/
def takeTarget (cs : List Char) : Option (List Char × List Char) := do
  let (name, cs) ← takeName cs
  match takeEquals cs with
  | some rest => return (name, rest)
  | none =>
    if String.ofList name = "export" then
      let (name, cs) ← takeName cs
      return (name, ← takeEquals cs)
    else none

/-- The assignment on a line: `some none` if there is none, and `none` if the line is broken. -/
def assignment? (vs : Variables) (line : List Char) : Option (Option (String × String)) :=
  match Text.strip Text.isBlank line with
  | [] => some none
  | '#' :: _ => some none
  | cs => do
    let (name, cs) ← takeTarget cs
    if cs.isEmpty ∨ cs.head? = some '#' then return some (String.ofList name, "")
    else
      let v ← value? vs cs
      return some (String.ofList name, String.ofList v)

/-- Sets the variables that lines assign, up to the first broken line. -/
def assign (vs : Variables) : List (List Char) → Variables
  | [] => vs
  | l :: ls =>
    match assignment? vs l with
    | none => vs
    | some none => assign vs ls
    | some (some (name, value)) => assign (vs.setNew name value) ls

/-- The text without a byte order mark in front. -/
def dropMark : List Char → List Char
  | '\ufeff' :: cs => cs
  | cs => cs

/-- Sets the variables that a text assigns. -/
def load (vs : Variables) (text : String) : Variables :=
  assign vs (joinLines [] .plain (rawLines (dropMark text.toList)))

end Rulebook.Dotenv
