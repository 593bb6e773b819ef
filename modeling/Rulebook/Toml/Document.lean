import Rulebook.Toml.Text
import Rulebook.Toml.Scalar
import Rulebook.Toml.Table

/-!
# Documents of TOML

A document is a sequence of statements: keys with values, headers of tables, and headers of arrays
of tables. Keys with values belong to the table of the last header. A document that breaks a rule
anywhere denotes nothing.
-/

namespace Rulebook.Toml

open Node (Members)

/-- Splits the parts of a key into those on the way and the last one. -/
def splitLast : List String → Option (List String × String)
  | [] => none
  | [k] => some ([], k)
  | k :: ks => (splitLast ks).map fun r => (k :: r.1, r.2)

/-- How many arrays and tables in braces may stand inside one another. -/
def maxNesting : Nat := 80

mutual

/-- Reads a value. The first argument bounds the number of steps, and `depth` is the number of
arrays and braces that may still be opened. -/
def takeValue : Nat → Nat → List Char → Option (Node × List Char)
  | 0, _, _ => none
  | n + 1, depth, cs =>
    match cs, depth with
    | '[' :: _, 0 => none
    | '\x7b' :: _, 0 => none
    | '[' :: cs, depth + 1 => (takeItems n depth cs).map fun r => (.value (.list r.1), r.2)
    | '\x7b' :: cs, depth + 1 =>
      (takeEntries n depth [] cs).map fun r => (.table .complete r.1, r.2)
    | '"' :: _, _ => (takeString cs).map fun r => (.value (.text (String.ofList r.1)), r.2)
    | '\'' :: _, _ => (takeString cs).map fun r => (.value (.text (String.ofList r.1)), r.2)
    -- everything else is a word without quotes
    | cs, _ =>
      let (word, rest) := takeWord cs
      (scalar? word).map fun s => (.value s, rest)

/-- Reads the items of an array up to its closing bracket. -/
def takeItems : Nat → Nat → List Char → Option (List Setting × List Char)
  | 0, _, _ => none
  | n + 1, depth, cs => do
    let cs ← skipVoid (cs.length + 1) cs
    match cs with
    | ']' :: cs => return ([], cs)
    | cs =>
      let (v, cs) ← takeValue n depth cs
      let cs ← skipVoid (cs.length + 1) cs
      match cs with
      -- a comma may also stand behind the last item
      | ',' :: cs =>
        let (vs, cs) ← takeItems n depth cs
        return (v.toSetting :: vs, cs)
      | ']' :: cs => return ([v.toSetting], cs)
      | _ => none

/-- Reads the entries of a table in braces up to its closing brace. -/
def takeEntries : Nat → Nat → Members → List Char → Option (Members × List Char)
  | 0, _, _, _ => none
  | n + 1, depth, es, cs => do
    let cs ← skipVoid (cs.length + 1) cs
    match cs with
    | '\x7d' :: cs => return (es, cs)
    | cs =>
      let (keys, cs) ← takeKeys cs
      let cs ← takeOneOf ['='] cs
      let (v, cs) ← takeValue n depth (skipGap cs)
      let (path, key) ← splitLast keys
      let es ← Node.addDotted path key v es
      let cs ← skipVoid (cs.length + 1) cs
      match cs with
      | ',' :: cs => takeEntries n depth es cs
      | '\x7d' :: cs => return (es, cs)
      | _ => none

end

/-- Reads a header up to the end of its line; `marks` is the number of its brackets, and the opening
ones have been read. -/
def takeHeader (marks : Nat) (cs : List Char) : Option (List String × List Char) := do
  let (keys, cs) ← takeKeys cs
  if cs.take marks = List.replicate marks ']' then
    let cs ← finishLine (cs.drop marks)
    return (keys, cs)
  else none

/-- Reads a key with its value up to the end of its line. -/
def takeAssignment (cs : List Char) : Option (List String × Node × List Char) := do
  let (keys, cs) ← takeKeys cs
  let cs ← takeOneOf ['='] cs
  let cs := skipGap cs
  let (v, cs) ← takeValue (2 * cs.length + 1) maxNesting cs
  let cs ← finishLine cs
  return (keys, v, cs)

/-- Reads statements: `header` is the path of the last header, and `es` is what has been read. -/
def takeStatements : Nat → List String → Members → List Char → Option Members
  | 0, _, _, _ => none
  | n + 1, header, es, cs => do
    let cs ← skipVoid (cs.length + 1) cs
    match cs with
    | [] => return es
    | '[' :: '[' :: cs =>
      let (keys, cs) ← takeHeader 2 cs
      let (path, key) ← splitLast keys
      let es ← Node.descend (Node.beginElement key) path es
      takeStatements n keys es cs
    | '[' :: cs =>
      let (keys, cs) ← takeHeader 1 cs
      let (path, key) ← splitLast keys
      let es ← Node.descend (Node.beginTable key) path es
      takeStatements n keys es cs
    | cs =>
      let (keys, v, cs) ← takeAssignment cs
      let (path, key) ← splitLast keys
      -- the key is added below the table of the last header
      let es ← Node.descend (Node.addDotted path key v) header es
      takeStatements n header es cs

/-- The entries of the document that a text denotes. A byte order mark may stand in front. -/
def read? (text : String) : Option (List (String × Setting)) :=
  let cs := match text.toList with
    | '\ufeff' :: cs => cs
    | cs => cs
  (takeStatements (cs.length + 1) [] [] cs).map Node.toEntries

end Rulebook.Toml
