/-!
# Parts of a text

A text is cut at every place where a separator stands (`parts`), at the first such place
(`cutFirst`) or at the last one (`cutLast`). There is always one part more than there are
separators, and `joined` puts separators between parts.

`dropEndWhile` and `strip` take away what stands at the ends of a text.
-/

namespace Rulebook.Text

/-- The parts of a text between separators. -/
def parts (sep : Char) : List Char → List (List Char)
  | [] => [[]]
  | c :: cs =>
    if c = sep then [] :: parts sep cs
    else match parts sep cs with
      | p :: ps => (c :: p) :: ps
      | [] => [[c]]

/-- The parts joined by separators. -/
def joined (sep : Char) : List (List Char) → List Char
  | [] => []
  | [p] => p
  | p :: ps => p ++ sep :: joined sep ps

/-- Cuts a text at the first place where a separator stands, if there is one. -/
def cutFirst (sep : Char) : List Char → List Char × Option (List Char)
  | [] => ([], none)
  | c :: cs =>
    if c = sep then ([], some cs)
    else
      let (front, back) := cutFirst sep cs
      (c :: front, back)

/-- Cuts a text at the last place where a separator stands. -/
def cutLast (sep : Char) : List Char → Option (List Char × List Char)
  | [] => none
  | c :: cs =>
    match cutLast sep cs with
    | some (front, back) => some (c :: front, back)
    | none => if c = sep then some ([], cs) else none

/-- The text without the characters of a kind at its end. -/
def dropEndWhile (p : Char → Bool) (cs : List Char) : List Char :=
  (cs.reverse.dropWhile p).reverse

/-- The text without the characters of a kind at both ends. -/
def strip (p : Char → Bool) (cs : List Char) : List Char :=
  dropEndWhile p (cs.dropWhile p)

end Rulebook.Text
