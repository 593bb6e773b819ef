import Rulebook.Settings.Setting
import Rulebook.Text.Parts

/-!
# Paths to settings

A path leads from a table to a setting within it: through names, and through the positions of a
list. It is written as `server.port` or `hosts[0].name`. A position below zero counts from the end.
What a path leads through is made on the way if it is not there.

`layer` lays the entries of a source over a table. The names of the entries are paths; a name that
is no path stands for itself.
-/

namespace Rulebook.Setting

/-- A step of a path. -/
inductive Step where
  | key (name : String)
  | index (i : Int)
  deriving DecidableEq, Repr

/-! ### Reading paths -/

/-- A character of a name in a path. -/
def isPathChar (c : Char) : Bool :=
  c.isAlphanum || c = '_' || c = '-'

/-- The position of a list that is written between brackets. -/
def position? (cs : List Char) : Option Int :=
  let isGap := fun c : Char => c = ' ' || c = '\t'
  match Text.strip isGap cs with
  | '+' :: _ => none
  | cs => Text.intOfNumeral? cs >>= fun i => (Text.toInt64? i).map fun _ => i

/-- The steps behind the first name of a path; the first argument bounds their number. -/
def stepsUpTo : Nat → List Char → Option (List Step)
  | _, [] => some []
  | 0, _ => none
  | n + 1, '.' :: cs =>
    let name := cs.takeWhile isPathChar
    if name.isEmpty then none
    else (stepsUpTo n (cs.drop name.length)).map (.key (String.ofList name) :: ·)
  | n + 1, '[' :: cs =>
    let inner := cs.takeWhile (· ≠ ']')
    match cs.drop inner.length with
    | ']' :: rest => do
      let i ← position? inner
      let steps ← stepsUpTo n rest
      return .index i :: steps
    | _ => none
  | _, _ => none

/-- The path that a text denotes. -/
def pathOf? (text : String) : Option (List Step) :=
  let cs := text.toList
  let name := cs.takeWhile isPathChar
  if name.isEmpty then none
  else (stepsUpTo cs.length (cs.drop name.length)).map (.key (String.ofList name) :: ·)

/-! ### Following paths -/

/-- Changes the item at a position of a list, which is made longer if it has to be. -/
def changeAt (i : Int) (change : Setting → Setting) (ss : List Setting) : List Setting :=
  -- a position before the first item makes room in front, and then is the first
  let missing := (-(i + ss.length)).toNat
  let ss := List.replicate missing .nil ++ ss
  let place := if 0 ≤ i then i.toNat else (i + ss.length).toNat
  let ss := ss ++ List.replicate (place + 1 - ss.length) .nil
  ss.modify place change

/-- Changes the setting that a path leads to. -/
def change (f : Setting → Setting) : List Step → Setting → Setting
  | [], s => f s
  | .key name :: steps, s =>
    let inner := (Entries.find? name s.entries).getD .nil
    .table (Entries.set name (change f steps inner) s.entries)
  | .index i :: steps, s => .list (changeAt i (change f steps) s.items)

/-- Lays a setting over what a path leads to. -/
def put (path : List Step) (s : Setting) (root : Setting) : Setting :=
  change (fun lower => overlay lower s) path root

/-- Lays an entry of a source over a table. -/
def putEntry (root : Setting) (e : String × Setting) : Setting :=
  put ((pathOf? e.1).getD [.key e.1]) e.2 root

/-- Lays the entries of a source over a table. -/
def layer (root : Setting) (entries : List (String × Setting)) : Setting :=
  entries.foldl putEntry root

end Rulebook.Setting
