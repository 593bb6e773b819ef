import Rulebook.Entries
import Rulebook.Number.Shortest

/-!
# Settings as they are written

A setting is a value of a file or of a variable: it has a kind of its own, which need not be the
kind of the field that it is meant for. Tables of settings are laid over one another: where both
sides are tables they are merged name by name, and otherwise the upper side counts.

The conversions say which settings can stand for a truth value, for a number or for a text.
-/

namespace Rulebook

/-- A setting. The entries of a table have different names. -/
inductive Setting where
  /-- Nothing; what stands in an array where nothing was put. -/
  | nil
  | flag (b : Bool)
  | integer (i : Int)
  | float (x : Binary64)
  | text (s : String)
  | list (items : List Setting)
  | table (entries : List (String × Setting))

namespace Setting

instance : Inhabited Setting := ⟨.nil⟩

/-- The entries of a table; there are none in anything else. -/
def entries : Setting → List (String × Setting)
  | .table es => es
  | _ => []

/-- The items of a list; there are none in anything else. -/
def items : Setting → List Setting
  | .list ss => ss
  | _ => []

/-! ### Laying over -/

mutual

/-- The second setting laid over the first. -/
def overlay (lower : Setting) : Setting → Setting
  | .table es => .table (overlayEntries lower.entries es)
  | s => s

/-- Entries laid over entries. -/
def overlayEntries (lower : List (String × Setting)) :
    List (String × Setting) → List (String × Setting)
  | [] => lower
  | (name, s) :: es =>
    overlayEntries (Entries.set name (overlay ((Entries.find? name lower).getD .nil) s) lower) es

end

/-! ### Conversions -/

/-- A word in small letters. Only the words that stand for truth values are looked for, and those
consist of ASCII letters. -/
def lowered (s : String) : String :=
  String.ofList (s.toList.map Char.toLower)

/-- The truth value that a word stands for. -/
def flagOfWord? (s : String) : Option Bool :=
  let w := lowered s
  if w = "true" ∨ w = "on" ∨ w = "yes" then some true
  else if w = "false" ∨ w = "off" ∨ w = "no" then some false
  else none

/-- The truth value that a setting stands for. -/
def toFlag? : Setting → Option Bool
  | .flag b => some b
  | .integer i => some (i ≠ 0)
  | .float x => some !x.isZero
  | .text s => if s = "1" then some true else if s = "0" then some false else flagOfWord? s
  | _ => none

/-- The unsigned word of 64 bits that a setting stands for. -/
def toWord? : Setting → Option Nat
  | .flag b => some b.toNat
  | .integer i => if 0 ≤ i then some i.toNat else none
  | .float x => some x.round
  -- the words for truth values come before the digits
  | .text s =>
    match flagOfWord? s with
    | some b => some b.toNat
    | none => Text.natBelow? UInt64.size s.toList
  | _ => none

/-- The number below a bound that a setting stands for. -/
def toNatBelow? (bound : Nat) (s : Setting) : Option Nat :=
  s.toWord? >>= fun n => if n < bound then some n else none

/-- The text that a setting stands for. -/
def toText? : Setting → Option String
  | .flag true => some "true"
  | .flag false => some "false"
  | .integer i => some (Text.ofInt i)
  | .float x => some x.text
  | .text s => some s
  | _ => none

/-- What a word of a list of names stands for. The word may also be written as a table with the word
as its only name. -/
def toNamed? {α : Type} (names : List (String × α)) : Setting → Option α
  | .text s => Entries.find? s names
  | .table [(s, _)] => Entries.find? s names
  | _ => none

end Setting

end Rulebook
