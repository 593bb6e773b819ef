import Rulebook.Text.Parts
import Rulebook.Text.Numeral

/-!
# Addresses of hosts

Which texts are addresses of the fourth or the sixth version of the Internet Protocol.
-/

namespace Rulebook.IpAddress

/-- A part of an address of version four: a number below 256 without zeros in front. -/
def isByte (cs : List Char) : Bool :=
  match Text.natOfDigits? cs with
  | some n => decide (n < 256) && (cs.length = 1 || cs.head? ≠ some '0') && decide (cs.length ≤ 3)
  | none => false

/-- An address of version four. -/
def isVersion4 (cs : List Char) : Bool :=
  let ps := Text.parts '.' cs
  ps.length = 4 && ps.all isByte

/-- A group of an address of version six: up to four hexadecimal digits. -/
def isGroup (cs : List Char) : Bool :=
  !cs.isEmpty && decide (cs.length ≤ 4) && cs.all fun c => (Text.hexDigit? c).isSome

/-- The number of groups of a list of parts. If `mayEnd` the last part may be an address of version
four, which stands for two groups. -/
def groups? (mayEnd : Bool) : List (List Char) → Option Nat
  | [] => some 0
  | [p] => if isGroup p then some 1 else if mayEnd && isVersion4 p then some 2 else none
  | p :: ps => if isGroup p then (groups? mayEnd ps).map (· + 1) else none

/-- The number of groups of a text, which may be empty. -/
def groupsOf? (mayEnd : Bool) (cs : List Char) : Option Nat :=
  if cs.isEmpty then some 0 else groups? mayEnd (Text.parts ':' cs)

/-- The text in front of the first pair of colons and the text behind it. -/
def cutGap : List Char → Option (List Char × List Char)
  | ':' :: ':' :: cs => some ([], cs)
  | c :: cs => (cutGap cs).map fun r => (c :: r.1, r.2)
  | [] => none

/-- An address of version six: eight groups, or fewer around one pair of colons. -/
def isVersion6 (cs : List Char) : Bool :=
  match cutGap cs with
  | none => groupsOf? true cs = some 8
  | some (front, back) =>
    match groupsOf? false front, groupsOf? true back with
    | some m, some n => decide (m + n ≤ 7)
    | _, _ => false

/-- An address of either version. -/
def isAddress (cs : List Char) : Bool :=
  isVersion4 cs || isVersion6 cs

end Rulebook.IpAddress
