import Rulebook.Text.Numeral

/-!
# Numbers as written in JSON

A number is kept as it is written: sign, whole part, fraction, exponent. Two questions are asked of
it. `toInt?` gives the integer it denotes, if it is written as one (no fraction, no exponent, not
`-0`) and fits into a word of 64 bits, signed or unsigned. `isTooLarge` tells whether its magnitude
is beyond the range of double precision; such a number cannot be read at all.
-/

namespace Rulebook.Json

/-- A number as it is written. -/
structure Numeral where
  /-- The number begins with a minus sign. -/
  negative : Bool
  /-- The digits of the whole part; a zero in front stands alone. -/
  whole : List Char
  /-- The digits behind the point; without digits there is no point. -/
  fraction : List Char
  /-- The exponent: whether it is negative, and its digits. -/
  exponent : Option (Bool × List Char)
  deriving DecidableEq, Repr

namespace Numeral

/-- The integer that is written, if the number is written as an integer and fits into 64 bits.
A negative zero does not count as an integer. -/
def toInt? (n : Numeral) : Option Int :=
  match n.fraction, n.exponent with
  | [], none =>
    let v := Text.value n.whole
    if n.negative then if 0 < v ∧ v ≤ Nat.pow 2 63 then some (-(v : Int)) else none
    else if v < UInt64.size then some v else none
  | _, _ => none

/-! ### The range of double precision -/

/-- The leading digits of a run that fit into an unsigned word of 64 bits, taken behind digits
worth `acc`, and how many digits were left over. Once a digit does not fit, no later one counts. -/
def leading (acc : Nat) : List Char → Nat × Nat
  | [] => (acc, 0)
  | d :: ds =>
    if 10 * acc + Text.digitValue d < UInt64.size then leading (10 * acc + Text.digitValue d) ds
    else (acc, ds.length + 1)

/-- The number as `significand * 10 ^ exponent`, with a significand of at most 64 bits. -/
def scientific (n : Numeral) : Nat × Int :=
  let (w, dropped) := leading 0 n.whole
  let (s, unread) := leading w n.fraction
  let written : Int := match n.exponent with
    | none => 0
    | some (true, ds) => -(Text.value ds : Int)
    | some (false, ds) => Text.value ds
  (s, (dropped : Int) - ((n.fraction.length - unread : Nat) : Int) + written)

/-- Rounds to 53 significant bits, a tie to the even neighbour. -/
def toDoublePrecision (m : Nat) : Nat :=
  let unit := Nat.pow 2 (m.log2 + 1 - 53)
  let q := m / unit
  let r := m % unit
  if 2 * r > unit || (2 * r = unit && q % 2 = 1) then (q + 1) * unit else q * unit

/-- The number is beyond the range of double precision: its significand and its power of ten, each
rounded to double precision, have a product that rounds to infinity. -/
def isTooLarge (n : Numeral) : Bool :=
  let (s, e) := n.scientific
  -- a significand below `2 ^ 64` is out of range only by a positive power of ten
  if s = 0 || e < 0 then false
  else if e > 308 then true
  -- the bound lies half way between the greatest number and `2 ^ 1024`
  else decide (Nat.pow 2 1024 - Nat.pow 2 970 ≤
    toDoublePrecision s * toDoublePrecision (Nat.pow 10 e.toNat))

end Numeral

end Rulebook.Json
