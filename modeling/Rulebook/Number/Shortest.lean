import Rulebook.Number.Binary64
import Rulebook.Text.Parts

/-!
# The shortest decimal of a number

A number of double precision is written with the fewest digits that read back as the same number.
The numbers that are read as `m * 2 ^ q` form an interval around it, with its ends if `m` is even.
Among the multiples of `10 ^ k` only the two neighbours of the number can lie in the interval unless
a coarser grid has one too; so the grids are tried from the coarsest on, and the first one with a
neighbour in the interval gives the digits. Of two such neighbours the nearer one is taken, and of
two equally near ones the greater.

The digits are written out without an exponent.
-/

namespace Rulebook.Binary64

/-- The numbers around `m * 2 ^ q` that are read as it, in quarters of `2 ^ q`. -/
structure Neighbourhood where
  least : Nat
  centre : Nat
  greatest : Nat
  /-- The ends belong to it. -/
  closed : Bool
  deriving DecidableEq, Repr

/-- The numbers that are read as `m * 2 ^ q`. Below a power of two they are half as dense. -/
def neighbourhood (m : Nat) (q : Int) : Neighbourhood where
  least := if m = Nat.pow 2 52 ∧ minExponent < q then 4 * m - 1 else 4 * m - 2
  centre := 4 * m
  greatest := 4 * m + 2
  closed := m % 2 = 0

/-- A power of ten in quarters of `2 ^ q`, as a fraction. -/
def gridStep (k q : Int) : Nat × Nat :=
  (Nat.pow 10 k.toNat * Nat.pow 2 (2 - q).toNat, Nat.pow 10 (-k).toNat * Nat.pow 2 (q - 2).toNat)

/-- The multiple of a grid step is positive and lies in the neighbourhood. -/
def Neighbourhood.holds (n : Neighbourhood) (step : Nat × Nat) (digits : Nat) : Bool :=
  let x := digits * step.1
  digits ≠ 0 &&
    if n.closed then decide (n.least * step.2 ≤ x) && decide (x ≤ n.greatest * step.2)
    else decide (n.least * step.2 < x) && decide (x < n.greatest * step.2)

/-- The multiple of a grid step that stands for the neighbourhood, if there is one. -/
def Neighbourhood.onGrid? (n : Neighbourhood) (step : Nat × Nat) : Option Nat :=
  let v := n.centre * step.2
  let below := v / step.1
  let above := below + 1
  match n.holds step below, n.holds step above with
  -- the nearer one, and of two equally near ones the greater
  | true, true => if v - below * step.1 < above * step.1 - v then some below else some above
  | true, false => some below
  | false, true => some above
  | false, false => none

/-- The grids from `10 ^ k` down, as many as the first argument says. -/
def searchGrids (n : Neighbourhood) (q : Int) : Nat → Int → Nat × Int
  | 0, k => (n.centre, k)
  | fuel + 1, k =>
    match n.onGrid? (gridStep k q) with
    | some digits => (digits, k)
    | none => searchGrids n q fuel (k - 1)

/-- The shortest decimal `digits * 10 ^ k` that is read as `m * 2 ^ q`. The greatest number is below
`10 ^ 309`, and 17 digits always suffice. -/
def shortest (m : Nat) (q : Int) : Nat × Int :=
  searchGrids (neighbourhood m q) q 660 309

/-- The decimal `digits * 10 ^ k` without an exponent. -/
def positional (digits : Nat) (k : Int) : String :=
  if 0 ≤ k then Nat.repr (digits * Nat.pow 10 k.toNat)
  else
    let places := (-k).toNat
    let cs := (Text.padded (places + 1) digits).toList
    let whole := cs.take (cs.length - places)
    -- a coarse grid may end in zeros, which say nothing
    let fraction := Text.dropEndWhile (· = '0') (cs.drop (cs.length - places))
    String.ofList (if fraction.isEmpty then whole else whole ++ '.' :: fraction)

/-- The text of a number. -/
def text : Binary64 → String
  | .nan => "NaN"
  | .infinite negative => if negative then "-inf" else "inf"
  | .finite negative m q =>
    let sign := if negative then "-" else ""
    if m = 0 then sign ++ "0"
    else
      let (digits, k) := shortest m q
      sign ++ positional digits k

end Rulebook.Binary64
