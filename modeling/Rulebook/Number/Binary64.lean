import Rulebook.Text.Numeral

/-!
# Numbers of double precision

Numbers with 53 significant bits, in exact arithmetic. `ofRatio` rounds a fraction to the nearest
such number, a tie going to the even significand, and `ofDecimal` does so for a decimal. `round`
goes to whole numbers, a half going away from zero, and stays within an unsigned word of 64 bits.
-/

namespace Rulebook

/-- A number of double precision. -/
inductive Binary64 where
  | nan
  | infinite (negative : Bool)
  /-- The number `significand * 2 ^ exponent`. -/
  | finite (negative : Bool) (significand : Nat) (exponent : Int)
  deriving DecidableEq, Repr

namespace Binary64

/-- The exponent of the smallest numbers. -/
def minExponent : Int := -1074

/-- The exponent of the greatest numbers. -/
def maxExponent : Int := 971

/-- Zero. -/
def zero (negative : Bool) : Binary64 := .finite negative 0 minExponent

/-- A quotient rounded to a whole number, a tie going to the even one. -/
def roundQuotient (num den : Nat) : Nat :=
  let q := num / den
  let r := num % den
  if den < 2 * r || (2 * r = den && q % 2 = 1) then q + 1 else q

/-- A fraction divided by a power of two. -/
def scale (num den : Nat) (e : Int) : Nat × Nat :=
  (num * Nat.pow 2 (-e).toNat, den * Nat.pow 2 e.toNat)

/-- The exponent at which a fraction has 53 significant bits, or the least one there is. -/
def exponentOf (num den : Nat) : Int :=
  let top : Int := (num.log2 : Int) - den.log2
  -- the quotient lies between the powers with the exponents `top - 1` and `top + 1`
  let (n, d) := scale num den top
  max minExponent (if n < d then top - 53 else top - 52)

/-- The number of double precision that is nearest to a fraction. -/
def ofRatio (negative : Bool) (num den : Nat) : Binary64 :=
  if num = 0 then zero negative
  else
    let e := exponentOf num den
    let (n, d) := scale num den e
    let m := roundQuotient n d
    -- rounding up may reach the next power of two
    let (m, e) := if m = Nat.pow 2 53 then (Nat.pow 2 52, e + 1) else (m, e)
    if maxExponent < e then .infinite negative
    else if m = 0 then zero negative
    else .finite negative m e

/-- The number of double precision that is nearest to `digits * 10 ^ e`. What is far out of range is
not worked out. -/
def ofDecimal (negative : Bool) (digits : List Char) (e : Int) : Binary64 :=
  let n := Text.value digits
  if n = 0 then zero negative
  -- here the decimal is at least `10 ^ 401`, and in the next case below `10 ^ (-400)`
  else if 400 < e then .infinite negative
  else if e + digits.length < -400 then zero negative
  else ofRatio negative (n * Nat.pow 10 e.toNat) (Nat.pow 10 (-e).toNat)

/-- The greatest unsigned word of 64 bits. -/
def maxWord : Nat := UInt64.size - 1

/-- The nearest unsigned word, a half going away from zero. -/
def round : Binary64 → Nat
  | .nan => 0
  | .infinite negative => if negative then 0 else maxWord
  | .finite negative m e =>
    if negative then 0
    else
      let (n, d) := (m * Nat.pow 2 e.toNat, Nat.pow 2 (-e).toNat)
      -- half a unit more, rounded down
      min maxWord ((2 * n + d) / (2 * d))

/-- The number is zero, with either sign. -/
def isZero : Binary64 → Bool
  | .finite _ m _ => m = 0
  | _ => false

/-! ### Reading -/

/-- The number that a decimal with an optional point and exponent denotes. There is at least one
digit before the exponent. -/
def ofUnsigned? (negative : Bool) (cs : List Char) : Option Binary64 :=
  let whole := cs.takeWhile Text.isDigit
  let rest := cs.drop whole.length
  let fraction := match rest with
    | '.' :: cs => cs.takeWhile Text.isDigit
    | _ => []
  let rest := match rest with
    | '.' :: cs => cs.drop fraction.length
    | cs => cs
  if whole.isEmpty && fraction.isEmpty then none
  else match rest with
    | [] => some (ofDecimal negative (whole ++ fraction) (-fraction.length))
    | c :: cs =>
      if c = 'e' ∨ c = 'E' then
        (Text.intOfNumeral? cs).map fun e =>
          ofDecimal negative (whole ++ fraction) (e - fraction.length)
      else none

/-- The number that a text without its sign denotes. -/
def ofMagnitude? (negative : Bool) (cs : List Char) : Option Binary64 :=
  let word := String.ofList (cs.map Char.toLower)
  if word = "nan" then some .nan
  else if word = "inf" ∨ word = "infinity" then some (.infinite negative)
  else ofUnsigned? negative cs

/-- The number that a text denotes. -/
def ofText? (cs : List Char) : Option Binary64 :=
  let (negative, cs) := Text.cutSign cs
  ofMagnitude? negative cs

end Binary64

end Rulebook
