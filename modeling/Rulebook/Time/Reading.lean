import Rulebook.Text.Blank
import Rulebook.Time.Instant

/-!
# Reading instants

Instants are read in the relaxed form of RFC 3339. Date and time are separated by `T`, `t` or one
space; blanks may stand between the parts of each; month, day, hour, minute and second may have one
digit; a year may have a sign and then any number of digits. Of a fraction nine digits count. The
distance to universal time is `Z`, `z`, `UTC` in any case, or a sign, two digits of hours and two of
minutes, with or without a colon. A sixtieth second is a leap second, whatever the minute.
-/

namespace Rulebook.Time

/-- Reads a number of at least one digit and at most `width` of them. -/
def takeNumber (width : Nat) (cs : List Char) : Option (Nat × List Char) :=
  match (cs.take width).takeWhile Text.isDigit with
  | [] => none
  | ds => some (Text.value ds, cs.drop ds.length)

/-- Reads a number behind blanks, if it lies between two bounds. -/
def takeField (width least greatest : Nat) (cs : List Char) : Option (Nat × List Char) := do
  let (n, cs) ← takeNumber width (Text.skipBlank cs)
  if least ≤ n ∧ n ≤ greatest then return (n, cs) else none

/-- Reads a mark behind blanks. -/
def takeMark (mark : Char) (cs : List Char) : Option (List Char) :=
  match Text.skipBlank cs with
  | [] => none
  | c :: cs => if c = mark then some cs else none

/-- The years that instants may have. -/
def isYear (y : Int) : Bool :=
  decide (-262143 ≤ y) && decide (y ≤ 262142)

/-- Reads a year: four digits, or a sign and any number of them. -/
def takeYear (cs : List Char) : Option (Int × List Char) := do
  let (y, rest) ← match Text.skipBlank cs with
    | '-' :: cs => (takeNumber cs.length cs).map fun r => (-(r.1 : Int), r.2)
    | '+' :: cs => (takeNumber cs.length cs).map fun r => ((r.1 : Int), r.2)
    | cs => (takeNumber 4 cs).map fun r => ((r.1 : Int), r.2)
  if isYear y then return (y, rest) else none

/-- Reads a date. -/
def takeDate (cs : List Char) : Option (Date × List Char) := do
  let (year, cs) ← takeYear cs
  let cs ← takeMark '-' cs
  let (month, cs) ← takeField 2 1 12 cs
  let cs ← takeMark '-' cs
  let (day, cs) ← takeField 2 1 31 cs
  let date : Date := ⟨year, month, day⟩
  if date.isValid then return (date, cs) else none

/-- Reads a point and a fraction, if there is a point; the fraction is given in nanoseconds. -/
def takeFraction : List Char → Option (Nat × List Char)
  | '.' :: cs =>
    match cs.takeWhile Text.isDigit with
    | [] => none
    -- fewer than nine digits are filled up, and more are passed over
    | ds => some (Text.value (ds.take 9) * Nat.pow 10 (9 - ds.length), cs.drop ds.length)
  | cs => some (0, cs)

/-- Reads a time of day: its seconds, and the nanoseconds behind them. -/
def takeTime (cs : List Char) : Option ((Nat × Nat) × List Char) := do
  let (hour, cs) ← takeField 2 0 23 cs
  let cs ← takeMark ':' cs
  let (minute, cs) ← takeField 2 0 59 cs
  let cs ← takeMark ':' cs
  let (second, cs) ← takeField 2 0 60 cs
  let (nanos, cs) ← takeFraction cs
  -- a leap second belongs to the second before it
  let leap := if second = 60 then 1 else 0
  return ((hour * 3600 + minute * 60 + (second - leap), nanos + leap * nanosPerSecond), cs)

/-- Reads a number of exactly two digits. -/
def takeTwoDigits : List Char → Option (Nat × List Char)
  | a :: b :: cs =>
    if Text.isDigit a && Text.isDigit b then some (Text.value [a, b], cs) else none
  | _ => none

/-- Reads the distance to universal time, in seconds. -/
def takeOffset (cs : List Char) : Option (Int × List Char) :=
  let signed (sign : Int) (cs : List Char) : Option (Int × List Char) := do
    let (hours, cs) ← takeTwoDigits cs
    let (minutes, cs) ← takeTwoDigits (cs.dropWhile fun c => c = ':' || Text.isBlank c)
    if hours < 24 ∧ minutes < 60 then
      return (sign * ((hours * 3600 + minutes * 60 : Nat) : Int), cs)
    else none
  match cs with
  | 'Z' :: cs => some (0, cs)
  | 'z' :: cs => some (0, cs)
  | '+' :: cs => signed 1 cs
  | '-' :: cs => signed (-1) cs
  -- the minus sign proper, beside the hyphen
  | '\u2212' :: cs => signed (-1) cs
  | u :: t :: c :: cs =>
    if u.toUpper = 'U' ∧ t.toUpper = 'T' ∧ c.toUpper = 'C' then some (0, cs) else none
  | _ => none

/-- Reads what separates the date from the time. -/
def takeSeparator : List Char → Option (List Char)
  | 'T' :: cs => some cs
  | 't' :: cs => some cs
  | ' ' :: cs => some cs
  | _ => none

/-- The instant that a text denotes. -/
def Instant.ofText? (text : String) : Option Instant := do
  let (date, cs) ← takeDate text.toList
  let cs ← takeSeparator cs
  let ((second, nanos), cs) ← takeTime cs
  let (offset, cs) ← takeOffset (Text.skipBlank cs)
  let seconds := date.dayNumber * secondsPerDay + second - offset
  if cs.isEmpty && isYear (Date.ofDayNumber (seconds / secondsPerDay)).year then
    return ⟨seconds, nanos⟩
  else none

end Rulebook.Time
