/-!
# The calendar

Days are counted from 1970-01-01 in the proleptic Gregorian calendar. `dayNumber` counts the days of
a date and `date` finds the date of a day. Both work in eras of 400 years and in years that begin in
March, so that a leap day is the last day of its year.
-/

namespace Rulebook.Time

/-- A date of the calendar. -/
structure Date where
  year : Int
  month : Nat
  day : Nat
  deriving DecidableEq, Repr

/-- The year has a leap day. -/
def isLeapYear (y : Int) : Bool :=
  y % 4 = 0 && (y % 100 ≠ 0 || y % 400 = 0)

/-- The number of days of a month. -/
def daysInMonth (y : Int) (m : Nat) : Nat :=
  if m = 2 then if isLeapYear y then 29 else 28
  else if m = 4 ∨ m = 6 ∨ m = 9 ∨ m = 11 then 30
  else 31

/-- The date exists. -/
def Date.isValid (d : Date) : Bool :=
  decide (1 ≤ d.month) && decide (d.month ≤ 12) && decide (1 ≤ d.day) &&
    decide (d.day ≤ daysInMonth d.year d.month)

/-- The number of days of an era of 400 years. -/
def daysPerEra : Int := 146097

/-- The days between 0000-03-01 and 1970-01-01. -/
def daysBeforeEpoch : Int := 719468

/-- The days from 1970-01-01 to a date. -/
def Date.dayNumber (d : Date) : Int :=
  let y := if d.month ≤ 2 then d.year - 1 else d.year
  let era := y / 400
  let yearOfEra := y % 400
  let monthFromMarch : Int := ((d.month + 9) % 12 : Nat)
  let dayOfYear := (153 * monthFromMarch + 2) / 5 + d.day - 1
  era * daysPerEra + yearOfEra * 365 + yearOfEra / 4 - yearOfEra / 100 + dayOfYear - daysBeforeEpoch

/-- The date of a day, counted from 1970-01-01. -/
def Date.ofDayNumber (n : Int) : Date :=
  let z := n + daysBeforeEpoch
  let era := z / daysPerEra
  let dayOfEra := z % daysPerEra
  -- without the leap days before it, every year has 365 days
  let yearOfEra :=
    (dayOfEra - dayOfEra / 1460 + dayOfEra / 36524 - dayOfEra / 146096) / 365
  let dayOfYear := dayOfEra - (365 * yearOfEra + yearOfEra / 4 - yearOfEra / 100)
  -- from March on, the lengths of the months repeat every 153 days, which are five months
  let monthFromMarch := (5 * dayOfYear + 2) / 153
  let day := dayOfYear - (153 * monthFromMarch + 2) / 5 + 1
  let month := if monthFromMarch < 10 then monthFromMarch + 3 else monthFromMarch - 9
  let year := yearOfEra + era * 400
  ⟨if month ≤ 2 then year + 1 else year, month.toNat, day.toNat⟩

end Rulebook.Time
