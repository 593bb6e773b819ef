import Rulebook.Text.Numeral
import Rulebook.Time.Calendar

/-!
# Instants

An instant is a number of seconds since 1970-01-01T00:00:00 in universal time, and nanoseconds
behind it. A leap second is the second before it, with a thousand million nanoseconds more.

`Instant.text` writes an instant as in `2024-01-02T03:04:05.120Z`, with the fewest of 0, 3, 6 or 9
digits behind the seconds that are exact.
-/

namespace Rulebook.Time

/-- A point in time. -/
structure Instant where
  /-- Seconds since the beginning of 1970. -/
  seconds : Int
  /-- Nanoseconds behind the second, `10 ^ 9` and more within a leap second. -/
  nanos : Nat
  deriving DecidableEq, Repr

/-- Seconds of a day. -/
def secondsPerDay : Int := 86400

/-- Nanoseconds of a second. -/
def nanosPerSecond : Nat := 1000000000

/-- The text of a year: four digits, and a sign if that is not enough. -/
def yearText (y : Int) : String :=
  if 0 ≤ y ∧ y ≤ 9999 then Text.padded 4 y.toNat
  else (if y < 0 then "-" else "+") ++ Text.padded 4 y.natAbs

/-- The text of a fraction of a second. -/
def fractionText (nanos : Nat) : String :=
  if nanos = 0 then ""
  else if nanos % 1000000 = 0 then "." ++ Text.padded 3 (nanos / 1000000)
  else if nanos % 1000 = 0 then "." ++ Text.padded 6 (nanos / 1000)
  else "." ++ Text.padded 9 nanos

/-- The text of a date. -/
def Date.text (d : Date) : String :=
  yearText d.year ++ "-" ++ Text.padded 2 d.month ++ "-" ++ Text.padded 2 d.day

namespace Instant

/-- The text of an instant. -/
def text (i : Instant) : String :=
  let date := Date.ofDayNumber (i.seconds / secondsPerDay)
  let s := (i.seconds % secondsPerDay).toNat
  let leap := i.nanos / nanosPerSecond
  date.text ++ "T" ++ Text.padded 2 (s / 3600) ++ ":" ++ Text.padded 2 (s / 60 % 60) ++ ":" ++
    Text.padded 2 (s % 60 + leap) ++ fractionText (i.nanos % nanosPerSecond) ++ "Z"

end Instant

end Rulebook.Time
