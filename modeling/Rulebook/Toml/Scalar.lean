import Rulebook.Settings.Setting
import Rulebook.Text.Parts
import Rulebook.Time.Calendar

/-!
# Scalars of TOML

Truth values, integers, floats, dates and times: everything that is written without quotes. A date
or a time becomes a text in one canonical form.
-/

namespace Rulebook.Toml

/-- The digits of a number, without the underscores that may stand between two digits. -/
def ungrouped? (isDigit : Char → Bool) : List Char → Option (List Char)
  | [] => none
  | [c] => if isDigit c then some [c] else none
  | c :: '_' :: cs => if isDigit c then (ungrouped? isDigit cs).map (c :: ·) else none
  | c :: cs => if isDigit c then (ungrouped? isDigit cs).map (c :: ·) else none

/-- The number of digits of a base. -/
def valueIn (base : Nat) (ds : List Char) : Nat :=
  ds.foldl (fun n d => base * n + (Text.hexDigit? d).getD 0) 0

/-- The character is a digit of a base. -/
def isDigitIn (base : Nat) (c : Char) : Bool :=
  (Text.hexDigit? c).any fun d => decide (d < base)

/-- An integer that fits into a signed word of 64 bits. -/
def integerOf? (i : Int) : Option Setting :=
  (Text.toInt64? i).map fun _ => .integer i

/-- The integer of a base. -/
def basedInteger? (base : Nat) (cs : List Char) : Option Setting :=
  ungrouped? (isDigitIn base) cs >>= fun ds => integerOf? (valueIn base ds)

/-- The digits of a whole number; a zero in front stands alone. -/
def wholeDigits? (cs : List Char) : Option (List Char) :=
  match cs with
  | '0' :: _ :: _ => none
  | cs => ungrouped? Text.isDigit cs

/-- The decimal integer that a word denotes. -/
def decimalInteger? (cs : List Char) : Option Setting := do
  let (negative, cs) := Text.cutSign cs
  let ds ← wholeDigits? cs
  integerOf? (Text.signed negative (Text.value ds))

/-- The integer that a word denotes. -/
def integer? : List Char → Option Setting
  | '0' :: 'x' :: cs => basedInteger? 16 cs
  | '0' :: 'o' :: cs => basedInteger? 8 cs
  | '0' :: 'b' :: cs => basedInteger? 2 cs
  | cs => decimalInteger? cs

/-- The float with digits before and behind the point and an exponent. A number beyond double
precision is none. -/
def floatOf? (negative : Bool) (whole fraction : List Char) (e : Int) : Option Setting :=
  match Binary64.ofDecimal negative (whole ++ fraction) (e - fraction.length) with
  | .infinite _ => none
  | x => some (.float x)

/-- The exponent that a word denotes. -/
def exponent? (cs : List Char) : Option Int := do
  let (negative, cs) := Text.cutSign cs
  let ds ← ungrouped? Text.isDigit cs
  return Text.signed negative (Text.value ds)

/-- The float that a word denotes. -/
def float? (cs : List Char) : Option Setting := do
  let (negative, cs) := Text.cutSign cs
  if cs = ['i', 'n', 'f'] then return .float (.infinite negative)
  else if cs = ['n', 'a', 'n'] then return .float .nan
  else
    let isE := fun c : Char => c = 'e' || c = 'E'
    let mantissa := cs.takeWhile fun c => !isE c
    let power := cs.drop mantissa.length
    let whole := mantissa.takeWhile (· ≠ '.')
    let places := mantissa.drop whole.length
    let wholeDigits ← wholeDigits? whole
    let e ← match power with
      | [] => some 0
      | _ :: cs => exponent? cs
    -- without a point and without an exponent it would be an integer
    match places, power with
    | [], [] => none
    | [], _ => floatOf? negative wholeDigits [] e
    | _ :: cs, _ =>
      let digits ← ungrouped? Text.isDigit cs
      floatOf? negative wholeDigits digits e

/-! ### Dates and times -/

/-- Reads a number of a fixed width that lies between two bounds. -/
def takeFixed (width least greatest : Nat) (cs : List Char) : Option (Nat × List Char) := do
  let n ← Text.natOfDigits? (cs.take width)
  if (cs.take width).length = width ∧ least ≤ n ∧ n ≤ greatest then
    return (n, cs.drop width)
  else none

/-- Reads one of several characters. -/
def takeOneOf (marks : List Char) : List Char → Option (List Char)
  | c :: cs => if marks.contains c then some cs else none
  | [] => none

/-- Reads a date, and gives its text. -/
def takeDate (cs : List Char) : Option (String × List Char) := do
  let (year, cs) ← takeFixed 4 0 9999 cs
  let cs ← takeOneOf ['-'] cs
  let (month, cs) ← takeFixed 2 1 12 cs
  let cs ← takeOneOf ['-'] cs
  let (day, cs) ← takeFixed 2 1 (Time.daysInMonth year month) cs
  return (Text.padded 4 year ++ "-" ++ Text.padded 2 month ++ "-" ++ Text.padded 2 day, cs)

/-- Reads the fraction of a second; nine digits of it count. -/
def takeFraction : List Char → Option (String × List Char)
  | '.' :: cs =>
    let ds := cs.takeWhile Text.isDigit
    let kept := Text.dropEndWhile (· = '0') (ds.take 9)
    if ds.isEmpty then none
    else some ("." ++ String.ofList (if kept.isEmpty then ['0'] else kept), cs.drop ds.length)
  | cs => some ("", cs)

/-- Reads a time, and gives its text. The seconds may be left out. -/
def takeTime (cs : List Char) : Option (String × List Char) := do
  let (hour, cs) ← takeFixed 2 0 23 cs
  let cs ← takeOneOf [':'] cs
  let (minute, cs) ← takeFixed 2 0 59 cs
  let text := Text.padded 2 hour ++ ":" ++ Text.padded 2 minute
  match cs with
  | ':' :: cs =>
    let (second, cs) ← takeFixed 2 0 60 cs
    let (fraction, cs) ← takeFraction cs
    return (text ++ ":" ++ Text.padded 2 second ++ fraction, cs)
  | cs => return (text, cs)

/-- Reads a distance to universal time, and gives its text. -/
def takeOffset (cs : List Char) : Option (String × List Char) := do
  match cs with
  | [] => return ("", [])
  | c :: cs =>
    if c = 'Z' ∨ c = 'z' then return ("Z", cs)
    else if c = '+' ∨ c = '-' then
      let (hour, cs) ← takeFixed 2 0 23 cs
      let cs ← takeOneOf [':'] cs
      let (minute, cs) ← takeFixed 2 0 59 cs
      let sign := if c = '-' ∧ 0 < hour + minute then "-" else "+"
      return (sign ++ Text.padded 2 hour ++ ":" ++ Text.padded 2 minute, cs)
    else none

/-- The date or time that a word denotes. -/
def moment? (cs : List Char) : Option Setting :=
  match takeDate cs with
  | some (date, []) => some (.text date)
  | some (date, cs) => do
    let cs ← takeOneOf ['T', 't', ' '] cs
    let (time, cs) ← takeTime cs
    let (offset, cs) ← takeOffset cs
    if cs.isEmpty then return .text (date ++ "T" ++ time ++ offset) else none
  | none =>
    match takeTime cs with
    | some (time, []) => some (.text time)
    | _ => none

/-! ### Words -/

/-- A character of a word. -/
def isWordChar (c : Char) : Bool :=
  c.isAlphanum || ['+', '-', '_', '.', ':'].contains c

/-- Reads a word. The space between a date and a time does not end it. -/
def takeWord (cs : List Char) : List Char × List Char :=
  let word := cs.takeWhile isWordChar
  let rest := cs.drop word.length
  match takeDate word, rest with
  | some (_, []), ' ' :: c :: cs =>
    -- a digit behind the space means that a time follows
    if Text.isDigit c then
      let time := (c :: cs).takeWhile isWordChar
      (word ++ ' ' :: time, (c :: cs).drop time.length)
    else (word, rest)
  | _, _ => (word, rest)

/-- The scalar that a word denotes. -/
def scalar? (word : List Char) : Option Setting :=
  if word = ['t', 'r', 'u', 'e'] then some (.flag true)
  else if word = ['f', 'a', 'l', 's', 'e'] then some (.flag false)
  else ((integer? word).or (float? word)).or (moment? word)

end Rulebook.Toml
