/-!
# Numerals

Decimal numerals as people write them: a run of the ten ASCII digits, with or without a sign. A
numeral is first read exactly, as a natural number or an integer, and only then held against the
range of a word, so that nothing ever wraps around.

`int64?` reads a signed numeral that fits into 64 bits; `natOfDigits?` is the unsigned reading that
everything else is built from.
-/

namespace Rulebook.Text

/-- One of the ten ASCII digits. -/
def isDigit (c : Char) : Bool :=
  decide ('0' ≤ c) && decide (c ≤ '9')

/-- The value of a digit. -/
def digitValue (c : Char) : Nat :=
  c.toNat - '0'.toNat

/-- The value of a hexadecimal digit. -/
def hexDigit? (c : Char) : Option Nat :=
  if '0' ≤ c ∧ c ≤ '9' then some (c.toNat - '0'.toNat)
  else if 'a' ≤ c ∧ c ≤ 'f' then some (c.toNat - 'a'.toNat + 10)
  else if 'A' ≤ c ∧ c ≤ 'F' then some (c.toNat - 'A'.toNat + 10)
  else none

/-- The value of a run of digits that follows digits worth `acc`. -/
def valueFrom (acc : Nat) (ds : List Char) : Nat :=
  ds.foldl (fun n c => 10 * n + digitValue c) acc

/-- The value of a run of digits. -/
def value (ds : List Char) : Nat :=
  valueFrom 0 ds

/-- The value of a text that holds at least one digit and nothing but digits. -/
def natOfDigits? (cs : List Char) : Option Nat :=
  if cs.isEmpty then none else if cs.all isDigit then some (value cs) else none

/-- Whether a text begins with a minus, and the text without the one sign that it may begin with. -/
def cutSign : List Char → Bool × List Char
  | '-' :: cs => (true, cs)
  | '+' :: cs => (false, cs)
  | cs => (false, cs)

/-- An integer by its sign and its magnitude. -/
def signed (negative : Bool) (n : Nat) : Int :=
  if negative then -n else n

/-- The value of a run of digits that a single sign may precede. -/
def intOfNumeral? (cs : List Char) : Option Int :=
  let (negative, cs) := cutSign cs
  (natOfDigits? cs).map (signed negative)

/-- The value of a run of digits that only a plus sign may precede. -/
def unsigned? : List Char → Option Nat
  | '+' :: cs => natOfDigits? cs
  | cs => natOfDigits? cs

/-- The integer as a signed word of 64 bits, if it is in range. -/
def toInt64? (i : Int) : Option Int64 :=
  if Int64.minValue.toInt ≤ i ∧ i ≤ Int64.maxValue.toInt then some (Int64.ofInt i) else none

/-- The signed word that a numeral denotes, if it denotes one. -/
def int64? (cs : List Char) : Option Int64 :=
  intOfNumeral? cs >>= toInt64?

/-- The unsigned number that a numeral denotes, if it is below the bound. -/
def natBelow? (bound : Nat) (cs : List Char) : Option Nat :=
  unsigned? cs >>= fun n => if n < bound then some n else none

/-- The decimal digits of a number, at least `width` of them, with zeros in front. -/
def padded (width n : Nat) : String :=
  let digits := Nat.repr n
  String.ofList (List.replicate (width - digits.length) '0') ++ digits

/-- The canonical text of a signed word. -/
def ofInt64 (i : Int64) : String :=
  match i.toInt with
  | .ofNat n => Nat.repr n
  | .negSucc n => "-" ++ Nat.repr (n + 1)

/-- The canonical text of an integer. -/
def ofInt : Int → String
  | .ofNat n => Nat.repr n
  | .negSucc n => "-" ++ Nat.repr (n + 1)

@[simp]
theorem value_nil : value [] = 0 := rfl

theorem valueFrom_cons (acc : Nat) (c : Char) (ds : List Char) :
    valueFrom acc (c :: ds) = valueFrom (10 * acc + digitValue c) ds := by
  rw [valueFrom, List.foldl_cons, ← valueFrom]

@[simp]
theorem natOfDigits?_nil : natOfDigits? [] = none := rfl

theorem natOfDigits?_of_digits {cs : List Char} (hne : cs ≠ []) (hd : cs.all isDigit = true) :
    natOfDigits? cs = some (value cs) := by
  cases cs with
  | nil => exact absurd rfl hne
  | cons c cs => simp [natOfDigits?, hd]

end Rulebook.Text
