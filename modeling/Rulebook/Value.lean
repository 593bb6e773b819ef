import Rulebook.Text.Numeral

/-!
# Values

The values that attributes have and that rules evaluate to. Numbers are signed words of 64 bits;
there is no other kind of number, and no kind of value is ever converted into another.
-/

namespace Rulebook

/-- A value of an attribute or of a rule. -/
inductive Value where
  | boolean (b : Bool)
  | number (n : Int64)
  | string (s : String)
  | null
  deriving DecidableEq, Repr

/-- The kinds of values. -/
inductive ValueType where
  | boolean
  | number
  | string
  | null
  deriving DecidableEq, Repr

/-- The name of a kind of values. -/
def ValueType.name : ValueType → String
  | .boolean => "boolean"
  | .number => "number"
  | .string => "string"
  | .null => "null"

namespace Value

/-- The kind of a value. -/
def type : Value → ValueType
  | .boolean _ => .boolean
  | .number _ => .number
  | .string _ => .string
  | .null => .null

/-- How a value is shown: strings between single quotes, without escapes. -/
def text : Value → String
  | .boolean true => "true"
  | .boolean false => "false"
  | .number n => Text.ofInt64 n
  | .string s => "'" ++ s ++ "'"
  | .null => "null"

/-- The truth value, if the value is one. -/
def asBool? : Value → Option Bool
  | .boolean b => some b
  | _ => none

/-- A rule with this value matches: only the truth value `true` does. -/
def isMatch (v : Value) : Bool :=
  v.asBool? = some true

end Value

end Rulebook
