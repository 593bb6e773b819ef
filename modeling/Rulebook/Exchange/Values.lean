import Rulebook.Context
import Rulebook.Operator
import Rulebook.Json.Reader

/-!
# Values, contexts and connectives as JSON

A value is written as the JSON value of its kind. Reading takes any JSON value and then asks whether
it is one of a rule: of the numbers only integers that fit into a signed word of 64 bits are, and
arrays and objects are not. A context is an object of values; a connective is its symbol.
-/

namespace Rulebook

namespace Value

/-- A value as JSON. -/
def toJson : Value → Json
  | .boolean b => .boolean b
  | .number n => .int n.toInt
  | .string s => .string s
  | .null => .null

/-- The value that a JSON value denotes, if it denotes one. -/
def ofJson? : Json → Option Value
  | .null => some .null
  | .boolean b => some (.boolean b)
  | .number n => n.toInt? >>= fun i => (Text.toInt64? i).map .number
  | .string s => some (.string s)
  | .array _ => none
  | .object _ => none

/-- Reads a value. -/
def read (depth : Nat) (d : Json.Document) : Except Json.Fault Value := do
  let v ← Json.readAny depth d
  match ofJson? v with
  | some v => return v
  | none => throw .misshapen

end Value

namespace Context

/-- A context as JSON. -/
def toJson (c : Context) : Json :=
  .object (c.entries.map fun e => (e.1, e.2.toJson))

/-- Reads a context; of several values of one name the last counts. -/
def read (depth : Nat) : Json.Document → Except Json.Fault Context
  | .object members =>
    match depth with
    | 0 => .error .malformed
    | depth + 1 => Json.readEntries (Value.read depth) insert empty members
  | d => .error (Json.mismatch d)

/-- The context that a JSON text denotes. -/
def ofText (text : String) : Except Json.Fault Context :=
  Json.readWhole (read Json.maxDepth) text

end Context

/-- The value that a JSON text denotes. -/
def Value.ofText (text : String) : Except Json.Fault Value :=
  Json.readWhole (Value.read Json.maxDepth) text

namespace Connective

/-- A connective as JSON. -/
def toJson (c : Connective) : Json :=
  .string c.symbol

/-- Reads a connective. -/
def read (depth : Nat) : Json.Document → Except Json.Fault Connective :=
  Json.readVariant depth [(Connective.and.symbol, .and), (Connective.or.symbol, .or)]

/-- The connective that a JSON text denotes. -/
def ofText (text : String) : Except Json.Fault Connective :=
  Json.readWhole (read Json.maxDepth) text

end Connective

end Rulebook
