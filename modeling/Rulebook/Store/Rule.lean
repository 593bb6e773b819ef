import Rulebook.RuleError
import Rulebook.Time.Reading

/-!
# Stored rules

A rule as a store keeps it: numbered, perhaps named, with its text, its tree in transit and the
times of its first and its last change. `toJson` and `read` are its exchange form, `summary` the
form in which the service shows it.
-/

namespace Rulebook

/-- A rule in a store. -/
structure StoredRule where
  id : Int64
  name : Option String
  /-- The rule as it was written. -/
  text : String
  ast : Transport
  createdAt : Time.Instant
  updatedAt : Time.Instant

/-- Reads an instant. -/
def Time.Instant.read (d : Json.Document) : Except Json.Fault Time.Instant := do
  let text ← Json.readText d
  match Time.Instant.ofText? text with
  | some i => return i
  | none => throw .misshapen

namespace StoredRule

/-- The tree of a stored rule. -/
def tree (r : StoredRule) : Except RuleError Tree :=
  r.ast.restore

/-- The members of a stored rule, `textName` being the name under which its text goes. -/
def members (textName : String) (r : StoredRule) : List (String × Json) :=
  [("id", .int r.id.toInt), ("name", Json.optional r.name), (textName, .string r.text),
   ("ast", r.ast.toJson), ("createdAt", .string r.createdAt.text),
   ("updatedAt", .string r.updatedAt.text)]

/-- A stored rule as JSON. -/
def toJson (r : StoredRule) : Json :=
  .object (r.members "ruleString")

/-- A stored rule as the service shows it. -/
def summary (r : StoredRule) : Json :=
  .object (r.members "rule")

/-- A stored rule before any of its fields has been read. -/
def blank : StoredRule := ⟨0, none, "", Transport.blank, ⟨0, 0⟩, ⟨0, 0⟩⟩

/-- The fields of a stored rule. -/
def slots (depth : Nat) : List (Json.Slot StoredRule) :=
  [⟨"id", .required, fun r d => return { r with id := ← Json.readInt64 d }⟩,
   ⟨"name", .nullable, fun r d => return { r with name := ← Json.readOptional Json.readText d }⟩,
   ⟨"ruleString", .required, fun r d => return { r with text := ← Json.readText d }⟩,
   ⟨"ast", .required, fun r d => return { r with ast := ← Transport.read depth d }⟩,
   ⟨"createdAt", .required, fun r d => return { r with createdAt := ← Time.Instant.read d }⟩,
   ⟨"updatedAt", .required, fun r d => return { r with updatedAt := ← Time.Instant.read d }⟩]

/-- The stored rule that a JSON text denotes. -/
def ofText (text : String) : Except Json.Fault StoredRule :=
  Json.readWhole (Json.record Json.maxDepth slots blank) text

end StoredRule

end Rulebook
