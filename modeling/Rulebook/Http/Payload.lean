import Rulebook.Exchange.Values
import Rulebook.Http.MediaType
import Rulebook.Http.Message

/-!
# Payloads

What the bodies of requests say. Each kind of payload is a record that is read from JSON; the
demands on its fields are checked when it has been read as a whole, and all that are not met are
reported together. Lengths are counted in characters.
-/

namespace Rulebook.Http

/-- A demand on a field that is not met. -/
structure Unmet where
  field : String
  demand : String
  deriving DecidableEq, Repr

/-- The line that reports an unmet demand. -/
def Unmet.text (u : Unmet) : String :=
  u.field ++ ": " ++ u.demand

/-- Demands that a quantity lies between two bounds. -/
def demandBetween (least greatest : Nat) (field demand : String) (n : Nat) : List Unmet :=
  if least ≤ n ∧ n ≤ greatest then [] else [⟨field, demand⟩]

/-- Demands that a field is there. -/
def demandPresent {α : Type} (field demand : String) : Option α → List Unmet
  | some _ => []
  | none => [⟨field, demand⟩]

/-- The greatest length of a rule. -/
def maxRuleLength : Nat := 4096

/-- The demand on the text of a rule. -/
def demandRule (rule : String) : List Unmet :=
  demandBetween 1 maxRuleLength "rule" "规则字符串不能为空且不能超过 4096 个字符" rule.length

/-- The demand on the name of a rule, if it has one. -/
def demandName : Option String → List Unmet
  | some name => demandBetween 1 100 "name" "规则名称长度必须在1-100个字符之间" name.length
  | none => []

/-- The demand on a context. -/
def demandContext : Option Context → List Unmet :=
  demandPresent "context" "求值需要提供上下文"

/-- A rule to create. -/
structure Creation where
  rule : String
  name : Option String

namespace Creation

/-- The fields of a creation. -/
def slots : List (Json.Slot Creation) :=
  [⟨"rule", .required, fun p d => return { p with rule := ← Json.readText d }⟩,
   ⟨"name", .nullable, fun p d => return { p with name := ← Json.readOptional Json.readText d }⟩]

/-- Reads a creation. -/
def read (depth : Nat) : Json.Document → Except Json.Fault Creation :=
  Json.record depth (fun _ => slots) ⟨"", none⟩

/-- The demands that are not met. -/
def unmet (p : Creation) : List Unmet :=
  demandRule p.rule ++ demandName p.name

end Creation

/-- A new text of a rule. -/
structure Revision where
  rule : String

namespace Revision

/-- The fields of a revision. -/
def slots : List (Json.Slot Revision) :=
  [⟨"rule", .required, fun _ d => return { rule := ← Json.readText d }⟩]

/-- Reads a revision. -/
def read (depth : Nat) : Json.Document → Except Json.Fault Revision :=
  Json.record depth (fun _ => slots) ⟨""⟩

/-- The demands that are not met. -/
def unmet (p : Revision) : List Unmet :=
  demandRule p.rule

end Revision

/-- Rules to combine. -/
structure Joining where
  rules : List String
  connective : Connective
  /-- The combined rule is to be stored. -/
  save : Bool
  name : Option String

namespace Joining

/-- The fields of a joining. -/
def slots (depth : Nat) : List (Json.Slot Joining) :=
  [⟨"rules", .required, fun p d => do
      let rules ← Json.readList depth (fun _ => Json.readText) d
      return { p with rules }⟩,
   ⟨"operator", .defaulted, fun p d => return { p with connective := ← Connective.read depth d }⟩,
   ⟨"save", .defaulted, fun p d => return { p with save := ← Json.readFlag d }⟩,
   ⟨"name", .nullable, fun p d => return { p with name := ← Json.readOptional Json.readText d }⟩]

/-- Reads a joining. -/
def read (depth : Nat) : Json.Document → Except Json.Fault Joining :=
  Json.record depth slots ⟨[], default, false, none⟩

/-- The demands that are not met. -/
def unmet (p : Joining) : List Unmet :=
  demandBetween 1 50 "rules" "规则条数必须在1-50之间" p.rules.length ++ demandName p.name

end Joining

/-- A tree to evaluate. The tree is any JSON value at first; whether it is a tree is asked only
when all demands are met. -/
structure TreeEvaluation where
  ast : Option Json
  context : Option Context
  traced : Bool

namespace TreeEvaluation

/-- The fields of the evaluation of a tree. -/
def slots (depth : Nat) : List (Json.Slot TreeEvaluation) :=
  [⟨"ast", .nullable, fun p d =>
      return { p with ast := ← Json.readOptional (Json.readAny depth) d }⟩,
   ⟨"context", .nullable, fun p d =>
      return { p with context := ← Json.readOptional (Context.read depth) d }⟩,
   ⟨"trace", .defaulted, fun p d => return { p with traced := ← Json.readFlag d }⟩]

/-- Reads the evaluation of a tree. -/
def read (depth : Nat) : Json.Document → Except Json.Fault TreeEvaluation :=
  Json.record depth slots ⟨none, none, false⟩

/-- The demands that are not met. -/
def unmet (p : TreeEvaluation) : List Unmet :=
  demandPresent "ast" "求值需要提供语法树" p.ast ++ demandContext p.context

end TreeEvaluation

/-- How to evaluate a rule in the store. -/
structure RuleEvaluation where
  context : Option Context
  traced : Bool

namespace RuleEvaluation

/-- The fields of the evaluation of a rule. -/
def slots (depth : Nat) : List (Json.Slot RuleEvaluation) :=
  [⟨"context", .nullable, fun p d =>
      return { p with context := ← Json.readOptional (Context.read depth) d }⟩,
   ⟨"trace", .defaulted, fun p d => return { p with traced := ← Json.readFlag d }⟩]

/-- Reads the evaluation of a rule. -/
def read (depth : Nat) : Json.Document → Except Json.Fault RuleEvaluation :=
  Json.record depth slots ⟨none, false⟩

/-- The demands that are not met. -/
def unmet (p : RuleEvaluation) : List Unmet :=
  demandContext p.context

end RuleEvaluation

/-! ### Bodies -/

/-- The greatest number of octets of a body. -/
def maxBodySize : Nat := 2 * 1024 * 1024

/-- The body of the request is said to be JSON. -/
def Request.isJson (r : Request) : Bool :=
  (r.contentType.bind MediaType.ofHeader?).any MediaType.isJson

/-- Reads the payload of a request. -/
def Request.payload {α : Type} (read : Nat → Json.Document → Except Json.Fault α) (r : Request) :
    Except Refusal α :=
  -- the header is looked at before the body
  if !r.isJson then .error .notJson
  else if maxBodySize < r.body.utf8ByteSize then .error .tooLong
  else (Json.readWhole (read Json.maxDepth) r.body).mapError .unreadable

end Rulebook.Http
