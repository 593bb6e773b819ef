import Rulebook.Text.Escape
import Rulebook.Http.Message
import Rulebook.Text.Parts

/-!
# Routes

A path is cut at its slashes, and the parts name a `Resource`. Names stand before numbers: the path
`/api/rules/combine` is never read as that of a rule. A resource and a method together name an
`Action`; a resource that can be fetched can also be asked for the head of the answer alone. The
number of a rule stays text until the action is known, because what is wrong with the method is
found before what is wrong with the number.
-/

namespace Rulebook.Http

/-- What a path names. -/
inductive Resource where
  | health
  | rules
  | combination
  | evaluation
  | rule (number : List Char)
  | ruleEvaluation (number : List Char)
  deriving DecidableEq, Repr

/-- What a request asks for. -/
inductive Action where
  | checkHealth
  | listRules
  | createRule
  | combineRules
  | evaluateTree
  | getRule (id : Int64)
  | updateRule (id : Int64)
  | deleteRule (id : Int64)
  | evaluateRule (id : Int64)
  deriving DecidableEq, Repr

/-- The path of a target, without query and fragment. -/
def pathOf (target : List Char) : List Char :=
  target.takeWhile fun c => c ≠ '?' && c ≠ '#'

/-- The resource that a path names. -/
def Resource.ofPath? (path : String) : Option Resource :=
  match (Text.parts '/' (pathOf path.toList)).map String.ofList with
  | ["", "health"] => some .health
  | ["", "api", "rules"] => some .rules
  | ["", "api", "rules", "combine"] => some .combination
  | ["", "api", "rules", "evaluate"] => some .evaluation
  | ["", "api", "rules", number] => if number.isEmpty then none else some (.rule number.toList)
  | ["", "api", "rules", number, "evaluate"] =>
    if number.isEmpty then none else some (.ruleEvaluation number.toList)
  | _ => none

/-- The number of a rule in a path. -/
def ruleNumber (number : List Char) : Except Refusal Int64 :=
  match Text.int64? (Text.unescape number) with
  | some id => .ok id
  | none => .error .unusableNumber

/-- The action that a method names at a resource. -/
def Resource.action (resource : Resource) (method : String) : Except Refusal Action :=
  let fetches := method = "GET" || method = "HEAD"
  match resource with
  | .health => if fetches then .ok .checkHealth else .error .unknownMethod
  | .rules =>
    if fetches then .ok .listRules
    else if method = "POST" then .ok .createRule
    else .error .unknownMethod
  | .combination => if method = "POST" then .ok .combineRules else .error .unknownMethod
  | .evaluation => if method = "POST" then .ok .evaluateTree else .error .unknownMethod
  | .rule number =>
    if fetches then (ruleNumber number).map .getRule
    else if method = "PUT" then (ruleNumber number).map .updateRule
    else if method = "DELETE" then (ruleNumber number).map .deleteRule
    else .error .unknownMethod
  | .ruleEvaluation number =>
    if method = "POST" then (ruleNumber number).map .evaluateRule else .error .unknownMethod

/-- The action that a request asks for. -/
def Request.action (r : Request) : Except Refusal Action :=
  match Resource.ofPath? r.path with
  | some resource => resource.action r.method
  | none => .error .unknownPath

end Rulebook.Http
