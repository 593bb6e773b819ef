import Rulebook.Evaluation
import Rulebook.ParseError
import Rulebook.Exchange.Transport

/-!
# Everything that can be wrong with a rule

The faults of reading, combining, restoring and evaluating rules, gathered in one type for those who
do several of these. `code` names the kind of fault, `message` describes it.
-/

namespace Rulebook

/-- A fault in handling rules. -/
inductive RuleError where
  /-- A rule cannot be read. -/
  | parse (e : ParseError)
  /-- A rule has no value. -/
  | eval (e : EvalError)
  /-- One of several rules cannot be read. -/
  | invalidRule (rule : String) (e : ParseError)
  /-- There are no rules to combine. -/
  | noRules
  /-- A node in transit is no tree. -/
  | illFormed (fault : TransportFault)
  /-- A JSON text is no node in transit. -/
  | json (fault : Json.Fault)
  deriving DecidableEq, Repr

namespace RuleError

/-- The name of the kind of fault. -/
def code : RuleError → String
  | .parse e => e.code
  | .eval e => e.code
  | .invalidRule _ e => e.code
  | .noRules => "NO_RULES"
  | .illFormed _ => "INVALID_AST"
  | .json _ => "JSON_ERROR"

/-- What is said of a JSON text that cannot be read. The reader's own message also names what it
found instead and the line and column where it did; it is not kept, and these two texts, made up for
the purpose, stand for all that it may say of a fault of either kind. -/
def jsonText : Json.Fault → String
  | .malformed => "malformed text"
  | .misshapen => "unexpected shape"

/-- The sentence that describes the fault. -/
def message : RuleError → String
  | .parse e => "规则解析失败: " ++ e.message
  | .eval e => "规则执行失败: " ++ e.message
  | .invalidRule rule e => "规则 '" ++ rule ++ "' 无效: " ++ e.message
  | .noRules => "没有可组合的规则"
  | .illFormed fault => "无效的语法树结构: " ++ fault.message
  | .json fault => "JSON 序列化错误: " ++ jsonText fault

end RuleError

namespace Transport

/-- The tree that a node in transit stands for, with the fault of a rule. -/
def restore (t : Transport) : Except RuleError Tree :=
  t.toTree.mapError .illFormed

/-- The tree that a JSON text stands for. -/
def treeOfText (text : String) : Except RuleError Tree := do
  let t ← (ofText text).mapError .json
  t.restore

/-- The tree that a JSON value stands for. -/
def treeOfJson (v : Json) : Except RuleError Tree := do
  let t ← (ofJson v).mapError .json
  t.restore

end Transport

end Rulebook
