import Rulebook.Token

/-!
# What can be wrong with a written rule

Every fault names the token at which reading stopped and, where the order of tokens is at fault,
the token before it. `code` is the name by which programs tell the faults apart and `message` the
sentence shown to people.
-/

namespace Rulebook

/-- The largest number of operators in a rule. It bounds the height of every tree. -/
def maxOperators : Nat := 100

/-- A fault in a written rule. Where a fault has a field `after`, it holds the token in front, or
nothing at the start of the rule. -/
inductive ParseError where
  /-- A word that is no token. -/
  | invalidToken (word : String)
  /-- The rule ends inside a group. -/
  | unclosedGroup
  /-- A closing parenthesis outside every group. -/
  | unopenedGroup
  /-- A group without content. -/
  | emptyGroup
  /-- A group begins where an operator is due. -/
  | unexpectedGroup (after : Option Token)
  /-- An operator where an operand is due. -/
  | unexpectedOperator (op : Operator) (after : Option Token)
  /-- An operand where an operator is due. -/
  | unexpectedOperand (text : String) (after : Option Token)
  /-- A rule without content. -/
  | emptyRule
  /-- A rule or a group ends with an operator. -/
  | incomplete (op : Operator)
  /-- More operators than `maxOperators`. -/
  | tooComplex
  deriving DecidableEq, Repr

namespace ParseError

/-- How a fault names the place behind a token. -/
def place : Option Token → String
  | none => "规则开头"
  | some t => t.text

/-- The name of the kind of fault. -/
def code : ParseError → String
  | .invalidToken _ => "INVALID_TOKEN"
  | .unclosedGroup => "UNMATCHED_OPEN_PAREN"
  | .unopenedGroup => "UNMATCHED_CLOSE_PAREN"
  | .emptyGroup => "UNEXPECTED_CLOSE_PAREN"
  | .unexpectedGroup _ => "UNEXPECTED_OPEN_PAREN"
  | .unexpectedOperator (.logical _) _ => "UNEXPECTED_OPERATOR"
  | .unexpectedOperator (.relating _) _ => "UNEXPECTED_COMPARISON_OPERATOR"
  | .unexpectedOperand _ _ => "UNEXPECTED_OPERAND"
  | .emptyRule => "EMPTY_RULE"
  | .incomplete _ => "INCOMPLETE_EXPRESSION"
  | .tooComplex => "RULE_TOO_DEEP"

/-- The sentence that describes the fault. -/
def message : ParseError → String
  | .invalidToken word => "规则中存在无效的 token: " ++ word
  | .unclosedGroup => "存在未闭合的左括号"
  | .unopenedGroup => "多余的右括号: 没有与之匹配的左括号"
  | .emptyGroup => "意外的右括号: 括号内没有表达式"
  | .unexpectedGroup after => "意外的左括号: 位于 '" ++ place after ++ "' 之后"
  | .unexpectedOperator (.logical c) after =>
    "意外的逻辑操作符: " ++ c.symbol ++ " 位于 " ++ place after ++ " 之后"
  | .unexpectedOperator (.relating c) after =>
    "意外的比较操作符: " ++ c.symbol ++ " 位于 " ++ place after ++ " 之后"
  | .unexpectedOperand text after => "意外的操作数: " ++ text ++ " 位于 " ++ place after ++ " 之后"
  | .emptyRule => "空规则: 未生成任何语法树"
  | .incomplete op => "表达式不完整: 以操作符 '" ++ op.symbol ++ "' 结尾"
  | .tooComplex => "规则过于复杂: 操作符数量超过上限 " ++ Nat.repr maxOperators

end ParseError

end Rulebook
