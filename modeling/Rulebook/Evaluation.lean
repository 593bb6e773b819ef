import Rulebook.Tree
import Rulebook.Context

/-!
# Evaluating a rule

Both sides of an operator are evaluated, the left one first, before the operator is applied; no
connective skips a side. `evaluate` gives the value of a tree, and `run` gives in addition the
record of every node in the order in which the nodes were finished.
-/

namespace Rulebook

/-- Why a tree has no value. -/
inductive EvalError where
  /-- The context has no value for an attribute. -/
  | unknownAttribute (name : String)
  /-- An operator does not apply to the kinds of its two sides. -/
  | typeMismatch (op : Operator) (left right : ValueType)
  /-- A number that does not fit into a signed word of 64 bits. -/
  | numberOutOfRange (digits : String)
  deriving DecidableEq, Repr

namespace EvalError

/-- What an operator expects of its two sides. -/
def expected : Operator → String
  | .relating .greater | .relating .less => "number"
  | .relating .equal | .relating .unequal => "two numbers or two strings"
  | .logical _ => "boolean"

/-- The name of the kind of error. -/
def code : EvalError → String
  | .unknownAttribute _ => "UNKNOWN_ATTRIBUTE"
  | .typeMismatch _ _ _ => "TYPE_MISMATCH"
  | .numberOutOfRange _ => "INVALID_NUMBER"

/-- The sentence that describes the error. -/
def message : EvalError → String
  | .unknownAttribute name => "属性不存在: " ++ name
  | .typeMismatch op l r => "类型不匹配: 操作符 " ++ op.symbol ++ " 期望 " ++ expected op ++
      ", 实际 " ++ l.name ++ " 与 " ++ r.name
  | .numberOutOfRange digits => "数值超出范围: " ++ digits

end EvalError

/-- Joins two truth values. -/
def Connective.join : Connective → Bool → Bool → Bool
  | .and => (· && ·)
  | .or => (· || ·)

/-- Relates two numbers. -/
def Comparison.holds : Comparison → Int64 → Int64 → Bool
  | .greater, a, b => decide (b < a)
  | .less, a, b => decide (a < b)
  | .equal, a, b => decide (a = b)
  | .unequal, a, b => decide (a ≠ b)

/-- Applies an operator to two values. -/
def Operator.apply (op : Operator) (left right : Value) : Except EvalError Value :=
  match op, left, right with
  | .logical c, .boolean a, .boolean b => .ok (.boolean (c.join a b))
  | .relating c, .number a, .number b => .ok (.boolean (c.holds a b))
  | .relating .equal, .string a, .string b => .ok (.boolean (decide (a = b)))
  | .relating .unequal, .string a, .string b => .ok (.boolean (decide (a ≠ b)))
  | op, l, r => .error (.typeMismatch op l.type r.type)

/-- The value of an operand: numbers and strings stand for themselves, attributes for what the
context says. -/
def Context.operand (c : Context) (text : String) : Except EvalError Value :=
  match Operand.ofText text with
  | .number digits =>
    match Text.toInt64? (Text.value digits.toList) with
    | some n => .ok (.number n)
    | none => .error (.numberOutOfRange digits)
  | .text content => .ok (.string content)
  | .attribute name =>
    match c.get? name with
    | some v => .ok v
    | none => .error (.unknownAttribute name)

/-- The value of a tree. -/
def Tree.evaluate (c : Context) : Tree → Except EvalError Value
  | .operand text => c.operand text
  | .node op left right => do
    let l ← left.evaluate c
    let r ← right.evaluate c
    op.apply l r

/-- The value of a rule that may be missing; without a rule the value is `null`. -/
def evaluate? (c : Context) : Option Tree → Except EvalError Value
  | none => .ok .null
  | some t => t.evaluate c

/-! ### Records -/

/-- A step from a node to one of its children. -/
inductive Side where
  | left
  | right
  deriving DecidableEq, Repr

/-- How a step is written. -/
def Side.name : Side → String
  | .left => "left"
  | .right => "right"

/-- What is recorded of a node once it has a value. -/
inductive Finding where
  /-- An operand's text and value. -/
  | operand (text : String) (value : Value)
  /-- An operator with the values of its two sides and its own. -/
  | operator (op : Operator) (left right value : Value)
  deriving DecidableEq, Repr

/-- A line of the record: the steps from the root to the node, and what was found there. -/
structure RecordLine where
  path : List Side
  finding : Finding
  deriving DecidableEq, Repr

namespace RecordLine

/-- The text of a path from the root. -/
def pathText (path : List Side) : String :=
  path.foldl (fun text side => text ++ "." ++ side.name) "root"

/-- The text of a line. -/
def text (e : RecordLine) : String :=
  match e.finding with
  | .operand raw v => pathText e.path ++ ": " ++ raw ++ " => " ++ v.text
  | .operator op l r v =>
    pathText e.path ++ ": " ++ l.text ++ " " ++ op.symbol ++ " " ++ r.text ++ " => " ++ v.text

end RecordLine

/-- The value of a tree that is found by `path`, and the record of its nodes, each after its
children. -/
def Tree.run (c : Context) (path : List Side) : Tree → Except EvalError (Value × List RecordLine)
  | .operand text => do
    let v ← c.operand text
    return (v, [⟨path, .operand text v⟩])
  | .node op left right => do
    let (l, ls) ← left.run c (path ++ [.left])
    let (r, rs) ← right.run c (path ++ [.right])
    let v ← op.apply l r
    return (v, ls ++ rs ++ [⟨path, .operator op l r v⟩])

/-- What an evaluation yields. -/
structure Outcome where
  value : Value
  /-- The record, empty unless it was asked for. -/
  record : List RecordLine
  deriving DecidableEq, Repr

/-- Evaluates a tree, with a record of its nodes if `traced`. -/
def Tree.execute (t : Tree) (c : Context) (traced : Bool) : Except EvalError Outcome :=
  if traced then (t.run c []).map fun r => ⟨r.1, r.2⟩
  else (t.evaluate c).map fun v => ⟨v, []⟩

/-- Recording does not change the value. -/
theorem Tree.run_value (c : Context) (path : List Side) (t : Tree) :
    (t.run c path).map Prod.fst = t.evaluate c := by
  induction t generalizing path with
  | operand text =>
    simp only [Tree.run, Tree.evaluate]
    cases c.operand text <;> rfl
  | node op l r ihl ihr =>
    simp only [Tree.run, Tree.evaluate, ← ihl (path ++ [.left]), ← ihr (path ++ [.right])]
    cases l.run c (path ++ [.left]) with
    | error e => rfl
    | ok a =>
      cases r.run c (path ++ [.right]) with
      | error e => rfl
      | ok b =>
        change Except.map Prod.fst (op.apply a.1 b.1 >>= _) = op.apply a.1 b.1
        cases op.apply a.1 b.1 <;> rfl

end Rulebook
