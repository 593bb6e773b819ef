import Rulebook.Operator
import Rulebook.Operand

/-!
# Rule trees

A rule is a binary tree whose inner nodes are operators and whose leaves are operands. Every node
of a `Tree` has all its children: trees under construction have a type of their own, in the parser.

`Tree.text` writes a tree with every operator in parentheses, so that the text shows the structure
and needs no precedence.
-/

namespace Rulebook

/-- A rule: operands joined by operators. -/
inductive Tree where
  /-- A leaf, with the text of the operand. -/
  | operand (text : String)
  /-- An operator between two trees. -/
  | node (op : Operator) (left right : Tree)
  deriving DecidableEq, Repr

/-- Puts a name into a list of names in ascending order, unless it is there already. -/
def insertName (name : String) : List String → List String
  | [] => [name]
  | n :: ns => if name < n then name :: n :: ns
    else if name = n then n :: ns
    else n :: insertName name ns

namespace Tree

/-- The characters of a tree's text: operands as they are, operators with both sides in
parentheses. -/
def chars : Tree → List Char
  | .operand text => text.toList
  | .node op left right =>
    '(' :: (left.chars ++ ' ' :: (op.symbol.toList ++ ' ' :: (right.chars ++ [')'])))

/-- The fully parenthesised text of a tree. -/
def text (t : Tree) : String :=
  String.ofList t.chars

/-- How many operators a tree has. -/
def operatorCount : Tree → Nat
  | .operand _ => 0
  | .node _ left right => left.operatorCount + right.operatorCount + 1

/-- The operator at the root, if there is one. -/
def rootOperator? : Tree → Option Operator
  | .operand _ => none
  | .node op _ _ => some op

/-- The attribute that an operand names, if it names one. -/
def attributeOf (text : String) : Option String :=
  match Operand.ofText text with
  | .attribute name => some name
  | _ => none

/-- The texts of the operands, from left to right. -/
def operands : Tree → List String
  | .operand text => [text]
  | .node _ left right => left.operands ++ right.operands

/-- The attributes that a tree refers to, each once, in the order of code points. -/
def attributes (t : Tree) : List String :=
  (t.operands.filterMap attributeOf).foldr insertName []

@[simp]
theorem operatorCount_operand (s : String) : (operand s).operatorCount = 0 := rfl

@[simp]
theorem operatorCount_node (op : Operator) (l r : Tree) :
    (node op l r).operatorCount = l.operatorCount + r.operatorCount + 1 := rfl

end Tree

@[simp]
theorem mem_insertName {a name : String} {ns : List String} :
    a ∈ insertName name ns ↔ a = name ∨ a ∈ ns := by
  induction ns with
  | nil => simp [insertName]
  | cons n ns ih =>
    simp only [insertName]
    split
    · simp
    · split
      · next h => subst h; simp
      · simp only [List.mem_cons, ih]; grind

end Rulebook
