import Rulebook.Tree
import Rulebook.Json.Reader

/-!
# Trees in transit

Between programs a tree travels as nested records: a node has a kind, and may have a value, a left
and a right child. A `Transport` is any such record, also one that is no tree. `ofTree` writes a
tree, and `toTree` restores it, checking each node before its children and the left child before
the right one, so that the first node at fault is reported.
-/

namespace Rulebook

/-- The kinds of nodes in transit. -/
inductive NodeKind where
  | operand
  | operator
  deriving DecidableEq, Repr

/-- The name of a kind of nodes. -/
def NodeKind.name : NodeKind → String
  | .operand => "operand"
  | .operator => "operator"

/-- A node in transit. -/
inductive Transport where
  | node (kind : NodeKind) (value : Option String) (left right : Option Transport)

/-- What can be wrong with a node in transit. -/
inductive TransportFault where
  /-- An operand without a value, or with an empty one. -/
  | operandWithoutValue
  /-- An operand with a child. -/
  | operandWithChildren (value : String)
  /-- An operator without a value. -/
  | operatorWithoutValue
  /-- A value that is the symbol of no operator. -/
  | unknownOperator (value : String)
  /-- An operator that lacks a child. -/
  | operatorWithoutChildren (value : String)
  deriving DecidableEq, Repr

/-- The sentence that describes a fault. -/
def TransportFault.message : TransportFault → String
  | .operandWithoutValue => "操作数节点缺少 value"
  | .operandWithChildren value => "操作数节点 '" ++ value ++ "' 不能有子节点"
  | .operatorWithoutValue => "操作符节点缺少 value"
  | .unknownOperator value => "未知操作符 '" ++ value ++ "'"
  | .operatorWithoutChildren value => "操作符节点 '" ++ value ++ "' 缺少子节点"

namespace Transport

/-- A tree, ready for transit. -/
def ofTree : Tree → Transport
  | .operand text => .node .operand (some text) none none
  | .node op left right =>
    .node .operator (some op.symbol) (some (ofTree left)) (some (ofTree right))

/-- The operand that a node stands for. -/
def toOperand (value : Option String) (hasChildren : Bool) : Except TransportFault Tree :=
  match value with
  | none => .error .operandWithoutValue
  | some v =>
    if v = "" then .error .operandWithoutValue
    else if hasChildren then .error (.operandWithChildren v)
    else .ok (.operand v)

/-- The operator that a value names. -/
def toOperator (value : Option String) : Except TransportFault Operator :=
  match value with
  | none => .error .operatorWithoutValue
  | some v =>
    match Operator.ofSymbol? v with
    | none => .error (.unknownOperator v)
    | some op => .ok op

/-- The tree that a node in transit stands for. -/
def toTree : Transport → Except TransportFault Tree
  | .node .operand value left right => toOperand value (left.isSome || right.isSome)
  | .node .operator value left right => do
    let op ← toOperator value
    match left, right with
    | some left, some right =>
      let l ← left.toTree
      let r ← right.toTree
      return .node op l r
    -- a child that is missing is reported before anything inside the other one
    | _, _ => throw (.operatorWithoutChildren op.symbol)

/-- What was a tree before transit is the same tree after it, unless an operand is empty. -/
theorem toTree_ofTree {t : Tree} (h : ∀ s ∈ t.operands, s ≠ "") : (ofTree t).toTree = .ok t := by
  induction t with
  | operand s =>
    have hs : s ≠ "" := h s (by simp [Tree.operands])
    simp [ofTree, toTree, toOperand, hs]
  | node op l r ihl ihr =>
    have hl := ihl fun s hs => h s (by simp [Tree.operands, hs])
    have hr := ihr fun s hs => h s (by simp [Tree.operands, hs])
    simp [ofTree, toTree, toOperator, hl, hr, bind, Except.bind, pure, Except.pure]

/-! ### JSON -/

/-- A node in transit as JSON; what a node lacks is left out. -/
def toJson : Transport → Json
  | .node kind value left right =>
    .object (("type", .string kind.name) :: ((match value with
        | none => []
        | some v => [("value", .string v)]) ++
      (match left with
        | none => []
        | some l => [("left", l.toJson)]) ++
      (match right with
        | none => []
        | some r => [("right", r.toJson)])))

/-- A node before any of its fields has been read. -/
def blank : Transport := .node .operand none none none

/-- The fields of a node, whose children are read by `child`. -/
def slots (depth : Nat) (child : Json.Document → Except Json.Fault Transport) :
    List (Json.Slot Transport) :=
  [⟨"type", .required, fun (.node _ v l r) d => do
      let k ← Json.readVariant depth
        [(NodeKind.operand.name, .operand), (NodeKind.operator.name, .operator)] d
      return .node k v l r⟩,
   ⟨"value", .defaulted, fun (.node k _ l r) d => do
      let v ← Json.readOptional Json.readText d
      return .node k v l r⟩,
   ⟨"left", .defaulted, fun (.node k v _ r) d => do
      let l ← Json.readOptional child d
      return .node k v l r⟩,
   ⟨"right", .defaulted, fun (.node k v l _) d => do
      let r ← Json.readOptional child d
      return .node k v l r⟩]

/-- Reads a node in transit. -/
def read : Nat → Json.Document → Except Json.Fault Transport
  | 0, d => Json.record 0 (fun _ => []) blank d
  | depth + 1, d => Json.record (depth + 1) (fun _ => slots depth (read depth)) blank d

/-- The node that a JSON text denotes. -/
def ofText (text : String) : Except Json.Fault Transport :=
  Json.readWhole (read Json.maxDepth) text

/-- The node that a JSON value denotes. A value in memory may be of any depth. -/
def ofJson (v : Json) : Except Json.Fault Transport :=
  read v.height v.toDocument

end Transport

end Rulebook
