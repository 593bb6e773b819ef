import Mathlib.Data.List.Basic
import Rulebook.Proofs.Fallible
import Rulebook.Proofs.Node

/-!
# Which error an evaluation ends with

The nodes of a tree are evaluated one after another, each behind the two sides below it, and none is
passed over. So where several nodes are at fault, the error is that of the first of them in this
order, whatever the values on the other side of a connective are (`Tree.evaluate_leftToRight`).

* `Tree.nodes` is the order, `Tree.Evaluates` the values from the leaves up, and `Tree.Fails` what
  it is for a node to be at fault by itself.
* `FirstFault` speaks of a list of nodes and not of a tree, so that it goes along with `++`
  (`firstAtFault_append`): `Tree.evaluate_eq_error_iff_firstFault` is then an induction over the
  tree.
* A `Node` is more than a tree: an operator may lack a side in it, or have a symbol that is none.
  Evaluating it can fail for its shape alone, but not where the node is that of a tree
  (`Node.evaluate_ofTree`).
-/

namespace Rulebook

variable {ctx : Context}

/-! ### Nodes at fault -/

namespace Tree

/-- The nodes of a tree, each with all that is below it, in the order in which they are finished:
those on the left, those on the right, and the root. -/
def nodes : Tree → List Tree
  | .operand text => [.operand text]
  | .node op left right => left.nodes ++ (right.nodes ++ [.node op left right])

/-- The value that a tree has from the leaves up. -/
inductive Evaluates (ctx : Context) : Tree → Value → Prop where
  | operand {text : String} {v : Value} (h : ctx.operand text = .ok v) :
    Evaluates ctx (.operand text) v
  | node {op : Operator} {left right : Tree} {a b v : Value} (hleft : Evaluates ctx left a)
    (hright : Evaluates ctx right b) (h : op.apply a b = .ok v) :
    Evaluates ctx (.node op left right) v

/-- The root is at fault by itself: an operand without a value, or an operator that does not apply
to the values of its two sides. -/
inductive Fails (ctx : Context) : Tree → EvalError → Prop where
  | operand {text : String} {e : EvalError} (h : ctx.operand text = .error e) :
    Fails ctx (.operand text) e
  | node {op : Operator} {left right : Tree} {a b : Value} {e : EvalError}
    (hleft : Evaluates ctx left a) (hright : Evaluates ctx right b)
    (h : op.apply a b = .error e) :
    Fails ctx (.node op left right) e

end Tree

/-- Some node of the list is at fault, with the error `e`, and none before it is. -/
def FirstFault (ctx : Context) (ts : List Tree) (e : EvalError) : Prop :=
  ∃ before t after, ts = before ++ t :: after ∧ t.Fails ctx e ∧
    ∀ u ∈ before, ∀ e', ¬ u.Fails ctx e'

theorem firstFault_eq : FirstFault ctx = FirstAtFault (Tree.Fails ctx) := rfl

/-- A list has a first node at fault exactly if it has one at all. -/
theorem exists_firstFault_iff {ts : List Tree} :
    (∃ e, FirstFault ctx ts e) ↔ ∃ t ∈ ts, ∃ e, t.Fails ctx e := by
  rw [firstFault_eq]
  exact exists_firstAtFault_iff

/-! ### Trees -/

namespace Tree

/-- An operator has a value if both sides have values to which it applies. -/
theorem evaluate_node_eq_ok_iff {op : Operator} {l r : Tree} {v : Value} :
    (node op l r).evaluate ctx = .ok v ↔
      ∃ a, l.evaluate ctx = .ok a ∧ ∃ b, r.evaluate ctx = .ok b ∧ op.apply a b = .ok v := by
  rw [evaluate, bind_eq_ok_iff]
  exact exists_congr fun a => and_congr_right fun _ => bind_eq_ok_iff

/-- An operator fails for its left side, for its right side, or by itself. -/
theorem evaluate_node_eq_error_iff {op : Operator} {l r : Tree} {e : EvalError} :
    (node op l r).evaluate ctx = .error e ↔
      l.evaluate ctx = .error e ∨ ∃ a, l.evaluate ctx = .ok a ∧
        (r.evaluate ctx = .error e ∨ ∃ b, r.evaluate ctx = .ok b ∧ op.apply a b = .error e) := by
  rw [evaluate, bind_eq_error_iff]
  exact or_congr_right (exists_congr fun a => and_congr_right fun _ => bind_eq_error_iff)

/-- Evaluating a tree gives its value from the leaves up. -/
theorem evaluate_eq_ok_iff_evaluates {t : Tree} {v : Value} :
    t.evaluate ctx = .ok v ↔ t.Evaluates ctx v := by
  induction t generalizing v with
  | operand text =>
    constructor
    · exact .operand
    · rintro ⟨h⟩
      exact h
  | node op l r ihl ihr =>
    rw [evaluate_node_eq_ok_iff]
    constructor
    · rintro ⟨a, ha, b, hb, h⟩
      exact .node (ihl.1 ha) (ihr.1 hb) h
    · rintro (_ | ⟨ha, hb, h⟩)
      exact ⟨_, ihl.2 ha, _, ihr.2 hb, h⟩

/-- An operator is at fault by itself if its sides have values to which it does not apply. -/
theorem fails_node_iff {op : Operator} {l r : Tree} {e : EvalError} :
    (node op l r).Fails ctx e ↔ ∃ a, l.evaluate ctx = .ok a ∧
      ∃ b, r.evaluate ctx = .ok b ∧ op.apply a b = .error e := by
  simp only [evaluate_eq_ok_iff_evaluates]
  constructor
  · rintro (_ | ⟨ha, hb, h⟩)
    exact ⟨_, ha, _, hb, h⟩
  · rintro ⟨a, ha, b, hb, h⟩
    exact .node ha hb h

/-- What has no error has a value. -/
theorem not_exists_evaluate_eq_error_iff {t : Tree} :
    (¬ ∃ e, t.evaluate ctx = .error e) ↔ ∃ v, t.evaluate ctx = .ok v := by
  cases t.evaluate ctx with
  | error e => simp
  | ok v => simp

/-- Evaluating a tree ends with the error of the first node at fault. -/
theorem evaluate_eq_error_iff_firstFault {t : Tree} {e : EvalError} :
    t.evaluate ctx = .error e ↔ FirstFault ctx t.nodes e := by
  induction t generalizing e with
  | operand text =>
    rw [nodes, firstFault_eq, firstAtFault_singleton]
    constructor
    · exact .operand
    · rintro ⟨h⟩
      exact h
  | node op l r ihl ihr =>
    -- the errors on the left come first, then those on the right, then the operator's own
    rw [nodes, firstFault_eq, firstAtFault_append, firstAtFault_append, firstAtFault_singleton,
      ← firstFault_eq, evaluate_node_eq_error_iff, fails_node_iff]
    simp only [← ihl, ← ihr, not_exists_evaluate_eq_error_iff]
    cases l.evaluate ctx with
    | error e' => simp
    | ok a =>
      cases r.evaluate ctx with
      | error e' => simp
      | ok b => simp

/-- Where a tree has a value, so has each of its nodes. -/
theorem evaluate_of_mem_nodes {s t : Tree} {v : Value} (h : t.evaluate ctx = .ok v)
    (hs : s ∈ t.nodes) : ∃ w, s.evaluate ctx = .ok w := by
  induction t generalizing v with
  | operand text =>
    cases List.mem_singleton.1 hs
    exact ⟨v, h⟩
  | node op l r ihl ihr =>
    obtain ⟨a, ha, b, hb, -⟩ := evaluate_node_eq_ok_iff.1 h
    rw [nodes, List.mem_append, List.mem_append, List.mem_singleton] at hs
    -- the node is on the left, on the right, or the root
    obtain hs | hs | rfl := hs
    · exact ihl ha hs
    · exact ihr hb hs
    · exact ⟨v, h⟩

end Tree

/-! ### Nodes of any shape -/

/-- Why a node has no value. -/
inductive NodeFault where
  /-- The node has not the shape of a tree. -/
  | malformed (detail : String)
  /-- A tree that has no value. -/
  | valueless (e : EvalError)

namespace Node

/-- The path to a child, which is spelt out only if the evaluation is `traced`. -/
def childPath (traced : Bool) (path : String) (side : Side) : String :=
  if traced then path ++ "." ++ side.name else ""

/-- The value of a node. The shape of a node is looked at before its children are. -/
def evaluate (ctx : Context) (traced : Bool) (path : String) : Node → Except NodeFault Value
  | .mk .operand value _ _ => (ctx.operand value).mapError .valueless
  | .mk .operator value left right =>
    match Operator.ofSymbol? value with
    | none => .error (.malformed (path ++ ": 未知操作符 '" ++ value ++ "'"))
    | some op =>
      match left, right with
      | some l, some r => do
        let a ← l.evaluate ctx traced (childPath traced path .left)
        let b ← r.evaluate ctx traced (childPath traced path .right)
        (op.apply a b).mapError .valueless
      | _, _ => .error (.malformed (path ++ ": 操作符 '" ++ op.symbol ++ "' 缺少子节点"))

/-- The node of a tree is evaluated as the tree is. -/
theorem evaluate_ofTree (ctx : Context) (traced : Bool) (path : String) (t : Tree) :
    (ofTree t).evaluate ctx traced path = (t.evaluate ctx).mapError .valueless := by
  induction t generalizing path with
  | operand text => rfl
  | node op l r ihl ihr =>
    rw [ofTree, evaluate, Operator.ofSymbol?_symbol]
    simp only [ihl, ihr, Tree.evaluate]
    -- the node has both children, so what remains is evaluating them
    cases l.evaluate ctx with
    | error e => rfl
    | ok a =>
      cases r.evaluate ctx with
      | error e => rfl
      | ok b => rfl

/-- No error in evaluating the node of a tree is about its shape. -/
theorem evaluate_ofTree_ne_malformed (ctx : Context) (traced : Bool) (path : String) (t : Tree)
    (detail : String) : (ofTree t).evaluate ctx traced path ≠ .error (.malformed detail) := by
  rw [evaluate_ofTree]
  cases t.evaluate ctx with
  | error e =>
    intro h
    cases h
  | ok v =>
    intro h
    cases h

end Node

/-- **Evaluation from left to right.** Evaluating a tree ends with an error exactly if some node is
at fault by itself, and then with the error of the first such node; otherwise with the value that
the tree has from the leaves up. A tree has a value only if every node has one, so no operator
passes over a side. As a node, a tree is evaluated in the same way, and no error is about its
shape. -/
theorem Tree.evaluate_leftToRight (ctx : Context) (t : Tree) :
    ((∃ e, t.evaluate ctx = .error e) ↔ ∃ s ∈ t.nodes, ∃ e, s.Fails ctx e) ∧
    (∀ e, t.evaluate ctx = .error e ↔ FirstFault ctx t.nodes e) ∧
    (∀ v, t.evaluate ctx = .ok v ↔ t.Evaluates ctx v) ∧
    (∀ v, t.evaluate ctx = .ok v → ∀ s ∈ t.nodes, ∃ w, s.evaluate ctx = .ok w) ∧
    ∀ traced, (Node.ofTree t).evaluate ctx traced "root" = (t.evaluate ctx).mapError .valueless ∧
      ∀ detail, (Node.ofTree t).evaluate ctx traced "root" ≠ .error (.malformed detail) := by
  refine ⟨?_, fun e => evaluate_eq_error_iff_firstFault, fun v => evaluate_eq_ok_iff_evaluates,
    fun v hv s hs => evaluate_of_mem_nodes hv hs, fun traced => ?_⟩
  · -- if a node is at fault, one of them is the first
    rw [← exists_firstFault_iff]
    exact exists_congr fun e => evaluate_eq_error_iff_firstFault
  · exact ⟨Node.evaluate_ofTree ctx traced "root" t,
      Node.evaluate_ofTree_ne_malformed ctx traced "root" t⟩

/-- With `false` on the left of an `AND` the right side is still evaluated, and of its two faults
the one further left is reported. -/
example : (Tree.node (.logical .and) (.operand "off") (.node (.logical .or)
      (.node (.relating .less) (.operand "'x'") (.operand "3")) (.operand "missing"))).evaluate
        (.ofList [("off", .boolean false)]) =
      .error (.typeMismatch (.relating .less) .string .number) := by
  decide +kernel

end Rulebook
