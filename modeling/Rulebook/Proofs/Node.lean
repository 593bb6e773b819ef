import Rulebook.Evaluation
import Rulebook.Exchange.Transport

/-!
# Nodes of any shape

A `Node` is more than a tree: an operator may lack a side in it, or have a symbol that is none, and
an operand may have sides. `Node.ofTree` is the node of a tree.

A node is seen through its paths: `label?` is what stands at the end of one. An operator at the end
of a path may lack a child (`Lacks`); in a `Complete` node none does, and in a node that is
`OpenAtEnd` the one place without a child is the right side of the last node of the right spine.

`attachRight` goes down the right spine and puts a node at its end. If the last node of the spine is
an operator, that place is filled and nothing else changes (`exists_attachRight`, `FilledAt`), so a
node that was open at its end is complete afterwards (`OpenAtEnd.complete`). Otherwise the node that
was to be attached comes back (`attachRight_eq_error`).
-/

namespace Rulebook

/-- A node of any shape. It is that of a tree only if every operator in it is known and has both of
its sides, and no operand has any. -/
inductive Node where
  | mk (kind : NodeKind) (value : String) (left right : Option Node)

namespace Node

/-- The node of a tree. -/
def ofTree : Tree → Node
  | .operand text => .mk .operand text none none
  | .node op left right => .mk .operator op.symbol (some (ofTree left)) (some (ofTree right))

/-- The node of an operand. -/
def leaf (text : String) : Node :=
  .mk .operand text none none

/-- An operator whose right side is still to come. -/
def pending (op : Operator) (left : Option Node) : Node :=
  .mk .operator op.symbol left none

/-- The operator that stands at the root, if one does and is known. -/
def operator? : Node → Option Operator
  | .mk .operand _ _ _ => none
  | .mk .operator value _ _ => Operator.ofSymbol? value

/-- The child on a side. -/
def child : Node → Side → Option Node
  | .mk _ _ left _, .left => left
  | .mk _ _ _ right, .right => right

/-- How many operators there are. -/
def operatorCount : Node → Nat
  | .mk .operand _ _ _ => 0
  | .mk .operator _ left right =>
    (match left with | none => 0 | some l => l.operatorCount) +
      (match right with | none => 0 | some r => r.operatorCount) + 1

/-- Puts a node at the end of the right spine, or gives it back if no operator stands there. -/
def attachRight : Node → Node → Except Node Node
  | .mk kind value left (some right), added =>
    (right.attachRight added).map fun filled => .mk kind value left (some filled)
  | .mk .operator value left none, added => .ok (.mk .operator value left (some added))
  | .mk .operand _ _ none, added => .error added

/-! ### Paths -/

/-- The kind and the value of the node that a path leads to. -/
def label? : Node → List Side → Option (NodeKind × String)
  | .mk kind value _ _, [] => some (kind, value)
  | n, side :: path => (n.child side).bind fun c => c.label? path

/-- The path leads to an operator that has no child on the side. -/
def Lacks (n : Node) (path : List Side) (side : Side) : Prop :=
  (∃ value, n.label? path = some (.operator, value)) ∧ n.label? (path ++ [side]) = none

/-- The path to the last node of the right spine. -/
def spineEnd : Node → List Side
  | .mk _ _ _ none => []
  | .mk _ _ _ (some right) => .right :: right.spineEnd

/-- Every operator has both children. -/
def Complete (n : Node) : Prop :=
  ∀ path side, ¬ n.Lacks path side

/-- One child is missing: the right one of the last node of the right spine, which is an
operator. -/
def OpenAtEnd (n : Node) : Prop :=
  ∀ path side, n.Lacks path side ↔ path = n.spineEnd ∧ side = .right

/-- The node `filled` is `n` with the node `added` put at the place. -/
structure FilledAt (place : List Side) (added n filled : Node) : Prop where
  inside : ∀ path, filled.label? (place ++ path) = added.label? path
  outside : ∀ path, ¬ place <+: path → filled.label? path = n.label? path

/-- Induction along the right spine, from its end to the root. -/
@[elab_as_elim]
theorem spineInduction {motive : Node → Prop}
    (last : ∀ kind value left, motive (.mk kind value left none))
    (onward : ∀ kind value left right, motive right → motive (.mk kind value left (some right))) :
    ∀ n, motive n
  | .mk kind value left none => last kind value left
  | .mk kind value left (some right) =>
    onward kind value left right (spineInduction last onward right)

variable {n added filled : Node}

/-- Every node has a label of its own. -/
theorem label?_nil_ne_none (n : Node) : n.label? [] ≠ none := by
  obtain ⟨kind, value, left, right⟩ := n
  exact Option.some_ne_none _

/-- A path begins with a step to a child. -/
theorem label?_cons (n : Node) (side : Side) (path : List Side) :
    n.label? (side :: path) = (n.child side).bind fun c => c.label? path := by
  obtain ⟨kind, value, left, right⟩ := n
  rfl

/-- What the root lacks is seen from its children. -/
theorem lacks_nil_iff {kind : NodeKind} {value : String} {left right : Option Node} {side : Side} :
    (mk kind value left right).Lacks [] side ↔
      kind = .operator ∧ (mk kind value left right).child side = none := by
  rw [Lacks, List.nil_append, label?_cons]
  cases (mk kind value left right).child side with
  | none => simp [label?]
  -- a child has a label, so it is not missing
  | some c => simp [label?_nil_ne_none]

/-- What is lacked further down is lacked by a child. -/
theorem lacks_cons_iff {side side' : Side} {path : List Side} :
    n.Lacks (side :: path) side' ↔ ∃ c, n.child side = some c ∧ c.Lacks path side' := by
  rw [Lacks, List.cons_append, label?_cons, label?_cons]
  cases n.child side with
  | none => simp
  | some c => simp [Lacks]

/-! ### Complete and open nodes -/

/-- An operand lacks nothing. -/
theorem complete_leaf (text : String) : (leaf text).Complete := by
  rintro (_ | ⟨side, path⟩) side' h
  · cases (lacks_nil_iff.1 h).1
  · obtain ⟨c, hc, -⟩ := lacks_cons_iff.1 h
    cases side <;> cases hc

/-- The node of a tree lacks nothing. -/
theorem complete_ofTree (t : Tree) : (ofTree t).Complete := by
  induction t with
  | operand text => exact complete_leaf text
  | node op l r ihl ihr =>
    rintro (_ | ⟨side, path⟩) side' h
    · cases side' <;> cases (lacks_nil_iff.1 h).2
    · obtain ⟨c, hc, h⟩ := lacks_cons_iff.1 h
      cases side with
      | left => cases hc; exact ihl path side' h
      | right => cases hc; exact ihr path side' h

/-- An operator that waits for its right side is open there, if what it has on the left is
complete. -/
theorem openAtEnd_last {value : String} {left : Node} (h : left.Complete) :
    (mk .operator value (some left) none).OpenAtEnd := by
  rintro (_ | ⟨side, path⟩) side'
  · -- the root lacks the right child
    rw [lacks_nil_iff]
    cases side' <;> simp [child, spineEnd]
  · -- on the left nothing is missing
    rw [lacks_cons_iff]
    cases side <;> simp [child, spineEnd, h path side']

/-- An operator above an open node is open in the same place, if what it has on the left is
complete. -/
theorem OpenAtEnd.onward {value : String} {left right : Node} (h : left.Complete)
    (hr : right.OpenAtEnd) : (mk .operator value (some left) (some right)).OpenAtEnd := by
  rintro (_ | ⟨side, path⟩) side'
  · -- the root has both children
    rw [lacks_nil_iff]
    cases side' <;> simp [child, spineEnd]
  · -- what is missing is missing on the right
    rw [lacks_cons_iff]
    cases side <;> simp [child, spineEnd, h path side', hr path side']

/-! ### Attaching -/

/-- A node with a filled place further down is filled in that place. -/
theorem FilledAt.onward {place : List Side} (h : FilledAt place added n filled) (kind : NodeKind)
    (value : String) (left : Option Node) :
    FilledAt (.right :: place) added (.mk kind value left (some n))
      (.mk kind value left (some filled)) := by
  constructor
  · intro path
    exact h.inside path
  · rintro (_ | ⟨_ | _, path⟩) hpath
    · rfl
    · rfl
    · exact h.outside path fun hp => hpath (List.cons_prefix_cons.2 ⟨rfl, hp⟩)

/-- **What is attached fills the place at the end of the right spine**, if an operator waits there,
and nothing else changes. -/
theorem exists_attachRight (added : Node) (h : n.Lacks n.spineEnd .right) :
    ∃ filled, n.attachRight added = .ok filled ∧
      FilledAt (n.spineEnd ++ [.right]) added n filled := by
  induction n using spineInduction with
  | last kind value left =>
    obtain ⟨rfl, -⟩ := lacks_nil_iff.1 h
    refine ⟨.mk .operator value left (some added), rfl, fun path => rfl, ?_⟩
    rintro (_ | ⟨_ | _, path⟩) hpath
    · rfl
    · rfl
    · -- a path that begins on the right leads into the place
      exact absurd (List.cons_prefix_cons.2 ⟨rfl, List.nil_prefix⟩) hpath
  | onward kind value left right ih =>
    obtain ⟨c, hc, hlacks⟩ := lacks_cons_iff.1 h
    cases hc
    obtain ⟨filled, hattach, hfilled⟩ := ih hlacks
    refine ⟨.mk kind value left (some filled), ?_, hfilled.onward kind value left⟩
    rw [attachRight, hattach]
    rfl

/-- What finds no operator at the end of the right spine comes back as it is. -/
theorem attachRight_eq_error (added : Node) (h : ¬ n.Lacks n.spineEnd .right) :
    n.attachRight added = .error added := by
  induction n using spineInduction with
  | last kind value left =>
    cases kind with
    -- no operator waits at the end of the spine
    | operand => rfl
    | operator => exact absurd (lacks_nil_iff.2 ⟨rfl, rfl⟩) h
  | onward kind value left right ih =>
    rw [attachRight, ih fun hr => h (lacks_cons_iff.2 ⟨right, rfl, hr⟩)]
    rfl

/-- Once a complete node fills a place, an operator that lacks a child lacked it before, and not in
that place. -/
theorem FilledAt.lacks {place path : List Side} {side : Side}
    (h : FilledAt place added n filled) (hadded : added.Complete)
    (hlacks : filled.Lacks path side) : n.Lacks path side ∧ path ++ [side] ≠ place := by
  obtain ⟨⟨value, hop⟩, hnone⟩ := hlacks
  -- what was put there is complete, so the operator stands outside
  have hinside : ¬ place <+: path := by
    rintro ⟨rest, rfl⟩
    rw [h.inside] at hop
    rw [List.append_assoc, h.inside] at hnone
    exact hadded rest side ⟨⟨value, hop⟩, hnone⟩
  -- and it does not wait for what was put there
  have hplace : path ++ [side] ≠ place := by
    rintro rfl
    have hroot := h.inside []
    rw [List.append_nil, hnone] at hroot
    exact label?_nil_ne_none added hroot.symm
  -- one step further leads into the place only at its root
  have hbeyond : ¬ place <+: path ++ [side] := fun hp =>
    (List.prefix_concat_iff.1 hp).elim (fun heq => hplace heq.symm) hinside
  rw [h.outside path hinside] at hop
  rw [h.outside _ hbeyond] at hnone
  exact ⟨⟨⟨value, hop⟩, hnone⟩, hplace⟩

/-- A node that was open at its end is complete once a complete node fills the place. -/
theorem OpenAtEnd.complete (hn : n.OpenAtEnd)
    (h : FilledAt (n.spineEnd ++ [.right]) added n filled) (hadded : added.Complete) :
    filled.Complete := by
  intro path side hlacks
  obtain ⟨hlacks, hplace⟩ := h.lacks hadded hlacks
  obtain ⟨rfl, rfl⟩ := (hn path side).1 hlacks
  exact hplace rfl

/-- **A node that is open at its end takes a complete node in the one place there is**, and has no
place for another one afterwards. -/
theorem OpenAtEnd.exists_attachRight (hn : n.OpenAtEnd) (hadded : added.Complete) :
    ∃ filled, n.attachRight added = .ok filled ∧
      FilledAt (n.spineEnd ++ [.right]) added n filled ∧ filled.Complete ∧
        ∀ other, filled.attachRight other = .error other := by
  have hend : n.Lacks n.spineEnd .right := (hn n.spineEnd .right).2 ⟨rfl, rfl⟩
  obtain ⟨filled, hattach, hfilled⟩ := Node.exists_attachRight added hend
  have hcomplete : filled.Complete := hn.complete hfilled hadded
  exact ⟨filled, hattach, hfilled, hcomplete,
    fun other => attachRight_eq_error other (hcomplete filled.spineEnd .right)⟩

/-- The comparison inside the connective waits for its right side. -/
example : (mk .operator "AND" (some (.ofTree (.node (.relating .greater) (.operand "a")
      (.operand "1")))) (some (pending (.relating .equal) (some (leaf "b"))))).attachRight
        (leaf "2") =
    .ok (.ofTree (.node (.logical .and)
      (.node (.relating .greater) (.operand "a") (.operand "1"))
      (.node (.relating .equal) (.operand "b") (.operand "2")))) := by
  rfl

/-- The node of a tree has the operators of the tree. -/
theorem operatorCount_ofTree (t : Tree) : (ofTree t).operatorCount = t.operatorCount := by
  induction t with
  | operand text => rfl
  | node op l r ihl ihr =>
    rw [ofTree, operatorCount, ihl, ihr, Tree.operatorCount_node]

end Node

end Rulebook
