import Rulebook.Proofs.Exchange.Transit

/-!
# Which nodes in transit are trees

A node in transit may have any of its parts, and lack any, and so may each node below it. What makes
it a tree is a matter of its nodes one by one: an operand needs a text and no children, an operator
a known symbol and both children (`Transport.Sound`). Restoring a node succeeds exactly if all of
its nodes are sound, and then nothing is lost; otherwise it reports the first node that is not
sound, counting each node before the nodes below it and the left ones before the right ones
(`Transport.restore_sound`).

* `Transport.Faulty` names what is wrong with a node by itself: its value is looked at first, then
  whether this is a symbol, then its children. Every node is sound or has one fault
  (`sound_or_faulty`, `Faulty.unique`).
* `Transport.nodes` is the order. A fault at the root is found before anything below it is looked at
  (`toTree_of_faulty`), so `toTree_eq_error_iff` is an induction over the node.
-/

namespace Rulebook.Transport

/-! ### Nodes by themselves -/

/-- The nodes of a node in transit, each with all that is below it: the node itself, those on the
left, and those on the right. -/
def nodes : Transport → List Transport
  | .node kind value left right =>
    .node kind value left right ::
      ((match left with
        | none => []
        | some l => l.nodes) ++
      (match right with
        | none => []
        | some r => r.nodes))

/-- The node is well formed, whatever is below it. -/
inductive Sound : Transport → Prop where
  /-- An operand has a text, and no children. -/
  | operand {text : String} (h : text ≠ "") : Sound (.node .operand (some text) none none)
  /-- An operator has a known symbol, and both children. -/
  | operator (op : Operator) (left right : Transport) :
    Sound (.node .operator (some op.symbol) (some left) (some right))

/-- What is wrong with the node, whatever is below it. -/
inductive Faulty : Transport → TransportFault → Prop where
  | operandWithoutValue {value : Option String} {left right : Option Transport}
    (h : ∀ text, value = some text → text = "") :
    Faulty (.node .operand value left right) .operandWithoutValue
  | operandWithChildren {text : String} {left right : Option Transport} (htext : text ≠ "")
    (h : left ≠ none ∨ right ≠ none) :
    Faulty (.node .operand (some text) left right) (.operandWithChildren text)
  | operatorWithoutValue {left right : Option Transport} :
    Faulty (.node .operator none left right) .operatorWithoutValue
  | unknownOperator {value : String} {left right : Option Transport}
    (h : ∀ op : Operator, value ≠ op.symbol) :
    Faulty (.node .operator (some value) left right) (.unknownOperator value)
  | operatorWithoutChildren (op : Operator) {left right : Option Transport}
    (h : left = none ∨ right = none) :
    Faulty (.node .operator (some op.symbol) left right) (.operatorWithoutChildren op.symbol)

variable {x : Transport} {fault : TransportFault}

/-- A node that is not sound has a fault. -/
theorem sound_or_faulty (x : Transport) : x.Sound ∨ ∃ fault, x.Faulty fault := by
  obtain ⟨kind, value, left, right⟩ := x
  cases kind with
  | operand =>
    -- in the order in which the faults are looked for: first the value, then the children
    by_cases hvalue : ∀ text, value = some text → text = ""
    · exact .inr ⟨_, .operandWithoutValue hvalue⟩
    · obtain ⟨text, h⟩ := Classical.not_forall.1 hvalue
      obtain ⟨rfl, htext⟩ := Classical.not_imp.1 h
      by_cases hchildren : left ≠ none ∨ right ≠ none
      · exact .inr ⟨_, .operandWithChildren htext hchildren⟩
      · obtain ⟨hleft, hright⟩ := not_or.1 hchildren
        obtain rfl := Classical.not_not.1 hleft
        obtain rfl := Classical.not_not.1 hright
        exact .inl (.operand htext)
  | operator =>
    cases value with
    | none => exact .inr ⟨_, .operatorWithoutValue⟩
    | some value =>
      -- an operator needs a symbol before its children matter
      by_cases hvalue : ∀ op : Operator, value ≠ op.symbol
      · exact .inr ⟨_, .unknownOperator hvalue⟩
      · obtain ⟨op, hop⟩ := Classical.not_forall.1 hvalue
        obtain rfl := Classical.not_not.1 hop
        cases left with
        | none => exact .inr ⟨_, .operatorWithoutChildren op (.inl rfl)⟩
        | some l =>
          cases right with
          | none => exact .inr ⟨_, .operatorWithoutChildren op (.inr rfl)⟩
          | some r => exact .inl (.operator op l r)

/-- A node with a fault is reported for it, whatever is below the node. -/
theorem toTree_of_faulty (h : x.Faulty fault) : x.toTree = .error fault := by
  cases h with
  | @operandWithoutValue value left right h =>
    cases value with
    | none => rw [toTree, toOperand]
    | some text => rw [toTree, toOperand, if_pos (h text rfl)]
  | @operandWithChildren text left right htext h =>
    have hchildren : (left.isSome || right.isSome) = true := by
      rcases h with h | h <;> simp [Option.isSome_iff_ne_none, h]
    rw [toTree, toOperand, if_neg htext, if_pos hchildren]
  | operatorWithoutValue => rw [toTree, toOperator]; rfl
  | @unknownOperator value left right h =>
    have hnone : Operator.ofSymbol? value = none :=
      Option.eq_none_iff_forall_ne_some.2 fun op hop => h op (Operator.ofSymbol?_eq_some_iff.1 hop)
    rw [toTree, toOperator, hnone]
    rfl
  | @operatorWithoutChildren op left right h =>
    have hop : toOperator (some op.symbol) = .ok op := toOperator_eq_ok_iff.2 rfl
    rw [toTree, hop]
    -- one child may still be there
    rcases h with rfl | rfl
    · rfl
    · cases left <;> rfl

/-- A node has one fault at most. -/
theorem Faulty.unique {fault' : TransportFault} (h : x.Faulty fault) (h' : x.Faulty fault') :
    fault = fault' :=
  Except.error.inj ((toTree_of_faulty h).symm.trans (toTree_of_faulty h'))

/-- A sound node has no fault. -/
theorem Sound.not_faulty (h : x.Sound) : ¬ x.Faulty fault := by
  intro hfault
  cases h with
  | operand htext =>
    cases hfault with
    | operandWithoutValue h => exact htext (h _ rfl)
    | operandWithChildren _ h => exact h.elim (· rfl) (· rfl)
  | operator op l r =>
    -- the value is looked at like any other, until a fault would say that it is no symbol
    generalize hvalue : some op.symbol = value at hfault
    cases hfault with
    | operatorWithoutValue => cases hvalue
    | unknownOperator h => exact h op (Option.some.inj hvalue).symm
    | operatorWithoutChildren _ h => exact h.elim nofun nofun

/-- A node is sound if it has no fault. -/
theorem sound_iff : x.Sound ↔ ∀ fault, ¬ x.Faulty fault :=
  ⟨fun h _ => h.not_faulty, fun h => x.sound_or_faulty.resolve_right (not_exists.2 h)⟩

/-! ### Nodes with all that is below them -/

/-- The nodes begin with the node itself. -/
theorem exists_nodes_eq_cons (x : Transport) : ∃ below, x.nodes = x :: below := by
  obtain ⟨kind, value, left, right⟩ := x
  cases left <;> cases right <;> exact ⟨_, rfl⟩

/-- The nodes are the node itself, those on the left and those on the right. -/
theorem nodes_of_children (kind : NodeKind) (value : Option String) (l r : Transport) :
    (node kind value (some l) (some r)).nodes =
      node kind value (some l) (some r) :: (l.nodes ++ r.nodes) := rfl

/-- A sound operator is restored from its two children, the left one first. -/
theorem toTree_operator (op : Operator) (l r : Transport) :
    (node .operator (some op.symbol) (some l) (some r)).toTree =
      l.toTree >>= fun a => r.toTree >>= fun b => .ok (.node op a b) := by
  have hop : toOperator (some op.symbol) = .ok op := toOperator_eq_ok_iff.2 rfl
  rw [toTree, hop]
  rfl

/-- A node that is not reported stands for a tree. -/
theorem not_exists_toTree_eq_error_iff :
    (¬ ∃ fault, x.toTree = .error fault) ↔ ∃ t, x.toTree = .ok t := by
  cases x.toTree with
  | error fault => simp
  | ok t => simp

/-- Restoring a node reports the first of its nodes that is at fault. -/
theorem toTree_eq_error_iff : x.toTree = .error fault ↔ FirstAtFault Faulty x.nodes fault := by
  induction x generalizing fault with
  | node kind value left right hleft hright =>
    rcases sound_or_faulty (node kind value left right) with hsound | ⟨first, hfirst⟩
    · cases hsound with
      | @operand text htext =>
        -- a sound operand is a tree, and there is nothing below it
        have hnodes : (node .operand (some text) none none).nodes =
            [node .operand (some text) none none] := rfl
        rw [hnodes, firstAtFault_singleton, toTree, toOperand, if_neg htext]
        refine iff_of_false (fun h => ?_) (Sound.operand htext).not_faulty
        cases h
      | operator op l r =>
        have hroot : ∀ fault, ¬ (node .operator (some op.symbol) (some l) (some r)).Faulty fault :=
          fun _ => (Sound.operator op l r).not_faulty
        rw [nodes_of_children, firstAtFault_cons, firstAtFault_append, toTree_operator]
        simp only [hroot, not_false_eq_true, implies_true, true_and, false_or, ← hleft l rfl,
          ← hright r rfl, not_exists_toTree_eq_error_iff]
        -- a fault on the left is reported before the right side is looked at
        cases l.toTree with
        | error fault' => simp [bind, Except.bind]
        | ok a =>
          cases r.toTree with
          | error fault' => simp [bind, Except.bind]
          | ok b => simp [bind, Except.bind]
    · -- a fault at the root comes before all that is below it
      obtain ⟨below, hnodes⟩ := (node kind value left right).exists_nodes_eq_cons
      rw [hnodes, firstAtFault_cons, toTree_of_faulty hfirst]
      constructor
      · intro h
        cases h
        exact .inl hfirst
      · rintro (h | ⟨hnone, -⟩)
        · exact congrArg Except.error (hfirst.unique h)
        · exact absurd hfirst (hnone first)

/-- A node stands for a tree exactly if all of its nodes are sound. -/
theorem exists_toTree_eq_ok_iff : (∃ t, x.toTree = .ok t) ↔ ∀ y ∈ x.nodes, y.Sound := by
  rw [← not_exists_toTree_eq_error_iff]
  simp only [toTree_eq_error_iff, exists_firstAtFault_iff, sound_iff, not_exists, not_and]

/-- A node that cannot be restored is reported with its fault. -/
theorem restore_eq_error_iff {e : RuleError} :
    x.restore = .error e ↔ ∃ fault, x.toTree = .error fault ∧ e = .illFormed fault :=
  mapError_eq_error_iff

/-- **Restoring accepts exactly what is well formed, and loses nothing.** A node in transit is
restored exactly if each of its nodes is sound, and the tree that is restored is sent as the same
node again. Otherwise the fault that is reported is that of the first node that is not sound, each
node coming before the nodes below it and the left ones before the right ones. -/
theorem restore_sound (x : Transport) :
    ((∃ t, x.restore = .ok t) ↔ ∀ y ∈ x.nodes, y.Sound) ∧
    (∀ t, x.restore = .ok t → ofTree t = x) ∧
    ∀ e, x.restore = .error e ↔ ∃ before y after fault, x.nodes = before ++ y :: after ∧
      (∀ z ∈ before, z.Sound) ∧ y.Faulty fault ∧ e = .illFormed fault := by
  refine ⟨?_, fun t h => ofTree_of_toTree (restore_eq_ok_iff.1 h), fun e => ?_⟩
  · simp only [restore_eq_ok_iff, exists_toTree_eq_ok_iff]
  · -- the error names the fault, so the two sides differ in the form only
    rw [restore_eq_error_iff]
    constructor
    · rintro ⟨fault, h, rfl⟩
      obtain ⟨before, y, after, hnodes, hy, hbefore⟩ := toTree_eq_error_iff.1 h
      exact ⟨before, y, after, fault, hnodes, fun z hz => sound_iff.2 (hbefore z hz), hy, rfl⟩
    · rintro ⟨before, y, after, fault, hnodes, hbefore, hy, rfl⟩
      exact ⟨fault, toTree_eq_error_iff.2
        ⟨before, y, after, hnodes, hy, fun z hz => sound_iff.1 (hbefore z hz)⟩, rfl⟩

/-- An operator that lacks a child is reported for that, although the child that it has is at fault
as well; but the operand on the left of it comes first. -/
theorem restore_sound_severalFaults :
    let empty : Transport := .node .operand (some "") none none
    let half : Transport := .node .operator (some "AND") (some empty) none
    let whole : Transport := .node .operator (some "OR") (some half) (some empty)
    let last : Transport := .node .operator (some "OR") (some empty) (some half)
    whole.restore = .error (.illFormed (.operatorWithoutChildren "AND")) ∧
      last.restore = .error (.illFormed .operandWithoutValue) ∧
      ∀ t, (ofTree (.node (.logical .or) (.operand "a") (.operand "b"))).restore = .ok t →
        ofTree t = ofTree (.node (.logical .or) (.operand "a") (.operand "b")) := by
  intro empty half whole last
  refine ⟨((restore_sound whole).2.2 _).2 ⟨[whole], half, [empty, empty], _, rfl, ?_,
    .operatorWithoutChildren (.logical .and) (.inr rfl), rfl⟩, ((restore_sound last).2.2 _).2
    ⟨[last], empty, [half, empty], _, rfl, ?_, .operandWithoutValue ?_, rfl⟩,
    (restore_sound _).2.1⟩
  · rintro z hz
    rw [List.mem_singleton.1 hz]
    exact .operator (.logical .or) half empty
  · rintro z hz
    rw [List.mem_singleton.1 hz]
    exact .operator (.logical .or) empty half
  · rintro text h
    exact (Option.some.inj h).symm

end Rulebook.Transport
