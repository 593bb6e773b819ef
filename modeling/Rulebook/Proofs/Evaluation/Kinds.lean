import Rulebook.Proofs.Evaluation.Attributes

/-!
# Whether a rule has a value depends on kinds only

No operator looks at a value to decide whether it applies: it looks at the kinds of its two sides.
So the kinds of the attributes alone decide whether a tree has a value, of which kind this value is,
and which error there is otherwise (`Tree.evaluate_kinds`). Two contexts that differ in values but
not in kinds cannot be told apart by the success of a rule, nor by an error.

* `Tree.kindIn` is the discipline that evaluation follows without saying so: it reckons with kinds
  as evaluation does with values. A number out of range has no kind, since it has no value in any
  context.
* `Tree.map_type_evaluate` says that the discipline is exact: it foresees the kind of every value
  and the text of every error. The law of a single operator (`Operator.map_type_apply`) is its step.
* `Tree.kindIn_congr` says that only the kinds of the attributes of the tree matter.
-/

namespace Rulebook

variable {ctx ctx' : Context} {kinds kinds' : String → Option ValueType}

/-! ### Reckoning with kinds -/

/-- The kind of an attribute, if it has a value. -/
def Context.kind? (c : Context) (name : String) : Option ValueType :=
  (c.get? name).map Value.type

/-- The kind of what an operator makes of two sides of the given kinds. -/
def Operator.kindOf (op : Operator) (left right : ValueType) : Except EvalError ValueType :=
  match op, left, right with
  | .logical _, .boolean, .boolean => .ok .boolean
  | .relating _, .number, .number => .ok .boolean
  | .relating .equal, .string, .string => .ok .boolean
  | .relating .unequal, .string, .string => .ok .boolean
  | op, l, r => .error (.typeMismatch op l r)

/-- The kind of an operand where attributes have the given kinds. -/
def Operand.kindIn (kinds : String → Option ValueType) (text : String) :
    Except EvalError ValueType :=
  match Operand.ofText text with
  | .number digits =>
    match Text.toInt64? (Text.value digits.toList) with
    | some _ => .ok .number
    | none => .error (.numberOutOfRange digits)
  | .text _ => .ok .string
  | .attribute name =>
    match kinds name with
    | some k => .ok k
    | none => .error (.unknownAttribute name)

/-- The kind of a tree's value where attributes have the given kinds. -/
def Tree.kindIn (kinds : String → Option ValueType) : Tree → Except EvalError ValueType
  | .operand text => Operand.kindIn kinds text
  | .node op left right => do
    let l ← left.kindIn kinds
    let r ← right.kindIn kinds
    op.kindOf l r

/-- What is reckoned of a tree comes from the kinds of its attributes. -/
theorem Tree.kindIn_congr {t : Tree} (h : ∀ a ∈ t.attributes, kinds a = kinds' a) :
    t.kindIn kinds = t.kindIn kinds' := by
  induction t with
  | operand text =>
    unfold kindIn Operand.kindIn
    split
    · rfl
    · rfl
    · -- only here the kinds are asked
      next name hop =>
      have hname := attributeOf_eq_some_iff.2 hop
      rw [h name (mem_attributes_operand.2 hname)]
  | node op l r ihl ihr =>
    have hl := ihl fun a ha => h a (mem_attributes_node.2 (.inl ha))
    have hr := ihr fun a ha => h a (mem_attributes_node.2 (.inr ha))
    rw [kindIn, kindIn, hl, hr]

/-! ### The reckoning is exact -/

/-- Whether an operator applies, and what kind of value it gives, is seen from the kinds of its
sides. -/
theorem Operator.map_type_apply (op : Operator) (a b : Value) :
    (op.apply a b).map Value.type = op.kindOf a.type b.type := by
  cases op with
  | logical c => cases a <;> cases b <;> rfl
  | relating c => cases c <;> cases a <;> cases b <;> rfl

/-- Every operator gives a truth value. -/
theorem Operator.exists_boolean_of_apply {op : Operator} {a b v : Value}
    (h : op.apply a b = .ok v) : ∃ x, v = .boolean x := by
  cases op with
  | logical c =>
    cases a <;> cases b <;> cases h
    exact ⟨_, rfl⟩
  | relating c =>
    -- apart from two numbers, only two texts are related, and only for being equal or not
    cases c <;> cases a <;> cases b <;> cases h <;> exact ⟨_, rfl⟩

/-- The kinds of the attributes foresee the kind of an operand's value, or its error. -/
theorem Context.map_type_operand (c : Context) (text : String) :
    (c.operand text).map Value.type = Operand.kindIn c.kind? text := by
  unfold Context.operand Operand.kindIn Context.kind?
  rcases Operand.ofText text with digits | content | name
  · dsimp only
    cases Text.toInt64? (Text.value digits.toList) <;> rfl
  · rfl
  · dsimp only
    cases c.get? name <;> rfl

/-- The kinds of the attributes foresee the kind of a tree's value, or its error. -/
theorem Tree.map_type_evaluate (c : Context) (t : Tree) :
    (t.evaluate c).map Value.type = t.kindIn c.kind? := by
  induction t with
  | operand text => exact c.map_type_operand text
  | node op l r ihl ihr =>
    rw [evaluate, kindIn, ← ihl, ← ihr]
    -- an error on the left is foreseen there, and so is one on the right
    cases l.evaluate c with
    | error e => rfl
    | ok a =>
      cases r.evaluate c with
      | error e => rfl
      | ok b => exact op.map_type_apply a b

/-! ### Contexts of the same kinds -/

/-- Kinds have different names. -/
theorem ValueType.name_injective : Function.Injective ValueType.name := by
  intro k k' h
  cases k <;> cases k' <;> first | rfl | exact absurd h (by decide)

/-- The name of the kind of an attribute's value, if it has a value. -/
def Context.kindName? (c : Context) (a : String) : Option String :=
  (c.get? a).map fun v => v.type.name

/-- Kinds are told apart by their names. -/
theorem Context.kind?_eq_of_kindName? {a : String} (h : ctx.kindName? a = ctx'.kindName? a) :
    ctx.kind? a = ctx'.kind? a := by
  have hname : ∀ c : Context, c.kindName? a = (c.kind? a).map ValueType.name := by
    intro c
    rw [kindName?, Context.kind?, Option.map_map]
    rfl
  rw [hname, hname] at h
  exact Option.map_injective ValueType.name_injective h

/-- **Success depends on kinds only.** In two contexts that give the attributes of a tree values of
the same kinds, and the same ones of them no value, evaluating the tree fails with the same error,
or succeeds with values of the same kind. A tree with an operator at its root has no value but a
truth value. -/
theorem Tree.evaluate_kinds (t : Tree) :
    (∀ ctx ctx' : Context, (∀ a ∈ t.attributes, ctx.kindName? a = ctx'.kindName? a) →
      (∃ e, t.evaluate ctx = .error e ∧ t.evaluate ctx' = .error e) ∨
      ∃ v v', t.evaluate ctx = .ok v ∧ t.evaluate ctx' = .ok v' ∧ v.type = v'.type) ∧
    ∀ op, t.rootOperator? = some op →
      ∀ (ctx : Context) (v : Value), t.evaluate ctx = .ok v → ∃ b, v = .boolean b := by
  refine ⟨fun ctx ctx' h => ?_, fun op hop ctx v hv => ?_⟩
  · -- both evaluations are foreseen by one reckoning
    refine map_eq_map_iff.1 ?_
    calc (t.evaluate ctx).map Value.type
        = t.kindIn ctx.kind? := map_type_evaluate ctx t
      _ = t.kindIn ctx'.kind? := kindIn_congr fun a ha => Context.kind?_eq_of_kindName? (h a ha)
      _ = (t.evaluate ctx').map Value.type := (map_type_evaluate ctx' t).symm
  · -- an operand has no operator at its root
    cases t with
    | operand text => cases hop
    | node op l r =>
      obtain ⟨a, -, b, -, h⟩ := evaluate_node_eq_ok_iff.1 hv
      exact Operator.exists_boolean_of_apply h

/-- The two contexts give the attributes values of the same kinds, and neither knows `team`. The
first rule has both its truth values; the second fails for want of `team`, although its other side
is a comparison with `null`. -/
theorem Tree.evaluate_kinds_twoContexts :
    ∃ (t u : Tree) (ctx ctx' : Context),
      (∀ a ∈ t.attributes ++ u.attributes, ctx.kindName? a = ctx'.kindName? a) ∧
      (∃ v v', t.evaluate ctx = .ok v ∧ t.evaluate ctx' = .ok v' ∧ v ≠ v' ∧ v.type = v'.type) ∧
      ∃ e, u.evaluate ctx = .error e ∧ u.evaluate ctx' = .error e := by
  let t : Tree := .node (.logical .and)
    (.node (.relating .equal) (.operand "name") (.operand "'Ann'")) (.operand "active")
  let u : Tree := .node (.logical .or) (.operand "team")
    (.node (.relating .less) (.operand "age") (.operand "30"))
  let ctx : Context :=
    .ofList [("name", .string "Ann"), ("active", .boolean true), ("age", .null)]
  let ctx' : Context :=
    .ofList [("age", .null), ("name", .string "Bob"), ("active", .boolean true)]
  have h : ∀ a ∈ t.attributes ++ u.attributes, ctx.kindName? a = ctx'.kindName? a := by
    decide +kernel
  have ht := (evaluate_kinds t).1 ctx ctx' fun a ha => h a (List.mem_append_left _ ha)
  have hu := (evaluate_kinds u).1 ctx ctx' fun a ha => h a (List.mem_append_right _ ha)
  have htv : t.evaluate ctx = .ok (.boolean true) := by decide +kernel
  have htv' : t.evaluate ctx' = .ok (.boolean false) := by decide +kernel
  have hue : u.evaluate ctx = .error (.unknownAttribute "team") := by decide +kernel
  refine ⟨t, u, ctx, ctx', h, ?_, ?_⟩
  · obtain ⟨e, he, -⟩ | ⟨v, v', hv, hv', htype⟩ := ht
    · cases htv.symm.trans he
    · refine ⟨v, v', hv, hv', ?_, htype⟩
      cases htv.symm.trans hv
      cases htv'.symm.trans hv'
      decide
  · obtain ⟨e, he⟩ | ⟨v, v', hv, -⟩ := hu
    · exact ⟨e, he⟩
    · cases hue.symm.trans hv

end Rulebook
