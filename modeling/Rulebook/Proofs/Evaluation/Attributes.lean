import Mathlib.Data.List.Basic
import Rulebook.Proofs.Evaluation.FirstFault

/-!
# What an evaluation reads

Of a context, an evaluation reads the values of the attributes that its tree refers to, and all of
them. This module proves both halves (`Tree.evaluate_reads`).

* Nothing else is read: two contexts that give the same values to these attributes, or no values,
  cannot be told apart, neither by the value or the error nor by the record (`Tree.evaluate_congr`,
  `Tree.execute_congr`).
* Each of them is read: where a tree has a value, taking the value of one of them away leaves the
  tree with the error that names this attribute (`Tree.evaluate_eq_unknownAttribute`). Its first use
  comes before every use of it, and what is evaluated before that has a value still.

The attributes of a tree are collected from its operands, apart from any evaluation. That both
recursions read an operand in the same way is said once, for a single operand
(`Context.operand_congr`, `Context.operand_eq_unknownAttribute`).
-/

namespace Rulebook

variable {ctx ctx' : Context}

/-! ### The attributes of a tree -/

/-- Putting names in order loses none. -/
theorem mem_foldr_insertName {a : String} {names : List String} :
    a ∈ names.foldr insertName [] ↔ a ∈ names := by
  induction names with
  | nil => exact Iff.rfl
  | cons n ns ih => rw [List.foldr_cons, mem_insertName, ih, List.mem_cons]

namespace Tree

/-- An operand refers to the attribute that it names, if it names one. -/
@[simp]
theorem mem_attributes_operand {a text : String} :
    a ∈ (operand text).attributes ↔ attributeOf text = some a := by
  simp [attributes, operands, mem_foldr_insertName]

/-- An operator refers to the attributes of its two sides. -/
@[simp]
theorem mem_attributes_node {a : String} {op : Operator} {l r : Tree} :
    a ∈ (node op l r).attributes ↔ a ∈ l.attributes ∨ a ∈ r.attributes := by
  simp only [attributes, operands, mem_foldr_insertName, List.filterMap_append, List.mem_append]

end Tree

/-! ### Reading an operand -/

/-- An operand names an attribute if it is read as one. -/
theorem Tree.attributeOf_eq_some_iff {text a : String} :
    attributeOf text = some a ↔ Operand.ofText text = .attribute a := by
  unfold attributeOf
  cases Operand.ofText text <;> simp

/-- The value of an operand is read from the attribute that it names, if it names one. -/
theorem Context.operand_congr {text : String}
    (h : ∀ a, Tree.attributeOf text = some a → ctx.get? a = ctx'.get? a) :
    ctx.operand text = ctx'.operand text := by
  unfold Context.operand
  split
  · rfl
  · rfl
  · -- of the three kinds of operands only this one looks at the context
    next name hop => rw [h name (Tree.attributeOf_eq_some_iff.2 hop)]

/-- An operand that names an attribute without a value is at fault. -/
theorem Context.operand_eq_unknownAttribute {text a : String} (h : Tree.attributeOf text = some a)
    (ha : ctx.get? a = none) : ctx.operand text = .error (.unknownAttribute a) := by
  rw [Context.operand, Tree.attributeOf_eq_some_iff.1 h]
  simp only [ha]

/-! ### Contexts without an attribute -/

namespace Context

/-- Takes a name and its value away. -/
def erase (c : Context) (name : String) : Context :=
  ⟨c.entries.filter fun e => e.1 ≠ name,
    List.Nodup.sublist (List.filter_sublist.map Prod.fst) c.nodup⟩

/-- A name that is taken away has no value, and the others keep theirs. -/
@[simp]
theorem get?_erase (c : Context) (name other : String) :
    (c.erase name).get? other = if name = other then none else c.get? other := by
  unfold get? erase Entries.find?
  rw [List.find?_filter]
  by_cases h : name = other
  · -- no entry that was left has the name
    subst h
    simp
  · -- the entries of the other name were all left
    rw [if_neg h]
    congr 2
    funext e
    by_cases he : e.1 = other
    · simp [he, Ne.symm h]
    · simp [he]

end Context

/-! ### Evaluations -/

namespace Tree

/-- Contexts that agree on the attributes of a tree give the same value and the same record, or the
same error. -/
theorem run_congr {t : Tree} (h : ∀ a ∈ t.attributes, ctx.get? a = ctx'.get? a)
    (path : List Side) : t.run ctx path = t.run ctx' path := by
  induction t generalizing path with
  | operand text =>
    have htext := Context.operand_congr fun a ha => h a (mem_attributes_operand.2 ha)
    rw [run, run, htext]
  | node op l r ihl ihr =>
    -- the attributes of a side are among those of the tree
    have hl := ihl fun a ha => h a (mem_attributes_node.2 (.inl ha))
    have hr := ihr fun a ha => h a (mem_attributes_node.2 (.inr ha))
    rw [run, run, hl, hr]

/-- Contexts that agree on the attributes of a tree give it the same value, or the same error. -/
theorem evaluate_congr {t : Tree} (h : ∀ a ∈ t.attributes, ctx.get? a = ctx'.get? a) :
    t.evaluate ctx = t.evaluate ctx' := by
  rw [← run_value ctx [], ← run_value ctx' [], run_congr h]

/-- Contexts that agree on the attributes of a tree lead to the same outcome. -/
theorem execute_congr {t : Tree} (h : ∀ a ∈ t.attributes, ctx.get? a = ctx'.get? a)
    (traced : Bool) : t.execute ctx traced = t.execute ctx' traced := by
  rw [execute, execute, run_congr h, evaluate_congr h]

/-- Where a tree has a value, it has none in a context that lacks one of its attributes and is the
same everywhere else: the error names this attribute. -/
theorem evaluate_eq_unknownAttribute {t : Tree} {v : Value} {a : String}
    (hv : t.evaluate ctx = .ok v) (ha : a ∈ t.attributes) (hnone : ctx'.get? a = none)
    (hsame : ∀ b, b ≠ a → ctx.get? b = ctx'.get? b) :
    t.evaluate ctx' = .error (.unknownAttribute a) := by
  induction t generalizing v with
  | operand text => exact Context.operand_eq_unknownAttribute (mem_attributes_operand.1 ha) hnone
  | node op l r ihl ihr =>
    obtain ⟨x, hx, y, hy, -⟩ := evaluate_node_eq_ok_iff.1 hv
    rw [evaluate_node_eq_error_iff]
    by_cases hl : a ∈ l.attributes
    · exact .inl (ihl hx hl)
    · -- the left side does not notice, so the first use is on the right
      have hr : a ∈ r.attributes := (mem_attributes_node.1 ha).resolve_left hl
      have hleft : l.evaluate ctx' = .ok x := by
        rw [← hx]
        refine (evaluate_congr fun b hb => hsame b ?_).symm
        rintro rfl
        exact hl hb
      exact .inr ⟨x, hleft, .inl (ihr hy hr)⟩

/-- **Evaluation reads exactly the attributes of the tree.** Contexts that agree on them give the
same value or the same error, and the same record. Where a tree has a value, taking one of its
attributes out of the context leaves the error that names this attribute, and taking any other
name out changes nothing. -/
theorem evaluate_reads (t : Tree) :
    (∀ ctx ctx' : Context, (∀ a ∈ t.attributes, ctx.get? a = ctx'.get? a) →
      t.evaluate ctx = t.evaluate ctx' ∧
        ∀ traced, t.execute ctx traced = t.execute ctx' traced) ∧
    ∀ (ctx : Context) (v : Value), t.evaluate ctx = .ok v → ∀ a,
      (a ∈ t.attributes → t.evaluate (ctx.erase a) = .error (.unknownAttribute a)) ∧
      (a ∉ t.attributes → t.evaluate (ctx.erase a) = .ok v ∧
        ∀ traced, t.execute (ctx.erase a) traced = t.execute ctx traced) := by
  refine ⟨fun ctx ctx' h => ⟨evaluate_congr h, execute_congr h⟩, fun ctx v hv a => ⟨?_, ?_⟩⟩
  · intro ha
    refine evaluate_eq_unknownAttribute hv ha (by simp) fun b hb => ?_
    rw [Context.get?_erase, if_neg (Ne.symm hb)]
  · intro ha
    have hsame : ∀ b ∈ t.attributes, (ctx.erase a).get? b = ctx.get? b := by
      intro b hb
      rw [Context.get?_erase, if_neg]
      rintro rfl
      exact ha hb
    exact ⟨(evaluate_congr hsame).trans hv, execute_congr hsame⟩

/-- Only the operand without quotes is read from the context, so taking away the name that is
spelt with quotes changes nothing. -/
theorem evaluate_reads_quotedName :
    ∃ (t : Tree) (ctx : Context), t.evaluate ctx = .ok (.boolean true) ∧
      t.evaluate (ctx.erase "name") = .error (.unknownAttribute "name") ∧
      t.evaluate (ctx.erase "'name'") = .ok (.boolean true) := by
  let t : Tree := .node (.logical .or)
    (.node (.relating .greater) (.operand "age") (.operand "30"))
    (.node (.relating .equal) (.operand "'name'") (.operand "name"))
  let ctx : Context :=
    .ofList [("name", .string "name"), ("'name'", .number 1), ("age", .number 20)]
  have hv : t.evaluate ctx = .ok (.boolean true) := by decide +kernel
  have hread := (evaluate_reads t).2 ctx _ hv
  exact ⟨t, ctx, hv, (hread "name").1 (by decide +kernel),
    ((hread "'name'").2 (by decide +kernel)).1⟩

end Tree

end Rulebook
