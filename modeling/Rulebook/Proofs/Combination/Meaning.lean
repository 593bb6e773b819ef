import Mathlib.Algebra.Ring.Nat
import Mathlib.Data.List.Perm.Basic
import Rulebook.Proofs.Combination

/-!
# What a combination means

A combination under `AND` holds where all of its rules hold, and one under `OR` where some rule
does; but it has a value only where every rule has a truth value of its own
(`evaluate_eq_ok_iff_yields`).
No rule is passed over: one that has no value, or a number or a text for its value, leaves the
combination without a value wherever it stands in the list.

* `combine_eq_ok_iff` says when rules can be combined, and into which tree: each can be read, and
  the left fold of what is read (`Tree.joined`) has no more than `maxOperators` operators. The fold
  has as many operators in any order of the rules.
* `Tree.evaluate_joined_eq_ok_iff` evaluates the fold. It is proved from the first rule on, with the
  rules joined so far as one tree, so that the step is the law of a single connective
  (`Tree.evaluate_logical_eq_ok_iff`).
-/

namespace Rulebook

/-- Joins any number of truth values. -/
def Connective.joinAll : Connective → List Bool → Bool
  | .and, bs => bs.all id
  | .or, bs => bs.any id

/-- Joining truth values one by one is joining them all. -/
theorem Connective.foldl_join (c : Connective) (b : Bool) (bs : List Bool) :
    bs.foldl c.join b = c.joinAll (b :: bs) := by
  induction bs generalizing b with
  | nil => cases c <;> simp [joinAll]
  | cons b' bs ih =>
    rw [List.foldl_cons, ih]
    cases c with
    | and => simp [joinAll, join, Bool.and_assoc]
    | or => simp [joinAll, join, Bool.or_assoc]

/-- The order of truth values does not matter when they are joined. -/
theorem Connective.joinAll_perm (c : Connective) {bs bs' : List Bool} (h : bs.Perm bs') :
    c.joinAll bs = c.joinAll bs' := by
  cases c with
  -- that all hold, or that some do, is a matter of which ones there are
  | and =>
    rw [joinAll, joinAll, Bool.eq_iff_iff, List.all_eq_true, List.all_eq_true]
    simp [h.mem_iff]
  | or =>
    rw [joinAll, joinAll, Bool.eq_iff_iff, List.any_eq_true, List.any_eq_true]
    simp [h.mem_iff]

namespace Tree

/-- Trees joined by a connective from left to right. -/
def joined (c : Connective) (first : Tree) (rest : List Tree) : Tree :=
  rest.foldl (fun left right => .node (.logical c) left right) first

theorem joined_cons (c : Connective) (first t : Tree) (rest : List Tree) :
    joined c first (t :: rest) = joined c (.node (.logical c) first t) rest := rfl

/-- Joining trees adds one operator for each tree that is joined to the first. -/
theorem operatorCount_joined (c : Connective) (first : Tree) (rest : List Tree) :
    (joined c first rest).operatorCount =
      ((first :: rest).map operatorCount).sum + rest.length := by
  -- the first tree grows, so it is not fixed
  induction rest generalizing first with
  | nil => simp [joined]
  | cons t rest ih =>
    rw [joined_cons, ih]
    simp only [List.map_cons, List.sum_cons, operatorCount_node, List.length_cons]
    omega

/-- A connective has a value exactly where both of its sides have truth values. -/
theorem evaluate_logical_eq_ok_iff {ctx : Context} {c : Connective} {l r : Tree} {v : Value} :
    (node (.logical c) l r).evaluate ctx = .ok v ↔
      ∃ a b, l.evaluate ctx = .ok (.boolean a) ∧ r.evaluate ctx = .ok (.boolean b) ∧
        v = .boolean (c.join a b) := by
  rw [evaluate, bind_eq_ok_iff]
  constructor
  · rintro ⟨x, hx, h⟩
    obtain ⟨y, hy, hv⟩ := bind_eq_ok_iff.1 h
    -- of all pairs of kinds only that of two truth values is joined
    cases x <;> cases y <;> cases hv
    exact ⟨_, _, hx, hy, rfl⟩
  · rintro ⟨a, b, ha, hb, rfl⟩
    exact ⟨_, ha, bind_eq_ok_iff.2 ⟨_, hb, rfl⟩⟩

/-- Joined trees have a truth value exactly where each of them has one. -/
theorem evaluate_joined_eq_ok_iff {ctx : Context} {c : Connective} {first : Tree}
    {rest : List Tree} {b : Bool} :
    (joined c first rest).evaluate ctx = .ok (.boolean b) ↔
      ∃ bs, List.Forall₂ (fun t b => t.evaluate ctx = .ok (.boolean b)) (first :: rest) bs ∧
        b = c.joinAll bs := by
  induction rest generalizing first with
  | nil =>
    constructor
    · exact fun h => ⟨[b], .cons h .nil, c.foldl_join b []⟩
    · rintro ⟨bs, hbs, rfl⟩
      obtain _ | ⟨hb, _ | _⟩ := hbs
      rw [← c.foldl_join]
      exact hb
  | cons t rest ih =>
    rw [joined_cons, ih]
    constructor
    · rintro ⟨bs, hbs, rfl⟩
      -- the first two trees have been joined, and their truth values with them
      obtain _ | ⟨hjoin, hbs⟩ := hbs
      obtain ⟨a, b, ha, hb, hab⟩ := evaluate_logical_eq_ok_iff.1 hjoin
      cases hab
      exact ⟨_, .cons ha (.cons hb hbs), by rw [← c.foldl_join, ← c.foldl_join, List.foldl_cons]⟩
    · rintro ⟨bs, hbs, rfl⟩
      obtain _ | ⟨ha, _ | ⟨hb, hbs⟩⟩ := hbs
      refine ⟨_, .cons (evaluate_logical_eq_ok_iff.2 ⟨_, _, ha, hb, rfl⟩) hbs, ?_⟩
      rw [← c.foldl_join, ← c.foldl_join, List.foldl_cons]

/-- Where at least two trees have been joined, the connective is at the root. -/
theorem joined_eq_node (c : Connective) (first : Tree) {rest : List Tree} (hrest : rest ≠ []) :
    ∃ l r, joined c first rest = .node (.logical c) l r := by
  -- the tree that is joined last is on the right of the root
  rcases List.eq_nil_or_concat rest with rfl | ⟨front, last, rfl⟩
  · exact absurd rfl hrest
  · exact ⟨joined c first front, last, by simp [joined]⟩

end Tree

namespace Combination

/-- Joining rules one after another succeeds exactly if each can be read and the tree that comes of
it has no more than `maxOperators` operators; these are the operators that are counted. -/
theorem foldlM_join_eq_ok_iff {c : Connective} {first t : Tree} {n : Nat} {rules : List String}
    (hfirst : first.operatorCount ≤ maxOperators) :
    rules.foldlM (join c) (first, first.operatorCount) = .ok (t, n) ↔
      ∃ rest, List.Forall₂ (fun rule t => Parser.parse rule = .ok t) rules rest ∧
        t = Tree.joined c first rest ∧ n = t.operatorCount ∧ t.operatorCount ≤ maxOperators := by
  induction rules generalizing first with
  -- nothing is left to join
  | nil =>
    constructor
    · rintro ⟨⟩
      exact ⟨[], .nil, rfl, rfl, hfirst⟩
    · rintro ⟨rest, hrest, rfl, rfl, -⟩
      cases hrest
      rfl
  | cons rule rules ih =>
    rw [List.foldlM_cons, bind_eq_ok_iff]
    constructor
    · rintro ⟨joined, hjoin, h⟩
      obtain ⟨u, hu, hn, rfl⟩ := join_eq_ok_iff.1 hjoin
      have hle : (Tree.node (.logical c) first u).operatorCount ≤ maxOperators := hn
      obtain ⟨rest, hrest, hjoined⟩ := (ih hle).1 h
      exact ⟨u :: rest, .cons hu hrest, hjoined⟩
    · rintro ⟨ts, hts, rfl, rfl, hn⟩
      obtain ⟨u, rest, hu, hrest, rfl⟩ := List.forall₂_cons_left_iff.1 hts
      -- what has been joined so far has no more operators than the whole
      have hle : (Tree.node (.logical c) first u).operatorCount ≤ maxOperators := by
        rw [Tree.joined_cons, Tree.operatorCount_joined, List.map_cons, List.sum_cons] at hn
        omega
      exact ⟨_, join_eq_ok_iff.2 ⟨u, hu, hle, rfl⟩, (ih hle).2 ⟨rest, hrest, rfl, rfl, hn⟩⟩

/-- Rules can be combined exactly if there are any, each can be read, and what they are joined to
has no more than `maxOperators` operators. -/
theorem combine_eq_ok_iff {c : Connective} {rules : List String} {t : Tree} :
    combine c rules = .ok t ↔
      ∃ first rest, List.Forall₂ (fun rule t => Parser.parse rule = .ok t) rules (first :: rest) ∧
        t = Tree.joined c first rest ∧ t.operatorCount ≤ maxOperators := by
  cases rules with
  | nil =>
    constructor
    · rintro ⟨⟩
    · rintro ⟨first, rest, hrules, -⟩
      cases hrules
  | cons rule rules =>
    rw [combine, bind_eq_ok_iff]
    constructor
    · rintro ⟨first, hfirst, h⟩
      obtain ⟨⟨joined, n⟩, hjoined, h⟩ := bind_eq_ok_iff.1 h
      cases h
      have hfirst := readRule_eq_ok_iff.1 hfirst
      have hn := (Parser.readable_of_parse hfirst).operators
      obtain ⟨rest, hrest, ht, -, hle⟩ := (foldlM_join_eq_ok_iff hn).1 hjoined
      exact ⟨first, rest, .cons hfirst hrest, ht, hle⟩
    · -- a single rule keeps the limit since it could be read
      rintro ⟨first, rest, hrules, ht, hle⟩
      obtain _ | ⟨hfirst, hrest⟩ := hrules
      have hn := (Parser.readable_of_parse hfirst).operators
      exact ⟨first, readRule_eq_ok_iff.2 hfirst, bind_eq_ok_iff.2
        ⟨(t, t.operatorCount), (foldlM_join_eq_ok_iff hn).2 ⟨rest, hrest, ht, rfl, hle⟩, rfl⟩⟩

/-- The rule, read and evaluated on its own, has the truth value. -/
def Yields (ctx : Context) (rule : String) (b : Bool) : Prop :=
  ∃ t, Parser.parse rule = .ok t ∧ t.evaluate ctx = .ok (.boolean b)

/-- Rules that are read have truth values exactly where their trees have them. -/
theorem forall₂_yields_iff {ctx : Context} {rules : List String} {ts : List Tree} {bs : List Bool}
    (h : List.Forall₂ (fun rule t => Parser.parse rule = .ok t) rules ts) :
    List.Forall₂ (Yields ctx) rules bs ↔
      List.Forall₂ (fun t b => t.evaluate ctx = .ok (.boolean b)) ts bs := by
  induction h generalizing bs with
  | nil => constructor <;> rintro ⟨⟩ <;> exact .nil
  | cons hparse _ ih =>
    constructor
    · rintro (_ | ⟨⟨t, ht, hb⟩, hbs⟩)
      -- a rule is read as one tree only
      cases hparse.symm.trans ht
      exact .cons hb (ih.1 hbs)
    · rintro (_ | ⟨hb, hbs⟩)
      exact .cons ⟨_, hparse, hb⟩ (ih.2 hbs)

/-- A combination of several rules has a value exactly where each rule has a truth value on its own,
and then these are joined. -/
theorem evaluate_eq_ok_iff {c : Connective} {rules : List String} {t : Tree}
    (hn : 2 ≤ rules.length) (h : combine c rules = .ok t) {ctx : Context} {v : Value} :
    t.evaluate ctx = .ok v ↔
      ∃ bs, List.Forall₂ (Yields ctx) rules bs ∧ v = .boolean (c.joinAll bs) := by
  obtain ⟨first, rest, hrules, rfl, -⟩ := combine_eq_ok_iff.1 h
  have hlength := hrules.length_eq
  have hrest : rest ≠ [] := by
    rintro rfl
    rw [List.length_singleton] at hlength
    omega
  simp only [forall₂_yields_iff hrules]
  constructor
  · intro hv
    -- with a connective at the root the value is a truth value
    obtain ⟨l, r, hnode⟩ := Tree.joined_eq_node c first hrest
    obtain ⟨a, b, -, -, rfl⟩ := Tree.evaluate_logical_eq_ok_iff.1 (hnode ▸ hv)
    obtain ⟨bs, hbs, hb⟩ := Tree.evaluate_joined_eq_ok_iff.1 hv
    exact ⟨bs, hbs, congrArg Value.boolean hb⟩
  · rintro ⟨bs, hbs, rfl⟩
    exact Tree.evaluate_joined_eq_ok_iff.2 ⟨bs, hbs, rfl⟩

/-- Rules that can be combined can be combined in any order. -/
theorem exists_combine_of_perm {c : Connective} {rules rules' : List String} {t : Tree}
    (hperm : rules'.Perm rules) (h : combine c rules = .ok t) :
    ∃ t', combine c rules' = .ok t' := by
  obtain ⟨first, rest, hrules, rfl, hle⟩ := combine_eq_ok_iff.1 h
  obtain ⟨ts, hts, htsperm⟩ := List.perm_comp_forall₂ hperm hrules
  cases ts with
  | nil => exact absurd htsperm (List.nil_perm.not.2 (List.cons_ne_nil _ _))
  | cons first' rest' =>
    refine ⟨_, combine_eq_ok_iff.2 ⟨first', rest', hts, rfl, ?_⟩⟩
    -- the operators are the same ones, and there are as many connectives
    have hsum := (htsperm.map Tree.operatorCount).sum_nat
    have hlen := htsperm.length_eq
    rw [Tree.operatorCount_joined] at hle ⊢
    simp only [List.length_cons] at hlen
    omega

/-- **What a combination means.** Where several rules have been combined, the combination has a
value exactly where each of the rules, read on its own, has a truth value; its value is then whether
all of them hold, or whether some do. Everywhere else evaluating it fails. In any other order the
rules can be combined too, to a rule that has a value in the same contexts, and the same one. -/
theorem evaluate_eq_ok_iff_yields {c : Connective} {rules : List String} {t : Tree}
    (hn : 2 ≤ rules.length) (h : combine c rules = .ok t) :
    (∀ ctx v, t.evaluate ctx = .ok v ↔
      ∃ bs, List.Forall₂ (Yields ctx) rules bs ∧ v = .boolean (c.joinAll bs)) ∧
    (∀ ctx, (¬ ∃ bs, List.Forall₂ (Yields ctx) rules bs) → ∃ e, t.evaluate ctx = .error e) ∧
    ∀ rules', rules'.Perm rules → ∃ t', combine c rules' = .ok t' ∧
      ∀ ctx v, t'.evaluate ctx = .ok v ↔ t.evaluate ctx = .ok v := by
  refine ⟨fun ctx v => evaluate_eq_ok_iff hn h, fun ctx hbs => ?_, fun rules' hperm => ?_⟩
  · -- a value would have come from truth values of the rules
    cases hv : t.evaluate ctx with
    | error e => exact ⟨e, rfl⟩
    | ok v =>
      obtain ⟨bs, hyields, -⟩ := (evaluate_eq_ok_iff hn h).1 hv
      exact absurd ⟨bs, hyields⟩ hbs
  · obtain ⟨t', ht'⟩ := exists_combine_of_perm hperm h
    refine ⟨t', ht', fun ctx v => ?_⟩
    rw [evaluate_eq_ok_iff (hperm.length_eq ▸ hn) ht', evaluate_eq_ok_iff hn h]
    constructor
    · -- the truth values are put in the order of the rules
      rintro ⟨bs, hbs, rfl⟩
      obtain ⟨bs', hbs', hbsperm⟩ := List.perm_comp_forall₂ hperm.symm hbs
      exact ⟨bs', hbs', by rw [c.joinAll_perm hbsperm]⟩
    · rintro ⟨bs, hbs, rfl⟩
      obtain ⟨bs', hbs', hbsperm⟩ := List.perm_comp_forall₂ hperm hbs
      exact ⟨bs', hbs', by rw [c.joinAll_perm hbsperm]⟩

/-- A context in which `a` is a number and `b` and `c` are truth values. -/
def sampleContext : Context :=
  .ofList [("a", .number 2), ("b", .boolean true), ("c", .boolean true)]

/-- Three rules, the second with a connective of its own, have truth values; so their combination
has one, in the reverse order as well. -/
theorem evaluate_eq_ok_iff_yields_three :
    ∃ t t', combine .and ["a > 1", "b OR c", "c"] = .ok t ∧
      combine .and ["c", "b OR c", "a > 1"] = .ok t' ∧
      (∃ bs, List.Forall₂ (Yields sampleContext) ["a > 1", "b OR c", "c"] bs ∧
        Connective.and.joinAll bs = true) ∧
      t'.evaluate sampleContext = .ok (.boolean true) := by
  have h : combine .and ["a > 1", "b OR c", "c"] = .ok (.node (.logical .and)
      (.node (.logical .and) (.node (.relating .greater) (.operand "a") (.operand "1"))
        (.node (.logical .or) (.operand "b") (.operand "c"))) (.operand "c")) := by
    decide +kernel
  obtain ⟨hvalue, -, hperm⟩ := evaluate_eq_ok_iff_yields (by decide) h
  obtain ⟨t', ht', hsame⟩ := hperm _ (List.reverse_perm _)
  obtain ⟨bs, hbs, hb⟩ := (hvalue sampleContext (.boolean true)).1 (by decide +kernel)
  exact ⟨_, t', h, ht', ⟨bs, hbs, (Value.boolean.inj hb).symm⟩,
    (hsame sampleContext _).2 (by decide +kernel)⟩

end Combination

end Rulebook
