import Rulebook.Proofs.Parser.Run

/-!
# What the reader makes of a rule

The reader takes the tokens of a rule one by one and never looks back; the grammar says what a rule
denotes as a whole. This module proves that they agree: a rule is read as a tree exactly when its
words are tokens, its tokens derive the tree, and no more than `maxOperators` of them are operators
(`build_eq_ok_iff_derives`).

* From reader to grammar, the invariant is `State.Reads`: the content of the innermost group is
  what the tokens behind the last open parenthesis denote so far, and the same holds of the hole of
  every group around it. Each of the five shapes a content can have is one constructor of `Reads`;
  every step keeps it (`State.Reads.step`).
* From grammar to reader, `run_of_derives` runs through the tokens of a derivation at any hole
  that its level can fill (`Fits`), inside any open groups, and ends with the hole filled.

Both directions need to know when a comparison behind a whole tree takes all of it (`Closed`), and
that filling a hole leaves a tree of which this is known (`Sealed`).
-/

namespace Rulebook.Parser

open Grammar

/-! ### What an operator takes -/

/-- A comparison behind the whole tree takes all of it. -/
def Closed (t : Tree) (grouped : Bool) : Prop :=
  ∀ c, State.spineBehind t grouped (.relating c) = [(t, .relating c)]

/-- The whole tree that comes of filling the hole of a spine with `t` is marked as a group only if
the spine is empty, and then a comparison behind it takes all of `t`. -/
structure Sealed (spine : Spine) (t : Tree) (grouped : Bool) : Prop where
  closed : spine = [] → Closed t grouped
  ungrouped : spine ≠ [] → grouped = false

/-- A comparison never reaches into a group. -/
theorem closed_grouped (t : Tree) : Closed t true := by
  intro c
  cases t with
  | operand text => rfl
  | node op l r => cases op <;> rfl

theorem closed_relating (c : Comparison) (l r : Tree) (grouped : Bool) :
    Closed (.node (.relating c) l r) grouped :=
  fun _ => rfl

/-- An operand in a hole is no group. -/
theorem sealed_operand (spine : Spine) (text : String) : Sealed spine (.operand text) false :=
  ⟨fun _ _ => rfl, fun _ => rfl⟩

theorem sealed_relating (spine : Spine) (c : Comparison) (l r : Tree) :
    Sealed spine (.node (.relating c) l r) false :=
  ⟨fun _ => closed_relating c l r false, fun _ => rfl⟩

/-- A group is a whole group only where nothing has been read around it. -/
theorem sealed_group (spine : Spine) (t : Tree) : Sealed spine t spine.isEmpty := by
  constructor
  · rintro rfl
    exact closed_grouped t
  · intro h
    simpa using h

/-- A connective takes the whole tree. -/
theorem spineBehind_logical (t : Tree) (grouped : Bool) (c : Connective) :
    State.spineBehind t grouped (.logical c) = [(t, .logical c)] := by
  cases t with
  | operand text => rfl
  | node op l r => cases op <;> rfl

/-! ### From reader to grammar -/

/-- The content is what the tokens of a group denote so far. -/
inductive Reads : Content → List Token → Prop where
  | empty : Reads (.hole []) []
  | joining {ts : List Token} {l : Tree} (c : Connective) (hl : Derives .expression ts l) :
      Reads (.hole [(l, .logical c)]) (ts ++ [.operator (.logical c)])
  | relating {ts : List Token} {l : Tree} (c : Comparison) (hl : Derives .comparison ts l) :
      Reads (.hole [(l, .relating c)]) (ts ++ [.operator (.relating c)])
  /-- The comparison has reached into the connective and taken its right operand. -/
  | relatingWithin {ts us : List Token} {l m : Tree} (k : Connective) (c : Comparison)
      (hl : Derives .expression ts l) (hm : Derives .comparison us m) :
      Reads (.hole [(m, .relating c), (l, .logical k)])
        (ts ++ .operator (.logical k) :: (us ++ [.operator (.relating c)]))
  | closed {ts : List Token} {t : Tree} {grouped : Bool} (h : Derives .comparison ts t)
      (hc : Closed t grouped) : Reads (.whole t grouped) ts
  /-- A connective outside of every group within this one: a comparison reaches into it. -/
  | joined {ts us : List Token} {l r : Tree} (c : Connective) (hl : Derives .expression ts l)
      (hr : Derives .comparison us r) :
      Reads (.whole (.node (.logical c) l r) false) (ts ++ .operator (.logical c) :: us)

namespace Reads

variable {ts us : List Token}

/-- A whole tree is derived by its tokens. -/
theorem derives {t : Tree} {grouped : Bool} (h : Reads (.whole t grouped) ts) :
    Derives .expression ts t := by
  cases h with
  | closed h _ => exact .comparison h
  | joined c hl hr => exact .join c hl hr

/-- Filling a hole with a primary reads the tokens of the primary. -/
theorem fill {spine : Spine} {t : Tree} {grouped : Bool} (h : Reads (.hole spine) ts)
    (ht : Derives .primary us t) (hs : Sealed spine t grouped) :
    Reads (.whole (spine.fill t) grouped) (ts ++ us) := by
  cases h with
  -- the primary is all that has been read of the group
  | empty => exact .closed (.primary ht) (hs.closed rfl)
  | joining c hl =>
    rw [hs.ungrouped (List.cons_ne_nil _ _), List.append_assoc]
    exact .joined c hl (.primary ht)
  -- the primary is the right side of a comparison, which is closed
  | relating c hl =>
    rw [List.append_assoc]
    exact .closed (.relate c hl ht) (closed_relating c _ _ grouped)
  | relatingWithin k c hl hm =>
    rw [hs.ungrouped (List.cons_ne_nil _ _), List.append_assoc, List.cons_append,
      List.append_assoc]
    exact .joined k hl (.relate c hm ht)

/-- An operator behind a whole tree opens the hole that its tokens call for. -/
theorem operator {t : Tree} {grouped : Bool} (h : Reads (.whole t grouped) ts) (op : Operator) :
    Reads (.hole (State.spineBehind t grouped op)) (ts ++ [.operator op]) := by
  cases op with
  | logical c =>
    rw [spineBehind_logical]
    exact .joining c h.derives
  | relating c =>
    cases h with
    | closed h hc =>
      rw [hc c]
      exact .relating c h
    -- the comparison reaches into the connective
    | joined k hl hr =>
      rw [List.append_assoc, List.cons_append]
      exact .relatingWithin k c hl hr

end Reads

/-- The content and the spines that wait around it are what the tokens of a rule denote so far. -/
inductive ReadsWithin : List Spine → Content → List Token → Prop where
  | outside {content : Content} {ts : List Token} (h : Reads content ts) :
      ReadsWithin [] content ts
  | inside {outer : Spine} {groups : List Spine} {content : Content} {ts us : List Token}
      (ho : ReadsWithin groups (.hole outer) ts) (h : Reads content us) :
      ReadsWithin (outer :: groups) content (ts ++ .openParen :: us)

/-- What changes in the innermost group alone leaves the groups around it as they are. -/
theorem ReadsWithin.extend {groups : List Spine} {content content' : Content} {ts us : List Token}
    (h : ReadsWithin groups content ts)
    (hc : ∀ vs, Reads content vs → Reads content' (vs ++ us)) :
    ReadsWithin groups content' (ts ++ us) := by
  cases h with
  | outside h => exact .outside (hc _ h)
  | inside ho h =>
    rw [List.append_assoc, List.cons_append]
    exact .inside ho (hc _ h)

/-- The state is what the tokens read so far denote, and counts their operators. -/
structure State.Reads (s : State) (ts : List Token) : Prop where
  content : ReadsWithin s.groups s.content ts
  operators : s.operators = ts.countP Token.isOperator
  operators_le : s.operators ≤ maxOperators

theorem State.reads_start : State.start.Reads [] :=
  ⟨.outside .empty, rfl, Nat.zero_le _⟩

/-- **Every step keeps the invariant.** -/
theorem State.Reads.step {s s' : State} {ts : List Token} {t : Token} (hs : s.Reads ts)
    (h : Step s t s') : s'.Reads (ts ++ [t]) := by
  obtain ⟨hc, ho, hle⟩ := hs
  cases h with
  -- a new group begins, of which nothing has been read
  | openParen spine groups previous n =>
    refine ⟨.inside hc .empty, ?_, hle⟩
    rw [List.countP_append]
    exact ho
  | closeParen tree grouped outer groups previous n =>
    refine ⟨?_, ?_, hle⟩
    · -- the group is a primary that fills the hole around it
      cases hc with
      | inside houter hgroup =>
        rw [List.append_assoc, List.cons_append]
        exact houter.extend fun vs hv => hv.fill (.group hgroup.derives) (sealed_group outer tree)
    · rw [List.countP_append]
      exact ho
  -- what the operator opens is a matter of the innermost group alone
  | operator op tree grouped groups previous n hn =>
    refine ⟨hc.extend fun vs hv => hv.operator op, ?_, hn⟩
    rw [List.countP_append]
    exact congrArg (· + 1) ho
  | operand text spine groups previous n =>
    refine ⟨hc.extend fun vs hv => hv.fill (.operand text) (sealed_operand spine text), ?_, hle⟩
    rw [List.countP_append]
    exact ho

/-- What every step keeps, a run keeps. -/
theorem State.Reads.run {s s' : State} {ts us : List Token} (hs : s.Reads ts) (h : Run s us s') :
    s'.Reads (ts ++ us) := by
  induction h generalizing ts with
  | nil s => rwa [List.append_nil]
  | cons hstep _ ih =>
    rw [List.append_cons]
    exact ih (hs.step hstep)

/-- What is read as a rule is derived by the grammar, within the limit on operators. -/
theorem derives_of_build {words : List String} {t : Tree} (h : build words = .ok t) :
    ∃ tokens, words.mapM Token.ofWord? = some tokens ∧ Derives .expression tokens t ∧
      tokens.countP Token.isOperator ≤ maxOperators := by
  obtain ⟨tokens, s, htokens, hrun, hfin⟩ := build_eq_ok_iff.1 h
  obtain ⟨hc, ho, hle⟩ := State.reads_start.run hrun
  obtain ⟨grouped, hcontent, hgroups⟩ := State.finish_eq_ok_iff.1 hfin
  rw [hcontent, hgroups] at hc
  refine ⟨tokens, htokens, ?_, ho ▸ hle⟩
  -- no group is open at the end, so all the tokens are those of the tree
  cases hc with
  | outside hreads => exact hreads.derives

/-! ### From grammar to reader -/

/-- The spines whose holes a tree of the level can fill. -/
def Fits : Level → Spine → Prop
  | .primary, _ => True
  | .comparison, spine => spine = [] ∨ ∃ l c, spine = [(l, .logical c)]
  | .expression, spine => spine = []

/-- A comparison behind a filled hole takes what the hole was filled with, and no more. -/
theorem spineBehind_fill {spine : Spine} {t : Tree} {grouped : Bool} (hf : Fits .comparison spine)
    (hs : Sealed spine t grouped) (c : Comparison) :
    State.spineBehind (spine.fill t) grouped (.relating c) = (t, .relating c) :: spine := by
  rcases hf with rfl | ⟨l, k, rfl⟩
  · exact hs.closed rfl c
  · rw [hs.ungrouped (List.cons_ne_nil _ _)]
    rfl

/-- The operators of a node in the order in which they are read. -/
theorem add_operatorCount_node (n : Nat) (op : Operator) (l r : Tree) :
    n + (Tree.node op l r).operatorCount = n + l.operatorCount + 1 + r.operatorCount := by
  rw [Tree.operatorCount_node]
  omega

/-- **The tokens of a derivation are run through**, at every hole that the level can fill, inside
any open groups, as long as there is room for the operators. -/
theorem run_of_derives {level : Level} {ts : List Token} {t : Tree} (h : Derives level ts t) :
    ∀ {spine : Spine}, Fits level spine → ∀ (groups : List Spine) (previous : Option Token)
      (n : Nat), n + t.operatorCount ≤ maxOperators →
        ∃ grouped last,
          Run ⟨.hole spine, groups, previous, n⟩ ts
            ⟨.whole (spine.fill t) grouped, groups, last, n + t.operatorCount⟩ ∧
          (level ≠ .expression → Sealed spine t grouped) := by
  -- hole and groups vary in the induction: a right operand is read at the hole of its operator, and
  -- what stands in a group one level further in
  induction h with
  -- the operand fills the hole at once
  | operand text =>
    intro spine _ groups previous n _
    exact ⟨false, some (.operand text), .cons (.operand ..) (.nil _),
      fun _ => sealed_operand spine text⟩
  | @group ts t _ ih =>
    intro spine _ groups previous n hn
    obtain ⟨grouped, last, hrun, -⟩ := ih rfl (spine :: groups) (some .openParen) n hn
    -- the group in parentheses fills the hole that waited for it
    have hclose := Step.closeParen t grouped spine groups last (n + t.operatorCount)
    exact ⟨spine.isEmpty, some .closeParen,
      .cons (.openParen ..) (hrun.append (.cons hclose (.nil _))), fun _ => sealed_group spine t⟩
  | primary _ ih =>
    intro spine _ groups previous n hn
    obtain ⟨grouped, last, hrun, hsealed⟩ := ih trivial groups previous n hn
    exact ⟨grouped, last, hrun, fun _ => hsealed (by decide)⟩
  | @relate ts us l r c _ _ ihl ihr =>
    intro spine hf groups previous n hn
    rw [Tree.operatorCount_node] at hn
    obtain ⟨grouped, last, hrunl, hsealed⟩ := ihl hf groups previous n (by omega)
    -- the comparison leaves the left operand and the spine around it
    have hop := Step.operator (.relating c) (spine.fill l) grouped groups last
      (n + l.operatorCount) (by omega)
    rw [spineBehind_fill hf (hsealed (by decide))] at hop
    obtain ⟨grouped', last', hrunr, hsealed'⟩ :=
      ihr trivial groups (some (.operator (.relating c))) (n + l.operatorCount + 1) (by omega)
    rw [(hsealed' (by decide)).ungrouped (List.cons_ne_nil _ _)] at hrunr
    refine ⟨false, last', ?_, fun _ => sealed_relating spine c l r⟩
    rw [add_operatorCount_node]
    exact hrunl.append (.cons hop hrunr)
  | comparison _ ih =>
    intro spine hf groups previous n hn
    obtain ⟨grouped, last, hrun, -⟩ := ih (.inl hf) groups previous n hn
    exact ⟨grouped, last, hrun, fun h => absurd rfl h⟩
  | @join ts us l r c _ _ ihl ihr =>
    intro spine hf groups previous n hn
    cases hf
    rw [Tree.operatorCount_node] at hn
    -- the connective takes everything in front of it in the group
    obtain ⟨grouped, last, hrunl, -⟩ := ihl rfl groups previous n (by omega)
    have hop := Step.operator (.logical c) l grouped groups last (n + l.operatorCount) (by omega)
    rw [spineBehind_logical] at hop
    obtain ⟨grouped', last', hrunr, -⟩ :=
      ihr (.inr ⟨l, c, rfl⟩) groups (some (.operator (.logical c))) (n + l.operatorCount + 1)
        (by omega)
    refine ⟨grouped', last', ?_, fun h => absurd rfl h⟩
    rw [add_operatorCount_node]
    exact hrunl.append (.cons hop hrunr)

/-- What the grammar derives is read as a rule, within the limit on operators. -/
theorem build_of_derives {words : List String} {tokens : List Token} {t : Tree}
    (htokens : words.mapM Token.ofWord? = some tokens) (h : Derives .expression tokens t)
    (hn : t.operatorCount ≤ maxOperators) : build words = .ok t := by
  have hf : Fits .expression [] := rfl
  obtain ⟨grouped, last, hrun, -⟩ := run_of_derives h hf [] none 0 (by omega)
  exact build_eq_ok_iff.2 ⟨tokens, _, htokens, hrun, rfl⟩

/-- **The reader reads the grammar.** A list of words is read as a tree exactly when every word is a
token, the tokens derive the tree as an expression, and at most `maxOperators` of them are
operators. -/
theorem build_eq_ok_iff_derives (words : List String) (t : Tree) :
    build words = .ok t ↔
      ∃ tokens, words.mapM Token.ofWord? = some tokens ∧ Derives .expression tokens t ∧
        tokens.countP Token.isOperator ≤ maxOperators := by
  constructor
  · exact derives_of_build
  · rintro ⟨tokens, htokens, h, hn⟩
    exact build_of_derives htokens h (h.countP_isOperator ▸ hn)

-- both comparisons stay behind the connective, and the group stays whole
example : build ["a", "AND", "(", "b", ")", ">", "c", "=", "d"] =
    .ok (.node (.logical .and) (.operand "a")
      (.node (.relating .equal) (.node (.relating .greater) (.operand "b") (.operand "c"))
        (.operand "d"))) := by
  rfl

end Rulebook.Parser
