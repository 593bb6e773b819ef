import Rulebook.Proofs.Exchange.Height
import Rulebook.Proofs.Exchange.Shape
import Rulebook.Proofs.Http.Evaluation

/-!
# How large the trees are that are evaluated

A tree that is read from a rule, or combined from rules, has at most `maxOperators` operators, and
so at most one level more. The service evaluates trees of two origins (`Request.Evaluates`): trees
of stored rules, which keep that limit, and trees that are sent to be evaluated, which only have to
be well formed. A request for an evaluation that evaluates neither is declined
(`Request.AsksEvaluation.evaluates_or_declines`).

What bounds a tree that is sent is the reader of JSON. A document opens at most 127 objects inside
one another, the object around the tree is one of them, and a tree has as many levels as its JSON
opens objects (`levels_le_of_treeOfJson`). So such a tree has at most 126 levels. That is the only
limit: whatever tree has no more levels and no empty operand is evaluated, if it fits into a body
(`evaluates_of_posts`).

All of this together is `evaluates_limits`. A chain of 101 operators, which is one more than any
rule may have, shows that the limit of stored rules is not kept by trees that are sent
(`exists_evaluates_tooMany`).
-/

namespace Rulebook

namespace Transport

/-- A tree has no more levels than the JSON value that it is restored from is high. -/
theorem levels_le_of_treeOfJson {v : Json} {t : Tree} (h : treeOfJson v = .ok t) :
    t.levels ≤ v.height := by
  obtain ⟨x, hx, hrestore⟩ := bind_eq_ok_iff.1 h
  -- the node that was read is the tree in transit
  rw [← height_ofTree, ofTree_of_toTree (restore_eq_ok_iff.1 hrestore)]
  exact height_le_of_read (mapError_eq_ok_iff.1 hx)

/-- What is wrong with a node in transit is nothing of an evaluation. -/
theorem restore_ne_eval {x : Transport} {e : RuleError} (h : x.restore = .error e)
    (fault : EvalError) : e ≠ .eval fault := by
  obtain ⟨_, -, rfl⟩ := restore_eq_error_iff.1 h
  exact RuleError.noConfusion

/-- What is wrong with a JSON value in the place of a tree is nothing of an evaluation. -/
theorem treeOfJson_ne_eval {v : Json} {e : RuleError} (h : treeOfJson v = .error e)
    (fault : EvalError) : e ≠ .eval fault := by
  -- either no node was read, or it stands for no tree
  rcases bind_eq_error_iff.1 h with h | ⟨x, -, h⟩
  · obtain ⟨_, -, rfl⟩ := mapError_eq_error_iff.1 h
    exact RuleError.noConfusion
  · exact restore_ne_eval h fault

end Transport

namespace Http

/-- A payload is read from a document. -/
theorem Request.exists_read_of_payload {α : Type} {read : Nat → Json.Document → Except Json.Fault α}
    {q : Request} {p : α} (h : q.payload read = .ok p) : ∃ d, read Json.maxDepth d = .ok p := by
  unfold payload at h
  split at h
  · cases h
  · split at h
    · cases h
    · exact ⟨_, (Json.readWhole_eq_ok_iff.1 (mapError_eq_ok_iff.1 h)).1⟩

/-- A tree that is read with a payload is lower than the payload may be. -/
theorem TreeEvaluation.height_le_of_read {depth : Nat} {d : Json.Document} {p : TreeEvaluation}
    {ast : Json} (h : read (depth + 1) d = .ok p) (hast : p.ast = some ast) :
    ast.height ≤ depth := by
  -- the value that has been found keeps the bound, whatever fields are read after it
  refine Json.record_invariant (fun p => ∀ v, p.ast = some v → v.height ≤ depth) nofun
    (fun n hn slot hslot p d p' hp hread => ?_) h ast hast
  cases hn
  simp only [slots, List.mem_cons, List.not_mem_nil, or_false] at hslot
  rcases hslot with rfl | rfl | rfl <;>
    obtain ⟨a, ha, hread⟩ := bind_eq_ok_iff.1 hread <;> cases hread
  · -- only this field brings a value
    intro v hv
    have hsome : a = some v := hv
    exact Json.height_le_of_readAny (Json.readOptional_eq_ok_some (hsome ▸ ha))
  · exact hp
  · exact hp

/-! ### Which trees are evaluated -/

/-- Serving the request means evaluating the tree in the context. -/
inductive Request.Evaluates (q : Request) (c : Catalogue) : Tree → Context → Bool → Prop
  /-- The tree is that of a rule in the store. -/
  | stored {i : Int64} {p : RuleEvaluation} {r : StoredRule} {tree : Tree} {context : Context}
      (haction : q.action = .ok (.evaluateRule i))
      (hpayload : q.payload RuleEvaluation.read = .ok p)
      (hcontext : p.context = some context) (hr : c.get? i = some r) (htree : r.tree = .ok tree) :
      q.Evaluates c tree context p.traced
  /-- The tree is sent with the request. -/
  | sent {p : TreeEvaluation} {ast : Json} {tree : Tree} {context : Context}
      (haction : q.action = .ok .evaluateTree) (hpayload : q.payload TreeEvaluation.read = .ok p)
      (hast : p.ast = some ast) (hcontext : p.context = some context)
      (htree : Transport.treeOfJson ast = .ok tree) : q.Evaluates c tree context p.traced

variable {c : Catalogue} {q : Request} {tree : Tree} {context : Context} {traced : Bool}

/-- The request is answered with the reply, and changes nothing. -/
def Request.GetsReply (q : Request) (c : Catalogue) (m : Moment) (reply : Reply) : Prop :=
  serve Catalogue.backend m q c = ⟨c, reply.response.trimmed q.method, reply.events⟩

/-- A request that means the evaluation of a tree is answered with it. -/
theorem Request.Evaluates.getsReply (h : q.Evaluates c tree context traced) (m : Moment) :
    q.GetsReply c m (evaluated m.elapsed tree context traced) := by
  cases h with
  -- the rule is fetched, and its tree restored
  | stored haction hpayload hcontext hr htree =>
    rw [GetsReply, serve, plan_evaluateRule haction hpayload, evaluateRule, hcontext]
    dsimp only [Plan.run, Catalogue.backend, Catalogue.perform]
    rw [hr]
    dsimp only [Reply.ofFound, Reply.ofAnswer]
    rw [htree]
    rfl
  -- the tree is restored from the payload
  | sent haction hpayload hast hcontext htree =>
    rw [GetsReply, serve, plan_evaluateTree haction hpayload, evaluateTree, hast, hcontext]
    dsimp only
    rw [htree]
    rfl

/-! ### Requests for an evaluation -/

/-- The request asks for an evaluation. -/
def Request.AsksEvaluation (q : Request) : Prop :=
  q.action = .ok .evaluateTree ∨ ∃ i, q.action = .ok (.evaluateRule i)

/-- The reply shows nothing of an evaluation: the request is refused, or it fails for a reason that
is none of an evaluation. -/
def Reply.Declines (reply : Reply) : Prop :=
  (∃ why, reply = .refused why) ∨ ∃ e, reply = .failure e ∧ ∀ fault, e ≠ .rule (.eval fault)

namespace Reply

theorem declines_refused (why : Refusal) : (refused why).Declines :=
  .inl ⟨why, rfl⟩

theorem declines_invalid (unmet : List Unmet) : (failure (.invalid unmet)).Declines :=
  .inr ⟨_, rfl, nofun⟩

theorem declines_unknownRule (id : Int64) : (failure (.unknownRule id)).Declines :=
  .inr ⟨_, rfl, nofun⟩

/-- What is wrong with a rule before it is evaluated is no fault of the evaluation. -/
theorem declines_rule {e : RuleError} (h : ∀ fault, e ≠ .eval fault) :
    (failure (.rule e)).Declines :=
  .inr ⟨_, rfl, fun fault he => h fault (ServiceError.rule.inj he)⟩

end Reply

/-- A request to evaluate a tree that is sent evaluates one, or it is declined. -/
theorem evaluates_or_declines_of_evaluateTree (haction : q.action = .ok .evaluateTree)
    (c : Catalogue) (m : Moment) : (∃ tree context traced, q.Evaluates c tree context traced) ∨
      ∃ reply : Reply, reply.Declines ∧ q.GetsReply c m reply := by
  unfold Request.GetsReply
  cases hpayload : q.payload TreeEvaluation.read with
  -- no payload was read
  | error why =>
    refine .inr ⟨_, Reply.declines_refused why, ?_⟩
    rw [serve, Request.plan, haction]
    dsimp only
    rw [Request.planWith, hpayload]
    rfl
  | ok p =>
    rw [serve, Request.plan_evaluateTree haction hpayload, evaluateTree]
    -- tree and context are there, or the demands are not met
    split
    · next ast context hast hcontext =>
      -- the value is restored to a tree, or it is at fault
      split
      · next tree htree => exact .inl ⟨_, _, _, .sent haction hpayload hast hcontext htree⟩
      · next e he => exact .inr ⟨_, Reply.declines_rule (Transport.treeOfJson_ne_eval he), rfl⟩
    · exact .inr ⟨_, Reply.declines_invalid p.unmet, rfl⟩

/-- A request to evaluate a stored rule evaluates its tree, or it is declined. -/
theorem evaluates_or_declines_of_evaluateRule {i : Int64}
    (haction : q.action = .ok (.evaluateRule i)) (c : Catalogue) (m : Moment) :
    (∃ tree context traced, q.Evaluates c tree context traced) ∨
      ∃ reply : Reply, reply.Declines ∧ q.GetsReply c m reply := by
  unfold Request.GetsReply
  cases hpayload : q.payload RuleEvaluation.read with
  -- no payload was read
  | error why =>
    refine .inr ⟨_, Reply.declines_refused why, ?_⟩
    rw [serve, Request.plan, haction]
    dsimp only
    rw [Request.planWith, hpayload]
    rfl
  | ok p =>
    rw [serve, Request.plan_evaluateRule haction hpayload, evaluateRule]
    -- the context may be missing
    split
    · exact .inr ⟨_, Reply.declines_invalid p.unmet, rfl⟩
    · next context hcontext =>
      dsimp only [Plan.run, Catalogue.backend, Catalogue.perform]
      cases hr : c.get? i with
      -- no rule has the number
      | none => exact .inr ⟨_, Reply.declines_unknownRule i, rfl⟩
      | some r =>
        dsimp only [Reply.ofFound, Reply.ofAnswer]
        -- of a stored rule the tree may be at fault, as far as the plan can tell
        split
        · next tree htree => exact .inl ⟨_, _, _, .stored haction hpayload hcontext hr htree⟩
        · next e he => exact .inr ⟨_, Reply.declines_rule (Transport.restore_ne_eval he), rfl⟩

/-- **Every request for an evaluation is answered with the evaluation of a tree**, or it is
declined. -/
theorem Request.AsksEvaluation.evaluates_or_declines (hq : q.AsksEvaluation) (c : Catalogue)
    (m : Moment) : (∃ tree context traced, q.Evaluates c tree context traced) ∨
      ∃ reply : Reply, reply.Declines ∧ q.GetsReply c m reply := by
  rcases hq with haction | ⟨i, haction⟩
  · exact evaluates_or_declines_of_evaluateTree haction c m
  · exact evaluates_or_declines_of_evaluateRule haction c m

/-! ### Limits -/

/-- The tree of a stored rule has the operators that a rule may have. -/
theorem operatorCount_le_of_agrees {r : StoredRule} (hr : r.Agrees) (h : r.tree = .ok tree) :
    tree.operatorCount ≤ maxOperators ∧ tree.levels ≤ maxOperators + 1 := by
  obtain ⟨t, hparse, ht⟩ := hr
  cases h.symm.trans ht
  have hreadable := Parser.readable_of_parse hparse
  exact ⟨hreadable.operators, hreadable.levels_le⟩

/-- Of the levels of a text, the object around a tree that is sent takes one. -/
theorem levels_le_of_payload {p : TreeEvaluation} {ast : Json}
    (hpayload : q.payload TreeEvaluation.read = .ok p) (hast : p.ast = some ast)
    (htree : Transport.treeOfJson ast = .ok tree) : tree.levels ≤ 126 := by
  obtain ⟨d, hd⟩ := Request.exists_read_of_payload hpayload
  exact Nat.le_trans (Transport.levels_le_of_treeOfJson htree)
    (TreeEvaluation.height_le_of_read hd hast)

/-- A tree without empty operands that is posted is evaluated, however many operators it has, if it
has no more levels than can be read. -/
theorem evaluates_of_posts (hne : ∀ s ∈ tree.operands, s ≠ "") (hlevels : tree.levels ≤ 126)
    (hq : q.Posts "/api/rules/evaluate" [("ast", (Transport.ofTree tree).toJson),
      ("context", context.toJson), ("trace", .boolean traced)]) :
    q.Evaluates c tree context traced := by
  have hheight : (Transport.ofTree tree).toJson.height ≤ 126 :=
    Transport.height_ofTree tree ▸ hlevels
  -- the payload is read back, with the context that was sent
  have hpayload := Request.Posts.payload_evaluateTree (Transport.regular_toJson _)
    (Transport.ne_null_of_rearranged _ (.refl _)) hheight (.said traced) hq
  rw [context.ofList_entries] at hpayload
  exact .sent (action_evaluateTree hq.method hq.path) hpayload rfl rfl
    (Transport.treeOfJson_toJson hne)

/-- **How large the trees are that are evaluated.** Take any requests to a service over an empty
catalogue. A request for an evaluation that comes next is answered with the evaluation of a tree,
or it is declined. If the tree is that of a stored rule, it has at most `maxOperators` operators and
one level more; in any case it has at most 126 levels. Of a tree that is sent nothing else is
demanded: every tree of at most 126 levels without empty operands is evaluated when it is posted,
whatever the number of its operators is. -/
theorem evaluates_limits (visits : List Visit) :
    let c := stateAfter Catalogue.backend Catalogue.empty visits
    (∀ (q : Request) (m : Moment), q.AsksEvaluation →
      (∃ tree context traced, q.Evaluates c tree context traced ∧
        q.GetsReply c m (evaluated m.elapsed tree context traced)) ∨
      ∃ reply : Reply, reply.Declines ∧ q.GetsReply c m reply) ∧
    (∀ (q : Request) (tree : Tree) (context : Context) (traced : Bool),
      q.Evaluates c tree context traced → tree.levels ≤ 126 ∧
        ∀ i, q.action = .ok (.evaluateRule i) →
          tree.operatorCount ≤ maxOperators ∧ tree.levels ≤ maxOperators + 1) ∧
    ∀ (q : Request) (tree : Tree) (context : Context) (traced : Bool),
      q.Posts "/api/rules/evaluate" [("ast", (Transport.ofTree tree).toJson),
        ("context", context.toJson), ("trace", .boolean traced)] →
      (∀ s ∈ tree.operands, s ≠ "") → tree.levels ≤ 126 →
      q.Evaluates c tree context traced ∧
        ∀ m, q.GetsReply c m (evaluated m.elapsed tree context traced) := by
  intro c
  have hagrees : c.Agrees := stateAfter_invariant serve_agrees Catalogue.agrees_empty visits
  refine ⟨fun q m hq => ?_, fun q tree context traced h => ?_,
    fun q tree context traced hq hne hlevels => ?_⟩
  · -- declined requests and evaluations are answered in different ways
    rcases hq.evaluates_or_declines c m with ⟨tree, context, traced, h⟩ | hdeclined
    · exact .inl ⟨tree, context, traced, h, h.getsReply m⟩
    · exact .inr hdeclined
  · cases h with
    | stored _ _ _ hr htree =>
      -- what is stored was read from its text
      have hlimits := operatorCount_le_of_agrees (hagrees _ (List.mem_of_find?_eq_some hr)) htree
      exact ⟨Nat.le_trans hlimits.2 (by decide), fun _ _ => hlimits⟩
    | sent haction hpayload hast _ htree =>
      refine ⟨levels_le_of_payload hpayload hast htree, fun i hi => ?_⟩
      cases haction.symm.trans hi
  · have h : q.Evaluates c tree context traced := evaluates_of_posts hne hlevels hq
    exact ⟨h, h.getsReply⟩

/-! ### A tree with too many operators -/

/-- The conjunction of `n + 1` operands. -/
def chain : Nat → Tree
  | 0 => .operand "a"
  | n + 1 => .node (.logical .and) (chain n) (.operand "a")

theorem operatorCount_chain (n : Nat) : (chain n).operatorCount = n := by
  induction n with
  | zero => rfl
  | succ n ih => rw [chain, Tree.operatorCount_node, ih, Tree.operatorCount_operand]

theorem levels_chain (n : Nat) : (chain n).levels = n + 1 := by
  induction n with
  | zero => rfl
  | succ n ih =>
    rw [chain, Tree.levels, Tree.levels, ih]
    omega

/-- No operand of a chain is empty. -/
theorem operand_chain_ne_empty {n : Nat} {s : String} (hs : s ∈ (chain n).operands) : s ≠ "" := by
  induction n with
  | zero =>
    rw [List.mem_singleton.1 hs]
    decide
  | succ n ih =>
    rcases List.mem_append.1 hs with hs | hs
    · exact ih hs
    · rw [List.mem_singleton.1 hs]
      decide

/-- The context in which a chain holds. -/
def chainContext : Context := .ofList [("a", .boolean true)]

/-- In this context a chain holds, however long it is. -/
theorem evaluate_chain (n : Nat) : (chain n).evaluate chainContext = .ok (.boolean true) := by
  have hoperand : chainContext.operand "a" = .ok (.boolean true) := by decide +kernel
  induction n with
  | zero => exact hoperand
  | succ n ih =>
    rw [chain, Tree.evaluate, Tree.evaluate, ih, hoperand]
    rfl

/-- What is posted to evaluate a chain. -/
def chainMembers (n : Nat) : List (String × Json) :=
  [("ast", (Transport.ofTree (chain n)).toJson), ("context", chainContext.toJson),
    ("trace", .boolean false)]

/-- The text of a chain grows by at most a hundred characters with each operator. -/
theorem length_write_chain (n : Nat) :
    (Transport.ofTree (chain n)).toJson.write.length ≤ 100 * (n + 1) := by
  induction n with
  | zero => decide +kernel
  | succ n ih =>
    have hleaf : (Transport.ofTree (.operand "a")).toJson.write.length = 30 := by decide +kernel
    -- a node is written with fixed words around its children
    have htexts : (Json.writeString "type").length = 6 ∧ (Json.writeString "value").length = 7 ∧
        (Json.writeString "left").length = 6 ∧ (Json.writeString "right").length = 7 ∧
        (Json.writeString NodeKind.operator.name).length = 10 ∧
        (Json.writeString (Operator.logical .and).symbol).length = 5 := by decide +kernel
    rw [chain, Transport.ofTree, Transport.toJson]
    simp only [Json.write, Json.writeMembers, List.cons_append, List.nil_append, List.length_cons,
      List.length_append, List.length_nil, hleaf, htexts]
    omega

/-- A chain that can be read is evaluated, and has a value. -/
theorem evaluates_chain {n : Nat} (hn : n ≤ 125) (c : Catalogue) (m : Moment) :
    let q := posted "/api/rules/evaluate" (chainMembers n)
    q.Evaluates c (chain n) chainContext false ∧
      (serve Catalogue.backend m q c).response.status = 200 := by
  intro q
  have hposts : q.Posts "/api/rules/evaluate" (chainMembers n) := by
    refine posts_posted (.object (by simp [chainMembers, Entries.names]) ?_) ?_
    · simp only [chainMembers, List.forall_mem_cons]
      exact ⟨Transport.regular_toJson _, chainContext.regular_toJson, .boolean false, nofun⟩
    · -- a chain that can be read is far from filling a body
      have hsize := Json.size_text_le (.object (chainMembers n))
      have htree := length_write_chain n
      have htexts : (Json.writeString "ast").length = 5 ∧ (Json.writeString "context").length = 9 ∧
          (Json.writeString "trace").length = 7 ∧ chainContext.toJson.write.length = 10 ∧
          (Json.boolean false).write.length = 5 := by decide +kernel
      simp only [chainMembers, Json.write, Json.writeMembers, List.length_cons,
        List.length_append, List.length_nil, htexts] at hsize
      exact Nat.le_trans hsize (by rw [maxBodySize]; omega)
  have hevaluates : q.Evaluates c (chain n) chainContext false :=
    evaluates_of_posts (fun _ => operand_chain_ne_empty)
      (by rw [levels_chain]; exact Nat.succ_le_succ hn) hposts
  refine ⟨hevaluates, ?_⟩
  rw [hevaluates.getsReply m, Response.trimmed_status, evaluated, Tree.execute,
    if_neg (by decide), evaluate_chain]
  rfl

/-- **Trees with too many operators are evaluated.** A chain of 101 operators, which is one more
than a rule may have, is evaluated when it is sent. -/
theorem exists_evaluates_tooMany :
    let q := posted "/api/rules/evaluate" (chainMembers 101)
    q.Evaluates Catalogue.empty (chain 101) chainContext false ∧
      maxOperators < (chain 101).operatorCount ∧ maxOperators + 1 < (chain 101).levels ∧
      (serve Catalogue.backend ⟨⟨0, 0⟩, 0⟩ q Catalogue.empty).response.status = 200 := by
  have hn : 101 ≤ 125 := by decide
  obtain ⟨hevaluates, hstatus⟩ := evaluates_chain hn Catalogue.empty ⟨⟨0, 0⟩, 0⟩
  refine ⟨hevaluates, ?_, ?_, hstatus⟩
  · rw [operatorCount_chain]
    decide
  · rw [levels_chain]
    decide

end Http

end Rulebook
