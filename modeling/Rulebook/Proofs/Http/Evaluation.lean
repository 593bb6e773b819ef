import Rulebook.Proofs.Evaluation.Attributes
import Rulebook.Proofs.Http.Agreement
import Rulebook.Proofs.Http.Paths
import Rulebook.Proofs.Http.Payloads

/-!
# Two ways to evaluate a stored rule

A rule can be evaluated where it is stored, or it can be fetched and the tree that is shown can be
sent back with a context. Both ways lead to the same answer (`response_evaluateRule_eq`): it says
what executing the tree comes to that the text of the rule is read as (`Response.ofExecution`). Only
the time that the evaluation takes may differ.

Neither way can fail before the tree is executed. The tree of a stored rule is restored because
text and tree agree; a tree that is sent has few enough levels to be read inside the body around it,
and is read as the node in transit that was shown. Whoever sends it need not keep the order of its
members, nor that of the context (`Request.PostsEvaluation`), since no reader asks for an order.
-/

namespace Rulebook

/-- The object without one of its members, and any other value as it is. -/
def Json.without (name : String) : Json → Json
  | .object members => .object (members.filter fun m => m.1 ≠ name)
  | v => v

/-- The object with another value under a name, and any other value as it is. -/
def Json.change (name : String) (f : Json → Json) : Json → Json
  | .object members => .object (members.map fun m => if m.1 = name then (m.1, f m.2) else m)
  | v => v

namespace Http

namespace Response

/-- The name of what an answer is about. -/
def code? (r : Response) : Option Json :=
  r.body >>= Json.member? "code"

/-- The tree that is shown with a rule. -/
def shownTree? (r : Response) : Option Json :=
  r.data? >>= Json.member? "ast"

/-- The answer without the time that the evaluation took. -/
def timeless (r : Response) : Response :=
  { r with body := r.body.map (Json.change "data" (Json.without "evaluationTimeUs")) }

end Response

/-! ### Executing a tree -/

/-- The answer that says what an execution has come to, which took so many microseconds: the value,
the lines of the record if one was asked for, and the time, or else what is wrong. -/
def Response.ofExecution (elapsed : Nat) (traced : Bool) : Except EvalError Outcome → Response
  | .ok o => ⟨200, some (.object [("success", .boolean true), ("code", .string "SUCCESS"),
      ("message", .string "操作成功"), ("data", .object ([("result", o.value.toJson)] ++
        (if traced then [("trace", .array (o.record.map fun e => .string e.text))] else []) ++
        [("evaluationTimeUs", .int elapsed)]))])⟩
  | .error e => ⟨400, some (.object [("success", .boolean false), ("code", .string e.code),
      ("message", .string ("规则执行失败: " ++ e.message)), ("data", .null)])⟩

/-- An evaluation is answered with what executing the tree has come to. -/
theorem response_evaluated (elapsed : Nat) (tree : Tree) (context : Context) (traced : Bool) :
    (evaluated elapsed tree context traced).response =
      .ofExecution elapsed traced (tree.execute context traced) := by
  unfold evaluated
  cases tree.execute context traced <;> rfl

section OfExecution

variable (traced : Bool) (result : Except EvalError Outcome)

/-- How long an execution takes does not matter for the status. -/
theorem status_ofExecution (elapsed elapsed' : Nat) :
    (Response.ofExecution elapsed traced result).status =
      (Response.ofExecution elapsed' traced result).status := by
  cases result <;> rfl

/-- How long an execution takes shows nowhere else. -/
theorem timeless_ofExecution (elapsed elapsed' : Nat) :
    (Response.ofExecution elapsed traced result).timeless =
      (Response.ofExecution elapsed' traced result).timeless := by
  cases result with
  | error e => rfl
  | ok o => cases traced <;> rfl

/-- An execution never comes to a value that is no tree or cannot be read. -/
theorem code?_ofExecution_ne (elapsed : Nat) :
    (Response.ofExecution elapsed traced result).code? ≠ some (.string "INVALID_AST") ∧
      (Response.ofExecution elapsed traced result).code? ≠ some (.string "JSON_ERROR") := by
  have hfault : ∀ e : EvalError, e.code ≠ "INVALID_AST" ∧ e.code ≠ "JSON_ERROR" := fun e => by
    cases e <;> simp [EvalError.code]
  have hname : ∀ {name code : String}, name ≠ code →
      some (Json.string name) ≠ some (.string code) :=
    fun hne h => hne (Json.string.inj (Option.some.inj h))
  cases result with
  | error e => exact ⟨hname (hfault e).1, hname (hfault e).2⟩
  | ok o => exact ⟨hname (by decide), hname (by decide)⟩

end OfExecution

/-! ### The two ways -/

/-- The request posts to the path what is to be evaluated, in which context, and whether that is
traced. The members may come in any order, the context may be any object that gives it, and a
request that is not to be traced need not say so. -/
def Request.PostsEvaluation (q : Request) (path : String) (subject : List (String × Json))
    (context : Context) (traced : Bool) : Prop :=
  ∃ given trace, context.IsGivenBy given ∧ SaysTrace trace traced ∧
    q.Posts path (subject ++ ("context", given) :: trace)

variable {c : Catalogue} {i : Int64} {r : StoredRule} {q : Request} {tree : Tree}
  {context : Context} {traced : Bool}

/-- A rule that is fetched is shown with its tree. -/
theorem shownTree?_getRule (hr : c.get? i = some r) (hmethod : q.method = "GET")
    (hpath : q.path = "/api/rules/" ++ Text.ofInt64 i) (m : Moment) :
    (serve Catalogue.backend m q c).response.shownTree? = some r.ast.toJson := by
  have hplan : q.plan m.elapsed = getRule i := by rw [Request.plan, action_getRule hmethod hpath]
  rw [response_serve hplan (hmethod ▸ by decide)]
  change (Reply.ofFound i _ (.ok (c.get? i))).response.shownTree? = _
  rw [hr]
  rfl

/-! The plans of the two actions, for a payload that has been read. -/

/-- A tree that is sent is evaluated as the payload says. -/
theorem Request.plan_evaluateTree {p : TreeEvaluation} (haction : q.action = .ok .evaluateTree)
    (hpayload : q.payload TreeEvaluation.read = .ok p) (elapsed : Nat) :
    q.plan elapsed = evaluateTree elapsed p := by
  rw [plan, haction]
  exact planWith_of_payload hpayload _

/-- A stored rule is evaluated as the payload says. -/
theorem Request.plan_evaluateRule {p : RuleEvaluation}
    (haction : q.action = .ok (.evaluateRule i))
    (hpayload : q.payload RuleEvaluation.read = .ok p) (elapsed : Nat) :
    q.plan elapsed = evaluateRule elapsed i p := by
  rw [plan, haction]
  exact planWith_of_payload hpayload _

/-- Evaluating a stored rule is executing its tree. -/
theorem serve_evaluateRule (hr : c.get? i = some r) (htree : r.tree = .ok tree)
    (hq : q.PostsEvaluation ("/api/rules/" ++ Text.ofInt64 i ++ "/evaluate") [] context traced)
    (m : Moment) : (serve Catalogue.backend m q c).response =
      .ofExecution m.elapsed traced (tree.execute context traced) := by
  obtain ⟨_, trace, ⟨es, rfl, hes⟩, htrace, hq⟩ := hq
  have hpayload : q.payload RuleEvaluation.read = .ok ⟨some (.ofList es), traced⟩ :=
    hq.payload_eq fun _ _ hperm h => RuleEvaluation.read_of_said htrace hperm h
  -- from here on only the answer of the store is open
  have hplan := Request.plan_evaluateRule (action_evaluateRule hq.method hq.path) hpayload m.elapsed
  rw [response_serve hplan (hq.method ▸ by decide)]
  change (Reply.ofFound i _ (.ok (c.get? i))).response = _
  rw [hr]
  dsimp only [Reply.ofFound, Reply.ofAnswer]
  rw [htree]
  dsimp only
  -- the context that was read gives the same values as the one that was meant
  rw [response_evaluated, Tree.execute_congr fun a _ => hes a]

/-- A value that is posted as a tree with a context is read back, if it is low enough to be read
inside the object around it. -/
theorem Request.Posts.payload_evaluateTree {ast : Json} {es : List (String × Value)}
    {trace : List (String × Json)} (hregular : ast.Regular) (hnull : ast ≠ .null)
    (hheight : ast.height ≤ 126) (htrace : SaysTrace trace traced)
    (hq : q.Posts "/api/rules/evaluate"
      (("ast", ast) :: ("context", .object (es.map fun e => (e.1, e.2.toJson))) :: trace)) :
    q.payload TreeEvaluation.read = .ok ⟨some ast, some (.ofList es), traced⟩ :=
  -- of the depth of a text, the object around the tree takes one level
  hq.payload_eq fun _ _ hperm h =>
    TreeEvaluation.read_of_said hregular hnull hheight htrace hperm h

/-- Evaluating a tree in transit, in whatever order its members come, is executing the tree. -/
theorem serve_evaluateTree {sent : Json} (htree : tree.Readable)
    (hsent : sent.Rearranged (Transport.ofTree tree).toJson)
    (hq : q.PostsEvaluation "/api/rules/evaluate" [("ast", sent)] context traced) (m : Moment) :
    (serve Catalogue.backend m q c).response =
      .ofExecution m.elapsed traced (tree.execute context traced) := by
  obtain ⟨_, trace, ⟨es, rfl, hes⟩, htrace, hq⟩ := hq
  -- what is sent is as high as what was shown, and this has few levels
  have hheight : sent.height ≤ 126 := by
    rw [hsent.height_eq, Transport.height_ofTree]
    exact Nat.le_trans htree.levels_le (by decide)
  have hpayload := hq.payload_evaluateTree (hsent.regular (Transport.regular_toJson _))
    (Transport.ne_null_of_rearranged _ hsent) hheight htrace
  have hplan : q.plan m.elapsed = .reply (evaluated m.elapsed tree (.ofList es) traced) := by
    rw [Request.plan_evaluateTree (action_evaluateTree hq.method hq.path) hpayload, evaluateTree]
    dsimp only
    rw [Transport.treeOfJson_of_rearranged htree.operand_ne_empty hsent]
  rw [response_serve hplan (hq.method ▸ by decide)]
  dsimp only [Plan.run]
  rw [response_evaluated, Tree.execute_congr fun a _ => hes a]

/-- **Both ways to evaluate a stored rule lead to the same answer.** After any requests to a service
over an empty catalogue, take a rule that is there under a number. Whoever fetches it is shown a
tree. Posting a context to the rule, and posting the shown tree with the same context, is answered
alike but for the time that the evaluation takes: in both cases with what executing the tree comes
to that the text of the rule is read as. The tree that is posted may have its members in another
order than the one that was shown. -/
theorem response_evaluateRule_eq {visits : List Visit} {c : Catalogue} {i : Int64} {r : StoredRule}
    (hc : stateAfter Catalogue.backend Catalogue.empty visits = c) (hr : c.get? i = some r) :
    ∃ shown tree, Parser.parse r.text = .ok tree ∧
      (∀ (q : Request) (m : Moment), q.method = "GET" →
        q.path = "/api/rules/" ++ Text.ofInt64 i →
        (serve Catalogue.backend m q c).response.shownTree? = some shown) ∧
      ∀ (context : Context) (traced : Bool) (sent : Json) (q₁ q₂ : Request) (m₁ m₂ : Moment),
        sent.Rearranged shown →
        q₁.PostsEvaluation ("/api/rules/" ++ Text.ofInt64 i ++ "/evaluate") [] context traced →
        q₂.PostsEvaluation "/api/rules/evaluate" [("ast", sent)] context traced →
        let answer₁ := (serve Catalogue.backend m₁ q₁ c).response
        let answer₂ := (serve Catalogue.backend m₂ q₂ c).response
        answer₁.status = answer₂.status ∧ answer₁.timeless = answer₂.timeless ∧
          answer₁ = .ofExecution m₁.elapsed traced (tree.execute context traced) ∧
          answer₂ = .ofExecution m₂.elapsed traced (tree.execute context traced) ∧
          ∀ answer ∈ [answer₁, answer₂], answer.code? ≠ some (.string "INVALID_AST") ∧
            answer.code? ≠ some (.string "JSON_ERROR") := by
  -- text and tree of a stored rule agree, whatever has been asked for
  have hagrees : r.Agrees := stateAfter_invariant serve_agrees Catalogue.agrees_empty visits r
    (hc ▸ List.mem_of_find?_eq_some hr)
  obtain ⟨tree, hparse, htree⟩ := hagrees
  have hreadable := Parser.readable_of_parse hparse
  -- the tree that is shown is the one that is stored, which is the one that is read
  have hast : Transport.ofTree tree = r.ast :=
    Transport.ofTree_of_toTree (Transport.restore_eq_ok_iff.1 htree)
  refine ⟨r.ast.toJson, tree, hparse, fun q m hget hpath => shownTree?_getRule hr hget hpath m,
    fun context traced sent q₁ q₂ m₁ m₂ hsent h₁ h₂ => ?_⟩
  have hanswer₁ := serve_evaluateRule hr htree h₁ m₁
  have hanswer₂ := serve_evaluateTree (c := c) hreadable (hast ▸ hsent) h₂ m₂
  dsimp only
  rw [hanswer₁, hanswer₂]
  refine ⟨status_ofExecution .., timeless_ofExecution .., rfl, rfl, fun answer hmem => ?_⟩
  simp only [List.mem_cons, List.not_mem_nil, or_false] at hmem
  rcases hmem with rfl | rfl
  · exact code?_ofExecution_ne ..
  · exact code?_ofExecution_ne ..

/-- The tree of the combination that is saved. -/
def sampleTree : Tree :=
  .node (.logical .and) (.node (.relating .greater) (.operand "a") (.operand "1")) (.operand "b")

/-- A context in which the tree has a value. -/
def sampleContext : Context := .ofList [("a", .number 2), ("b", .boolean true)]

/-- The children of a node may come in front of its kind and its value. -/
theorem rearranged_children (op : Operator) {l r : Tree} {v w : Json}
    (hv : v.Rearranged (Transport.ofTree l).toJson)
    (hw : w.Rearranged (Transport.ofTree r).toJson) :
    (Json.object [("left", v), ("right", w), ("type", .string "operator"),
      ("value", .string op.symbol)]).Rearranged (Transport.ofTree (.node op l r)).toJson :=
  .object (.cons hv (.cons hw (.refl _))) (@List.perm_append_comm _ [_, _] [_, _])

/-- The JSON of the tree, with the members in the order of their names. -/
def sortedTree : Json :=
  let operand (text : String) : Json :=
    .object [("type", .string "operand"), ("value", .string text)]
  .object [("left", .object [("left", operand "a"), ("right", operand "1"),
      ("type", .string "operator"), ("value", .string ">")]),
    ("right", operand "b"), ("type", .string "operator"), ("value", .string "AND")]

/-- The sorted tree is the JSON of the tree but for the order of the members. -/
theorem rearranged_sortedTree : sortedTree.Rearranged (Transport.ofTree sampleTree).toJson := by
  have hoperand : ∀ text, (Transport.ofTree (.operand text)).toJson.Rearranged
      (Transport.ofTree (.operand text)).toJson := fun _ => .refl _
  exact rearranged_children (.logical .and)
    (rearranged_children (.relating .greater) (hoperand "a") (hoperand "1")) (hoperand "b")

/-- What is posted to the rule: the context, in its own order. -/
def storedMembers : List (String × Json) :=
  [("context", .object [("a", .int 2), ("b", .boolean true)])]

/-- What is posted to evaluate the tree: the context, in another order, and the tree. -/
def sentMembers : List (String × Json) :=
  [("context", .object [("b", .boolean true), ("a", .int 2)]), ("ast", sortedTree)]

/-- The context is posted to the rule. -/
theorem posts_storedMembers : (posted "/api/rules/1/evaluate" storedMembers).PostsEvaluation
    ("/api/rules/" ++ Text.ofInt64 1 ++ "/evaluate") [] sampleContext false := by
  have hpath : "/api/rules/" ++ Text.ofInt64 1 ++ "/evaluate" = "/api/rules/1/evaluate" := by
    decide +kernel
  have hgiven := Context.isGivenBy_of_perm (.refl sampleContext.entries)
  have hregular : (Json.object storedMembers).Regular := .object (by decide)
    (List.forall_mem_cons.2 ⟨sampleContext.regular_toJson, List.forall_mem_nil _⟩)
  rw [hpath]
  exact ⟨_, [], hgiven, .unsaid, posts_posted hregular (by decide +kernel)⟩

/-- The tree is posted with the same context. -/
theorem posts_sentMembers : (posted "/api/rules/evaluate" sentMembers).PostsEvaluation
    "/api/rules/evaluate" [("ast", sortedTree)] sampleContext false := by
  have hgiven := @Context.isGivenBy_of_perm sampleContext
    [("b", .boolean true), ("a", .number 2)] (.swap ..)
  have hcontext : (Json.object [("b", .boolean true), ("a", .int 2)]).Regular :=
    .object (by decide) (List.forall_mem_cons.2 ⟨.boolean true,
      List.forall_mem_cons.2 ⟨.number 2 rfl, List.forall_mem_nil _⟩⟩)
  have hast : sortedTree.Regular := rearranged_sortedTree.regular (Transport.regular_toJson _)
  have hregular : (Json.object sentMembers).Regular := .object (by decide)
    (List.forall_mem_cons.2 ⟨hcontext, List.forall_mem_cons.2 ⟨hast, List.forall_mem_nil _⟩⟩)
  -- the context stands in front of the tree, which is an order like any other
  exact ⟨_, [], hgiven, .unsaid, (posts_posted hregular (by decide +kernel)).perm (.swap ..)⟩

/-- The combination that is saved is evaluated where it is stored, and as a tree whose members come
in another order. The context comes in two orders, and that nothing is traced is not said. -/
theorem response_evaluateRule_eq_savedCombination :
    let c := stateAfter Catalogue.backend Catalogue.empty savedCombination
    let fetched := serve Catalogue.backend ⟨⟨0, 0⟩, 0⟩ ⟨"GET", "/api/rules/1", none, ""⟩ c
    let answer₁ := (serve Catalogue.backend ⟨⟨0, 0⟩, 3⟩
      (posted "/api/rules/1/evaluate" storedMembers) c).response
    let answer₂ := (serve Catalogue.backend ⟨⟨0, 0⟩, 5⟩
      (posted "/api/rules/evaluate" sentMembers) c).response
    (∃ shown, fetched.response.shownTree? = some shown ∧ sortedTree.Rearranged shown) ∧
      answer₁.timeless = answer₂.timeless ∧
      answer₁ = .ofExecution 3 false (.ok ⟨.boolean true, []⟩) ∧
      answer₂ = .ofExecution 5 false (.ok ⟨.boolean true, []⟩) := by
  intro c fetched answer₁ answer₂
  have hfound : (c.get? 1).any (fun r => decide (r.text = "((a > 1) AND b)" ∧
      r.tree = .ok sampleTree)) = true := by decide +kernel
  obtain ⟨r, hr, hstored⟩ := (Option.any_eq_true _ _).1 hfound
  obtain ⟨htext, htree⟩ := of_decide_eq_true hstored
  obtain ⟨shown, tree, hparse, hshown, hanswers⟩ := response_evaluateRule_eq rfl hr
  have hpath : "/api/rules/1" = "/api/rules/" ++ Text.ofInt64 1 := by decide +kernel
  have hshown : fetched.response.shownTree? = some shown := hshown _ _ rfl hpath
  have hsorted : sortedTree.Rearranged shown := by
    -- what is shown is the tree that is stored
    have hast : Transport.ofTree sampleTree = r.ast :=
      Transport.ofTree_of_toTree (Transport.restore_eq_ok_iff.1 htree)
    have hsame : shown = r.ast.toJson :=
      Option.some.inj (hshown.symm.trans (shownTree?_getRule hr rfl hpath _))
    rw [hsame, ← hast]
    exact rearranged_sortedTree
  -- the tree that the theorem speaks of is the one that the text is read as
  have hexecute : tree.execute sampleContext false = .ok ⟨.boolean true, []⟩ := by
    have hsame : Parser.parse "((a > 1) AND b)" = .ok sampleTree := by decide +kernel
    rw [htext, hsame] at hparse
    cases hparse
    decide +kernel
  obtain ⟨-, htimeless, hanswer₁, hanswer₂, -⟩ :=
    hanswers sampleContext false sortedTree _ _ ⟨⟨0, 0⟩, 3⟩ ⟨⟨0, 0⟩, 5⟩ hsorted
      posts_storedMembers posts_sentMembers
  rw [hexecute] at hanswer₁ hanswer₂
  exact ⟨⟨shown, hshown, hsorted⟩, htimeless, hanswer₁, hanswer₂⟩

end Http

end Rulebook
