import Rulebook.Proofs.Exchange.Transit
import Rulebook.Proofs.Http.History
import Rulebook.Store.Catalogue

/-!
# Text and tree of a stored rule

A store keeps the text of a rule and its tree side by side, and takes both from whoever asks it to.
The service never lets them drift apart: after any requests to a service over an empty catalogue,
the text of every stored rule is read as the tree that is stored with it (`parse_text_eq_tree`).

What the service may write is said by `Operation.Agrees`. A rule that is created or revised is read
before it is stored, and the text of a combination is written from its tree, which is read back from
it (`Parser.parse_text`). The tree survives the form in which it is stored because no operand that
reads as itself is empty (`restore_ofTree`).
-/

namespace Rulebook

/-- A readable tree is restored from the form in which it is stored. -/
theorem Transport.restore_ofTree {t : Tree} (h : t.Readable) : (ofTree t).restore = .ok t :=
  restore_eq_ok_iff.2 (toTree_ofTree h.operand_ne_empty)

/-- The text of the rule is read as the tree that is stored with it. -/
def StoredRule.Agrees (r : StoredRule) : Prop :=
  ∃ t, Parser.parse r.text = .ok t ∧ r.tree = .ok t

/-- Whatever the operation writes, the text is read as the tree. -/
def Operation.Agrees {α : Type} : Operation α → Prop
  | .save _ text tree => Parser.parse text = .ok tree
  | .update _ text tree => Parser.parse text = .ok tree
  | .get _ => True
  | .list => True
  | .delete _ => True

namespace Catalogue

/-- The text of every rule is read as the tree that is stored with it. -/
def Agrees (c : Catalogue) : Prop :=
  ∀ r ∈ c.rules, r.Agrees

theorem agrees_empty : empty.Agrees :=
  all_empty

/-- A rule that is stored with a text and its tree agrees. -/
theorem agrees_of_parse {r : StoredRule} {text : String} {tree : Tree}
    (h : Parser.parse text = .ok tree) (htext : r.text = text)
    (hast : r.ast = Transport.ofTree tree) : r.Agrees := by
  refine ⟨tree, htext ▸ h, ?_⟩
  -- what was read is readable, and so it survives being stored
  rw [StoredRule.tree, hast]
  exact Transport.restore_ofTree (Parser.readable_of_parse h)

/-- Every operation that agrees leaves the catalogue in agreement. -/
theorem Agrees.perform {c : Catalogue} (hc : c.Agrees) (now : Time.Instant) {α : Type}
    (op : Operation α) (hop : op.Agrees) : (backend.perform now op c).state.Agrees := by
  -- text and tree of what is written come from the operation, whatever number and time they get
  have hwrites : op.Writes StoredRule.Agrees := by
    cases op with
    | save name text tree => exact fun id now => agrees_of_parse hop rfl rfl
    | update id text tree => exact fun now r => agrees_of_parse hop rfl rfl
    | get | list | delete => trivial
  exact All.perform hc now op hwrites

end Catalogue

namespace Http

/-- What is stored when a rule is created has been read before. -/
theorem createRule_asks (p : Creation) : (createRule p).Asks Operation.Agrees :=
  Plan.asks_demanding (Plan.asks_reading fun _ h => h)

/-- What is stored when a rule is revised has been read before. -/
theorem updateRule_asks (id : Int64) (p : Revision) : (updateRule id p).Asks Operation.Agrees :=
  Plan.asks_demanding (Plan.asks_reading fun _ h => h)

/-- The text that is stored with a combination is read as the combination. -/
theorem combineRules_asks (p : Joining) : (combineRules p).Asks Operation.Agrees := by
  -- nothing is asked of a store unless the demands are met and the rules can be combined
  refine Plan.asks_demanding (Plan.asks_after.2 ?_)
  -- a combination is stored only if that is wanted
  split
  · exact Plan.asks_failure _
  · next tree htree =>
    split
    · -- the text is not one that was sent, but is written from the tree
      exact Parser.parse_text (Combination.readable_of_combine htree)
    · trivial

/-- **Every request writes a text together with the tree that it is read as**, if it writes at
all. -/
theorem Request.plan_asks (elapsed : Nat) (r : Request) :
    (r.plan elapsed).Asks Operation.Agrees :=
  r.asks_plan elapsed createRule_asks updateRule_asks (fun p _ _ => combineRules_asks p) trivial
    (fun _ => trivial) fun _ => trivial

/-- Serving a request leaves the catalogue in agreement. -/
theorem serve_agrees (v : Visit) (c : Catalogue) (hc : c.Agrees) :
    (serve Catalogue.backend v.moment v.request c).state.Agrees :=
  -- the plan does not depend on the catalogue, so all that it may ask for is known beforehand
  Plan.run_invariant (v.request.plan_asks v.moment.elapsed)
    (fun op hop => hc.perform v.moment.now op hop) hc

/-- **Text and tree never drift apart.** After any requests to a service over an empty catalogue,
the text of every stored rule is read as some tree, and the same tree is restored from the rule. -/
theorem parse_text_eq_tree (visits : List Visit) (r : StoredRule)
    (hr : r ∈ (stateAfter Catalogue.backend Catalogue.empty visits).rules) :
    ∃ t, Parser.parse r.text = .ok t ∧ r.tree = .ok t :=
  stateAfter_invariant serve_agrees Catalogue.agrees_empty visits r hr

/-- Two rules are combined and saved, and then a revision is refused for what it would store. -/
def savedCombination : List Visit :=
  [⟨⟨⟨0, 0⟩, 0⟩, ⟨"POST", "/api/rules/combine", some "application/json",
      "\x7b\"rules\": [\"a > 1\", \"b\"], \"save\": true, \"name\": null\x7d"⟩⟩,
   ⟨⟨⟨0, 0⟩, 0⟩, ⟨"PUT", "/api/rules/1", some "application/json",
      "\x7b\"rule\": \"c = \"\x7d"⟩⟩]

/-- The text that is saved with a combination is read as its tree. -/
theorem parse_text_eq_tree_savedCombination :
    ∃ r ∈ (stateAfter Catalogue.backend Catalogue.empty savedCombination).rules,
      r.text = "((a > 1) AND b)" ∧ ∃ t, Parser.parse r.text = .ok t ∧ r.tree = .ok t := by
  have htexts : (stateAfter Catalogue.backend Catalogue.empty savedCombination).rules.map (·.text)
      = ["((a > 1) AND b)"] := by decide +kernel
  -- the only rule that is there is the combination
  obtain ⟨r, hr, htext⟩ := List.mem_map.1 (htexts ▸ List.mem_singleton_self _)
  exact ⟨r, hr, htext, parse_text_eq_tree savedCombination r hr⟩

end Http

end Rulebook
