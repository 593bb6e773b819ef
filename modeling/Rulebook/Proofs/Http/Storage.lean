import Rulebook.Proofs.Http.History
import Rulebook.Proofs.Http.Paths
import Rulebook.Store.Catalogue
import Rulebook.Store.Pool

/-!
# What requests need of a store

Only some requests need a store. A request that is refused, whose payload does not meet its demands,
or whose rules cannot be read or combined, is answered before any store is asked; so is a
combination that is not to be saved, the evaluation of a tree that is sent, and the sign of life
(`Request.StorageFree`). What these are answered does not tell one store from another, and no store
is asked for anything: two runs over any two stores, in any states, end with one response.

Every other request asks the store for one thing (`Request.Calls`), and tells nothing of a failure
but that there was one. The response is `unavailable` whatever the reason, of which the head alone
is sent if only the head was asked for.

Both are read off the plan of the request: a plan of the first kind asks for nothing
(`Request.StorageFree.asksNothing`), and one of the second kind asks for the operation and goes on
from every failure to the same response (`Request.Calls.needs`). `Backend.counting` makes visible
how often a store is asked.
-/

namespace Rulebook

/-- The backend that counts in addition how many operations it is asked for. -/
def Backend.counting {σ : Type} (b : Backend σ) : Backend (σ × Nat) :=
  ⟨fun now op s =>
    let done := b.perform now op s.1
    ⟨(done.state, s.2 + 1), done.result, done.events⟩⟩

namespace Http

/-! ### Requests with and without a store -/

/-- The payload cannot be read, or what is read has the property. -/
def Request.UnreadableOr {α : Type} (r : Request)
    (read : Nat → Json.Document → Except Json.Fault α) (P : α → Prop) : Prop :=
  (∃ why, r.payload read = .error why) ∨ ∃ p, r.payload read = .ok p ∧ P p

/-- The request is refused, or fails before a store is needed, or needs none. -/
inductive Request.StorageFree (r : Request) : Prop where
  /-- There is no such path, method or number. -/
  | refused {why : Refusal} (haction : r.action = .error why)
  /-- The service is asked for a sign of life. -/
  | checkHealth (haction : r.action = .ok .checkHealth)
  /-- The rule to create is not valid, or cannot be read. -/
  | create (haction : r.action = .ok .createRule) (h : r.UnreadableOr Creation.read fun p =>
      p.unmet ≠ [] ∨ ∃ e, Parser.parse p.rule = .error e)
  /-- The new text is not valid, or cannot be read. -/
  | update {id : Int64} (haction : r.action = .ok (.updateRule id))
      (h : r.UnreadableOr Revision.read fun p =>
        p.unmet ≠ [] ∨ ∃ e, Parser.parse p.rule = .error e)
  /-- The rules are not valid, or cannot be combined, or the combination is not to be saved. -/
  | combine (haction : r.action = .ok .combineRules) (h : r.UnreadableOr Joining.read fun p =>
      p.unmet ≠ [] ∨ (∃ e, Combination.combine p.connective p.rules = .error e) ∨ p.save = false)
  /-- The tree is sent with the request. -/
  | evaluateTree (haction : r.action = .ok .evaluateTree)
  /-- There is no context for the stored rule. -/
  | evaluateRule {id : Int64} (haction : r.action = .ok (.evaluateRule id))
      (h : r.UnreadableOr RuleEvaluation.read fun p => p.unmet ≠ [])

/-- The request comes to asking a store for the operation. -/
inductive Request.Calls (r : Request) : {α : Type} → Operation α → Prop where
  | list (haction : r.action = .ok .listRules) : r.Calls .list
  | get {id : Int64} (haction : r.action = .ok (.getRule id)) : r.Calls (.get id)
  | delete {id : Int64} (haction : r.action = .ok (.deleteRule id)) : r.Calls (.delete id)
  | create {p : Creation} {tree : Tree} (haction : r.action = .ok .createRule)
      (hpayload : r.payload Creation.read = .ok p) (hunmet : p.unmet = [])
      (htree : Parser.parse p.rule = .ok tree) : r.Calls (.save p.name p.rule tree)
  | update {id : Int64} {p : Revision} {tree : Tree} (haction : r.action = .ok (.updateRule id))
      (hpayload : r.payload Revision.read = .ok p) (hunmet : p.unmet = [])
      (htree : Parser.parse p.rule = .ok tree) : r.Calls (.update id p.rule tree)
  | combine {p : Joining} {tree : Tree} (haction : r.action = .ok .combineRules)
      (hpayload : r.payload Joining.read = .ok p) (hunmet : p.unmet = [])
      (htree : Combination.combine p.connective p.rules = .ok tree) (hsave : p.save = true) :
      r.Calls (.save p.name tree.text tree)
  | evaluateRule {id : Int64} {p : RuleEvaluation} (haction : r.action = .ok (.evaluateRule id))
      (hpayload : r.payload RuleEvaluation.read = .ok p) (hunmet : p.unmet = []) :
      r.Calls (.get id)

/-- The response to a request for which a store failed. -/
def unavailable : Response :=
  .failure 500 "DATABASE_ERROR" "服务内部错误，请稍后重试"

/-! ### Plans with and without a store -/

namespace Plan

/-- The plan asks a store for nothing. -/
def AsksNothing (plan : Plan) : Prop :=
  plan.Asks fun _ => False

/-- The plan asks for the operation, and if that fails, for whatever reason, it has one response. -/
def Needs {α : Type} (op : Operation α) (plan : Plan) : Prop :=
  ∃ before next, plan = .ask before op next ∧
    ∀ fault, (next (.error fault)).response = unavailable

/-- All that such a plan can be is a reply. -/
theorem AsksNothing.exists_reply {plan : Plan} (h : plan.AsksNothing) :
    ∃ reply, plan = .reply reply := by
  cases plan with
  | reply reply => exact ⟨reply, rfl⟩
  | ask before op next => exact h.elim

/-- Further events do not change what a plan needs. -/
theorem Needs.after {α : Type} {op : Operation α} {plan : Plan} (h : plan.Needs op)
    (events : List Journal.Event) : (plan.after events).Needs op := by
  obtain ⟨before, next, rfl, hnext⟩ := h
  exact ⟨_, next, rfl, hnext⟩

/-- Behind unmet demands, and with a rule that cannot be read, a plan asks for nothing. -/
theorem asksNothing_demanding_reading {unmet : List Unmet} {rule : String} {plan : Tree → Plan}
    (h : unmet ≠ [] ∨ ∃ e, Parser.parse rule = .error e) :
    (demanding unmet (reading rule plan)).AsksNothing := by
  -- if the demands are met, it is the rule that cannot be read
  refine demanding_induction asks_failure fun hunmet => ?_
  obtain ⟨e, he⟩ := h.resolve_left (not_not_intro hunmet)
  rw [reading, he]
  exact asks_failure _

/-- A plan behind demands that are met, with a rule that can be read, goes on with the tree. -/
theorem needs_demanding_reading {α : Type} {op : Operation α} {unmet : List Unmet} {rule : String}
    {plan : Tree → Plan} {tree : Tree} (hunmet : unmet = [])
    (htree : Parser.parse rule = .ok tree) (hplan : (plan tree).Needs op) :
    (demanding unmet (reading rule plan)).Needs op := by
  rw [hunmet, reading, htree]
  exact hplan.after _

/-- An answer is passed on only if there is one. -/
theorem needs_ofAnswer {α : Type} (op : Operation α) (reply : α → Reply) :
    (ask [] op (.ofAnswer reply)).Needs op :=
  ⟨_, _, rfl, fun _ => rfl⟩

/-- Whether something was found is passed on only if there is an answer. -/
theorem needs_ofFound {α : Type} (op : Operation (Option α)) (id : Int64) (reply : α → Reply) :
    (ask [] op (.ofFound id reply)).Needs op :=
  ⟨_, _, rfl, fun _ => rfl⟩

end Plan

variable {r : Request}

/-! ### From requests to plans -/

/-- What a plan makes of a payload that can be read and has the property, decides what is asked. -/
theorem Request.UnreadableOr.asksNothing {α : Type}
    {read : Nat → Json.Document → Except Json.Fault α} {P : α → Prop} {plan : α → Plan}
    (h : r.UnreadableOr read P) (hplan : ∀ p, P p → (plan p).AsksNothing) :
    (r.planWith read plan).AsksNothing := by
  -- the plan refuses, or it is the one for the payload
  rcases h with ⟨why, hwhy⟩ | ⟨p, hp, hP⟩
  · rw [planWith, hwhy]
    trivial
  · rw [planWith_of_payload hp]
    exact hplan p hP

/-- A payload cannot be read or has the property, or it can be read and does not have it. -/
theorem Request.unreadableOr_or {α : Type} (r : Request)
    (read : Nat → Json.Document → Except Json.Fault α) (P : α → Prop) :
    r.UnreadableOr read P ∨ ∃ p, r.payload read = .ok p ∧ ¬ P p := by
  cases hpayload : r.payload read with
  | error why => exact .inl (.inl ⟨why, hpayload⟩)
  | ok p =>
    by_cases hP : P p
    · exact .inl (.inr ⟨p, hpayload, hP⟩)
    · exact .inr ⟨p, rfl, hP⟩

/-- A payload that can be read leads on to what its plan needs. -/
theorem Request.needs_planWith {α β : Type} {read : Nat → Json.Document → Except Json.Fault α}
    {p : α} {plan : α → Plan} {op : Operation β} (hpayload : r.payload read = .ok p)
    (hplan : (plan p).Needs op) : (r.planWith read plan).Needs op := by
  rw [planWith_of_payload hpayload]
  exact hplan

/-- Combining rules asks for nothing, if it fails or the combination is not to be saved. -/
theorem asksNothing_combineRules {p : Joining} (h : p.unmet ≠ [] ∨
    (∃ e, Combination.combine p.connective p.rules = .error e) ∨ p.save = false) :
    (combineRules p).AsksNothing := by
  refine Plan.demanding_induction Plan.asks_failure fun hunmet => Plan.asks_after.2 ?_
  split
  · exact Plan.asks_failure _
  · next tree htree =>
    -- the demands are met and the rules are combined, so it is the wish to save that is missing
    rcases h.resolve_left (not_not_intro hunmet) with ⟨e, he⟩ | hsave
    · cases he.symm.trans htree
    · rw [if_neg (by simp [hsave])]
      trivial

/-- A combination that is to be saved needs the store to take it in. -/
theorem needs_combineRules {p : Joining} {tree : Tree} (hunmet : p.unmet = [])
    (htree : Combination.combine p.connective p.rules = .ok tree) (hsave : p.save = true) :
    (combineRules p).Needs (.save p.name tree.text tree) := by
  rw [combineRules, hunmet, htree]
  dsimp only
  rw [if_pos hsave]
  exact (Plan.needs_ofAnswer _ _).after _

/-- All demands on the evaluation of a stored rule are met if there is a context. -/
theorem RuleEvaluation.unmet_eq_nil_iff {p : RuleEvaluation} :
    p.unmet = [] ↔ ∃ context, p.context = some context := by
  unfold unmet demandContext
  cases p.context with
  | none => simp [demandPresent]
  | some context => simp [demandPresent]

/-- Without a context the store is not asked for the rule. -/
theorem asksNothing_evaluateRule (elapsed : Nat) (id : Int64) {p : RuleEvaluation}
    (h : p.unmet ≠ []) : (evaluateRule elapsed id p).AsksNothing := by
  unfold evaluateRule
  split
  · exact Plan.asks_failure _
  · next context hcontext => exact absurd (RuleEvaluation.unmet_eq_nil_iff.2 ⟨context, hcontext⟩) h

/-- With a context the rule is needed. -/
theorem needs_evaluateRule (elapsed : Nat) (id : Int64) {p : RuleEvaluation}
    (h : p.unmet = []) : (evaluateRule elapsed id p).Needs (.get id) := by
  obtain ⟨context, hcontext⟩ := RuleEvaluation.unmet_eq_nil_iff.1 h
  rw [evaluateRule, hcontext]
  exact Plan.needs_ofFound _ _ _

/-- **A request that needs no store asks for nothing.** -/
theorem Request.StorageFree.asksNothing (h : r.StorageFree) (elapsed : Nat) :
    (r.plan elapsed).AsksNothing := by
  rw [plan]
  cases h with
  | refused haction | checkHealth haction =>
    rw [haction]
    trivial
  | create haction h | update haction h =>
    rw [haction]
    exact h.asksNothing fun p => Plan.asksNothing_demanding_reading
  | combine haction h =>
    rw [haction]
    exact h.asksNothing fun p => asksNothing_combineRules
  -- a tree that is sent is evaluated without a store
  | evaluateTree haction =>
    rw [haction]
    exact asks_planWith (asks_evaluateTree elapsed)
  | evaluateRule haction h =>
    rw [haction]
    exact h.asksNothing fun p => asksNothing_evaluateRule elapsed _

/-- **A request that calls an operation asks for it**, and does not tell why it fails. -/
theorem Request.Calls.needs {α : Type} {op : Operation α} (h : r.Calls op) (elapsed : Nat) :
    (r.plan elapsed).Needs op := by
  rw [plan]
  cases h with
  | list haction =>
    rw [haction]
    exact Plan.needs_ofAnswer _ _
  | get haction =>
    rw [haction]
    exact Plan.needs_ofFound _ _ _
  | delete haction =>
    rw [haction]
    exact Plan.needs_ofAnswer _ _
  | create haction hpayload hunmet htree =>
    rw [haction]
    exact needs_planWith hpayload
      (Plan.needs_demanding_reading hunmet htree (Plan.needs_ofAnswer _ _))
  | update haction hpayload hunmet htree =>
    rw [haction]
    exact needs_planWith hpayload
      (Plan.needs_demanding_reading hunmet htree (Plan.needs_ofFound _ _ _))
  | combine haction hpayload hunmet htree hsave =>
    rw [haction]
    exact needs_planWith hpayload (needs_combineRules hunmet htree hsave)
  | evaluateRule haction hpayload hunmet =>
    rw [haction]
    exact needs_planWith hpayload (needs_evaluateRule elapsed _ hunmet)

/-- If there is neither an unmet demand nor an error of reading the rule, the rule has a tree. -/
theorem exists_parse_of_not {unmet : List Unmet} {rule : String}
    (h : ¬ (unmet ≠ [] ∨ ∃ e, Parser.parse rule = .error e)) :
    unmet = [] ∧ ∃ tree, Parser.parse rule = .ok tree := by
  obtain ⟨hunmet, hparse⟩ := not_or.1 h
  refine ⟨Classical.not_not.1 hunmet, ?_⟩
  cases hrule : Parser.parse rule with
  | error e => exact absurd ⟨e, hrule⟩ hparse
  | ok tree => exact ⟨tree, rfl⟩

/-- A request needs no store, or calls an operation. -/
theorem Request.storageFree_or_calls (r : Request) :
    r.StorageFree ∨ ∃ (α : Type) (op : Operation α), r.Calls op := by
  cases haction : r.action with
  | error why => exact .inl (.refused haction)
  | ok action =>
    cases action with
    | checkHealth => exact .inl (.checkHealth haction)
    | listRules => exact .inr ⟨_, _, .list haction⟩
    | getRule id => exact .inr ⟨_, _, .get haction⟩
    | deleteRule id => exact .inr ⟨_, _, .delete haction⟩
    | evaluateTree => exact .inl (.evaluateTree haction)
    -- with a payload, a request fails before the store is asked, or gets as far as asking it
    | createRule =>
      refine (r.unreadableOr_or _ _).imp (.create haction) fun ⟨p, hpayload, hp⟩ => ?_
      obtain ⟨hunmet, tree, htree⟩ := exists_parse_of_not hp
      exact ⟨_, _, .create haction hpayload hunmet htree⟩
    | updateRule id =>
      refine (r.unreadableOr_or _ _).imp (.update haction) fun ⟨p, hpayload, hp⟩ => ?_
      obtain ⟨hunmet, tree, htree⟩ := exists_parse_of_not hp
      exact ⟨_, _, .update haction hpayload hunmet htree⟩
    -- three things can keep a combination from being stored
    | combineRules =>
      refine (r.unreadableOr_or _ _).imp (.combine haction) fun ⟨p, hpayload, hp⟩ => ?_
      simp only [not_or, Classical.not_not, ne_eq, Bool.not_eq_false] at hp
      obtain ⟨hunmet, hcombine, hsave⟩ := hp
      cases htree : Combination.combine p.connective p.rules with
      | error e => exact absurd ⟨e, htree⟩ hcombine
      | ok tree => exact ⟨_, _, .combine haction hpayload hunmet htree hsave⟩
    | evaluateRule id =>
      refine (r.unreadableOr_or _ _).imp (.evaluateRule haction) fun ⟨p, hpayload, hp⟩ => ?_
      exact ⟨_, _, .evaluateRule haction hpayload (Classical.not_not.1 hp)⟩

/-- A request that calls an operation is none of those that need no store. -/
theorem Request.Calls.not_storageFree {α : Type} {op : Operation α} (h : r.Calls op) :
    ¬ r.StorageFree := by
  intro hfree
  obtain ⟨before, next, hask, -⟩ := h.needs 0
  obtain ⟨reply, hreply⟩ := (hfree.asksNothing 0).exists_reply
  cases hask.symm.trans hreply

/-! ### Two runs over two stores -/

/-- **Requests that need no store do not tell one from another.** A request that is refused, or
fails before a store is needed, or needs none, has the same response over any two stores, and asks
neither for anything. Every other request calls one operation, once; and if this fails, the response
is that the service is unavailable, whatever the reason, or the head of this response if only the
head was asked for. -/
theorem response_storageFree (r : Request) :
    (r.StorageFree → ∀ (m : Moment) {σ τ : Type} (b : Backend σ) (b' : Backend τ) (s : σ) (s' : τ),
      (serve b m r s).response = (serve b' m r s').response ∧
      ∀ n, (serve b.counting m r (s, n)).state = (s, n)) ∧
    (¬ r.StorageFree → ∃ (α : Type) (op : Operation α), r.Calls op ∧
      ∀ (m : Moment) {σ : Type} (b : Backend σ) (s : σ),
        (∀ n, (serve b.counting m r (s, n)).state.2 = n + 1) ∧
        ∀ fault, (b.perform m.now op s).result = .error fault →
          (serve b m r s).response = unavailable.trimmed r.method) := by
  refine ⟨fun h m σ τ b b' s s' => ?_, fun h => ?_⟩
  · -- neither run of a reply looks at its store
    obtain ⟨reply, hplan⟩ := (h.asksNothing m.elapsed).exists_reply
    simp only [serve, hplan]
    exact ⟨rfl, fun n => rfl⟩
  · -- the one operation that is called is asked for once
    obtain ⟨α, op, hcalls⟩ := r.storageFree_or_calls.resolve_left h
    refine ⟨α, op, hcalls, fun m σ b s => ?_⟩
    obtain ⟨before, next, hplan, hnext⟩ := hcalls.needs m.elapsed
    refine ⟨fun n => ?_, fun fault hfault => ?_⟩
    · rw [serve, hplan]
      rfl
    · -- of the failure, the plan only gets to know that there was one
      rw [serve, hplan]
      change ((next (b.perform m.now op s).result).response).trimmed r.method = _
      rw [hfault, hnext]

/-- A combination that is not to be saved. -/
def unsavedCombination : Request :=
  ⟨"POST", "/api/rules/combine", some "application/json",
    "\x7b\"rules\": [\"a\", \"b > 1\"], \"name\": null\x7d"⟩

/-- A request for a rule. -/
def fetchedRule : Request :=
  ⟨"GET", "/api/rules/7", none, ""⟩

/-- The combination is shown alike over an empty catalogue and over a closed pool, and the closed
pool is not mentioned to whoever asks for a rule. -/
theorem response_storageFree_closedPool :
    unsavedCombination.StorageFree ∧ ¬ fetchedRule.StorageFree ∧
    (serve Catalogue.backend ⟨⟨0, 0⟩, 0⟩ unsavedCombination Catalogue.empty).response =
      (serve ClosedPool.backend ⟨⟨0, 0⟩, 0⟩ unsavedCombination ⟨⟩).response ∧
    (serve ClosedPool.backend ⟨⟨0, 0⟩, 0⟩ fetchedRule ⟨⟩).response = unavailable := by
  have hsave : (unsavedCombination.payload Joining.read).toOption.map (·.save) = some false := by
    decide +kernel
  have hfree : unsavedCombination.StorageFree := by
    refine .combine (action_combineRules rfl rfl) ?_
    -- the payload is not written out: all that matters of it is the wish to save
    cases hpayload : unsavedCombination.payload Joining.read with
    | error why => exact .inl ⟨why, hpayload⟩
    | ok p =>
      rw [hpayload] at hsave
      exact .inr ⟨p, hpayload, .inr (.inr (Option.some.inj hsave))⟩
  have haction : fetchedRule.action = .ok (.getRule 7) := action_getRule rfl (by decide +kernel)
  have hasks : ¬ fetchedRule.StorageFree := Request.Calls.not_storageFree (.get haction)
  refine ⟨hfree, hasks, ((response_storageFree _).1 hfree _ _ _ _ _).1, ?_⟩
  obtain ⟨α, op, -, hop⟩ := (response_storageFree _).2 hasks
  exact (hop ⟨⟨0, 0⟩, 0⟩ ClosedPool.backend (⟨⟩ : ClosedPool)).2 .poolClosed rfl

/-- A request for the head of what lists the rules. -/
def headOfRules : Request :=
  ⟨"HEAD", "/api/rules", none, ""⟩

/-- Where only the head is asked for, a failure of the store is not named: the response has the
status, and no body. -/
theorem response_headOfRules_ne :
    ¬ headOfRules.StorageFree ∧ headOfRules.Calls .list ∧
    (ClosedPool.backend.perform ⟨0, 0⟩ .list ⟨⟩).result = .error .poolClosed ∧
    (serve ClosedPool.backend ⟨⟨0, 0⟩, 0⟩ headOfRules ⟨⟩).response = .bare 500 ∧
    (serve ClosedPool.backend ⟨⟨0, 0⟩, 0⟩ headOfRules ⟨⟩).response ≠ unavailable := by
  have hcalls : headOfRules.Calls .list := .list (by decide +kernel)
  have hresponse : (serve ClosedPool.backend ⟨⟨0, 0⟩, 0⟩ headOfRules ⟨⟩).response = .bare 500 := by
    obtain ⟨before, next, hplan, hnext⟩ := hcalls.needs 0
    rw [serve, hplan]
    change ((next (.error .poolClosed)).response).trimmed headOfRules.method = _
    rw [hnext]
    rfl
  refine ⟨hcalls.not_storageFree, hcalls, rfl, hresponse, fun h => ?_⟩
  cases hresponse.symm.trans h

end Http

end Rulebook
