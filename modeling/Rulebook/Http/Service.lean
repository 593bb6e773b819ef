import Rulebook.Http.Reply
import Rulebook.Http.Route
import Rulebook.Journal.Observed
import Rulebook.Store.Backend

/-!
# The service

Every request is answered by a `Plan`, which is made without looking at any store: either a reply,
or one operation on the store with the reply for each of its answers. `Plan.run` carries a plan out
with a backend. So what is refused, and what needs no store, is answered alike whatever the store
is.

In every plan the payload is read first, then its demands are checked, then the rules in it are
read, and the store is asked last.
-/

namespace Rulebook.Http

/-- How a request is answered. -/
inductive Plan where
  /-- No store is needed. -/
  | reply (r : Reply)
  /-- A store is asked, after some events. -/
  | ask {α : Type} (before : List Journal.Event) (op : Operation α)
      (next : Except StorageFault α → Reply)

namespace Plan

/-- The plan with further events in front. -/
def after (events : List Journal.Event) : Plan → Plan
  | .reply r => .reply (r.after events)
  | .ask before op next => .ask (events ++ before) op next

/-- The plan of a request that cannot be fulfilled. -/
def failure (e : ServiceError) : Plan :=
  .reply (.failure e)

/-- Goes on if all demands are met. -/
def demanding (unmet : List Unmet) (plan : Plan) : Plan :=
  if unmet.isEmpty then plan else failure (.invalid unmet)

/-- Goes on with a rule that can be read. -/
def reading (rule : String) (plan : Tree → Plan) : Plan :=
  match Parser.parse rule with
  | .ok tree => (plan tree).after (Journal.ofParse rule)
  | .error e => failure (.rule (.parse e))

end Plan

/-! ### The actions -/

/-- The sign of life of the service. -/
def health : Response :=
  ⟨200, some (.object [("status", .string "ok"), ("service", .string "rule-api-service")])⟩

/-- Creates a rule. -/
def createRule (p : Creation) : Plan :=
  .demanding p.unmet <| .reading p.rule fun tree =>
    .ask [] (.save p.name p.rule tree) <| .ofAnswer fun stored =>
      .success stored.summary [.ruleCreated stored.id]

/-- Lists all rules. -/
def listRules : Plan :=
  .ask [] .list <| .ofAnswer fun rules => .success (.array (rules.map StoredRule.summary)) []

/-- Shows a rule. -/
def getRule (id : Int64) : Plan :=
  .ask [] (.get id) <| .ofFound id fun stored => .success stored.summary []

/-- Gives a rule a new text. -/
def updateRule (id : Int64) (p : Revision) : Plan :=
  .demanding p.unmet <| .reading p.rule fun tree =>
    .ask [] (.update id p.rule tree) <| .ofFound id fun stored =>
      .success stored.summary [.ruleUpdated id]

/-- Removes a rule. -/
def deleteRule (id : Int64) : Plan :=
  .ask [] (.delete id) <| .ofAnswer fun found =>
    if found then
      .success (.object [("id", .int id.toInt), ("deleted", .boolean true)]) [.ruleDeleted id]
    else .failure (.unknownRule id)

/-- What is shown of a combined rule, which may have been stored. -/
def combinedData (connective : Connective) (tree : Tree) (saved : Option StoredRule) : Json :=
  .object ([("operator", connective.toJson), ("rule", .string tree.text),
    ("ast", (Transport.ofTree tree).toJson)] ++
    (saved.map fun stored => ("saved", stored.summary)).toList)

/-- Combines rules, and stores the combined rule if that is wanted. -/
def combineRules (p : Joining) : Plan :=
  .demanding p.unmet <| .after (Journal.ofCombine p.connective p.rules) <|
    match Combination.combine p.connective p.rules with
    | .error e => .failure (.rule e)
    | .ok tree =>
      -- what is stored as the rule is the text of the combined tree
      if p.save then
        .ask [] (.save p.name tree.text tree) <| .ofAnswer fun stored =>
          .success (combinedData p.connective tree (some stored))
            [.combinationSaved stored.id p.rules.length]
      else .reply (.success (combinedData p.connective tree none) [])

/-- Evaluates a tree, in so many microseconds. -/
def evaluated (elapsed : Nat) (tree : Tree) (context : Context) (traced : Bool) : Reply :=
  match tree.execute context traced with
  | .error e => .failure (.rule (.eval e))
  | .ok o =>
    let trace := if traced then [("trace", .array (o.record.map fun e => .string e.text))] else []
    .success (.object ([("result", o.value.toJson)] ++ trace ++
        [("evaluationTimeUs", .int elapsed)]))
      [.ruleEvaluated o.value elapsed]

/-- Evaluates a tree that the payload holds. -/
def evaluateTree (elapsed : Nat) (p : TreeEvaluation) : Plan :=
  match p.ast, p.context with
  | some ast, some context =>
    -- whether the value is a tree is asked after the demands
    match Transport.treeOfJson ast with
    | .ok tree => .reply (evaluated elapsed tree context p.traced)
    | .error e => .failure (.rule e)
  | _, _ => .failure (.invalid p.unmet)

/-- Evaluates a rule in the store. -/
def evaluateRule (elapsed : Nat) (id : Int64) (p : RuleEvaluation) : Plan :=
  match p.context with
  | none => .failure (.invalid p.unmet)
  | some context =>
    .ask [] (.get id) <| .ofFound id fun stored =>
      match stored.tree with
      | .ok tree => evaluated elapsed tree context p.traced
      | .error e => .failure (.rule e)

/-! ### From requests to responses -/

/-- The plan for a request whose payload has to be read. -/
def Request.planWith {α : Type} (r : Request) (read : Nat → Json.Document → Except Json.Fault α)
    (plan : α → Plan) : Plan :=
  match r.payload read with
  | .ok p => plan p
  | .error why => .reply (.refused why)

/-- The plan for a request, whose evaluation takes so many microseconds. -/
def Request.plan (elapsed : Nat) (r : Request) : Plan :=
  match r.action with
  | .error why => .reply (.refused why)
  | .ok .checkHealth => .reply ⟨health, []⟩
  | .ok .listRules => listRules
  | .ok .createRule => r.planWith Creation.read createRule
  | .ok .combineRules => r.planWith Joining.read combineRules
  | .ok .evaluateTree => r.planWith TreeEvaluation.read (evaluateTree elapsed)
  | .ok (.getRule id) => getRule id
  | .ok (.updateRule id) => r.planWith Revision.read (updateRule id)
  | .ok (.deleteRule id) => deleteRule id
  | .ok (.evaluateRule id) => r.planWith RuleEvaluation.read (evaluateRule elapsed id)

/-- What clocks say while a request is served. -/
structure Moment where
  now : Time.Instant
  /-- The microseconds that an evaluation takes. -/
  elapsed : Nat
  deriving DecidableEq, Repr

/-- What serving a request comes to. -/
structure Served (σ : Type) where
  /-- The state of the store afterwards. -/
  state : σ
  response : Response
  events : List Journal.Event

/-- Carries a plan out. -/
def Plan.run {σ : Type} (backend : Backend σ) (now : Time.Instant) (state : σ) : Plan → Served σ
  | .reply r => ⟨state, r.response, r.events⟩
  | .ask before op next =>
    let done := backend.perform now op state
    let r := next done.result
    ⟨done.state, r.response, before ++ done.events ++ r.events⟩

/-- The response as it is sent; a request for a head gets no body. -/
def Response.trimmed (method : String) (r : Response) : Response :=
  if method = "HEAD" then { r with body := none } else r

/-- Serves a request. -/
def serve {σ : Type} (backend : Backend σ) (moment : Moment) (r : Request) (state : σ) : Served σ :=
  let served := (r.plan moment.elapsed).run backend moment.now state
  { served with response := served.response.trimmed r.method }

end Rulebook.Http
