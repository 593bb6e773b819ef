import Rulebook.Http.Service

/-!
# What requests do to a store

A service that is asked again and again takes its store from state to state. `stateAfter` is the
state after a list of requests, whatever they ask for and whatever the clocks say meanwhile.

The plan for a request is made without looking at the store, and it asks the store one thing at
most. So to show that no list of requests leads out of an invariant it is enough to say what may be
asked (`Plan.Asks`), to show that the plan of every request asks nothing else, and to show that the
answer to what may be asked keeps the invariant (`Plan.run_invariant`, `stateAfter_invariant`).
-/

/-- What an object has under a name. -/
def Rulebook.Json.member? (name : String) : Json → Option Json
  | .object members => Entries.find? name members
  | _ => none

namespace Rulebook.Http

namespace Response

/-- What an answer shows. -/
def data? (r : Response) : Option Json :=
  r.body >>= Json.member? "data"

@[simp]
theorem trimmed_status (method : String) (r : Response) : (r.trimmed method).status = r.status := by
  unfold trimmed
  split <;> rfl

/-- Only where the head is asked for, something is left out. -/
theorem trimmed_of_ne {method : String} (h : method ≠ "HEAD") (r : Response) :
    r.trimmed method = r :=
  if_neg h

end Response

/-- A request, and what the clocks say while it is served. -/
structure Visit where
  moment : Moment
  request : Request

variable {σ : Type}

/-- A request is answered by its plan, unless it asks for the head of the answer only. -/
theorem response_serve {backend : Backend σ} {moment : Moment} {r : Request} {plan : Plan}
    (hplan : r.plan moment.elapsed = plan) (hmethod : r.method ≠ "HEAD") (state : σ) :
    (serve backend moment r state).response = (plan.run backend moment.now state).response := by
  rw [serve, hplan]
  exact Response.trimmed_of_ne hmethod _

/-- The state of the store after some requests, served one after another. -/
def stateAfter (backend : Backend σ) (state : σ) (visits : List Visit) : σ :=
  visits.foldl (fun s v => (serve backend v.moment v.request s).state) state

/-- What each of some requests keeps, they keep together. -/
theorem stateAfter_invariant_of_mem {backend : Backend σ} {Inv : σ → Prop} {visits : List Visit}
    (hserve : ∀ v ∈ visits, ∀ s : σ, Inv s → Inv (serve backend v.moment v.request s).state)
    {state : σ} (hstate : Inv state) : Inv (stateAfter backend state visits) := by
  -- the state is that after the requests before, so it is not fixed
  induction visits generalizing state with
  | nil => exact hstate
  | cons v visits ih =>
    have hfirst := hserve v List.mem_cons_self state hstate
    exact ih (fun w hw => hserve w (List.mem_cons_of_mem _ hw)) hfirst

/-- What every request keeps, every list of requests keeps. -/
theorem stateAfter_invariant {backend : Backend σ} {Inv : σ → Prop}
    (hserve : ∀ (v : Visit) (s : σ), Inv s → Inv (serve backend v.moment v.request s).state)
    {state : σ} (hstate : Inv state) (visits : List Visit) :
    Inv (stateAfter backend state visits) :=
  stateAfter_invariant_of_mem (fun v _ => hserve v) hstate

namespace Plan

/-- What holds of every failure, and of a plan if all demands are met, holds of the plan behind the
demands. -/
theorem demanding_induction {P : Plan → Prop} (hfailure : ∀ e, P (failure e))
    {unmet : List Unmet} {plan : Plan} (h : unmet = [] → P plan) : P (demanding unmet plan) := by
  unfold demanding
  split
  · next hunmet => exact h (List.isEmpty_iff.1 hunmet)
  · exact hfailure _

/-- What holds of every failure and of the plan for the tree, whatever events are in front of it,
holds of the plan that reads the tree first. -/
theorem reading_induction {P : Plan → Prop} (hfailure : ∀ e, P (failure e))
    (hafter : ∀ events plan, P plan → P (plan.after events)) {rule : String} {plan : Tree → Plan}
    (h : ∀ tree, Parser.parse rule = .ok tree → P (plan tree)) : P (reading rule plan) := by
  unfold reading
  split
  · next tree htree => exact hafter _ _ (h tree htree)
  · exact hfailure _

/-- What holds of every refusal and of the plan for the payload holds of the plan that reads the
payload first. -/
theorem planWith_induction {P : Plan → Prop} (hrefused : ∀ why, P (.reply (.refused why)))
    {α : Type} {r : Request} {read : Nat → Json.Document → Except Json.Fault α} {plan : α → Plan}
    (h : ∀ p, r.payload read = .ok p → P (plan p)) : P (r.planWith read plan) := by
  unfold Request.planWith
  split
  · next p hp => exact h p hp
  · exact hrefused _

/-- The plan asks a store for nothing but what may be asked. -/
def Asks (May : ∀ {α : Type}, Operation α → Prop) : Plan → Prop
  | .reply _ => True
  | .ask _ op _ => May op

/-- What the answers to all that may be asked keep, the plan keeps. -/
theorem run_invariant {May : ∀ {α : Type}, Operation α → Prop} {backend : Backend σ}
    {now : Time.Instant} {Inv : σ → Prop} {state : σ} {plan : Plan} (hplan : plan.Asks May)
    (hperform : ∀ {α : Type} (op : Operation α), May op → Inv (backend.perform now op state).state)
    (hstate : Inv state) : Inv (plan.run backend now state).state := by
  -- a plan asks for one thing at most, and what follows only makes the reply
  cases plan with
  | reply r => exact hstate
  | ask before op next => exact hperform op hplan

variable {May : ∀ {α : Type}, Operation α → Prop}

theorem asks_failure (e : ServiceError) : (failure e).Asks May :=
  trivial

@[simp]
theorem asks_after {events : List Journal.Event} {plan : Plan} :
    (plan.after events).Asks May ↔ plan.Asks May := by
  cases plan <;> rfl

/-- What is asked if all demands are met may be asked. -/
theorem asks_demanding {unmet : List Unmet} {plan : Plan} (h : plan.Asks May) :
    (demanding unmet plan).Asks May :=
  demanding_induction asks_failure fun _ => h

/-- What is asked if the rule can be read may be asked, for the tree that is read. -/
theorem asks_reading {rule : String} {plan : Tree → Plan}
    (h : ∀ tree, Parser.parse rule = .ok tree → (plan tree).Asks May) :
    (reading rule plan).Asks May :=
  reading_induction asks_failure (fun _ _ => asks_after.2) h

end Plan

variable {May : ∀ {α : Type}, Operation α → Prop}

/-- What is asked for any payload may be asked. -/
theorem Request.asks_planWith {α : Type} {r : Request}
    {read : Nat → Json.Document → Except Json.Fault α} {plan : α → Plan}
    (h : ∀ p, (plan p).Asks May) : (r.planWith read plan).Asks May :=
  Plan.planWith_induction (fun _ => trivial) fun p _ => h p

/-- A payload that can be read is what the plan is made for. -/
theorem Request.planWith_of_payload {α : Type} {r : Request}
    {read : Nat → Json.Document → Except Json.Fault α} {p : α} (h : r.payload read = .ok p)
    (plan : α → Plan) : r.planWith read plan = plan p := by
  rw [planWith, h]

/-- Evaluating a tree asks the store nothing. -/
theorem asks_evaluateTree (elapsed : Nat) (p : TreeEvaluation) :
    (evaluateTree elapsed p).Asks May := by
  unfold evaluateTree
  -- whatever is wrong with the tree, the plan is a reply
  repeat' split
  all_goals trivial

/-- Evaluating a rule asks the store for the rule. -/
theorem asks_evaluateRule (elapsed : Nat) {id : Int64} (h : May (.get id)) (p : RuleEvaluation) :
    (evaluateRule elapsed id p).Asks May := by
  unfold evaluateRule
  split
  · -- without a context the store is not asked
    exact Plan.asks_failure _
  · exact h

/-- The plan of a request asks for nothing but what may be asked, if that is so wherever a rule is
created, revised or combined. -/
theorem Request.asks_plan (r : Request) (elapsed : Nat) (hcreate : ∀ p, (createRule p).Asks May)
    (hupdate : ∀ id p, (updateRule id p).Asks May)
    (hcombine : ∀ p, r.action = .ok .combineRules → r.payload Joining.read = .ok p →
      (combineRules p).Asks May)
    (hlist : May .list) (hget : ∀ id, May (.get id)) (hdelete : ∀ id, May (.delete id)) :
    (r.plan elapsed).Asks May := by
  unfold plan
  cases haction : r.action with
  | error why => trivial
  | ok action =>
    cases action with
    | checkHealth => trivial
    | listRules => exact hlist
    | createRule => exact asks_planWith hcreate
    | combineRules =>
      exact Plan.planWith_induction (fun _ => trivial) fun p hp => hcombine p haction hp
    | evaluateTree => exact asks_planWith (asks_evaluateTree elapsed)
    | getRule id => exact hget id
    | updateRule id => exact asks_planWith (hupdate id)
    | deleteRule id => exact hdelete id
    | evaluateRule id => exact asks_planWith (asks_evaluateRule elapsed (hget id))

end Rulebook.Http
