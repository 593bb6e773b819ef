import Rulebook.Proofs.Http.History
import Rulebook.Store.Catalogue

/-!
# What requests leave as it was

Serving a request has one of four effects on a catalogue (`Effect`): nothing is written, or a rule
is taken in, revised or removed. The last three come with the status 200 only, and each of them with
requests of one kind only. So a request that fails changes nothing (`Effect.eq_of_status_ne`), and
neither does one that only fetches, evaluates or combines (`Effect.eq_of_readsOnly`).

The numbers of rules follow from that. Each rule that is taken in is shown under the next number,
and nothing else moves the counter (`Effect.saved`). So along any run the numbers that are shown are
1, 2, 3 and so on (`numbersShown_eq`).
-/

namespace Rulebook

/-- The operation only reads. -/
def Operation.Reads {α : Type} : Operation α → Prop
  | .get _ => True
  | .list => True
  | .save _ _ _ => False
  | .update _ _ _ => False
  | .delete _ => False

namespace Catalogue

/-- What only reads writes nothing. -/
theorem perform_of_reads {α : Type} {op : Operation α} (h : op.Reads) (now : Time.Instant)
    (c : Catalogue) : (backend.perform now op c).state = c := by
  cases op with
  | get | list => rfl
  | save | update | delete => cases h

end Catalogue

namespace Http

/-! ### Requests and responses -/

/-- The request asks for a rule to be stored: it creates one, or it combines rules and saves the
combination. -/
def Request.stores (r : Request) : Bool :=
  match r.action with
  | .ok .createRule => true
  | .ok .combineRules =>
    match r.payload Joining.read with
    | .ok p => p.save
    | .error _ => false
  | _ => false

/-- The request only fetches, or evaluates, or combines rules without saving the combination. -/
def Request.ReadsOnly (r : Request) : Prop :=
  r.method = "GET" ∨ r.action = .ok .evaluateTree ∨ (∃ id, r.action = .ok (.evaluateRule id)) ∨
    (r.action = .ok .combineRules ∧ ∀ p, r.payload Joining.read = .ok p → p.save = false)

/-- The number under which an answer shows the rule that was stored. -/
def Response.number? (r : Response) : Option Json := do
  let data ← r.data?
  match data.member? "saved" with
  -- a combination shows the rule beside what it would show without it
  | some saved => saved.member? "id"
  | none => data.member? "id"

/-- No refusal has the status of success. -/
theorem Refusal.status_ne (why : Refusal) : why.status ≠ 200 := by
  rcases why with _ | _ | _ | _ | _ | _ | _ <;> decide

/-- No failure has the status of success. -/
theorem ServiceError.status_ne (e : ServiceError) : e.status ≠ 200 := by
  cases e <;> simp [status]

/-! ### Effects -/

/-- What serving a request makes of a catalogue, with which response. -/
inductive Effect (r : Request) (c : Catalogue) : Catalogue → Response → Prop where
  /-- Nothing is written, and if a rule was to be stored the request has failed. -/
  | none {response : Response} (h : r.stores = true → response.status ≠ 200) :
    Effect r c c response
  /-- A rule is taken in and shown under its number. -/
  | stored (now : Time.Instant) (name : Option String) (text : String) (tree : Tree)
    {response : Response} (h : r.stores = true) (hstatus : response.status = 200)
    (hnumber : response.number? = some (.int c.nextId.toInt)) :
    Effect r c (c.save now name text tree).2 response
  /-- A rule is revised. -/
  | revised (now : Time.Instant) (id : Int64) (text : String) (tree : Tree) {response : Response}
    (h : r.action = .ok (.updateRule id)) (hstatus : response.status = 200) :
    Effect r c (c.update now id text tree).2 response
  /-- A rule is removed. -/
  | removed (id : Int64) {response : Response} (h : r.action = .ok (.deleteRule id))
    (hstatus : response.status = 200) : Effect r c (c.delete id).2 response

/-- Whenever the plan is carried out, it has one of the effects of the request. -/
def Plan.Effective (r : Request) (plan : Plan) : Prop :=
  ∀ (now : Time.Instant) (c : Catalogue),
    Effect r c (plan.run Catalogue.backend now c).state (plan.run Catalogue.backend now c).response

namespace Plan

variable {r : Request} {plan : Plan}

theorem effective_failure (e : ServiceError) : (failure e).Effective r :=
  fun _ _ => .none fun _ => e.status_ne

theorem effective_refused (why : Refusal) : (reply (.refused why)).Effective r :=
  fun _ _ => .none fun _ => why.status_ne

/-- Further events have no effect. -/
theorem effective_after {events : List Journal.Event} (h : plan.Effective r) :
    (plan.after events).Effective r := by
  cases plan <;> exact h

/-- A plan behind demands has an effect only if these are met. -/
theorem effective_demanding {unmet : List Unmet} (h : plan.Effective r) :
    (demanding unmet plan).Effective r :=
  demanding_induction effective_failure fun _ => h

/-- A plan behind a rule has an effect only if the rule can be read. -/
theorem effective_reading {rule : String} {plan : Tree → Plan}
    (h : ∀ tree, (plan tree).Effective r) : (reading rule plan).Effective r :=
  reading_induction effective_failure (fun _ _ => effective_after) fun tree _ => h tree

/-- If no rule is to be stored, a plan that only reads writes nothing. -/
theorem effective_of_reads (hstores : r.stores = false) (h : plan.Asks Operation.Reads) :
    plan.Effective r := by
  intro now c
  -- the store is only read, or not asked at all
  have hstate : (plan.run Catalogue.backend now c).state = c := by
    cases plan with
    | reply r => rfl
    | ask before op next => exact Catalogue.perform_of_reads h now c
  rw [hstate]
  exact .none fun h => absurd (hstores.symm.trans h) Bool.false_ne_true

end Plan

/-- A plan that stores a rule shows it under its number, if it shows it at all. -/
theorem effective_save {r : Request} (h : r.stores = true) {before : List Journal.Event}
    {name : Option String} {text : String} {tree : Tree} {reply : StoredRule → Reply}
    (hstatus : ∀ stored, (reply stored).response.status = 200)
    (hnumber : ∀ stored, (reply stored).response.number? = some (.int stored.id.toInt)) :
    (Plan.ask before (.save name text tree) (.ofAnswer reply)).Effective r :=
  fun now _ => .stored now name text tree h (hstatus _) (hnumber _)

/-! ### The actions -/

variable {r : Request}

/-- Creating a rule stores it or fails. -/
theorem effective_createRule (p : Creation) (h : r.stores = true) :
    (createRule p).Effective r := by
  refine Plan.effective_demanding (Plan.effective_reading fun tree => ?_)
  exact effective_save h (fun _ => rfl) fun _ => rfl

/-- Combining rules stores the combination if that is wanted. -/
theorem effective_combineRules (p : Joining) (h : r.stores = p.save) :
    (combineRules p).Effective r := by
  refine Plan.effective_demanding (Plan.effective_after ?_)
  split
  · -- the rules cannot be combined
    exact Plan.effective_failure _
  · split
    · -- the combination is to be saved
      next hsave => exact effective_save (h.trans hsave) (fun _ => rfl) fun _ => rfl
    · -- the combination is only shown
      next hsave => exact Plan.effective_of_reads (h.trans (eq_false_of_ne_true hsave)) trivial

/-- Revising a rule has the effect of a revision, or fails. -/
theorem effective_updateRule {id : Int64} (p : Revision) (h : r.action = .ok (.updateRule id)) :
    (updateRule id p).Effective r := by
  refine Plan.effective_demanding (Plan.effective_reading fun tree => ?_)
  intro now c
  change Effect r c (c.update now id p.rule tree).2
    (Reply.ofFound id _ (.ok ((c.get? id).map _))).response
  cases hget : c.get? id with
  -- where there is no rule the catalogue stays as it is
  | none =>
    rw [Catalogue.update_of_get?_eq_none hget]
    exact .none fun _ => (ServiceError.unknownRule id).status_ne
  | some old => exact .revised now id p.rule tree h rfl

/-- Deleting a rule has the effect of a removal, or fails. -/
theorem effective_deleteRule {id : Int64} (h : r.action = .ok (.deleteRule id)) :
    (deleteRule id).Effective r := by
  intro now c
  change Effect r c (c.delete id).2 (Reply.ofAnswer _ (.ok (c.get? id).isSome)).response
  cases hget : c.get? id with
  -- where there is no rule the catalogue stays as it is
  | none =>
    rw [Catalogue.delete_of_get?_eq_none hget]
    exact .none fun _ => (ServiceError.unknownRule id).status_ne
  | some old => exact .removed id h rfl

/-- **The plan for a request has one of the effects of the request.** -/
theorem Request.plan_effective (elapsed : Nat) (r : Request) : (r.plan elapsed).Effective r := by
  unfold plan
  cases haction : r.action with
  | error why => exact Plan.effective_refused why
  | ok action =>
    have hrefused := fun why => Plan.effective_refused (r := r) why
    cases action with
    | createRule =>
      have hstores : r.stores = true := by rw [stores, haction]
      exact Plan.planWith_induction hrefused fun p _ => effective_createRule p hstores
    -- whether the combination is stored is said in the payload
    | combineRules =>
      refine Plan.planWith_induction hrefused fun p hp => effective_combineRules p ?_
      rw [stores, haction]
      dsimp only
      rw [hp]
    | updateRule id =>
      exact Plan.planWith_induction hrefused fun p _ => effective_updateRule p haction
    | deleteRule id => exact effective_deleteRule haction
    -- what neither stores nor revises nor removes only reads
    | checkHealth | listRules | getRule id =>
      exact Plan.effective_of_reads (by rw [stores, haction]) trivial
    | evaluateTree =>
      exact Plan.effective_of_reads (by rw [stores, haction])
        (asks_planWith (asks_evaluateTree elapsed))
    | evaluateRule id =>
      exact Plan.effective_of_reads (by rw [stores, haction])
        (asks_planWith (asks_evaluateRule elapsed trivial))

/-! ### Methods -/

/-- The method with which an action is asked for. -/
def Action.method : Action → String
  | .checkHealth | .listRules | .getRule _ => "GET"
  | .createRule | .combineRules | .evaluateTree | .evaluateRule _ => "POST"
  | .updateRule _ => "PUT"
  | .deleteRule _ => "DELETE"

/-- An action is asked for with its method, or with `HEAD` if it fetches. -/
theorem Resource.method_of_action {resource : Resource} {method : String} {action : Action}
    (h : resource.action method = .ok action) :
    method = action.method ∨ method = "HEAD" ∧ action.method = "GET" := by
  cases resource with
  -- at most two methods are known at each of these paths
  | health | rules | combination | evaluation =>
    simp only [Resource.action, Bool.or_eq_true, decide_eq_true_eq] at h
    grind [Action.method]
  -- with a number in the path it comes first whether this is one
  | rule number | ruleEvaluation number =>
    simp only [Resource.action, Bool.or_eq_true, decide_eq_true_eq] at h
    cases hid : ruleNumber number with
    | error why => grind [Except.map]
    | ok id => grind [Except.map, Action.method]

/-- What a request asks for it asks for with the method of the action, or with `HEAD` if it fetches.
-/
theorem Request.method_of_action {r : Request} {action : Action} (h : r.action = .ok action) :
    r.method = action.method ∨ r.method = "HEAD" ∧ action.method = "GET" := by
  unfold Request.action at h
  split at h
  · exact Resource.method_of_action h
  · cases h

/-- Rules are stored by requests with the method `POST` only. -/
theorem Request.method_of_stores {r : Request} (h : r.stores = true) : r.method = "POST" := by
  unfold stores at h
  split at h
  · next haction => exact (method_of_action haction).resolve_right fun h => absurd h.2 (by decide)
  · next haction => exact (method_of_action haction).resolve_right fun h => absurd h.2 (by decide)
  · cases h

namespace Request.ReadsOnly

variable {r : Request}

/-- A request that only reads stores nothing. -/
theorem stores_eq_false (hr : r.ReadsOnly) : r.stores = false := by
  -- nothing is stored with `GET`, nor by an evaluation, nor if a combination is not saved
  rcases hr with hget | htree | ⟨id, hrule⟩ | ⟨hcombine, hsave⟩
  · exact eq_false_of_ne_true fun h => absurd ((method_of_stores h).symm.trans hget) (by decide)
  · rw [stores, htree]
  · rw [stores, hrule]
  · rw [stores, hcombine]
    dsimp only
    split
    · next p hp => exact hsave p hp
    · rfl

/-- What only reads is asked for with `GET` or `POST`. -/
theorem method_of_action (hr : r.ReadsOnly) {action : Action} (h : r.action = .ok action) :
    action.method = "GET" ∨ action.method = "POST" := by
  rcases hr with hget | htree | ⟨id, hrule⟩ | ⟨hcombine, -⟩
  · rcases Request.method_of_action h with hm | ⟨-, hm⟩
    · exact .inl (hm.symm.trans hget)
    · exact .inl hm
  · cases htree.symm.trans h
    exact .inr rfl
  · cases hrule.symm.trans h
    exact .inr rfl
  · cases hcombine.symm.trans h
    exact .inr rfl

end Request.ReadsOnly

/-- A response without its body does not hide the effect, as rules are never stored by asking for
the head of an answer. -/
theorem Effect.trimmed {r : Request} {c c' : Catalogue} {response : Response}
    (h : Effect r c c' response) : Effect r c c' (response.trimmed r.method) := by
  cases h with
  | none h => exact .none (by rwa [Response.trimmed_status])
  -- rules are stored with `POST`, so nothing is left out here
  | stored now name text tree h hstatus hnumber =>
    rw [Response.trimmed_of_ne (Request.method_of_stores h ▸ by decide)]
    exact .stored now name text tree h hstatus hnumber
  | revised now id text tree h hstatus =>
    exact .revised now id text tree h (by rwa [Response.trimmed_status])
  | removed id h hstatus => exact .removed id h (by rwa [Response.trimmed_status])

/-- Serving a request has one of the effects of the request. -/
theorem serve_effect (v : Visit) (c : Catalogue) :
    Effect v.request c (serve Catalogue.backend v.moment v.request c).state
      (serve Catalogue.backend v.moment v.request c).response :=
  (v.request.plan_effective v.moment.elapsed v.moment.now c).trimmed

/-! ### What stays -/

namespace Effect

variable {r : Request} {c c' : Catalogue} {response : Response}

/-- A request that fails changes nothing. -/
theorem eq_of_status_ne (h : Effect r c c' response) (hstatus : response.status ≠ 200) :
    c' = c := by
  cases h with
  | none => rfl
  | stored _ _ _ _ _ h => exact absurd h hstatus
  | revised _ _ _ _ _ h => exact absurd h hstatus
  | removed _ _ h => exact absurd h hstatus

/-- A request that only reads changes nothing. -/
theorem eq_of_readsOnly (h : Effect r c c' response) (hr : r.ReadsOnly) : c' = c := by
  cases h with
  | none => rfl
  | stored _ _ _ _ h => exact absurd (hr.stores_eq_false.symm.trans h) Bool.false_ne_true
  | revised _ _ _ _ h => exact absurd (hr.method_of_action h) (by simp [Action.method])
  | removed _ h => exact absurd (hr.method_of_action h) (by simp [Action.method])

/-- The counter moves on if a rule is stored, and then the rule is shown under its number. Otherwise
it stays. -/
theorem saved (h : Effect r c c' response) :
    (r.stores = true ∧ response.status = 200) ∧
      response.number? = some (.int c.nextId.toInt) ∧ c'.saved = c.saved + 1 ∨
    ¬ (r.stores = true ∧ response.status = 200) ∧ c'.saved = c.saved := by
  cases h with
  | none h => exact .inr ⟨fun hs => h hs.1 hs.2, rfl⟩
  | stored now name text tree h hstatus hnumber => exact .inl ⟨⟨h, hstatus⟩, hnumber, rfl⟩
  -- the request asks for another action than those that store
  | revised now id text tree h => exact .inr ⟨fun hs => by simp [Request.stores, h] at hs, rfl⟩
  | removed id h => exact .inr ⟨fun hs => by simp [Request.stores, h] at hs, rfl⟩

end Effect

/-! ### Numbers -/

/-- Some requests with their responses, served one after another. -/
def answered {σ : Type} (backend : Backend σ) (state : σ) : List Visit → List (Request × Response)
  | [] => []
  | v :: visits =>
    let served := serve backend v.moment v.request state
    (v.request, served.response) :: answered backend served.state visits

/-- The numbers that are shown where a rule was to be stored and the request did not fail. -/
def numbersShown (c : Catalogue) (visits : List Visit) : List (Option Json) :=
  ((answered Catalogue.backend c visits).filter
    fun a => a.1.stores && decide (a.2.status = 200)).map fun a => a.2.number?

/-- The numbers that are shown go on from the counter, one by one. -/
theorem numbersShown_eq (c : Catalogue) (visits : List Visit) :
    numbersShown c visits = (List.range' (c.saved + 1) (numbersShown c visits).length).map
      fun k => some (.int (Int64.ofNat k).toInt) := by
  -- on the requests, for whatever catalogue the ones before have left behind
  induction visits generalizing c with
  | nil => rfl
  | cons v visits ih =>
    have ih := ih (serve Catalogue.backend v.moment v.request c).state
    rcases (serve_effect v c).saved with ⟨hstored, hnumber, hsaved⟩ | ⟨hstored, hsaved⟩
    · -- a number is shown, and it is the one the counter has reached
      have hcons : numbersShown c (v :: visits) = some (.int c.nextId.toInt) ::
          numbersShown (serve Catalogue.backend v.moment v.request c).state visits := by
        rw [numbersShown, answered, List.filter_cons_of_pos (by simpa using hstored), List.map_cons,
          hnumber]
        rfl
      rw [hcons, List.length_cons, List.range'_succ, List.map_cons, Catalogue.nextId,
        ← hsaved, ← ih]
    · -- nothing is shown, and the counter stays
      have hcons : numbersShown c (v :: visits) =
          numbersShown (serve Catalogue.backend v.moment v.request c).state visits := by
        rw [numbersShown, answered, List.filter_cons_of_neg (by simpa using hstored)]
        rfl
      rw [hcons, ← hsaved]
      exact ih

/-- **A request that fails changes nothing**, and neither does one that fetches, evaluates, or
combines rules without saving the combination, whatever comes of it. So in any run the rules that
are created and the combinations that are saved get the numbers 1, 2, 3 and so on, in signed words
of 64 bits, whatever fails in between. -/
theorem serve_state_eq_of_status_ne :
    (∀ (v : Visit) (c : Catalogue),
      (serve Catalogue.backend v.moment v.request c).response.status ≠ 200 →
        (serve Catalogue.backend v.moment v.request c).state = c) ∧
    (∀ (v : Visit) (c : Catalogue), v.request.ReadsOnly →
      (serve Catalogue.backend v.moment v.request c).state = c) ∧
    ∀ visits : List Visit,
      numbersShown Catalogue.empty visits =
        (List.range' 1 (numbersShown Catalogue.empty visits).length).map
          (fun k => some (.int (Int64.ofNat k).toInt)) ∧
      ((numbersShown Catalogue.empty visits).length < Nat.pow 2 63 →
        numbersShown Catalogue.empty visits =
          (List.range' 1 (numbersShown Catalogue.empty visits).length).map
            fun k => some (.int k)) := by
  refine ⟨fun v c => (serve_effect v c).eq_of_status_ne,
    fun v c => (serve_effect v c).eq_of_readsOnly,
    fun visits => ⟨numbersShown_eq Catalogue.empty visits, fun hlength => ?_⟩⟩
  refine (numbersShown_eq Catalogue.empty visits).trans (List.map_congr_left fun k hk => ?_)
  -- as long as there are fewer numbers than signed words, none of them wraps around
  have hbound : k < 1 + (numbersShown Catalogue.empty visits).length := (List.mem_range'_1.1 hk).2
  have hle : k ≤ (numbersShown Catalogue.empty visits).length := by omega
  rw [Int64.toInt_ofNat_of_lt (Nat.lt_of_le_of_lt hle hlength)]

/-- A request with a JSON body. -/
def posting (path body : String) : Visit :=
  ⟨⟨⟨0, 0⟩, 0⟩, ⟨"POST", path, some "application/json", body⟩⟩

/-- A rule that cannot be read, a rule, a combination that is not saved and one that is. -/
def mixedRun : List Visit :=
  [posting "/api/rules" "\x7b\"rule\": \"a >\", \"name\": null\x7d",
   posting "/api/rules" "\x7b\"rule\": \"a > 1\", \"name\": null\x7d",
   posting "/api/rules/combine" "\x7b\"rules\": [\"a\", \"b\"], \"name\": null\x7d",
   posting "/api/rules/combine" "\x7b\"rules\": [\"a\"], \"save\": true, \"name\": null\x7d"]

/-- The rule that cannot be read and the combination that is not saved change nothing, and the other
two requests get the numbers 1 and 2. -/
theorem serve_state_eq_of_status_ne_mixedRun :
    let c := stateAfter Catalogue.backend Catalogue.empty mixedRun
    (serve Catalogue.backend mixedRun[0].moment mixedRun[0].request c).state = c ∧
    (serve Catalogue.backend mixedRun[2].moment mixedRun[2].request c).state = c ∧
    numbersShown Catalogue.empty mixedRun = [some (.int 1), some (.int 2)] := by
  intro c
  have hlength : (numbersShown Catalogue.empty mixedRun).length = 2 := by decide +kernel
  have hsave : (mixedRun[2].request.payload Joining.read).toOption.map (·.save) = some false := by
    decide +kernel
  refine ⟨serve_state_eq_of_status_ne.1 mixedRun[0] c (by decide +kernel),
    serve_state_eq_of_status_ne.2.1 mixedRun[2] c (.inr (.inr (.inr ⟨rfl, ?_⟩))), ?_⟩
  · intro p hp
    rw [hp] at hsave
    exact Option.some.inj hsave
  · rw [(serve_state_eq_of_status_ne.2.2 mixedRun).2 (by rw [hlength]; decide), hlength]
    rfl

end Http

end Rulebook
