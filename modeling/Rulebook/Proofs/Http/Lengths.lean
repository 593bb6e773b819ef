import Rulebook.Proofs.Combination.Meaning
import Rulebook.Proofs.Http.Evaluation

/-!
# How long stored rules are

The service demands of a rule that is sent to it, to be created or as a revision, that it has at
least one character and at most `maxRuleLength` of them (`Fits`). No such demand is made on the text
that is stored with a combination. This text is written from the tree, and may be longer than any
rule that could be sent.

* `Request.Combines` says that a request saves a combination. Every stored text fits, unless it was
  written for such a request (`all_hasText_stateAfter`), and a request of this kind stores its text
  however long that is (`serve_combines`). No stored text is empty.
* A stored rule takes its own text as a revision if the text fits, and then nothing is new but the
  time of the revision. A text that does not fit is refused (`length_text_stored`).
* Names of 2048 letters are rules that fit, but the combination of two of them does not
  (`refused_pair`).
-/

namespace Rulebook

namespace Http

/-- The text has as many characters as the service demands of a rule that is sent to it. -/
def Fits (text : String) : Prop :=
  1 ≤ text.length ∧ text.length ≤ maxRuleLength

/-- The demand on the text of a rule is met exactly if the text fits. -/
theorem demandRule_eq_nil_iff {text : String} : demandRule text = [] ↔ Fits text := by
  unfold demandRule demandBetween
  split
  · next h => exact iff_of_true rfl h
  · next h => exact iff_of_false (List.cons_ne_nil _ _) h

/-! ### What is written -/

/-- The request combines rules, which can be combined into the tree, and saves the combination. -/
def Request.Combines (r : Request) (tree : Tree) : Prop :=
  r.action = .ok .combineRules ∧ ∃ p, r.payload Joining.read = .ok p ∧ p.unmet = [] ∧
    p.save = true ∧ Combination.combine p.connective p.rules = .ok tree

section Writes

variable {P : String → Prop}

/-- The rule has a text with the property. -/
def HasText (P : String → Prop) (r : StoredRule) : Prop :=
  P r.text

/-- A rule that is created fits. -/
theorem createRule_writes (hfits : ∀ text, Fits text → P text) (p : Creation) :
    (createRule p).Asks (Operation.Writes (HasText P)) := by
  refine Plan.demanding_induction Plan.asks_failure fun hunmet => Plan.asks_reading fun tree _ => ?_
  have hrule : demandRule p.rule = [] := (List.append_eq_nil_iff.1 hunmet).1
  exact fun id now => hfits p.rule (demandRule_eq_nil_iff.1 hrule)

/-- A rule that is revised fits afterwards. -/
theorem updateRule_writes (hfits : ∀ text, Fits text → P text) (id : Int64) (p : Revision) :
    (updateRule id p).Asks (Operation.Writes (HasText P)) := by
  refine Plan.demanding_induction Plan.asks_failure fun hunmet => Plan.asks_reading fun tree _ => ?_
  exact fun now r => hfits p.rule (demandRule_eq_nil_iff.1 hunmet)

/-- A combination is stored with the text of its tree, about which nothing is demanded. -/
theorem combineRules_writes {p : Joining}
    (hcombined : ∀ tree, p.unmet = [] → p.save = true →
      Combination.combine p.connective p.rules = .ok tree → P tree.text) :
    (combineRules p).Asks (Operation.Writes (HasText P)) := by
  refine Plan.demanding_induction Plan.asks_failure fun hunmet => Plan.asks_after.2 ?_
  split
  · -- without a tree nothing is stored
    exact Plan.asks_failure _
  · next tree htree =>
    split
    · next hsave => exact fun id now => hcombined tree hunmet hsave htree
    · -- a combination that is not to be saved is not written either
      trivial

/-- What holds of every text that fits, and of the text of every combination that some requests
save, holds of every text that is stored after the requests. -/
theorem all_hasText_stateAfter {visits : List Visit} (hfits : ∀ text, Fits text → P text)
    (hcombined : ∀ v ∈ visits, ∀ tree, v.request.Combines tree → P tree.text) :
    (stateAfter Catalogue.backend Catalogue.empty visits).All (HasText P) := by
  refine stateAfter_invariant_of_mem (fun v hv c hc => ?_) Catalogue.all_empty
  -- of all that is written only the text of a combination depends on the request
  have hcombine : ∀ p, v.request.action = .ok .combineRules →
      v.request.payload Joining.read = .ok p →
        (combineRules p).Asks (Operation.Writes (HasText P)) :=
    fun p haction hp => combineRules_writes fun tree hunmet hsave htree =>
      hcombined v hv tree ⟨haction, p, hp, hunmet, hsave, htree⟩
  have hplan := v.request.asks_plan v.moment.elapsed (createRule_writes hfits)
    (updateRule_writes hfits) hcombine trivial (fun _ => trivial) fun _ => trivial
  exact Plan.run_invariant hplan (hc.perform v.moment.now) hc

end Writes

/-- A combination that can be saved has a text that is not empty. -/
theorem Request.Combines.length_pos {r : Request} {tree : Tree} (h : r.Combines tree) :
    1 ≤ tree.text.length := by
  obtain ⟨-, p, -, -, -, htree⟩ := h
  exact (Combination.readable_of_combine htree).length_text_pos

/-- A combination is saved under the next number, with its own text, however long that is. -/
theorem serve_combines {q : Request} {tree : Tree} (hq : q.Combines tree) (m : Moment)
    (c : Catalogue) : ∃ name, (serve Catalogue.backend m q c).state =
      (c.save m.now name tree.text tree).2 := by
  obtain ⟨haction, p, hp, hunmet, hsave, htree⟩ := hq
  refine ⟨p.name, ?_⟩
  -- all that could stop the plan has been met, so it is carried out as it stands
  rw [serve, Request.plan, haction]
  dsimp only
  rw [Request.planWith, hp]
  dsimp only
  rw [combineRules, hunmet, htree]
  dsimp only
  rw [hsave]
  rfl

/-! ### Sending a stored text back -/

variable {c : Catalogue} {i : Int64} {r : StoredRule} {q : Request} {text : String}

/-- A text that is put at a rule is taken for its revision. -/
theorem Request.Puts.plan_eq
    (hq : q.Puts ("/api/rules/" ++ Text.ofInt64 i) [("rule", .string text)]) (elapsed : Nat) :
    q.plan elapsed = updateRule i ⟨text⟩ := by
  have hpayload : q.payload Revision.read = .ok ⟨text⟩ :=
    hq.posts.payload_eq fun _ _ hperm h => Revision.read_of_said hperm h
  rw [plan, action_updateRule hq.method hq.posts.path]
  exact planWith_of_payload hpayload _

/-- A stored rule takes a text that fits and can be read. -/
theorem serve_updateRule {tree : Tree} (hr : c.get? i = some r)
    (hparse : Parser.parse text = .ok tree) (hfits : Fits text)
    (hq : q.Puts ("/api/rules/" ++ Text.ofInt64 i) [("rule", .string text)]) (m : Moment) :
    (serve Catalogue.backend m q c).response.status = 200 ∧
      (serve Catalogue.backend m q c).state = (c.update m.now i text tree).2 := by
  have hplan : q.plan m.elapsed = (Plan.ask [] (.update i text tree) (.ofFound i fun stored =>
      .success stored.summary [.ruleUpdated i])).after (Journal.ofParse text) := by
    rw [hq.plan_eq, updateRule, Plan.demanding, Revision.unmet, demandRule_eq_nil_iff.2 hfits,
      Plan.reading, hparse]
    rfl
  constructor
  · -- the response depends on what the store answers, and it has the rule
    rw [response_serve hplan (hq.method ▸ by decide)]
    change (Reply.ofFound i _ (.ok ((c.get? i).map _))).response.status = 200
    rw [hr]
    rfl
  · rw [serve, hplan]
    rfl

/-- A text that does not fit is refused, whatever rule it is put at. -/
theorem serve_updateRule_of_not_fits (hfits : ¬ Fits text)
    (hq : q.Puts ("/api/rules/" ++ Text.ofInt64 i) [("rule", .string text)]) (m : Moment) :
    (serve Catalogue.backend m q c).response.status = 400 ∧
      (serve Catalogue.backend m q c).response.code? = some (.string "VALIDATION_ERROR") ∧
      (serve Catalogue.backend m q c).state = c := by
  -- the demand is not met, so the plan fails before the store is asked
  have hplan : q.plan m.elapsed = .failure (.invalid (demandRule text)) := by
    rw [hq.plan_eq, updateRule, Plan.demanding, if_neg]
    · rfl
    · exact fun h => hfits (demandRule_eq_nil_iff.1 (List.isEmpty_iff.1 h))
  rw [response_serve hplan (hq.method ▸ by decide)]
  refine ⟨rfl, rfl, ?_⟩
  rw [serve, hplan]
  rfl

/-- **How long stored texts are.** After any requests to a service over an empty catalogue, no
stored text is empty, and each is at most `maxRuleLength` characters long unless a combination with
a longer text has been saved: nothing keeps that from being stored. Whoever puts the text of a
stored rule at the rule again is refused exactly if it is longer; otherwise text and tree stay as
they are, and nothing is new but the time of the last revision. -/
theorem length_text_stored {visits : List Visit} {c : Catalogue}
    (hc : stateAfter Catalogue.backend Catalogue.empty visits = c) :
    (∀ r ∈ c.rules, 1 ≤ r.text.length) ∧
    ((∀ v ∈ visits, ∀ tree, v.request.Combines tree → tree.text.length ≤ maxRuleLength) →
      ∀ r ∈ c.rules, r.text.length ≤ maxRuleLength) ∧
    (∀ (q : Request) (m : Moment) (tree : Tree), q.Combines tree →
      ∃ name, (serve Catalogue.backend m q c).state = (c.save m.now name tree.text tree).2) ∧
    ∀ (i : Int64) (r : StoredRule), c.get? i = some r → ∀ (q : Request) (m : Moment),
      q.Puts ("/api/rules/" ++ Text.ofInt64 i) [("rule", .string r.text)] →
        let served := serve Catalogue.backend m q c
        (r.text.length ≤ maxRuleLength → served.response.status = 200 ∧
          ∀ j, served.state.get? j = if j = i then some { r with updatedAt := m.now }
            else c.get? j) ∧
        (maxRuleLength < r.text.length → served.response.status = 400 ∧
          served.response.code? = some (.string "VALIDATION_ERROR") ∧ served.state = c) := by
  subst hc
  have hpos : (stateAfter Catalogue.backend Catalogue.empty visits).All
      (HasText fun text => 1 ≤ text.length) :=
    all_hasText_stateAfter (fun _ h => h.1) fun v _ tree h => h.length_pos
  refine ⟨hpos, fun hcombined => ?_, fun q m tree hq => serve_combines hq m _,
    fun i r hr q m hq => ?_⟩
  · -- a text that is sent fits anyway, so only combinations have to be bounded
    exact all_hasText_stateAfter (fun _ h => h.2) hcombined
  · have hmem := List.mem_of_find?_eq_some hr
    -- the text is read as the tree that is stored with it, so the revision brings the same tree
    obtain ⟨tree, hparse, htree⟩ : r.Agrees :=
      stateAfter_invariant serve_agrees Catalogue.agrees_empty visits r hmem
    have hast : Transport.ofTree tree = r.ast :=
      Transport.ofTree_of_toTree (Transport.restore_eq_ok_iff.1 htree)
    refine ⟨fun hle => ?_, fun hlt => ?_⟩
    · obtain ⟨hstatus, hstate⟩ := serve_updateRule hr hparse ⟨hpos r hmem, hle⟩ hq m
      refine ⟨hstatus, fun j => ?_⟩
      rw [hstate, Catalogue.get?_update, hr, Option.map_some, Catalogue.revise, hast]
    · exact serve_updateRule_of_not_fits (fun hfits => Nat.not_lt.2 hfits.2 hlt) hq m

/-- The text of the combination that is saved is put at its rule again. -/
theorem length_text_stored_savedCombination :
    let c := stateAfter Catalogue.backend Catalogue.empty savedCombination
    ∃ r q, c.get? 1 = some r ∧ 1 ≤ r.text.length ∧
      q.Puts ("/api/rules/" ++ Text.ofInt64 1) [("rule", .string r.text)] ∧
      (serve Catalogue.backend ⟨⟨9, 0⟩, 0⟩ q c).response.status = 200 ∧
      (serve Catalogue.backend ⟨⟨9, 0⟩, 0⟩ q c).state.get? 1 =
        some { r with updatedAt := ⟨9, 0⟩ } := by
  intro c
  have hfound : (c.get? 1).any (fun r => decide (r.text.length ≤ maxRuleLength)) = true := by
    decide +kernel
  have hc : stateAfter Catalogue.backend Catalogue.empty savedCombination = c := rfl
  -- from here on the catalogue is not to be evaluated again
  clear_value c
  obtain ⟨r, hr, hlength⟩ := (Option.any_eq_true _ _).1 hfound
  have hle : r.text.length ≤ maxRuleLength := of_decide_eq_true hlength
  have hputs : ∃ q : Request, q.Puts ("/api/rules/" ++ Text.ofInt64 1)
      [("rule", .string r.text)] := exists_puts (Nat.le_trans hle (by decide))
  obtain ⟨q, hq⟩ := hputs
  obtain ⟨hpos, -, -, hback⟩ := length_text_stored hc
  obtain ⟨hstatus, hstate⟩ := (hback 1 r hr q ⟨⟨9, 0⟩, 0⟩ hq).1 hle
  have hsame := hstate 1
  rw [if_pos rfl] at hsame
  exact ⟨r, q, hr, hpos r (List.mem_of_find?_eq_some hr), hq, hstatus, hsame⟩

/-! ### A combination that is too long -/

/-- A request that posts rules to combine and save saves their combination, if there is one. -/
theorem combines_of_posts {q : Request} {rules : List String} {connective : Connective}
    {tree : Tree} (hrules : 1 ≤ rules.length ∧ rules.length ≤ 50)
    (h : Combination.combine connective rules = .ok tree)
    (hq : q.Posts "/api/rules/combine" [("rules", .array (rules.map .string)),
      ("operator", connective.toJson), ("save", .boolean true)]) : q.Combines tree := by
  have hpayload : q.payload Joining.read = .ok ⟨rules, connective, true, none⟩ :=
    hq.payload_eq fun _ _ hperm h => Joining.read_of_said hperm h
  refine ⟨action_combineRules hq.method hq.path, _, hpayload, ?_, rfl, h⟩
  rw [Joining.unmet, demandBetween, if_pos hrules]
  rfl

/-- A name of `n` letters. -/
def letters (n : Nat) : String := String.ofList (List.replicate n 'a')

/-- The name has so many letters. -/
theorem length_letters (n : Nat) : (letters n).length = n := by
  rw [letters, String.length_ofList, List.length_replicate]

/-- A name is a word that can be an operand. -/
theorem isOperandWord_letters {n : Nat} (hn : n ≠ 0) : Token.isOperandWord (letters n) = true := by
  -- letters are no quotes, so all of the name is its body
  have hquoted : Operand.quoted? (List.replicate n 'a') = none := by
    refine Option.eq_none_iff_forall_ne_some.2 fun body hq => ?_
    have hmem : '\'' ∈ List.replicate n 'a' := by
      rw [Operand.quoted?_eq_some_iff.1 hq]
      exact List.mem_cons_self
    exact absurd (List.eq_of_mem_replicate hmem) (by decide)
  have hbody : Token.body (letters n).toList = List.replicate n 'a' := by
    rw [letters, String.toList_ofList, Token.body, hquoted]
    rfl
  have hletter : Text.isAlphanumeric 'a' = true := by decide +kernel
  rw [Token.isOperandWord, hbody, List.all_replicate, hletter]
  simp [hn]

/-- A name is a rule. -/
theorem parse_letters {n : Nat} (hn : 3 < n) :
    Parser.parse (letters n) = .ok (.operand (letters n)) := by
  -- no word so long is an operator
  have hword : Token.ofWord? (letters n) = some (.operand (letters n)) :=
    Token.ofWord?_of_isOperandWord (isOperandWord_letters (by omega)) (by rwa [length_letters])
  have hreadable : (Tree.operand (letters n)).Readable := by
    refine ⟨fun v hv => ?_, Nat.zero_le _⟩
    rw [List.mem_singleton.1 hv]
    exact hword
  have htext : (Tree.operand (letters n)).text = letters n := String.ofList_toList
  have hparse := Parser.parse_text hreadable
  rwa [htext] at hparse

/-- The combination of two names. -/
def pair (n : Nat) : Tree :=
  .node (.logical .and) (.operand (letters n)) (.operand (letters n))

/-- The text of the combination has both names, the operator, and five characters around them. -/
theorem length_text_pair (n : Nat) : (pair n).text.length = 2 * n + 7 := by
  have hsymbol : (Operator.logical .and).symbol.toList.length = 3 := by decide
  simp only [Tree.text, pair, Tree.chars, String.length_ofList, List.length_cons,
    List.length_append, String.length_toList, length_letters, hsymbol, List.length_nil]
  omega

/-- Two names can be combined. -/
theorem combine_letters {n : Nat} (hn : 3 < n) :
    Combination.combine .and [letters n, letters n] = .ok (pair n) := by
  have hparse := parse_letters hn
  refine Combination.combine_eq_ok_iff.2 ⟨_, _, .cons hparse (.cons hparse .nil), rfl, ?_⟩
  change 1 ≤ maxOperators
  decide

/-- What is posted to save the combination of two names. -/
def pairMembers (n : Nat) : List (String × Json) :=
  [("rules", .array ([letters n, letters n].map .string)), ("operator", Connective.and.toJson),
    ("save", .boolean true)]

/-- Two names that fit can be posted. -/
theorem posts_pairMembers {n : Nat} (hn : n ≤ 4096) :
    (posted "/api/rules/combine" (pairMembers n)).Posts "/api/rules/combine" (pairMembers n) := by
  refine posts_posted (.object (by simp [pairMembers, Entries.names]) ?_) ?_
  · have hrules : (Json.array ([letters n, letters n].map .string)).Regular :=
      .array fun v hv => by
        obtain ⟨s, -, rfl⟩ := List.mem_map.1 hv
        exact .string s
    simp only [pairMembers, List.forall_mem_cons]
    exact ⟨hrules, .string _, .boolean true, nofun⟩
  · -- names of this length do not fill a body
    have hsize := Json.size_text_le (.object (pairMembers n))
    have hletters := Json.length_writeString_le (letters n)
    rw [length_letters] at hletters
    have hnames : (Json.writeString "rules").length = 7 ∧
        (Json.writeString "operator").length = 10 ∧ (Json.writeString "save").length = 6 ∧
        (Json.writeString Connective.and.symbol).length = 5 := by decide
    simp only [pairMembers, Json.write, Json.writeMembers, Json.writeItems, Connective.toJson,
      List.map_cons, List.map_nil, List.length_cons, List.length_append, List.length_nil] at hsize
    exact Nat.le_trans hsize (by rw [maxBodySize]; omega)

/-- The combination of two names is stored under the number 1, and what is stored is refused as a
revision of the rule if it is too long. -/
theorem refused_pair {n : Nat} (hn : 2045 ≤ n) (hn' : n ≤ 4096) (m : Moment) :
    let c := stateAfter Catalogue.backend Catalogue.empty
      [⟨m, posted "/api/rules/combine" (pairMembers n)⟩]
    ∃ r q, c.get? 1 = some r ∧ r.text.length = 2 * n + 7 ∧
      q.Puts ("/api/rules/" ++ Text.ofInt64 1) [("rule", .string r.text)] ∧
      (serve Catalogue.backend m q c).response.status = 400 := by
  intro c
  have hrules : 1 ≤ [letters n, letters n].length ∧ [letters n, letters n].length ≤ 50 := by simp
  have hcombines : (posted "/api/rules/combine" (pairMembers n)).Combines (pair n) :=
    combines_of_posts hrules (combine_letters (by omega)) (posts_pairMembers hn')
  obtain ⟨name, hstate⟩ := serve_combines hcombines m Catalogue.empty
  have hc : c = (Catalogue.empty.save m.now name (pair n).text (pair n)).2 := hstate
  have hlength := length_text_pair n
  have hputs : ∃ q : Request, q.Puts ("/api/rules/" ++ Text.ofInt64 1)
      [("rule", .string (pair n).text)] := exists_puts (by omega)
  obtain ⟨q, hq⟩ := hputs
  have hlong : ¬ Fits (pair n).text := fun h => absurd h.2 (by rw [hlength, maxRuleLength]; omega)
  -- the first rule that is stored gets the number 1
  have hstored : c.get? 1 = some (Catalogue.empty.save m.now name (pair n).text (pair n)).1 := by
    rw [hc, Catalogue.get?_save, if_pos (by decide)]
  exact ⟨_, q, hstored, hlength, hq, (serve_updateRule_of_not_fits hlong hq m).1⟩

/-- **Texts that are too long can be stored.** Two names of 2048 letters are combined and saved; the
text that is stored has 4103 characters, and is refused when it is sent back. -/
theorem exists_text_too_long :
    let c := stateAfter Catalogue.backend Catalogue.empty
      [⟨⟨⟨0, 0⟩, 0⟩, posted "/api/rules/combine" (pairMembers 2048)⟩]
    ∃ r q, c.get? 1 = some r ∧ r.text.length = 4103 ∧
      q.Puts ("/api/rules/" ++ Text.ofInt64 1) [("rule", .string r.text)] ∧
      (serve Catalogue.backend ⟨⟨0, 0⟩, 0⟩ q c).response.status = 400 :=
  refused_pair (by decide) (by decide) _

end Http

end Rulebook
