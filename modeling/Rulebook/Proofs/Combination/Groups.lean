import Mathlib.Data.Option.Basic
import Rulebook.Proofs.Combination.Meaning

/-!
# Combining as reading

Rules are combined by reading each of them and joining the trees. This module proves that one
reading does the same: of the text in which each rule stands in parentheses, with the connective
between them (`grouped`). What combining makes of the rules is read from that text, and of rules
that can be read, exactly those can be combined whose text in parentheses can be read
(`combine_eq_ok_iff_parse_grouped`). In particular the limit on the operators of a combination and
the one on those of a single rule are the same.

* `Token.ReadsAs` says which tokens the words of a text are; it goes along with the parts of the
  text (`ReadsAs.group`, `ReadsAs.operator`).
* Each rule in parentheses is a primary, so the connective behind it takes all that is in front.
  `exists_tokens_joining` builds the derivation of the joined tree by induction on the rules behind
  the first, with the tokens of what is joined so far general.
-/

namespace Rulebook

open Grammar

/-! ### Texts as tokens -/

namespace Token

/-- The words of the text are the tokens. -/
def ReadsAs (cs : List Char) (ts : List Token) : Prop :=
  (wordsFrom [] cs).map (fun w => ofWord? (String.ofList w)) = ts.map some

/-- The words of a rule are tokens exactly if its characters are read as them. -/
theorem mapM_words_eq_some_iff {rule : String} {ts : List Token} :
    (words rule).mapM ofWord? = some ts ↔ ReadsAs rule.toList ts := by
  rw [mapM_eq_some_iff, words, List.map_map]
  rfl

/-- A text is read as one list of tokens only. -/
theorem ReadsAs.unique {cs : List Char} {ts us : List Token} (h : ReadsAs cs ts)
    (h' : ReadsAs cs us) : ts = us := by
  have hsome : ts.map some = us.map some := h.symm.trans h'
  exact List.map_injective_iff.2 (Option.some_injective _) hsome

theorem readsAs_nil : ReadsAs [] [] := rfl

/-- Texts are read one behind the other, if no word goes on from the first into the second. -/
theorem ReadsAs.append {cs ds : List Char} {ts us : List Token} (h : ReadsAs cs ts)
    (h' : ReadsAs ds us) (hds : Detached ds) : ReadsAs (cs ++ ds) (ts ++ us) := by
  rw [ReadsAs] at h h' ⊢
  rw [wordsFrom_append_detached hds, List.map_append, h, h', List.map_append]

/-- In front of anything, a text in parentheses is read as a group. -/
theorem ReadsAs.group {cs ds : List Char} {ts us : List Token} (h : ReadsAs cs ts)
    (h' : ReadsAs ds us) :
    ReadsAs ('(' :: (cs ++ ')' :: ds)) (.openParen :: (ts ++ .closeParen :: us)) := by
  -- a parenthesis is a word by itself, whatever stands beside it
  have hclose : ReadsAs (')' :: ds) (.closeParen :: us) := by
    rw [ReadsAs, wordsFrom_paren (.inr rfl), List.map_cons, h']
    rfl
  have hinner := h.append hclose (detached_cons rfl ds)
  rw [ReadsAs, wordsFrom_paren (.inl rfl), List.map_cons, hinner]
  rfl

/-- An operator between blanks is read as itself. -/
theorem ReadsAs.operator {ds : List Char} {us : List Token} (op : Operator) (h : ReadsAs ds us) :
    ReadsAs (' ' :: (op.symbol.toList ++ ' ' :: ds)) (.operator op :: us) := by
  rw [ReadsAs, wordsFrom_blank, wordsFrom_word (isWord_symbol op) (detached_cons rfl ds),
    wordsFrom_blank, List.map_cons, h, String.ofList_toList, ofWord?_symbol]
  rfl

end Token

/-- A rule is read as a tree exactly if its tokens derive the tree and its operators are not too
many. -/
theorem Parser.parse_eq_ok_iff {rule : String} {t : Tree} :
    parse rule = .ok t ↔ ∃ ts, Token.ReadsAs rule.toList ts ∧ Derives .expression ts t ∧
      t.operatorCount ≤ maxOperators := by
  rw [parse, build_eq_ok_iff_derives]
  simp only [Token.mapM_words_eq_some_iff]
  constructor
  · rintro ⟨ts, hts, ht, hn⟩
    exact ⟨ts, hts, ht, ht.countP_isOperator ▸ hn⟩
  · rintro ⟨ts, hts, ht, hn⟩
    exact ⟨ts, hts, ht, ht.countP_isOperator.symm ▸ hn⟩

namespace Combination

/-! ### Rules in parentheses -/

/-- The rules, each in parentheses, with the connective between them. -/
def grouped (c : Connective) (rules : List String) : String :=
  String.intercalate (" " ++ c.symbol ++ " ") (rules.map fun rule => "(" ++ rule ++ ")")

/-- The characters behind the first of the rules in parentheses. -/
def charsBehind (c : Connective) : List String → List Char
  | [] => []
  | rule :: rules =>
    ' ' :: (c.symbol.toList ++ ' ' :: '(' :: (rule.toList ++ ')' :: charsBehind c rules))

/-- Behind the first rule in parentheses come the others. -/
theorem toList_grouped (c : Connective) (rule : String) (rules : List String) :
    (grouped c (rule :: rules)).toList =
      '(' :: (rule.toList ++ ')' :: charsBehind c rules) := by
  induction rules generalizing rule with
  | nil => simp [grouped, charsBehind]
  | cons rule' rules ih =>
    -- the connective stands between the first rule and the second one
    have hcons : (grouped c (rule :: rule' :: rules)).toList =
        '(' :: (rule.toList ++ ')' :: ' ' :: (c.symbol.toList ++
          ' ' :: (grouped c (rule' :: rules)).toList)) := by
      simp [grouped]
    rw [hcons, ih, charsBehind]

/-- Behind tokens that derive a tree, the tokens of further rules in parentheses derive what comes
of joining the rules to the tree. -/
theorem exists_tokens_joining {c : Connective} {rules : List String} {rest : List Tree}
    (h : List.Forall₂ (fun rule t => Parser.parse rule = .ok t) rules rest) :
    ∃ us, Token.ReadsAs (charsBehind c rules) us ∧ ∀ ts first, Derives .expression ts first →
      Derives .expression (ts ++ us) (Tree.joined c first rest) := by
  induction h with
  | nil =>
    refine ⟨[], Token.readsAs_nil, fun ts first hfirst => ?_⟩
    rwa [List.append_nil]
  | @cons rule t rules rest hparse _ ih =>
    obtain ⟨us, hus, hjoin⟩ := ih
    obtain ⟨vs, hvs, ht, -⟩ := Parser.parse_eq_ok_iff.1 hparse
    refine ⟨.operator (.logical c) :: .openParen :: (vs ++ .closeParen :: us), ?_,
      fun ts first hfirst => ?_⟩
    · exact (hvs.group hus).operator (.logical c)
    · -- the group is joined to what is in front of it before the next one is
      have hstep := hjoin _ _ (.join c hfirst (.primary (.group ht)))
      rw [Tree.joined_cons]
      simpa using hstep

/-- The text in parentheses of rules that can be read is read as the tree that comes of joining
them, and only if this tree has not too many operators. -/
theorem parse_grouped_eq_ok_iff {c : Connective} {rules : List String} {first t : Tree}
    {rest : List Tree}
    (h : List.Forall₂ (fun rule t => Parser.parse rule = .ok t) rules (first :: rest)) :
    Parser.parse (grouped c rules) = .ok t ↔
      t = Tree.joined c first rest ∧ t.operatorCount ≤ maxOperators := by
  obtain ⟨rule, rules, hrule, hrest, rfl⟩ := List.forall₂_cons_right_iff.1 h
  obtain ⟨vs, hvs, hfirst, -⟩ := Parser.parse_eq_ok_iff.1 hrule
  obtain ⟨us, hus, hjoin⟩ := exists_tokens_joining (c := c) hrest
  have hreads := hvs.group hus
  rw [← toList_grouped] at hreads
  have hderives := hjoin _ _ (.comparison (.primary (.group hfirst)))
  rw [List.cons_append, List.append_assoc, List.singleton_append] at hderives
  have hjoined : (Tree.joined c first rest).operatorCount ≤ maxOperators →
      Parser.parse (grouped c (rule :: rules)) = .ok (Tree.joined c first rest) := fun hn =>
    Parser.parse_eq_ok_iff.2 ⟨_, hreads, hderives, hn⟩
  constructor
  · intro ht
    obtain ⟨ts, hts, hderives', hn⟩ := Parser.parse_eq_ok_iff.1 ht
    cases hts.unique hreads
    -- the operators of both trees are those among the tokens
    have hcount := hderives'.countP_isOperator.symm.trans hderives.countP_isOperator
    have hsame := (hjoined (hcount ▸ hn)).symm.trans ht
    cases hsame
    exact ⟨rfl, hn⟩
  · rintro ⟨rfl, hn⟩
    exact hjoined hn

/-- Rules each of which can be read are read as some list of trees. -/
theorem exists_trees {rules : List String} (h : ∀ rule ∈ rules, ∃ t, Parser.parse rule = .ok t) :
    ∃ ts, List.Forall₂ (fun rule t => Parser.parse rule = .ok t) rules ts := by
  induction rules with
  | nil => exact ⟨[], .nil⟩
  | cons rule rules ih =>
    obtain ⟨t, ht⟩ := h rule List.mem_cons_self
    obtain ⟨ts, hts⟩ := ih fun r hr => h r (List.mem_cons_of_mem _ hr)
    exact ⟨t :: ts, .cons ht hts⟩

/-- **Combining is reading in parentheses.** What rules are combined to is read from the text in
which they stand in parentheses, with the connective between them. Of rules each of which can be
read, exactly those can be combined whose text in parentheses can be read. -/
theorem combine_eq_ok_iff_parse_grouped (c : Connective) (rules : List String) :
    (∀ t, combine c rules = .ok t → Parser.parse (grouped c rules) = .ok t) ∧
    ((∀ rule ∈ rules, ∃ t, Parser.parse rule = .ok t) →
      ∀ t, combine c rules = .ok t ↔ Parser.parse (grouped c rules) = .ok t) := by
  have hread : ∀ t, combine c rules = .ok t → Parser.parse (grouped c rules) = .ok t := by
    intro t h
    obtain ⟨first, rest, hrules, ht⟩ := combine_eq_ok_iff.1 h
    exact (parse_grouped_eq_ok_iff hrules).2 ht
  refine ⟨hread, fun hparse t => ⟨hread t, fun h => ?_⟩⟩
  obtain ⟨ts, hts⟩ := exists_trees hparse
  cases ts with
  | nil =>
    -- no rules, and no text
    cases hts
    have hempty : Parser.parse (grouped c []) = .error .emptyRule := by
      cases c <;> rfl
    cases hempty.symm.trans h
  | cons first rest =>
    obtain ⟨ht, hn⟩ := (parse_grouped_eq_ok_iff hts).1 h
    exact combine_eq_ok_iff.2 ⟨first, rest, hts, ht, hn⟩

-- the text in parentheses can be readable where a rule is not
example : combine .and ["a) AND (b"] = .error (.invalidRule "a) AND (b" .unopenedGroup) ∧
    Parser.parse (grouped .and ["a) AND (b"]) =
      .ok (.node (.logical .and) (.operand "a") (.operand "b")) := by
  decide +kernel

end Combination

end Rulebook
