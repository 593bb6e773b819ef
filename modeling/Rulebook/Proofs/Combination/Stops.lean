import Mathlib.Data.List.Induction
import Mathlib.Data.Nat.Find
import Rulebook.Journal.Observed
import Rulebook.Proofs.Combination.Meaning

/-!
# What stops a combination

Rules are combined one after another, and there are two ways for a rule to stop this: it cannot be
read, or it is one operator too many. Both are faults of a place in the list, so that they compete
by position: the first place at fault decides, and what stands behind it is not even looked at
(`combine_firstStop`).

* `StopsAt` says what is wrong with a place in the list. It speaks of the operators of the rules up
  to that place and not of the tree that has been built so far; that these are the same count is
  `operatorCount_of_combine`.
* `combine_append` cuts a list behind rules that can be combined: the others are joined to what
  these were combined to. With it, the error in joining one more rule is the fault of its place
  (`join_eq_error_iff_stopsAt`), and the rest is induction from the last rule on.
* Each rule that is read leaves an event in the journal. So the journal shows which rules were read,
  and in which order (`ofCombine_append`).
-/

namespace Rulebook

variable {c : Connective} {before after rules : List String} {rule : String} {t : Tree}

/-! ### Going on behind combined rules -/

namespace Combination

/-- The first rule is read and the others are joined to it. What is counted on the way are the
operators of the combination. -/
theorem combine_cons_eq_ok_iff :
    combine c (rule :: rules) = .ok t ↔ ∃ first, Parser.parse rule = .ok first ∧
      rules.foldlM (join c) (first, first.operatorCount) = .ok (t, t.operatorCount) := by
  rw [combine, bind_eq_ok_iff]
  constructor
  · rintro ⟨first, hfirst, h⟩
    obtain ⟨⟨joined, n⟩, hjoined, h⟩ := bind_eq_ok_iff.1 h
    cases h
    have hparse := readRule_eq_ok_iff.1 hfirst
    -- the count that was carried along is that of the tree
    obtain ⟨-, -, -, rfl, -⟩ :=
      (foldlM_join_eq_ok_iff (Parser.readable_of_parse hparse).operators).1 hjoined
    exact ⟨first, hparse, hjoined⟩
  · rintro ⟨first, hparse, hjoined⟩
    exact ⟨first, readRule_eq_ok_iff.2 hparse, bind_eq_ok_iff.2 ⟨_, hjoined, rfl⟩⟩

/-- Behind rules that have been combined, the others are joined to the combination. -/
theorem combine_append (h : combine c before = .ok t) (after : List String) :
    combine c (before ++ after) =
      (after.foldlM (join c) (t, t.operatorCount)).map Prod.fst := by
  cases before with
  | nil => cases h
  | cons rule before =>
    obtain ⟨first, hparse, hjoined⟩ := combine_cons_eq_ok_iff.1 h
    rw [List.cons_append, combine, readRule_eq_ok_iff.2 hparse]
    change ((before ++ after).foldlM (join c) (first, first.operatorCount) >>= _) = _
    -- what the rules in front were combined to is where the others go on
    rw [List.foldlM_append, hjoined]
    change (after.foldlM (join c) (t, t.operatorCount) >>= _) = _
    cases after.foldlM (join c) (t, t.operatorCount) <;> rfl

/-- A rule that cannot be read is named with its error. -/
theorem readRule_eq_error_iff {e : RuleError} :
    readRule rule = .error e ↔ ∃ e', Parser.parse rule = .error e' ∧ e = .invalidRule rule e' := by
  unfold readRule
  cases Parser.parse rule with
  | error e' =>
    constructor
    · intro h
      cases h
      exact ⟨e', rfl, rfl⟩
    · rintro ⟨_, h, rfl⟩
      cases h
      rfl
  | ok u => constructor <;> nofun

/-- Joining fails exactly on a rule that cannot be read, or for whose operators there is no
room. -/
theorem join_eq_error_iff {joined : Tree × Nat} {e : RuleError} :
    join c joined rule = .error e ↔
      (∃ e', Parser.parse rule = .error e' ∧ e = .invalidRule rule e') ∨
      ∃ u, Parser.parse rule = .ok u ∧ maxOperators < joined.2 + u.operatorCount + 1 ∧
        e = .parse .tooComplex := by
  rw [join, bind_eq_error_iff, readRule_eq_error_iff]
  refine or_congr_right (exists_congr fun u => ?_)
  rw [readRule_eq_ok_iff]
  refine and_congr_right fun _ => ?_
  dsimp only
  -- once the rule is read, only the number of operators is looked at
  by_cases hn : joined.2 + u.operatorCount + 1 > maxOperators
  · rw [if_pos hn]
    constructor
    · intro h
      cases h
      exact ⟨hn, rfl⟩
    · rintro ⟨-, rfl⟩
      rfl
  · rw [if_neg hn]
    constructor
    · intro h
      cases h
    · rintro ⟨hroom, -⟩
      exact absurd hroom hn

/-! ### Places at fault -/

/-- How many operators a rule has when it is read; none if it cannot be read. -/
def operatorsOf (rule : String) : Nat :=
  match Parser.parse rule with
  | .ok t => t.operatorCount
  | .error _ => 0

/-- A rule that can be read has the operators of its tree. -/
theorem operatorsOf_of_parse (h : Parser.parse rule = .ok t) :
    operatorsOf rule = t.operatorCount := by
  rw [operatorsOf, h]

/-- What is wrong with the rule at place `i`: it cannot be read, or it is not the first one, and the
rules up to it have too many operators, together with the connectives between them. -/
inductive StopsAt (rules : List String) (i : Nat) : RuleError → Prop where
  | unreadable {rule : String} {e : ParseError} (hrule : rules[i]? = some rule)
    (h : Parser.parse rule = .error e) : StopsAt rules i (.invalidRule rule e)
  | tooMany {rule : String} {t : Tree} (hrule : rules[i]? = some rule)
    (h : Parser.parse rule = .ok t) (hi : 0 < i)
    (hn : maxOperators < ((rules.take (i + 1)).map operatorsOf).sum + i) :
    StopsAt rules i (.parse .tooComplex)

/-- The rule at place `i` is at fault, and none before it is. -/
def FirstStop (rules : List String) (i : Nat) (e : RuleError) : Prop :=
  StopsAt rules i e ∧ ∀ j < i, ∀ e', ¬ StopsAt rules j e'

/-- Only places in the list are at fault. -/
theorem StopsAt.lt_length {i : Nat} {e : RuleError} (h : StopsAt rules i e) : i < rules.length := by
  cases h with
  | unreadable hrule => exact (List.getElem?_eq_some_iff.1 hrule).1
  | tooMany hrule => exact (List.getElem?_eq_some_iff.1 hrule).1

/-- A place at fault holds a rule, which has rules in front of it and rules behind. -/
theorem StopsAt.exists_split {i : Nat} {e : RuleError} (h : StopsAt rules i e) :
    ∃ before rule after, rules = before ++ rule :: after ∧ before.length = i := by
  have hi := h.lt_length
  refine ⟨rules.take i, rules[i], rules.drop (i + 1), ?_, List.length_take_of_le (Nat.le_of_lt hi)⟩
  rw [← List.drop_eq_getElem_cons hi, List.take_append_drop]

/-- The rules behind a place have no part in what is wrong with it. -/
theorem stopsAt_append_iff {i : Nat} {e : RuleError} (hi : i < before.length)
    (after : List String) : StopsAt (before ++ after) i e ↔ StopsAt before i e := by
  have hget : (before ++ after)[i]? = before[i]? := List.getElem?_append_left hi
  -- only the rules up to the place are counted
  have htake : (before ++ after).take (i + 1) = before.take (i + 1) :=
    List.take_append_of_le_length hi
  constructor
  · rintro (⟨hrule, h⟩ | ⟨hrule, h, hpos, hn⟩)
    · exact .unreadable (hget ▸ hrule) h
    · exact .tooMany (hget ▸ hrule) h hpos (htake ▸ hn)
  · rintro (⟨hrule, h⟩ | ⟨hrule, h, hpos, hn⟩)
    · exact .unreadable (hget.symm ▸ hrule) h
    · exact .tooMany (hget.symm ▸ hrule) h hpos (htake.symm ▸ hn)

/-- What is wrong with a rule that has rules in front of it. -/
theorem stopsAt_length_iff {e : RuleError} :
    StopsAt (before ++ rule :: after) before.length e ↔
      (∃ e', Parser.parse rule = .error e' ∧ e = .invalidRule rule e') ∨
      ∃ u, Parser.parse rule = .ok u ∧ before ≠ [] ∧
        maxOperators < (before.map operatorsOf).sum + u.operatorCount + before.length ∧
          e = .parse .tooComplex := by
  have hget : (before ++ rule :: after)[before.length]? = some rule := by simp
  -- the rules up to this place are those in front and the rule itself
  have hsum : ∀ u, Parser.parse rule = .ok u →
      (((before ++ rule :: after).take (before.length + 1)).map operatorsOf).sum =
        (before.map operatorsOf).sum + u.operatorCount := by
    intro u hu
    rw [List.take_length_add_append, List.take_succ_cons, List.take_zero, List.map_append,
      List.sum_append, List.map_singleton, List.sum_singleton, operatorsOf_of_parse hu]
  constructor
  · rintro (⟨hrule, h⟩ | ⟨hrule, h, hpos, hn⟩)
    · cases hget.symm.trans hrule
      exact .inl ⟨_, h, rfl⟩
    · cases hget.symm.trans hrule
      rw [hsum _ h] at hn
      exact .inr ⟨_, h, List.ne_nil_of_length_pos hpos, hn, rfl⟩
  · rintro (⟨e', h, rfl⟩ | ⟨u, hu, hne, hn, rfl⟩)
    · exact .unreadable hget h
    · refine .tooMany hget hu (List.length_pos_of_ne_nil hne) ?_
      rw [hsum u hu]
      exact hn

/-- What rules are combined to has their operators, and one for each rule but the first. -/
theorem operatorCount_of_combine (h : combine c rules = .ok t) :
    t.operatorCount + 1 = (rules.map operatorsOf).sum + rules.length := by
  obtain ⟨first, rest, hrules, rfl, -⟩ := combine_eq_ok_iff.1 h
  have hmap : rules.map operatorsOf = (first :: rest).map Tree.operatorCount := by
    rw [← List.forall₂_eq_eq_eq, List.forall₂_map_left_iff, List.forall₂_map_right_iff]
    exact hrules.imp fun _ _ hparse => operatorsOf_of_parse hparse
  rw [Tree.operatorCount_joined, hmap, hrules.length_eq, List.length_cons, Nat.add_assoc]

/-- Behind rules that have been combined, joining the next one fails with what is wrong with its
place. -/
theorem join_eq_error_iff_stopsAt {e : RuleError} (h : combine c before = .ok t) :
    join c (t, t.operatorCount) rule = .error e ↔
      StopsAt (before ++ rule :: after) before.length e := by
  have hcount := operatorCount_of_combine h
  have hne : before ≠ [] := by
    rintro rfl
    cases h
  rw [join_eq_error_iff, stopsAt_length_iff]
  refine or_congr_right (exists_congr fun u => and_congr_right fun _ => ?_)
  -- both counts are of the rules in front, this rule, and the connectives between them
  have hlimit : t.operatorCount + u.operatorCount + 1 =
      (before.map operatorsOf).sum + u.operatorCount + before.length := by omega
  rw [hlimit]
  exact (and_iff_right hne).symm

/-! ### The first place at fault -/

/-- Where no place is at fault, the rules can be combined. -/
theorem exists_combine_of_not_stopsAt (hne : rules ≠ []) (h : ∀ i e, ¬ StopsAt rules i e) :
    ∃ t, combine c rules = .ok t := by
  induction rules using List.reverseRecOn with
  | nil => exact absurd rfl hne
  | append_singleton before rule ih =>
    by_cases hbefore : before = []
    · -- a single rule only has to be read
      subst hbefore
      cases hparse : Parser.parse rule with
      | error e => exact absurd (.unreadable rfl hparse) (h 0 _)
      | ok t =>
        have hn := (Parser.readable_of_parse hparse).operators
        exact ⟨t, combine_eq_ok_iff.2 ⟨t, [], .cons hparse .nil, rfl, hn⟩⟩
    · -- the rules in front can be combined, and this one can be joined to them
      obtain ⟨t, ht⟩ := ih hbefore fun i e hstop =>
        h i e ((stopsAt_append_iff hstop.lt_length _).2 hstop)
      rw [combine_append ht, List.foldlM_cons]
      cases hjoin : join c (t, t.operatorCount) rule with
      | error e => exact absurd ((join_eq_error_iff_stopsAt ht).1 hjoin) (h _ e)
      | ok joined => exact ⟨joined.1, rfl⟩

/-- In front of the first place at fault the rules can be combined, if there are any. -/
theorem FirstStop.exists_combine {e : RuleError}
    (h : FirstStop (before ++ rule :: after) before.length e) (hne : before ≠ []) :
    ∃ t, combine c before = .ok t :=
  exists_combine_of_not_stopsAt hne fun i e' hi =>
    h.2 i hi.lt_length e' ((stopsAt_append_iff hi.lt_length _).2 hi)

/-- The first rule of all is only at fault if it cannot be read. -/
theorem FirstStop.parse_head {e : RuleError} (h : FirstStop (rule :: after) 0 e) :
    ∃ e', Parser.parse rule = .error e' ∧ e = .invalidRule rule e' := by
  have hstop : StopsAt ([] ++ rule :: after) ([] : List String).length e := h.1
  rcases stopsAt_length_iff.1 hstop with hread | ⟨u, -, hne, -⟩
  · exact hread
  · exact absurd rfl hne

/-- The first place at fault stops the combination. -/
theorem FirstStop.combine_eq_error {e : RuleError}
    (h : FirstStop (before ++ rule :: after) before.length e) :
    combine c (before ++ rule :: after) = .error e := by
  by_cases hne : before = []
  · -- the first rule of all is only read
    subst hne
    obtain ⟨e', hparse, rfl⟩ := h.parse_head
    rw [List.nil_append, combine, readRule, hparse]
    rfl
  · obtain ⟨t, ht⟩ := h.exists_combine (c := c) hne
    rw [combine_append ht, List.foldlM_cons, (join_eq_error_iff_stopsAt ht).2 h.1]
    rfl

/-- What stands behind the first place at fault may be anything else. -/
theorem FirstStop.change_after {e : RuleError}
    (h : FirstStop (before ++ rule :: after) before.length e) (after' : List String) :
    FirstStop (before ++ rule :: after') before.length e := by
  -- up to this place nothing behind it matters
  have hcut : ∀ behind, ∀ j ≤ before.length, ∀ e',
      StopsAt (before ++ rule :: behind) j e' ↔ StopsAt (before ++ [rule]) j e' := by
    intro behind j hj e'
    have hlt : j < (before ++ [rule]).length := by
      rw [List.length_append, List.length_singleton]
      omega
    have hcut := stopsAt_append_iff (e := e') hlt behind
    rwa [List.append_assoc, List.singleton_append] at hcut
  refine ⟨(hcut after' _ le_rfl e).2 ((hcut after _ le_rfl e).1 h.1), fun j hj e' hstop => ?_⟩
  have hle := Nat.le_of_lt hj
  exact h.2 j hj e' ((hcut after j hle e').2 ((hcut after' j hle e').1 hstop))

/-- Of the places at fault, if there are any, one is the first. -/
theorem exists_firstStop {i : Nat} {e : RuleError} (h : StopsAt rules i e) :
    ∃ j e', FirstStop rules j e' := by
  classical
  have hex : ∃ j, ∃ e', StopsAt rules j e' := ⟨i, e, h⟩
  obtain ⟨e', he'⟩ := Nat.find_spec hex
  exact ⟨Nat.find hex, e', he', fun j hj e'' h' => Nat.find_min hex hj ⟨e'', h'⟩⟩

/-- Combining fails exactly with what is wrong with the first place at fault. -/
theorem combine_eq_error_iff_firstStop {e : RuleError} (hne : rules ≠ []) :
    combine c rules = .error e ↔ ∃ i, FirstStop rules i e := by
  have hstop : ∀ i e', FirstStop rules i e' → combine c rules = .error e' := by
    intro i e' h
    obtain ⟨before, rule, after, rfl, rfl⟩ := h.1.exists_split
    exact h.combine_eq_error
  constructor
  · intro he
    -- some place is at fault, since the rules could be combined otherwise
    by_contra hnone
    obtain ⟨t, ht⟩ := exists_combine_of_not_stopsAt (c := c) hne fun i e' h => by
      obtain ⟨j, e'', hj⟩ := exists_firstStop h
      cases he.symm.trans (hstop j e'' hj)
      exact hnone ⟨j, hj⟩
    cases he.symm.trans ht
  · rintro ⟨i, h⟩
    exact hstop i e h

/-- Combining succeeds exactly where no place is at fault, and then joins what every rule is read
as. -/
theorem combine_eq_ok_iff_not_stopsAt (hne : rules ≠ []) :
    combine c rules = .ok t ↔ (∀ i e, ¬ StopsAt rules i e) ∧
      ∃ first rest, List.Forall₂ (fun rule t => Parser.parse rule = .ok t) rules (first :: rest) ∧
        t = Tree.joined c first rest := by
  constructor
  · intro ht
    obtain ⟨first, rest, hrules, hjoined, -⟩ := combine_eq_ok_iff.1 ht
    refine ⟨fun i e h => ?_, first, rest, hrules, hjoined⟩
    obtain ⟨j, e', hj⟩ := exists_firstStop h
    cases ht.symm.trans ((combine_eq_error_iff_firstStop hne).2 ⟨j, hj⟩)
  · rintro ⟨hnone, first, rest, hrules, rfl⟩
    obtain ⟨t, ht⟩ := exists_combine_of_not_stopsAt (c := c) hne hnone
    obtain ⟨first', rest', hrules', rfl, -⟩ := combine_eq_ok_iff.1 ht
    -- a rule is read as one tree only
    have hsame : first :: rest = first' :: rest' :=
      List.right_unique_forall₂' (fun _ _ _ h h' => Except.ok.inj (h.symm.trans h')) hrules
        hrules'
    cases hsame
    exact ht

end Combination

/-! ### The rules that were read -/

namespace Journal

open Combination

/-- Behind rules that have been joined, the journal goes on with what they were joined to. -/
theorem ofJoining_append {n : Nat} {joined joined' : Tree × Nat}
    (h : before.foldlM (join c) joined = .ok joined') (after : List String) :
    ofJoining c n joined (before ++ after) =
      before.flatMap ofParse ++ ofJoining c n joined' after := by
  induction before generalizing joined with
  | nil =>
    cases h
    rfl
  | cons rule before ih =>
    rw [List.foldlM_cons] at h
    obtain ⟨next, hnext, h⟩ := bind_eq_ok_iff.1 h
    -- the rule was read, and left what reading it leaves
    rw [List.cons_append, ofJoining, hnext, List.flatMap_cons, List.append_assoc, ← ih h]

/-- Each of the rules that have been combined was read, before any behind them was. -/
theorem ofCombine_append (h : combine c before = .ok t) (after : List String) :
    ofCombine c (before ++ after) = before.flatMap ofParse ++
      ofJoining c (before ++ after).length (t, t.operatorCount) after := by
  cases before with
  | nil => cases h
  | cons rule before =>
    obtain ⟨first, hparse, hjoined⟩ := combine_cons_eq_ok_iff.1 h
    rw [List.cons_append, ofCombine, hparse]
    dsimp only
    rw [ofJoining_append hjoined, List.flatMap_cons, List.append_assoc, List.length_cons]

/-- Of rules that have been combined, every one was read. -/
theorem ofCombine_of_combine (h : combine c rules = .ok t) :
    ofCombine c rules = rules.flatMap ofParse ++ [.rulesCombined rules.length c] := by
  have hall := ofCombine_append h []
  rwa [List.append_nil] at hall

/-- No rule behind the first place at fault is read. -/
theorem ofCombine_of_firstStop {e : RuleError}
    (h : FirstStop (before ++ rule :: after) before.length e) :
    ofCombine c (before ++ rule :: after) = (before ++ [rule]).flatMap ofParse := by
  by_cases hne : before = []
  · -- the first rule of all was read in vain
    subst hne
    obtain ⟨e', hparse, rfl⟩ := h.parse_head
    rw [List.nil_append, ofCombine, hparse, List.nil_append, List.flatMap_singleton]
    exact List.append_nil _
  · obtain ⟨t, ht⟩ := h.exists_combine (c := c) hne
    rw [ofCombine_append ht, ofJoining, (join_eq_error_iff_stopsAt ht).2 h.1, List.flatMap_append,
      List.flatMap_singleton]
    dsimp only
    rw [List.append_nil]

end Journal

namespace Combination

/-- **The first place at fault decides.** Without rules there is nothing to combine. Otherwise
combining fails exactly if some place is at fault, and then with what is wrong with the first such
place; it succeeds exactly if none is, and then every rule was read and the trees are joined from
left to right, to a tree with no more than `maxOperators` operators. Of the rules behind the first
place at fault none is read, and whatever they are, the outcome is the same. -/
theorem combine_firstStop (c : Connective) (rules : List String) :
    combine c [] = .error .noRules ∧
    (rules ≠ [] → ∀ e, combine c rules = .error e ↔ ∃ i, FirstStop rules i e) ∧
    (rules ≠ [] → ∀ t, combine c rules = .ok t ↔
      (∀ i e, ¬ StopsAt rules i e) ∧
        ∃ first rest, List.Forall₂ (fun rule t => Parser.parse rule = .ok t) rules (first :: rest) ∧
          t = Tree.joined c first rest) ∧
    (∀ t, combine c rules = .ok t → t.operatorCount ≤ maxOperators ∧
      Journal.ofCombine c rules =
        rules.flatMap Journal.ofParse ++ [.rulesCombined rules.length c]) ∧
    ∀ i e, FirstStop rules i e → ∀ after,
      combine c (rules.take (i + 1) ++ after) = .error e ∧
      Journal.ofCombine c (rules.take (i + 1) ++ after) =
        (rules.take (i + 1)).flatMap Journal.ofParse := by
  refine ⟨rfl, fun hne e => combine_eq_error_iff_firstStop hne,
    fun hne t => combine_eq_ok_iff_not_stopsAt hne, fun t ht => ?_, fun i e h after => ?_⟩
  · exact ⟨(readable_of_combine ht).operators, Journal.ofCombine_of_combine ht⟩
  · obtain ⟨before, rule, behind, rfl, rfl⟩ := h.1.exists_split
    have hchange := h.change_after after
    rw [List.take_length_add_append, List.take_succ_cons, List.take_zero, List.append_assoc,
      List.singleton_append]
    exact ⟨hchange.combine_eq_error, Journal.ofCombine_of_firstStop hchange⟩

/-- The second rule ends with an operator; a third one that is no rule either is not read, and
neither is one that is. -/
theorem combine_firstStop_second :
    ∃ e, FirstStop ["a > 1", "b <", "c)"] 1 (.invalidRule "b <" e) ∧
      combine .or ["a > 1", "b <", "c)"] = .error (.invalidRule "b <" e) ∧
      combine .or ["a > 1", "b <", "c"] = .error (.invalidRule "b <" e) ∧
      Journal.ofCombine .or ["a > 1", "b <", "c"] = [.ruleRead 3] := by
  have hsecond : Parser.parse "b <" = .error (.incomplete (.relating .less)) := by decide +kernel
  have hfirst : Parser.parse "a > 1" =
      .ok (.node (.relating .greater) (.operand "a") (.operand "1")) := by
    decide +kernel
  have h : FirstStop ["a > 1", "b <", "c)"] 1
      (.invalidRule "b <" (.incomplete (.relating .less))) := by
    refine ⟨.unreadable rfl hsecond, fun j hj e hstop => ?_⟩
    obtain rfl : j = 0 := by omega
    -- the rule in front can be read, and no connective stands before it
    obtain ⟨hrule, hparse⟩ | ⟨-, -, hpos, -⟩ := hstop
    · cases hrule
      cases hfirst.symm.trans hparse
    · exact absurd hpos (Nat.lt_irrefl 0)
  have hstop := (combine_firstStop .or _).2.2.2.2 1 _ h
  refine ⟨_, h, (hstop ["c)"]).1, (hstop ["c"]).1, ?_⟩
  rw [show ["a > 1", "b <", "c"] = ["a > 1", "b <", "c)"].take (1 + 1) ++ ["c"] from rfl,
    (hstop ["c"]).2]
  decide +kernel

end Combination

end Rulebook
