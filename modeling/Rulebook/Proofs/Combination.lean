import Rulebook.Combination
import Rulebook.Proofs.Parser.Printing

/-!
# What combining keeps

`join_eq_ok_iff` says everything that joining one more rule can do when it succeeds. Joining counts
operators beside the tree that it builds; the count is right at every stage (`Joined`), so that the
limit on what is combined is the limit on what is read, and a combination is a tree that can be read
(`readable_of_combine`).
-/

namespace Rulebook.Combination

/-- A rule to combine is read as any rule is. -/
theorem readRule_eq_ok_iff {rule : String} {t : Tree} :
    readRule rule = .ok t ↔ Parser.parse rule = .ok t := by
  unfold readRule
  cases Parser.parse rule with
  | error e => constructor <;> nofun
  | ok first =>
    constructor
    · rintro ⟨⟩
      rfl
    · rintro ⟨⟩
      rfl

/-- Joining succeeds exactly on a rule that can be read and for whose operators there is room. -/
theorem join_eq_ok_iff {c : Connective} {joined joined' : Tree × Nat} {rule : String} :
    join c joined rule = .ok joined' ↔
      ∃ t, Parser.parse rule = .ok t ∧ joined.2 + t.operatorCount + 1 ≤ maxOperators ∧
        joined' = (.node (.logical c) joined.1 t, joined.2 + t.operatorCount + 1) := by
  rw [join, bind_eq_ok_iff]
  constructor
  · rintro ⟨t, ht, h⟩
    dsimp only at h
    split at h
    · cases h
    · -- the limit is looked at once the rule has been read
      next hn =>
      cases h
      exact ⟨t, readRule_eq_ok_iff.1 ht, Nat.le_of_not_lt hn, rfl⟩
  · rintro ⟨t, ht, hn, rfl⟩
    refine ⟨t, readRule_eq_ok_iff.2 ht, ?_⟩
    dsimp only
    rw [if_neg (Nat.not_lt.2 hn)]
    rfl

/-- What has been joined can be read, and its operators have been counted. -/
structure Joined (joined : Tree × Nat) : Prop where
  readable : joined.1.Readable
  counted : joined.2 = joined.1.operatorCount

/-- Joining one more rule keeps the invariant. -/
theorem Joined.join {c : Connective} {joined joined' : Tree × Nat} {rule : String}
    (hj : Joined joined) (h : join c joined rule = .ok joined') : Joined joined' := by
  obtain ⟨t, ht, hn, rfl⟩ := join_eq_ok_iff.1 h
  have hr := Parser.readable_of_parse ht
  have hcount : joined.2 + t.operatorCount + 1
      = (Tree.node (.logical c) joined.1 t).operatorCount := by
    rw [hj.counted, Tree.operatorCount_node]
  refine ⟨⟨fun v hv => ?_, hcount ▸ hn⟩, hcount⟩
  -- an operand comes from what had been joined, or from the new rule
  rcases List.mem_append.1 hv with hv | hv
  · exact hj.readable.operands v hv
  · exact hr.operands v hv

/-- **A combination can be read**: its operands read as themselves, and its operators are not too
many. -/
theorem readable_of_combine {c : Connective} {rules : List String} {t : Tree}
    (h : combine c rules = .ok t) : t.Readable := by
  cases rules with
  | nil => cases h
  | cons rule rules =>
    rw [combine, bind_eq_ok_iff] at h
    obtain ⟨first, hfirst, h⟩ := h
    obtain ⟨joined, hjoined, h⟩ := bind_eq_ok_iff.1 h
    cases h
    have hstart : Joined (first, first.operatorCount) :=
      ⟨Parser.readable_of_parse (readRule_eq_ok_iff.1 hfirst), rfl⟩
    -- joining the other rules keeps the invariant
    exact (invariant_foldlM (fun _ _ _ hj h => hj.join h) hstart hjoined).readable

end Rulebook.Combination
