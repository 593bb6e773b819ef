import Mathlib.Data.List.TakeWhile
import Rulebook.Http.Route
import Rulebook.Proofs.Text.Decimal

/-!
# Paths of rules

The number of a rule is written into a path as the canonical text of a signed word. The path leads
back to the rule (`action_getRule`, `action_updateRule`), and with one more part to its evaluation
(`action_evaluateRule`).

A text that is joined from parts without separators is cut into these parts again
(`Text.parts_joined`). A written number has nothing in it that ends a path, begins an escape or
separates parts, and it is none of the names that stand before numbers.
-/

namespace Rulebook

namespace Text

/-- What stands in front of the first separator is the first part. -/
theorem parts_append_cons {sep : Char} {front : List Char} (h : sep ∉ front) (back : List Char) :
    parts sep (front ++ sep :: back) = front :: parts sep back := by
  induction front with
  | nil => rw [List.nil_append, parts, if_pos rfl]
  | cons c cs ih =>
    -- no character in front is a separator, so each goes into the part that is being read
    rw [List.mem_cons, not_or] at h
    rw [List.cons_append, parts, if_neg (Ne.symm h.1), ih h.2]

/-- A text without separators is its only part. -/
theorem parts_of_not_mem {sep : Char} {cs : List Char} (h : sep ∉ cs) : parts sep cs = [cs] := by
  induction cs with
  | nil => rfl
  | cons c cs ih =>
    rw [List.mem_cons, not_or] at h
    rw [parts, if_neg (Ne.symm h.1), ih h.2]

/-- A text that is joined from parts without separators has these parts. -/
theorem parts_joined {sep : Char} {ps : List (List Char)} (hne : ps ≠ [])
    (h : ∀ p ∈ ps, sep ∉ p) : parts sep (joined sep ps) = ps := by
  induction ps with
  | nil => exact absurd rfl hne
  | cons p ps ih =>
    have hp := h p List.mem_cons_self
    -- the last part has no separator behind it
    cases ps with
    | nil => exact parts_of_not_mem hp
    -- any other part is cut off at the separator that was put behind it
    | cons q qs =>
      have htail := ih (List.cons_ne_nil q qs) fun p' hp' => h p' (List.mem_cons_of_mem p hp')
      rw [joined, parts_append_cons hp, htail]
      exact List.cons_ne_nil q qs

/-- Joining adds nothing to the parts but separators. -/
theorem mem_joined {sep c : Char} {ps : List (List Char)} (h : c ∈ joined sep ps) :
    c = sep ∨ ∃ p ∈ ps, c ∈ p := by
  induction ps with
  | nil => cases h
  | cons p ps ih =>
    cases ps with
    | nil => exact .inr ⟨p, List.mem_cons_self, h⟩
    | cons q qs =>
      rw [joined, List.mem_append, List.mem_cons] at h
      · rcases h with h | h | h
        · exact .inr ⟨p, List.mem_cons_self, h⟩
        · exact .inl h
        · obtain h | ⟨p', hp', hc⟩ := ih h
          · exact .inl h
          · exact .inr ⟨p', List.mem_cons_of_mem p hp', hc⟩
      · exact List.cons_ne_nil q qs

/-- A written word has only digits in it, and perhaps a minus sign. -/
theorem isDigit_or_of_mem_ofInt64 {i : Int64} {c : Char} (h : c ∈ (ofInt64 i).toList) :
    isDigit c = true ∨ c = '-' := by
  unfold ofInt64 at h
  -- only a negative word has a sign
  split at h
  · exact .inl (isDigit_of_mem_repr h)
  · rw [String.toList_append, List.mem_append] at h
    rcases h with h | h
    · exact .inr (List.mem_singleton.1 h)
    · exact .inl (isDigit_of_mem_repr h)

end Text

namespace Http

/-- The character neither separates the parts of a path nor ends it. -/
def isPlain (c : Char) : Bool :=
  c ≠ '/' && c ≠ '?' && c ≠ '#'

/-- A written word is a plain part of a path. -/
theorem all_isPlain_ofInt64 (i : Int64) : (Text.ofInt64 i).toList.all isPlain = true := by
  refine List.all_eq_true.2 fun c hc => ?_
  rcases Text.isDigit_or_of_mem_ofInt64 hc with hdigit | rfl
  · -- none of the three characters that are not plain is a digit
    have hne : ∀ s, Text.isDigit s = false → c ≠ s := fun s hs he =>
      Bool.false_ne_true (hs.symm.trans (he ▸ hdigit))
    simp [isPlain, hne '/' (by decide), hne '?' (by decide), hne '#' (by decide)]
  · decide

/-- The number of a rule is read from its text. -/
theorem ruleNumber_ofInt64 (i : Int64) : ruleNumber (Text.ofInt64 i).toList = .ok i := by
  -- without a percent sign nothing is unescaped
  have hescape : '%' ∉ (Text.ofInt64 i).toList := fun h =>
    absurd (Text.isDigit_or_of_mem_ofInt64 h) (by decide)
  rw [ruleNumber, Text.unescape_of_not_mem hescape, Text.int64?_ofInt64]

/-- A path that is joined from plain parts has these parts. -/
theorem parts_pathOf {ps : List (List Char)} (hne : ps ≠ []) (h : ∀ p ∈ ps, p.all isPlain = true) :
    Text.parts '/' (pathOf (Text.joined '/' ps)) = ps := by
  have hplain : ∀ p ∈ ps, ∀ c ∈ p, isPlain c = true := fun p hp => List.all_eq_true.1 (h p hp)
  -- nothing in a plain part begins a query or a fragment, so the path is not cut off
  have hwhole : pathOf (Text.joined '/' ps) = Text.joined '/' ps := by
    refine List.takeWhile_eq_self_iff.2 fun c hc => ?_
    rcases Text.mem_joined hc with rfl | ⟨p, hp, hc⟩
    · rfl
    · have := hplain p hp c hc
      simp_all [isPlain]
  rw [hwhole, Text.parts_joined hne]
  exact fun p hp hmem => absurd (hplain p hp '/' hmem) (by decide)

/-- The text of a number is none of the names that stand before numbers. -/
theorem ofInt64_ne_name (i : Int64) {name : String} {c : Char} (hc : c ∈ name.toList)
    (hname : Text.isDigit c = false ∧ c ≠ '-') : Text.ofInt64 i ≠ name := by
  -- one character that a number cannot have is enough to tell them apart
  rintro rfl
  rcases Text.isDigit_or_of_mem_ofInt64 hc with h | h
  · exact Bool.false_ne_true (hname.1.symm.trans h)
  · exact hname.2 h

/-- A written word has at least one character. -/
theorem isEmpty_ofInt64 (i : Int64) : (Text.ofInt64 i).isEmpty = false := by
  refine eq_false_of_ne_true fun h => ?_
  -- the empty text is read as no word, but every written word is read back
  have hread := Text.int64?_ofInt64 i
  rw [String.isEmpty_iff.1 h] at hread
  cases hread

/-- The path of a rule names the rule. -/
theorem ofPath?_rule (i : Int64) :
    Resource.ofPath? ("/api/rules/" ++ Text.ofInt64 i) = some (.rule (Text.ofInt64 i).toList) := by
  -- of what stands in the path only the number is not known, and it is one part
  have hpath : ("/api/rules/" ++ Text.ofInt64 i).toList =
      Text.joined '/' [[], "api".toList, "rules".toList, (Text.ofInt64 i).toList] := by
    rw [String.toList_append]
    rfl
  rw [Resource.ofPath?, hpath, parts_pathOf (List.cons_ne_nil _ _)]
  · -- two names stand in the same place as the number of a rule, and are looked for first
    have hcombine : Text.ofInt64 i ≠ "combine" :=
      ofInt64_ne_name i (c := 'c') (by decide) (by decide)
    have hevaluate : Text.ofInt64 i ≠ "evaluate" :=
      ofInt64_ne_name i (c := 'e') (by decide) (by decide)
    have hne := isEmpty_ofInt64 i
    simp only [List.map_cons, List.map_nil, String.ofList_toList, String.ofList_nil]
    split <;> simp_all
  · simp only [List.forall_mem_cons]
    exact ⟨rfl, by decide, by decide, all_isPlain_ofInt64 i, nofun⟩

/-- The path of a rule with one more part names its evaluation. -/
theorem ofPath?_ruleEvaluation (i : Int64) :
    Resource.ofPath? ("/api/rules/" ++ Text.ofInt64 i ++ "/evaluate") =
      some (.ruleEvaluation (Text.ofInt64 i).toList) := by
  -- again the number is one part among names
  have hpath : ("/api/rules/" ++ Text.ofInt64 i ++ "/evaluate").toList = Text.joined '/'
      [[], "api".toList, "rules".toList, (Text.ofInt64 i).toList, "evaluate".toList] := by
    rw [String.toList_append, String.toList_append]
    rfl
  rw [Resource.ofPath?, hpath, parts_pathOf (List.cons_ne_nil _ _)]
  · have hne := isEmpty_ofInt64 i
    simp only [List.map_cons, List.map_nil, String.ofList_toList, String.ofList_nil]
    split <;> simp_all
  · simp only [List.forall_mem_cons]
    exact ⟨rfl, by decide, by decide, all_isPlain_ofInt64 i, by decide, nofun⟩

/-! ### Actions -/

variable {r : Request} {i : Int64}

/-- Fetching the path of a rule asks for the rule. -/
theorem action_getRule (hmethod : r.method = "GET")
    (hpath : r.path = "/api/rules/" ++ Text.ofInt64 i) : r.action = .ok (.getRule i) := by
  rw [Request.action, hpath, ofPath?_rule]
  dsimp only
  -- the number in the path is the one that was written there
  rw [hmethod, Resource.action, ruleNumber_ofInt64]
  rfl

/-- Putting something at the path of a rule asks for the rule to be revised. -/
theorem action_updateRule (hmethod : r.method = "PUT")
    (hpath : r.path = "/api/rules/" ++ Text.ofInt64 i) : r.action = .ok (.updateRule i) := by
  rw [Request.action, hpath, ofPath?_rule]
  dsimp only
  rw [hmethod, Resource.action, ruleNumber_ofInt64]
  rfl

/-- Posting to the path of a rule with one more part asks for its evaluation. -/
theorem action_evaluateRule (hmethod : r.method = "POST")
    (hpath : r.path = "/api/rules/" ++ Text.ofInt64 i ++ "/evaluate") :
    r.action = .ok (.evaluateRule i) := by
  rw [Request.action, hpath, ofPath?_ruleEvaluation]
  dsimp only
  rw [hmethod, Resource.action, if_pos rfl, ruleNumber_ofInt64]
  rfl

/-- Posting to the path of combination asks for rules to be combined. -/
theorem action_combineRules (hmethod : r.method = "POST") (hpath : r.path = "/api/rules/combine") :
    r.action = .ok .combineRules := by
  rw [Request.action, hpath, hmethod]
  rfl

/-- Posting to the path of evaluation asks for the evaluation of a tree. -/
theorem action_evaluateTree (hmethod : r.method = "POST") (hpath : r.path = "/api/rules/evaluate") :
    r.action = .ok .evaluateTree := by
  rw [Request.action, hpath, hmethod]
  rfl

end Http

end Rulebook
