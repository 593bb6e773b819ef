import Rulebook.Parser
import Rulebook.Proofs.Evaluation.FirstFault
import Rulebook.Proofs.Evaluation.Kinds
import Rulebook.Proofs.Exchange.Contexts

/-!
# Where `null` comes from

Without a rule the value is `null`. With a rule it hardly ever is: an operator only gives truth
values, a number stands for a number and a text for a text. But an attribute stands for whatever the
context says, and a context may say `null`: reading a context takes any value for a name that a rule
can have.

So there is one more way to `null`, and no other one (`evaluate?_eq_ok_null_iff`): the rule is a
single attribute, and in the JSON text of the context the last member of its name is `null`.
-/

namespace Rulebook

open Json (Document)

variable {c : Context}

/-! ### Trees -/

/-- Of the operands only attributes can be `null`. -/
theorem Context.operand_eq_ok_null_iff {text : String} : c.operand text = .ok .null ↔
    ∃ name, Operand.ofText text = .attribute name ∧ c.get? name = some .null := by
  unfold operand
  rcases Operand.ofText text with digits | content | name
  · -- a number is a number or too large
    dsimp only
    cases Text.toInt64? (Text.value digits.toList) <;> exact ⟨nofun, nofun⟩
  · -- a text is itself
    exact ⟨nofun, nofun⟩
  · -- an attribute is what the context says, if it says anything
    dsimp only
    cases hv : c.get? name <;> simp [hv]

/-- Only a single attribute can be `null`. -/
theorem Tree.evaluate_eq_ok_null_iff {t : Tree} : t.evaluate c = .ok .null ↔
    ∃ text name, t = .operand text ∧ Operand.ofText text = .attribute name ∧
      c.get? name = some .null := by
  cases t with
  | operand text =>
    rw [evaluate, Context.operand_eq_ok_null_iff]
    constructor
    · rintro ⟨name, hname, hnull⟩
      exact ⟨text, name, rfl, hname, hnull⟩
    · rintro ⟨_, name, h, hname, hnull⟩
      cases h
      exact ⟨name, hname, hnull⟩
  -- an operator gives truth values
  | node op l r =>
    constructor
    · intro h
      obtain ⟨a, -, b, -, happly⟩ := evaluate_node_eq_ok_iff.1 h
      obtain ⟨x, hx⟩ := Operator.exists_boolean_of_apply happly
      cases hx
    · rintro ⟨_, _, h, -⟩
      cases h

/-! ### Contexts -/

/-- Only `null` denotes `null`. -/
theorem Value.ofJson?_eq_null_iff {v : Json} : ofJson? v = some .null ↔ v = .null := by
  cases v with
  -- a number denotes a number or nothing
  | number n =>
    constructor
    · intro h
      obtain ⟨i, -, hi⟩ := Option.bind_eq_some_iff.1 h
      obtain ⟨w, -, hw⟩ := Option.map_eq_some_iff.1 hi
      cases hw
    · nofun
  | _ => simp [ofJson?]

/-- Only `null` is read as `null`, as a value of any shape. -/
theorem Json.readAny_eq_null_iff {depth : Nat} {d : Document} :
    readAny depth d = .ok .null ↔ d = .null := by
  constructor
  · intro h
    -- every other document is read as a value of its own kind, if it is read at all
    cases d with
    | null => rfl
    | number n =>
      rw [readAny] at h
      split at h <;> cases h
    | string ps =>
      rw [readAny] at h
      split at h <;> cases h
    -- without depth left nothing is read
    | array items =>
      cases depth with
      | zero => cases h
      | succ depth =>
        obtain ⟨vs, -, hvs⟩ := map_eq_ok_iff.1 h
        cases hvs
    | object members =>
      cases depth with
      | zero => cases h
      | succ depth =>
        obtain ⟨ms, -, hms⟩ := map_eq_ok_iff.1 h
        cases hms
    | _ => cases h
  · rintro rfl
    rw [readAny]

/-- Only `null` is read as `null`. -/
theorem Value.read_eq_ok_null_iff {depth : Nat} {d : Document} :
    Value.read depth d = .ok .null ↔ d = .null := by
  constructor
  · intro h
    obtain ⟨v, hv, hvalue⟩ := bind_eq_ok_iff.1 h
    cases hw : ofJson? v with
    -- a value that denotes nothing is a fault
    | none =>
      rw [hw] at hvalue
      cases hvalue
    | some w =>
      rw [hw] at hvalue
      cases hvalue
      cases ofJson?_eq_null_iff.1 hw
      exact Json.readAny_eq_null_iff.1 hv
  · rintro rfl
    rw [read, Json.readAny_eq_null_iff.2 rfl]
    rfl

/-- A context that is read from a text says `null` for a name exactly if the text does. -/
theorem Context.get?_eq_null_iff {text name : String} (hc : ofText text = .ok c) :
    c.get? name = some .null ↔ ∃ members, (Document.ofChars text.toList).1 = .object members ∧
      members.last? name = some .null := by
  -- a name has the value of the last member of that name
  obtain ⟨members, hmembers, hget⟩ := get?_of_read (Json.readWhole_eq_ok_iff.1 hc).1
  simp only [hget, Value.read_eq_ok_null_iff, exists_eq_right, hmembers, Document.object.injEq,
    exists_eq_left']

/-! ### Rules in a context from a text -/

/-- **What is `null`.** In a context that is read from a text, the value is `null` if there is no
rule, or if the rule is a single attribute and the last member of its name is `null` in the text;
and in no other case. -/
theorem evaluate?_eq_ok_null_iff {text : String} (hc : Context.ofText text = .ok c)
    (o : Option Tree) : evaluate? c o = .ok .null ↔
      o = none ∨ ∃ operand name members, o = some (.operand operand) ∧
        Operand.ofText operand = .attribute name ∧
        (Document.ofChars text.toList).1 = .object members ∧ members.last? name = some .null := by
  cases o with
  -- without a rule the value is `null` whatever the context says
  | none => exact ⟨fun _ => .inl rfl, fun _ => rfl⟩
  | some t =>
    change t.evaluate c = .ok .null ↔ _
    simp only [Tree.evaluate_eq_ok_null_iff, Context.get?_eq_null_iff hc, reduceCtorEq, false_or,
      Option.some.injEq, exists_and_left]

/-- Of a name that comes twice only the last member counts. -/
theorem evaluate?_eq_ok_null_iff_twice :
    let text := "\x7b\"a\": 1, \"b\": null, \"a\": null, \"b\": true\x7d"
    let c : Context := .ofList [("a", .null), ("b", .boolean true)]
    Context.ofText text = .ok c ∧ evaluate? c (some (.operand "a")) = .ok .null ∧
      ∃ members, (Document.ofChars text.toList).1 = .object members ∧
        members.last? "a" = some .null ∧ members.last? "b" ≠ some .null := by
  intro text c
  have hc : Context.ofText text = .ok c := by decide +kernel
  have ha : evaluate? c (some (.operand "a")) = .ok .null := by decide +kernel
  have hb : evaluate? c (some (.operand "b")) ≠ .ok .null := by decide +kernel
  have hname : Operand.ofText "a" = .attribute "a" ∧ Operand.ofText "b" = .attribute "b" := by
    decide +kernel
  -- the rule is an attribute, so its last member is `null`
  rcases (evaluate?_eq_ok_null_iff hc _).1 ha with h | ⟨operand, name, members, h, hop, hd, hlast⟩
  · cases h
  · cases h
    cases hname.1.symm.trans hop
    -- if the last member of the other name were `null`, so would be the other rule
    exact ⟨hc, ha, members, hd, hlast, fun hb' =>
      hb ((evaluate?_eq_ok_null_iff hc _).2 (.inr ⟨"b", "b", members, rfl, hname.2, hd, hb'⟩))⟩

/-- **A rule can be `null`.** The rule is an attribute, which is `null` in the text of the
context. -/
theorem evaluate_attribute_eq_null :
    let c : Context := .ofList [("a", .null)]
    Parser.parse "a" = .ok (.operand "a") ∧ Context.ofText "\x7b\"a\": null\x7d" = .ok c ∧
      (Tree.operand "a").evaluate c = .ok .null := by
  decide +kernel

end Rulebook
