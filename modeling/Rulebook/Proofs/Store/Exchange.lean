import Rulebook.Proofs.Exchange.Height
import Rulebook.Proofs.Time.Reading
import Rulebook.Store.Rule

/-!
# Stored rules there and back

A stored rule that is written as JSON and read again is the same rule (`StoredRule.ofText_text_iff`)
if its tree has at most 126 levels, as the rule itself is one more object around the tree. With more
levels the text cannot be read. Neither the tree nor the text need be well formed, the name may be
missing, and the times are kept to the nanosecond.

The proof has one fact for each kind of field: what the field writes is read from any document that
says it. A blank rule that takes each of its fields from the rule becomes the rule
(`foldl_takeField`), so what is read one field after another is the rule.
-/

namespace Rulebook

open Json (Document)

/-- A text that may be missing is read from any document that says it. -/
theorem Json.readOptional_text_of_said {d : Document} {o : Option String}
    (h : d.Says (Json.optional o)) : Json.readOptional Json.readText d = .ok o := by
  cases o with
  | none =>
    cases h
    rfl
  | some s => exact Json.readOptional_of_said h Json.noConfusion (Json.readText_of_said h)

/-- An instant is read from any document that says its text. -/
theorem Time.Instant.read_of_said {i : Time.Instant} {d : Document} (hi : i.IsPlain)
    (h : d.Says (.string i.text)) : Time.Instant.read d = .ok i := by
  have htext := Json.readText_of_said h
  have hinstant := Time.Instant.ofText?_text hi
  rw [Time.Instant.read, htext]
  dsimp only [bind, Except.bind]
  rw [hinstant]
  rfl

namespace StoredRule

/-- The names of the members are different. -/
theorem nodup_members (r : StoredRule) : (Entries.names (r.members "ruleString")).Nodup := by
  simp only [members, Entries.names, List.map_cons, List.map_nil]
  decide

/-- A stored rule is written as a regular value. -/
theorem regular_toJson (r : StoredRule) : r.toJson.Regular := by
  have hid : (Json.int r.id.toInt).Regular := .number r.id rfl
  have hname : (Json.optional r.name).Regular := by
    cases r.name with
    | none => exact .null
    | some s => exact .string s
  refine .object r.nodup_members fun m hm => ?_
  simp only [members, List.mem_cons, List.not_mem_nil, or_false] at hm
  -- the number is a signed word, and the name is a text or `null`
  rcases hm with rfl | rfl | rfl | rfl | rfl | rfl
  · exact hid
  · exact hname
  · exact .string _
  · exact Transport.regular_toJson r.ast
  · exact .string _
  · exact .string _

/-- The rule `s` with the field of that name taken from `r`. -/
def takeField (r s : StoredRule) (name : String) : StoredRule :=
  if name = "id" then { s with id := r.id }
  else if name = "name" then { s with name := r.name }
  else if name = "ruleString" then { s with text := r.text }
  else if name = "ast" then { s with ast := r.ast }
  else if name = "createdAt" then { s with createdAt := r.createdAt }
  else { s with updatedAt := r.updatedAt }

/-- A rule that takes all of its fields from another becomes the other. -/
theorem foldl_takeField (r s : StoredRule) :
    (r.members "ruleString").foldl (fun s m => r.takeField s m.1) s = r := rfl

variable {r : StoredRule}

/-- A stored rule is read from any document that says it, if there is depth enough for its tree. -/
theorem read_of_said {d : Document} {depth : Nat} (hcreated : r.createdAt.IsPlain)
    (hupdated : r.updatedAt.IsPlain) (hlevels : r.ast.levels ≤ depth) (h : d.Says r.toJson) :
    Json.record (depth + 1) slots blank d = .ok r := by
  have hheight : r.ast.toJson.height ≤ depth := Transport.height_toJson r.ast ▸ hlevels
  refine (Json.record_of_said (fun s m => r.takeField s m.1) h (fun m hm => ?_) r.nodup_members
    fun slot hslot _ => ?_).trans (congrArg Except.ok (r.foldl_takeField blank))
  · -- each field is read by the reader of its kind, whatever has been read before
    simp only [members, List.mem_cons, List.not_mem_nil, or_false] at hm
    rcases hm with rfl | rfl | rfl | rfl | rfl | rfl
    · refine ⟨_, rfl, fun s d hd => ?_⟩
      simp only [Json.readInt64_of_said hd]
      rfl
    · refine ⟨_, rfl, fun s d hd => ?_⟩
      simp only [Json.readOptional_text_of_said hd]
      rfl
    · refine ⟨_, rfl, fun s d hd => ?_⟩
      simp only [Json.readText_of_said hd]
      rfl
    · refine ⟨_, rfl, fun s d hd => ?_⟩
      simp only [Transport.read_of_said hd hheight]
      rfl
    · refine ⟨_, rfl, fun s d hd => ?_⟩
      simp only [Time.Instant.read_of_said hcreated hd]
      rfl
    · refine ⟨_, rfl, fun s d hd => ?_⟩
      simp only [Time.Instant.read_of_said hupdated hd]
      rfl
  · -- every field of a rule is a member of its JSON
    simp only [slots, List.mem_cons, List.not_mem_nil, or_false] at hslot
    rcases hslot with rfl | rfl | rfl | rfl | rfl | rfl <;> simp [members, Entries.names]

/-- The tree of a rule that is read is no higher than the depth inside the rule. -/
theorem levels_le_of_read {d : Document} {depth : Nat} (hpos : 0 < depth)
    (h : Json.record (depth + 1) slots blank d = .ok r) : r.ast.levels ≤ depth := by
  have hblank : blank.ast.levels ≤ depth := hpos
  refine Json.record_invariant (fun s => s.ast.levels ≤ depth) hblank
    (fun n hn slot hslot s d s' hs hread => ?_) h
  obtain rfl : depth = n := Nat.succ.inj hn
  simp only [slots, List.mem_cons, List.not_mem_nil, or_false] at hslot
  rcases hslot with rfl | rfl | rfl | rfl | rfl | rfl <;>
    obtain ⟨a, ha, hread⟩ := bind_eq_ok_iff.1 hread <;> cases hread
  -- only one of the fields takes a tree in
  case inr.inr.inr.inl => exact Transport.height_toJson a ▸ Transport.height_le_of_read ha
  all_goals exact hs

/-- **A stored rule is read back from its JSON text exactly if its tree has at most 126 levels.**
Its number, its name or that it has none, its text, its tree with all that the nodes lack, well
formed or not, and both of its times to the nanosecond are then what they were. The times are those
of the years from 0 to 9999, outside leap seconds. -/
theorem ofText_text_iff (hcreated : r.createdAt.IsPlain) (hupdated : r.updatedAt.IsPlain) :
    ofText r.toJson.text = .ok r ↔ r.ast.levels ≤ 126 := by
  constructor
  · -- what is read has been read within the depth of a text
    intro h
    obtain ⟨hread, -⟩ := Json.readWhole_eq_ok_iff.1 h
    exact levels_le_of_read (by decide) hread
  · intro hlevels
    have htext := Json.isText_text r.regular_toJson
    exact Json.readWhole_of_isText htext fun d hd => read_of_said hcreated hupdated hlevels hd

/-- A rule without a name, whose tree lacks what an operator needs and has what an operand must not
have, last changed a nanosecond before the year 10000. -/
theorem ofText_text_iff_illFormed :
    let ast : Transport := .node .operator none none
      (some (.node .operand (some "\"\\\x00\u2028") (some (.node .operand (some "") none none)) none))
    let r : StoredRule := ⟨-9223372036854775808, none, "(a >= 𝄞)\n", ast,
      ⟨-62167219200, 120000000⟩, ⟨253402300799, 999999999⟩⟩
    r.createdAt.IsPlain ∧ r.updatedAt.IsPlain ∧ r.ast.levels ≤ 126 ∧
      ofText r.toJson.text = .ok r := by
  intro ast r
  have hcreated : r.createdAt.IsPlain := by decide
  have hupdated : r.updatedAt.IsPlain := by decide
  have hlevels : r.ast.levels ≤ 126 := by decide
  exact ⟨hcreated, hupdated, hlevels, (ofText_text_iff hcreated hupdated).2 hlevels⟩

end StoredRule

end Rulebook
