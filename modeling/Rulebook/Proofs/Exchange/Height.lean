import Rulebook.Proofs.Exchange.Transit
import Rulebook.Proofs.Json.Content

/-!
# How high nodes in transit are

A node in transit is as high as it has levels of nodes, whether these make up a tree or not
(`Transport.height_toJson`), as each node is one JSON object and has no other objects or arrays in
it. Whatever is read at some depth is no higher than this depth (`Transport.height_le_of_read`).
-/

namespace Rulebook.Transport

/-- How many nodes stand above one another in a node in transit. -/
def levels : Transport → Nat
  | .node _ _ left right =>
    max (match left with
      | none => 0
      | some l => l.levels)
      (match right with
      | none => 0
      | some r => r.levels) + 1

/-- A node in transit is as high as it has levels. -/
theorem height_toJson (x : Transport) : x.toJson.height = x.levels := by
  induction x with
  | node kind value left right hleft hright =>
    -- a text is of no height, and a child that is missing adds nothing
    cases value <;> cases left <;> cases right <;>
      simp [toJson, Json.height, Json.membersHeight, levels, hleft, hright]

/-- A node is no higher than the depth if none of its children is as high. -/
theorem height_toJson_le {kind : NodeKind} {value : Option String} {left right : Option Transport}
    {depth : Nat} : (node kind value left right).toJson.height ≤ depth + 1 ↔
      (∀ l, left = some l → l.toJson.height ≤ depth) ∧
        ∀ r, right = some r → r.toJson.height ≤ depth := by
  cases value <;> cases left <;> cases right <;>
    simp [toJson, Json.height, Json.membersHeight]

/-- A node that is read is no higher than the depth at which it is read. -/
theorem height_le_of_read {depth : Nat} {d : Json.Document} {x : Transport}
    (h : read depth d = .ok x) : x.toJson.height ≤ depth := by
  induction depth generalizing d x with
  | zero => cases d <;> cases h
  | succ depth ih =>
    have hchild : ∀ {d : Json.Document} {o : Option Transport},
        Json.readOptional (read depth) d = .ok o → ∀ y, o = some y → y.toJson.height ≤ depth :=
      fun hread y hy => ih (Json.readOptional_eq_ok_some (hy ▸ hread))
    have hblank : blank.toJson.height ≤ depth + 1 := height_toJson_le.2 ⟨nofun, nofun⟩
    refine Json.record_invariant (fun y => y.toJson.height ≤ depth + 1) hblank
      (fun n _ slot hslot y d y' hy hread => ?_) h
    -- each field leaves the node as it is but for one child at most
    obtain ⟨k, v, l, r⟩ := y
    obtain ⟨hl, hr⟩ := height_toJson_le.1 hy
    simp only [slots, List.mem_cons, List.not_mem_nil, or_false] at hslot
    rcases hslot with rfl | rfl | rfl | rfl <;>
      obtain ⟨a, ha, hread⟩ := bind_eq_ok_iff.1 hread <;> cases hread <;>
      refine height_toJson_le.2 ⟨?_, ?_⟩
    · exact hl
    · exact hr
    · exact hl
    · exact hr
    · exact hchild ha
    · exact hr
    · exact hl
    · exact hchild ha

end Rulebook.Transport
