import Rulebook.Proofs.Combination
import Rulebook.Proofs.Json.Rearranged
import Rulebook.RuleError

/-!
# Trees there and back

A tree that is written as JSON and read again is the same tree, whether it travels as a text or as a
value in memory (`treeOfText_text`). Two things could spoil it: an operand without characters, which
no node in transit may have, and a tree of more levels than a text may have objects inside one
another. Trees that were read from a rule or combined from rules are far from both.

The proof does not use that the node in transit came from a tree before the last step. Any node is
read from any document that says it (`read_of_said`), if it is no higher than the depth allows; its
height is the number of levels of the tree (`height_ofTree`). What a node lacks is left out when it
is written, and a blank node that takes its fields from the members that are there becomes the node
(`foldl_takeField`).

The order of the members does not matter on any level, so whoever sends a node back may have
rearranged it (`read_of_rearranged`, `treeOfJson_of_rearranged`).
-/

namespace Rulebook

/-- How many nodes stand above one another in a tree. -/
def Tree.levels : Tree → Nat
  | .operand _ => 1
  | .node _ left right => max left.levels right.levels + 1

/-- Each level but the last has an operator. -/
theorem Tree.levels_le (t : Tree) : t.levels ≤ t.operatorCount + 1 := by
  induction t with
  | operand s => exact Nat.le_refl 1
  | node op l r ihl ihr =>
    rw [levels, operatorCount_node]
    omega

/-- A readable tree has at most one level more than a rule may have operators. -/
theorem Tree.Readable.levels_le {t : Tree} (h : t.Readable) : t.levels ≤ 101 :=
  Nat.le_trans t.levels_le (Nat.succ_le_succ h.operators)

namespace Transport

open Json (Document Members)

/-- Induction over a node in transit and the children that it has. -/
@[elab_as_elim, induction_eliminator]
theorem induction {motive : Transport → Prop}
    (node : ∀ kind value left right, (∀ l, left = some l → motive l) →
      (∀ r, right = some r → motive r) → motive (.node kind value left right)) :
    ∀ x, motive x
  | .node kind value left right =>
    node kind value left right (fun l _ => induction node l) (fun r _ => induction node r)

/-- The members of a node in transit: its kind, and of the rest what the node has. -/
def members : Transport → List (String × Json)
  | .node kind value left right =>
    ("type", .string kind.name) :: ((value.map fun v => ("value", Json.string v)).toList ++
      ((left.map fun l => ("left", l.toJson)).toList ++
        (right.map fun r => ("right", r.toJson)).toList))

/-- A node is written as the object of its members. -/
theorem toJson_eq (x : Transport) : x.toJson = .object x.members := by
  obtain ⟨kind, value, left, right⟩ := x
  cases value <;> cases left <;> cases right <;> simp [toJson, members]

/-- The members of a node have different names. -/
theorem nodup_members (x : Transport) : (Entries.names x.members).Nodup := by
  obtain ⟨kind, value, left, right⟩ := x
  cases value <;> cases left <;> cases right <;> simp [members, Entries.names]

/-- The members are the kind, and those for which the node has something. -/
theorem mem_members {kind : NodeKind} {value : Option String} {left right : Option Transport}
    {m : String × Json} : m ∈ (node kind value left right).members ↔
      m = ("type", .string kind.name) ∨ (∃ v, value = some v ∧ ("value", .string v) = m) ∨
        (∃ l, left = some l ∧ ("left", l.toJson) = m) ∨
          ∃ r, right = some r ∧ ("right", r.toJson) = m := by
  simp only [members, List.mem_cons, List.mem_append, Option.mem_toList, Option.map_eq_some_iff]

/-- A node in transit is written as a regular value. -/
theorem regular_toJson (x : Transport) : x.toJson.Regular := by
  induction x with
  | node kind value left right hleft hright =>
    rw [toJson_eq]
    refine .object (nodup_members _) fun m hm => ?_
    rcases mem_members.1 hm with rfl | ⟨v, -, rfl⟩ | ⟨l, hl, rfl⟩ | ⟨r, hr, rfl⟩
    · exact .string _
    · exact .string v
    · exact hleft l hl
    · exact hright r hr

/-- No node in transit is written as `null`, nor rearranged to it. -/
theorem ne_null_of_rearranged (x : Transport) {v : Json} (hv : v.Rearranged x.toJson) :
    v ≠ .null := by
  rw [toJson_eq] at hv
  rintro rfl
  cases hv

/-- The node `y` with the field of that name taken from `x`. -/
def takeField : (x y : Transport) → (name : String) → Transport
  | .node kind value left right, .node k v l r, name =>
    .node (if name = "type" then kind else k) (if name = "value" then value else v)
      (if name = "left" then left else l) (if name = "right" then right else r)

/-- Two fields may be taken in any order. -/
theorem takeField_comm (x y : Transport) (n n' : String) :
    x.takeField (x.takeField y n) n' = x.takeField (x.takeField y n') n := by
  obtain ⟨kind, value, left, right⟩ := x
  obtain ⟨k, v, l, r⟩ := y
  -- a field is that of `x` if one of the names is its own
  simp only [takeField, node.injEq]
  refine ⟨?_, ?_, ?_, ?_⟩ <;> split <;> split <;> rfl

/-- A node that takes its fields from all members of another becomes the other. -/
theorem foldl_takeField (x : Transport) :
    (Entries.names x.members).foldl x.takeField blank = x := by
  obtain ⟨kind, value, left, right⟩ := x
  cases value <;> cases left <;> cases right <;> rfl

/-- A node is read from any document that says it, in whatever order its members and those of its
children come, if it is no higher than the depth. -/
theorem read_of_rearranged {x : Transport} {v : Json} {d : Document} {depth : Nat} (h : d.Says v)
    (hv : v.Rearranged x.toJson) (hheight : x.toJson.height ≤ depth) : read depth d = .ok x := by
  induction x generalizing v d depth with
  | node kind value left right hleft hright =>
    rw [toJson_eq] at hv hheight
    rw [Json.height] at hheight
    cases depth with
    | zero => exact absurd hheight (Nat.not_succ_le_zero _)
    | succ depth =>
      -- the children stand at the depth inside the node
      have hchild : ∀ m ∈ (node kind value left right).members, m.2.height ≤ depth := fun m hm =>
        Nat.le_trans (Json.height_le_of_mem hm) (Nat.le_of_succ_le_succ hheight)
      refine (Json.record_of_rearranged (node kind value left right).takeField h hv
        (takeField_comm _) (fun m hm => ?_) (nodup_members _) fun slot hslot hp => ?_).trans
        (congrArg Except.ok (foldl_takeField _))
      · -- kind and value are texts, which cannot be rearranged; the children are read as nodes
        rcases mem_members.1 hm with rfl | ⟨v, rfl, rfl⟩ | ⟨l, rfl, rfl⟩ | ⟨r, rfl, rfl⟩
        · refine ⟨_, rfl, fun (.node k v l r) d w hd hw => ?_⟩
          cases hw
          have hname : Entries.find? kind.name [(NodeKind.operand.name, .operand),
            (NodeKind.operator.name, .operator)] = some kind := by cases kind <;> rfl
          simp only [Json.readVariant_of_said hd hname]
          rfl
        · refine ⟨_, rfl, fun (.node k v l r) d w hd hw => ?_⟩
          cases hw
          simp only [Json.readOptional_of_said hd Json.noConfusion (Json.readText_of_said hd)]
          rfl
        · refine ⟨_, rfl, fun (.node k v _ r) d w hd hw => ?_⟩
          have hread := hleft l rfl hd hw (hchild _ hm)
          simp only [Json.readOptional_of_said hd (l.ne_null_of_rearranged hw) hread]
          rfl
        · refine ⟨_, rfl, fun (.node k v l _) d w hd hw => ?_⟩
          have hread := hright r rfl hd hw (hchild _ hm)
          simp only [Json.readOptional_of_said hd (r.ne_null_of_rearranged hw) hread]
          rfl
      · -- of the four fields only the kind is required
        simp only [slots, List.mem_cons, List.not_mem_nil, or_false] at hslot
        rcases hslot with rfl | rfl | rfl | rfl
        · exact List.mem_cons_self
        all_goals cases hp

/-- A node is read from any document that says it, if it is no higher than the depth. -/
theorem read_of_said {x : Transport} {d : Document} {depth : Nat} (h : d.Says x.toJson)
    (hheight : x.toJson.height ≤ depth) : read depth d = .ok x :=
  read_of_rearranged h (.refl _) hheight

/-- Any node is read back from its JSON value, which may have been rearranged. -/
theorem ofJson_of_rearranged {x : Transport} {v : Json} (hv : v.Rearranged x.toJson) :
    ofJson v = .ok x :=
  read_of_rearranged (Json.says_toDocument _) hv (Nat.le_of_eq hv.height_eq.symm)

/-! ### Trees -/

/-- An operand has a value that is not empty, and no children. -/
theorem toOperand_eq_ok_iff {value : Option String} {hasChildren : Bool} {t : Tree} :
    toOperand value hasChildren = .ok t ↔
      ∃ v, value = some v ∧ v ≠ "" ∧ hasChildren = false ∧ t = .operand v := by
  unfold toOperand
  cases value with
  | none => simp
  | some v => by_cases hv : v = "" <;> cases hasChildren <;> simp [hv, eq_comm]

/-- An operator has its symbol for a value. -/
theorem toOperator_eq_ok_iff {value : Option String} {op : Operator} :
    toOperator value = .ok op ↔ value = some op.symbol := by
  unfold toOperator
  cases value with
  | none => simp
  | some v =>
    rw [Option.some.injEq, ← Operator.ofSymbol?_eq_some_iff]
    dsimp only
    cases Operator.ofSymbol? v <;> simp

/-- A node that stands for a tree is the tree in transit. -/
theorem ofTree_of_toTree {x : Transport} {t : Tree} (h : x.toTree = .ok t) : ofTree t = x := by
  induction x generalizing t with
  | node kind value left right hleft hright =>
    cases kind with
    -- a node with children would not have become an operand
    | operand =>
      obtain ⟨v, rfl, -, hchildren, rfl⟩ := toOperand_eq_ok_iff.1 h
      rw [Bool.or_eq_false_iff, Option.isSome_eq_false_iff, Option.isSome_eq_false_iff,
        Option.isNone_iff_eq_none, Option.isNone_iff_eq_none] at hchildren
      rw [ofTree, hchildren.1, hchildren.2]
    -- a node that lacks a child would not have become an operator
    | operator =>
      rw [toTree, bind_eq_ok_iff] at h
      obtain ⟨op, hop, h⟩ := h
      split at h
      · next l r =>
        obtain ⟨l', hl, h⟩ := bind_eq_ok_iff.1 h
        obtain ⟨r', hr, h⟩ := bind_eq_ok_iff.1 h
        cases h
        rw [ofTree, hleft l rfl hl, hright r rfl hr, toOperator_eq_ok_iff.1 hop]
      · cases h

/-- A tree in transit is as high as the tree has levels. -/
theorem height_ofTree (t : Tree) : (ofTree t).toJson.height = t.levels := by
  induction t with
  | operand s => rfl
  | node op l r ihl ihr =>
    simp only [ofTree, toJson, List.cons_append, List.nil_append, Json.height,
      Json.membersHeight, ihl, ihr, Tree.levels]
    omega

/-- A node in transit is restored to the tree that it stands for. -/
theorem restore_eq_ok_iff {x : Transport} {t : Tree} : x.restore = .ok t ↔ x.toTree = .ok t :=
  mapError_eq_ok_iff

variable {t : Tree}

/-- A tree is read back from any text of it. -/
theorem treeOfText_of_isText {text : String} (hne : ∀ s ∈ t.operands, s ≠ "")
    (hlevels : t.levels ≤ Json.maxDepth) (htext : Json.IsText (ofTree t).toJson text) :
    treeOfText text = .ok t := by
  -- the text does not matter, but for its depth
  have hread : ofText text = .ok (ofTree t) :=
    Json.readWhole_of_isText htext fun d hd => read_of_said hd (height_ofTree t ▸ hlevels)
  rw [treeOfText, hread]
  exact restore_eq_ok_iff.2 (toTree_ofTree hne)

/-- A tree is read back from its JSON value, whatever its levels and the order of the members. -/
theorem treeOfJson_of_rearranged {v : Json} (hne : ∀ s ∈ t.operands, s ≠ "")
    (hv : v.Rearranged (ofTree t).toJson) : treeOfJson v = .ok t := by
  rw [treeOfJson, ofJson_of_rearranged hv]
  exact restore_eq_ok_iff.2 (toTree_ofTree hne)

/-- A tree is read back from its JSON value, whatever its levels. -/
theorem treeOfJson_toJson (hne : ∀ s ∈ t.operands, s ≠ "") :
    treeOfJson (ofTree t).toJson = .ok t :=
  treeOfJson_of_rearranged hne (.refl _)

/-- **A tree is read back from its JSON.** A tree of at most 127 levels whose operands are not empty
is read from its JSON text, and from its JSON value. All trees that are read from rules or combined
from rules are such trees, and have at most 101 levels. -/
theorem treeOfText_text :
    (∀ t : Tree, (∀ s ∈ t.operands, s ≠ "") → t.levels ≤ 127 →
      treeOfText (ofTree t).toJson.text = .ok t ∧ treeOfJson (ofTree t).toJson = .ok t) ∧
    (∀ (rule : String) (t : Tree), Parser.parse rule = .ok t →
      (∀ s ∈ t.operands, s ≠ "") ∧ t.levels ≤ 101) ∧
    (∀ (c : Connective) (rules : List String) (t : Tree), Combination.combine c rules = .ok t →
      (∀ s ∈ t.operands, s ≠ "") ∧ t.levels ≤ 101) := by
  refine ⟨fun t hne hlevels => ?_, fun rule t h => ?_, fun c rules t h => ?_⟩
  · have htext := Json.isText_text (regular_toJson (ofTree t))
    exact ⟨treeOfText_of_isText hne hlevels htext, treeOfJson_toJson hne⟩
  · have hreadable := Parser.readable_of_parse h
    exact ⟨hreadable.operand_ne_empty, hreadable.levels_le⟩
  · have hreadable := Combination.readable_of_combine h
    exact ⟨hreadable.operand_ne_empty, hreadable.levels_le⟩

/-- A tree whose operands hold what JSON escapes, and trees that come from a rule and from two. -/
theorem treeOfText_text_escaped :
    let t : Tree := .node (.relating .equal) (.operand "\x1f\"\\") (.operand "\n 年")
    let a : Tree := .operand "a"
    let b : Tree := .operand "b"
    (treeOfText (ofTree t).toJson.text = .ok t ∧ treeOfJson (ofTree t).toJson = .ok t) ∧
    Tree.levels (.node (.logical .or) a b) ≤ 101 ∧ Tree.levels (.node (.logical .and) a b) ≤ 101 :=
  ⟨treeOfText_text.1 _ (by decide) (by decide),
    (treeOfText_text.2.1 "(a OR b)" _ rfl).2,
    (treeOfText_text.2.2 .and ["a", "b"] _ rfl).2⟩

end Transport

end Rulebook
