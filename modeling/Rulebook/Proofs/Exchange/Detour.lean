import Rulebook.Proofs.Exchange.Transit
import Rulebook.Proofs.Json.Alike
import Rulebook.Proofs.Json.Content

/-!
# Trees on a detour

A text can be read as a tree at once (`treeOfText`), or as a value of any shape first, which is then
read as a tree (`treeThroughValue`). The two stop at different places: a reader who knows what is
due stops at the first thing that is not, while the other one has gone through the whole text before
it asks for a tree. Still they come to one answer (`treeThroughValue_agrees`), unless the text has
something in it that only one of them sees.

* A name that comes twice in an object is a fault for the one, while the other keeps what came last.
* The value of an unknown name is skipped by the one, while the other has to read it, and may fail.

The first half of the argument is that both read alike what both can read: the value says what the
text says, and documents that say one value are read as one node at all depths that are enough
(`read_congr`). The second half is that where only known names occur, the one who knows what is due
reads no less than the other (`exists_readAny_of_read`).
-/

namespace Rulebook

/-- The value that a text says, of any shape. -/
def Json.ofText (text : String) : Except Json.Fault Json :=
  Json.readWhole (Json.readAny Json.maxDepth) text

namespace Transport

open Json (Document Items Members SaySame)

/-- The tree that a text stands for, read as a value first. -/
def treeThroughValue (text : String) : Except RuleError Tree := do
  let v ← (Json.ofText text).mapError .json
  treeOfJson v

/-! ### Known names -/

/-- The names of the fields of a node, in order. -/
def fieldNames : List String := ["type", "value", "left", "right"]

/-- The fields of a node have these names. -/
theorem names_slots (depth : Nat) (child : Document → Except Json.Fault Transport) :
    (slots depth child).map Json.Slot.name = fieldNames := rfl

/-- The field of that name is a child. -/
def isChild (name : String) : Bool :=
  name = "left" || name = "right"

mutual

/-- Wherever a node is due in the document, no object has a name that is not that of a field. -/
def knowsNames : Document → Bool
  | .array items => itemsKnowNames fieldNames items
  | .object members => membersKnowNames members
  | _ => true

/-- Elements that stand for the fields of these names have no unknown names, wherever a node is due
in them. -/
def itemsKnowNames : List String → Items → Bool
  | name :: names, .more head tail =>
    (!isChild name || knowsNames head) && itemsKnowNames names tail
  | _, _ => true

/-- All members have the names of fields, and so it is in their values. -/
def membersKnowNames : Members → Bool
  | .more key value tail =>
    (match key.name? with
      | some name => fieldNames.contains name && (!isChild name || knowsNames value)
      | none => true) && membersKnowNames tail
  | _ => true

end

/-! ### What both can read -/

/-- A node is read as a record, whatever the depth. -/
theorem read_eq (depth : Nat) (d : Document) :
    read depth d = Json.record depth (fun n => slots n (read n)) blank d := by
  cases depth with
  | zero => cases d <;> rfl
  | succ depth => cases d <;> rfl

/-- Two nodes whose children are read alike have fields that are read alike. -/
theorem alike_slots {depth depth' : Nat} {child child' : Document → Except Json.Fault Transport}
    (hchild : ∀ d d', SaySame depth depth' d d' → child d = child' d') :
    List.Forall₂ (Json.Slot.Alike depth depth') (slots depth child) (slots depth' child') := by
  -- one field after the other, each read by the reader of its kind
  refine .cons ⟨rfl, rfl, fun (.node k v l r) d d' h => ?_⟩ (.cons
    ⟨rfl, rfl, fun (.node k v l r) d d' h => ?_⟩ (.cons ⟨rfl, rfl, fun (.node k v l r) d d' h => ?_⟩
      (.cons ⟨rfl, rfl, fun (.node k v l r) d d' h => ?_⟩ .nil)))
  · exact congrArg (· >>= _) (Json.readVariant_congr _ h)
  · exact congrArg (· >>= _) (Json.readOptional_congr h (Json.readText_congr h))
  · exact congrArg (· >>= _) (Json.readOptional_congr h (hchild d d' h))
  · exact congrArg (· >>= _) (Json.readOptional_congr h (hchild d d' h))

/-- **Documents that say one value are read as one node**, or with one fault. -/
theorem read_congr {depth depth' : Nat} {d d' : Document} (h : SaySame depth depth' d d') :
    read depth d = read depth' d' := by
  induction depth generalizing depth' d d' with
  | zero =>
    rw [read_eq, read_eq]
    exact Json.record_congr h nofun
  | succ depth ih =>
    rw [read_eq, read_eq]
    refine Json.record_congr h fun n n' hn _ => alike_slots fun d d' h => ?_
    cases hn
    exact ih h

/-- A value is read as a document that says it, at any depth that is enough. -/
theorem ofJson_eq_read {v : Json} {d : Document} {depth : Nat} (h : d.Says v)
    (hheight : v.height ≤ depth) : ofJson v = read depth d :=
  read_congr ⟨v, Json.says_toDocument v, h, Nat.le_refl _, hheight⟩

/-! ### Whatever is read as a node is read as a value -/

/-- Whatever a field takes in is read as a value, if this is so of children. -/
theorem exists_readAny_of_slot {depth : Nat} {child : Document → Except Json.Fault Transport}
    {slot : Json.Slot Transport} {x x' : Transport} {d : Document}
    (hchild : ∀ y, isChild slot.name = true → child d = .ok y → ∃ v, Json.readAny depth d = .ok v)
    (hslot : slot ∈ slots depth child) (h : slot.read x d = .ok x') :
    ∃ v, Json.readAny depth d = .ok v := by
  obtain ⟨k, v, l, r⟩ := x
  simp only [slots, List.mem_cons, List.not_mem_nil, or_false] at hslot
  -- kind and value are read without any child
  rcases hslot with rfl | rfl | rfl | rfl <;> obtain ⟨a, ha, -⟩ := bind_eq_ok_iff.1 h
  · exact Json.exists_readAny_of_readVariant ha
  · exact Json.exists_readAny_of_readOptional
      (fun s hs => ⟨_, Json.readAny_of_readText hs⟩) ha
  · exact Json.exists_readAny_of_readOptional (fun y => hchild y rfl) ha
  · exact Json.exists_readAny_of_readOptional (fun y => hchild y rfl) ha

section Fields

variable {depth : Nat} {child : Document → Except Json.Fault Transport}
  (hchild : ∀ d y, knowsNames d = true → child d = .ok y → ∃ v, Json.readAny depth d = .ok v)

include hchild

/-- Elements that make up a node are read as values. -/
theorem exists_readAnyItems_of_recordOfItems {fields : List (Json.Slot Transport)}
    (hfields : ∀ slot ∈ fields, slot ∈ slots depth child) {items : Items} {x x' : Transport}
    (hknown : itemsKnowNames (fields.map Json.Slot.name) items = true)
    (h : Json.recordOfItems fields x items = .ok x') :
    ∃ vs, Json.readAnyItems depth items = .ok vs := by
  -- the fields are taken from the elements in order
  induction fields generalizing items x with
  | nil =>
    cases items with
    | done => exact ⟨[], by rw [Json.readAnyItems]⟩
    -- more elements than fields are a fault
    | _ => cases h
  | cons slot fields ih =>
    obtain ⟨hslot, hfields⟩ := List.forall_mem_cons.1 hfields
    cases items with
    | done => exact ⟨[], by rw [Json.readAnyItems]⟩
    | cut => cases h
    | more head tail =>
      rw [List.map_cons, itemsKnowNames, Bool.and_eq_true] at hknown
      have hhead : isChild slot.name = true → knowsNames head = true := fun hc => by
        simpa [hc] using hknown.1
      rw [Json.recordOfItems] at h
      obtain ⟨x₁, hread, hrest⟩ := bind_eq_ok_iff.1 h
      obtain ⟨v, hv⟩ := exists_readAny_of_slot (fun y hc => hchild head y (hhead hc)) hslot hread
      obtain ⟨vs, hvs⟩ := ih hfields hknown.2 hrest
      refine ⟨v :: vs, ?_⟩
      rw [Json.readAnyItems, hv]
      dsimp only [bind, Except.bind]
      rw [hvs]
      rfl

/-- Members that make up a node are read as values, whatever has been found before. -/
theorem exists_readAnyMembers_of_recordOfMembers : ∀ {members : Members} {seen : List String}
    {x x' : Transport} {found : List (String × Json)}, membersKnowNames members = true →
    Json.recordOfMembers (slots depth child) seen x members = .ok x' →
    ∃ ms, Json.readAnyMembers depth found members = .ok ms
  | .done, _, _, _, found, _, _ => ⟨found, by rw [Json.readAnyMembers]⟩
  | .cut, _, _, _, _, _, h => by cases h
  | .more key value tail, seen, x, x', found, hknown, h => by
    obtain ⟨ps, name, rfl, hname, hrest⟩ := Json.recordOfMembers_more_eq_ok h
    rw [membersKnowNames, Document.name?, hname] at hknown
    simp only [Bool.and_eq_true, List.contains_iff_mem] at hknown
    obtain ⟨⟨hfield, hchildKnown⟩, htail⟩ := hknown
    have hvalue : isChild name = true → knowsNames value = true := fun hc => by
      simpa [hc] using hchildKnown
    obtain ⟨hunknown, -⟩ | ⟨slot, x₁, hslot, hread, hrest⟩ := hrest
    · -- a known name is that of some field
      rw [← names_slots depth child] at hfield
      obtain ⟨slot, hslot, rfl⟩ := List.mem_map.1 hfield
      exact absurd (decide_eq_true rfl) (List.find?_eq_none.1 hunknown slot hslot)
    · have hslotName : slot.name = name := by simpa using List.find?_some hslot
      obtain ⟨v, hv⟩ := exists_readAny_of_slot
        (fun y hc => hchild value y (hvalue (hslotName ▸ hc)))
        (List.mem_of_find?_eq_some hslot) hread
      obtain ⟨ms, hms⟩ := exists_readAnyMembers_of_recordOfMembers htail hrest
      refine ⟨ms, ?_⟩
      rw [Json.readAnyMembers, hname]
      dsimp only
      rw [hv]
      exact hms

end Fields

/-- Whatever is read as a node is read as a value, if only known names occur. -/
theorem exists_readAny_of_read {depth : Nat} {d : Document} {x : Transport}
    (hknown : knowsNames d = true) (h : read depth d = .ok x) :
    ∃ v, Json.readAny depth d = .ok v := by
  induction depth generalizing d x with
  | zero =>
    -- without depth nothing is opened
    rw [read_eq] at h
    cases d <;> cases h
  | succ depth ih =>
    rw [read_eq] at h
    cases d with
    | array items =>
      obtain ⟨vs, hvs⟩ := exists_readAnyItems_of_recordOfItems (fun d y => ih) (fun _ => id)
        hknown h
      exact ⟨.array vs, by rw [Json.readAny, hvs]; rfl⟩
    | object members =>
      obtain ⟨ms, hms⟩ := exists_readAnyMembers_of_recordOfMembers (fun d y => ih) hknown h
      exact ⟨.object ms, by rw [Json.readAny, hms]; rfl⟩
    | _ => cases h

/-! ### Both ways -/

/-- Two ways to a tree agree: they lead to one tree, or both of them fail, with one code, which is
that of a text that is no node or that of a node that is no tree. In the latter case the message is
the same as well. -/
inductive Agree : Except RuleError Tree → Except RuleError Tree → Prop
  | tree (t : Tree) : Agree (.ok t) (.ok t)
  | error {e e' : RuleError} (hcode : e.code = e'.code)
      (hcodes : e.code = "JSON_ERROR" ∨ e.code = "INVALID_AST")
      (hmessage : e.code = "INVALID_AST" → e.message = e'.message) : Agree (.error e) (.error e')

/-- Whatever is wrong with a text that is no node, it has one code. -/
theorem agree_json (fault fault' : Json.Fault) :
    Agree (.error (.json fault)) (.error (.json fault')) := by
  have hcode : "JSON_ERROR" ≠ "INVALID_AST" := by decide
  exact .error rfl (.inl rfl) fun h => absurd h hcode

/-- What was read as one node, or with one fault, leads to one answer. -/
theorem agree_restore (r : Except Json.Fault Transport) :
    Agree (r.mapError .json >>= restore) (r.mapError .json >>= restore) := by
  cases r with
  | error fault => exact agree_json fault fault
  | ok x =>
    change Agree x.restore x.restore
    rw [restore]
    cases x.toTree with
    | error fault => exact .error rfl (.inr rfl) fun _ => rfl
    | ok t => exact .tree t

/-- **A tree is the same whether its text is read at once or on a detour through a value**, and so
is what is wrong with it, if no object has a name twice and where a node is due no object has a name
that is not that of a field. -/
theorem treeThroughValue_agrees (text : String)
    (hdistinct : (Document.ofChars text.toList).1.isDistinct = true)
    (hknown : knowsNames (Document.ofChars text.toList).1 = true) :
    Agree (treeOfText text) (treeThroughValue text) := by
  rw [treeOfText, treeThroughValue, ofText, Json.ofText, Json.readWhole, Json.readWhole]
  generalize Document.ofChars text.toList = r at hdistinct hknown ⊢
  obtain ⟨d, rest⟩ := r
  dsimp only at hdistinct hknown ⊢
  cases hv : Json.readAny Json.maxDepth d with
  | error fault =>
    -- what cannot be read as a value cannot be read as a node either
    cases hx : read Json.maxDepth d with
    | error fault' => exact agree_json fault' fault
    | ok x =>
      obtain ⟨v, hv'⟩ := exists_readAny_of_read hknown hx
      cases hv.symm.trans hv'
  | ok v =>
    have hread : ofJson v = read Json.maxDepth d :=
      ofJson_eq_read (Json.says_of_readAny hdistinct hv) (Json.height_le_of_readAny hv)
    -- the document is read as one node both ways; only what follows it is left
    cases rest with
    | nil =>
      have hboth : Agree ((read Json.maxDepth d).mapError .json >>= restore)
          ((ofJson v).mapError .json >>= restore) := hread ▸ agree_restore (ofJson v)
      cases hx : read Json.maxDepth d <;> rw [hx] at hboth <;> exact hboth
    | cons l rest =>
      -- something follows the document, whatever it is read as
      cases hx : read Json.maxDepth d with
      | error fault => exact agree_json fault .malformed
      | ok x => exact agree_json .malformed .malformed

/-- A text in which nothing is written as it is usually done is the same tree both ways. In a text
that breaks off behind a number where a string is due, one reader finds the number and the other one
the break. -/
theorem treeThroughValue_agrees_unusualTexts :
    let unusual := "[\x7b\"operator\": null\x7d, \"AND\", " ++
      "\x7b\"value\": \"\\u0061\", \"type\": \"operand\", \"left\": null\x7d, [\"operand\", \"b\"]]"
    let broken := "[\"operand\", 7, "
    treeThroughValue unusual = .ok (.node (.logical .and) (.operand "a") (.operand "b")) ∧
      treeOfText broken = .error (.json .misshapen) ∧
      treeThroughValue broken = .error (.json .malformed) ∧
      Agree (treeOfText unusual) (treeThroughValue unusual) ∧
      Agree (treeOfText broken) (treeThroughValue broken) := by
  intro unusual broken
  exact ⟨by decide +kernel, by decide +kernel, by decide +kernel,
    treeThroughValue_agrees unusual (by decide +kernel) (by decide +kernel),
    treeThroughValue_agrees broken (by decide +kernel) (by decide +kernel)⟩

end Transport

end Rulebook
