import Rulebook.Store.Backend

/-!
# The catalogue

A store in memory. It numbers the rules that it takes in by 1, 2, 3, … and never uses a number
twice. Its rules stand in the order in which they were taken in, the newest first, which is the
order of falling numbers.
-/

namespace Rulebook

/-- The rules of a store in memory. -/
structure Catalogue where
  /-- How many rules were ever taken in. -/
  saved : Nat
  /-- The rules that are there, the newest first. -/
  rules : List StoredRule

namespace Catalogue

/-- The catalogue that no rule was put into. -/
def empty : Catalogue := ⟨0, []⟩

/-- The number of rules that are there. -/
def size (c : Catalogue) : Nat :=
  c.rules.length

/-- The rule with a number. -/
def get? (c : Catalogue) (id : Int64) : Option StoredRule :=
  c.rules.find? fun r => r.id = id

/-- The number of the next rule. -/
def nextId (c : Catalogue) : Int64 :=
  Int64.ofNat (c.saved + 1)

/-- Takes in a rule. -/
def save (c : Catalogue) (now : Time.Instant) (name : Option String) (text : String)
    (tree : Tree) : StoredRule × Catalogue :=
  let r : StoredRule := ⟨c.nextId, name, text, Transport.ofTree tree, now, now⟩
  (r, ⟨c.saved + 1, r :: c.rules⟩)

/-- The rule with a new text and a new tree. -/
def revise (now : Time.Instant) (text : String) (tree : Tree) (r : StoredRule) : StoredRule :=
  { r with text := text, ast := Transport.ofTree tree, updatedAt := now }

/-- Replaces text and tree of the rule with a number. -/
def update (c : Catalogue) (now : Time.Instant) (id : Int64) (text : String) (tree : Tree) :
    Option StoredRule × Catalogue :=
  ((c.get? id).map (revise now text tree),
    -- the rule keeps its place, so the order stays that of the numbers
    { c with rules := c.rules.map fun r => if r.id = id then revise now text tree r else r })

/-- Removes the rule with a number. -/
def delete (c : Catalogue) (id : Int64) : Bool × Catalogue :=
  ((c.get? id).isSome, { c with rules := c.rules.filter fun r => r.id ≠ id })

/-- Answers an operation. -/
def perform {α : Type} (now : Time.Instant) : Operation α → Catalogue → Performed Catalogue α
  | .save name text tree, c =>
    let (r, c) := c.save now name text tree
    ⟨c, .ok r, [.ruleStored r.id]⟩
  | .get id, c => ⟨c, .ok (c.get? id), []⟩
  | .list, c => ⟨c, .ok c.rules, []⟩
  | .update id text tree, c =>
    let (r, c) := c.update now id text tree
    ⟨c, .ok r, []⟩
  | .delete id, c =>
    let (found, c) := c.delete id
    ⟨c, .ok found, []⟩

/-- The catalogue as a backend. -/
def backend : Backend Catalogue := ⟨perform⟩

/-! ### The view as a function of numbers -/

@[simp]
theorem get?_empty (id : Int64) : empty.get? id = none := rfl

@[simp]
theorem size_empty : empty.size = 0 := rfl

@[simp]
theorem revise_id (now : Time.Instant) (text : String) (tree : Tree) (r : StoredRule) :
    (revise now text tree r).id = r.id := rfl

/-- Taking in a rule changes what is found under its number and under no other. -/
theorem get?_save (c : Catalogue) (now : Time.Instant) (name : Option String) (text : String)
    (tree : Tree) (id : Int64) :
    (c.save now name text tree).2.get? id =
      if c.nextId = id then some (c.save now name text tree).1 else c.get? id := by
  by_cases h : c.nextId = id <;> simp [save, get?, h]

theorem find?_revise (now : Time.Instant) (id other : Int64) (text : String) (tree : Tree)
    (rs : List StoredRule) :
    ((rs.map fun r => if r.id = id then revise now text tree r else r).find?
        fun r => r.id = other) =
      (rs.find? fun r => r.id = other).map fun r =>
        if r.id = id then revise now text tree r else r := by
  rw [List.find?_map]
  congr 2
  funext r
  by_cases h : r.id = id <;> simp [h]

/-- Replacing a rule changes what is found under its number, and keeps the number of rules. -/
theorem get?_update (c : Catalogue) (now : Time.Instant) (id other : Int64) (text : String)
    (tree : Tree) :
    (c.update now id text tree).2.get? other =
      if other = id then (c.get? id).map (revise now text tree) else c.get? other := by
  simp only [update, get?, find?_revise]
  cases hf : c.rules.find? fun r => r.id = other with
  | none =>
    by_cases h : other = id
    · subst h; simp [hf]
    · simp [h]
  | some r =>
    have hr : r.id = other := by simpa using List.find?_some hf
    by_cases h : other = id
    · subst h; simp [hf, hr]
    · simp [h, hr]

/-- Removing a rule takes away what is found under its number and under no other. -/
theorem get?_delete (c : Catalogue) (id other : Int64) :
    (c.delete id).2.get? other = if other = id then none else c.get? other := by
  simp only [delete, get?, List.find?_filter]
  by_cases h : other = id
  · subst h
    simp
  · rw [if_neg h]
    congr 1
    funext r
    by_cases hr : r.id = other <;> simp [hr, h]

variable {c : Catalogue} {id : Int64}

/-- A rule that is not there is not revised. -/
theorem update_of_get?_eq_none (h : c.get? id = none) (now : Time.Instant) (text : String)
    (tree : Tree) : (c.update now id text tree).2 = c := by
  have hrules : ∀ r ∈ c.rules, (if r.id = id then revise now text tree r else r) = r :=
    fun r hr => if_neg fun hid => List.find?_eq_none.1 h r hr (decide_eq_true hid)
  rw [update, List.map_congr_left hrules, List.map_id']

/-- A rule that is not there is not removed. -/
theorem delete_of_get?_eq_none (h : c.get? id = none) : (c.delete id).2 = c := by
  have hrules : ∀ r ∈ c.rules, decide (r.id ≠ id) = true :=
    fun r hr => decide_eq_true fun hid => List.find?_eq_none.1 h r hr (decide_eq_true hid)
  rw [delete, List.filter_eq_self.2 hrules]

end Catalogue

/-! ### What all rules have in common -/

/-- Whatever rule the operation writes into a catalogue has the property. -/
def Operation.Writes (P : StoredRule → Prop) {α : Type} : Operation α → Prop
  | .save name text tree => ∀ id now, P ⟨id, name, text, Transport.ofTree tree, now, now⟩
  | .update _ text tree => ∀ now r, P (Catalogue.revise now text tree r)
  | .get _ | .list | .delete _ => True

namespace Catalogue

variable {P : StoredRule → Prop}

/-- Every rule has the property. -/
def All (P : StoredRule → Prop) (c : Catalogue) : Prop :=
  ∀ r ∈ c.rules, P r

theorem all_empty : empty.All P :=
  fun _ hr => by cases hr

/-- What all rules have in common, and what an operation writes has too, all rules have in common
afterwards. -/
theorem All.perform {c : Catalogue} (hc : c.All P) (now : Time.Instant) {α : Type}
    (op : Operation α) (hop : op.Writes P) : (backend.perform now op c).state.All P := by
  cases op with
  | save name text tree =>
    intro r hr
    rcases List.mem_cons.1 hr with rfl | hr
    · exact hop c.nextId now
    · exact hc r hr
  | get id => exact hc
  | list => exact hc
  | update id text tree =>
    intro r hr
    obtain ⟨old, hold, rfl⟩ := List.mem_map.1 hr
    -- only the rule with the number is revised
    split
    · exact hop now old
    · exact hc old hold
  | delete id => exact fun r hr => hc r (List.mem_filter.1 hr).1

end Catalogue

end Rulebook
