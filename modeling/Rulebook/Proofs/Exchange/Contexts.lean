import Rulebook.Exchange.Values
import Rulebook.Proofs.Json.Content

/-!
# Values and contexts there and back

A value is read from any document that says it (`Value.read_of_said`), and so is a context
(`Context.read_of_said`). Values are neither arrays nor objects, so the only depth that a context
needs is its own. The names of a context are different, so none of its values is replaced while it
is read, and the order of the names is kept.

Other documents are read as contexts, too, and in these a name may come more than once. Whatever the
document is, a name has the value of its last member (`get?_of_read`). So many objects give the same
values to names as a context does (`Context.IsGivenBy`), of which its own JSON is one.
-/

namespace Rulebook

open Json (Document Members)

namespace Value

/-- A value is written as a regular one. -/
theorem regular_toJson (v : Value) : v.toJson.Regular := by
  cases v with
  | boolean b => exact .boolean b
  | number n => exact .number n rfl
  | string s => exact .string s
  | null => exact .null

/-- Values have nothing inside them. -/
theorem height_toJson (v : Value) : v.toJson.height = 0 := by
  cases v <;> rfl

/-- A value is the value that its JSON denotes. -/
@[simp]
theorem ofJson?_toJson (v : Value) : ofJson? v.toJson = some v := by
  cases v with
  | boolean | string | null => rfl
  -- a number is written as its word, and this is read as it
  | number n =>
    have hint := Json.toInt?_int n rfl
    simp only [toJson, Json.int, ofJson?, hint, Option.bind_eq_bind, Option.bind_some,
      Text.toInt64?_toInt, Option.map_some]

/-- A value is read from any document that says it. -/
theorem read_of_said {v : Value} {d : Document} {depth : Nat} (h : d.Says v.toJson) :
    read depth d = .ok v := by
  have hread := Json.readAny_of_said h v.regular_toJson (v.height_toJson ▸ Nat.zero_le depth)
  rw [read, hread]
  dsimp only [bind, Except.bind]
  rw [ofJson?_toJson]
  rfl

end Value

namespace Context

/-- A context is written as a regular object. -/
theorem regular_toJson (c : Context) : c.toJson.Regular := by
  refine .object ?_ fun m hm => ?_
  · rw [Entries.names, List.map_map]
    exact c.nodup
  · obtain ⟨e, -, rfl⟩ := List.mem_map.1 hm
    exact e.2.regular_toJson

/-- Entries with new names are added at the end. -/
theorem entries_foldl_insert {c : Context} {es : List (String × Value)}
    (h : (Entries.names (c.entries ++ es)).Nodup) :
    (es.foldl (fun c e => c.insert e.1 e.2) c).entries = c.entries ++ es := by
  induction es generalizing c with
  | nil => exact (List.append_nil _).symm
  | cons e es ih =>
    -- the name is not among those that are there, so nothing is replaced
    have hnew : e.1 ∉ Entries.names c.entries := Entries.not_mem_names_of_nodup h
    have hinsert : (c.insert e.1 e.2).entries = c.entries ++ [e] := Entries.set_of_not_mem hnew
    rw [List.append_cons, ← hinsert] at h
    rw [List.foldl_cons, ih h, hinsert, List.append_assoc, List.singleton_append]

/-- Contexts with the same entries are the same. -/
theorem eq_of_entries {c c' : Context} (h : c.entries = c'.entries) : c = c' := by
  cases c
  cases c'
  cases h
  rfl

/-- A context is made again from its own entries. -/
theorem ofList_entries (c : Context) : ofList c.entries = c :=
  eq_of_entries (entries_foldl_insert (c := empty) c.nodup)

/-- Values are taken in one by one as they are read. -/
theorem readEntries_of_said {depth : Nat} {members : Members} {es : List (String × Value)}
    {c : Context} (h : members.Says (es.map fun e => (e.1, e.2.toJson))) :
    Json.readEntries (Value.read depth) insert c members =
      .ok (es.foldl (fun c e => c.insert e.1 e.2) c) := by
  -- the context is built up on the way, so it is not fixed
  induction es generalizing members c with
  | nil =>
    cases h
    rfl
  | cons e es ih =>
    cases h with
    | more hname hvalue htail =>
      rw [Json.readEntries, hname]
      dsimp only
      rw [Value.read_of_said hvalue]
      exact ih htail

/-- Members with values are read as the context that takes in one after another. -/
theorem read_of_saidMembers {es : List (String × Value)} {d : Document} {depth : Nat}
    (h : d.Says (.object (es.map fun e => (e.1, e.2.toJson)))) :
    read (depth + 1) d = .ok (ofList es) := by
  cases h with
  | object h =>
    rw [read, readEntries_of_said h]
    rfl

/-- A context is read from any document that says it. -/
theorem read_of_said {c : Context} {d : Document} {depth : Nat} (h : d.Says c.toJson) :
    read (depth + 1) d = .ok c :=
  (read_of_saidMembers h).trans (congrArg Except.ok c.ofList_entries)

/-- The value is an object whose members give to names what the context gives to them: the order of
the members does not matter, and of several members with one name the last counts. -/
def IsGivenBy (c : Context) (v : Json) : Prop :=
  ∃ es : List (String × Value), v = .object (es.map fun e => (e.1, e.2.toJson)) ∧
    ∀ name, (ofList es).get? name = c.get? name

/-- A context is given by its own entries in every order. -/
theorem isGivenBy_of_perm {c : Context} {es : List (String × Value)} (h : es.Perm c.entries) :
    c.IsGivenBy (.object (es.map fun e => (e.1, e.2.toJson))) := by
  have hnames : (Entries.names es).Nodup := (h.map Prod.fst).nodup_iff.2 c.nodup
  have hentries : (ofList es).entries = es := entries_foldl_insert (c := empty) hnames
  refine ⟨es, rfl, fun name => ?_⟩
  rw [get?, hentries, Entries.find?_perm h hnames]
  rfl

/-! ### Contexts from any document -/

/-- A context is read one value after another. -/
theorem readEntries_more_eq_ok {depth : Nat} {c c' : Context} {key value : Document}
    {tail : Members}
    (h : Json.readEntries (Value.read depth) insert c (.more key value tail) = .ok c') :
    ∃ name v, key.name? = some name ∧ Value.read depth value = .ok v ∧
      Json.readEntries (Value.read depth) insert (c.insert name v) tail = .ok c' := by
  cases key with
  | string ps =>
    rw [Json.readEntries] at h
    cases hname : Json.text? ps with
    -- half of a pair stands for no character, so there is no name
    | none =>
      rw [hname] at h
      cases h
    | some name =>
      rw [hname] at h
      obtain ⟨v, hv, h⟩ := bind_eq_ok_iff.1 h
      exact ⟨name, v, hname, hv, h⟩
  | _ => cases h

/-- Behind the members a name has the value of the last member of its name, or else the one it had.
-/
theorem get?_of_readEntries {depth : Nat} (name : String) : ∀ {members : Members} {c c' : Context},
    Json.readEntries (Value.read depth) insert c members = .ok c' →
    c'.get? name = match members.last? name with
      | some d => (Value.read depth d).toOption
      | none => c.get? name
  | .done, _, _, h => by
    cases h
    rfl
  | .cut, _, _, h => by cases h
  | .more key value tail, c, c', h => by
    obtain ⟨n, v, hn, hv, htail⟩ := readEntries_more_eq_ok h
    rw [get?_of_readEntries name htail, Members.last?, hn]
    cases tail.last? name with
    | some d => rfl
    -- no later member has the name, so this one counts if it has it
    | none =>
      by_cases h : n = name
      · simp [h, hv, Except.toOption]
      · simp [h]

/-- **A name has the value of the last member of that name**, and no value if there is no such
member. -/
theorem get?_of_read {depth : Nat} {d : Document} {c : Context} (h : read (depth + 1) d = .ok c) :
    ∃ members, d = .object members ∧ ∀ name v, c.get? name = some v ↔
      ∃ value, members.last? name = some value ∧ Value.read depth value = .ok v := by
  cases d with
  | object members =>
    refine ⟨members, rfl, fun name v => ?_⟩
    -- before anything is read no name has a value
    rw [get?_of_readEntries name h]
    cases members.last? name with
    | none => exact ⟨nofun, nofun⟩
    | some value =>
      dsimp only
      cases hread : Value.read depth value <;> simp [Except.toOption, hread]
  | _ => cases h

end Context

end Rulebook
