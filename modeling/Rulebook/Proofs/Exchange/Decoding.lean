import Rulebook.Proofs.Exchange.Contexts

/-!
# What texts denote contexts

Which texts are read as contexts, and as which, said by the grammar of JSON alone. A JSON value
denotes a value (`Json.Denotes`) if it is a literal, a string or a number written as a signed word;
a text denotes a context if it spells an object all of whose members denote values, the ones that
are overridden included. Of several members of one name the last counts (`Entries.IsLast`).

Reading a value never does more than take it as any JSON value and ask what it denotes
(`Value.read_eq_ok_iff`); members are read one behind another, so they all have to denote something
(`Context.exists_read_iff`). Both are carried over to texts by `Json.isText_iff`.
-/

namespace Rulebook

open Json (Document Members Spells)

/-! ### The last of a name -/

/-- The last of the entries of that name stands for this. -/
def Entries.IsLast {α : Type} (name : String) (a : α) (es : List (String × α)) : Prop :=
  ∃ before after, es = before ++ (name, a) :: after ∧ name ∉ Entries.names after

/-- The last entry of a name is the first one from behind. -/
theorem Entries.isLast_iff {α : Type} {name : String} {a : α} {es : List (String × α)} :
    IsLast name a es ↔ find? name es.reverse = some a := by
  rw [find?, Option.map_eq_some_iff]
  constructor
  · rintro ⟨before, after, rfl, hafter⟩
    have hsplit : (before ++ (name, a) :: after).reverse =
        after.reverse ++ (name, a) :: before.reverse := by simp
    refine ⟨(name, a), List.find?_eq_some_iff_append.2
      ⟨decide_eq_true rfl, after.reverse, before.reverse, hsplit, fun e he => ?_⟩, rfl⟩
    -- the entries behind are the ones in front, seen from behind
    have hne : e.1 ≠ name := by
      rintro rfl
      exact hafter (List.mem_map_of_mem (List.mem_reverse.1 he))
    simp [hne]
  · rintro ⟨⟨name', a'⟩, he, rfl⟩
    obtain ⟨hname, after, before, hes, hafter⟩ := List.find?_eq_some_iff_append.1 he
    cases of_decide_eq_true hname
    refine ⟨before.reverse, after.reverse, ?_, fun hmem => ?_⟩
    · rw [← List.reverse_reverse es, hes]
      simp
    · obtain ⟨e, hmem, hname⟩ := List.mem_map.1 hmem
      have hne := hafter e (List.mem_reverse.1 hmem)
      simp [hname] at hne

/-! ### Values -/

/-- The JSON value denotes the value. -/
inductive Json.Denotes : Json → Value → Prop
  | null : Denotes .null .null
  | boolean (b : Bool) : Denotes (.boolean b) (.boolean b)
  | number {n : Numeral} {i : Int64} (h : n.IsWord i) : Denotes (.number n) (.number i)
  | string (s : String) : Denotes (.string s) (.string s)

/-- A JSON value is taken for the value that it denotes. -/
theorem Value.ofJson?_eq_some_iff {j : Json} {v : Value} : ofJson? j = some v ↔ j.Denotes v := by
  constructor
  · intro h
    cases j with
    | null => cases h; exact .null
    | boolean b => cases h; exact .boolean b
    | string s => cases h; exact .string s
    -- a number is taken for a word if it is written as one
    | number n =>
      obtain ⟨i, hi, h⟩ := Option.bind_eq_some_iff.1 h
      obtain ⟨w, hw, rfl⟩ := Option.map_eq_some_iff.1 h
      rw [Text.toInt64?_eq_some_iff] at hw
      rw [← hw] at hi
      exact .number (Json.Numeral.toInt?_eq_some_iff.1 hi)
    | array | object => cases h
  · intro h
    cases h with
    | null | boolean | string => rfl
    | @number n i h =>
      rw [ofJson?, Json.Numeral.toInt?_eq_some_iff.2 h]
      simp

/-- A value is read from a document if the document says JSON that denotes it. -/
theorem Value.read_eq_ok_iff {depth : Nat} {d : Document} {v : Value} :
    read depth d = .ok v ↔ ∃ j, d.Says j ∧ j.Denotes v := by
  rw [read, bind_eq_ok_iff]
  constructor
  · rintro ⟨j, hj, h⟩
    cases hv : ofJson? j with
    -- JSON that denotes nothing is a fault
    | none =>
      rw [hv] at h
      cases h
    | some w =>
      rw [hv] at h
      cases h
      refine ⟨j, ?_, ofJson?_eq_some_iff.1 hv⟩
      cases d with
      | array items | object members =>
        -- what is read is an array or an object again, and denotes nothing
        cases depth with
        | zero => cases hj
        | succ depth =>
          obtain ⟨_, -, rfl⟩ := map_eq_ok_iff.1 hj
          cases hv
      | _ => exact Json.says_of_readAny rfl hj
  · rintro ⟨j, hsaid, hdenotes⟩
    -- nothing is opened on the way, so the depth does not matter
    have hany : Json.readAny depth d = .ok j := by
      cases hdenotes with
      | null => cases hsaid; rfl
      | boolean => cases hsaid; rfl
      | number h =>
        cases hsaid
        rw [Json.readAny, h.isTooLarge_eq]
        rfl
      | string =>
        cases hsaid with
        | string hs => rw [Json.readAny, hs]
    refine ⟨j, hany, ?_⟩
    rw [ofJson?_eq_some_iff.2 hdenotes]
    rfl

/-! ### Contexts -/

namespace Context

/-- What is read as members of a context says members that denote values. -/
theorem says_of_readEntries {depth : Nat} : ∀ {members : Members} {c c' : Context},
    Json.readEntries (Value.read depth) insert c members = .ok c' →
    ∃ ms, members.Says ms ∧ ∀ m ∈ ms, ∃ v, m.2.Denotes v
  | .done, _, _, _ => ⟨[], .done, nofun⟩
  | .cut, _, _, h => by cases h
  | .more key value tail, _, _, h => by
    obtain ⟨name, v, hname, hv, htail⟩ := readEntries_more_eq_ok h
    obtain ⟨j, hj, hdenotes⟩ := Value.read_eq_ok_iff.1 hv
    obtain ⟨ms, hms, hall⟩ := says_of_readEntries htail
    -- a name was found, so the key is a string
    cases key with
    | string ps => exact ⟨_, .more hname hj hms, List.forall_mem_cons.2 ⟨⟨v, hdenotes⟩, hall⟩⟩
    | _ => cases hname

/-- Members that denote values are read, each of them, whatever has been read before. -/
theorem exists_readEntries_of_says {depth : Nat} {ms : List (String × Json)} {members : Members}
    (h : members.Says ms) (hms : ∀ m ∈ ms, ∃ v, m.2.Denotes v) (c : Context) :
    ∃ c', Json.readEntries (Value.read depth) insert c members = .ok c' := by
  induction ms generalizing members c with
  | nil =>
    cases h
    exact ⟨c, rfl⟩
  | cons m ms ih =>
    -- whatever the value is, it is taken in, and the rest is read with it
    obtain ⟨⟨v, hv⟩, htailDenotes⟩ := List.forall_mem_cons.1 hms
    cases h with
    | @more ps value tail name j _ hname hvalue htail =>
      obtain ⟨c', hc'⟩ := ih htail htailDenotes (c.insert name v)
      have hread : Value.read depth value = .ok v := Value.read_eq_ok_iff.2 ⟨j, hvalue, hv⟩
      refine ⟨c', ?_⟩
      rw [Json.readEntries, hname]
      dsimp only
      rw [hread]
      exact hc'

/-- A context is read from a document if the document says an object whose members all denote
values. -/
theorem exists_read_iff {depth : Nat} {d : Document} :
    (∃ c, read (depth + 1) d = .ok c) ↔
      ∃ ms, d.Says (.object ms) ∧ ∀ m ∈ ms, ∃ v, m.2.Denotes v := by
  constructor
  · rintro ⟨c, hc⟩
    cases d with
    | object members =>
      obtain ⟨ms, hms, hall⟩ := says_of_readEntries hc
      exact ⟨ms, .object hms, hall⟩
    -- no other document is read as a context
    | _ => cases hc
  · rintro ⟨ms, hsaid, hall⟩
    cases hsaid with
    | object hms => exact exists_readEntries_of_says hms hall empty

/-- The last member of a name says what the last entry of that name stands for. -/
theorem rel_last? (name : String) {ms : List (String × Json)} {members : Members}
    (h : members.Says ms) :
    Option.Rel Document.Says (members.last? name) (Entries.find? name ms.reverse) := by
  induction ms generalizing members with
  | nil =>
    cases h
    exact .none
  | cons m ms ih =>
    cases h with
    | @more ps value tail n j _ hname hvalue htail =>
      rw [Members.last?, Document.name?, hname, List.reverse_cons, Entries.find?_append,
        Entries.find?_cons, Entries.find?_nil]
      -- the member in front counts only if there is none of that name behind it
      have hrel := ih htail
      generalize tail.last? name = o at hrel ⊢
      generalize Entries.find? name ms.reverse = o' at hrel ⊢
      cases hrel with
      | some h => exact .some h
      | none =>
        simp only [Option.none_or, Option.some.injEq]
        split
        · exact .some hvalue
        · exact .none

/-- A name has the value that is denoted by the last member of that name. -/
theorem get?_of_read_said {depth : Nat} {d : Document} {c : Context} {ms : List (String × Json)}
    (h : read (depth + 1) d = .ok c) (hsaid : d.Says (.object ms)) {name : String} {v : Value} :
    c.get? name = some v ↔ ∃ j, Entries.IsLast name j ms ∧ j.Denotes v := by
  obtain ⟨members, rfl, hget⟩ := get?_of_read h
  rw [hget]
  cases hsaid with
  | object hms =>
    simp only [Entries.isLast_iff, Value.read_eq_ok_iff]
    -- the document and the value have their last members of this name in the same place
    have hrel := rel_last? name hms
    generalize members.last? name = o at hrel ⊢
    generalize Entries.find? name ms.reverse = o' at hrel ⊢
    cases hrel with
    | none => exact ⟨by rintro ⟨_, ⟨⟩, -⟩, by rintro ⟨_, ⟨⟩, -⟩⟩
    -- a document says one value only
    | @some value j hj =>
      constructor
      · rintro ⟨_, ⟨⟩, j', hj', hv⟩
        exact ⟨j, rfl, hj.unique hj' ▸ hv⟩
      · rintro ⟨_, ⟨⟩, hv⟩
        exact ⟨value, rfl, j, hj, hv⟩

/-- **A text is read as a context exactly if it spells an object whose members all denote values**,
also those that come before another one of the same name. Each name has the value of its last
member, and there are no other names. Every context is read from its own text. -/
theorem ofText_exact (text : String) :
    ((∃ c, ofText text = .ok c) ↔
      ∃ ms, Spells text (.object ms) ∧ ∀ m ∈ ms, ∃ v, m.2.Denotes v) ∧
    (∀ c ms, ofText text = .ok c → Spells text (.object ms) → ∀ name v,
      c.get? name = some v ↔ ∃ j, Entries.IsLast name j ms ∧ j.Denotes v) ∧
    ∀ c : Context, ofText c.toJson.text = .ok c := by
  refine ⟨?_, fun c ms hc hspells name v => ?_, fun c => ?_⟩
  · constructor
    · rintro ⟨c, hc⟩
      obtain ⟨hread, hend⟩ := Json.readWhole_eq_ok_iff.1 hc
      obtain ⟨ms, hsaid, hall⟩ := exists_read_iff.1 ⟨c, hread⟩
      exact ⟨ms, Json.isText_iff.1 ⟨_, Prod.ext rfl hend, hsaid⟩, hall⟩
    · rintro ⟨ms, hspells, hall⟩
      obtain ⟨d, hd, hsaid⟩ := Json.isText_iff.2 hspells
      obtain ⟨c, hc⟩ := exists_read_iff.2 ⟨ms, hsaid, hall⟩
      exact ⟨c, Json.readWhole_eq_ok_iff.2 (by rw [hd]; exact ⟨hc, rfl⟩)⟩
  · -- whatever spelling is given, it is the one that was read
    obtain ⟨d, hd, hsaid⟩ := Json.isText_iff.2 hspells
    have hread := (Json.readWhole_eq_ok_iff.1 hc).1
    rw [hd] at hread
    exact get?_of_read_said hread hsaid
  · exact Json.readWhole_of_isText (Json.isText_text c.regular_toJson) fun d h => read_of_said h

/-- A name that is written a second time, by an escape, loses its first value. -/
theorem ofText_exact_overridden :
    let text := "\x7b \"a\": null, \"\\u0061\": -9223372036854775808 \x7d"
    ∃ c ms, ofText text = .ok c ∧ Spells text (.object ms) ∧
      ∃ j, Entries.IsLast "a" j ms ∧ j.Denotes (.number Int64.minValue) := by
  intro text
  let c : Context := .ofList [("a", .number Int64.minValue)]
  have hc : ofText text = .ok c := by decide +kernel
  have hget : c.get? "a" = some (.number Int64.minValue) := by decide +kernel
  obtain ⟨hread, hlast, -⟩ := ofText_exact text
  obtain ⟨ms, hspells, -⟩ := hread.1 ⟨c, hc⟩
  exact ⟨c, ms, hc, hspells, (hlast c ms hc hspells "a" _).1 hget⟩

end Context

end Rulebook
