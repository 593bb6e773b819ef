import Rulebook.Proofs.Json.Reading

/-!
# What is known of what is read

A value that is read from a document is no higher than the depth at which it was read
(`height_le_of_readAny`), and the document says this value, unless some object in it has a name
twice (`says_of_readAny`): of such a name the value only keeps what came last.

A record takes in one field after another, so what holds before the first of them, and is kept by
each, holds of the record that is read (`record_invariant`). Nothing has to be known of the order in
which the fields come, or of names that are skipped.

Whatever is read as a text, as an optional value or as one of several names is read as a value of
some shape, too.
-/

namespace Rulebook.Json

/-! ### Names -/

/-- The name that a key is, if it can be read. -/
def Document.name? : Document → Option String
  | .string ps => text? ps
  | _ => none

/-- The names of members that can be read, in order. -/
def Members.names : Members → List String
  | .more key _ tail => key.name?.toList ++ tail.names
  | _ => []

/-- The value of the last member of that name. -/
def Members.last? (name : String) : Members → Option Document
  | .more key value tail =>
    (tail.last? name).or (if key.name? = some name then some value else none)
  | _ => none

mutual

/-- No object in the document has a name twice. -/
def Document.isDistinct : Document → Bool
  | .array items => items.isDistinct
  | .object members => decide members.names.Nodup && members.isDistinct
  | _ => true

/-- No object in the elements has a name twice. -/
def Items.isDistinct : Items → Bool
  | .more head tail => head.isDistinct && tail.isDistinct
  | _ => true

/-- No object in the values of the members has a name twice. -/
def Members.isDistinct : Members → Bool
  | .more _ value tail => value.isDistinct && tail.isDistinct
  | _ => true

end

/-! ### Values of any shape -/

theorem height_array_le {vs : List Json} {n : Nat} (h : itemsHeight vs ≤ n) :
    (Json.array vs).height ≤ n + 1 :=
  Nat.succ_le_succ h

theorem height_object_le {ms : List (String × Json)} {n : Nat} (h : membersHeight ms ≤ n) :
    (Json.object ms).height ≤ n + 1 :=
  Nat.succ_le_succ h

/-- A key in front of members that can be read is a name. -/
theorem exists_name_of_readAnyMembers {key value : Document} {tail : Members} {depth : Nat}
    {found ms : List (String × Json)}
    (h : readAnyMembers depth found (.more key value tail) = .ok ms) :
    ∃ ps name, key = .string ps ∧ text? ps = some name := by
  -- what is not a string, or no sound one, stops the reading at once
  cases key with
  | string ps =>
    rw [readAnyMembers] at h
    cases hname : text? ps with
    | none => rw [hname] at h; cases h
    | some name => exact ⟨ps, name, rfl, hname⟩
  | _ => cases h

/-- Setting a member leaves the members no higher than they and the new value were. -/
theorem membersHeight_set_le {name : String} {v : Json} {ms : List (String × Json)} {n : Nat}
    (hv : v.height ≤ n) (hms : membersHeight ms ≤ n) :
    membersHeight (Entries.set name v ms) ≤ n := by
  -- the new value replaces an old one or comes in at the end
  induction ms with
  | nil => exact Nat.max_le.2 ⟨hv, Nat.zero_le n⟩
  | cons m ms ih =>
    obtain ⟨hm, hms⟩ := Nat.max_le.1 hms
    rw [Entries.set]
    split
    · exact Nat.max_le.2 ⟨hv, hms⟩
    · exact Nat.max_le.2 ⟨hm, ih hms⟩

mutual

/-- What is read is no higher than the depth at which it is read. -/
theorem height_le_of_readAny : ∀ {d : Document} {depth : Nat} {v : Json},
    readAny depth d = .ok v → v.height ≤ depth
  | .unread, _, _, h => by cases h
  | .null, _, _, h => by cases h; exact Nat.zero_le _
  | .boolean _, _, _, h => by cases h; exact Nat.zero_le _
  | .number n, _, _, h => by
    rw [readAny] at h
    split at h
    · cases h
    · cases h
      exact Nat.zero_le _
  | .string ps, _, _, h => by
    rw [readAny] at h
    split at h
    · cases h
      exact Nat.zero_le _
    · cases h
  | .array _, 0, _, h => by cases h
  | .array items, depth + 1, _, h => by
    obtain ⟨vs, hvs, rfl⟩ := map_eq_ok_iff.1 h
    exact height_array_le (itemsHeight_le_of_readAnyItems hvs)
  | .object _, 0, _, h => by cases h
  | .object members, depth + 1, _, h => by
    obtain ⟨ms, hms, rfl⟩ := map_eq_ok_iff.1 h
    have hnil : membersHeight [] ≤ depth := Nat.zero_le depth
    exact height_object_le (membersHeight_le_of_readAnyMembers hnil hms)

/-- Elements that are read are no higher than the depth at which they are read. -/
theorem itemsHeight_le_of_readAnyItems : ∀ {items : Items} {depth : Nat} {vs : List Json},
    readAnyItems depth items = .ok vs → itemsHeight vs ≤ depth
  | .done, _, _, h => by cases h; exact Nat.zero_le _
  | .cut, _, _, h => by cases h
  | .more head tail, depth, _, h => by
    rw [readAnyItems] at h
    obtain ⟨v, hv, h⟩ := bind_eq_ok_iff.1 h
    obtain ⟨vs, hvs, h⟩ := bind_eq_ok_iff.1 h
    cases h
    exact Nat.max_le.2 ⟨height_le_of_readAny hv, itemsHeight_le_of_readAnyItems hvs⟩

/-- Members that are read are no higher than the depth at which they are read, if those found before
are not. -/
theorem membersHeight_le_of_readAnyMembers : ∀ {members : Members} {depth : Nat}
    {found ms : List (String × Json)}, membersHeight found ≤ depth →
    readAnyMembers depth found members = .ok ms → membersHeight ms ≤ depth
  | .done, _, _, _, hfound, h => by cases h; exact hfound
  | .cut, _, _, _, _, h => by cases h
  | .more key value tail, depth, found, _, hfound, h => by
    obtain ⟨ps, name, rfl, hname⟩ := exists_name_of_readAnyMembers h
    rw [readAnyMembers, hname] at h
    obtain ⟨v, hv, h⟩ := bind_eq_ok_iff.1 h
    exact membersHeight_le_of_readAnyMembers
      (membersHeight_set_le (height_le_of_readAny hv) hfound) h

end

mutual

/-- A document says the value that is read from it, if no object in it has a name twice. -/
theorem says_of_readAny : ∀ {d : Document} {depth : Nat} {v : Json},
    d.isDistinct = true → readAny depth d = .ok v → d.Says v
  | .unread, _, _, _, h => by cases h
  | .null, _, _, _, h => by cases h; exact .null
  | .boolean b, _, _, _, h => by cases h; exact .boolean b
  | .number n, _, _, _, h => by
    rw [readAny] at h
    split at h
    · cases h
    · cases h
      exact .number n
  | .string ps, _, _, _, h => by
    rw [readAny] at h
    split at h
    · next s hs =>
      cases h
      exact .string hs
    · cases h
  | .array _, 0, _, _, h => by cases h
  | .array items, depth + 1, _, hd, h => by
    rw [Document.isDistinct] at hd
    obtain ⟨vs, hvs, rfl⟩ := map_eq_ok_iff.1 h
    exact .array (says_of_readAnyItems hd hvs)
  | .object _, 0, _, _, h => by cases h
  | .object members, depth + 1, _, hd, h => by
    rw [Document.isDistinct, Bool.and_eq_true, decide_eq_true_eq] at hd
    obtain ⟨ms, hms, rfl⟩ := map_eq_ok_iff.1 h
    have hnames : (Entries.names ([] : List (String × Json)) ++ members.names).Nodup := hd.1
    obtain ⟨ms', rfl, hsaid⟩ := says_of_readAnyMembers hnames hd.2 hms
    exact .object hsaid

/-- Elements say the values that are read from them, if no object in them has a name twice. -/
theorem says_of_readAnyItems : ∀ {items : Items} {depth : Nat} {vs : List Json},
    items.isDistinct = true → readAnyItems depth items = .ok vs → items.Says vs
  | .done, _, _, _, h => by cases h; exact .done
  | .cut, _, _, _, h => by cases h
  | .more head tail, depth, _, hd, h => by
    rw [Items.isDistinct, Bool.and_eq_true] at hd
    rw [readAnyItems] at h
    obtain ⟨v, hv, h⟩ := bind_eq_ok_iff.1 h
    obtain ⟨vs, hvs, h⟩ := bind_eq_ok_iff.1 h
    cases h
    exact .more (says_of_readAny hd.1 hv) (says_of_readAnyItems hd.2 hvs)

/-- Members say what is read from them, which is added to what was found before, if no name comes
twice. -/
theorem says_of_readAnyMembers : ∀ {members : Members} {depth : Nat}
    {found ms : List (String × Json)}, (Entries.names found ++ members.names).Nodup →
    members.isDistinct = true → readAnyMembers depth found members = .ok ms →
    ∃ ms', ms = found ++ ms' ∧ members.Says ms'
  | .done, _, found, _, _, _, h => by
    cases h
    exact ⟨[], (List.append_nil found).symm, .done⟩
  | .cut, _, _, _, _, _, h => by cases h
  | .more key value tail, depth, found, _, hnames, hd, h => by
    rw [Members.isDistinct, Bool.and_eq_true] at hd
    obtain ⟨ps, name, rfl, hname⟩ := exists_name_of_readAnyMembers h
    rw [readAnyMembers, hname] at h
    obtain ⟨v, hv, h⟩ := bind_eq_ok_iff.1 h
    rw [Members.names, Document.name?, hname, Option.toList_some, List.singleton_append] at hnames
    -- the name is new, so it is added at the end
    have hnew : name ∉ Entries.names found := fun hmem =>
      (List.nodup_append.1 hnames).2.2 name hmem name List.mem_cons_self rfl
    rw [Entries.set_of_not_mem hnew] at h
    have htail : (Entries.names (found ++ [(name, v)]) ++ tail.names).Nodup := by
      rw [Entries.names, List.map_append, List.append_assoc]
      exact hnames
    obtain ⟨ms', rfl, hsaid⟩ := says_of_readAnyMembers htail hd.2 h
    exact ⟨(name, v) :: ms', List.append_assoc .., .more hname (says_of_readAny hd.1 hv) hsaid⟩

end

/-! ### Whole texts -/

/-- A whole text is read as its document is, if nothing follows the document. -/
theorem readWhole_eq_ok_iff {α : Type} {read : Document → Except Fault α} {text : String} {a : α} :
    readWhole read text = .ok a ↔
      read (Document.ofChars text.toList).1 = .ok a ∧ (Document.ofChars text.toList).2 = [] := by
  rw [readWhole]
  generalize Document.ofChars text.toList = r
  obtain ⟨d, rest⟩ := r
  dsimp only
  rw [bind_eq_ok_iff]
  -- what follows the document decides, once the document has been read
  cases rest with
  | nil =>
    constructor
    · rintro ⟨b, hb, h⟩
      cases h
      exact ⟨hb, rfl⟩
    · rintro ⟨ha, -⟩
      exact ⟨a, ha, rfl⟩
  | cons l rest =>
    constructor
    · rintro ⟨b, -, h⟩
      cases h
    · rintro ⟨-, h⟩
      cases h

/-! ### What is known of a record that is read -/

section Invariant

variable {σ : Type} {Inv : σ → Prop} {s s' : σ}

/-- What each field keeps, reading a record from elements keeps. -/
theorem recordOfItems_invariant {slots : List (Slot σ)} {items : Items} (hs : Inv s)
    (hread : ∀ slot ∈ slots, ∀ s d s', Inv s → slot.read s d = .ok s' → Inv s')
    (h : recordOfItems slots s items = .ok s') : Inv s' := by
  induction slots generalizing items s with
  | nil =>
    cases items with
    | done =>
      cases h
      exact hs
    | _ => cases h
  | cons slot slots ih =>
    obtain ⟨hslot, hslots⟩ := List.forall_mem_cons.1 hread
    cases items with
    | done =>
      rw [recordOfItems] at h
      split at h
      · exact ih hs hslots h
      · cases h
    | cut => cases h
    | more head tail =>
      rw [recordOfItems] at h
      obtain ⟨s₁, hs₁, h⟩ := bind_eq_ok_iff.1 h
      exact ih (hslot s head s₁ hs hs₁) hslots h

/-- A name in front of the members of a record is unknown, and its value is skipped, or it is that
of a field, which takes the value into the record and is seen from then on. -/
theorem recordOfMembers_more_eq_ok {slots : List (Slot σ)} {seen : List String}
    {key value : Document} {tail : Members}
    (h : recordOfMembers slots seen s (.more key value tail) = .ok s') :
    ∃ ps name, key = .string ps ∧ text? ps = some name ∧
      ((slots.find? (fun slot => slot.name = name) = none ∧
          recordOfMembers slots seen s tail = .ok s') ∨
        ∃ slot s₁, slots.find? (fun slot => slot.name = name) = some slot ∧
          slot.read s value = .ok s₁ ∧ recordOfMembers slots (name :: seen) s₁ tail = .ok s') := by
  cases key with
  | string ps =>
    rw [recordOfMembers] at h
    -- the key has to be a sound string
    cases hname : text? ps with
    | none =>
      rw [hname] at h
      cases h
    | some name =>
      refine ⟨ps, name, rfl, hname, ?_⟩
      rw [hname] at h
      dsimp only at h
      -- the name is looked up before the value is read
      cases hslot : slots.find? (fun slot => slot.name = name) with
      | none =>
        rw [hslot] at h
        dsimp only at h
        -- the value of an unknown name only has to be sound
        split at h
        · exact .inl ⟨rfl, h⟩
        · cases h
      | some slot =>
        rw [hslot] at h
        dsimp only at h
        -- a name that was seen before stops the reading
        split at h
        · cases h
        · obtain ⟨s₁, hs₁, h⟩ := bind_eq_ok_iff.1 h
          exact .inr ⟨slot, s₁, rfl, hs₁, h⟩
  | _ => cases h

/-- What each field keeps, reading a record from members keeps. -/
theorem recordOfMembers_invariant {slots : List (Slot σ)}
    (hread : ∀ slot ∈ slots, ∀ s d s', Inv s → slot.read s d = .ok s' → Inv s') :
    ∀ {members : Members} {seen : List String} {s : σ}, Inv s →
      recordOfMembers slots seen s members = .ok s' → Inv s'
  | .done, _, _, hs, h => by
    rw [recordOfMembers] at h
    split at h
    · cases h
      exact hs
    · cases h
  | .cut, _, _, _, h => by cases h
  | .more key value tail, _, _, hs, h => by
    obtain ⟨_, _, -, -, ⟨-, htail⟩ | ⟨slot, s₁, hslot, hs₁, htail⟩⟩ := recordOfMembers_more_eq_ok h
    · exact recordOfMembers_invariant hread hs htail
    · exact recordOfMembers_invariant hread
        (hread slot (List.mem_of_find?_eq_some hslot) _ _ _ hs hs₁) htail

/-- What holds before any field has been read, and is kept by the reader of each field, holds of
every record that is read. -/
theorem record_invariant (Inv : σ → Prop) {depth : Nat} {slots : Nat → List (Slot σ)}
    {d : Document} (hs : Inv s)
    (hread : ∀ n, depth = n + 1 → ∀ slot ∈ slots n, ∀ s d s', Inv s → slot.read s d = .ok s' →
      Inv s')
    (h : record depth slots s d = .ok s') : Inv s' := by
  -- an array and an object are read into the record, and anything else is none
  cases d with
  | array items =>
    cases depth with
    | zero => cases h
    | succ n => exact recordOfItems_invariant hs (hread n rfl) h
  | object members =>
    cases depth with
    | zero => cases h
    | succ n => exact recordOfMembers_invariant (hread n rfl) hs h
  | _ => cases h

end Invariant

/-! ### Whatever is read with a shape in mind is read without one -/

/-- What is there is read by itself. -/
theorem readOptional_eq_ok_some {α : Type} {read : Document → Except Fault α} {d : Document} {a : α}
    (h : readOptional read d = .ok (some a)) : read d = .ok a := by
  cases d with
  | null => cases h
  | _ =>
    obtain ⟨b, hb, hsome⟩ := map_eq_ok_iff.1 h
    cases hsome
    exact hb

/-- What is read as a text is a string with sound pieces. -/
theorem readText_eq_ok_iff {d : Document} {s : String} :
    readText d = .ok s ↔ ∃ ps, d = .string ps ∧ text? ps = some s := by
  constructor
  · intro h
    cases d with
    | string ps =>
      rw [readText] at h
      cases hs : text? ps with
      | none =>
        rw [hs] at h
        cases h
      | some s' =>
        rw [hs] at h
        cases h
        exact ⟨ps, rfl, hs⟩
    | _ => cases h
  · rintro ⟨ps, rfl, hs⟩
    rw [readText, hs]

/-- What is read as a text is read as a value of any shape. -/
theorem readAny_of_readText {d : Document} {s : String} {depth : Nat} (h : readText d = .ok s) :
    readAny depth d = .ok (.string s) := by
  obtain ⟨ps, rfl, hs⟩ := readText_eq_ok_iff.1 h
  rw [readAny, hs]

/-- What is read as a value that may be `null` is read as a value of any shape, if what is no `null`
is. -/
theorem exists_readAny_of_readOptional {α : Type} {read : Document → Except Fault α} {d : Document}
    {o : Option α} {depth : Nat} (hread : ∀ a, read d = .ok a → ∃ v, readAny depth d = .ok v)
    (h : readOptional read d = .ok o) : ∃ v, readAny depth d = .ok v := by
  cases d with
  | null => exact ⟨.null, by rw [readAny]⟩
  | _ =>
    obtain ⟨a, ha, -⟩ := map_eq_ok_iff.1 h
    exact hread a ha

/-- What is read as one of several names is read as a value of any shape, whichever form it has. -/
theorem exists_readAny_of_readVariant {α : Type} {names : List (String × α)} {d : Document} {a : α}
    {depth : Nat} (h : readVariant depth names d = .ok a) : ∃ v, readAny depth d = .ok v := by
  cases d with
  -- the name by itself
  | string ps =>
    obtain ⟨s, hs, -⟩ := bind_eq_ok_iff.1 h
    exact ⟨_, readAny_of_readText hs⟩
  -- the name as the only key of an object
  | object members =>
    cases depth with
    | zero => cases h
    | succ n =>
      cases members with
      | more key value tail =>
        rw [readVariant, if_neg (Nat.succ_ne_zero n)] at h
        obtain ⟨b, hb, hrest⟩ := bind_eq_ok_iff.1 h
        obtain ⟨s, hs, -⟩ := bind_eq_ok_iff.1 hb
        obtain ⟨ps, rfl, hname⟩ := readText_eq_ok_iff.1 hs
        -- behind the name there is only `null`
        cases value with
        | null =>
          cases tail with
          | done => exact ⟨.object [(s, .null)], by
              rw [readAny, readAnyMembers, hname]
              rfl⟩
          | _ => cases hrest
        | _ => cases hrest
      | _ => cases h
  | _ => cases h

end Rulebook.Json
