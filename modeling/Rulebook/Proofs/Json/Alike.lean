import Mathlib.Data.List.Forall2
import Rulebook.Proofs.Json.Reading

/-!
# Documents that say one value are read alike

A character of a string may be spelled in several ways, so several documents say one value. No
reader can tell them apart: two documents that say one value are read with one result, faults
included, at any two depths that are enough for the value (`SaySame`).

This is proved for the readers of single values (`readText_congr`, `readOptional_congr`,
`readVariant_congr`). For records it has to be known of each field: `Slot.Alike` is what two fields
have to share, and `record_congr` is what follows for records of such fields. The readers of a field
inside two records may differ in the depth that is left to them.
-/

namespace Rulebook.Json

/-! ### Documents that say one value -/

mutual

/-- A document that says a value can be read to its end. -/
theorem isIntact_of_said : ∀ {v : Json} {d : Document}, d.Says v → d.isIntact = true
  | _, _, .null => rfl
  | _, _, .boolean _ => rfl
  | _, _, .number _ => rfl
  | _, _, .string _ => rfl
  | _, _, .array h => isIntact_of_saidItems h
  | _, _, .object h => isIntact_of_saidMembers h

/-- Elements that say values can be read to the end of the array. -/
theorem isIntact_of_saidItems : ∀ {vs : List Json} {items : Items}, items.Says vs →
    items.isIntact = true
  | _, _, .done => rfl
  | _, _, .more hhead htail => by
    rw [Items.isIntact, isIntact_of_said hhead, isIntact_of_saidItems htail, Bool.and_self]

/-- Members that say values can be read to the end of the object. -/
theorem isIntact_of_saidMembers : ∀ {ms : List (String × Json)} {members : Members},
    members.Says ms → members.isIntact = true
  | _, _, .done => rfl
  | _, _, .more _ hvalue htail => by
    rw [Members.isIntact, isIntact_of_said hvalue, isIntact_of_saidMembers htail]
    rfl

end

/-- The documents say one value, and both depths are enough for it. -/
def SaySame (depth depth' : Nat) (d d' : Document) : Prop :=
  ∃ v, d.Says v ∧ d'.Says v ∧ v.height ≤ depth ∧ v.height ≤ depth'

section Congruence

variable {α σ : Type} {depth depth' : Nat} {d d' : Document}

/-- The same is wrong with documents that say one value, if a value of another kind is due. -/
theorem mismatch_congr (h : SaySame depth depth' d d') : mismatch d = mismatch d' := by
  obtain ⟨v, hd, hd', -⟩ := h
  cases hd with
  -- two spellings of one text are both sound, although their pieces may differ
  | string hs =>
    cases hd' with
    | string hs' => rw [mismatch, mismatch, hs, hs']
  -- of every other kind only the kind is looked at
  | _ =>
    cases hd'
    rfl

/-- A text is read alike from documents that say one value. -/
theorem readText_congr (h : SaySame depth depth' d d') : readText d = readText d' := by
  have hmismatch := mismatch_congr h
  -- what they say is a text, or no document of the two is one
  obtain ⟨v, hd, hd', -⟩ := h
  cases hd with
  | string hs =>
    cases hd' with
    | string hs' => rw [readText, readText, hs, hs']
  | _ =>
    cases hd'
    exact congrArg Except.error hmismatch

/-- A value that may be `null` is read alike, if the value is. -/
theorem readOptional_congr {read read' : Document → Except Fault α}
    (h : SaySame depth depth' d d') (hread : read d = read' d') :
    readOptional read d = readOptional read' d' := by
  obtain ⟨v, hd, hd', -⟩ := h
  cases hd with
  -- both are `null`, or none of them is
  | null =>
    cases hd'
    rfl
  | _ =>
    cases hd'
    exact congrArg (Except.map some) hread

/-- One of several names is read alike from documents that say one value. -/
theorem readName_congr (names : List (String × α)) (h : SaySame depth depth' d d') :
    readName names d = readName names d' := by
  rw [readName, readName, readText_congr h]

/-- The name is read alike, and behind it the value decides alike. -/
theorem readVariant_object_congr {members members' : Members} {ms : List (String × Json)}
    (names : List (String × α)) (h : members.Says ms) (h' : members'.Says ms) :
    readVariant (depth + 1) names (.object members) =
      readVariant (depth' + 1) names (.object members') := by
  -- without a member the object stands for no name
  cases h with
  | done =>
    cases h'
    rfl
  | @more ps value tail name v ms hname hvalue htail =>
    cases h' with
    | @more ps' value' tail' _ _ _ hname' hvalue' htail' =>
      have hkey : readName names (.string ps) = readName names (.string ps') :=
        readName_congr names ⟨_, .string hname, .string hname', Nat.le_refl 0, Nat.le_refl 0⟩
      have hmismatch : mismatch value = mismatch value' :=
        mismatch_congr ⟨v, hvalue, hvalue', Nat.le_refl _, Nat.le_refl _⟩
      -- what follows is done with the name that both have read
      rw [readVariant, readVariant, if_neg (Nat.succ_ne_zero _), if_neg (Nat.succ_ne_zero _), hkey]
      refine congrArg _ (funext fun a => ?_)
      -- only behind `null` it matters whether another member follows
      cases hvalue with
      | null =>
        cases hvalue'
        cases htail <;> cases htail' <;> rfl
      | _ =>
        cases hvalue'
        exact congrArg Except.error hmismatch

/-- One of several names, in either form, is read alike from documents that say one value. -/
theorem readVariant_congr (names : List (String × α)) (h : SaySame depth depth' d d') :
    readVariant depth names d = readVariant depth' names d' := by
  have hname := readName_congr names h
  obtain ⟨v, hd, hd', hn, hn'⟩ := h
  cases hd with
  | string =>
    cases hd'
    exact hname
  -- an object has some height, so there is depth left for it on both sides
  | object hms =>
    cases hd' with
    | object hms' =>
      obtain ⟨n, -, rfl⟩ := Nat.exists_eq_add_of_le' hn
      obtain ⟨n', -, rfl⟩ := Nat.exists_eq_add_of_le' hn'
      exact readVariant_object_congr names hms hms'
  | _ =>
    cases hd'
    rfl

/-! ### Records of documents that say one value -/

/-- The fields have one name, may be left out alike, and read alike what says the same. -/
structure Slot.Alike (depth depth' : Nat) (slot slot' : Slot σ) : Prop where
  name : slot.name = slot'.name
  presence : slot.presence = slot'.presence
  read : ∀ s d d', SaySame depth depth' d d' → slot.read s d = slot'.read s d'

variable {slots slots' : List (Slot σ)} {s : σ}

/-- To a name both lists of fields have fields that are alike, or none. -/
theorem find?_alike (hslots : List.Forall₂ (Slot.Alike depth depth') slots slots') (name : String) :
    Option.Rel (Slot.Alike depth depth') (slots.find? fun slot => slot.name = name)
      (slots'.find? fun slot => slot.name = name) := by
  induction hslots with
  | nil => exact .none
  | cons hslot _ ih =>
    rw [List.find?_cons, List.find?_cons, hslot.name]
    split
    · exact .some hslot
    · exact ih

/-- What is required of the members is the same for both lists of fields. -/
theorem all_alike (hslots : List.Forall₂ (Slot.Alike depth depth') slots slots')
    (seen : List String) :
    (slots.all fun slot => slot.presence ≠ .required || seen.contains slot.name) =
      slots'.all fun slot => slot.presence ≠ .required || seen.contains slot.name := by
  induction hslots with
  | nil => rfl
  | cons hslot _ ih => rw [List.all_cons, List.all_cons, ih, hslot.name, hslot.presence]

/-- A record is read alike from the elements of arrays that say one value. -/
theorem recordOfItems_congr {vs : List Json} {items items' : Items}
    (hslots : List.Forall₂ (Slot.Alike depth depth') slots slots') (h : items.Says vs)
    (h' : items'.Says vs) (hn : itemsHeight vs ≤ depth) (hn' : itemsHeight vs ≤ depth') :
    recordOfItems slots s items = recordOfItems slots' s items' := by
  -- the fields are filled one after another, each from one element
  induction hslots generalizing vs items items' s with
  -- elements are left over on both sides, or on none
  | nil => cases h <;> cases h' <;> rfl
  | cons hslot _ ih =>
    cases h with
    -- an array that ends early ends early on both sides
    | done =>
      cases h'
      rw [recordOfItems, recordOfItems, hslot.presence, ih .done .done hn hn']
    | more hhead htail =>
      cases h' with
      | more hhead' htail' =>
        -- the depth is enough for the element in front and for the rest
        obtain ⟨hv, hvs⟩ := Nat.max_le.1 hn
        obtain ⟨hv', hvs'⟩ := Nat.max_le.1 hn'
        rw [recordOfItems, recordOfItems, hslot.read _ _ _ ⟨_, hhead, hhead', hv, hv'⟩]
        exact congrArg _ (funext fun _ => ih htail htail' hvs hvs')

/-- A record is read alike from the members of objects that say one value. -/
theorem recordOfMembers_congr {ms : List (String × Json)} {members members' : Members}
    {seen : List String} (hslots : List.Forall₂ (Slot.Alike depth depth') slots slots')
    (h : members.Says ms) (h' : members'.Says ms) (hn : membersHeight ms ≤ depth)
    (hn' : membersHeight ms ≤ depth') :
    recordOfMembers slots seen s members = recordOfMembers slots' seen s members' := by
  -- the induction is on what is said, along which both objects are read
  induction ms generalizing members members' seen s with
  | nil =>
    cases h
    cases h'
    -- at the end it is only asked whether everything that is required was there
    rw [recordOfMembers, recordOfMembers, all_alike hslots]
  | cons m ms ih =>
    obtain ⟨name, v⟩ := m
    obtain ⟨hv, hms⟩ := Nat.max_le.1 hn
    obtain ⟨hv', hms'⟩ := Nat.max_le.1 hn'
    cases h with
    | more hname hvalue htail =>
      cases h' with
      | more hname' hvalue' htail' =>
        rw [recordOfMembers, recordOfMembers, hname, hname']
        dsimp only
        -- the name is known to both, with fields that read alike, or to neither
        have hslot := find?_alike hslots name
        generalize slots.find? (fun slot => slot.name = name) = found at hslot ⊢
        generalize slots'.find? (fun slot => slot.name = name) = found' at hslot ⊢
        cases hslot with
        | none =>
          dsimp only
          rw [isIntact_of_said hvalue, isIntact_of_said hvalue', ih htail htail' hms hms']
        | some hslot =>
          dsimp only
          -- a name that has been seen before is a fault on both sides
          split
          · rfl
          · rw [hslot.read _ _ _ ⟨v, hvalue, hvalue', hv, hv'⟩]
            exact congrArg _ (funext fun _ => ih htail htail' hms hms')

/-- **A record is read alike from documents that say one value**, at any two depths that are enough
for it, if this is so of each field. -/
theorem record_congr {slots slots' : Nat → List (Slot σ)} (h : SaySame depth depth' d d')
    (hslots : ∀ n n', depth = n + 1 → depth' = n' + 1 →
      List.Forall₂ (Slot.Alike n n') (slots n) (slots' n')) :
    record depth slots s d = record depth' slots' s d' := by
  have hmismatch := mismatch_congr h
  obtain ⟨v, hd, hd', hn, hn'⟩ := h
  cases hd with
  -- arrays and objects have some height, so there is depth left for what is in them
  | array hvs =>
    cases hd' with
    | array hvs' =>
      obtain ⟨n, -, rfl⟩ := Nat.exists_eq_add_of_le' hn
      obtain ⟨n', -, rfl⟩ := Nat.exists_eq_add_of_le' hn'
      exact recordOfItems_congr (hslots _ _ rfl rfl) hvs hvs' (Nat.le_of_succ_le_succ hn)
        (Nat.le_of_succ_le_succ hn')
  | object hms =>
    cases hd' with
    | object hms' =>
      obtain ⟨n, -, rfl⟩ := Nat.exists_eq_add_of_le' hn
      obtain ⟨n', -, rfl⟩ := Nat.exists_eq_add_of_le' hn'
      exact recordOfMembers_congr (hslots _ _ rfl rfl) hms hms' (Nat.le_of_succ_le_succ hn)
        (Nat.le_of_succ_le_succ hn')
  -- anything else is no record
  | _ =>
    cases hd'
    exact congrArg Except.error hmismatch

end Congruence

end Rulebook.Json
