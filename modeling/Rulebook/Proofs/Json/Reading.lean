import Rulebook.Json.Reader
import Rulebook.Proofs.Fallible
import Rulebook.Proofs.Json.Integers
import Rulebook.Proofs.Json.Saying

/-!
# Reading documents that say something known

What the readers of `Json.Reader` make of a document that says a given value. A reader never learns
more of a document than what it says, so each law here has the same form: whatever the document is,
if it says this value, then that is what is read.

* `readAny_of_said` gives a regular value back from any document that says it, if there is depth
  enough for it.
* `record_of_said` reads a record from the members that are there, one behind another, and
  `record_of_perm` does so whatever their order is.
-/

namespace Rulebook.Json

/-- No member is higher than the members together. -/
theorem height_le_of_mem {m : String × Json} {ms : List (String × Json)} (h : m ∈ ms) :
    m.2.height ≤ membersHeight ms := by
  induction ms with
  | nil => cases h
  | cons n ms ih =>
    rw [membersHeight]
    rcases List.mem_cons.1 h with rfl | h
    · exact Nat.le_max_left ..
    · exact Nat.le_trans (ih h) (Nat.le_max_right ..)

/-! ### Single values -/

/-- A text is read back. -/
theorem readText_of_said {d : Document} {s : String} (h : d.Says (.string s)) :
    readText d = .ok s := by
  cases h with
  | string hs => rw [readText, hs]

/-- A truth value is read back. -/
theorem readFlag_of_said {d : Document} {b : Bool} (h : d.Says (.boolean b)) :
    readFlag d = .ok b := by
  cases h
  rfl

/-- A signed word is read back. -/
theorem readInt64_of_said {d : Document} {i : Int64} (h : d.Says (.int i.toInt)) :
    readInt64 d = .ok i := by
  cases h with
  | number n =>
    -- the number is neither too large nor written in another way
    have hlarge := isTooLarge_int i rfl
    have hvalue := toInt?_int i rfl
    rw [readInt64, readInt, if_neg (by rw [hlarge]; exact Bool.false_ne_true), hvalue]
    dsimp only
    rw [if_pos ⟨Int64.minValue_le_toInt i, Int64.toInt_le i⟩]
    exact congrArg Except.ok (Int64.ofInt_toInt i)

/-- What is no `null` is read as a value that is there. -/
theorem readOptional_of_said {α : Type} {read : Document → Except Fault α} {d : Document}
    {v : Json} {a : α} (h : d.Says v) (hv : v ≠ .null) (hread : read d = .ok a) :
    readOptional read d = .ok (some a) := by
  cases h with
  | null => exact absurd rfl hv
  | _ => exact congrArg (Except.map some) hread

/-- One of several names is read from a text. -/
theorem readVariant_of_said {α : Type} {names : List (String × α)} {depth : Nat} {d : Document}
    {name : String} {a : α} (h : d.Says (.string name)) (ha : Entries.find? name names = some a) :
    readVariant depth names d = .ok a := by
  cases h with
  | string hs =>
    rw [readVariant, readName, readText, hs]
    dsimp only [bind, Except.bind]
    rw [ha]
    rfl

/-- If every document that says a value of one kind is read as it, then elements that say values of
the kind are read as these. -/
theorem readItems_of_said {α : Type} {read : Document → Except Fault α} {encode : α → Json}
    (hread : ∀ a d, d.Says (encode a) → read d = .ok a) {as : List α} {items : Items}
    (h : items.Says (as.map encode)) : readItems read items = .ok as := by
  induction as generalizing items with
  | nil =>
    cases h
    rfl
  | cons a as ih =>
    cases h with
    | more hhead htail =>
      rw [readItems, hread a _ hhead, ih htail]
      rfl

/-- A list is read from any document that says an array of its elements. -/
theorem readList_of_said {α : Type} {depth : Nat} {read : Nat → Document → Except Fault α}
    {encode : α → Json} (hread : ∀ a d, d.Says (encode a) → read depth d = .ok a) {as : List α}
    {d : Document} (h : d.Says (.array (as.map encode))) :
    readList (depth + 1) read d = .ok as := by
  cases h with
  | array hitems => exact readItems_of_said hread hitems

/-! ### Values of any shape -/

mutual

/-- A regular value is read from any document that says it, if it is no higher than the depth. -/
theorem readAny_of_said : ∀ {v : Json} {d : Document} {depth : Nat}, d.Says v → v.Regular →
    v.height ≤ depth → readAny depth d = .ok v
  | .null, _, _, .null, _, _ => by rw [readAny]
  | .boolean b, _, _, .boolean _, _, _ => by rw [readAny]
  | .number n, _, _, .number _, .number i hi, _ => by
    rw [readAny, isTooLarge_int i hi]
    rfl
  | .string s, _, _, .string hs, _, _ => by rw [readAny, hs]
  -- an array has some height, so there is depth left for its elements
  | .array vs, _, 0, .array _, _, hheight => by simp [height] at hheight
  | .array vs, _, depth + 1, .array hitems, .array hregular, hheight => by
    rw [height, Nat.add_le_add_iff_right] at hheight
    rw [readAny, readAnyItems_of_said hitems hregular hheight]
    rfl
  | .object ms, _, 0, .object _, _, hheight => by simp [height] at hheight
  -- no member replaces another one, as their names are different
  | .object ms, .object members, depth + 1, .object hmembers, .object hnames hregular, hheight => by
    rw [height, Nat.add_le_add_iff_right] at hheight
    have hread : readAnyMembers depth [] members = .ok ([] ++ ms) :=
      readAnyMembers_of_said hmembers hregular hheight hnames
    rw [readAny, hread]
    rfl

/-- Regular values are read from any elements that say them. -/
theorem readAnyItems_of_said : ∀ {vs : List Json} {items : Items} {depth : Nat}, items.Says vs →
    (∀ v ∈ vs, v.Regular) → itemsHeight vs ≤ depth → readAnyItems depth items = .ok vs
  | [], _, _, .done, _, _ => by rw [readAnyItems]
  | v :: vs, _, depth, .more hhead htail, hregular, hheight => by
    rw [itemsHeight, Nat.max_le] at hheight
    rw [readAnyItems, readAny_of_said hhead (hregular v List.mem_cons_self) hheight.1]
    dsimp only [bind, Except.bind]
    rw [readAnyItems_of_said htail (fun w hw => hregular w (List.mem_cons_of_mem v hw)) hheight.2]
    rfl

/-- Regular members with different names are read behind those that were found before. -/
theorem readAnyMembers_of_said : ∀ {ms : List (String × Json)} {members : Members} {depth : Nat}
    {found : List (String × Json)}, members.Says ms → (∀ m ∈ ms, m.2.Regular) →
    membersHeight ms ≤ depth → (Entries.names (found ++ ms)).Nodup →
    readAnyMembers depth found members = .ok (found ++ ms)
  | [], _, _, found, .done, _, _, _ => by rw [readAnyMembers, List.append_nil]
  | (name, v) :: ms, _, depth, found, .more hname hvalue htail, hregular, hheight, hnames => by
    rw [membersHeight, Nat.max_le] at hheight
    have hnew : name ∉ Entries.names found := Entries.not_mem_names_of_nodup hnames
    rw [List.append_cons] at hnames
    rw [readAnyMembers, hname]
    dsimp only
    rw [readAny_of_said hvalue (hregular _ List.mem_cons_self) hheight.1]
    dsimp only [bind, Except.bind]
    rw [Entries.set_of_not_mem hnew, readAnyMembers_of_said htail
      (fun m hm => hregular m (List.mem_cons_of_mem _ hm)) hheight.2 hnames, List.append_assoc,
      List.singleton_append]

end

/-! ### Records -/

variable {σ : Type} {slots : List (Slot σ)} (update : σ → String × Json → σ)

/-- A record is read from members with different names if each of them names a field whose value is
read from every document that says it, `update` being what the field makes of the record. What is
not required may be missing. -/
theorem recordOfMembers_of_said {seen : List String} {s : σ} {members : Members}
    {ms : List (String × Json)} (h : members.Says ms)
    (hread : ∀ m ∈ ms, ∃ slot, slots.find? (fun slot => slot.name = m.1) = some slot ∧
      ∀ s d, d.Says m.2 → slot.read s d = .ok (update s m))
    (hnames : (Entries.names ms).Nodup) (hseen : ∀ name ∈ Entries.names ms, name ∉ seen)
    (hrequired : ∀ slot ∈ slots, slot.presence = .required →
      slot.name ∈ seen ∨ slot.name ∈ Entries.names ms) :
    recordOfMembers slots seen s members = .ok (ms.foldl update s) := by
  -- the record is handed on from member to member, with the names that were seen
  induction ms generalizing seen s members with
  | nil =>
    cases h
    rw [recordOfMembers, if_pos]
    · rfl
    · -- at the end all that is required has been seen
      refine List.all_eq_true.2 fun slot hslot => ?_
      by_cases hp : slot.presence = .required
      · simpa [hp, Entries.names] using hrequired slot hslot hp
      · simp [hp]
  | cons m ms ih =>
    obtain ⟨name, v⟩ := m
    obtain ⟨hnew, hnames⟩ := List.nodup_cons.1 hnames
    obtain ⟨slot, hslot, hvalue⟩ := hread _ List.mem_cons_self
    cases h with
    | more hname hsaid htail =>
      have hunseen : name ∉ seen := hseen name List.mem_cons_self
      rw [recordOfMembers, hname]
      dsimp only
      rw [hslot]
      dsimp only
      rw [if_neg (by simpa using hunseen), hvalue s _ hsaid]
      -- the names that come are new again: they differ from this one, and from those before it
      refine ih htail (fun m hm => hread m (List.mem_cons_of_mem _ hm)) hnames (fun n hn => ?_)
        fun slot hslot hp => ?_
      · rw [List.mem_cons, not_or]
        exact ⟨fun he => hnew (he ▸ hn), hseen n (List.mem_cons_of_mem _ hn)⟩
      · -- what is required has been seen, is seen here, or comes later
        simpa [Entries.names, or_assoc, or_left_comm] using hrequired slot hslot hp

/-- A record is read from a document that says an object with its fields. -/
theorem record_of_said {depth : Nat} {slots : Nat → List (Slot σ)} {s : σ} {d : Document}
    {ms : List (String × Json)} (h : d.Says (.object ms))
    (hread : ∀ m ∈ ms, ∃ slot, (slots depth).find? (fun slot => slot.name = m.1) = some slot ∧
      ∀ s d, d.Says m.2 → slot.read s d = .ok (update s m))
    (hnames : (Entries.names ms).Nodup)
    (hrequired : ∀ slot ∈ slots depth, slot.presence = .required → slot.name ∈ Entries.names ms) :
    record (depth + 1) slots s d = .ok (ms.foldl update s) := by
  cases h with
  | object h =>
    exact recordOfMembers_of_said update h hread hnames (fun _ _ => List.not_mem_nil)
      fun slot hslot hp => .inr (hrequired slot hslot hp)

/-- If what the fields make of a record depends on their names alone and not on their order, the
record is the same whatever order the members have. -/
theorem record_of_names_perm {depth : Nat} {slots : Nat → List (Slot σ)} {s : σ} {d : Document}
    {ms : List (String × Json)} {names : List String} (take : σ → String → σ)
    (h : d.Says (.object ms)) (hperm : (Entries.names ms).Perm names)
    (hcomm : ∀ s n n', take (take s n) n' = take (take s n') n)
    (hread : ∀ m ∈ ms, ∃ slot, (slots depth).find? (fun slot => slot.name = m.1) = some slot ∧
      ∀ s d, d.Says m.2 → slot.read s d = .ok (take s m.1))
    (hnames : names.Nodup)
    (hrequired : ∀ slot ∈ slots depth, slot.presence = .required → slot.name ∈ names) :
    record (depth + 1) slots s d = .ok (names.foldl take s) := by
  rw [record_of_said (fun s m => take s m.1) h hread (hperm.nodup_iff.2 hnames)
    fun slot hslot hp => hperm.mem_iff.2 (hrequired slot hslot hp), ← List.foldl_map]
  exact congrArg Except.ok (hperm.foldl_eq' (fun n _ n' _ s => hcomm s n n') s)

/-- A record is read from every document that says an object with its fields, in any order. -/
theorem record_of_perm {depth : Nat} {slots : Nat → List (Slot σ)} {s : σ} {d : Document}
    {ms members : List (String × Json)} (take : σ → String → σ) (hperm : ms.Perm members)
    (h : d.Says (.object ms)) (hcomm : ∀ s n n', take (take s n) n' = take (take s n') n)
    (hread : ∀ m ∈ members, ∃ slot, (slots depth).find? (fun slot => slot.name = m.1) = some slot ∧
      ∀ s d, d.Says m.2 → slot.read s d = .ok (take s m.1))
    (hnames : (Entries.names members).Nodup)
    (hrequired : ∀ slot ∈ slots depth, slot.presence = .required →
      slot.name ∈ Entries.names members) :
    record (depth + 1) slots s d = .ok ((Entries.names members).foldl take s) :=
  record_of_names_perm take h (hperm.map Prod.fst) hcomm
    (fun m hm => hread m (hperm.mem_iff.1 hm)) hnames hrequired

/-! ### Texts -/

/-- What is read from every document that says a value is read from every text of the value. -/
theorem readWhole_of_isText {α : Type} {read : Document → Except Fault α} {v : Json} {a : α}
    {text : String} (htext : IsText v text) (hread : ∀ d, d.Says v → read d = .ok a) :
    readWhole read text = .ok a := by
  obtain ⟨d, hd, hsaid⟩ := htext
  rw [readWhole, hd]
  dsimp only
  rw [hread d hsaid]
  rfl

end Rulebook.Json
