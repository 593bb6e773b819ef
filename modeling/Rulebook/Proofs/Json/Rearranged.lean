import Rulebook.Proofs.Json.Reading

/-!
# The order of members

Two values are *rearranged* (`Rearranged`) if they are the same but for the order in which their
objects, on every level, have their members. Whoever keeps a value by the names of its members sends
it on in an order of his own, so this is what can be expected of a value that comes back.

A reader of records asks for members by their names and cannot tell such values apart: a record is
read from every document that says a rearranged object (`record_of_rearranged`), if each field is
read from every document that says a rearranged value. So a rearranged value costs a reader nothing,
and it is as regular and as high as the value itself (`Rearranged.regular`, `Rearranged.height_eq`).
-/

namespace Rulebook.Json

mutual

/-- The values are the same but for the order in which objects have their members. -/
inductive Rearranged : Json → Json → Prop
  | null : Rearranged .null .null
  | boolean (b : Bool) : Rearranged (.boolean b) (.boolean b)
  | number (n : Numeral) : Rearranged (.number n) (.number n)
  | string (s : String) : Rearranged (.string s) (.string s)
  | array {vs ws : List Json} (h : ItemsRearranged vs ws) : Rearranged (.array vs) (.array ws)
  | object {ms ns ns' : List (String × Json)} (h : MembersRearranged ms ns) (hperm : ns.Perm ns') :
      Rearranged (.object ms) (.object ns')

/-- The elements are rearranged, each in its place. -/
inductive ItemsRearranged : List Json → List Json → Prop
  | nil : ItemsRearranged [] []
  | cons {v w : Json} {vs ws : List Json} (h : Rearranged v w) (hs : ItemsRearranged vs ws) :
      ItemsRearranged (v :: vs) (w :: ws)

/-- The values of the members are rearranged, under the same names in the same order. -/
inductive MembersRearranged : List (String × Json) → List (String × Json) → Prop
  | nil : MembersRearranged [] []
  | cons {name : String} {v w : Json} {ms ns : List (String × Json)} (h : Rearranged v w)
      (hs : MembersRearranged ms ns) : MembersRearranged ((name, v) :: ms) ((name, w) :: ns)

end

mutual

/-- No value has to be rearranged. -/
theorem Rearranged.refl : ∀ v : Json, Rearranged v v
  | .null => .null
  | .boolean b => .boolean b
  | .number n => .number n
  | .string s => .string s
  | .array vs => .array (ItemsRearranged.refl vs)
  | .object ms => .object (MembersRearranged.refl ms) (.refl ms)

theorem ItemsRearranged.refl : ∀ vs : List Json, ItemsRearranged vs vs
  | [] => .nil
  | v :: vs => .cons (Rearranged.refl v) (ItemsRearranged.refl vs)

theorem MembersRearranged.refl : ∀ ms : List (String × Json), MembersRearranged ms ms
  | [] => .nil
  | (_, v) :: ms => .cons (Rearranged.refl v) (MembersRearranged.refl ms)

end

/-! ### What rearranged values share -/

/-- Under rearranged values the names stay in place. -/
theorem MembersRearranged.names_eq {ms ns : List (String × Json)} (h : MembersRearranged ms ns) :
    Entries.names ms = Entries.names ns := by
  induction ms generalizing ns with
  | nil =>
    cases h
    rfl
  | cons m ms ih =>
    cases h with
    | cons _ hs => exact congrArg (_ :: ·) (ih hs)

/-- Each member has its counterpart, which has the same name. -/
theorem MembersRearranged.exists_of_mem {ms ns : List (String × Json)}
    (h : MembersRearranged ms ns) {m : String × Json} (hm : m ∈ ms) :
    ∃ w, (m.1, w) ∈ ns ∧ m.2.Rearranged w := by
  induction ms generalizing ns with
  | nil => cases hm
  | cons n ms ih =>
    cases h with
    | cons hv hs =>
      rcases List.mem_cons.1 hm with rfl | hm
      · exact ⟨_, List.mem_cons_self, hv⟩
      · obtain ⟨w, hmem, hw⟩ := ih hs hm
        exact ⟨w, List.mem_cons_of_mem _ hmem, hw⟩

mutual

/-- What is rearranged from a regular value is regular. -/
theorem Rearranged.regular : ∀ {v w : Json}, v.Rearranged w → w.Regular → v.Regular
  | _, _, .null, h => h
  | _, _, .boolean _, h => h
  | _, _, .number _, h => h
  | _, _, .string _, h => h
  | _, _, .array hs, .array h => .array (hs.regular h)
  | _, _, .object hs hperm, .object hnames h => by
    -- the names are permuted, so they are different still
    have hnamesPerm := (hperm.map Prod.fst).nodup_iff.2 hnames
    refine .object ?_ (hs.regular fun n hn => h n (hperm.mem_iff.1 hn))
    rw [hs.names_eq]
    exact hnamesPerm

/-- What is rearranged from regular elements is regular. -/
theorem ItemsRearranged.regular : ∀ {vs ws : List Json}, ItemsRearranged vs ws →
    (∀ w ∈ ws, w.Regular) → ∀ v ∈ vs, v.Regular
  | _, _, .nil, _ => List.forall_mem_nil _
  | _, _, .cons hv hs, h => List.forall_mem_cons.2
    ⟨hv.regular (h _ List.mem_cons_self), hs.regular fun w hw => h w (List.mem_cons_of_mem _ hw)⟩

/-- What is rearranged under the names of regular members is regular. -/
theorem MembersRearranged.regular : ∀ {ms ns : List (String × Json)}, MembersRearranged ms ns →
    (∀ n ∈ ns, n.2.Regular) → ∀ m ∈ ms, m.2.Regular
  | _, _, .nil, _ => List.forall_mem_nil _
  | _, _, .cons hv hs, h => List.forall_mem_cons.2
    ⟨hv.regular (h _ List.mem_cons_self), hs.regular fun n hn => h n (List.mem_cons_of_mem _ hn)⟩

end

/-- The order of members does not matter for their height. -/
theorem membersHeight_perm {ms ns : List (String × Json)} (h : ms.Perm ns) :
    membersHeight ms = membersHeight ns := by
  induction h with
  | nil => rfl
  | cons m _ ih => rw [membersHeight, membersHeight, ih]
  | swap m n ms => exact Nat.max_left_comm ..
  | trans _ _ ih ih' => exact ih.trans ih'

mutual

/-- Rearranged values are of one height. -/
theorem Rearranged.height_eq : ∀ {v w : Json}, v.Rearranged w → v.height = w.height
  | _, _, .null => rfl
  | _, _, .boolean _ => rfl
  | _, _, .number _ => rfl
  | _, _, .string _ => rfl
  | _, _, .array hs => congrArg (· + 1) hs.height_eq
  | _, _, .object hs hperm => congrArg (· + 1) (hs.height_eq.trans (membersHeight_perm hperm))

/-- Rearranged elements are of one height. -/
theorem ItemsRearranged.height_eq : ∀ {vs ws : List Json}, ItemsRearranged vs ws →
    itemsHeight vs = itemsHeight ws
  | _, _, .nil => rfl
  | _, _, .cons hv hs => by rw [itemsHeight, itemsHeight, hv.height_eq, hs.height_eq]

/-- Members with rearranged values are of one height. -/
theorem MembersRearranged.height_eq : ∀ {ms ns : List (String × Json)}, MembersRearranged ms ns →
    membersHeight ms = membersHeight ns
  | _, _, .nil => rfl
  | _, _, .cons hv hs => by rw [membersHeight, membersHeight, hv.height_eq, hs.height_eq]

end

/-! ### Records -/

/-- A record is read from every document that says an object with its fields, in whatever order the
object and the values in it have their members. `update` is what a field makes of the record; it may
depend on the name of the field only, and not on what came before. -/
theorem record_of_rearranged {σ : Type} {depth : Nat} {slots : Nat → List (Slot σ)} {s : σ}
    {d : Document} {v : Json} {members : List (String × Json)} (update : σ → String → σ)
    (h : d.Says v) (hv : v.Rearranged (.object members))
    (hcomm : ∀ s n n', update (update s n) n' = update (update s n') n)
    (hread : ∀ m ∈ members, ∃ slot, (slots depth).find? (fun slot => slot.name = m.1) = some slot ∧
      ∀ s d w, d.Says w → w.Rearranged m.2 → slot.read s d = .ok (update s m.1))
    (hnames : (Entries.names members).Nodup)
    (hrequired : ∀ slot ∈ slots depth, slot.presence = .required →
      slot.name ∈ Entries.names members) :
    record (depth + 1) slots s d = .ok ((Entries.names members).foldl update s) := by
  cases hv with
  | @object ms ns _ hs hperm =>
    -- the names that are met are those of the fields, in another order
    have hnamesPerm : (Entries.names ms).Perm (Entries.names members) :=
      hs.names_eq ▸ hperm.map Prod.fst
    refine record_of_names_perm update h hnamesPerm hcomm (fun m hm => ?_) hnames hrequired
    -- a member is read as its counterpart is
    obtain ⟨w, hmem, hw⟩ := hs.exists_of_mem hm
    obtain ⟨slot, hslot, hvalue⟩ := hread _ (hperm.mem_iff.1 hmem)
    exact ⟨slot, hslot, fun s d hd => hvalue s d _ hd hw⟩

end Rulebook.Json
