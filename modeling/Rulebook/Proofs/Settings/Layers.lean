import Mathlib.Data.List.Induction
import Rulebook.Proofs.Settings.Paths

/-!
# Layers over one another

What a layer sets is what it leads to when it is laid over nothing (`sets?`). Laid over other layers
it sets just that, and leaves the rest to them: what is read in the end is read from the last layer
that sets it (`lastSets_of_layers`). Settings of one name do not bear on those of another, so a
section may have its settings from several layers.

This is so of whatever can be told from a setting by itself. Within a setting that is no section
lists of several layers are mixed, and tables are. What is read from a setting of a known kind is
never read from such a mixture (`ReadsSingle`): lists are not read at all, and of tables only those
with one name.

The proof compares, entry by entry, the layer over nothing with the layer over the others
(`LaidOver`). A layer that sets a section to something that is no table would cut off what is in
it, so entries have to keep sections (`KeepsTables`).
-/

namespace Rulebook.Setting

variable {lower upper result : Option Setting} {p : List String} {q : List Step} {v : Setting}

/-- `result` is what comes of what names lead to in one setting and in another that is laid over
the first, as far as it can be told from the outside. -/
inductive LaidOver (lower : Option Setting) : Option Setting → Option Setting → Prop
  /-- Nothing above leaves what is below. -/
  | nothing : LaidOver lower none lower
  /-- What is no table replaces what is below. -/
  | single {s : Setting} (h : ¬ s.IsTable) : LaidOver lower (some s) (some s)
  /-- The items of lists may be mixed. -/
  | list (ss ss' : List Setting) : LaidOver lower (some (.list ss)) (some (.list ss'))
  /-- A table may gain names from below, and without a name of its own it adds nothing. -/
  | table {es es' : List (String × Setting)} (hnodup : (Entries.names es).Nodup)
      (hnames : Entries.names es ⊆ Entries.names es')
      (hempty : es = [] → es' = [] ∨ lower = some (.table es')) :
      LaidOver lower (some (.table es)) (some (.table es'))

namespace LaidOver

/-! ### Entry by entry -/

/-- Names that are there above are there in the result. -/
theorem names_subset (h : LaidOver lower upper result) :
    Entries.names (upper.getD .nil).entries ⊆ Entries.names (result.getD .nil).entries := by
  cases h with
  | nothing => exact List.nil_subset _
  | single => exact List.Subset.refl _
  | list => exact List.nil_subset _
  | table _ hnames _ => exact hnames

/-- Names above are different. -/
theorem nodup_names (h : LaidOver lower upper result) :
    (Entries.names (upper.getD .nil).entries).Nodup := by
  cases h with
  | nothing => exact List.nodup_nil
  | @single s h =>
    cases s with
    | table es => exact absurd ⟨es, rfl⟩ h
    | _ => exact List.nodup_nil
  | list => exact List.nodup_nil
  | table hnodup _ _ => exact hnodup

/-- Where there are no names above, there are none in the result, or those from below. -/
theorem entries_of_empty (h : LaidOver lower upper result)
    (hupper : (upper.getD .nil).entries = []) :
    (result.getD .nil).entries = [] ∨ lower = some (.table (result.getD .nil).entries) := by
  cases h with
  | nothing =>
    cases lower with
    | none => exact .inl rfl
    | some s =>
      cases s with
      | table es => exact .inr rfl
      | _ => exact .inl rfl
  | single => exact .inl hupper
  | list => exact .inl rfl
  | table _ _ hempty => exact hempty hupper

/-- A setting that is laid over both sides, or put somewhere into both. -/
theorem change (h : LaidOver lower upper result) (q : List Step) (v : Setting) :
    LaidOver lower (some (change (fun x => overlay x v) q (upper.getD .nil)))
      (some (Setting.change (fun x => overlay x v) q (result.getD .nil))) := by
  cases q with
  | nil =>
    by_cases hv : v.IsTable
    · -- a table is laid over both sides, entry by entry
      obtain ⟨es, rfl⟩ := hv
      simp only [Setting.change, overlay]
      refine .table (nodup_names_overlayEntries h.nodup_names) (fun n hn => ?_) fun hempty => ?_
      · rw [mem_names_overlayEntries] at hn ⊢
        exact hn.imp_left fun hn => h.names_subset hn
      · -- a table without names is laid over a setting without names
        have hnone : ∀ n,
            ¬ (n ∈ Entries.names (upper.getD .nil).entries ∨ n ∈ Entries.names es) := by
          intro n hn
          rw [← mem_names_overlayEntries, hempty] at hn
          cases hn
        obtain rfl : es = [] := List.map_eq_nil_iff.1
          (List.eq_nil_iff_forall_not_mem.2 fun n hn => hnone n (.inr hn))
        have hupper : (upper.getD .nil).entries = [] := List.map_eq_nil_iff.1
          (List.eq_nil_iff_forall_not_mem.2 fun n hn => hnone n (.inl hn))
        rw [overlayEntries]
        exact h.entries_of_empty hupper
    · -- what is no table replaces both sides
      simp only [Setting.change, overlay_of_not_isTable hv]
      exact .single hv
  | cons step q =>
    cases step with
    | key n =>
      refine .table (Entries.nodup_names_set h.nodup_names) (fun m hm => ?_) fun hempty => ?_
      · rw [Entries.mem_names_set] at hm ⊢
        exact hm.imp_right fun hm => h.names_subset hm
      · -- a name that is set is there
        have hn : n ∈ Entries.names ([] : List (String × Setting)) :=
          hempty ▸ Entries.mem_names_set.2 (.inl rfl)
        cases hn
    -- the items of a list may come out in any way
    | index i => exact .list _ _

end LaidOver

/-- What names lead to in a setting that need not be there. -/
theorem bind_at?_cons (name : String) (p : List String) (o : Option Setting) :
    o >>= at? (name :: p) = Entries.find? name (o.getD .nil).entries >>= at? p := by
  cases o <;> rfl

/-- If what names lead to is laid over something, so it is when a setting is put into both sides by
a path that keeps the tables on the way. -/
theorem laidOver_change (hkeeps : KeepsTables p q v)
    (h : LaidOver lower (upper >>= at? p) (result >>= at? p)) :
    LaidOver lower (at? p (change (fun x => overlay x v) q (upper.getD .nil)))
      (at? p (change (fun x => overlay x v) q (result.getD .nil))) := by
  induction p generalizing q v upper result with
  | nil =>
    have h : LaidOver lower upper result := by simpa [at?] using h
    exact h.change q v
  | cons name p ih =>
    -- a path that begins with a name leads there or elsewhere
    have hkey : ∀ n q v (u r : Option Setting), (n = name → KeepsTables p q v) →
        LaidOver lower (u >>= at? (name :: p)) (r >>= at? (name :: p)) →
        LaidOver lower (at? (name :: p) (change (fun x => overlay x v) (.key n :: q) (u.getD .nil)))
          (at? (name :: p) (change (fun x => overlay x v) (.key n :: q) (r.getD .nil))) := by
      intro n q v u r hkeeps h
      rw [bind_at?_cons, bind_at?_cons] at h
      by_cases hn : n = name
      · subst hn
        rw [at?, find?_entries_change_self, at?, find?_entries_change_self]
        exact ih (hkeeps rfl) h
      · rw [at?, find?_entries_change_of_ne hn, at?, find?_entries_change_of_ne hn]
        exact h
    cases q with
    | nil =>
      -- a table is laid over one name after another
      obtain ⟨es, rfl, hkeeps⟩ := hkeeps
      rw [bind_at?_cons, bind_at?_cons] at h
      have hfold : ∀ u r : Setting, LaidOver lower (at? (name :: p) u) (at? (name :: p) r) →
          LaidOver lower
            (at? (name :: p) (es.foldl
              (fun s e => change (fun x => overlay x e.2) [.key e.1] s) u))
            (at? (name :: p) (es.foldl
              (fun s e => change (fun x => overlay x e.2) [.key e.1] s) r)) := by
        clear h
        induction es with
        | nil => exact fun _ _ h => h
        | cons e es ihes =>
          intro u r h
          rw [List.foldl_cons, List.foldl_cons]
          exact ihes (fun e' he' => hkeeps e' (List.mem_cons_of_mem e he')) _ _
            (hkey e.1 [] e.2 (some u) (some r) (hkeeps e List.mem_cons_self) h)
      simp only [change, overlay_table]
      exact hfold _ _ h
    | cons step q =>
      cases step with
      | key n => exact hkey n q v upper result hkeeps h
      | index i => exact hkeeps.elim

/-! ### Layer by layer -/

/-- The steps that the name of an entry stands for. -/
def stepsOf (name : String) : List Step :=
  (pathOf? name).getD [.key name]

/-- The setting that a layer sets where the names lead to. A table without names is merged into what
is below and sets nothing. -/
def sets? (p : List String) (es : List (String × Setting)) : Option Setting :=
  match at? p (layer (.table []) es) with
  | some (.table []) => none
  | o => o

/-- The last of the layers that sets something where the names lead to sets `v`. -/
def LastSets (p : List String) (layers : List (List (String × Setting))) (v : Setting) : Prop :=
  ∃ before es after, layers = before ++ es :: after ∧ sets? p es = some v ∧
    ∀ es' ∈ after, sets? p es' = none

/-- What is read from settings of this kind is never read from a list, and is read from a table only
if it has one name, whatever stands under the name. -/
structure ReadsSingle {α : Type} (convert : Setting → Option α) : Prop where
  list : ∀ ss, convert (.list ss) = none
  table : ∀ {es a}, convert (.table es) = some a →
    ∃ name v, es = [(name, v)] ∧ ∀ v', convert (.table [(name, v')]) = some a

theorem readsSingle_toText? : ReadsSingle toText? :=
  ⟨fun _ => rfl, nofun⟩

theorem readsSingle_toFlag? : ReadsSingle toFlag? :=
  ⟨fun _ => rfl, nofun⟩

theorem readsSingle_toNatBelow? (bound : Nat) : ReadsSingle (toNatBelow? bound) :=
  ⟨fun _ => rfl, nofun⟩

/-- One of several names is read from a single setting, which may be a table with the name in it. -/
theorem readsSingle_toNamed? {α : Type} (names : List (String × α)) :
    ReadsSingle (toNamed? names) where
  list _ := rfl
  table {es a} h := by
    match es, h with
    | [(name, v)], h => exact ⟨name, v, rfl, fun _ => h⟩

variable {es : List (String × Setting)} {layers : List (List (String × Setting))} {base r : Setting}

/-- A layer over other settings sets what it sets over nothing. -/
theorem laidOver_layer (base : Setting) (hp : p ≠ [])
    (hkeeps : ∀ e ∈ es, KeepsTables p (stepsOf e.1) e.2) :
    LaidOver (at? p base) (at? p (layer (.table []) es)) (at? p (layer base es)) := by
  -- the entries are put into both sides, one after the other
  have hfold : ∀ u r : Setting, LaidOver (at? p base) (at? p u) (at? p r) →
      LaidOver (at? p base) (at? p (layer u es)) (at? p (layer r es)) := by
    induction es with
    | nil => exact fun _ _ h => h
    | cons e es ih =>
      intro u r h
      have hput : LaidOver (at? p base) (at? p (putEntry u e)) (at? p (putEntry r e)) :=
        laidOver_change (hkeeps e List.mem_cons_self)
          (show LaidOver (at? p base) (some u >>= at? p) (some r >>= at? p) from h)
      exact ih (fun e' he' => hkeeps e' (List.mem_cons_of_mem e he')) _ _ hput
  refine hfold _ _ ?_
  cases p with
  -- at first there is nothing above
  | nil => exact absurd rfl hp
  | cons name p => exact .nothing

/-- A layer sets what it has there, unless it is a table without names. -/
theorem sets?_eq_some_iff : sets? p es = some v ↔
    at? p (layer (.table []) es) = some v ∧ v ≠ .table [] := by
  unfold sets?
  split
  · next h =>
    rw [h]
    constructor
    · intro h
      cases h
    · rintro ⟨h, hne⟩
      exact absurd (Option.some.inj h).symm hne
  · next h =>
    constructor
    · intro hv
      refine ⟨hv, fun hempty => h ?_⟩
      rw [hv, hempty]
    · exact fun h => h.1

/-- A layer sets nothing if it has nothing there, or a table without names. -/
theorem sets?_eq_none_iff : sets? p es = none ↔ at? p (layer (.table []) es) = none ∨
    at? p (layer (.table []) es) = some (.table []) := by
  unfold sets?
  split
  · next h => simp [h]
  · next h => exact (or_iff_left h).symm

/-! ### One layer after another -/

variable {α : Type} {convert : Setting → Option α} {a : α}

/-- What is read from the result of laying a setting over another is read from the upper one alone,
unless there is nothing above. -/
theorem ReadsSingle.of_laidOver (hconvert : ReadsSingle convert) (h : LaidOver lower upper result)
    (hread : ∀ r, result = some r → convert r = some a) :
    (∃ u, upper = some u ∧ u ≠ .table [] ∧ convert u = some a) ∨
      ((upper = none ∨ upper = some (.table [])) ∧ lower = result) := by
  cases h with
  | nothing => exact .inr ⟨.inl rfl, rfl⟩
  -- what is above has replaced what was below
  | @single s hs => exact .inl ⟨s, rfl, fun hempty => hs ⟨[], hempty⟩, hread s rfl⟩
  -- nothing of this kind is read from a list
  | list ss ss' =>
    have hlist := hread _ rfl
    rw [hconvert.list] at hlist
    cases hlist
  | @table es es' hnodup hnames hempty =>
    obtain ⟨name, v, rfl, hany⟩ := hconvert.table (hread _ rfl)
    cases es with
    | nil => exact .inr ⟨.inr rfl, (hempty rfl).resolve_left (List.cons_ne_nil _ _)⟩
    | cons e es =>
      -- the one name that is there in the result is the only one above
      have hname : ∀ n ∈ Entries.names (e :: es), n = name := fun n hn => by
        simpa [Entries.names] using hnames hn
      obtain rfl : es = [] := by
        cases es with
        | nil => rfl
        | cons e' es =>
          have he := hname e.1 List.mem_cons_self
          have he' := hname e'.1 (List.mem_cons_of_mem _ List.mem_cons_self)
          exact absurd (he'.trans he.symm ▸ List.mem_cons_self) (List.nodup_cons.1 hnodup).1
      obtain ⟨n, v'⟩ := e
      obtain rfl : n = name := hname n List.mem_cons_self
      exact .inl ⟨_, rfl, by simp, hany v'⟩

/-- Layers that set nothing may follow. -/
theorem LastSets.append {after : List (List (String × Setting))} (h : LastSets p layers v)
    (hafter : ∀ es ∈ after, sets? p es = none) : LastSets p (layers ++ after) v := by
  obtain ⟨before, es, rest, rfl, hes, hrest⟩ := h
  refine ⟨before, es, rest ++ after, by simp, hes, fun es' hes' => ?_⟩
  exact (List.mem_append.1 hes').elim (hrest es') (hafter es')

/-- **What is read in the end is read from the last layer that sets it.** If no layer sets anything,
all is as it was below the layers. -/
theorem lastSets_of_layers (hp : p ≠ []) (hconvert : ReadsSingle convert)
    (hkeeps : ∀ es ∈ layers, ∀ e ∈ es, KeepsTables p (stepsOf e.1) e.2)
    (hread : ∀ r, at? p (layers.foldl layer base) = some r → convert r = some a) :
    (∃ v, LastSets p layers v ∧ convert v = some a) ∨
      ((∀ es ∈ layers, sets? p es = none) ∧ at? p base = at? p (layers.foldl layer base)) := by
  -- from the uppermost layer downwards
  induction layers using List.reverseRecOn with
  | nil => exact .inr ⟨nofun, rfl⟩
  | append_singleton layers es ih =>
    rw [List.foldl_append, List.foldl_cons, List.foldl_nil] at hread ⊢
    have hes := laidOver_layer (layers.foldl layer base) hp (hkeeps es (by simp))
    rcases hconvert.of_laidOver hes hread with ⟨u, hu, hne, hconv⟩ | ⟨hnone, hbelow⟩
    · exact .inl ⟨u, ⟨layers, es, [], rfl, sets?_eq_some_iff.2 ⟨hu, hne⟩, nofun⟩, hconv⟩
    · -- the uppermost layer sets nothing, and all is as it was below this layer
      have hlast : ∀ es' ∈ [es], sets? p es' = none := by
        intro es' hes'
        rw [List.mem_singleton.1 hes']
        exact sets?_eq_none_iff.2 hnone
      rcases ih (fun es hes => hkeeps es (List.mem_append_left _ hes)) (hbelow ▸ hread) with
        ⟨v, hv, hconv⟩ | ⟨hall, hbase⟩
      · exact .inl ⟨v, hv.append hlast, hconv⟩
      · refine .inr ⟨fun es' hes' => ?_, hbase.trans hbelow⟩
        exact (List.mem_append.1 hes').elim (hall es') (hlast es')

/-! ### Sections -/

/-- An entry by itself makes what is under the name a table, if anything. -/
def KeepsSection (name : String) (e : String × Setting) : Prop :=
  ∀ x ∈ at? [name] (putEntry (.table []) e), x.IsTable

instance (name : String) (e : String × Setting) : Decidable (KeepsSection name e) :=
  inferInstanceAs (Decidable (∀ x ∈ at? [name] (putEntry (.table []) e), x.IsTable))

variable {name field : String} {e : String × Setting} {base : Setting}

/-- The steps of an entry begin with a name. -/
theorem exists_stepsOf (name : String) : ∃ n q, stepsOf name = .key n :: q := by
  unfold stepsOf pathOf?
  dsimp only
  split
  · exact ⟨_, _, rfl⟩
  · cases stepsUpTo _ _ with
    | none => exact ⟨_, _, rfl⟩
    | some q => exact ⟨_, q, rfl⟩

/-- Nothing is passed on the way to a single name. -/
theorem keepsTables_singleton (name : String) (e : String × Setting) :
    KeepsTables [name] (stepsOf e.1) e.2 := by
  obtain ⟨n, q, hsteps⟩ := exists_stepsOf e.1
  rw [hsteps]
  exact fun _ => trivial

/-- An entry that keeps the section keeps what is on the way to a field of it. -/
theorem KeepsSection.keepsTables (h : KeepsSection name e) (field : String) :
    KeepsTables [name, field] (stepsOf e.1) e.2 := by
  obtain ⟨n, q, hsteps⟩ := exists_stepsOf e.1
  have hput : putEntry (.table []) e =
      change (fun lower => overlay lower e.2) (.key n :: q) (.table []) := by
    rw [← hsteps]
    rfl
  rw [hsteps]
  rintro rfl
  -- what the entry makes under the name is a table, although there was nothing
  have htable : (change (fun lower => overlay lower e.2) q .nil).IsTable := by
    refine h _ ?_
    rw [hput, at?_singleton, find?_entries_change_self]
    rfl
  cases q with
  | nil =>
    -- what is laid over nothing is itself a table
    have hv : e.2.IsTable := by
      by_contra hv
      rw [change, overlay_of_not_isTable hv] at htable
      exact hv htable
    obtain ⟨es, hes⟩ := hv
    exact ⟨es, hes, fun _ _ _ => trivial⟩
  | cons step q =>
    cases step with
    | key m => exact fun _ => trivial
    -- an entry for an item would have made a list
    | index i =>
      obtain ⟨es, hes⟩ := htable
      cases hes

/-- Tables that are laid over tables are tables. -/
theorem LaidOver.isTable {lower upper result : Option Setting} (h : LaidOver lower upper result)
    (hlower : ∀ x ∈ lower, x.IsTable) (hupper : ∀ x ∈ upper, x.IsTable) :
    ∀ x ∈ result, x.IsTable := by
  cases h with
  | nothing => exact hlower
  | @single s hs => exact absurd (hupper s rfl) hs
  | list ss ss' =>
    obtain ⟨es, hes⟩ := hupper _ rfl
    cases hes
  | table =>
    intro x hx
    cases hx
    exact ⟨_, rfl⟩

/-- What entries keep a table is a table in the end. -/
theorem isTable_layer {es : List (String × Setting)} (hes : ∀ e ∈ es, KeepsSection name e)
    (hbase : ∀ x ∈ at? [name] base, x.IsTable) : ∀ x ∈ at? [name] (layer base es), x.IsTable := by
  induction es generalizing base with
  | nil => exact hbase
  | cons e es ih =>
    -- the entry is a layer of its own
    have hlaid : LaidOver (at? [name] base) (at? [name] (layer (.table []) [e]))
        (at? [name] (layer base [e])) := by
      refine laidOver_layer base (List.cons_ne_nil _ _) fun e' he' => ?_
      rw [List.mem_singleton.1 he']
      exact keepsTables_singleton name e
    exact ih (fun e' he' => hes e' (List.mem_cons_of_mem e he'))
      (hlaid.isTable hbase (hes e List.mem_cons_self))

/-- What all layers keep a table is a table in the end. -/
theorem isTable_layers {ls : List (List (String × Setting))}
    (hls : ∀ es ∈ ls, ∀ e ∈ es, KeepsSection name e) (hbase : ∀ x ∈ at? [name] base, x.IsTable) :
    ∀ x ∈ at? [name] (ls.foldl layer base), x.IsTable := by
  induction ls generalizing base with
  | nil => exact hbase
  | cons es ls ih =>
    exact ih (fun es' hes' => hls es' (List.mem_cons_of_mem es hes'))
      (isTable_layer (hls es List.mem_cons_self) hbase)

/-- Layers over a table make a table. -/
theorem exists_layers_eq_table (ls : List (List (String × Setting)))
    (es : List (String × Setting)) : ∃ es', ls.foldl layer (.table es) = .table es' := by
  -- the steps of an entry begin with a name, so a table takes it in and stays one
  have hput : ∀ es e, ∃ es', putEntry (.table es) e = .table es' := by
    intro es e
    obtain ⟨n, q, hsteps⟩ := exists_stepsOf e.1
    exact ⟨_, congrArg (fun path => put path e.2 (.table es)) hsteps⟩
  have hlayer : ∀ (entries es : List (String × Setting)),
      ∃ es', layer (.table es) entries = .table es' := by
    intro entries
    induction entries with
    | nil => exact fun es => ⟨es, rfl⟩
    | cons e entries ih =>
      intro es
      obtain ⟨es₁, h₁⟩ := hput es e
      rw [layer, List.foldl_cons, h₁]
      exact ih es₁
  induction ls generalizing es with
  | nil => exact ⟨es, rfl⟩
  | cons entries ls ih =>
    obtain ⟨es₁, h₁⟩ := hlayer entries es
    rw [List.foldl_cons, h₁]
    exact ih es₁

end Rulebook.Setting
