import Rulebook.Settings.Path

/-!
# What names lead to

`Setting.at?` is the setting to which names lead from a table inwards. Laying a setting over what a
path leads to changes what the same names lead to (`at?_change_self`), and leaves everything beside
the path as it was (`find?_entries_change_of_ne`).

A path can also end on the way to a setting, or leave the way through a position of a list, and then
all that was there is lost, unless a table is laid over what is there. `KeepsTables` says that this
does not happen.
-/

namespace Rulebook.Setting

/-- The setting to which names lead, from the outside in. -/
def at? : List String → Setting → Option Setting
  | [], s => some s
  | name :: names, s => Entries.find? name s.entries >>= at? names

/-- A single name leads to what stands under it. -/
theorem at?_singleton (name : String) (s : Setting) :
    at? [name] s = Entries.find? name s.entries := by
  rw [at?]
  cases Entries.find? name s.entries <;> rfl

/-- A setting with settings inside. -/
inductive IsCompound : Setting → Prop
  | list (ss : List Setting) : IsCompound (.list ss)
  | table (es : List (String × Setting)) : IsCompound (.table es)

/-- A setting with names inside. -/
def IsTable (s : Setting) : Prop :=
  ∃ es, s = .table es

instance : DecidablePred IsTable
  | .table es => .isTrue ⟨es, rfl⟩
  | .nil | .flag _ | .integer _ | .float _ | .text _ | .list _ => .isFalse nofun

variable {f : Setting → Setting} {name n : String} {p : List String} {q : List Step} {s v : Setting}

/-! ### Laying over -/

/-- What is no table replaces what is below. -/
theorem overlay_of_not_isTable {lower : Setting} (h : ¬ v.IsTable) : overlay lower v = v := by
  cases v with
  | table es => exact absurd ⟨es, rfl⟩ h
  | _ => rfl

/-- The entries of a table are laid over one by one, whatever is below. -/
theorem overlay_table (lower : Setting) (es : List (String × Setting)) :
    overlay lower (.table es) =
      es.foldl (fun s e => change (fun x => overlay x e.2) [.key e.1] s)
        (.table lower.entries) := by
  -- what has been laid over before is below, so it is not fixed
  have hentries : ∀ entries, Setting.table (overlayEntries entries es) =
      es.foldl (fun s e => change (fun x => overlay x e.2) [.key e.1] s) (.table entries) := by
    induction es with
    | nil =>
      intro entries
      rw [overlayEntries]
      rfl
    | cons e es ih =>
      intro entries
      rw [overlayEntries, ih]
      rfl
  rw [overlay, hentries]

/-- Laid over one another, tables have the names of both. -/
theorem mem_names_overlayEntries {lower es : List (String × Setting)} :
    n ∈ Entries.names (overlayEntries lower es) ↔
      n ∈ Entries.names lower ∨ n ∈ Entries.names es := by
  induction es generalizing lower with
  | nil =>
    rw [overlayEntries]
    simp [Entries.names]
  | cons e es ih =>
    rw [overlayEntries, ih, Entries.mem_names_set]
    simp only [Entries.names, List.map_cons, List.mem_cons]
    constructor
    · rintro ((h | h) | h)
      · exact .inr (.inl h)
      · exact .inl h
      · exact .inr (.inr h)
    · rintro (h | h | h)
      · exact .inl (.inr h)
      · exact .inl (.inl h)
      · exact .inr h

/-- Names stay different when a table is laid over others. -/
theorem nodup_names_overlayEntries {lower es : List (String × Setting)}
    (h : (Entries.names lower).Nodup) : (Entries.names (overlayEntries lower es)).Nodup := by
  induction es generalizing lower with
  | nil =>
    rw [overlayEntries]
    exact h
  | cons e es ih =>
    rw [overlayEntries]
    exact ih (Entries.nodup_names_set h)

/-! ### Changes along a path -/

/-- What has the name of the next step is what the rest of the path changes. -/
theorem find?_entries_change_self :
    Entries.find? name (change f (.key name :: q) s).entries =
      some (change f q ((Entries.find? name s.entries).getD .nil)) := by
  rw [change, entries, Entries.find?_set, if_pos rfl]

/-- What has another name than the next step is not changed. -/
theorem find?_entries_change_of_ne (h : n ≠ name) :
    Entries.find? name (change f (.key n :: q) s).entries = Entries.find? name s.entries := by
  rw [change, entries, Entries.find?_set, if_neg h]

/-- What the names of a path lead to is what the path changes. -/
theorem at?_change_self (p : List String) (s : Setting) :
    at? p (change f (p.map .key) s) = some (f ((at? p s).getD .nil)) := by
  induction p generalizing s with
  | nil => rfl
  | cons name p ih =>
    rw [List.map_cons, at?, find?_entries_change_self, Option.bind_eq_bind, Option.bind_some, ih,
      at?]
    cases hfind : Entries.find? name s.entries with
    | some inner => rfl
    | none =>
      -- where there was nothing, the path is made on the way
      cases p <;> rfl

/-! ### Paths that keep tables -/

/-- A setting that is laid over what the path leads to leaves all that is passed on the way along
the names a table: the path does not end there, unless in a table, and it leaves only for other
names. -/
def KeepsTables : List String → List Step → Setting → Prop
  | [], _, _ => True
  | name :: p, [], v => ∃ es, v = .table es ∧ ∀ e ∈ es, e.1 = name → KeepsTables p [] e.2
  | name :: p, .key n :: q, v => n = name → KeepsTables p q v
  | _ :: _, .index _ :: _, _ => False

/-- Where there is a setting, only the path that leads to it puts another one there that has none
inside. -/
theorem at?_change_of_ne {x : Setting} (hv : ¬ v.IsTable) (hkeeps : KeepsTables p q v)
    (hne : q ≠ p.map .key) (hx : at? p s = some x) :
    at? p (change (fun x => overlay x v) q s) = some x ∨
      ∃ c, c.IsCompound ∧ at? p (change (fun x => overlay x v) q s) = some c := by
  induction p generalizing q s with
  | nil =>
    -- the path goes on into the setting
    cases q with
    | nil => exact absurd rfl hne
    | cons step q =>
      cases step with
      | key n => exact .inr ⟨_, .table _, rfl⟩
      | index i => exact .inr ⟨_, .list _, rfl⟩
  | cons name p ih =>
    cases q with
    | nil =>
      -- a path that ends on the way keeps the tables only by putting a table there
      obtain ⟨es, rfl, -⟩ := hkeeps
      exact absurd ⟨es, rfl⟩ hv
    | cons step q =>
      cases step with
      | index i => exact hkeeps.elim
      | key n =>
        obtain ⟨inner, hinner, hinside⟩ := Option.bind_eq_some_iff.1 hx
        by_cases hn : n = name
        · subst hn
          rw [at?, find?_entries_change_self, hinner]
          exact ih (hkeeps rfl) (fun h => hne (congrArg (.key n :: ·) h)) hinside
        · -- the path leaves the way for another name
          left
          rw [at?, find?_entries_change_of_ne hn]
          exact hx

end Rulebook.Setting
