/-!
# Entries

Names with what they stand for, in the order in which the names first came. `find?` looks a name up;
`set` changes what a name stands for, or adds the name at the end.

Setting a name changes what is found under it and under no other (`find?_set`), and a name that is
not there is added at the end (`set_of_not_mem`). Names that were different stay different
(`nodup_names_set`), and while they are different their order does not matter (`find?_perm`).
-/

namespace Rulebook.Entries

variable {α : Type}

/-- The names of entries. -/
def names (es : List (String × α)) : List String :=
  es.map Prod.fst

/-- What a name stands for. -/
def find? (name : String) (es : List (String × α)) : Option α :=
  (es.find? fun e => e.1 = name).map Prod.snd

/-- Sets what a name stands for. -/
def set (name : String) (a : α) : List (String × α) → List (String × α)
  | [] => [(name, a)]
  | e :: es => if e.1 = name then (name, a) :: es else e :: set name a es

@[simp]
theorem find?_nil (name : String) : find? name ([] : List (String × α)) = none := rfl

theorem find?_cons (name : String) (e : String × α) (es : List (String × α)) :
    find? name (e :: es) = if e.1 = name then some e.2 else find? name es := by
  by_cases h : e.1 = name <;> simp [find?, h]

theorem find?_append (name : String) (es es' : List (String × α)) :
    find? name (es ++ es') = (find? name es).or (find? name es') := by
  simp only [find?, List.find?_append, Option.map_or]

/-- The order of entries does not matter for what a name stands for, if the names are different. -/
theorem find?_perm {es es' : List (String × α)} (h : es.Perm es') (hnames : (names es).Nodup)
    (name : String) : find? name es = find? name es' := by
  induction h with
  | nil => rfl
  | cons e _ ih =>
    rw [find?_cons, find?_cons, ih (List.nodup_cons.1 hnames).2]
  | swap e e' es =>
    -- the two entries in front have different names, so one of them at most is found
    have hne : e'.1 ≠ e.1 := fun he => (List.nodup_cons.1 hnames).1 (he ▸ List.mem_cons_self)
    simp only [find?_cons]
    by_cases he : e.1 = name
    · rw [if_pos he, if_pos he, if_neg fun he' => hne (he'.trans he.symm)]
    · rw [if_neg he, if_neg he]
  | trans h _ ih ih' =>
    exact (ih hnames).trans (ih' ((h.map Prod.fst).nodup_iff.1 hnames))

/-- A name that comes behind others is none of them, if the names are different. -/
theorem not_mem_names_of_nodup {es es' : List (String × α)} {e : String × α}
    (h : (names (es ++ e :: es')).Nodup) : e.1 ∉ names es := by
  rw [names, List.map_append, List.map_cons, List.nodup_append] at h
  exact fun hmem => h.2.2 e.1 hmem e.1 List.mem_cons_self rfl

/-- Setting a name changes what is found under it and under no other. -/
@[simp]
theorem find?_set (name other : String) (a : α) (es : List (String × α)) :
    find? other (set name a es) = if name = other then some a else find? other es := by
  induction es with
  | nil => rw [set, find?_cons]
  | cons e es ih =>
    by_cases he : e.1 = name
    · rw [set, if_pos he, find?_cons, find?_cons, he]
      split <;> rfl
    · rw [set, if_neg he, find?_cons, ih, find?_cons]
      -- the name of the entry in front is not the one that is set
      by_cases h : name = other
      · rw [if_pos h, if_neg fun ho => he (ho.trans h.symm), if_pos h]
      · rw [if_neg h, if_neg h]

/-- A name that is not there is added at the end. -/
theorem set_of_not_mem {name : String} {a : α} {es : List (String × α)} (h : name ∉ names es) :
    set name a es = es ++ [(name, a)] := by
  induction es with
  | nil => rfl
  | cons e es ih =>
    rw [names, List.map_cons, List.mem_cons, not_or] at h
    rw [set, if_neg (Ne.symm h.1), ih h.2, List.cons_append]

theorem mem_names_set {n name : String} {a : α} {es : List (String × α)} :
    n ∈ names (set name a es) ↔ n = name ∨ n ∈ names es := by
  induction es with
  | nil => simp [set, names]
  | cons e es ih =>
    by_cases he : e.1 = name
    · simp [set, names, he]
    · rw [set, if_neg he]
      simp only [names, List.map_cons, List.mem_cons] at ih ⊢
      rw [ih]
      exact or_left_comm

/-- Setting a name keeps the names different. -/
theorem nodup_names_set {name : String} {a : α} {es : List (String × α)}
    (h : (names es).Nodup) : (names (set name a es)).Nodup := by
  induction es with
  | nil => simp [set, names]
  | cons e es ih =>
    obtain ⟨hm, ht⟩ := List.nodup_cons.1 h
    by_cases he : e.1 = name
    · rw [set, if_pos he]
      exact List.nodup_cons.2 ⟨he ▸ hm, ht⟩
    · rw [set, if_neg he]
      -- the entry in front keeps its name, which is not the one that is set
      refine List.nodup_cons.2 ⟨fun hs => ?_, ih ht⟩
      rcases mem_names_set.1 hs with hn | hn
      · exact he hn
      · exact hm hn

end Rulebook.Entries
