/-!
# Steps that may fail

What it takes for several steps to succeed when each of them may fail: one behind another
(`bind_eq_ok_iff`), one for each element of a list with a state handed on (`invariant_foldlM`), and
one for each element by itself (`mapM_eq_some_iff`). Steps in a row fail with the error of the first
one that does (`bind_eq_error_iff`). A step whose error is told differently succeeds when it did
before (`mapError_eq_ok_iff`). Of a step whose results are read only in part, `map_eq_map_iff` says
when another one is the same to that reader.

Where the entries of a list can be at fault, each by itself, `FirstAtFault` is the fault of the
first of them. It goes along with `++` (`firstAtFault_append`).
-/

namespace Rulebook

variable {ε α β : Type}

/-- Two steps succeed in a row exactly when the first one does and the second one does behind it. -/
theorem bind_eq_ok_iff {x : Except ε α} {f : α → Except ε β} {b : β} :
    x >>= f = .ok b ↔ ∃ a, x = .ok a ∧ f a = .ok b := by
  cases x with
  -- the second step is not reached
  | error e =>
    constructor
    · intro h
      cases h
    · rintro ⟨a, h, -⟩
      cases h
  | ok a =>
    constructor
    · intro h
      exact ⟨a, rfl, h⟩
    · rintro ⟨_, h, hf⟩
      cases h
      exact hf

/-- Two steps in a row fail with the error of the first one, or with that of the second one behind
the first. -/
theorem bind_eq_error_iff {x : Except ε α} {f : α → Except ε β} {e : ε} :
    x >>= f = .error e ↔ x = .error e ∨ ∃ a, x = .ok a ∧ f a = .error e := by
  cases x with
  -- the error of the first step is that of both
  | error e' =>
    constructor
    · intro h
      cases h
      exact .inl rfl
    · rintro (h | ⟨a, h, -⟩)
      · cases h
        rfl
      · cases h
  | ok a =>
    constructor
    · intro h
      exact .inr ⟨a, rfl, h⟩
    · rintro (h | ⟨_, h, hf⟩)
      · cases h
      · cases h
        exact hf

/-- A step that is followed by a function succeeds exactly when it succeeds by itself. -/
theorem map_eq_ok_iff {f : α → β} {x : Except ε α} {b : β} :
    x.map f = .ok b ↔ ∃ a, x = .ok a ∧ f a = b := by
  cases x with
  | error e =>
    constructor
    · intro h
      cases h
    · rintro ⟨a, h, -⟩
      cases h
  | ok a =>
    constructor
    · intro h
      exact ⟨a, rfl, Except.ok.inj h⟩
    · rintro ⟨_, h, hf⟩
      cases h
      exact congrArg Except.ok hf

/-- A step that is followed by a function fails exactly as it does by itself. -/
theorem map_eq_error_iff {f : α → β} {x : Except ε α} {e : ε} :
    x.map f = .error e ↔ x = .error e := by
  cases x with
  -- the two sides are of different types, so that the error has to be taken out
  | error e' =>
    constructor <;> intro h
    · exact congrArg Except.error (Except.error.inj h)
    · exact congrArg Except.error (Except.error.inj h)
  | ok a => exact ⟨nofun, nofun⟩

/-- A step whose error is told differently succeeds exactly when it does by itself. -/
theorem mapError_eq_ok_iff {ε' : Type} {f : ε → ε'} {x : Except ε α} {a : α} :
    x.mapError f = .ok a ↔ x = .ok a := by
  cases x with
  | error e => exact ⟨nofun, nofun⟩
  | ok b =>
    constructor <;> intro h
    · exact congrArg Except.ok (Except.ok.inj h)
    · exact congrArg Except.ok (Except.ok.inj h)

/-- A step whose error is told differently fails with the error that it had before, told
differently. -/
theorem mapError_eq_error_iff {ε' : Type} {f : ε → ε'} {x : Except ε α} {e' : ε'} :
    x.mapError f = .error e' ↔ ∃ e, x = .error e ∧ e' = f e := by
  cases x with
  | error e =>
    constructor
    · intro h
      cases h
      exact ⟨e, rfl, rfl⟩
    · rintro ⟨_, h, rfl⟩
      cases h
      rfl
  | ok a =>
    constructor
    · nofun
    · rintro ⟨_, h, -⟩
      cases h

/-- Two steps look alike from outside exactly if they fail with the same error, or succeed with what
looks alike. -/
theorem map_eq_map_iff {f : α → β} {x y : Except ε α} :
    x.map f = y.map f ↔
      (∃ e, x = .error e ∧ y = .error e) ∨ ∃ a b, x = .ok a ∧ y = .ok b ∧ f a = f b := by
  -- what is seen of a step is its error, or its result as far as `f` shows it; a step that fails is
  -- never seen as one that succeeds, so the two mixed cases are empty on both sides
  cases x with
  -- two failures are seen alike if their errors are the same
  | error e =>
    cases y with
    | error e' =>
      constructor
      · intro h
        cases h
        exact .inl ⟨e, rfl, rfl⟩
      · rintro (⟨_, h, h'⟩ | ⟨a, b, h, -⟩)
        · cases h
          cases h'
          rfl
        · cases h
    | ok b =>
      constructor
      · intro h
        cases h
      · rintro (⟨_, -, h⟩ | ⟨a, b, h, -⟩) <;> cases h
  -- two results are seen alike if `f` does not tell them apart
  | ok a =>
    cases y with
    | error e' =>
      constructor
      · intro h
        cases h
      · rintro (⟨_, h, -⟩ | ⟨a, b, -, h, -⟩) <;> cases h
    -- only here there is a result on both sides
    | ok b =>
      constructor
      · intro h
        exact .inr ⟨a, b, rfl, rfl, Except.ok.inj h⟩
      · rintro (⟨_, h, -⟩ | ⟨_, _, h, h', hf⟩)
        · cases h
        · cases h
          cases h'
          exact congrArg Except.ok hf

/-- What every step keeps if it succeeds, all of them keep if they succeed. -/
theorem invariant_foldlM {f : β → α → Except ε β} {Inv : β → Prop}
    (hstep : ∀ b a b', Inv b → f b a = .ok b' → Inv b') {as : List α} {b b' : β} (hb : Inv b)
    (h : as.foldlM f b = .ok b') : Inv b' := by
  -- the state is handed on, so the claim is needed for whatever state comes next
  induction as generalizing b with
  | nil =>
    cases h
    exact hb
  | cons a as ih =>
    rw [List.foldlM_cons] at h
    obtain ⟨b₁, hfirst, hrest⟩ := bind_eq_ok_iff.1 h
    exact ih (hstep b a b₁ hb hfirst) hrest

/-- Steps succeed up to the last element exactly when they do on those before it and then on it. -/
theorem foldlM_concat_eq_ok_iff {f : β → α → Except ε β} {as : List α} {a : α} {b b' : β} :
    (as ++ [a]).foldlM f b = .ok b' ↔ ∃ b₁, as.foldlM f b = .ok b₁ ∧ f b₁ a = .ok b' := by
  rw [List.foldlM_append, bind_eq_ok_iff]
  refine exists_congr fun b₁ => and_congr_right fun _ => ?_
  -- behind the last element there is nothing left to do
  rw [List.foldlM_cons, bind_eq_ok_iff]
  constructor
  · rintro ⟨_, h, hnil⟩
    cases hnil
    exact h
  · intro h
    exact ⟨b', h, rfl⟩

/-- A step succeeds on all elements exactly when it succeeds on each. -/
theorem mapM_eq_some_iff {f : α → Option β} {as : List α} {bs : List β} :
    as.mapM f = some bs ↔ as.map f = bs.map some := by
  induction as generalizing bs with
  | nil => cases bs <;> simp
  | cons a as ih =>
    rw [List.mapM_cons, List.map_cons, Option.bind_eq_bind, Option.bind_eq_some_iff]
    -- the element in front has a result, and so has the rest
    constructor
    · rintro ⟨b, hb, h⟩
      obtain ⟨bs', hbs, h⟩ := Option.bind_eq_some_iff.1 h
      cases h
      rw [hb, ih.1 hbs]
      rfl
    · intro h
      cases bs with
      | nil => cases h
      | cons b bs =>
        obtain ⟨hb, hbs⟩ := List.cons.inj h
        exact ⟨b, hb, Option.bind_eq_some_iff.2 ⟨bs, ih.2 hbs, rfl⟩⟩

/-! ### The first entry at fault -/

section FirstAtFault

variable {Fails : α → ε → Prop} {a : α} {as bs : List α} {e : ε}

/-- Some entry of the list is at fault, with the error `e`, and none before it is. -/
def FirstAtFault (Fails : α → ε → Prop) (as : List α) (e : ε) : Prop :=
  ∃ before a after, as = before ++ a :: after ∧ Fails a e ∧ ∀ b ∈ before, ∀ e', ¬ Fails b e'

theorem not_firstAtFault_nil : ¬ FirstAtFault Fails [] e := by
  rintro ⟨before, a, after, hsplit, -⟩
  exact absurd hsplit.symm (List.append_ne_nil_of_right_ne_nil _ (List.cons_ne_nil _ _))

/-- The first entry at fault is the one in front, or the first one behind it if there is nothing
wrong with the one in front. -/
theorem firstAtFault_cons : FirstAtFault Fails (a :: as) e ↔
    Fails a e ∨ (∀ e', ¬ Fails a e') ∧ FirstAtFault Fails as e := by
  constructor
  · rintro ⟨before, b, after, hsplit, hb, hbefore⟩
    -- either nothing stands before the entry at fault, so it is the one in front
    cases before with
    | nil =>
      cases hsplit
      exact .inl hb
    | cons c before =>
      cases hsplit
      exact .inr ⟨hbefore a List.mem_cons_self, before, b, after, rfl, hb,
        fun d hd => hbefore d (List.mem_cons_of_mem _ hd)⟩
  · rintro (ha | ⟨ha, before, b, after, rfl, hb, hbefore⟩)
    · exact ⟨[], a, as, rfl, ha, fun b hb => nomatch hb⟩
    · refine ⟨a :: before, b, after, rfl, hb, fun d hd => ?_⟩
      rcases List.mem_cons.1 hd with rfl | hd
      · exact ha
      · exact hbefore d hd

theorem firstAtFault_singleton : FirstAtFault Fails [a] e ↔ Fails a e := by
  rw [firstAtFault_cons]
  constructor
  · rintro (ha | ⟨-, hnil⟩)
    · exact ha
    · exact absurd hnil not_firstAtFault_nil
  · exact .inl

/-- A list has a first entry at fault exactly if it has one at all. -/
theorem exists_firstAtFault_iff :
    (∃ e, FirstAtFault Fails as e) ↔ ∃ a ∈ as, ∃ e, Fails a e := by
  induction as with
  | nil =>
    constructor
    · rintro ⟨e, h⟩
      exact absurd h not_firstAtFault_nil
    · rintro ⟨a, ha, -⟩
      cases ha
  | cons a as ih =>
    have hcons : (∃ b ∈ a :: as, ∃ e, Fails b e) ↔
        (∃ e, Fails a e) ∨ ∃ e, FirstAtFault Fails as e := by
      simp only [List.mem_cons, or_and_right, exists_or, exists_eq_left, ih]
    rw [hcons]
    -- if the entry in front is at fault it comes first, and if not it can be left out on both sides
    by_cases ha : ∃ e, Fails a e
    · obtain ⟨e, he⟩ := ha
      exact iff_of_true ⟨e, firstAtFault_cons.2 (.inl he)⟩ (.inl ⟨e, he⟩)
    · have hnone : ∀ e, ¬ Fails a e := not_exists.1 ha
      simp only [firstAtFault_cons, hnone, not_false_eq_true, implies_true, true_and, false_or,
        exists_false]

/-- The first entry at fault of two lists is that of the first list if this has one, and else that
of the second. -/
theorem firstAtFault_append : FirstAtFault Fails (as ++ bs) e ↔
    FirstAtFault Fails as e ∨
      (¬ ∃ e', FirstAtFault Fails as e') ∧ FirstAtFault Fails bs e := by
  induction as with
  | nil => simp only [List.nil_append, not_firstAtFault_nil, exists_false, not_false_eq_true,
      true_and, false_or]
  | cons a as ih =>
    rw [List.cons_append, firstAtFault_cons, ih, firstAtFault_cons]
    by_cases ha : ∃ e, Fails a e
    · -- the first list has a fault in front, so the second one is never reached
      have hfirst : ∃ e, FirstAtFault Fails (a :: as) e :=
        exists_firstAtFault_iff.2 ⟨a, List.mem_cons_self, ha⟩
      simp only [← not_exists, ha, hfirst, not_true_eq_false, false_and, or_false]
    · -- the entry in front is passed over by both lists alike
      have hnone : ∀ e, ¬ Fails a e := not_exists.1 ha
      simp only [firstAtFault_cons, hnone, not_false_eq_true, implies_true, true_and, false_or]

end FirstAtFault

end Rulebook
