import Rulebook.Proofs.Fallible
import Rulebook.Proofs.Grammar

/-!
# Runs of the reader

`Step` lists everything that reading one token can do when it succeeds, with the conditions under
which it does so; `State.push_eq_ok_iff` says that nothing is missing and nothing is too much. A
`Run` is a list of such steps. `build_eq_ok_iff` cuts the reading of a rule into its three parts:
the words are tokens, the tokens are run through, and the state at the end is that of a finished
rule.

What holds of every accepted rule is proved about `Step` first, and then about `Run` by induction;
no proof behind this module opens `State.push`.
-/

namespace Rulebook.Parser

/-- Reading the token in the first state leads to the second. -/
inductive Step : State → Token → State → Prop where
  /-- The group that begins will fill the hole. -/
  | openParen (spine : Spine) (groups : List Spine) (previous : Option Token) (n : Nat) :
      Step ⟨.hole spine, groups, previous, n⟩ .openParen
        ⟨.hole [], spine :: groups, some .openParen, n⟩
  /-- The group that ends fills the hole that waits for it. -/
  | closeParen (tree : Tree) (grouped : Bool) (outer : Spine) (groups : List Spine)
      (previous : Option Token) (n : Nat) :
      Step ⟨.whole tree grouped, outer :: groups, previous, n⟩ .closeParen
        ⟨.whole (outer.fill tree) outer.isEmpty, groups, some .closeParen, n⟩
  /-- The operator opens a hole, unless it is one too many. -/
  | operator (op : Operator) (tree : Tree) (grouped : Bool) (groups : List Spine)
      (previous : Option Token) (n : Nat) (h : n < maxOperators) :
      Step ⟨.whole tree grouped, groups, previous, n⟩ (.operator op)
        ⟨.hole (State.spineBehind tree grouped op), groups, some (.operator op), n + 1⟩
  /-- The operand fills the hole. -/
  | operand (text : String) (spine : Spine) (groups : List Spine) (previous : Option Token)
      (n : Nat) :
      Step ⟨.hole spine, groups, previous, n⟩ (.operand text)
        ⟨.whole (spine.fill (.operand text)) false, groups, some (.operand text), n⟩

/-- Reading the tokens one after another leads from the first state to the second. -/
inductive Run : State → List Token → State → Prop where
  | nil (s : State) : Run s [] s
  | cons {s s' s'' : State} {t : Token} {ts : List Token} (h : Step s t s') (hs : Run s' ts s'') :
      Run s (t :: ts) s''

namespace State

/-- Reading a token succeeds exactly by one of the steps. -/
theorem push_eq_ok_iff {s s' : State} {t : Token} : s.push t = .ok s' ↔ Step s t s' := by
  constructor
  · -- in each state most tokens are refused; what is left over for a token is its step
    intro h
    obtain ⟨content, groups, previous, n⟩ := s
    cases t with
    | openParen =>
      cases content with
      | hole spine => cases h; exact .openParen ..
      | whole tree grouped => cases h
    -- a group ends if one is open and a whole tree stands in it
    | closeParen =>
      cases groups with
      | nil => cases h
      | cons outer groups =>
        cases content with
        -- an empty group and one that breaks off are refused with different errors
        | hole spine => cases spine <;> cases h
        | whole tree grouped => cases h; exact .closeParen ..
    -- behind a whole tree an operator is read, if it is not one too many
    | operator op =>
      cases content with
      | hole spine => cases h
      | whole tree grouped =>
        simp only [push, readOperator] at h
        split at h
        · cases h
        · next hn => cases h; exact .operator _ _ _ _ _ _ (by omega)
    | operand text =>
      cases content with
      | hole spine => cases h; exact .operand ..
      | whole tree grouped => cases h
  · -- the other way only the limit of operators has to be checked
    intro h
    cases h with
    | openParen | closeParen | operand => rfl
    | operator op tree grouped groups previous n hn =>
      simp only [push, readOperator]
      rw [if_neg (by omega)]

/-- A rule is finished in a state exactly when all of it is one whole tree. -/
theorem finish_eq_ok_iff {s : State} {t : Tree} :
    s.finish = .ok t ↔ ∃ grouped, s.content = .whole t grouped ∧ s.groups = [] := by
  obtain ⟨content, groups, previous, n⟩ := s
  cases content with
  -- nothing was read, or the rule breaks off
  | hole spine => cases spine <;> cases groups <;> simp [finish]
  -- groups that are still open are at fault
  | whole tree grouped => cases groups <;> simp [finish]

end State

/-- Reading a word succeeds exactly when it is a token by which there is a step. -/
theorem State.read_eq_ok_iff {s s' : State} {word : String} :
    s.read word = .ok s' ↔ ∃ t, Token.ofWord? word = some t ∧ Step s t s' := by
  unfold read
  cases Token.ofWord? word with
  -- a word that is no token is refused before anything is done
  | none =>
    constructor
    · intro h
      cases h
    · rintro ⟨t, ht, -⟩
      cases ht
  | some t =>
    constructor
    · intro h
      exact ⟨t, rfl, push_eq_ok_iff.1 h⟩
    · rintro ⟨t', ht, hstep⟩
      cases ht
      exact push_eq_ok_iff.2 hstep

/-- What is run through in two parts is run through as a whole. -/
theorem Run.append {s s' s'' : State} {ts us : List Token} (h : Run s ts s')
    (h' : Run s' us s'') : Run s (ts ++ us) s'' := by
  induction h with
  | nil s => exact h'
  | cons hstep _ ih => exact .cons hstep (ih h')

/-- Reading words succeeds exactly when they are tokens that are run through. -/
theorem foldlM_read_eq_ok_iff {words : List String} {s s' : State} :
    words.foldlM State.read s = .ok s' ↔
      ∃ tokens, words.mapM Token.ofWord? = some tokens ∧ Run s tokens s' := by
  -- along the words, from whatever state has been reached
  induction words generalizing s with
  | nil =>
    constructor
    · intro h
      cases h
      exact ⟨[], rfl, .nil _⟩
    · rintro ⟨tokens, ht, hrun⟩
      cases ht
      cases hrun
      rfl
  | cons word words ih =>
    rw [List.foldlM_cons, bind_eq_ok_iff]
    constructor
    · rintro ⟨s₁, hread, hrest⟩
      obtain ⟨t, ht, hstep⟩ := State.read_eq_ok_iff.1 hread
      obtain ⟨tokens, htokens, hrun⟩ := ih.1 hrest
      refine ⟨t :: tokens, mapM_eq_some_iff.2 ?_, .cons hstep hrun⟩
      rw [List.map_cons, List.map_cons, ht, mapM_eq_some_iff.1 htokens]
    · rintro ⟨tokens, htokens, hrun⟩
      rw [mapM_eq_some_iff, List.map_cons] at htokens
      cases hrun with
      -- there is a word, and so there is a token for it
      | nil => cases htokens
      | cons hstep hrest =>
        obtain ⟨ht, hts⟩ := List.cons.inj htokens
        exact ⟨_, State.read_eq_ok_iff.2 ⟨_, ht, hstep⟩, ih.2 ⟨_, mapM_eq_some_iff.2 hts, hrest⟩⟩

/-- A rule is read exactly when its words are tokens and running through them finishes it. -/
theorem build_eq_ok_iff {words : List String} {t : Tree} :
    build words = .ok t ↔
      ∃ tokens s, words.mapM Token.ofWord? = some tokens ∧ Run .start tokens s ∧
        s.finish = .ok t := by
  rw [build, bind_eq_ok_iff]
  constructor
  · -- the words are read first, and only then the state is asked for the tree
    rintro ⟨s, hread, hfin⟩
    obtain ⟨tokens, htokens, hrun⟩ := foldlM_read_eq_ok_iff.1 hread
    exact ⟨tokens, s, htokens, hrun, hfin⟩
  · rintro ⟨tokens, s, htokens, hrun, hfin⟩
    exact ⟨s, foldlM_read_eq_ok_iff.2 ⟨tokens, htokens, hrun⟩, hfin⟩

end Rulebook.Parser
