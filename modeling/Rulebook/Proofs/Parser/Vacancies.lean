import Mathlib.Algebra.Ring.Nat
import Rulebook.Proofs.Parser.Denotation
import Rulebook.Proofs.Parser.Draft

/-!
# Where half-built nodes are open

The reader that builds nodes as the tokens come (`Draft`) attaches operands and groups wherever the
right spine of a node ends, and would be stuck if no operator waited there. It never is, because
between two tokens a draft is `Sound`: behind an operator, the current node lacks the right child of
the last node of its right spine and no other; otherwise it lacks none; and every node that waits
for a group lacks that one child too.

* From `Sound` alone it follows that each node that is to be attached finds its place
  (`Sound.attaches`), since `Attaches` lists all that is attached, and a draft has a node without a
  place exactly if one of these cannot be attached (`push_eq_noPlace_iff`).
* A draft is sound because it is the picture of a state of the reader (`State.sound_draft`). There
  the hole is a matter of types; what is left to prove is that the state counts its operators and
  marks no tree as a group but behind a closing parenthesis (`State.Tallied`). Every step keeps that
  (`State.Tallied.step`).

The main statement is `accepted_sound`.
-/

namespace Rulebook.Parser

/-! ### What a state counts -/

/-- How many operators have been read of a group. -/
def Content.operatorCount : Content → Nat
  | .hole spine => Spine.operatorCount spine
  | .whole tree _ => tree.operatorCount

namespace State

/-- An operator behind a tree adds itself to the operators of the tree. -/
theorem operatorCount_spineBehind (tree : Tree) (grouped : Bool) (op : Operator) :
    Spine.operatorCount (spineBehind tree grouped op) = tree.operatorCount + 1 := by
  cases tree with
  | operand text => rfl
  | node root l r =>
    cases root with
    | relating c => rfl
    | logical c =>
      rw [spineBehind]
      -- if the right side is taken out, the operator of the connective is counted in the spine
      split
      · rfl
      · simp only [Spine.operatorCount, Tree.operatorCount_node]
        omega

/-- The state has counted the operators of all that has been read, and only what a closing
parenthesis has just closed is marked as a group. -/
structure Tallied (s : State) : Prop where
  grouped : s.content.isGroup = true → s.previous = some .closeParen
  counted : s.operators = s.content.operatorCount + (s.groups.map Spine.operatorCount).sum

theorem tallied_start : start.Tallied :=
  ⟨nofun, rfl⟩

/-- **Every step keeps the tally.** -/
theorem Tallied.step {s s' : State} {t : Token} (hs : s.Tallied) (h : Step s t s') :
    s'.Tallied := by
  have hcounted := hs.counted
  cases h with
  -- what has been read of the group waits, and a new one begins with nothing
  | openParen spine groups previous n =>
    constructor
    · intro hgroup
      cases hgroup
    · simpa [Content.operatorCount, Spine.operatorCount] using hcounted
  -- the two parts of the count are added up in the filled hole
  | closeParen tree grouped outer groups previous n =>
    constructor
    · exact fun _ => rfl
    · simp only [Content.operatorCount, List.map_cons, List.sum_cons,
        Spine.operatorCount_fill] at hcounted ⊢
      omega
  | operator op tree grouped groups previous n _ =>
    constructor
    · intro hgroup
      cases hgroup
    · simp only [Content.operatorCount, operatorCount_spineBehind] at hcounted ⊢
      omega
  | operand text spine groups previous n =>
    constructor
    · intro hgroup
      cases hgroup
    · simpa [Content.operatorCount, Spine.operatorCount_fill] using hcounted

/-- What every step keeps, a run keeps. -/
theorem Tallied.run {s s' : State} {ts : List Token} (hs : s.Tallied) (h : Run s ts s') :
    s'.Tallied := by
  induction h with
  | nil s => exact hs
  | cons hstep _ ih => exact ih (hs.step hstep)

/-- The state keeps the token that the last word is. -/
theorem previous_of_foldlM_read {words : List String} {s : State}
    (h : words.foldlM read start = .ok s) :
    s.previous = words.getLast?.bind Token.ofWord? := by
  rcases List.eq_nil_or_concat words with rfl | ⟨before, word, rfl⟩
  · cases h
    rfl
  · rw [List.concat_eq_append, foldlM_concat_eq_ok_iff] at h
    obtain ⟨s₀, -, hread⟩ := h
    obtain ⟨t, ht, hstep⟩ := read_eq_ok_iff.1 hread
    rw [List.concat_eq_append, List.getLast?_concat, Option.bind_some, ht]
    cases hstep <;> rfl

end State

/-! ### Sound drafts -/

namespace Draft

/-- How many operators a node has, if there is one. -/
def operatorsOf : Option Node → Nat
  | none => 0
  | some n => n.operatorCount

/-- What holds of a draft between two tokens. -/
structure Sound (d : Draft) : Prop where
  /-- Nothing is built exactly at the start and behind an opening parenthesis. -/
  current_eq_none_iff : d.current = none ↔ d.previous = none ∨ d.previous = some .openParen
  /-- Behind an operator, one child is missing, at the end of the right spine. -/
  openAtEnd : ∀ op, d.previous = some (.operator op) → ∀ n, d.current = some n → n.OpenAtEnd
  /-- Behind everything else, no child is missing. -/
  complete : (∀ op, d.previous ≠ some (.operator op)) → ∀ n, d.current = some n → n.Complete
  /-- One child is missing of each node around an open group. -/
  waiting : ∀ n, some n ∈ d.waiting → n.OpenAtEnd
  counted : d.operators = operatorsOf d.current + (d.waiting.map operatorsOf).sum
  limited : d.operators ≤ maxOperators
  rootIsGroup : d.rootIsGroup = true → d.previous = some .closeParen

/-- Reading the token attaches the second node to the end of the first one's right spine. -/
inductive Attaches (d : Draft) : Token → Node → Node → Prop where
  | group {outer group : Node} {waiting : List (Option Node)}
      (hwaiting : d.waiting = some outer :: waiting) (hcurrent : d.current = some group)
      (hprevious : ∀ op, d.previous ≠ some (.operator op)) : Attaches d .closeParen outer group
  | operand {text : String} {outer : Node} (hcurrent : d.current = some outer)
      (hprevious : Scanner.operandDue d.previous = true) :
      Attaches d (.operand text) outer (.leaf text)

variable {d : Draft} {t : Token} {outer added : Node}

/-- Only what has something around it can be without a place. -/
theorem attach_eq_noPlace_iff {around : Option Node} {stuck : Node} :
    attach around added = .error (.noPlace stuck) ↔
      ∃ outer, around = some outer ∧ outer.attachRight added = .error stuck := by
  cases around with
  | none => exact ⟨nofun, fun ⟨_, h, _⟩ => nomatch h⟩
  | some outer =>
    rw [attach, mapError_eq_error_iff]
    constructor
    · rintro ⟨_, h, heq⟩
      cases heq
      exact ⟨outer, rfl, h⟩
    · rintro ⟨_, hsome, h⟩
      cases hsome
      exact ⟨stuck, h, rfl⟩

/-- A draft is stuck with a node exactly if reading the token attaches something for which there is
no place. -/
theorem push_eq_noPlace_iff {stuck : Node} : d.push t = .error (.noPlace stuck) ↔
    ∃ outer added, d.Attaches t outer added ∧ outer.attachRight added = .error stuck := by
  constructor
  · -- most tokens attach nothing, and fail otherwise or not at all
    intro h
    cases t with
    | openParen =>
      simp only [push, openGroup] at h
      split at h <;> cases h
    | closeParen =>
      simp only [push, closeGroup] at h
      split at h
      case h_4 around waiting group hwaiting hcurrent hprevious =>
        obtain ⟨outer, rfl, herror⟩ := attach_eq_noPlace_iff.1 (map_eq_error_iff.1 h)
        exact ⟨outer, group, .group hwaiting hcurrent hprevious, herror⟩
      all_goals cases h
    | operator op =>
      simp only [push, readOperator] at h
      split at h
      · cases h
      · split at h <;> cases h
    | operand text =>
      simp only [push, readOperand] at h
      split at h
      · next hdue =>
        obtain ⟨outer, hcurrent, herror⟩ := attach_eq_noPlace_iff.1 (map_eq_error_iff.1 h)
        exact ⟨outer, .leaf text, .operand hcurrent hdue, herror⟩
      · cases h
  · rintro ⟨outer, added, hattaches, herror⟩
    cases hattaches with
    | group hwaiting hcurrent hprevious =>
      rw [push, closeGroup_eq hwaiting hcurrent hprevious, map_eq_error_iff]
      exact attach_eq_noPlace_iff.2 ⟨outer, rfl, herror⟩
    | operand hcurrent hprevious =>
      rw [push, readOperand, if_pos hprevious, map_eq_error_iff]
      exact attach_eq_noPlace_iff.2 ⟨outer, hcurrent, herror⟩

/-- **In a sound draft, a complete node is attached to one that is open at its end.** -/
theorem Sound.attaches (hd : d.Sound) (h : d.Attaches t outer added) :
    outer.OpenAtEnd ∧ added.Complete := by
  cases h with
  | group hwaiting hcurrent hprevious =>
    exact ⟨hd.waiting outer (hwaiting ▸ List.mem_cons_self), hd.complete hprevious added hcurrent⟩
  | operand hcurrent hprevious =>
    refine ⟨?_, Node.complete_leaf _⟩
    -- an operand is due and something has been built, so an operator was read last
    cases hp : d.previous with
    | none => exact absurd (hd.current_eq_none_iff.2 (.inl hp)) (by simp [hcurrent])
    | some previous =>
      cases previous with
      | openParen => exact absurd (hd.current_eq_none_iff.2 (.inr hp)) (by simp [hcurrent])
      | operator op => exact hd.openAtEnd op hp outer hcurrent
      | closeParen => rw [hp] at hprevious; cases hprevious
      | operand text => rw [hp] at hprevious; cases hprevious

/-- A sound draft is never stuck. -/
theorem Sound.push_ne_noPlace (hd : d.Sound) (t : Token) (stuck : Node) :
    d.push t ≠ .error (.noPlace stuck) := by
  intro h
  obtain ⟨outer, added, hattaches, herror⟩ := push_eq_noPlace_iff.1 h
  obtain ⟨houter, hadded⟩ := hd.attaches hattaches
  obtain ⟨filled, hok, -⟩ := houter.exists_attachRight hadded
  rw [hok] at herror
  cases herror

end Draft

/-! ### Pictures are sound -/

namespace Spine

/-- What is open inside a spine is open in the whole of it. -/
theorem openAtEnd_around (s : Spine) {inner : Node} (h : inner.OpenAtEnd) :
    (s.around inner).OpenAtEnd := by
  induction s generalizing inner with
  | nil => exact h
  | cons outer s ih => exact ih (h.onward (Node.complete_ofTree outer.1))

/-- The picture of a spine lacks what fills its hole, and nothing else. -/
theorem openAtEnd_of_node? {s : Spine} {n : Node} (h : s.node? = some n) : n.OpenAtEnd := by
  cases s with
  | nil => cases h
  | cons outer s =>
    cases h
    exact openAtEnd_around s (Node.openAtEnd_last (Node.complete_ofTree outer.1))

/-- Around a node stand the operators of the spine. -/
theorem operatorCount_around (s : Spine) (inner : Node) :
    (s.around inner).operatorCount = inner.operatorCount + Spine.operatorCount s := by
  induction s generalizing inner with
  | nil => rfl
  | cons outer s ih =>
    rw [around_cons, ih, Node.operatorCount, Node.operatorCount_ofTree, Spine.operatorCount]
    omega

/-- The picture of a spine has the operators of the spine. -/
theorem operatorsOf_node? (s : Spine) : Draft.operatorsOf s.node? = Spine.operatorCount s := by
  cases s with
  | nil => rfl
  | cons outer s =>
    rw [node?, Draft.operatorsOf, operatorCount_around, Node.pending, Node.operatorCount,
      Node.operatorCount_ofTree, Spine.operatorCount]

end Spine

/-- The picture of a group has the operators that have been read of it. -/
theorem Content.operatorsOf_node? (content : Content) :
    Draft.operatorsOf content.node? = content.operatorCount := by
  cases content with
  | hole spine => exact spine.operatorsOf_node?
  | whole tree grouped => exact Node.operatorCount_ofTree tree

/-- **The picture of a state is sound.** -/
theorem State.sound_draft {s : State} (hs : s.Shown) (htallied : s.Tallied)
    (hlimited : s.operators ≤ maxOperators) : s.draft.Sound where
  current_eq_none_iff := by
    obtain ⟨content, groups, previous, n⟩ := s
    obtain ⟨hc, -⟩ := hs
    -- an empty hole, a hole behind an operator, or a whole tree
    rcases content with (_ | ⟨outer, spine⟩) | ⟨tree, grouped⟩
    · exact iff_of_true rfl hc
    · cases hc
      exact iff_of_false nofun nofun
    · refine iff_of_false nofun ?_
      rcases hc with rfl | ⟨text, rfl⟩ <;> nofun
  openAtEnd := by
    intro op hprevious m hm
    obtain ⟨spine | ⟨tree, grouped⟩, groups, previous, n⟩ := s
    · -- behind an operator there is a hole
      exact Spine.openAtEnd_of_node? hm
    · cases hprevious
      obtain ⟨hc, -⟩ := hs
      rcases hc with hc | ⟨text, hc⟩ <;> cases hc
  complete := by
    intro hprevious m hm
    obtain ⟨(_ | ⟨outer, spine⟩) | ⟨tree, grouped⟩, groups, previous, n⟩ := s
    · cases hm
    · -- so behind anything else there is none, unless nothing has been read
      exact absurd hs.content (hprevious outer.2)
    · cases hm
      exact Node.complete_ofTree tree
  waiting := by
    intro n hn
    obtain ⟨spine, -, hspine⟩ := List.mem_map.1 hn
    exact Spine.openAtEnd_of_node? hspine
  counted := by
    -- each picture has as many operators as what it shows
    have hgroups : (s.groups.map Spine.node?).map Draft.operatorsOf =
        s.groups.map Spine.operatorCount := by
      rw [List.map_map]
      exact List.map_congr_left fun spine _ => spine.operatorsOf_node?
    change s.operators = Draft.operatorsOf s.content.node? +
      ((s.groups.map Spine.node?).map Draft.operatorsOf).sum
    rw [hgroups, Content.operatorsOf_node?, htallied.counted]
  limited := hlimited
  rootIsGroup := htallied.grouped

namespace Draft

/-- A draft to which words lead is sound, and keeps the token that the last of them is. -/
theorem sound_of_foldlM_read {words : List String} {d : Draft}
    (h : words.foldlM read start = .ok d) :
    d.Sound ∧ d.previous = words.getLast?.bind Token.ofWord? := by
  rw [show start = State.start.draft from rfl, State.foldlM_read_draft State.shown_start,
    mapError_eq_ok_iff, map_eq_ok_iff] at h
  obtain ⟨s, hs, rfl⟩ := h
  -- of the state all three are known: what it shows, what it counts, and the limit
  obtain ⟨tokens, -, hrun⟩ := foldlM_read_eq_ok_iff.1 hs
  exact ⟨State.sound_draft (State.shown_start.foldlM_read hs) (State.tallied_start.run hrun)
    (State.reads_start.run hrun).operators_le, State.previous_of_foldlM_read hs⟩

/-- **No node is ever without a place.** Wherever reading a list of words into half-built nodes has
come, the draft is sound, and no token gets stuck. Whatever a token attaches is a complete node, and
goes to the one place that the node around it has; this is complete then, and takes nothing more. So
the reading as a whole is never stuck, and a node that it gives is complete. All along, the draft is
the picture of what the reader has read, and in the end both agree. -/
theorem accepted_sound (words : List String) :
    (∀ before, before <+: words →
      before.foldlM read start =
          ((before.foldlM State.read .start).map State.draft).mapError .parse ∧
      ∀ d, before.foldlM read start = .ok d →
        d.previous = before.getLast?.bind Token.ofWord? ∧ d.Sound ∧
        (∀ t stuck, d.push t ≠ .error (.noPlace stuck)) ∧
        ∀ t outer added, d.Attaches t outer added →
          outer.OpenAtEnd ∧ added.Complete ∧ ∃ filled, outer.attachRight added = .ok filled ∧
            Node.FilledAt (outer.spineEnd ++ [.right]) added outer filled ∧ filled.Complete ∧
              ∀ other, filled.attachRight other = .error other) ∧
    (∀ stuck, build words ≠ .error (.noPlace stuck)) ∧
    (∀ n, build words = .ok n → n.Complete) ∧
    build words = ((Parser.build words).map Node.ofTree).mapError .parse := by
  refine ⟨fun before _ => ⟨State.foldlM_read_draft State.shown_start before, fun d hd => ?_⟩,
    fun stuck h => ?_, fun n h => ?_, build_eq words⟩
  · obtain ⟨hsound, hprevious⟩ := sound_of_foldlM_read hd
    refine ⟨hprevious, hsound, hsound.push_ne_noPlace, fun t outer added hattaches => ?_⟩
    obtain ⟨houter, hadded⟩ := hsound.attaches hattaches
    exact ⟨houter, hadded, houter.exists_attachRight hadded⟩
  · -- the whole reading fails only as the other reader does
    rw [build_eq, mapError_eq_error_iff] at h
    obtain ⟨e, -, heq⟩ := h
    cases heq
  · rw [build_eq, mapError_eq_ok_iff, map_eq_ok_iff] at h
    obtain ⟨t, -, rfl⟩ := h
    exact Node.complete_ofTree t

/-- Two places are open at once: that of the comparison within the connective, where `c` goes, and
that of the connective around the group. -/
theorem accepted_sound_twoOpen :
    ∃ d outer, ["x", "OR", "(", "a", "AND", "b", ">"].foldlM read start = .ok d ∧
      outer = .mk .operator "AND" (some (.leaf "a"))
        (some (.pending (.relating .greater) (some (.leaf "b")))) ∧
      d.current = some outer ∧
      d.waiting = [some (.pending (.logical .or) (some (.leaf "x")))] ∧ d.Sound ∧
      d.Attaches (.operand "c") outer (.leaf "c") ∧ outer.OpenAtEnd ∧
      ∃ filled, outer.attachRight (.leaf "c") = .ok filled ∧ filled.Complete := by
  refine ⟨_, _, rfl, rfl, rfl, rfl, ?_⟩
  obtain ⟨-, hall⟩ := (accepted_sound ["x", "OR", "(", "a", "AND", "b", ">", "c", ")"]).1
    ["x", "OR", "(", "a", "AND", "b", ">"] ⟨["c", ")"], rfl⟩
  obtain ⟨-, hsound, -, hattaches⟩ := hall _ rfl
  obtain ⟨hopen, -, filled, hattach, -, hcomplete, -⟩ :=
    hattaches (.operand "c") _ (.leaf "c") (.operand rfl rfl)
  exact ⟨hsound, .operand rfl rfl, hopen, filled, hattach, hcomplete⟩

end Draft

end Rulebook.Parser
