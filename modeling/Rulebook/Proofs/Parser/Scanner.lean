import Rulebook.Proofs.Parser.Run

/-!
# The faults of a rule

What is wrong with a rule can be told without its tree. `Scanner` reads the words of a rule from
left to right and keeps nothing but the token read last, the number of open groups and the number of
operators; the first word that it does not allow decides the fault. The reader of `Rulebook.Parser`
looks at half-built trees instead, and still accepts the same rules and finds the same fault in
every other one (`build_eq_scan`).

The reader's state is flattened to the scanner's by `State.flat`. Flattening commutes with reading a
token (`State.flat_push`) in every state that is `Shown` by its last token: what has been read of
the innermost group is nothing at the start and behind an open parenthesis, has a hole behind an
operator, and is whole behind all else. Every step leads to such a state again (`State.Shown.step`).
-/

namespace Rulebook

/-! ### The scanner -/

namespace Scanner

/-- What the scanner keeps between two tokens. -/
structure State where
  /-- The token read last. -/
  previous : Option Token
  /-- How many groups are open. -/
  depth : Nat
  /-- How many operators have been read. -/
  operators : Nat
  deriving DecidableEq, Repr

/-- Nothing has been read. -/
def start : State := ⟨none, 0, 0⟩

/-- An operand or a group is due: at the start, in a new group, and behind an operator. -/
def operandDue : Option Token → Bool
  | none | some .openParen | some (.operator _) => true
  | some .closeParen | some (.operand _) => false

/-- Allows a token, or says what is wrong with it. -/
def step (s : State) : Token → Except ParseError State
  | .openParen =>
    if operandDue s.previous then .ok ⟨some .openParen, s.depth + 1, s.operators⟩
    else .error (.unexpectedGroup s.previous)
  | .closeParen =>
    if s.depth = 0 then .error .unopenedGroup
    else match s.previous with
      | some .openParen => .error .emptyGroup
      | some (.operator op) => .error (.incomplete op)
      | _ => .ok ⟨some .closeParen, s.depth - 1, s.operators⟩
  | .operator op =>
    if operandDue s.previous then .error (.unexpectedOperator op s.previous)
    else if s.operators < maxOperators then
      .ok ⟨some (.operator op), s.depth, s.operators + 1⟩
    else .error .tooComplex
  | .operand text =>
    if operandDue s.previous then .ok ⟨some (.operand text), s.depth, s.operators⟩
    else .error (.unexpectedOperand text s.previous)

/-- Allows a word, or says what is wrong with it. -/
def read (s : State) (word : String) : Except ParseError State :=
  match Token.ofWord? word with
  | none => .error (.invalidToken word)
  | some t => step s t

/-- Allows the rule to end, or says what it lacks. -/
def finish (s : State) : Except ParseError Unit :=
  if s.previous = none ∨ s.previous = some .openParen then .error .emptyRule
  else if 0 < s.depth then .error .unclosedGroup
  else match s.previous with
    | some (.operator op) => .error (.incomplete op)
    | _ => .ok ()

/-- Accepts a list of words, or says what is wrong with it. -/
def scan (words : List String) : Except ParseError Unit :=
  words.foldlM read start >>= finish

/-- A token that is allowed is the last one afterwards. -/
theorem previous_of_step {s s' : State} {t : Token} (h : step s t = .ok s') :
    s'.previous = some t := by
  cases t <;> simp only [step] at h <;> repeat' split at h
  -- what is left are the cases in which the token is allowed
  all_goals cases h
  all_goals rfl

/-- The place behind what has been scanned is named by the word scanned last. -/
theorem place_previous {words : List String} {s : State}
    (h : words.foldlM read start = .ok s) :
    ParseError.place s.previous = words.getLast?.getD (ParseError.place none) := by
  rcases List.eq_nil_or_concat words with rfl | ⟨before, word, rfl⟩
  · cases h
    rfl
  · rw [List.concat_eq_append, foldlM_concat_eq_ok_iff] at h
    obtain ⟨s₀, -, hread⟩ := h
    rw [List.concat_eq_append, List.getLast?_concat]
    cases hw : Token.ofWord? word with
    | none => simp only [read, hw, reduceCtorEq] at hread
    | some t =>
      simp only [read, hw] at hread
      rw [previous_of_step hread]
      exact Token.text_of_ofWord? hw

end Scanner

/-! ### What the last token shows -/

namespace Parser

/-- What has been read of a group is as the token read last shows. -/
def Content.ShownBy : Content → Option Token → Prop
  | .hole [], previous => previous = none ∨ previous = some .openParen
  | .hole ((_, op) :: _), previous => previous = some (.operator op)
  | .whole _ _, previous => previous = some .closeParen ∨ ∃ text, previous = some (.operand text)

namespace State

/-- The token read last shows what has been read of the innermost group. At the start, that is the
rule outside all groups. -/
structure Shown (s : State) : Prop where
  content : s.content.ShownBy s.previous
  outside : s.previous = none → s.groups = []

theorem shown_start : start.Shown :=
  ⟨.inl rfl, fun _ => rfl⟩

/-- The operator that opens a hole stands next to it. -/
theorem shownBy_spineBehind (tree : Tree) (grouped : Bool) (op : Operator) :
    (Content.hole (spineBehind tree grouped op)).ShownBy (some (.operator op)) := by
  cases tree with
  | operand text => rfl
  | node root l r =>
    cases root with
    | relating c => rfl
    | logical c =>
      simp only [spineBehind]
      split <;> rfl

/-- Every step leads to a state that its token shows. -/
theorem Shown.step {s s' : State} {t : Token} (h : Step s t s') : s'.Shown := by
  cases h with
  | openParen spine groups previous n => exact ⟨.inr rfl, nofun⟩
  | closeParen tree grouped outer groups previous n => exact ⟨.inl rfl, nofun⟩
  | operator op tree grouped groups previous n _ =>
    exact ⟨shownBy_spineBehind tree grouped op, nofun⟩
  | operand text spine groups previous n => exact ⟨.inr ⟨text, rfl⟩, nofun⟩

/-- The state without its trees. -/
def flat (s : State) : Scanner.State :=
  ⟨s.previous, s.groups.length, s.operators⟩

end State

/-- In a hole an operand is due. -/
theorem Content.ShownBy.operandDue_hole {spine : Spine} {previous : Option Token}
    (h : (Content.hole spine).ShownBy previous) : Scanner.operandDue previous = true := by
  cases spine with
  | nil => rcases h with rfl | rfl <;> rfl
  | cons n spine => cases h; rfl

theorem Content.ShownBy.operandDue_whole {tree : Tree} {grouped : Bool}
    {previous : Option Token} (h : (Content.whole tree grouped).ShownBy previous) :
    Scanner.operandDue previous = false := by
  rcases h with rfl | ⟨text, rfl⟩ <;> rfl

namespace State

/-- **Flattening commutes with reading a token.** -/
theorem flat_push {s : State} (hs : s.Shown) (t : Token) :
    (s.push t).map flat = Scanner.step s.flat t := by
  obtain ⟨content, groups, previous, n⟩ := s
  obtain ⟨hc, hout⟩ := hs
  -- of the content only its shape matters, and the last token shows it
  cases t with
  | openParen =>
    cases content with
    | hole spine => simp [push, openGroup, Scanner.step, flat, hc.operandDue_hole, Except.map]
    | whole tree grouped =>
      simp [push, openGroup, Scanner.step, flat, hc.operandDue_whole, Except.map]
  | closeParen =>
    cases groups with
    | nil => rfl
    | cons outer groups =>
      cases content with
      | hole spine =>
        cases spine with
        | nil =>
          -- a group is open, so this is not the start of the rule
          rcases hc with hp | hp
          · exact absurd (hout hp) (List.cons_ne_nil _ _)
          · cases hp; rfl
        | cons n spine => cases hc; rfl
      | whole tree grouped => rcases hc with hp | ⟨text, hp⟩ <;> cases hp <;> rfl
  | operator op =>
    cases content with
    | hole spine => simp [push, readOperator, Scanner.step, flat, hc.operandDue_hole, Except.map]
    | whole tree grouped =>
      -- the limit is looked at in the same place
      by_cases hn : n < maxOperators
      · have hroom : ¬ maxOperators < n + 1 := by omega
        simp [push, readOperator, Scanner.step, flat, hc.operandDue_whole, Except.map, hn, hroom]
      · have hfull : maxOperators < n + 1 := by omega
        simp [push, readOperator, Scanner.step, flat, hc.operandDue_whole, Except.map, hn, hfull]
  | operand text =>
    cases content with
    | hole spine => simp [push, readOperand, Scanner.step, flat, hc.operandDue_hole, Except.map]
    | whole tree grouped =>
      simp [push, readOperand, Scanner.step, flat, hc.operandDue_whole, Except.map]

/-- Flattening commutes with ending a rule, but for the tree. -/
theorem flat_finish {s : State} (hs : s.Shown) :
    s.finish.map (fun _ => ()) = Scanner.finish s.flat := by
  obtain ⟨content, groups, previous, n⟩ := s
  obtain ⟨hc, -⟩ := hs
  cases content with
  | hole spine =>
    cases spine with
    | nil => rcases hc with hp | hp <;> cases hp <;> rfl
    | cons n spine => cases hc; cases groups <;> simp [finish, Scanner.finish, flat, Except.map]
  | whole tree grouped =>
    rcases hc with hp | ⟨text, hp⟩ <;> cases hp <;> cases groups <;>
      simp [finish, Scanner.finish, flat, Except.map]

/-- Flattening commutes with reading words one after another and ending the rule behind them. -/
theorem flat_run {s : State} (hs : s.Shown) (words : List String) :
    (words.foldlM read s >>= finish).map (fun _ => ()) =
      words.foldlM Scanner.read s.flat >>= Scanner.finish := by
  -- both read word by word, and stop at the same one
  induction words generalizing s with
  | nil => exact flat_finish hs
  | cons word words ih =>
    rw [List.foldlM_cons, List.foldlM_cons]
    cases hw : Token.ofWord? word with
    | none => simp [read, Scanner.read, hw, bind, Except.bind, Except.map]
    | some t =>
      have hpush := flat_push hs t
      simp only [read, Scanner.read, hw]
      cases hp : s.push t with
      | error e =>
        rw [← hpush, hp]
        rfl
      | ok s' =>
        rw [← hpush, hp]
        exact ih (Shown.step (push_eq_ok_iff.1 hp))

end State

/-- **The fault of a rule is the fault that the scanner finds.** A list of words is read as some
tree if the scanner accepts it, and is otherwise refused with the scanner's fault. Wherever the
scanner has come, the place that a fault names is the word in front, and the start of the rule if
there is none. -/
theorem build_eq_scan :
    (∀ words, (build words).map (fun _ => ()) = Scanner.scan words) ∧
      ∀ (before : List String) (s : Scanner.State),
        before.foldlM Scanner.read Scanner.start = .ok s →
          ParseError.place s.previous = before.getLast?.getD "规则开头" :=
  ⟨State.flat_run State.shown_start, fun _ _ h => Scanner.place_previous h⟩

end Parser

end Rulebook
