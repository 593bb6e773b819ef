import Rulebook.Proofs.Node
import Rulebook.Proofs.Parser.Scanner

/-!
# Reading a rule into half-built nodes

A rule can also be read into nodes that are changed as the tokens come. A `Draft` keeps the node
that has been built of the innermost open group, and of each group around it the node that had been
built when the next one was opened. An operator is put on top of the current node, or takes the
right side out of it; an operand or a group is attached at the end of the right spine. Nothing in
the types says that there is a place for it, so `Draft.push` has one more fault than the reader of
`Rulebook.Parser`: a node without a place.

Both readers read alike. Between two tokens, a draft is the picture of the reader's state
(`State.draft`): in place of a spine it has the node that the spine is part of, with nothing where
the hole is. Taking the picture commutes with reading a token (`State.push_draft`), so the readers
accept the same words and agree on trees and faults (`Draft.build_eq`), and the additional fault
never occurs.
-/

namespace Rulebook

namespace Node

/-- The root is a connective that has its right side. -/
def isFilledConnective (n : Node) : Bool :=
  n.operator?.any Operator.isLogical && (n.child .right).isSome

/-- The operator takes over the right side of the root. -/
def takeRight (op : Operator) : Node → Node
  | .mk kind value left right => .mk kind value left (some (pending op right))

end Node

namespace Parser

/-- What has been read of a rule, as half-built nodes. -/
structure Draft where
  /-- The node built of the innermost open group, or of the rule outside all groups. -/
  current : Option Node
  /-- The nodes built around the open groups when these began, the innermost first. -/
  waiting : List (Option Node)
  /-- The token read last. -/
  previous : Option Token
  /-- All of the current node is one group in parentheses. -/
  rootIsGroup : Bool
  /-- How many operators have been read. -/
  operators : Nat

namespace Draft

/-- What can go wrong with a draft. -/
inductive Fault where
  /-- The rule is at fault. -/
  | parse (e : ParseError)
  /-- A node has to be attached where no operator waits for it. -/
  | noPlace (added : Node)

/-- Nothing has been read. -/
def start : Draft := ⟨none, [], none, false, 0⟩

/-- Attaches a node to what stands around it, if anything does. -/
def attach : Option Node → Node → Except Fault Node
  | none, added => .ok added
  | some outer, added => (outer.attachRight added).mapError .noPlace

/-- Puts an operator behind a node. If it may, it takes the right side of a connective. -/
def behind (takesRight : Bool) (op : Operator) : Option Node → Node
  | some n => if takesRight && n.isFilledConnective then n.takeRight op else .pending op (some n)
  | none => .pending op none

/-- Reads an opening parenthesis: the current node waits for the group. -/
def openGroup (d : Draft) : Except Fault Draft :=
  if Scanner.operandDue d.previous then
    .ok { d with current := none, waiting := d.current :: d.waiting, previous := some .openParen }
  else .error (.parse (.unexpectedGroup d.previous))

/-- Reads a closing parenthesis: the group is attached to the node that waits for it. -/
def closeGroup (d : Draft) : Except Fault Draft :=
  match d.waiting, d.current, d.previous with
  | [], _, _ => .error (.parse .unopenedGroup)
  | _ :: _, none, _ => .error (.parse .emptyGroup)
  | _ :: _, some _, some (.operator op) => .error (.parse (.incomplete op))
  | outer :: waiting, some group, _ =>
    (attach outer group).map fun whole =>
      ⟨some whole, waiting, some .closeParen, outer.isNone, d.operators⟩

/-- Reads an operator. A comparison may take the right side of a connective that is no group. -/
def readOperator (d : Draft) (op : Operator) : Except Fault Draft :=
  if Scanner.operandDue d.previous then .error (.parse (.unexpectedOperator op d.previous))
  else if d.operators + 1 > maxOperators then .error (.parse .tooComplex)
  else .ok ⟨some (behind (!op.isLogical && !d.rootIsGroup) op d.current), d.waiting,
    some (.operator op), false, d.operators + 1⟩

/-- Reads an operand: it is attached to the current node. -/
def readOperand (d : Draft) (text : String) : Except Fault Draft :=
  if Scanner.operandDue d.previous then
    (attach d.current (.leaf text)).map fun whole =>
      { d with current := some whole, previous := some (.operand text) }
  else .error (.parse (.unexpectedOperand text d.previous))

/-- Reads one token. -/
def push (d : Draft) : Token → Except Fault Draft
  | .openParen => d.openGroup
  | .closeParen => d.closeGroup
  | .operator op => d.readOperator op
  | .operand text => d.readOperand text

/-- Reads one word. -/
def read (d : Draft) (word : String) : Except Fault Draft :=
  match Token.ofWord? word with
  | none => .error (.parse (.invalidToken word))
  | some t => d.push t

/-- Ends the rule: it needs a node, no open group, and no operator at the end. -/
def finish (d : Draft) : Except Fault Node :=
  match d.current, d.waiting, d.previous with
  | none, _, _ => .error (.parse .emptyRule)
  | some _, _ :: _, _ => .error (.parse .unclosedGroup)
  | some _, [], some (.operator op) => .error (.parse (.incomplete op))
  | some root, [], _ => .ok root

/-- The node that a list of words denotes. -/
def build (words : List String) : Except Fault Node :=
  words.foldlM read start >>= finish

/-- A closing parenthesis behind a group that does not end with an operator attaches the group. -/
theorem closeGroup_eq {d : Draft} {outer : Option Node} {waiting : List (Option Node)}
    {group : Node} (hwaiting : d.waiting = outer :: waiting) (hcurrent : d.current = some group)
    (hprevious : ∀ op, d.previous ≠ some (.operator op)) :
    d.closeGroup = (attach outer group).map fun whole =>
      ⟨some whole, waiting, some .closeParen, outer.isNone, d.operators⟩ := by
  obtain ⟨current, _, previous, _, n⟩ := d
  cases hwaiting
  cases hcurrent
  rcases previous with _ | _ | _ | op | text
  case some.operator => exact absurd rfl (hprevious op)
  all_goals rfl

end Draft

/-! ### Pictures -/

namespace Spine

/-- The nodes of a spine around what stands in its hole. -/
def around (s : Spine) (inner : Node) : Node :=
  s.foldl (fun inner outer =>
    .mk .operator outer.2.symbol (some (.ofTree outer.1)) (some inner)) inner

/-- The picture of a spine: its nodes, of which the innermost waits for what fills the hole. -/
def node? : Spine → Option Node
  | [] => none
  | outer :: s => some (around s (.pending outer.2 (some (.ofTree outer.1))))

/-- The innermost node comes first, and the others stand around it. -/
theorem around_cons (outer : Tree × Operator) (s : Spine) (inner : Node) :
    around (outer :: s) inner =
      around s (.mk .operator outer.2.symbol (some (.ofTree outer.1)) (some inner)) := rfl

/-- Around a tree stand the nodes of the filled spine. -/
theorem around_ofTree (s : Spine) (t : Tree) : s.around (.ofTree t) = .ofTree (s.fill t) := by
  -- filling goes from the inside to the outside, with ever larger trees
  induction s generalizing t with
  | nil => rfl
  | cons outer s ih => exact ih (.node outer.2 outer.1 t)

/-- What is attached goes down to the innermost node of a spine. -/
theorem attachRight_around (s : Spine) {inner filled added : Node}
    (h : inner.attachRight added = .ok filled) :
    (s.around inner).attachRight added = .ok (s.around filled) := by
  -- each node around hands what is attached to its right side
  induction s generalizing inner filled with
  | nil => exact h
  | cons outer s ih =>
    apply ih
    rw [Node.attachRight, h]
    rfl

/-- **Attaching to the picture of a spine fills its hole.** -/
theorem attach_node? (s : Spine) (t : Tree) :
    Draft.attach s.node? (.ofTree t) = .ok (.ofTree (s.fill t)) := by
  cases s with
  | nil => rfl
  | cons outer s =>
    -- only the innermost node waits, and with its right side it is that of a tree
    have hinner : (Node.pending outer.2 (some (.ofTree outer.1))).attachRight (.ofTree t) =
        .ok (.ofTree (.node outer.2 outer.1 t)) := rfl
    rw [node?, Draft.attach, attachRight_around s hinner, around_ofTree]
    rfl

end Spine

/-- The picture of what has been read of a group. -/
def Content.node? : Content → Option Node
  | .hole spine => spine.node?
  | .whole tree _ => some (.ofTree tree)

/-- What has been read of a group is a tree that is one group in parentheses. -/
def Content.isGroup : Content → Bool
  | .hole _ => false
  | .whole _ grouped => grouped

namespace State

/-- The picture of a state. -/
def draft (s : State) : Draft :=
  ⟨s.content.node?, s.groups.map Spine.node?, s.previous, s.content.isGroup, s.operators⟩

/-- Behind the picture of a tree, an operator opens the picture of the spine that it opens behind
the tree. -/
theorem behind_ofTree (tree : Tree) (grouped : Bool) (op : Operator) :
    some (Draft.behind (!op.isLogical && !grouped) op (some (.ofTree tree))) =
      (spineBehind tree grouped op).node? := by
  cases tree with
  -- an operand has no right side to take
  | operand text =>
    rw [Draft.behind, if_neg (by simp [Node.isFilledConnective, Node.ofTree, Node.operator?])]
    rfl
  | node root l r =>
    have hroot : (Node.ofTree (.node root l r)).isFilledConnective = root.isLogical := by
      simp [Node.isFilledConnective, Node.ofTree, Node.operator?, Node.child]
    rw [Draft.behind, hroot]
    cases root with
    | relating c =>
      rw [if_neg (by simp [Operator.isLogical])]
      rfl
    -- a connective is the only root that an operator reaches into
    | logical c => cases op <;> cases grouped <;> rfl

variable {content : Content} {groups : List Spine} {previous : Option Token} {n : Nat}

/-- An opening parenthesis is read alike. -/
theorem openGroup_draft (hc : content.ShownBy previous) :
    (draft ⟨content, groups, previous, n⟩).openGroup =
      ((openGroup ⟨content, groups, previous, n⟩).map draft).mapError .parse := by
  cases content with
  | hole spine =>
    rw [Draft.openGroup, draft, if_pos hc.operandDue_hole]
    rfl
  | whole tree grouped =>
    rw [Draft.openGroup, draft, if_neg (by simp [hc.operandDue_whole])]
    rfl

/-- A closing parenthesis is read alike. -/
theorem closeGroup_draft (hc : content.ShownBy previous) :
    (draft ⟨content, groups, previous, n⟩).closeGroup =
      ((closeGroup ⟨content, groups, previous, n⟩).map draft).mapError .parse := by
  cases groups with
  | nil => rfl
  | cons outer groups =>
    cases content with
    | hole spine =>
      cases spine with
      | nil => rfl
      -- behind an operator the group breaks off
      | cons inner spine => cases hc; rfl
    | whole tree grouped =>
      have hprevious : ∀ op, previous ≠ some (.operator op) := by
        rcases hc with rfl | ⟨text, rfl⟩ <;> exact fun _ => nofun
      -- there is no node around the group exactly if nothing has been read around it
      have hisNone : outer.node?.isNone = outer.isEmpty := by cases outer <;> rfl
      rw [Draft.closeGroup_eq rfl rfl hprevious, Spine.attach_node?, hisNone]
      rfl

/-- An operator is read alike. -/
theorem readOperator_draft (hc : content.ShownBy previous) (op : Operator) :
    (draft ⟨content, groups, previous, n⟩).readOperator op =
      ((readOperator ⟨content, groups, previous, n⟩ op).map draft).mapError .parse := by
  cases content with
  | hole spine =>
    rw [Draft.readOperator, draft, if_pos hc.operandDue_hole]
    rfl
  | whole tree grouped =>
    rw [Draft.readOperator, draft, if_neg (by simp [hc.operandDue_whole]), readOperator]
    dsimp only
    -- within the limit, what the operator opens has the picture that is built
    split
    · rfl
    · simp only [Content.node?, Content.isGroup, behind_ofTree]
      rfl

/-- An operand is read alike. -/
theorem readOperand_draft (hc : content.ShownBy previous) (text : String) :
    (draft ⟨content, groups, previous, n⟩).readOperand text =
      ((readOperand ⟨content, groups, previous, n⟩ text).map draft).mapError .parse := by
  cases content with
  | hole spine =>
    have hattach : Draft.attach spine.node? (.leaf text) =
        .ok (.ofTree (spine.fill (.operand text))) := spine.attach_node? (.operand text)
    rw [Draft.readOperand, draft, if_pos hc.operandDue_hole]
    dsimp only [Content.node?]
    rw [hattach]
    rfl
  | whole tree grouped =>
    rw [Draft.readOperand, draft, if_neg (by simp [hc.operandDue_whole])]
    rfl

/-- **Taking the picture commutes with reading a token.** -/
theorem push_draft {s : State} (hs : s.Shown) (t : Token) :
    s.draft.push t = ((s.push t).map draft).mapError .parse := by
  cases t with
  | openParen => exact openGroup_draft hs.content
  | closeParen => exact closeGroup_draft hs.content
  | operator op => exact readOperator_draft hs.content op
  | operand text => exact readOperand_draft hs.content text

/-- Taking the picture commutes with reading words one after another. -/
theorem foldlM_read_draft {s : State} (hs : s.Shown) (words : List String) :
    words.foldlM Draft.read s.draft = ((words.foldlM read s).map draft).mapError .parse := by
  induction words generalizing s with
  | nil => rfl
  | cons word words ih =>
    rw [List.foldlM_cons, List.foldlM_cons]
    cases hw : Token.ofWord? word with
    -- a word that is no token is refused by both
    | none =>
      simp only [read, Draft.read, hw]
      rfl
    | some t =>
      simp only [read, Draft.read, hw, push_draft hs]
      cases hp : s.push t with
      | error e => rfl
      -- the next state shows what was read last, so the picture of it can be read on
      | ok s' => exact ih (Shown.step (push_eq_ok_iff.1 hp))

/-- The picture of a state ends a rule as the state does. -/
theorem finish_draft {s : State} (hs : s.Shown) :
    s.draft.finish = (s.finish.map Node.ofTree).mapError .parse := by
  obtain ⟨content, groups, previous, n⟩ := s
  obtain ⟨hc, -⟩ := hs
  cases content with
  | hole spine =>
    cases spine with
    | nil => rfl
    | cons outer spine => cases hc; cases groups <;> rfl
  | whole tree grouped =>
    rcases hc with hp | ⟨text, hp⟩ <;> cases hp <;> cases groups <;> rfl

/-- What has been read last shows in every state that reading words leads to. -/
theorem Shown.foldlM_read {s s' : State} {words : List String} (hs : s.Shown)
    (h : words.foldlM read s = .ok s') : s'.Shown := by
  refine invariant_foldlM (fun _ _ _ _ hread => ?_) hs h
  obtain ⟨t, -, hstep⟩ := read_eq_ok_iff.1 hread
  exact Shown.step hstep

end State

/-- **Both readers agree.** Reading a list of words into half-built nodes gives the node of the
tree that the reader gives, or the reader's fault. -/
theorem Draft.build_eq (words : List String) :
    Draft.build words = ((Parser.build words).map Node.ofTree).mapError .parse := by
  have hread : words.foldlM Draft.read start =
      ((words.foldlM State.read .start).map State.draft).mapError .parse :=
    State.foldlM_read_draft State.shown_start words
  rw [Draft.build, Parser.build, hread]
  -- what was read last shows at the end as well
  cases hs : words.foldlM State.read .start with
  | error e => rfl
  | ok s => exact State.finish_draft (State.shown_start.foldlM_read hs)

end Parser

end Rulebook
