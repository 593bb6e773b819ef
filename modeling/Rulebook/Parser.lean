import Rulebook.ParseError

/-!
# Reading a rule

A rule is read in one pass over its tokens. Comparisons bind tighter than connectives, both
associate to the left, and a group in parentheses is never torn open by the operator behind it.

What has been read of a group is either a *whole* tree, or a tree with one hole in it: the missing
right operand of the operator read last. The hole sits at the end of the right spine, so the tree
around it is kept as the list of spine nodes, the innermost first (`Spine`). The empty spine is the
hole by itself, with nothing around it: nothing has been read of the group yet. Each group that is
still open waits on a stack as the spine that its content will fill.

`Parser.State.push` reads one token, `Parser.build` a list of words and `Parser.parse` a text.
-/

namespace Rulebook.Parser

/-- A tree with one hole at the end of its right spine: the spine's nodes from the hole outwards,
each with its left operand and its operator. -/
abbrev Spine := List (Tree × Operator)

/-- Closes the hole of a spine with a tree. -/
def Spine.fill (s : Spine) (t : Tree) : Tree :=
  s.foldl (fun inner outer => .node outer.2 outer.1 inner) t

/-- What has been read of a group. -/
inductive Content where
  /-- An operand is due, at the hole of the spine. -/
  | hole (spine : Spine)
  /-- A tree without a hole; `grouped` if all of it is one group in parentheses. -/
  | whole (tree : Tree) (grouped : Bool)
  deriving DecidableEq, Repr

/-- The state of the reader between two tokens. -/
structure State where
  /-- What has been read of the innermost open group, or of the rule outside all groups. -/
  content : Content
  /-- The spines that the open groups will fill, the innermost first. -/
  groups : List Spine
  /-- The token read last. -/
  previous : Option Token
  /-- How many operators have been read. -/
  operators : Nat
  deriving DecidableEq, Repr

namespace State

/-- Nothing has been read. -/
def start : State := ⟨.hole [], [], none, 0⟩

/-- The spine that an operator opens behind a whole tree. A comparison takes the right operand of a
connective at the root, unless the whole tree is a group; everything else takes the whole tree. -/
def spineBehind (tree : Tree) (grouped : Bool) (op : Operator) : Spine :=
  match tree with
  | .node (.logical c) left right =>
    -- the comparison reaches into the connective, whose hole lies outside its own
    if op.isLogical || grouped then [(tree, op)] else [(right, op), (left, .logical c)]
  | _ => [(tree, op)]

/-- Reads an opening parenthesis: the group will fill the hole. -/
def openGroup (s : State) : Except ParseError State :=
  match s.content with
  | .whole _ _ => .error (.unexpectedGroup s.previous)
  | .hole spine => .ok ⟨.hole [], spine :: s.groups, some .openParen, s.operators⟩

/-- Reads a closing parenthesis: the content of the group fills the hole that waits for it. -/
def closeGroup (s : State) : Except ParseError State :=
  match s.groups, s.content with
  | [], _ => .error .unopenedGroup
  | _ :: _, .hole [] => .error .emptyGroup
  | _ :: _, .hole ((_, op) :: _) => .error (.incomplete op)
  | outer :: groups, .whole tree _ =>
    -- with nothing around it, the whole tree is this group
    .ok ⟨.whole (outer.fill tree) outer.isEmpty, groups, some .closeParen, s.operators⟩

/-- Reads an operator: it opens a hole behind a whole tree. -/
def readOperator (s : State) (op : Operator) : Except ParseError State :=
  match s.content with
  | .hole _ => .error (.unexpectedOperator op s.previous)
  | .whole tree grouped =>
    if s.operators + 1 > maxOperators then .error .tooComplex
    else .ok ⟨.hole (spineBehind tree grouped op), s.groups, some (.operator op), s.operators + 1⟩

/-- Reads an operand: it fills the hole. -/
def readOperand (s : State) (text : String) : Except ParseError State :=
  match s.content with
  | .whole _ _ => .error (.unexpectedOperand text s.previous)
  | .hole spine => .ok ⟨.whole (spine.fill (.operand text)) false, s.groups,
      some (.operand text), s.operators⟩

/-- Reads one token. -/
def push (s : State) : Token → Except ParseError State
  | .openParen => s.openGroup
  | .closeParen => s.closeGroup
  | .operator op => s.readOperator op
  | .operand text => s.readOperand text

/-- Reads one word. -/
def read (s : State) (word : String) : Except ParseError State :=
  match Token.ofWord? word with
  | none => .error (.invalidToken word)
  | some t => s.push t

/-- Ends the rule: it needs content, no open group, and no hole. -/
def finish (s : State) : Except ParseError Tree :=
  match s.content, s.groups with
  -- where nothing has been read of the innermost group, the whole rule counts as empty
  | .hole [], _ => .error .emptyRule
  | _, _ :: _ => .error .unclosedGroup
  | .hole ((_, op) :: _), [] => .error (.incomplete op)
  | .whole tree _, [] => .ok tree

end State

/-- The tree that a list of words denotes. The first word at fault decides the error. -/
def build (words : List String) : Except ParseError Tree :=
  words.foldlM State.read State.start >>= State.finish

/-- The tree that a text denotes. -/
def parse (rule : String) : Except ParseError Tree :=
  build (Token.words rule)

/-! ### Equations of the spine -/

@[simp]
theorem Spine.fill_nil (t : Tree) : Spine.fill [] t = t := rfl

@[simp]
theorem Spine.fill_cons (outer : Tree × Operator) (s : Spine) (t : Tree) :
    Spine.fill (outer :: s) t = Spine.fill s (.node outer.2 outer.1 t) := rfl

/-- How many operators a spine has, those of its left operands included. -/
def Spine.operatorCount : Spine → Nat
  | [] => 0
  | outer :: s => outer.1.operatorCount + 1 + Spine.operatorCount s

/-- Filling a hole adds the operators of the spine to those of the filling. -/
theorem Spine.operatorCount_fill (s : Spine) (t : Tree) :
    (Spine.fill s t).operatorCount = t.operatorCount + Spine.operatorCount s := by
  induction s generalizing t with
  | nil => rfl
  | cons outer s ih =>
    rw [Spine.fill_cons, ih, Tree.operatorCount_node, Spine.operatorCount]
    omega

end Rulebook.Parser
