import Rulebook.Parser

/-!
# The grammar of rules

What a list of tokens denotes, said without any reader:

    primary    ::= operand | "(" expression ")"
    comparison ::= primary | comparison (">" | "<" | "=" | "!=") primary
    expression ::= comparison | expression ("AND" | "OR") comparison

`Derives level tokens tree` says that the tokens derive the tree at one of the three levels. Both
levels with operators recur on the left, so their operators associate to the left; a comparison
takes primaries, so it binds tighter than a connective; and a group is a primary, so no operator
behind it takes a part of it. A group is worth the tree within it.

Two facts tie a derivation to its tokens: the operators of the tree are those among the tokens
(`Derives.countP_isOperator`), and every operand of the tree is one of the tokens
(`Derives.operand_mem`).
-/

namespace Rulebook

/-- The token is an operator. -/
def Token.isOperator : Token → Bool
  | .operator _ => true
  | _ => false

namespace Grammar

/-- The levels of the grammar, the tightest first. -/
inductive Level where
  | primary
  | comparison
  | expression
  deriving DecidableEq, Repr

/-- The tokens derive the tree at the level. -/
inductive Derives : Level → List Token → Tree → Prop where
  | operand (text : String) : Derives .primary [.operand text] (.operand text)
  | group {ts : List Token} {t : Tree} (h : Derives .expression ts t) :
      Derives .primary (.openParen :: (ts ++ [.closeParen])) t
  | primary {ts : List Token} {t : Tree} (h : Derives .primary ts t) : Derives .comparison ts t
  | relate {ts us : List Token} {l r : Tree} (c : Comparison) (hl : Derives .comparison ts l)
      (hr : Derives .primary us r) :
      Derives .comparison (ts ++ .operator (.relating c) :: us) (.node (.relating c) l r)
  | comparison {ts : List Token} {t : Tree} (h : Derives .comparison ts t) :
      Derives .expression ts t
  | join {ts us : List Token} {l r : Tree} (c : Connective) (hl : Derives .expression ts l)
      (hr : Derives .comparison us r) :
      Derives .expression (ts ++ .operator (.logical c) :: us) (.node (.logical c) l r)

variable {level : Level} {ts : List Token} {t : Tree}

/-- The operators of a derived tree are the operators among its tokens. -/
theorem Derives.countP_isOperator (h : Derives level ts t) :
    ts.countP Token.isOperator = t.operatorCount := by
  induction h with
  | operand text => rfl
  | group _ ih => simpa [Token.isOperator] using ih
  | primary _ ih => exact ih
  | comparison _ ih => exact ih
  -- the operator between the two sides is one more
  | relate _ _ _ ihl ihr | join _ _ _ ihl ihr =>
    rw [List.countP_append, List.countP_cons_of_pos rfl, ihl, ihr]
    rfl

/-- Every operand of a derived tree is one of its tokens. -/
theorem Derives.operand_mem (h : Derives level ts t) {text : String} (ht : text ∈ t.operands) :
    Token.operand text ∈ ts := by
  induction h with
  | operand s =>
    rw [List.mem_singleton.1 ht]
    exact List.mem_singleton_self _
  | group _ ih => exact List.mem_cons_of_mem _ (List.mem_append_left _ (ih ht))
  | primary _ ih => exact ih ht
  | comparison _ ih => exact ih ht
  -- the operand is on the left of the operator or on the right
  | relate _ _ _ ihl ihr | join _ _ _ ihl ihr =>
    rcases List.mem_append.1 ht with hl | hr
    · exact List.mem_append_left _ (ihl hl)
    · exact List.mem_append_right _ (List.mem_cons_of_mem _ (ihr hr))

end Grammar

end Rulebook
