import Rulebook.Proofs.Words
import Rulebook.Proofs.Parser.Denotation

/-!
# Reading what was written

`Tree.text` writes a tree with every operator in parentheses. This module proves that reading the
text gives the tree back exactly where it can (`parse_text_eq_ok_iff`): when every operand of the
tree reads as itself and the tree has no more than `maxOperators` operators (`Tree.Readable`).

The proof goes through the tokens of the text. `Tree.tokens` lists them; the text is cut into their
words, whatever detached text follows (`wordsFrom_chars`); and they derive the tree
(`Tree.derives_tokens`), each pair of parentheses being a group. In the other direction, only
readable trees are ever read (`readable_of_parse`), so what was read once is read again from its own
text.
-/

namespace Rulebook

open Grammar

namespace Tree

/-- The tokens of a tree's text. -/
def tokens : Tree → List Token
  | .operand text => [.operand text]
  | .node op left right =>
    .openParen :: (left.tokens ++ .operator op :: (right.tokens ++ [.closeParen]))

/-- The tree can be read: its operands read as themselves, and its operators are not too many. -/
structure Readable (t : Tree) : Prop where
  operands : ∀ v ∈ t.operands, Token.ofWord? v = some (.operand v)
  operators : t.operatorCount ≤ maxOperators

/-- An operand that reads as itself is not empty. -/
theorem Readable.operand_ne_empty {t : Tree} (h : t.Readable) : ∀ s ∈ t.operands, s ≠ "" := by
  rintro s hs rfl
  exact absurd (h.operands "" hs) (by decide)

/-- The text of a tree that can be read is not empty. -/
theorem Readable.length_text_pos {t : Tree} (h : t.Readable) : 1 ≤ t.text.length := by
  rw [text, String.length_ofList]
  cases t with
  | operand s =>
    have hne : s ≠ "" := h.operand_ne_empty s (List.mem_singleton_self s)
    rw [chars, Nat.one_le_iff_ne_zero, Ne, List.length_eq_zero_iff, String.toList_eq_nil_iff]
    exact hne
  -- an operator is written in parentheses
  | node op l r => exact Nat.le_add_left _ _

/-- The tokens of a tree derive it as a primary, whatever its operators. -/
theorem derives_tokens (t : Tree) : Derives .primary t.tokens t := by
  induction t with
  | operand text => exact .operand text
  | node op l r ihl ihr =>
    have htokens : l.tokens ++ .operator op :: (r.tokens ++ [.closeParen])
        = (l.tokens ++ .operator op :: r.tokens) ++ [.closeParen] := by
      rw [List.append_assoc, List.cons_append]
    rw [tokens, htokens]
    cases op with
    -- the two sides are primaries, which may stand anywhere
    | logical c => exact .group (.join c (.comparison (.primary ihl)) (.primary ihr))
    | relating c => exact .group (.comparison (.relate c (.primary ihl) ihr))

/-- The tokens of a tree read as themselves if its operands do. -/
theorem ofWord?_text_of_mem_tokens {t : Tree}
    (h : ∀ v ∈ t.operands, Token.ofWord? v = some (.operand v)) :
    ∀ k ∈ t.tokens, Token.ofWord? k.text = some k := by
  induction t with
  | operand text =>
    intro k hk
    rw [List.mem_singleton.1 hk]
    exact h text (List.mem_singleton_self _)
  | node op l r ihl ihr =>
    intro k hk
    simp only [tokens, List.mem_cons, List.mem_append, List.not_mem_nil, or_false] at hk
    rcases hk with rfl | hk | rfl | hk | rfl
    · rfl
    · exact ihl (fun v hv => h v (List.mem_append_left _ hv)) k hk
    · exact Token.ofWord?_symbol op
    · exact ihr (fun v hv => h v (List.mem_append_right _ hv)) k hk
    · rfl

/-- The characters of a tree are cut into the words of its tokens, whatever detached text
follows. -/
theorem wordsFrom_chars {t : Tree} (h : ∀ v ∈ t.operands, Token.ofWord? v = some (.operand v)) :
    ∀ cs, Token.Detached cs →
      Token.wordsFrom [] (t.chars ++ cs) =
        t.tokens.map (fun k => k.text.toList) ++ Token.wordsFrom [] cs := by
  induction t with
  | operand text =>
    intro cs hcs
    exact Token.wordsFrom_word
      (Token.isWord_of_ofWord? (h text (List.mem_singleton_self _))) hcs
  | node op l r ihl ihr =>
    intro cs hcs
    have hl := ihl fun v hv => h v (List.mem_append_left _ hv)
    have hr := ihr fun v hv => h v (List.mem_append_right _ hv)
    have hspace : ∀ us, Token.Detached (' ' :: us) := Token.detached_cons rfl
    have hclose : Token.Detached (')' :: cs) := Token.detached_cons rfl cs
    simp only [chars, tokens, List.cons_append, List.append_assoc, List.nil_append,
      List.map_cons, List.map_append, List.map_nil]
    -- from left to right: "(", the left operand, the operator, the right operand, ")"
    rw [Token.wordsFrom_paren (.inl rfl), hl _ (hspace _), Token.wordsFrom_blank,
      Token.wordsFrom_word (Token.isWord_symbol op) (hspace _), Token.wordsFrom_blank, hr _ hclose,
      Token.wordsFrom_paren (.inr rfl)]
    rfl

/-- The words of a tree's text are its tokens. -/
theorem words_text {t : Tree} (h : ∀ v ∈ t.operands, Token.ofWord? v = some (.operand v)) :
    Token.words t.text = t.tokens.map Token.text := by
  have hw := wordsFrom_chars h [] Token.detached_nil
  rw [List.append_nil] at hw
  rw [Token.words, text, String.toList_ofList, hw]
  simp [Token.wordsFrom, Token.endWord]

end Tree

namespace Parser

/-- A readable tree is read from its text. -/
theorem parse_text {t : Tree} (h : t.Readable) : parse t.text = .ok t := by
  rw [parse, Tree.words_text h.operands]
  have htokens := Token.mapM_ofWord?_text (Tree.ofWord?_text_of_mem_tokens h.operands)
  exact build_of_derives htokens (.comparison (.primary t.derives_tokens)) h.operators

/-- Only readable trees are read. -/
theorem readable_of_parse {rule : String} {t : Tree} (h : parse rule = .ok t) : t.Readable := by
  obtain ⟨tokens, htokens, hderives, hn⟩ := derives_of_build h
  refine ⟨fun v hv => ?_, hderives.countP_isOperator ▸ hn⟩
  exact Token.ofWord?_text_of_mapM htokens (hderives.operand_mem hv)

/-- **Writing and reading are inverse exactly where they can be.** A tree is read from its own text
if and only if each of its operands reads as itself and it has at most `maxOperators` operators; so
a tree that was read from any rule is read from its own text too. -/
theorem parse_text_eq_ok_iff (t : Tree) :
    (parse t.text = .ok t ↔
      (∀ v ∈ t.operands, Token.ofWord? v = some (.operand v)) ∧
        t.operatorCount ≤ maxOperators) ∧
      ∀ rule, parse rule = .ok t → parse t.text = .ok t := by
  refine ⟨⟨fun h => ?_, fun ⟨hv, hn⟩ => parse_text ⟨hv, hn⟩⟩, fun rule h => ?_⟩
  · obtain ⟨hv, hn⟩ := readable_of_parse h
    exact ⟨hv, hn⟩
  · exact parse_text (readable_of_parse h)

end Parser

end Rulebook
