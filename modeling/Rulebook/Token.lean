import Rulebook.Tree
import Rulebook.Text.Alphanumeric

/-!
# Words and tokens of a rule

The text of a rule is cut into words: each parenthesis is a word, and so is each longest run of
characters that are neither parentheses nor blank. A word is then read as a token, if it is one:
a parenthesis, an operator, or an operand, which is a run of letters and digits, bare or between
single quotes.
-/

namespace Rulebook

/-- The parts a rule is written with. -/
inductive Token where
  | openParen
  | closeParen
  | operator (op : Operator)
  | operand (text : String)
  deriving DecidableEq, Repr

namespace Token

/-- One of the two parentheses. -/
def isParen (c : Char) : Bool :=
  c = '(' || c = ')'

/-- Puts a word, gathered in reverse, in front of further words, unless it is empty. -/
def endWord (word : List Char) (words : List (List Char)) : List (List Char) :=
  if word.isEmpty then words else word.reverse :: words

/-- The words of a text, when the characters of `word` (in reverse) have been read of its first
word. -/
def wordsFrom (word : List Char) : List Char → List (List Char)
  | [] => endWord word []
  | c :: cs =>
    if Text.isBlank c then endWord word (wordsFrom [] cs)
    -- a parenthesis ends the word before it and is a word of its own
    else if isParen c then endWord word ([c] :: wordsFrom [] cs)
    else wordsFrom (c :: word) cs

/-- The words of a rule, from left to right. -/
def words (rule : String) : List String :=
  (wordsFrom [] rule.toList).map String.ofList

/-- The body of an operand: the text without its single quotes if it stands between two of them,
and otherwise the whole text. -/
def body (cs : List Char) : List Char :=
  (Operand.quoted? cs).getD cs

/-- The word has the form of an operand: letters and digits, at least one, bare or quoted. -/
def isOperandWord (word : String) : Bool :=
  !(body word.toList).isEmpty && (body word.toList).all Text.isAlphanumeric

/-- Reads a word as a token. -/
def ofWord? (word : String) : Option Token :=
  if word = "(" then some .openParen
  else if word = ")" then some .closeParen
  else match Operator.ofSymbol? word with
    | some op => some (.operator op)
    | none => if isOperandWord word then some (.operand word) else none

/-- How a token is written. -/
def text : Token → String
  | .openParen => "("
  | .closeParen => ")"
  | .operator op => op.symbol
  | .operand text => text

/-- A word that reads as a token is that token's text. -/
theorem text_of_ofWord? {word : String} {t : Token} (h : ofWord? word = some t) :
    t.text = word := by
  unfold ofWord? at h
  split at h
  · next hw => cases h; exact hw.symm
  · split at h
    · next hw => cases h; exact hw.symm
    · split at h
      · next op hop => cases h; exact Operator.symbol_of_ofSymbol? hop
      · split at h
        · cases h; rfl
        · cases h

end Token

end Rulebook
