import Rulebook.Token
import Rulebook.Proofs.Fallible

/-!
# The words of a text

How `Token.words` cuts a text that was put together from words. A word is a parenthesis by itself,
or a run of characters that are neither blank nor parentheses (`IsWord`). In front of anything that
ends a word, a word is cut off whole (`wordsFrom_word`); blanks in front of a text are skipped.

Everything that reads as a token is a word (`isWord_of_ofWord?`), because no letter or number is
blank (`Text.isBlank_eq_false`): the table of blank characters and the table of letters and numbers
have no code point in common.
-/

namespace Rulebook

/-- No range of blank characters meets a range of letters and numbers. -/
theorem Text.disjoint_blankRanges_alphanumericRanges :
    (Text.blankRanges.all fun b => Text.alphanumericRanges.all fun a =>
      decide (b.2 < a.1) || decide (a.2 < b.1)) = true := by
  decide +kernel

/-- No letter or number is blank. -/
theorem Text.isBlank_eq_false {c : Char} (h : Text.isAlphanumeric c = true) :
    Text.isBlank c = false := by
  cases hb : Text.isBlank c with
  | false => rfl
  | true =>
    obtain ⟨b, hb, hcb⟩ := List.any_eq_true.1 hb
    obtain ⟨a, ha, hca⟩ := List.any_eq_true.1 h
    have hab := Text.disjoint_blankRanges_alphanumericRanges
    -- the code point would lie in both ranges
    have hor := List.all_eq_true.1 (List.all_eq_true.1 hab b hb) a ha
    simp only [Bool.and_eq_true, Bool.or_eq_true, decide_eq_true_eq] at hcb hca hor
    rcases hor with hlt | hlt <;> omega

namespace Token

/-- The character ends the word in front of it. -/
def endsWord (c : Char) : Bool :=
  Text.isBlank c || isParen c

/-- A parenthesis, or some characters none of which ends a word. -/
def IsWord (w : List Char) : Prop :=
  w = ['('] ∨ w = [')'] ∨ (w ≠ [] ∧ ∀ c ∈ w, endsWord c = false)

/-- The text is empty or starts with a character that ends a word. -/
def Detached (cs : List Char) : Prop :=
  ∀ c ∈ cs.head?, endsWord c = true

theorem detached_nil : Detached [] :=
  fun _ h => by cases h

theorem detached_cons {c : Char} (h : endsWord c = true) (cs : List Char) : Detached (c :: cs) := by
  rintro _ ⟨⟩
  exact h

@[simp]
theorem endWord_nil (words : List (List Char)) : endWord [] words = words := rfl

/-- Gathered characters are a word in the order in which they stood. -/
theorem endWord_reverse {w : List Char} (h : w ≠ []) (words : List (List Char)) :
    endWord w.reverse words = w :: words := by
  simp [endWord, h]

theorem wordsFrom_blank (cs : List Char) : wordsFrom [] (' ' :: cs) = wordsFrom [] cs := rfl

/-- Characters that do not end a word are gathered. -/
theorem wordsFrom_append {w : List Char} (h : ∀ c ∈ w, endsWord c = false)
    (gathered cs : List Char) :
    wordsFrom gathered (w ++ cs) = wordsFrom (w.reverse ++ gathered) cs := by
  induction w generalizing gathered with
  | nil => rfl
  | cons c w ih =>
    have hc : Text.isBlank c = false ∧ isParen c = false := by
      simpa [endsWord] using h c (List.mem_cons_self ..)
    rw [List.cons_append, wordsFrom, hc.1, hc.2, List.reverse_cons, List.append_assoc]
    exact ih (fun d hd => h d (List.mem_cons_of_mem _ hd)) (c :: gathered)

/-- What is detached ends the word gathered in front of it. -/
theorem wordsFrom_detached {cs : List Char} (h : Detached cs) (gathered : List Char) :
    wordsFrom gathered cs = endWord gathered (wordsFrom [] cs) := by
  cases cs with
  | nil => rfl
  | cons c cs =>
    have hc := h c rfl
    rw [wordsFrom, wordsFrom]
    -- a blank ends the word and is gone, a parenthesis ends it and is a word itself
    by_cases hb : Text.isBlank c = true
    · rw [if_pos hb, if_pos hb, endWord_nil]
    · have hp : isParen c = true := by simpa [endsWord, hb] using hc
      rw [if_neg hb, if_neg hb, if_pos hp, if_pos hp, endWord_nil]

/-- A word ends in front of the words that follow, and of others behind these. -/
theorem endWord_append (word : List Char) (ws vs : List (List Char)) :
    endWord word (ws ++ vs) = endWord word ws ++ vs := by
  unfold endWord
  split
  · rfl
  · rfl

/-- In front of what is detached, a text has the words that it has by itself. -/
theorem wordsFrom_append_detached {ds : List Char} (h : Detached ds) (gathered cs : List Char) :
    wordsFrom gathered (cs ++ ds) = wordsFrom gathered cs ++ wordsFrom [] ds := by
  -- character by character, with whatever has been gathered so far
  induction cs generalizing gathered with
  | nil =>
    rw [List.nil_append, wordsFrom_detached h, wordsFrom, ← endWord_append, List.nil_append]
  | cons c cs ih =>
    rw [List.cons_append, wordsFrom, wordsFrom]
    split
    · rw [ih, endWord_append]
    · split
      · rw [ih, ← List.cons_append, endWord_append]
      · exact ih _

/-- A parenthesis is a word wherever it stands. -/
theorem wordsFrom_paren {c : Char} (h : c = '(' ∨ c = ')') (cs : List Char) :
    wordsFrom [] (c :: cs) = [c] :: wordsFrom [] cs := by
  rcases h with rfl | rfl <;> rfl

/-- **A word is cut off whole** in front of what is detached. -/
theorem wordsFrom_word {w cs : List Char} (h : IsWord w) (hcs : Detached cs) :
    wordsFrom [] (w ++ cs) = w :: wordsFrom [] cs := by
  rcases h with rfl | rfl | ⟨hne, hw⟩
  · exact wordsFrom_paren (.inl rfl) cs
  · exact wordsFrom_paren (.inr rfl) cs
  · rw [wordsFrom_append hw, List.append_nil, wordsFrom_detached hcs, endWord_reverse hne]

/-! ### Tokens are words -/

/-- No letter or number ends a word. -/
theorem endsWord_eq_false {c : Char} (h : Text.isAlphanumeric c = true) : endsWord c = false := by
  have hp : isParen c = false := by
    cases hp : isParen c with
    | false => rfl
    | true =>
      simp only [isParen, Bool.or_eq_true, decide_eq_true_eq] at hp
      -- neither parenthesis stands in the table
      rcases hp with rfl | rfl <;> exact absurd h (by decide +kernel)
  rw [endsWord, Text.isBlank_eq_false h, hp]
  rfl

/-- What has the form of an operand is a word. -/
theorem isWord_of_isOperandWord {word : String} (h : isOperandWord word = true) :
    IsWord word.toList := by
  simp only [isOperandWord, Bool.and_eq_true, Bool.not_eq_true', List.isEmpty_eq_false_iff,
    List.all_eq_true] at h
  obtain ⟨hne, hall⟩ := h
  refine .inr (.inr ?_)
  unfold body at hne hall
  cases hq : Operand.quoted? word.toList with
  | none =>
    rw [hq] at hne hall
    exact ⟨hne, fun c hc => endsWord_eq_false (hall c hc)⟩
  | some b =>
    rw [hq] at hall
    rw [Operand.quoted?_eq_some_iff.1 hq]
    refine ⟨List.cons_ne_nil _ _, fun c hc => ?_⟩
    -- the two quotes are the only characters that are not of the body
    rcases List.mem_cons.1 hc with rfl | hc
    · rfl
    · rcases List.mem_append.1 hc with hc | hc
      · exact endsWord_eq_false (hall c hc)
      · rw [List.mem_singleton.1 hc]
        rfl

/-- The symbol of an operator is a word. -/
theorem isWord_symbol (op : Operator) : IsWord op.symbol.toList := by
  have hne : op.symbol.toList ≠ [] := by
    cases op with
    | logical c => cases c <;> decide
    | relating c => cases c <;> decide
  have hall : op.symbol.toList.all (fun c => !endsWord c) = true := by
    cases op with
    | logical c => cases c <;> rfl
    | relating c => cases c <;> rfl
  refine .inr (.inr ⟨hne, fun c hc => ?_⟩)
  simpa using List.all_eq_true.1 hall c hc

/-- What reads as a token is a word. -/
theorem isWord_of_ofWord? {word : String} {t : Token} (h : ofWord? word = some t) :
    IsWord word.toList := by
  unfold ofWord? at h
  split at h
  · next hw => rw [hw]; exact .inl rfl
  · split at h
    · next hw => rw [hw]; exact .inr (.inl rfl)
    · split at h
      · -- a symbol, or else an operand
        next op hop =>
        rw [← Operator.symbol_of_ofSymbol? hop]
        exact isWord_symbol op
      · split at h
        · next hw => exact isWord_of_isOperandWord hw
        · cases h

/-- The symbol of an operator is read as the operator. -/
theorem ofWord?_symbol (op : Operator) : ofWord? op.symbol = some (.operator op) := by
  cases op with
  | logical c => cases c <;> rfl
  | relating c => cases c <;> rfl

/-- What has the form of an operand and is no symbol is read as an operand. -/
theorem ofWord?_of_ofSymbol?_eq_none {word : String} (h : isOperandWord word = true)
    (hsymbol : Operator.ofSymbol? word = none) : ofWord? word = some (.operand word) := by
  -- a parenthesis has not the form of an operand
  have hne : ∀ s : String, isOperandWord s = false → word ≠ s := by
    rintro s hs rfl
    exact absurd (h.symm.trans hs) Bool.true_eq_false.mp
  rw [ofWord?, if_neg (hne _ (by decide +kernel)), if_neg (hne _ (by decide +kernel)), hsymbol]
  exact if_pos h

/-- What has the form of an operand and is longer than any symbol is read as an operand. -/
theorem ofWord?_of_isOperandWord {word : String} (h : isOperandWord word = true)
    (hlength : 3 < word.length) : ofWord? word = some (.operand word) := by
  refine ofWord?_of_ofSymbol?_eq_none h (Option.eq_none_iff_forall_ne_some.2 fun op hop => ?_)
  have hsymbol : op.symbol.length ≤ 3 := by
    rcases op with c | c <;> cases c <;> decide
  rw [Operator.ofSymbol?_eq_some_iff.1 hop] at hlength
  omega

/-- Tokens that their texts read as are read from their texts. -/
theorem mapM_ofWord?_text {tokens : List Token} (h : ∀ t ∈ tokens, ofWord? t.text = some t) :
    (tokens.map text).mapM ofWord? = some tokens := by
  rw [mapM_eq_some_iff, List.map_map]
  exact List.map_congr_left h

/-- Each of the tokens that words read as is the reading of its text. -/
theorem ofWord?_text_of_mapM {words : List String} {tokens : List Token}
    (h : words.mapM ofWord? = some tokens) {t : Token} (ht : t ∈ tokens) :
    ofWord? t.text = some t := by
  have hmem : some t ∈ tokens.map some := List.mem_map_of_mem ht
  rw [← mapM_eq_some_iff.1 h] at hmem
  obtain ⟨word, -, hword⟩ := List.mem_map.1 hmem
  rw [text_of_ofWord? hword]
  exact hword

end Token

end Rulebook
