import Rulebook.Proofs.Evaluation.FirstFault
import Rulebook.Proofs.Parser.Denotation
import Rulebook.Proofs.Text.Decimal
import Rulebook.Proofs.Words.Operands
import Rulebook.Proofs.Words.Segments

/-!
# Numerals in rules

A run of digits stands for the number that it writes in the decimal system, however long it is and
whatever zeros it begins with, as long as this number is not greater than `greatestNumber`;
otherwise it has no value, and the error names it. No numeral is ever taken for another number
(`Context.operand_of_isNumeral`).

So a rule that relates two numerals answers as the two numbers do, of whatever size they are
(`evaluate_numerals`). Three things meet in it: two numerals with a comparison between them
are read as the tree one expects (`Parser.parse_comparison`), the left side is evaluated first, and
words of 64 bits are ordered as the numbers that they hold (`Comparison.holds_ofNat`).
-/

namespace Rulebook

open Text

/-- The greatest number, one less than the 63rd power of two. -/
def greatestNumber : Nat := Nat.pow 2 63 - 1

/-- Whether a comparison holds between two numbers of any size. -/
def Comparison.relates : Comparison → Nat → Nat → Bool
  | .greater, m, n => decide (n < m)
  | .less, m, n => decide (m < n)
  | .equal, m, n => decide (m = n)
  | .unequal, m, n => decide (m ≠ n)

/-! ### Numbers as words of 64 bits -/

/-- A number that is not too great is held by its word. -/
theorem toInt_ofNat_of_le {n : Nat} (h : n ≤ greatestNumber) : (Int64.ofNat n).toInt = n :=
  Int64.toInt_ofNat_of_lt (Nat.lt_of_le_of_lt h (by decide))

/-- A number fits into a word exactly if it is not too great. -/
theorem toInt64?_natCast (n : Nat) :
    toInt64? n = if n ≤ greatestNumber then some (Int64.ofNat n) else none := by
  -- a number is never too small
  have hmin : Int64.minValue.toInt ≤ n := by
    have hneg : Int64.minValue.toInt ≤ 0 := by decide
    omega
  have hmax : (n : Int) ≤ Int64.maxValue.toInt ↔ n ≤ greatestNumber := by
    have hvalue : Int64.maxValue.toInt = greatestNumber := by decide
    omega
  rw [toInt64?, Int64.ofInt_eq_ofNat]
  simp only [hmin, hmax, true_and]

/-- Words of 64 bits are related as the numbers that they hold. -/
theorem Comparison.holds_ofNat (c : Comparison) {m n : Nat} (hm : m ≤ greatestNumber)
    (hn : n ≤ greatestNumber) : c.holds (Int64.ofNat m) (Int64.ofNat n) = c.relates m n := by
  have hm := toInt_ofNat_of_le hm
  have hn := toInt_ofNat_of_le hn
  have heq : Int64.ofNat m = Int64.ofNat n ↔ m = n := by
    rw [← Int64.toInt_inj, hm, hn, Int.ofNat_inj]
  cases c with
  -- words are ordered as what they hold
  | greater | less =>
    simp only [holds, relates, Int64.lt_iff_toInt_lt, hm, hn, Int.ofNat_lt]
  -- and words that hold one number are one
  | equal | unequal =>
    simp only [holds, relates, ne_eq, heq]

/-! ### Numerals as operands -/

variable {d a b : String}

/-- A run of digits is a word that reads as an operand. -/
theorem ofWord?_of_isNumeral (h : IsNumeral d) : Token.ofWord? d = some (.operand d) := by
  obtain ⟨hne, hdigits⟩ := h
  refine Token.ofWord?_eq_operand_iff.2 (.inl ⟨hne, ?_, ?_, ?_⟩)
  · exact fun c hc => Token.isAlphanumeric_of_isDigit (hdigits c hc)
  · -- neither of the two words that are connectives consists of digits
    rintro rfl
    exact absurd (List.all_eq_true.2 hdigits) (by decide)
  · rintro rfl
    exact absurd (List.all_eq_true.2 hdigits) (by decide)

/-- **A numeral is worth the number that it writes**, or has no value if this is too great. -/
theorem Context.operand_of_isNumeral (c : Context) (h : IsNumeral d) :
    c.operand d = if worth d ≤ greatestNumber then .ok (.number (Int64.ofNat (worth d)))
      else .error (.numberOutOfRange d) := by
  rw [operand, Operand.ofText_eq_number_iff.2 ⟨rfl, h⟩]
  dsimp only
  rw [value_eq_worth, toInt64?_natCast]
  by_cases hle : worth d ≤ greatestNumber
  · rw [if_pos hle, if_pos hle]
  · rw [if_neg hle, if_neg hle]

/-! ### Comparing numerals -/

/-- Two words that read as operands, with a comparison between them, are read as the comparison of
the two. -/
theorem Parser.parse_comparison (ha : Token.ofWord? a = some (.operand a))
    (hb : Token.ofWord? b = some (.operand b)) (c : Comparison) :
    parse (a ++ " " ++ c.symbol ++ " " ++ b) =
      .ok (.node (.relating c) (.operand a) (.operand b)) := by
  -- the three words are set apart, so they are found again
  have hblank : ∀ d ∈ " ".toList, Text.isBlank d = true := List.all_eq_true.1 (by decide)
  have hapart : Token.SetApart [a, c.symbol, b] (a ++ " " ++ (c.symbol ++ " " ++ b)) :=
    .more a " " (by decide) hblank (.more c.symbol " " (by decide) hblank (.one b))
  have hassoc : a ++ " " ++ c.symbol ++ " " ++ b = a ++ " " ++ (c.symbol ++ " " ++ b) := by
    simp only [String.append_assoc]
  have hc : Token.ofWord? c.symbol = some (.operator (.relating c)) :=
    Token.ofWord?_symbol (.relating c)
  -- each of the words is a token
  have htokens : [a, c.symbol, b].map Token.ofWord? =
      [Token.operand a, .operator (.relating c), .operand b].map some := by
    simp only [List.map_cons, List.map_nil, ha, hc, hb]
  have hwords : ∀ w ∈ [a, c.symbol, b], Token.IsWord w.toList := by
    intro w hw
    simp only [List.mem_cons, List.not_mem_nil, or_false] at hw
    rcases hw with rfl | rfl | rfl
    · exact Token.isWord_of_ofWord? ha
    · exact Token.isWord_of_ofWord? hc
    · exact Token.isWord_of_ofWord? hb
  -- and an operand, a comparison and an operand are the tree by the grammar
  rw [parse, hassoc, Token.words_of_setApart hapart hwords]
  exact build_of_derives (mapM_eq_some_iff.2 htokens)
    (.comparison (.relate c (.primary (.operand a)) (.operand b))) (Nat.one_le_ofNat)

/-- **Numerals are read exactly, and never wrap around.** A run of digits has the value that it
writes in the decimal system, if this is not too great, and otherwise no value. A rule that relates
two numerals answers as their values are related, and if one of them has none, it fails for the
first such. -/
theorem evaluate_numerals (c : Context) :
    (∀ d, IsNumeral d →
      (worth d ≤ greatestNumber →
        ∃ n : Int64, n.toInt = worth d ∧ c.operand d = .ok (.number n)) ∧
      (greatestNumber < worth d → c.operand d = .error (.numberOutOfRange d))) ∧
    ∀ a b op, IsNumeral a → IsNumeral b →
      ∃ t, Parser.parse (a ++ " " ++ Comparison.symbol op ++ " " ++ b) = .ok t ∧
        (worth a ≤ greatestNumber → worth b ≤ greatestNumber →
          t.evaluate c = .ok (.boolean (op.relates (worth a) (worth b)))) ∧
        (greatestNumber < worth a → t.evaluate c = .error (.numberOutOfRange a)) ∧
        (worth a ≤ greatestNumber → greatestNumber < worth b →
          t.evaluate c = .error (.numberOutOfRange b)) := by
  have hvalue : ∀ {d}, IsNumeral d → worth d ≤ greatestNumber →
      c.operand d = .ok (.number (Int64.ofNat (worth d))) := fun h hle => by
    rw [c.operand_of_isNumeral h, if_pos hle]
  have hfault : ∀ {d}, IsNumeral d → greatestNumber < worth d →
      c.operand d = .error (.numberOutOfRange d) := fun h hlt => by
    rw [c.operand_of_isNumeral h, if_neg (Nat.not_le.2 hlt)]
  refine ⟨fun d h => ⟨fun hle => ?_, hfault h⟩, fun a b op ha hb => ?_⟩
  · -- the word holds the number that is written
    exact ⟨_, toInt_ofNat_of_le hle, hvalue h hle⟩
  · refine ⟨_, Parser.parse_comparison (ofWord?_of_isNumeral ha) (ofWord?_of_isNumeral hb) op,
      fun hale hble => ?_, fun halt => ?_, fun hale hblt => ?_⟩
    · exact Tree.evaluate_node_eq_ok_iff.2 ⟨_, hvalue ha hale, _, hvalue hb hble,
        congrArg (fun x => Except.ok (Value.boolean x)) (op.holds_ofNat hale hble)⟩
    · -- the right side is not looked at, whether it is in range or not
      exact Tree.evaluate_node_eq_error_iff.2 (.inl (hfault ha halt))
    · exact Tree.evaluate_node_eq_error_iff.2
        (.inr ⟨_, hvalue ha hale, .inl (hfault hb hblt)⟩)

/-- With zeros in front, the greatest number is written longer than the next number, which is too
great. -/
theorem evaluate_numerals_zerosInFront :
    worth "0009223372036854775807" = greatestNumber ∧
    (∃ n : Int64, n.toInt = worth "0009223372036854775807" ∧
      Context.empty.operand "0009223372036854775807" = .ok (.number n)) ∧
    ∃ t, Parser.parse "0009223372036854775807 < 9223372036854775808" = .ok t ∧
      t.evaluate Context.empty = .error (.numberOutOfRange "9223372036854775808") := by
  have hgreatest : worth "0009223372036854775807" = greatestNumber := by
    rw [← value_eq_worth]
    decide
  have hnext : worth "9223372036854775808" = greatestNumber + 1 := by
    rw [← value_eq_worth]
    decide
  have hzeros : IsNumeral "0009223372036854775807" :=
    ⟨by decide, List.all_eq_true.1 (by decide)⟩
  have hplain : IsNumeral "9223372036854775808" := ⟨by decide, List.all_eq_true.1 (by decide)⟩
  have hle := hgreatest.le
  obtain ⟨t, hparse, -, -, hfault⟩ := (evaluate_numerals Context.empty).2 _ _ .less hzeros hplain
  exact ⟨hgreatest, ((evaluate_numerals Context.empty).1 _ hzeros).1 hle, t, hparse,
    hfault hle (hnext ▸ Nat.lt_succ_self _)⟩

end Rulebook
