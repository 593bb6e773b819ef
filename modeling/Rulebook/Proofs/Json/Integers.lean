import Rulebook.Json.Value
import Rulebook.Proofs.Text.Decimal

/-!
# Integers in JSON

The numbers that are taken for a signed word are those that are written as it, with nothing but
digits and perhaps a minus (`Numeral.IsWord`, `Numeral.toInt?_eq_some_iff`). Such a number is never
refused as beyond double precision: all of its digits fit into the significand, and rounding the
significand at most doubles it. The numbers that this library writes are among them
(`isWord_int`).
-/

namespace Rulebook.Json

/-- Further digits make a number no smaller. -/
theorem le_valueFrom (acc : Nat) (ds : List Char) : acc ≤ Text.valueFrom acc ds := by
  induction ds generalizing acc with
  | nil => exact Nat.le_refl acc
  | cons d ds ih =>
    rw [Text.valueFrom_cons]
    have := ih (10 * acc + Text.digitValue d)
    omega

namespace Numeral

/-- Digits that together fit into a word are all taken. -/
theorem leading_eq {acc : Nat} {ds : List Char} (h : Text.valueFrom acc ds < UInt64.size) :
    leading acc ds = (Text.valueFrom acc ds, 0) := by
  induction ds generalizing acc with
  | nil => rfl
  | cons d ds ih =>
    rw [Text.valueFrom_cons] at h ⊢
    -- with the next digit the number still fits, for with all the digits it does
    have hle := le_valueFrom (10 * acc + Text.digitValue d) ds
    rw [leading, if_pos (Nat.lt_of_le_of_lt hle h), ih h]

/-- Rounding to double precision at most doubles a number. -/
theorem toDoublePrecision_le (m : Nat) : toDoublePrecision m ≤ 2 * m := by
  rcases Nat.eq_zero_or_pos m with rfl | hm
  · decide
  · generalize hunit : Nat.pow 2 (m.log2 + 1 - 53) = unit
    -- the last place that is kept is worth no more than the number
    have hle : unit ≤ m := by
      rw [← hunit]
      exact Nat.le_trans (Nat.pow_le_pow_right (by decide) (by omega))
        (Nat.log2_self_le (Nat.ne_of_gt hm))
    have hdiv : m / unit * unit ≤ m := Nat.div_mul_le_self m unit
    have hnext : (m / unit + 1) * unit = m / unit * unit + unit := Nat.succ_mul _ _
    unfold toDoublePrecision
    rw [hunit]
    dsimp only
    split <;> omega

/-- Of a number that fits into a word all the digits are significant. -/
theorem scientific_of_value_lt (negative : Bool) {whole : List Char}
    (h : Text.value whole < UInt64.size) :
    scientific ⟨negative, whole, [], none⟩ = (Text.value whole, 0) := by
  have hleading : leading 0 whole = (Text.value whole, 0) := leading_eq h
  simp only [scientific, hleading]
  rfl

/-- The bound on what double precision can hold is far beyond any word. -/
theorem two_mul_size_lt_bound : 2 * UInt64.size < Nat.pow 2 1024 - Nat.pow 2 970 := by
  have hmono : ∀ a b, a ≤ b → Nat.pow 2 a ≤ Nat.pow 2 b :=
    fun a b h => Nat.pow_le_pow_right (by decide) h
  have hdouble : ∀ a b, a + 1 ≤ b → Nat.pow 2 a * 2 ≤ Nat.pow 2 b := fun a b h => hmono (a + 1) b h
  have hupper := hdouble 970 1024 (by decide)
  have hlower := hmono 66 970 (by decide)
  have hword : 2 * UInt64.size < Nat.pow 2 66 := by decide
  generalize Nat.pow 2 1024 = bound at hupper ⊢
  generalize Nat.pow 2 970 = half at hupper hlower ⊢
  omega

/-- An integer that fits into a word is not beyond the range of double precision. -/
theorem isTooLarge_of_value_lt (negative : Bool) {whole : List Char}
    (h : Text.value whole < UInt64.size) : isTooLarge ⟨negative, whole, [], none⟩ = false := by
  have hdouble := toDoublePrecision_le (Text.value whole)
  have hone : toDoublePrecision (Nat.pow 10 (0 : Int).toNat) = 1 := by decide
  have hbound := two_mul_size_lt_bound
  unfold isTooLarge
  rw [scientific_of_value_lt negative h]
  dsimp only
  have hlt : ¬ Nat.pow 2 1024 - Nat.pow 2 970 ≤ toDoublePrecision (Text.value whole) := by
    generalize Nat.pow 2 1024 - Nat.pow 2 970 = bound at hbound ⊢
    omega
  rw [hone, Nat.mul_one, decide_eq_false hlt, if_neg (by decide : ¬ (0 : Int) > 308), ite_self]

/-- The number is written as the signed word: without a point, without an exponent, and without a
minus in front of zero. -/
structure IsWord (n : Numeral) (i : Int64) : Prop where
  fraction_eq : n.fraction = []
  exponent_eq : n.exponent = none
  value_ne_zero : n.negative = true → Text.value n.whole ≠ 0
  signed_eq : Text.signed n.negative (Text.value n.whole) = i.toInt

/-- The digits of a signed word name a word without a sign. -/
theorem IsWord.value_lt {n : Numeral} {i : Int64} (h : n.IsWord i) :
    Text.value n.whole < UInt64.size := by
  have hvalue := h.signed_eq
  have hlt := Int64.toInt_lt i
  have hge := Int64.le_toInt i
  simp only [Text.signed, UInt64.size] at hvalue ⊢
  -- below zero the digits go up to two to the power of 63, above it not so far
  split at hvalue <;> omega

/-- A number that is written as a word is not beyond the range of double precision. -/
theorem IsWord.isTooLarge_eq {n : Numeral} {i : Int64} (h : n.IsWord i) : n.isTooLarge = false := by
  obtain ⟨negative, whole, fraction, exponent⟩ := n
  have hlt := h.value_lt
  obtain ⟨rfl, rfl, -, -⟩ := h
  exact isTooLarge_of_value_lt negative hlt

/-- The numbers that are taken for a signed word are those that are written as it. -/
theorem toInt?_eq_some_iff {n : Numeral} {i : Int64} :
    n.toInt? = some i.toInt ↔ n.IsWord i := by
  obtain ⟨negative, whole, fraction, exponent⟩ := n
  constructor
  · -- without a fraction and an exponent it is a matter of the range, which differs by the sign
    intro h
    unfold toInt? at h
    split at h
    · next hfraction hexponent =>
      dsimp only at hfraction hexponent h
      refine ⟨hfraction, hexponent, fun hneg => ?_, ?_⟩
      · dsimp only at hneg ⊢
        rw [if_pos hneg] at h
        split at h
        · next hrange => exact Nat.ne_of_gt hrange.1
        · cases h
      · dsimp only [Text.signed]
        split at h
        · next hneg =>
          rw [if_pos hneg]
          split at h
          · exact Option.some.inj h
          · cases h
        · next hneg =>
          rw [if_neg hneg]
          split at h
          · exact Option.some.inj h
          · cases h
    · cases h
  · intro h
    have hlt := h.value_lt
    obtain ⟨rfl, rfl, hzero, hvalue⟩ := h
    have hge := Int64.le_toInt i
    dsimp only [Text.signed] at hzero hvalue hlt
    simp only [toInt?]
    -- the other way the value is given, so it is in the range
    by_cases hneg : negative = true
    · rw [if_pos hneg] at hvalue ⊢
      have hpow : Nat.pow 2 63 = 2 ^ 63 := rfl
      have hpos := hzero hneg
      rw [if_pos (by omega), hvalue]
    · rw [if_neg hneg] at hvalue ⊢
      rw [if_pos hlt, hvalue]

end Numeral

/-- The number that is made of a signed word is written as the word. -/
theorem isWord_int (i : Int64) {n : Numeral} (h : .number n = int i.toInt) : n.IsWord i := by
  cases h
  refine ⟨rfl, rfl, fun hneg => ?_, ?_⟩
  · rw [Text.value_repr]
    exact Int.natAbs_ne_zero.2 (Int.ne_of_lt (of_decide_eq_true hneg))
  · simp only [Text.value_repr, Text.signed, decide_eq_true_eq]
    split <;> omega

/-- The number of a signed word is not beyond the range of double precision. -/
theorem isTooLarge_int (i : Int64) {n : Numeral} (h : .number n = int i.toInt) :
    n.isTooLarge = false :=
  (isWord_int i h).isTooLarge_eq

/-- The number of a signed word is the word. -/
theorem toInt?_int (i : Int64) {n : Numeral} (h : .number n = int i.toInt) :
    n.toInt? = some i.toInt :=
  Numeral.toInt?_eq_some_iff.2 (isWord_int i h)

end Rulebook.Json
