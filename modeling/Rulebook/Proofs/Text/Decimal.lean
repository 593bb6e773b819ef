import Mathlib.Data.List.Induction
import Mathlib.Data.Nat.Digits.Defs
import Rulebook.Text.Numeral

/-!
# Numerals and what they are worth

A numeral is worth the number that its digits write in the decimal system (`worth`), and this is
what reading them one after another gives (`value_eq_worth`). What is read as an unsigned number
below some bound are the numerals that are worth less, a plus sign in front allowed
(`natBelow?_eq_some_iff`).

`Nat.repr` writes a number with digits only (`isDigit_of_mem_repr`), without a zero in front of
another digit (`repr_ne_zero_cons`), and its digits are worth the number (`value_repr`). So the text
of a signed word reads as the word (`int64?_ofInt64`).
-/

namespace Rulebook.Text

/-- The text is a run of digits. -/
def IsNumeral (d : String) : Prop :=
  d ≠ "" ∧ ∀ c ∈ d.toList, isDigit c = true

/-- The number that digits write in the decimal system. -/
def worth (d : String) : Nat :=
  Nat.ofDigits 10 (d.toList.reverse.map digitValue)

/-- Reading digits one after another gives the number that they write. -/
theorem value_eq_ofDigits (ds : List Char) :
    value ds = Nat.ofDigits 10 (ds.reverse.map digitValue) := by
  -- the last digit is the first of the reversed list, and counts as it is
  induction ds using List.reverseRecOn with
  | nil => rfl
  | append_singleton ds c ih =>
    have hlast : value (ds ++ [c]) = 10 * value ds + digitValue c := by
      rw [value, valueFrom, List.foldl_append]
      rfl
    rw [hlast, ih, List.reverse_concat, List.map_cons, Nat.ofDigits_cons]
    exact Nat.add_comm _ _

/-- Reading a numeral gives what it is worth. -/
theorem value_eq_worth (d : String) : value d.toList = worth d :=
  value_eq_ofDigits d.toList

/-- What is read as a number is a numeral, and the number is what the numeral is worth. -/
theorem natOfDigits?_eq_some_iff {cs : List Char} {n : Nat} :
    natOfDigits? cs = some n ↔ IsNumeral (String.ofList cs) ∧ worth (String.ofList cs) = n := by
  have hempty : String.ofList cs = "" ↔ cs.isEmpty = true := by
    rw [← String.toList_inj, String.toList_ofList, List.isEmpty_iff]
    rfl
  rw [IsNumeral, ← value_eq_worth, String.toList_ofList, ne_eq, hempty, ← List.all_eq_true]
  unfold natOfDigits?
  -- the reader refuses the empty text and a text with anything but digits, which are no numerals
  split
  · next h => simp [h]
  · next h =>
    split
    · next hdigits => simp [h, hdigits]
    · next hdigits => simp [hdigits]

/-- What is read as an unsigned number is a numeral, with a plus sign in front or without one. -/
theorem unsigned?_eq_some_iff {text : String} {n : Nat} : unsigned? text.toList = some n ↔
    ∃ d, IsNumeral d ∧ worth d = n ∧ (text = d ∨ text = "+" ++ d) := by
  have hplus : ∀ d : String, ("+" ++ d).toList = '+' :: d.toList := fun d => by
    rw [String.toList_append]
    rfl
  constructor
  · intro h
    unfold unsigned? at h
    split at h
    · next cs hcs =>
      obtain ⟨hnumeral, hworth⟩ := natOfDigits?_eq_some_iff.1 h
      refine ⟨String.ofList cs, hnumeral, hworth, .inr ?_⟩
      rw [← String.toList_inj, hplus, String.toList_ofList, hcs]
    · obtain ⟨hnumeral, hworth⟩ := natOfDigits?_eq_some_iff.1 h
      rw [String.ofList_toList] at hnumeral hworth
      exact ⟨text, hnumeral, hworth, .inl rfl⟩
  · rintro ⟨d, hd, hworth, rfl | rfl⟩
    · unfold unsigned?
      split
      · -- a numeral does not begin with a sign
        next hcs => exact absurd (hd.2 '+' (hcs ▸ List.mem_cons_self)) (by decide)
      · exact natOfDigits?_eq_some_iff.2 (by rw [String.ofList_toList]; exact ⟨hd, hworth⟩)
    · -- the sign is cut off, and the rest is read as it is
      rw [hplus, unsigned?]
      exact natOfDigits?_eq_some_iff.2 (by rw [String.ofList_toList]; exact ⟨hd, hworth⟩)

/-- What is read as an unsigned number below a bound is worth less than the bound. -/
theorem natBelow?_eq_some_iff {bound n : Nat} {text : String} :
    natBelow? bound text.toList = some n ↔
      n < bound ∧ ∃ d, IsNumeral d ∧ worth d = n ∧ (text = d ∨ text = "+" ++ d) := by
  rw [← unsigned?_eq_some_iff, natBelow?, Option.bind_eq_bind, Option.bind_eq_some_iff]
  constructor
  · rintro ⟨m, hm, h⟩
    split at h
    · next hlt =>
      cases h
      exact ⟨hlt, hm⟩
    · cases h
  · rintro ⟨hlt, hn⟩
    exact ⟨n, hn, if_pos hlt⟩

/-! ### Written numbers -/

/-- A number is written with at least one digit. -/
theorem repr_ne_nil (n : Nat) : (Nat.repr n).toList ≠ [] := by
  rw [Nat.toList_repr]
  exact Nat.toDigits_ne_nil

/-- A number is written with nothing but digits. -/
theorem isDigit_of_mem_repr {n : Nat} {c : Char} (h : c ∈ (Nat.repr n).toList) :
    isDigit c = true := by
  rw [Nat.toList_repr] at h
  exact Nat.isDigit_of_mem_toDigits (by decide) (by decide) h

/-- The digits of a number are worth the number. -/
@[simp]
theorem value_repr (n : Nat) : value (Nat.repr n).toList = n := by
  have h : Nat.ofDigitChars 10 (Nat.toDigits 10 n) 0 = n := Nat.ofDigitChars_ten_toDigits
  rw [Nat.ofDigitChars_eq_foldl] at h
  rw [Nat.toList_repr]
  exact h

/-- A written number is read back. -/
theorem natOfDigits?_repr (n : Nat) : natOfDigits? (Nat.repr n).toList = some n := by
  rw [natOfDigits?_of_digits (repr_ne_nil n)
    (List.all_eq_true.2 fun _ hc => isDigit_of_mem_repr hc), value_repr]

/-- No number is written with a zero in front of another digit. -/
theorem repr_ne_zero_cons (n : Nat) (c : Char) (cs : List Char) :
    (Nat.repr n).toList ≠ '0' :: c :: cs := by
  induction n using Nat.strongRecOn generalizing c cs with
  | ind n ih =>
    rw [Nat.toList_repr]
    by_cases hn : n < 10
    · rw [Nat.toDigits_of_lt_base hn]
      exact fun h => List.cons_ne_nil _ _ (List.cons.inj h).2.symm
    · rw [Nat.toDigits_of_base_le (by decide) (Nat.le_of_not_lt hn), ← Nat.toList_repr]
      -- the digits in front of the last one are those of a smaller number
      cases hfront : (Nat.repr (n / 10)).toList with
      | nil => exact absurd hfront (repr_ne_nil _)
      | cons d ds =>
        intro h
        obtain ⟨rfl, hds⟩ := List.cons.inj h
        cases ds with
        | nil =>
          have hzero := value_repr (n / 10)
          rw [hfront] at hzero
          have : value ['0'] = 0 := rfl
          omega
        | cons d' ds => exact ih (n / 10) (by omega) d' ds hfront

/-- A signed word is in its own range. -/
@[simp]
theorem toInt64?_toInt (i : Int64) : toInt64? i.toInt = some i := by
  rw [toInt64?, if_pos ⟨Int64.minValue_le_toInt i, Int64.toInt_le i⟩, Int64.ofInt_toInt]

/-- An integer is in range exactly if it is the value of a word. -/
theorem toInt64?_eq_some_iff {i : Int} {w : Int64} : toInt64? i = some w ↔ w.toInt = i := by
  constructor
  · intro h
    unfold toInt64? at h
    split at h
    · next hrange =>
      cases h
      exact Int64.toInt_ofInt_of_le hrange.1 (Int.lt_add_one_of_le hrange.2)
    · cases h
  · rintro rfl
    exact toInt64?_toInt w

/-- A number without a sign is written without one. -/
theorem cutSign_repr (n : Nat) : cutSign (Nat.repr n).toList = (false, (Nat.repr n).toList) := by
  have hdigits := fun c => isDigit_of_mem_repr (n := n) (c := c)
  cases hr : (Nat.repr n).toList with
  | nil => rfl
  | cons c cs =>
    -- the first character is a digit, and so it is no sign
    have hc : isDigit c = true := hdigits c (hr ▸ List.mem_cons_self)
    unfold cutSign
    split
    · next h => cases h; exact absurd hc (by decide)
    · next h => cases h; exact absurd hc (by decide)
    · rfl

/-- The text of a signed word reads as the word. -/
theorem int64?_ofInt64 (i : Int64) : int64? (ofInt64 i).toList = some i := by
  have hnumeral : intOfNumeral? (ofInt64 i).toList = some i.toInt := by
    unfold ofInt64 intOfNumeral?
    cases i.toInt with
    | ofNat n =>
      simp only [cutSign_repr, natOfDigits?_repr]
      rfl
    -- only a word below zero is written with a sign
    | negSucc n =>
      have hminus : ("-" ++ Nat.repr (n + 1)).toList = '-' :: (Nat.repr (n + 1)).toList := by
        rw [String.toList_append]
        rfl
      simp only [hminus, cutSign, natOfDigits?_repr]
      rfl
  rw [int64?, hnumeral, Option.bind_eq_bind, Option.bind_some, toInt64?_toInt]

end Rulebook.Text
