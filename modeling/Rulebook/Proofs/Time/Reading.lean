import Mathlib.Data.List.TakeWhile
import Mathlib.Data.Nat.Digits.Defs
import Rulebook.Proofs.Text.Decimal
import Rulebook.Proofs.Time.Calendar
import Rulebook.Time.Reading

/-!
# Instants there and back

An instant of the years from 0 to 9999 that is not within a leap second (`Instant.IsPlain`) is read
back from its text with all of its nanoseconds (`Instant.ofText?_text`).

The text is a row of numbers of a fixed width with marks between them. A number that is padded to a
width has exactly that many digits and is worth what it was before (`takeNumber_padded`), so each
reader takes the number that was written and leaves the rest. Then the date has the number of its
day, and hours, minutes and seconds add up to the second of the day. A fraction is cut at the third,
the sixth or the ninth digit, where only zeros are cut off (`takeFraction_fractionText`).
-/

namespace Rulebook

namespace Text

/-! ### Numbers of a fixed width -/

variable {width n : Nat}

/-- Zeros are put in front of the digits of a number. -/
theorem toList_padded (width n : Nat) : (padded width n).toList =
    List.replicate (width - (Nat.repr n).length) '0' ++ (Nat.repr n).toList := by
  rw [padded, String.toList_append, String.toList_ofList]

/-- A number is padded to the width, if it has no more digits. -/
theorem length_padded (hwidth : 0 < width) (hn : n < 10 ^ width) :
    (padded width n).toList.length = width := by
  have hdigits : (Nat.repr n).length ≤ width := Nat.repr_length n width hwidth hn
  rw [toList_padded, List.length_append, List.length_replicate, String.length_toList]
  omega

/-- A padded number has nothing but digits. -/
theorem isDigit_of_mem_padded {c : Char} (hc : c ∈ (padded width n).toList) :
    isDigit c = true := by
  rw [toList_padded, List.mem_append] at hc
  rcases hc with hzero | hdigit
  · rw [List.eq_of_mem_replicate hzero]
    rfl
  · exact isDigit_of_mem_repr hdigit

/-- Zeros in front of a number do not change what it is worth. -/
theorem value_padded (width n : Nat) : value (padded width n).toList = n := by
  have hzeros : ∀ k ds, value (List.replicate k '0' ++ ds) = value ds := by
    intro k ds
    induction k with
    | zero => rfl
    | succ k ih => exact ih
  rw [toList_padded, hzeros, value_repr]

/-- A digit is no blank. -/
theorem isBlank_eq_false_of_isDigit {c : Char} (h : isDigit c = true) : isBlank c = false := by
  have hrange : '0'.toNat ≤ c.toNat ∧ c.toNat ≤ '9'.toNat := by
    simpa [isDigit, Char.le_def, UInt32.le_iff_toNat_le] using h
  -- all of the blank ranges lie below the digits or above them
  have hall : ∀ m : Nat, 48 ≤ m → m ≤ 57 →
      (blankRanges.any fun r => decide (r.1 ≤ m) && decide (m ≤ r.2)) = false := by
    intro m hlow hhigh
    simp only [blankRanges, List.any_cons, List.any_nil, Bool.or_false, Bool.or_eq_false_iff,
      Bool.and_eq_false_iff, decide_eq_false_iff_not]
    omega
  exact hall c.toNat hrange.1 hrange.2

end Text

namespace Time

open Text (padded)

variable {width n : Nat} {rest : List Char}

/-- A number of the full width is taken as it was written, whatever follows. -/
theorem takeNumber_padded (hwidth : 0 < width) (hn : n < 10 ^ width) (rest : List Char) :
    takeNumber width ((padded width n).toList ++ rest) = some (n, rest) := by
  have hlength := Text.length_padded hwidth hn
  have hdigits : (padded width n).toList.takeWhile Text.isDigit = (padded width n).toList :=
    List.takeWhile_eq_self_iff.2 fun c hc => Text.isDigit_of_mem_padded hc
  rw [takeNumber, List.take_left' hlength, hdigits]
  -- the full width is there, so it is not empty
  split
  · next hnil =>
    rw [hnil, List.length_nil] at hlength
    exact absurd hlength (Nat.ne_of_lt hwidth)
  · rw [Text.value_padded, List.drop_left]

/-- Nothing is skipped in front of a number. -/
theorem skipBlank_padded (hwidth : 0 < width) (hn : n < 10 ^ width) (rest : List Char) :
    Text.skipBlank ((padded width n).toList ++ rest) = (padded width n).toList ++ rest := by
  have hlength := Text.length_padded hwidth hn
  have hdigit : ∀ c ∈ (padded width n).toList, Text.isDigit c = true :=
    fun c hc => Text.isDigit_of_mem_padded hc
  cases hcs : (padded width n).toList with
  | nil =>
    rw [hcs, List.length_nil] at hlength
    exact absurd hlength (Nat.ne_of_lt hwidth)
  | cons c cs =>
    have hblank := Text.isBlank_eq_false_of_isDigit (hdigit c (hcs ▸ List.mem_cons_self))
    rw [Text.skipBlank, List.cons_append, List.dropWhile_cons_of_neg (by simp [hblank])]

/-- A field takes a number of two digits between its bounds. -/
theorem takeField_padded {least greatest : Nat} (hleast : least ≤ n) (hgreatest : n ≤ greatest)
    (hn : n < 100) (rest : List Char) :
    takeField 2 least greatest ((padded 2 n).toList ++ rest) = some (n, rest) := by
  have hskip := skipBlank_padded (by decide : 0 < 2) hn rest
  have htake := takeNumber_padded (by decide : 0 < 2) hn rest
  rw [takeField, hskip, htake, Option.bind_eq_bind, Option.bind_some]
  exact if_pos ⟨hleast, hgreatest⟩

/-- A mark that is no blank is taken. -/
theorem takeMark_cons {mark : Char} (hmark : Text.isBlank mark = false) (rest : List Char) :
    takeMark mark (mark :: rest) = some rest := by
  have hskip : Text.skipBlank (mark :: rest) = mark :: rest :=
    List.dropWhile_cons_of_neg (by simp [hmark])
  rw [takeMark, hskip]
  exact if_pos rfl

/-! ### Dates -/

/-- A year of four digits is taken as it was written. -/
theorem takeYear_yearText {y : Int} (hy : 0 ≤ y ∧ y ≤ 9999) (rest : List Char) :
    takeYear ((yearText y).toList ++ rest) = some (y, rest) := by
  have hn : y.toNat < 10 ^ 4 := by omega
  have htake := takeNumber_padded (by decide : 0 < 4) hn rest
  have hyear : isYear y = true := by
    simp only [isYear, Bool.and_eq_true, decide_eq_true_eq]
    omega
  have hcast : (y.toNat : Int) = y := Int.toNat_of_nonneg hy.1
  -- the first character is a digit, so there is no sign
  have hsign : ∀ cs, (padded 4 y.toNat).toList ++ rest ≠ '-' :: cs ∧
      (padded 4 y.toNat).toList ++ rest ≠ '+' :: cs := by
    have hlength := Text.length_padded (by decide : 0 < 4) hn
    have hdigit : ∀ c ∈ (padded 4 y.toNat).toList, Text.isDigit c = true :=
      fun c hc => Text.isDigit_of_mem_padded hc
    cases hcs : (padded 4 y.toNat).toList with
    | nil =>
      rw [hcs] at hlength
      cases hlength
    | cons c cs =>
      have hc := hdigit c (hcs ▸ List.mem_cons_self)
      refine fun cs' => ⟨fun h => ?_, fun h => ?_⟩
      · rw [(List.cons.inj h).1] at hc
        exact absurd hc (by decide)
      · rw [(List.cons.inj h).1] at hc
        exact absurd hc (by decide)
  rw [yearText, if_pos hy, takeYear, skipBlank_padded (by decide : 0 < 4) hn]
  split
  · next h => exact absurd h (hsign _).1
  · next h => exact absurd h (hsign _).2
  · rw [htake]
    simp only [Option.map_some, Option.bind_eq_bind, Option.bind_some, hcast, if_pos hyear]
    rfl

/-- A date of a year of four digits is taken as it was written. -/
theorem takeDate_text {d : Date} (hd : d.isValid = true) (hy : 0 ≤ d.year ∧ d.year ≤ 9999)
    (rest : List Char) : takeDate (d.text.toList ++ rest) = some (d, rest) := by
  obtain ⟨year, month, day⟩ := d
  have hbounds := hd
  simp only [Date.isValid, Bool.and_eq_true, decide_eq_true_eq] at hbounds
  obtain ⟨⟨⟨hmonth, hmonth'⟩, hday⟩, hday'⟩ := hbounds
  -- days and months have two digits at most
  have hlong : daysInMonth year month ≤ 31 := by
    unfold daysInMonth
    split
    · split <;> decide
    · split <;> decide
  have htext : (Date.text ⟨year, month, day⟩).toList ++ rest = (yearText year).toList ++
      '-' :: ((padded 2 month).toList ++ '-' :: ((padded 2 day).toList ++ rest)) := by
    simp [Date.text, String.toList_append]
  rw [htext, takeDate, takeYear_yearText hy]
  simp only [Option.bind_eq_bind, Option.bind_some]
  rw [takeMark_cons (by decide)]
  simp only [Option.bind_some]
  rw [takeField_padded hmonth hmonth' (by omega)]
  simp only [Option.bind_some]
  rw [takeMark_cons (by decide)]
  simp only [Option.bind_some]
  rw [takeField_padded hday (by omega) (by omega)]
  simp only [Option.bind_some, hd, if_true]
  rfl

/-! ### Times of day -/

/-- Digits behind a point are taken up to a mark, and filled up to nine. -/
theorem takeFraction_padded (hwidth : 0 < width) (hle : width ≤ 9) (hn : n < 10 ^ width)
    (rest : List Char) : takeFraction ('.' :: ((padded width n).toList ++ 'Z' :: rest)) =
      some (n * 10 ^ (9 - width), 'Z' :: rest) := by
  have hlength := Text.length_padded hwidth hn
  have hdigits : ((padded width n).toList ++ 'Z' :: rest).takeWhile Text.isDigit =
      (padded width n).toList := by
    rw [List.takeWhile_append_of_pos fun c hc => Text.isDigit_of_mem_padded hc,
      List.takeWhile_cons_of_neg (by decide), List.append_nil]
  rw [takeFraction, hdigits]
  split
  · next hnil =>
    rw [hnil, List.length_nil] at hlength
    exact absurd hlength (Nat.ne_of_lt hwidth)
  · -- no more than nine digits are there, so none is left out
    have htake : (padded width n).toList.take 9 = (padded width n).toList :=
      List.take_of_length_le (Nat.le_trans (Nat.le_of_eq hlength) hle)
    rw [htake, Text.value_padded, List.drop_left, hlength]
    rfl

/-- A fraction of a second is taken as it was written, however many digits it has. -/
theorem takeFraction_fractionText {nanos : Nat} (h : nanos < nanosPerSecond) (rest : List Char) :
    takeFraction ((fractionText nanos).toList ++ 'Z' :: rest) = some (nanos, 'Z' :: rest) := by
  have h : nanos < 1000000000 := h
  have hpoint : ∀ w m : Nat, ("." ++ padded w m).toList ++ 'Z' :: rest =
      '.' :: ((padded w m).toList ++ 'Z' :: rest) := by
    intro w m
    rw [String.toList_append]
    rfl
  unfold fractionText
  split
  · -- there are four ways to write a fraction: not at all, or in thousands, millions or billions
    next hzero =>
    subst hzero
    rfl
  split
  · next hmillis =>
    have hn : nanos / 1000000 < 10 ^ 3 := by omega
    have hcut : nanos / 1000000 * 10 ^ (9 - 3) = nanos := by omega
    rw [hpoint, takeFraction_padded (by decide) (by decide) hn, hcut]
  split
  · next hmicros =>
    have hn : nanos / 1000 < 10 ^ 6 := by omega
    have hcut : nanos / 1000 * 10 ^ (9 - 6) = nanos := by omega
    rw [hpoint, takeFraction_padded (by decide) (by decide) hn, hcut]
  · have hcut : nanos * 10 ^ (9 - 9) = nanos := Nat.mul_one nanos
    rw [hpoint, takeFraction_padded (by decide) (by decide) h, hcut]

/-- A second of a day is read from its hours, minutes and seconds, with the nanoseconds behind
it. -/
theorem takeTime_text {s nanos : Nat} (hs : s < 86400) (hnanos : nanos < nanosPerSecond)
    (rest : List Char) :
    takeTime ((padded 2 (s / 3600)).toList ++ ':' :: ((padded 2 (s / 60 % 60)).toList ++
      ':' :: ((padded 2 (s % 60)).toList ++ ((fractionText nanos).toList ++ 'Z' :: rest)))) =
      some ((s, nanos), 'Z' :: rest) := by
  -- outside leap seconds no minute has a second of this number
  have hsecond : s % 60 ≠ 60 := by omega
  have hsum : s / 3600 * 3600 + s / 60 % 60 * 60 + (s % 60 - 0) = s := by omega
  rw [takeTime, takeField_padded (Nat.zero_le _) (by omega) (by omega)]
  simp only [Option.bind_eq_bind, Option.bind_some]
  rw [takeMark_cons (by decide)]
  simp only [Option.bind_some]
  rw [takeField_padded (Nat.zero_le _) (by omega) (by omega)]
  simp only [Option.bind_some]
  rw [takeMark_cons (by decide)]
  simp only [Option.bind_some]
  rw [takeField_padded (Nat.zero_le _) (by omega) (by omega)]
  simp only [Option.bind_some]
  rw [takeFraction_fractionText hnanos]
  simp only [Option.bind_some, if_neg hsecond, hsum, Nat.zero_mul, Nat.add_zero]
  rfl

/-! ### Instants -/

namespace Instant

/-- The date of an instant in universal time. -/
def date (i : Instant) : Date :=
  Date.ofDayNumber (i.seconds / secondsPerDay)

/-- An instant of a year of four digits, not within a leap second. -/
structure IsPlain (i : Instant) : Prop where
  year_nonneg : 0 ≤ i.date.year
  year_le : i.date.year ≤ 9999
  nanos_lt : i.nanos < nanosPerSecond

instance (i : Instant) : Decidable i.IsPlain :=
  decidable_of_iff (0 ≤ i.date.year ∧ i.date.year ≤ 9999 ∧ i.nanos < nanosPerSecond)
    ⟨fun h => ⟨h.1, h.2.1, h.2.2⟩, fun h => ⟨h.year_nonneg, h.year_le, h.nanos_lt⟩⟩

/-- The parts of the text of an instant that is not within a leap second. -/
theorem toList_text {i : Instant} (h : i.nanos < nanosPerSecond) :
    let s := (i.seconds % secondsPerDay).toNat
    i.text.toList = i.date.text.toList ++ 'T' :: ((padded 2 (s / 3600)).toList ++
      ':' :: ((padded 2 (s / 60 % 60)).toList ++ ':' :: ((padded 2 (s % 60)).toList ++
        ((fractionText i.nanos).toList ++ ['Z'])))) := by
  have hleap : i.nanos / nanosPerSecond = 0 := Nat.div_eq_of_lt h
  have hnanos : i.nanos % nanosPerSecond = i.nanos := Nat.mod_eq_of_lt h
  simp [text, date, hleap, hnanos, String.toList_append]

/-- **An instant is read back from its text**, to the nanosecond. -/
theorem ofText?_text {i : Instant} (h : i.IsPlain) : ofText? i.text = some i := by
  obtain ⟨hyear, hyear', hnanos⟩ := h
  have hday : 0 ≤ i.seconds % secondsPerDay ∧ i.seconds % secondsPerDay < secondsPerDay :=
    ⟨Int.emod_nonneg _ (by decide), Int.emod_lt_of_pos _ (by decide)⟩
  have hs : (i.seconds % secondsPerDay).toNat < 86400 := by
    have hlt : i.seconds % secondsPerDay < 86400 := hday.2
    omega
  -- the day of the date and the second of the day make up the instant
  have hseconds : i.date.dayNumber * secondsPerDay + (i.seconds % secondsPerDay).toNat - 0 =
      i.seconds := by
    rw [date, dayNumber_ofDayNumber, Int.toNat_of_nonneg hday.1, Int.sub_zero, Int.mul_comm]
    exact Int.mul_ediv_add_emod _ _
  have hrange : isYear i.date.year = true := by
    simp only [isYear, Bool.and_eq_true, decide_eq_true_eq]
    omega
  have hdate : i.date.isValid = true := isValid_ofDayNumber _
  rw [ofText?, toList_text hnanos, takeDate_text hdate ⟨hyear, hyear'⟩]
  simp only [Option.bind_eq_bind, Option.bind_some, takeSeparator]
  rw [takeTime_text hs hnanos]
  simp only [Option.bind_some]
  have hskip : Text.skipBlank ['Z'] = ['Z'] := by decide
  rw [hskip]
  simp only [takeOffset, Option.bind_some, hseconds, List.isEmpty_nil, Bool.true_and]
  exact if_pos hrange

end Instant

end Time

end Rulebook
