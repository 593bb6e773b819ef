import Rulebook.Time.Calendar

/-!
# Days and dates

Every day has a date, which exists, and the date has the number of the day (`dayNumber_ofDayNumber`,
`isValid_ofDayNumber`). Both functions work in years that begin in March, and so does the argument:

* A day of an era is some day of the year that `yearOfEra` finds for it, and it is the day behind
  the 365th only if the year ends with a leap day (`inYear_yearOfEra`). The divisors of `yearOfEra`
  are not the lengths of the cycles of the calendar, but what is left over at the end of a cycle
  never adds up to a year; so the day is taken apart into centuries, cycles of four years and days,
  and the quotients are worked out for these.
* The date of a day of such a year is then a matter of months (`dayNumber_ofMarch`,
  `isValid_ofMarch`).
-/

namespace Rulebook.Time

/-! ### Years that begin in March -/

/-- The days of an era before one of its years. -/
def daysBefore (y : Int) : Int := 365 * y + y / 4 - y / 100

/-- The year of an era that a day of the era belongs to. -/
def yearOfEra (d : Int) : Int := (d - d / 1460 + d / 36524 - d / 146096) / 365

/-- The day belongs to the year that begins in March of `year`. Only before the March of a leap year
there is a day behind the 365th. -/
structure InYear (year day : Int) : Prop where
  nonneg : 0 ≤ day
  le : day ≤ 365
  leap : day = 365 → isLeapYear (year + 1) = true

/-- Years that are whole eras apart are alike. -/
theorem InYear.add_eras {year day : Int} (h : InYear year day) (era : Int) :
    InYear (year + era * 400) day := by
  refine ⟨h.nonneg, h.le, fun hday => ?_⟩
  -- an era has 400 years, after which leap years come again in the same places
  have hleap := h.leap hday
  simp only [isLeapYear, Bool.and_eq_true, Bool.or_eq_true, decide_eq_true_eq] at hleap ⊢
  omega

/-- Within an era, every day belongs to the year that is found for it. -/
theorem inYear_yearOfEra {d : Int} (hd : 0 ≤ d) (hlt : d < daysPerEra) :
    0 ≤ yearOfEra d ∧ yearOfEra d ≤ 399 ∧ InYear (yearOfEra d) (d - daysBefore (yearOfEra d)) := by
  have hlt : d < 146097 := hlt
  by_cases hlast : d = 146096
  · -- the leap day at the end of the era is behind all cycles of four years
    subst hlast
    exact ⟨by decide, by decide, by decide, by decide, by decide⟩
  -- `c` centuries, `q` cycles of four years and `t` days; the last cycle of a century is short
  obtain ⟨c, q, t, rfl, hc, hq, ht, hshort⟩ : ∃ c q t : Int, d = 36524 * c + 1461 * q + t ∧
      (0 ≤ c ∧ c ≤ 3) ∧ (0 ≤ q ∧ q ≤ 24) ∧ (0 ≤ t ∧ t ≤ 1460) ∧ (q = 24 → t ≤ 1459) :=
    ⟨d / 36524, d % 36524 / 1461, d % 36524 % 1461, by omega⟩
  -- the year is the `b`-th of its cycle
  obtain ⟨b, hyear, hb, hday, hleap⟩ : ∃ b : Int,
      yearOfEra (36524 * c + 1461 * q + t) = 100 * c + 4 * q + b ∧ (0 ≤ b ∧ b ≤ 3) ∧
        (0 ≤ t - 365 * b ∧ t - 365 * b ≤ 365) ∧ (t - 365 * b = 365 → b = 3 ∧ q ≤ 23) := by
    have hcenturies : (36524 * c + 1461 * q + t) / 36524 = c := by omega
    have heras : (36524 * c + 1461 * q + t) / 146096 = 0 := by omega
    unfold yearOfEra
    rw [hcenturies, heras]
    by_cases hcarry : 24 * c + q + t < 1460
    · have hcycles : (36524 * c + 1461 * q + t) / 1460 = 25 * c + q := by omega
      rw [hcycles]
      exact ⟨t / 365, by omega⟩
    · -- the days that are left over make up one cycle more
      have hcycles : (36524 * c + 1461 * q + t) / 1460 = 25 * c + q + 1 := by omega
      rw [hcycles]
      exact ⟨(t - 1) / 365, by omega⟩
  have hbefore : daysBefore (100 * c + 4 * q + b) = 36524 * c + 1461 * q + 365 * b := by
    have hfour : (100 * c + 4 * q + b) / 4 = 25 * c + q := by omega
    have hhundred : (100 * c + 4 * q + b) / 100 = c := by omega
    unfold daysBefore
    omega
  have hrest : 36524 * c + 1461 * q + t - daysBefore (100 * c + 4 * q + b) = t - 365 * b := by
    omega
  rw [hyear, hrest]
  refine ⟨by omega, by omega, hday.1, hday.2, fun h => ?_⟩
  -- the year after the last one of a cycle is a leap year, as it does not begin a century
  obtain ⟨rfl, hq⟩ := hleap h
  simp only [isLeapYear, Bool.and_eq_true, Bool.or_eq_true, decide_eq_true_eq]
  omega

/-! ### Dates of such years -/

/-- The date of a day of a year, both counted from March on. -/
def Date.ofMarch (year day : Int) : Date :=
  let monthFromMarch := (5 * day + 2) / 153
  let month := if monthFromMarch < 10 then monthFromMarch + 3 else monthFromMarch - 9
  ⟨if month ≤ 2 then year + 1 else year, month.toNat,
    (day - (153 * monthFromMarch + 2) / 5 + 1).toNat⟩

/-- The date of a day is that of its place in a year that begins in March. -/
theorem Date.ofDayNumber_eq (n : Int) :
    let d := (n + daysBeforeEpoch) % daysPerEra
    ofDayNumber n = ofMarch (yearOfEra d + (n + daysBeforeEpoch) / daysPerEra * 400)
      (d - daysBefore (yearOfEra d)) := rfl

variable {year day : Int}

/-- The number of a day of a year, from the era of the year and its place in it. -/
theorem dayNumber_ofMarch (h : InYear year day) : (Date.ofMarch year day).dayNumber =
    year / 400 * daysPerEra + daysBefore (year % 400) + day - daysBeforeEpoch := by
  obtain ⟨hday, hle, -⟩ := h
  unfold Date.ofMarch Date.dayNumber daysBefore
  dsimp only [daysBeforeEpoch, daysPerEra]
  generalize hmonth : (5 * day + 2) / 153 = month
  by_cases hm : month < 10
  · -- from March to December the year of the date is the year itself
    have hlater : ¬ month + 3 ≤ 2 ∧ ¬ (month + 3).toNat ≤ 2 := by omega
    have hplace : (((month + 3).toNat + 9) % 12 : Nat) = month := by omega
    simp only [hm, if_true, hlater, if_false, hplace]
    omega
  · have hearly : month - 9 ≤ 2 ∧ (month - 9).toNat ≤ 2 := by omega
    have hplace : (((month - 9).toNat + 9) % 12 : Nat) = month := by omega
    simp only [hm, if_true, hearly, if_false, hplace, Int.add_sub_cancel]
    omega

/-- The date of a day of a year exists. -/
theorem isValid_ofMarch (h : InYear year day) : (Date.ofMarch year day).isValid = true := by
  obtain ⟨hday, hle, hleap⟩ := h
  unfold Date.ofMarch
  dsimp only
  generalize hmonth : (5 * day + 2) / 153 = month
  have hrange : 0 ≤ month ∧ month ≤ 11 := by omega
  simp only [Date.isValid, daysInMonth, Bool.and_eq_true, decide_eq_true_eq]
  by_cases hm : month < 10
  · -- from March to December the length of a month does not depend on the year
    have hlater : ¬ month + 3 ≤ 2 ∧ ¬ (month + 3).toNat ≤ 2 := by omega
    simp only [hm, if_true, hlater, if_false]
    refine ⟨⟨⟨by omega, by omega⟩, by omega⟩, ?_⟩
    split
    · omega
    · split <;> omega
  · -- January and February belong to the next year
    have hearly : month - 9 ≤ 2 ∧ (month - 9).toNat ≤ 2 := by omega
    simp only [hm, if_true, hearly, if_false]
    refine ⟨⟨⟨by omega, by omega⟩, by omega⟩, ?_⟩
    split
    · split
      · omega
      · next hnot =>
        -- without a leap day the year ends with its 365th day
        have hend : day ≠ 365 := fun h => hnot (hleap h)
        omega
    · split <;> omega

/-! ### All days -/

/-- The day of the era, and its year, of any day. -/
theorem inYear_ofDayNumber (n : Int) :
    let d := (n + daysBeforeEpoch) % daysPerEra
    0 ≤ yearOfEra d ∧ yearOfEra d ≤ 399 ∧ InYear (yearOfEra d) (d - daysBefore (yearOfEra d)) :=
  inYear_yearOfEra (Int.emod_nonneg _ (by decide)) (Int.emod_lt_of_pos _ (by decide))

/-- **The date of a day has the number of the day.** -/
theorem dayNumber_ofDayNumber (n : Int) : (Date.ofDayNumber n).dayNumber = n := by
  obtain ⟨hyear, hle, hin⟩ := inYear_ofDayNumber n
  have hsum := Int.mul_ediv_add_emod (n + daysBeforeEpoch) daysPerEra
  rw [Date.ofDayNumber_eq, dayNumber_ofMarch (hin.add_eras _)]
  generalize (n + daysBeforeEpoch) % daysPerEra = d at *
  generalize (n + daysBeforeEpoch) / daysPerEra = era at *
  -- the year gives the era back, and its place in it
  have hera : (yearOfEra d + era * 400) / 400 = era := by omega
  have hplace : (yearOfEra d + era * 400) % 400 = yearOfEra d := by omega
  rw [hera, hplace, Int.mul_comm era]
  omega

/-- **The date of a day exists.** -/
theorem isValid_ofDayNumber (n : Int) : (Date.ofDayNumber n).isValid = true := by
  obtain ⟨-, -, hin⟩ := inYear_ofDayNumber n
  rw [Date.ofDayNumber_eq]
  exact isValid_ofMarch (hin.add_eras _)

end Rulebook.Time
