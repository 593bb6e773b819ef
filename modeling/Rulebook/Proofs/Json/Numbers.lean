import Mathlib.Data.List.TakeWhile
import Rulebook.Json.Lexeme

/-!
# How numbers are written

A number is written with a sign, a whole part without zeros in front, and perhaps a fraction and an
exponent (`NumberText`). The scanner goes through these parts from front to back. Each part of it is
sound, it cuts off what is written as that part (`scanNumber_sound`), and complete, it cuts off all
that is written so (`scanNumber_of_unsignedText`).

A number has no end of its own, so a part is complete only in front of what does not go on with it:
no digit behind digits (`NoDigit`), and neither a point nor an exponent behind the number
(`EndsNumber`).
-/

namespace Rulebook.Json

/-! ### The parts of a number -/

/-- The digits of a whole part: a zero, or digits that begin with another one. -/
structure IsWhole (ds : List Char) : Prop where
  ne_nil : ds ≠ []
  isDigit : ∀ c ∈ ds, Text.isDigit c = true
  zero_alone : ∀ c cs, ds ≠ '0' :: c :: cs

/-- How a fraction is written: by a point and digits, if it has any. -/
inductive FractionText : List Char → List Char → Prop
  | none : FractionText [] []
  | some {ds : List Char} (hne : ds ≠ []) (hds : ∀ c ∈ ds, Text.isDigit c = true) :
      FractionText ds ('.' :: ds)

/-- How the sign of an exponent is written. -/
inductive SignText : Bool → List Char → Prop
  | minus : SignText true ['-']
  | plus : SignText false ['+']
  | none : SignText false []

/-- How an exponent is written, if there is one. -/
inductive ExponentText : Option (Bool × List Char) → List Char → Prop
  | none : ExponentText none []
  | some {e : Char} {negative : Bool} {sign ds : List Char} (he : e = 'e' ∨ e = 'E')
      (hsign : SignText negative sign) (hne : ds ≠ []) (hds : ∀ c ∈ ds, Text.isDigit c = true) :
      ExponentText (some (negative, ds)) (e :: (sign ++ ds))

/-- How a number is written without its sign. -/
inductive UnsignedText (n : Numeral) : List Char → Prop
  | mk {fraction exponent : List Char} (hwhole : IsWhole n.whole)
      (hfraction : FractionText n.fraction fraction)
      (hexponent : ExponentText n.exponent exponent) :
      UnsignedText n (n.whole ++ (fraction ++ exponent))

/-- How a number is written. -/
inductive NumberText (n : Numeral) : List Char → Prop
  | negative {w : List Char} (hsign : n.negative = true) (h : UnsignedText n w) :
      NumberText n ('-' :: w)
  | unsigned {w : List Char} (hsign : n.negative = false) (h : UnsignedText n w) : NumberText n w

/-- The first digit of a number. -/
theorem exists_digit_of_unsignedText {n : Numeral} {w : List Char} (hw : UnsignedText n w) :
    ∃ d ds, w = d :: ds ∧ Text.isDigit d = true := by
  obtain ⟨negative, whole, fraction, exponent⟩ := n
  cases hw with
  | mk hwhole _ _ =>
    cases whole with
    | nil => exact absurd rfl hwhole.ne_nil
    | cons d ds => exact ⟨d, _, rfl, hwhole.isDigit d List.mem_cons_self⟩

/-! ### Where numbers end -/

/-- No digit stands in front of the text. -/
def NoDigit (cs : List Char) : Prop :=
  ∀ c ∈ cs.head?, Text.isDigit c = false

/-- No digit stands in front of the text, nor anything else that would go on with a number. -/
def EndsNumber (cs : List Char) : Prop :=
  ∀ c ∈ cs.head?, Text.isDigit c = false ∧ c ≠ '.' ∧ c ≠ 'e' ∧ c ≠ 'E'

theorem EndsNumber.noDigit {cs : List Char} (h : EndsNumber cs) : NoDigit cs :=
  fun c hc => (h c hc).1

/-- Digits are cut off in front of anything but another digit. -/
theorem spanDigits_append {ds rest : List Char} (hds : ∀ c ∈ ds, Text.isDigit c = true)
    (hrest : NoDigit rest) : spanDigits (ds ++ rest) = (ds, rest) := by
  -- the rest has no digit in front to cut off
  have hhead : rest.takeWhile Text.isDigit = [] ∧ rest.dropWhile Text.isDigit = rest := by
    cases rest with
    | nil => exact ⟨rfl, rfl⟩
    | cons c cs => simp [hrest c rfl]
  rw [spanDigits, List.takeWhile_append_of_pos hds, List.dropWhile_append_of_pos hds, hhead.1,
    hhead.2, List.append_nil]

/-- Digits that are cut off are all the digits in front. -/
theorem spanDigits_sound {cs ds rest : List Char} (h : spanDigits cs = (ds, rest)) :
    cs = ds ++ rest ∧ (∀ c ∈ ds, Text.isDigit c = true) ∧ NoDigit rest := by
  obtain ⟨rfl, rfl⟩ := Prod.mk.inj h
  refine ⟨List.takeWhile_append_dropWhile.symm, fun c hc => List.mem_takeWhile_imp hc, ?_⟩
  -- the first character that is left is the one at which the digits stopped
  intro c hc
  have hhead := List.head?_dropWhile_not Text.isDigit cs
  rw [Option.mem_def.1 hc] at hhead
  exact hhead

/-! ### What is scanned is written -/

/-- What is scanned as a whole part is one. -/
theorem scanWhole_sound {cs ds rest : List Char} (h : scanWhole cs = some (ds, rest)) :
    cs = ds ++ rest ∧ IsWhole ds ∧ NoDigit rest := by
  unfold scanWhole at h
  split at h
  · cases h
  · cases h
  · -- neither is it empty nor do digits follow a zero in front, which are the two cases before
    next hne hzero =>
    obtain ⟨hcs, hds, hrest⟩ := spanDigits_sound (Option.some.inj h)
    rw [Option.some.inj h] at hne hzero
    refine ⟨hcs, ⟨fun hnil => ?_, hds, fun c cs hcons => ?_⟩, hrest⟩
    · exact hne rest (by rw [hnil])
    · exact hzero c cs rest (by rw [hcons])

/-- What is scanned as a fraction is written as one. -/
theorem scanFraction_sound {cs ds rest : List Char} (h : scanFraction cs = some (ds, rest)) :
    ∃ w, cs = w ++ rest ∧ FractionText ds w ∧ (NoDigit cs → NoDigit rest) := by
  unfold scanFraction at h
  split at h
  · next cs =>
    split at h
    · cases h
    · -- behind the point there is at least one digit
      next hne =>
      obtain ⟨hcs, hds, hrest⟩ := spanDigits_sound (Option.some.inj h)
      rw [Option.some.inj h] at hne
      refine ⟨'.' :: ds, by rw [hcs]; rfl, .some (fun hnil => ?_) hds, fun _ => hrest⟩
      exact hne rest (by rw [hnil])
  · cases h
    exact ⟨[], rfl, .none, id⟩

/-- What is cut off as a sign is written as one. -/
theorem cutSign_sound (cs : List Char) :
    ∃ sign, SignText (Text.cutSign cs).1 sign ∧ cs = sign ++ (Text.cutSign cs).2 := by
  unfold Text.cutSign
  split
  · exact ⟨_, .minus, rfl⟩
  · exact ⟨_, .plus, rfl⟩
  · exact ⟨_, .none, rfl⟩

/-- What is scanned as an exponent is written as one. -/
theorem scanExponent_sound {cs rest : List Char} {o : Option (Bool × List Char)}
    (h : scanExponent cs = some (o, rest)) :
    ∃ w, cs = w ++ rest ∧ ExponentText o w ∧ (NoDigit cs → NoDigit rest) := by
  unfold scanExponent at h
  split at h
  · cases h
    exact ⟨[], rfl, .none, id⟩
  · next c cs =>
    split at h
    · -- behind the letter comes the sign, and behind the sign the digits
      next he =>
      obtain ⟨sign, hsign, hcs⟩ := cutSign_sound cs
      generalize Text.cutSign cs = cut at h hsign hcs
      obtain ⟨negative, behind⟩ := cut
      dsimp only at h hsign hcs
      split at h
      · cases h
      · next ds _ hne hspan =>
        cases h
        obtain ⟨hbehind, hds, hrest⟩ := spanDigits_sound hspan
        refine ⟨c :: (sign ++ ds), ?_, .some he hsign hne hds, fun _ => hrest⟩
        rw [hcs, hbehind, List.cons_append, List.append_assoc]
    · -- any other letter is left where it is
      cases h
      exact ⟨[], rfl, .none, id⟩

/-- What is scanned as a number is written as one, and goes on as far as it can. -/
theorem scanNumber_sound {negative : Bool} {cs rest : List Char} {n : Numeral}
    (h : scanNumber negative cs = some (n, rest)) :
    n.negative = negative ∧ ∃ w, UnsignedText n w ∧ cs = w ++ rest ∧ NoDigit rest := by
  obtain ⟨⟨whole, cs₁⟩, hwhole, h⟩ := Option.bind_eq_some_iff.1 h
  obtain ⟨⟨fraction, cs₂⟩, hfraction, h⟩ := Option.bind_eq_some_iff.1 h
  obtain ⟨⟨exponent, cs₃⟩, hexponent, h⟩ := Option.bind_eq_some_iff.1 h
  cases h
  -- each part begins where the one before it ends, and no digit is left over by any of them
  obtain ⟨rfl, hdigits, hrest⟩ := scanWhole_sound hwhole
  obtain ⟨w, rfl, hw, hrest₁⟩ := scanFraction_sound hfraction
  obtain ⟨w', rfl, hw', hrest₂⟩ := scanExponent_sound hexponent
  refine ⟨rfl, _, .mk hdigits hw hw', ?_, hrest₂ (hrest₁ hrest)⟩
  rw [List.append_assoc, List.append_assoc]

/-! ### What is written is scanned -/

/-- A whole part is scanned as it. -/
theorem scanWhole_of_isWhole {ds rest : List Char} (hds : IsWhole ds) (hrest : NoDigit rest) :
    scanWhole (ds ++ rest) = some (ds, rest) := by
  rw [scanWhole, spanDigits_append hds.isDigit hrest]
  -- the scanner refuses no digits at all and a zero with digits behind it, and neither is whole
  split
  · next h => exact absurd (congrArg Prod.fst h) hds.ne_nil
  · next h => exact absurd (congrArg Prod.fst h) (hds.zero_alone _ _)
  · rfl

/-- What is written as a fraction is scanned as it, if no point follows where there is none. -/
theorem scanFraction_of_fractionText {ds w rest : List Char} (hw : FractionText ds w)
    (hrest : NoDigit rest) (hpoint : rest.head? ≠ some '.') :
    scanFraction (w ++ rest) = some (ds, rest) := by
  cases hw with
  | none =>
    unfold scanFraction
    split
    · next h =>
      rw [List.nil_append] at h
      exact absurd (congrArg List.head? h) hpoint
    · rfl
  | some hne hds =>
    rw [List.cons_append, scanFraction, spanDigits_append hds hrest]
    split
    · next h => exact absurd (congrArg Prod.fst h) hne
    · rfl

/-- What is written as a sign is cut off in front of digits. -/
theorem cutSign_of_signText {negative : Bool} {sign ds : List Char} (hsign : SignText negative sign)
    (hne : ds ≠ []) (hds : ∀ c ∈ ds, Text.isDigit c = true) (rest : List Char) :
    Text.cutSign (sign ++ (ds ++ rest)) = (negative, ds ++ rest) := by
  cases hsign with
  | minus => rfl
  | plus => rfl
  | none =>
    cases ds with
    | nil => exact absurd rfl hne
    | cons d ds =>
      -- a digit is no sign
      have hd := hds d List.mem_cons_self
      rw [List.nil_append, List.cons_append]
      unfold Text.cutSign
      split
      · next h =>
        cases h
        cases hd
      · next h =>
        cases h
        cases hd
      · rfl

/-- What is written as an exponent is scanned as it, if what follows does not go on with a number.
-/
theorem scanExponent_of_exponentText {o : Option (Bool × List Char)} {w rest : List Char}
    (hw : ExponentText o w) (hrest : EndsNumber rest) :
    scanExponent (w ++ rest) = some (o, rest) := by
  cases hw with
  | none =>
    cases rest with
    | nil => rfl
    | cons c cs =>
      -- without an exponent what follows must not look like one
      obtain ⟨-, -, he, hE⟩ := hrest c rfl
      rw [List.nil_append, scanExponent, if_neg (not_or.2 ⟨he, hE⟩)]
  | some he hsign hne hds =>
    have hcut := cutSign_of_signText hsign hne hds rest
    have hspan := spanDigits_append hds hrest.noDigit
    rw [List.cons_append, List.append_assoc, scanExponent, if_pos he, hcut]
    dsimp only
    rw [hspan]
    split
    · next h => exact absurd (congrArg Prod.fst h) hne
    · next h =>
      cases h
      rfl

/-- An exponent, or what follows without one, does not go on with digits or a point. -/
theorem head?_exponentText_append {o : Option (Bool × List Char)} {w rest : List Char}
    (hw : ExponentText o w) (hrest : EndsNumber rest) :
    NoDigit (w ++ rest) ∧ (w ++ rest).head? ≠ some '.' := by
  cases hw with
  | none => exact ⟨hrest.noDigit, fun h => (hrest '.' h).2.1 rfl⟩
  | some he _ _ _ =>
    rcases he with rfl | rfl
    · exact ⟨by rintro c ⟨⟩; rfl, by simp⟩
    · exact ⟨by rintro c ⟨⟩; rfl, by simp⟩

/-- What is written as a number is scanned as it, if what follows does not go on with it. -/
theorem scanNumber_of_unsignedText {n : Numeral} {w rest : List Char} (hw : UnsignedText n w)
    (hrest : EndsNumber rest) : scanNumber n.negative (w ++ rest) = some (n, rest) := by
  obtain ⟨negative, whole, fraction, exponent⟩ := n
  cases hw with
  | @mk f e hwhole hfraction hexponent =>
    dsimp only at hwhole hfraction hexponent
    -- from the back: what follows ends the exponent, and this ends the fraction and the whole part
    obtain ⟨hdigit, hpoint⟩ := head?_exponentText_append hexponent hrest
    -- a fraction begins with a point, which is no digit
    have hdigit' : NoDigit (f ++ (e ++ rest)) := by
      cases hfraction with
      | none => exact hdigit
      | some => rintro c ⟨⟩; rfl
    rw [List.append_assoc, List.append_assoc, scanNumber, scanWhole_of_isWhole hwhole hdigit']
    simp [scanFraction_of_fractionText hfraction hdigit hpoint,
      scanExponent_of_exponentText hexponent hrest]

end Rulebook.Json
