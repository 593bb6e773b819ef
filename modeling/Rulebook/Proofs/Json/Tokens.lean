import Rulebook.Proofs.Json.Numbers
import Rulebook.Proofs.Json.Strings

/-!
# The tokens of a text

A JSON text is a row of tokens with white space around them. `LexemeText` says how each lexeme is
written: a string in quotes, a number with its sign, its point and its exponent. `Tokens` puts them
in a row, where a number does not end in front of a further digit.

The scanner finds just these tokens (`tokens_iff`). Half of it says that whatever the scanner cuts
off is written in this way (`scanNumber_sound`, `scanLexeme_sound`), and the other half that
whatever is written so is cut off (`scanNumber_of_unsignedText`, `scanLexeme_of_lexemeText`). Where
a lexeme ends is known from the lexeme, unless it is a number: then it depends on what follows.
-/

namespace Rulebook.Json

/-! ### How lexemes are written -/

/-- How a lexeme is written. -/
inductive LexemeText : Lexeme → List Char → Prop
  | openBrace : LexemeText .openBrace ['\x7b']
  | closeBrace : LexemeText .closeBrace ['\x7d']
  | openBracket : LexemeText .openBracket ['[']
  | closeBracket : LexemeText .closeBracket [']']
  | colon : LexemeText .colon [':']
  | comma : LexemeText .comma [',']
  | null : LexemeText .null ['n', 'u', 'l', 'l']
  | true : LexemeText (.boolean true) ['t', 'r', 'u', 'e']
  | false : LexemeText (.boolean false) ['f', 'a', 'l', 's', 'e']
  | number {n : Numeral} {w : List Char} (h : NumberText n w) : LexemeText (.number n) w
  | string {ps : List Piece} {body : List Char} (h : BodyText ps body) :
      LexemeText (.string ps) ('"' :: (body ++ ['"']))

/-- A lexeme ends in front of this text: a number does not go on with a digit. -/
def EndsBefore (l : Lexeme) (rest : List Char) : Prop :=
  ∀ n, l = .number n → NoDigit rest

/-- What is scanned as a lexeme is written as it. -/
theorem scanLexeme_sound {cs rest : List Char} {l : Lexeme} (h : scanLexeme cs = some (l, rest)) :
    ∃ w, LexemeText l w ∧ cs = w ++ rest ∧ EndsBefore l rest := by
  unfold scanLexeme at h
  split at h
  -- a string and a number are of any length, and their scanners have said how they are written
  case h_10 =>
    obtain ⟨⟨ps, rest'⟩, hscan, h⟩ := Option.map_eq_some_iff.1 h
    cases h
    obtain ⟨body, hbody, rfl⟩ := scanString_sound hscan
    exact ⟨_, .string hbody, by simp, nofun⟩
  case h_11 =>
    obtain ⟨⟨n, rest'⟩, hscan, h⟩ := Option.map_eq_some_iff.1 h
    cases h
    obtain ⟨hsign, w, hw, rfl, hrest⟩ := scanNumber_sound hscan
    exact ⟨_, .number (.negative hsign hw), rfl, fun _ _ => hrest⟩
  case h_12 =>
    obtain ⟨⟨n, rest'⟩, hscan, h⟩ := Option.map_eq_some_iff.1 h
    cases h
    obtain ⟨hsign, w, hw, rfl, hrest⟩ := scanNumber_sound hscan
    exact ⟨_, .number (.unsigned hsign hw), rfl, fun _ _ => hrest⟩
  -- all the others are fixed words
  case h_1 => cases h; exact ⟨_, .openBrace, rfl, nofun⟩
  case h_2 => cases h; exact ⟨_, .closeBrace, rfl, nofun⟩
  case h_3 => cases h; exact ⟨_, .openBracket, rfl, nofun⟩
  case h_4 => cases h; exact ⟨_, .closeBracket, rfl, nofun⟩
  case h_5 => cases h; exact ⟨_, .colon, rfl, nofun⟩
  case h_6 => cases h; exact ⟨_, .comma, rfl, nofun⟩
  case h_7 => cases h; exact ⟨_, .null, rfl, nofun⟩
  case h_8 => cases h; exact ⟨_, .true, rfl, nofun⟩
  case h_9 => cases h; exact ⟨_, .false, rfl, nofun⟩

/-- What begins with a digit is scanned as a number. -/
theorem scanLexeme_digit {c : Char} (hc : Text.isDigit c = true) (cs : List Char) :
    scanLexeme (c :: cs) =
      (scanNumber false (c :: cs)).map fun r => (Lexeme.number r.1, r.2) := by
  rw [scanLexeme.eq_def]
  split
  case h_12 => rfl
  -- no other lexeme begins with a digit
  all_goals next h => cases h; exact absurd hc (by decide)

/-- A digit is no space. -/
theorem isSpace_eq_false {c : Char} (hc : Text.isDigit c = true) : isSpace c = false := by
  cases hs : isSpace c with
  | false => rfl
  | true =>
    simp only [isSpace, Bool.or_eq_true, decide_eq_true_eq] at hs
    rcases hs with ((rfl | rfl) | rfl) | rfl <;> exact absurd hc (by decide)

/-- The first character of a lexeme is no space, and does not go on with a number unless it is a
digit. -/
theorem exists_head_of_lexemeText {l : Lexeme} {w : List Char} (hw : LexemeText l w) :
    ∃ c cs, w = c :: cs ∧ isSpace c = false ∧ c ≠ '.' ∧ c ≠ 'e' ∧ c ≠ 'E' := by
  have hdigit : ∀ d, Text.isDigit d = true → d ≠ '.' ∧ d ≠ 'e' ∧ d ≠ 'E' := by
    refine fun d hd => ⟨?_, ?_, ?_⟩ <;> rintro rfl <;> cases hd
  -- only what a number begins with depends on the number
  cases hw with
  | number h =>
    cases h with
    | negative _ _ => exact ⟨_, _, rfl, rfl, by decide⟩
    | unsigned _ h =>
      obtain ⟨d, ds, rfl, hd⟩ := exists_digit_of_unsignedText h
      exact ⟨d, ds, rfl, isSpace_eq_false hd, hdigit d hd⟩
  | _ => exact ⟨_, _, rfl, rfl, by decide⟩

/-- What is written as a lexeme is scanned as it, if what follows does not go on with a number. -/
theorem scanLexeme_of_lexemeText {l : Lexeme} {w rest : List Char} (hw : LexemeText l w)
    (hrest : ∀ n, l = .number n → EndsNumber rest) : scanLexeme (w ++ rest) = some (l, rest) := by
  cases hw with
  | @number n w h =>
    have hends := hrest n rfl
    -- a minus alone makes the scanner take a number, otherwise the first digit does
    cases h with
    | @negative w hsign h =>
      have hscan := scanNumber_of_unsignedText h hends
      rw [hsign] at hscan
      rw [List.cons_append, scanLexeme, hscan]
      rfl
    | unsigned hsign h =>
      have hscan := scanNumber_of_unsignedText h hends
      obtain ⟨d, ds, rfl, hd⟩ := exists_digit_of_unsignedText h
      rw [hsign] at hscan
      rw [List.cons_append, scanLexeme_digit hd, ← List.cons_append, hscan]
      rfl
  | string h =>
    have hscan := scanString_of_bodyText h rest
    simp [scanLexeme, hscan]
  | _ => rfl

/-! ### Texts -/

/-- The text is a row of tokens with space around them. -/
inductive Tokens : List Char → List Lexeme → Prop
  | space {ws : List Char} (hws : ∀ c ∈ ws, isSpace c = true) : Tokens ws []
  | lexeme {ws w rest : List Char} {l : Lexeme} {ls : List Lexeme}
      (hws : ∀ c ∈ ws, isSpace c = true) (hw : LexemeText l w) (hends : EndsBefore l rest)
      (hrest : Tokens rest ls) : Tokens (ws ++ (w ++ rest)) (l :: ls)

/-- Behind a lexeme nothing goes on with a number but a digit. -/
theorem Tokens.head_ne {cs : List Char} {ls : List Lexeme} (h : Tokens cs ls) :
    ∀ c ∈ cs.head?, c ≠ '.' ∧ c ≠ 'e' ∧ c ≠ 'E' := by
  -- what comes next is a space or a lexeme, and neither of them begins so
  have hspace : ∀ c, isSpace c = true → c ≠ '.' ∧ c ≠ 'e' ∧ c ≠ 'E' := by
    refine fun c hc => ⟨?_, ?_, ?_⟩ <;> rintro rfl <;> cases hc
  intro c hc
  cases h with
  | space hws => exact hspace c (hws c (List.mem_of_mem_head? hc))
  | @lexeme ws w rest l ls hws hw hends hrest =>
    cases ws with
    | cons d ws =>
      cases hc
      exact hspace c (hws c List.mem_cons_self)
    | nil =>
      obtain ⟨d, ds, rfl, -, hd⟩ := exists_head_of_lexemeText hw
      cases hc
      exact hd

/-- The lexeme in front of a text is the first one that is found. -/
theorem lexemesUpTo_of_scanLexeme {c : Char} {cs rest : List Char} {l : Lexeme}
    (hc : isSpace c = false) (h : scanLexeme (c :: cs) = some (l, rest)) (n : Nat) :
    lexemesUpTo (n + 1) (c :: cs) = l :: lexemesUpTo n rest := by
  have hdrop : (c :: cs).dropWhile isSpace = c :: cs := List.dropWhile_cons_of_neg (by simp [hc])
  simp only [lexemesUpTo, hdrop, h]

/-- Space in front of a text has no part in the lexemes. -/
theorem lexemesUpTo_space_append {ws : List Char} (hws : ∀ c ∈ ws, isSpace c = true) (n : Nat)
    (cs : List Char) : lexemesUpTo n (ws ++ cs) = lexemesUpTo n cs := by
  cases n with
  | zero => rfl
  | succ n => rw [lexemesUpTo, lexemesUpTo, List.dropWhile_append_of_pos hws]

/-- The tokens of a text are scanned, if their number is not bounded too tightly. -/
theorem Tokens.lexemesUpTo_eq {cs : List Char} {ls : List Lexeme} (h : Tokens cs ls) :
    ∀ n, cs.length ≤ n → lexemesUpTo n cs = ls := by
  induction h with
  | @space ws hws =>
    intro n _
    have hnil : lexemesUpTo n [] = [] := by cases n <;> rfl
    have hspace := lexemesUpTo_space_append hws n []
    rwa [List.append_nil, hnil] at hspace
  | @lexeme ws w rest l ls hws hw hends hrest ih =>
    intro n hn
    -- a lexeme has a character, so the bound is enough for it and for the rest
    obtain ⟨c, cs, rfl, hc, -⟩ := exists_head_of_lexemeText hw
    simp only [List.length_append, List.length_cons] at hn
    obtain ⟨m, rfl⟩ : ∃ m, n = m + 1 := ⟨n - 1, by omega⟩
    -- the lexeme in front is scanned, because what follows it is a row of tokens again
    have hscan : scanLexeme (c :: (cs ++ rest)) = some (l, rest) :=
      scanLexeme_of_lexemeText hw fun n hn d hd => ⟨hends n hn d hd, hrest.head_ne d hd⟩
    rw [lexemesUpTo_space_append hws, List.cons_append, lexemesUpTo_of_scanLexeme hc hscan,
      ih m (by omega)]

/-- What is scanned without junk is a row of tokens. -/
theorem tokens_lexemesUpTo : ∀ {n : Nat} {cs : List Char}, cs.length ≤ n →
    .junk ∉ lexemesUpTo n cs → Tokens cs (lexemesUpTo n cs)
  | 0, cs, hn, _ => by
    cases List.length_eq_zero_iff.1 (Nat.le_zero.1 hn)
    exact .space nofun
  | n + 1, cs, hn, hjunk => by
    -- the space in front is cut off first
    have hcs := List.takeWhile_append_dropWhile (p := isSpace) (l := cs)
    have hws : ∀ c ∈ cs.takeWhile isSpace, isSpace c = true := fun c hc => List.mem_takeWhile_imp hc
    rw [lexemesUpTo] at hjunk ⊢
    generalize cs.takeWhile isSpace = ws at hcs hws
    generalize cs.dropWhile isSpace = rest at hcs hjunk ⊢
    subst hcs
    cases rest with
    | nil =>
      rw [List.append_nil]
      exact .space hws
    | cons c rest =>
      dsimp only at hjunk ⊢
      cases hscan : scanLexeme (c :: rest) with
      | none =>
        -- this is where junk would be found
        rw [hscan] at hjunk
        exact absurd List.mem_cons_self hjunk
      -- the scanner has found a lexeme, and it has taken at least one character off the text
      | some r =>
        obtain ⟨l, rest'⟩ := r
        rw [hscan] at hjunk
        obtain ⟨w, hw, hcs, hends⟩ := scanLexeme_sound hscan
        obtain ⟨d, ds, rfl, -⟩ := exists_head_of_lexemeText hw
        rw [hcs] at hn ⊢
        simp only [List.length_append, List.length_cons] at hn
        have htail := tokens_lexemesUpTo (by omega : rest'.length ≤ n)
          (List.not_mem_of_not_mem_cons hjunk)
        exact .lexeme hws hw hends htail

/-- The strings of a text name units of 16 bits. -/
theorem unit_lt_of_mem_lexemesUpTo {ps : List Piece} {u : Nat} (hu : .unit u ∈ ps) :
    ∀ {n : Nat} {cs : List Char}, .string ps ∈ lexemesUpTo n cs → u < 0x10000
  | 0, _, h => by cases h
  | n + 1, cs, h => by
    rw [lexemesUpTo] at h
    split at h
    · cases h
    · split at h
      · cases List.mem_singleton.1 h
      · -- the string is the lexeme in front, or it comes later
        next hscan =>
        rcases List.mem_cons.1 h with rfl | h
        · obtain ⟨w, hw, -⟩ := scanLexeme_sound hscan
          cases hw with
          | string h => exact h.unit_lt hu
        · exact unit_lt_of_mem_lexemesUpTo hu h

/-- Among the tokens of a text there is no junk. -/
theorem Tokens.junk_not_mem {cs : List Char} {ls : List Lexeme} (h : Tokens cs ls) :
    .junk ∉ ls := by
  induction h with
  | space => exact List.not_mem_nil
  | lexeme _ hw _ _ ih =>
    rw [List.mem_cons, not_or]
    refine ⟨?_, ih⟩
    rintro rfl
    cases hw

/-- **The scanner finds just the tokens of a text.** Where it finds junk the text has no tokens. -/
theorem tokens_iff {cs : List Char} {ls : List Lexeme} :
    Tokens cs ls ↔ lexemes cs = ls ∧ .junk ∉ ls := by
  constructor
  · intro h
    exact ⟨h.lexemesUpTo_eq cs.length le_rfl, h.junk_not_mem⟩
  · rintro ⟨rfl, hjunk⟩
    exact tokens_lexemesUpTo le_rfl hjunk

end Rulebook.Json
