import Rulebook.Json.Value

/-!
# How strings are written

A string is written between quotes, each character as it is, by an escape of one letter, or by
escapes that name its code units in UTF-16. This takes two relations. `BodyText` says how pieces are
written, and the scanner finds just the pieces of a text (`scanString_sound`,
`scanString_of_bodyText`). `PiecesSpell` says which characters pieces stand for: a character outside
the first plane takes two units, and half of such a pair stands for nothing. It agrees with reading
the pieces (`text?_eq_some_iff`), provided that the pieces name units of 16 bits, as those that
are written do (`BodyText.unit_lt`).
-/

namespace Rulebook.Json

/-! ### Pieces -/

/-- The letters behind a backslash with the characters that they stand for. -/
def shortEscapes : List (Char × Char) :=
  [('"', '"'), ('\\', '\\'), ('/', '/'), ('b', '\x08'), ('f', '\x0c'), ('n', '\n'), ('r', '\r'),
   ('t', '\t')]

/-- How a piece of a string is written. -/
inductive PieceText : Piece → List Char → Prop
  /-- As it is: any character but a quote, a backslash and control characters. -/
  | plain {c : Char} (hquote : c ≠ '"') (hslash : c ≠ '\\') (hcontrol : ¬ c.toNat < 0x20) :
      PieceText (.char c) [c]
  /-- By one letter. -/
  | letter {e c : Char} (h : (e, c) ∈ shortEscapes) : PieceText (.char c) ['\\', e]
  /-- By the four hexadecimal digits of a code unit. -/
  | unit {a b c d : Char} {u : Nat} (h : hexUnit? a b c d = some u) :
      PieceText (.unit u) ['\\', 'u', a, b, c, d]

/-- How pieces are written, one behind the other. -/
inductive BodyText : List Piece → List Char → Prop
  | nil : BodyText [] []
  | cons {p : Piece} {w : List Char} {ps : List Piece} {body : List Char} (h : PieceText p w)
      (hs : BodyText ps body) : BodyText (p :: ps) (w ++ body)

/-- The scanner knows just these letters. -/
theorem shortEscape?_eq_some_iff {e c : Char} :
    shortEscape? e = some c ↔ (e, c) ∈ shortEscapes := by
  constructor
  · intro h
    unfold shortEscape? at h
    split at h
    case h_9 => cases h
    all_goals
      cases h
      decide
  · intro h
    simp only [shortEscapes, List.mem_cons, Prod.mk.injEq, List.not_mem_nil, or_false] at h
    rcases h with ⟨rfl, rfl⟩ | ⟨rfl, rfl⟩ | ⟨rfl, rfl⟩ | ⟨rfl, rfl⟩ | ⟨rfl, rfl⟩ | ⟨rfl, rfl⟩ |
      ⟨rfl, rfl⟩ | ⟨rfl, rfl⟩ <;> rfl

/-- What is scanned as a string is written as one, with a quote behind it. -/
theorem scanString_sound {cs rest : List Char} {ps : List Piece}
    (h : scanString cs = some (ps, rest)) :
    ∃ body, BodyText ps body ∧ cs = body ++ '"' :: rest := by
  -- one case for each way in which the scanner goes on; only the cases that succeed are left over
  induction cs using scanString.induct generalizing ps with
  | case1 => cases h
  -- the quote that ends the string
  | case2 cs =>
    rw [scanString] at h
    cases h
    exact ⟨[], .nil, rfl⟩
  -- a code unit by its number
  | case3 a b c d cs ih =>
    rw [scanString] at h
    obtain ⟨u, hu, h⟩ := Option.bind_eq_some_iff.1 h
    obtain ⟨⟨ps', rest'⟩, hrec, h⟩ := Option.bind_eq_some_iff.1 h
    cases h
    obtain ⟨body, hbody, rfl⟩ := ih hrec
    exact ⟨_, .cons (.unit hu) hbody, rfl⟩
  -- a letter behind a backslash
  | case4 e cs hne ih =>
    rw [scanString] at h
    · obtain ⟨c, hc, h⟩ := Option.bind_eq_some_iff.1 h
      obtain ⟨⟨ps', rest'⟩, hrec, h⟩ := Option.bind_eq_some_iff.1 h
      cases h
      obtain ⟨body, hbody, rfl⟩ := ih hrec
      exact ⟨_, .cons (.letter (shortEscape?_eq_some_iff.1 hc)) hbody, rfl⟩
    · exact hne
  | case5 c cs hquote hunit hshort hc =>
    rw [scanString, if_pos hc] at h
    · cases h
    · exact hquote
    · exact hunit
    · exact hshort
  -- a character as it is: neither quote nor backslash, and no control character
  | case6 c cs hquote hunit hshort hc ih =>
    rw [scanString, if_neg hc] at h
    · obtain ⟨⟨ps', rest'⟩, hrec, h⟩ := Option.bind_eq_some_iff.1 h
      cases h
      obtain ⟨body, hbody, rfl⟩ := ih hrec
      obtain ⟨hslash, hcontrol⟩ := not_or.1 hc
      exact ⟨_, .cons (.plain hquote hslash hcontrol) hbody, rfl⟩
    · exact hquote
    · exact hunit
    · exact hshort

/-- A letter behind a backslash is scanned as the character that it stands for. -/
theorem scanString_letter {e c : Char} (hu : e ≠ 'u') (he : shortEscape? e = some c)
    {cs rest : List Char} {ps : List Piece} (h : scanString cs = some (ps, rest)) :
    scanString ('\\' :: e :: cs) = some (.char c :: ps, rest) := by
  rw [scanString.eq_def]
  split <;> grind

/-- A character that needs no escape is scanned as it is. -/
theorem scanString_plain {c : Char} (hquote : c ≠ '"') (hslash : c ≠ '\\')
    (hc : ¬ c.toNat < 0x20) {cs rest : List Char} {ps : List Piece}
    (h : scanString cs = some (ps, rest)) :
    scanString (c :: cs) = some (.char c :: ps, rest) := by
  rw [scanString.eq_def]
  split <;> simp_all

/-- What is written as a string is scanned as it, up to the quote behind it. -/
theorem scanString_of_bodyText {ps : List Piece} {body : List Char} (h : BodyText ps body)
    (rest : List Char) : scanString (body ++ '"' :: rest) = some (ps, rest) := by
  -- each piece is cut off in front of what is written as the others
  induction h with
  | nil => rfl
  | @cons p w ps body h _ ih =>
    rw [List.append_assoc]
    cases h with
    | plain hquote hslash hcontrol => exact scanString_plain hquote hslash hcontrol ih
    | @letter e c h =>
      -- the scanner looks for a unit first
      have hu : e ≠ 'u' := by
        rintro rfl
        simp [shortEscapes] at h
      exact scanString_letter hu (shortEscape?_eq_some_iff.2 h) ih
    | unit h => simp [scanString, h, ih]

/-! ### Code units -/

/-- A hexadecimal digit has a value below 16. -/
theorem hexDigit?_lt {c : Char} {n : Nat} (h : Text.hexDigit? c = some n) : n < 16 := by
  -- the ranges of the digits are ranges of numbers
  have hle : ∀ a : Char, a ≤ c ↔ a.toNat ≤ c.toNat := fun a => UInt32.le_iff_toNat_le
  have hge : ∀ a : Char, c ≤ a ↔ c.toNat ≤ a.toNat := fun a => UInt32.le_iff_toNat_le
  simp only [Text.hexDigit?, hle, hge, Char.reduceToNat] at h
  split at h
  · cases h
    omega
  · split at h
    · cases h
      omega
    · split at h
      · cases h
        omega
      · cases h

/-- Four hexadecimal digits name a unit of 16 bits. -/
theorem hexUnit?_lt {a b c d : Char} {u : Nat} (h : hexUnit? a b c d = some u) : u < 0x10000 := by
  obtain ⟨a', ha, h⟩ := Option.bind_eq_some_iff.1 h
  obtain ⟨b', hb, h⟩ := Option.bind_eq_some_iff.1 h
  obtain ⟨c', hc, h⟩ := Option.bind_eq_some_iff.1 h
  obtain ⟨d', hd, h⟩ := Option.bind_eq_some_iff.1 h
  cases h
  have ha := hexDigit?_lt ha
  have hb := hexDigit?_lt hb
  have hc := hexDigit?_lt hc
  have hd := hexDigit?_lt hd
  omega

/-- The pieces of what is written name units of 16 bits. -/
theorem BodyText.unit_lt {ps : List Piece} {body : List Char} (h : BodyText ps body) {u : Nat}
    (hu : .unit u ∈ ps) : u < 0x10000 := by
  induction h with
  | nil => cases hu
  | cons h _ ih =>
    rcases List.mem_cons.1 hu with rfl | hu
    · cases h with
      | unit h => exact hexUnit?_lt h
    · exact ih hu

/-- The code units of a character in UTF-16. -/
def utf16 (c : Char) : List Nat :=
  if c.toNat < 0x10000 then [c.toNat]
  else [0xd800 + (c.toNat - 0x10000) / 0x400, 0xdc00 + (c.toNat - 0x10000) % 0x400]

/-- The pieces spell the characters, each of them as it is or by its code units. -/
inductive PiecesSpell : List Piece → List Char → Prop
  | nil : PiecesSpell [] []
  | char (c : Char) {ps : List Piece} {cs : List Char} (h : PiecesSpell ps cs) :
      PiecesSpell (.char c :: ps) (c :: cs)
  | units (c : Char) {ps : List Piece} {cs : List Char} (h : PiecesSpell ps cs) :
      PiecesSpell ((utf16 c).map .unit ++ ps) (c :: cs)

/-- A number that is no half of a pair and in range is that of a character. -/
theorem toNat_ofNat_of_isValidChar {n : Nat} (h : n.isValidChar) : (Char.ofNat n).toNat = n := by
  rw [Char.ofNat, dif_pos h]
  rfl

/-- Pieces are read as the characters that they spell. -/
theorem readPieces_of_piecesSpell {ps : List Piece} {cs : List Char} (h : PiecesSpell ps cs) :
    readPieces ps = some cs := by
  induction h with
  | nil => rfl
  | char c _ ih => rw [readPieces, ih, Option.map_some]
  | @units c ps cs _ ih =>
    have hvalid : c.toNat.isValidChar := c.valid
    unfold utf16
    split
    · -- a character has no number of half a pair, so its one unit stands alone
      next hc =>
      have hhigh : isHighSurrogate c.toNat = false := by simp [isHighSurrogate]; omega
      have hlow : isLowSurrogate c.toNat = false := by simp [isLowSurrogate]; omega
      rw [List.map_singleton, List.singleton_append, readPieces.eq_def]
      simp [hhigh, hlow, ih]
    · -- the two halves are put together again to the number of the character
      next hc =>
      have hhigh : isHighSurrogate (0xd800 + (c.toNat - 0x10000) / 0x400) = true := by
        simp [isHighSurrogate]; omega
      have hlow : isLowSurrogate (0xdc00 + (c.toNat - 0x10000) % 0x400) = true := by
        simp [isLowSurrogate]; omega
      have hchar : 0x10000 + 1024 * (0xd800 + (c.toNat - 0x10000) / 0x400 - 0xd800) +
          (0xdc00 + (c.toNat - 0x10000) % 0x400 - 0xdc00) = c.toNat := by omega
      rw [List.map_cons, List.map_singleton, List.cons_append, List.singleton_append, readPieces,
        if_pos hhigh, if_pos hlow, hchar, Char.ofNat_toNat, ih, Option.map_some]

/-- A unit that is no half of a pair is that of one character. -/
theorem utf16_ofNat {u : Nat} (hu : u < 0x10000) (hhigh : ¬ isHighSurrogate u = true)
    (hlow : ¬ isLowSurrogate u = true) : utf16 (Char.ofNat u) = [u] := by
  simp only [isHighSurrogate, isLowSurrogate, Bool.and_eq_true, decide_eq_true_eq] at hhigh hlow
  have hvalid : u.isValidChar := by
    unfold Nat.isValidChar
    omega
  rw [utf16, toNat_ofNat_of_isValidChar hvalid, if_pos hu]

/-- The two halves of a pair are the units of one character. -/
theorem utf16_ofNat_pair {u v : Nat} (hu : isHighSurrogate u = true)
    (hv : isLowSurrogate v = true) :
    utf16 (Char.ofNat (0x10000 + 1024 * (u - 0xd800) + (v - 0xdc00))) = [u, v] := by
  simp only [isHighSurrogate, isLowSurrogate, Bool.and_eq_true, decide_eq_true_eq] at hu hv
  have hvalid : (0x10000 + 1024 * (u - 0xd800) + (v - 0xdc00)).isValidChar := by
    unfold Nat.isValidChar
    omega
  rw [utf16, toNat_ofNat_of_isValidChar hvalid, if_neg (by omega), List.cons.injEq, List.cons.injEq]
  refine ⟨?_, ?_, rfl⟩
  · omega
  · omega

/-- Pieces spell the characters that they are read as, if they name units of 16 bits. -/
theorem piecesSpell_of_readPieces {ps : List Piece} {cs : List Char}
    (hps : ∀ u, .unit u ∈ ps → u < 0x10000) (h : readPieces ps = some cs) : PiecesSpell ps cs := by
  fun_induction readPieces ps generalizing cs with
  | case1 =>
    cases h
    exact .nil
  | case2 c ps ih =>
    obtain ⟨cs', hcs', rfl⟩ := Option.map_eq_some_iff.1 h
    exact .char c (ih (fun u hu => hps u (List.mem_cons_of_mem _ hu)) hcs')
  -- two halves that belong together
  | case3 u hhigh v ps hlow ih =>
    obtain ⟨cs', hcs', rfl⟩ := Option.map_eq_some_iff.1 h
    have htail := ih (fun w hw => hps w (List.mem_cons_of_mem _ (List.mem_cons_of_mem _ hw))) hcs'
    have hspell := htail.units (Char.ofNat (0x10000 + 1024 * (u - 0xd800) + (v - 0xdc00)))
    rwa [utf16_ofNat_pair hhigh hlow] at hspell
  -- half of a pair that has no other half stands for nothing
  | case4 => cases h
  | case5 => cases h
  | case6 => cases h
  -- a unit that is no half at all
  | case7 u ps hhigh hlow ih =>
    obtain ⟨cs', hcs', rfl⟩ := Option.map_eq_some_iff.1 h
    have htail := ih (fun w hw => hps w (List.mem_cons_of_mem _ hw)) hcs'
    have hspell := htail.units (Char.ofNat u)
    rwa [utf16_ofNat (hps u List.mem_cons_self) hhigh hlow] at hspell

/-- The text of the pieces is the one that they spell. -/
theorem text?_of_piecesSpell {ps : List Piece} {s : String} (h : PiecesSpell ps s.toList) :
    text? ps = some s := by
  rw [text?, readPieces_of_piecesSpell h, Option.map_some, String.ofList_toList]

/-- **The text that pieces make up is the one that they spell.** -/
theorem text?_eq_some_iff {ps : List Piece} {s : String} (hps : ∀ u, .unit u ∈ ps → u < 0x10000) :
    text? ps = some s ↔ PiecesSpell ps s.toList := by
  refine ⟨fun h => ?_, text?_of_piecesSpell⟩
  obtain ⟨cs, hcs, rfl⟩ := Option.map_eq_some_iff.1 h
  rw [String.toList_ofList]
  exact piecesSpell_of_readPieces hps hcs

/-! ### Texts as this library writes them -/

/-- The piece that a written character is scanned as: a code unit where the character is escaped by
its number, which takes more than the two characters of any other escape. -/
def pieceOf (c : Char) : Piece :=
  if (escape c).length ≤ 2 then .char c else .unit c.toNat

/-- The pieces that a text is written as. -/
def writtenPieces (s : String) : List Piece :=
  s.toList.map pieceOf

/-- The digit that is written for a value has this value. -/
theorem hexDigit?_hexChar {n : Nat} (h : n < 16) : Text.hexDigit? (hexChar n) = some n := by
  have hall : ∀ m : Fin 16, Text.hexDigit? (hexChar m) = some m.val := by decide
  exact hall ⟨n, h⟩

/-- The escape of a control character names its code unit. -/
theorem hexUnit?_hexChar {n : Nat} (h : n < 0x20) :
    hexUnit? '0' '0' (hexChar (n / 16)) (hexChar (n % 16)) = some n := by
  have hzero : Text.hexDigit? '0' = some 0 := rfl
  rw [hexUnit?, hzero, hexDigit?_hexChar (by omega), hexDigit?_hexChar (by omega)]
  simp only [Option.bind_eq_bind, Option.bind_some, Option.pure_def, Option.some.injEq]
  omega

/-- The three ways of writing a character in a string. -/
inductive Escaped (c : Char) : Prop where
  /-- By a letter behind a backslash. -/
  | letter (e : Char) (hu : e ≠ 'u') (he : shortEscape? e = some c) (h : escape c = ['\\', e])
  /-- By its number. -/
  | unit (hc : c.toNat < 0x20)
      (h : escape c = ['\\', 'u', '0', '0', hexChar (c.toNat / 16), hexChar (c.toNat % 16)])
  /-- As it is. -/
  | plain (hquote : c ≠ '"') (hslash : c ≠ '\\') (hc : ¬ c.toNat < 0x20) (h : escape c = [c])

/-- Each character is written in one of these ways. -/
theorem escaped (c : Char) : Escaped c := by
  -- seven characters have a letter of their own, and the rest depends on the number
  by_cases hshort : c ∈ ['"', '\\', '\x08', '\x0c', '\n', '\r', '\t']
  · simp only [List.mem_cons, List.not_mem_nil, or_false] at hshort
    rcases hshort with rfl | rfl | rfl | rfl | rfl | rfl | rfl
    all_goals exact .letter _ (by decide) rfl rfl
  · simp only [List.mem_cons, List.not_mem_nil, or_false, not_or] at hshort
    obtain ⟨hquote, hslash, hb, hf, hn, hr, ht⟩ := hshort
    by_cases hc : c.toNat < 0x20
    · refine .unit hc ?_
      simp only [escape, hquote, hslash, hb, hf, hn, hr, ht, hc, if_true, if_false]
    · refine .plain hquote hslash hc ?_
      simp only [escape, hquote, hslash, hb, hf, hn, hr, ht, hc, if_false]

/-- A character is written as its piece. -/
theorem pieceText_escape (c : Char) : PieceText (pieceOf c) (escape c) := by
  cases escaped c with
  | letter e hu he hc =>
    rw [pieceOf, hc]
    exact .letter (shortEscape?_eq_some_iff.1 he)
  | unit hn hc =>
    rw [pieceOf, hc]
    exact .unit (hexUnit?_hexChar hn)
  | plain hquote hslash hn hc =>
    rw [pieceOf, hc]
    exact .plain hquote hslash hn

/-- A text is written as its pieces. -/
theorem bodyText_writtenPieces (s : String) :
    BodyText (writtenPieces s) (s.toList.flatMap escape) := by
  unfold writtenPieces
  induction s.toList with
  | nil => exact .nil
  | cons c cs ih => exact .cons (pieceText_escape c) ih

/-- A text is spelled by its pieces. -/
theorem piecesSpell_writtenPieces (s : String) : PiecesSpell (writtenPieces s) s.toList := by
  unfold writtenPieces
  induction s.toList with
  | nil => exact .nil
  | cons c cs ih =>
    rw [List.map_cons, pieceOf]
    split
    · -- a short escape is read as the character, like no escape at all
      exact ih.char c
    · -- only control characters take an escape so long
      next hlong =>
      have hcontrol : c.toNat < 0x20 := by
        cases escaped c with
        | unit hc _ => exact hc
        | letter _ _ _ h | plain _ _ _ h => simp [h] at hlong
      have hspell := ih.units c
      rwa [utf16, if_pos (by omega)] at hspell

end Rulebook.Json
