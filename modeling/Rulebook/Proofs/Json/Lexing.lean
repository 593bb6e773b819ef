import Rulebook.Entries
import Rulebook.Proofs.Json.Tokens
import Rulebook.Proofs.Text.Decimal

/-!
# The tokens of written values

`Json.write` gives the one compact text of a value. The tokens of this text are the lexemes of the
value (`lexemesOf`), whatever follows it, as long as a number in the value cannot go on in what
follows (`tokens_write`).

The numbers of a `Regular` value are signed words, the only ones that a context or a stored rule
ever holds; each is written with its digits alone (`numberText_int`).
-/

namespace Rulebook.Json

mutual

/-- The lexemes of a value's text. -/
def lexemesOf : Json → List Lexeme
  | .null => [.null]
  | .boolean b => [.boolean b]
  | .number n => [.number n]
  | .string s => [.string (writtenPieces s)]
  | .array items => .openBracket :: itemLexemes items
  | .object members => .openBrace :: memberLexemes members

/-- The lexemes of elements, up to the closing bracket. -/
def itemLexemes : List Json → List Lexeme
  | [] => [.closeBracket]
  | [v] => lexemesOf v ++ [.closeBracket]
  | v :: vs => lexemesOf v ++ .comma :: itemLexemes vs

/-- The lexemes of members, up to the closing brace. -/
def memberLexemes : List (String × Json) → List Lexeme
  | [] => [.closeBrace]
  | [(name, v)] => .string (writtenPieces name) :: .colon :: (lexemesOf v ++ [.closeBrace])
  | (name, v) :: ms =>
    .string (writtenPieces name) :: .colon :: (lexemesOf v ++ .comma :: memberLexemes ms)

end

/-- The values whose text is read back: their numbers are signed words of 64 bits, and the members
of their objects have different names. -/
inductive Regular : Json → Prop
  | null : Regular .null
  | boolean (b : Bool) : Regular (.boolean b)
  | number {n : Numeral} (i : Int64) (h : .number n = int i.toInt) : Regular (.number n)
  | string (s : String) : Regular (.string s)
  | array {vs : List Json} (h : ∀ v ∈ vs, Regular v) : Regular (.array vs)
  | object {ms : List (String × Json)} (hnames : (Entries.names ms).Nodup)
      (h : ∀ m ∈ ms, Regular m.2) : Regular (.object ms)

/-! ### Numbers -/

/-- A number is written with its digits. -/
theorem unsignedText_repr (negative : Bool) (n : Nat) :
    UnsignedText ⟨negative, (Nat.repr n).toList, [], none⟩ (Nat.repr n).toList := by
  have hwhole : IsWhole (Nat.repr n).toList :=
    ⟨Text.repr_ne_nil n, fun _ hc => Text.isDigit_of_mem_repr hc, Text.repr_ne_zero_cons n⟩
  have hmk := UnsignedText.mk (n := ⟨negative, (Nat.repr n).toList, [], none⟩) hwhole .none .none
  rwa [List.append_nil, List.append_nil] at hmk

/-- An integer is written as its number. -/
theorem numberText_int (i : Int) :
    NumberText ⟨decide (i < 0), (Nat.repr i.natAbs).toList, [], none⟩ (int i).write := by
  have hdigits := unsignedText_repr (decide (i < 0)) i.natAbs
  -- only a number below zero has a sign
  by_cases hi : i < 0
  · have hwrite : (int i).write = '-' :: (Nat.repr i.natAbs).toList := by
      simp [int, write, writeNumeral, hi]
    rw [hwrite]
    exact .negative (decide_eq_true hi) hdigits
  · have hwrite : (int i).write = (Nat.repr i.natAbs).toList := by
      simp [int, write, writeNumeral, hi]
    rw [hwrite]
    exact .unsigned (decide_eq_false hi) hdigits

/-! ### Texts -/

theorem noDigit_cons {c : Char} (h : Text.isDigit c = false) (cs : List Char) :
    NoDigit (c :: cs) := by
  rintro _ ⟨⟩
  exact h

/-- A lexeme without space in front of it. -/
theorem Tokens.lexeme_append {l : Lexeme} {w rest : List Char} {ls : List Lexeme}
    (hw : LexemeText l w) (hends : EndsBefore l rest) (h : Tokens rest ls) :
    Tokens (w ++ rest) (l :: ls) := by
  have hspace : ∀ c ∈ ([] : List Char), isSpace c = true := nofun
  exact .lexeme hspace hw hends h

/-- A mark of punctuation ends in front of any text. -/
theorem Tokens.mark {l : Lexeme} {c : Char} {rest : List Char} {ls : List Lexeme}
    (hw : LexemeText l [c]) (hl : EndsBefore l rest) (h : Tokens rest ls) :
    Tokens (c :: rest) (l :: ls) :=
  .lexeme_append hw hl h

/-- A written text is one token. -/
theorem tokens_writeString (s : String) {rest : List Char} {ls : List Lexeme}
    (h : Tokens rest ls) :
    Tokens (writeString s ++ rest) (.string (writtenPieces s) :: ls) :=
  .lexeme_append (.string (bodyText_writtenPieces s)) nofun h

mutual

/-- **The tokens of a written value are its lexemes.** -/
theorem tokens_write : ∀ {v : Json}, v.Regular → ∀ {rest : List Char} {ls : List Lexeme},
    NoDigit rest → Tokens rest ls → Tokens (v.write ++ rest) (lexemesOf v ++ ls)
  | .null, _, _, _, _, h => .lexeme_append .null nofun h
  | .boolean true, _, _, _, _, h => .lexeme_append .true nofun h
  | .boolean false, _, _, _, _, h => .lexeme_append .false nofun h
  -- of all values only a number depends on what follows it
  | .number n, hv, rest, ls, hrest, h => by
    cases hv with
    | number i hn =>
      have hnumber := numberText_int i.toInt
      rw [← hn] at hnumber
      cases hn
      exact .lexeme_append (.number hnumber) (fun _ _ => hrest) h
  | .string s, _, _, _, _, h => tokens_writeString s h
  -- the bracket is a token by itself, and the elements bring the one that closes
  | .array vs, hv, _, _, _, h => by
    cases hv with
    | array hvs => exact .mark .openBracket nofun (tokens_writeItems hvs h)
  | .object ms, hv, _, _, _, h => by
    cases hv with
    | object _ hms => exact .mark .openBrace nofun (tokens_writeMembers hms h)

/-- The tokens of written elements are their lexemes, with the closing bracket. -/
theorem tokens_writeItems : ∀ {vs : List Json}, (∀ v ∈ vs, v.Regular) →
    ∀ {rest : List Char} {ls : List Lexeme}, Tokens rest ls →
    Tokens (writeItems vs ++ rest) (itemLexemes vs ++ ls)
  | [], _, _, _, h => .mark .closeBracket nofun h
  -- behind an element comes a bracket or a comma, and no digit
  | [v], hvs, rest, ls, h => by
    rw [writeItems, itemLexemes, List.append_assoc, List.append_assoc]
    exact tokens_write (hvs v List.mem_cons_self) (noDigit_cons rfl _) (.mark .closeBracket nofun h)
  | v :: w :: vs, hvs, rest, ls, h => by
    have htail := tokens_writeItems (fun u hu => hvs u (List.mem_cons_of_mem v hu)) h
    have hvalue := tokens_write (hvs v List.mem_cons_self) (noDigit_cons rfl _)
      (.mark .comma nofun htail)
    simpa [writeItems, itemLexemes] using hvalue

/-- The tokens of written members are their lexemes, with the closing brace. -/
theorem tokens_writeMembers : ∀ {ms : List (String × Json)}, (∀ m ∈ ms, m.2.Regular) →
    ∀ {rest : List Char} {ls : List Lexeme}, Tokens rest ls →
    Tokens (writeMembers ms ++ rest) (memberLexemes ms ++ ls)
  | [], _, _, _, h => .mark .closeBrace nofun h
  -- behind a value comes a brace or a comma, and no digit
  | [(name, v)], hms, rest, ls, h => by
    have hvalue := tokens_write (hms (name, v) List.mem_cons_self) (noDigit_cons rfl _)
      (.mark .closeBrace nofun h)
    have hmember := tokens_writeString name (.mark .colon nofun hvalue)
    simpa [writeMembers, memberLexemes] using hmember
  | (name, v) :: m :: ms, hms, rest, ls, h => by
    have htail := tokens_writeMembers (fun u hu => hms u (List.mem_cons_of_mem (name, v) hu)) h
    have hvalue := tokens_write (hms (name, v) List.mem_cons_self) (noDigit_cons rfl _)
      (.mark .comma nofun htail)
    have hmember := tokens_writeString name (.mark .colon nofun hvalue)
    simpa [writeMembers, memberLexemes] using hmember

end

end Rulebook.Json
