import Rulebook.Proofs.Json.Lexing

/-!
# The grammar of JSON

Which values a text spells, said without any reader. `SpellsValue` has one rule for each way in
which lexemes make up a value, and `Spells` asks for a text whose tokens do. Members keep their
order, and a name may come more than once.

A value has many spellings. Its own lexemes are one (`spellsValue_lexemesOf`), and so the compact
text of a regular value spells it (`spells_text`).
-/

namespace Rulebook.Json

mutual

/-- The lexemes spell the value. -/
inductive SpellsValue : List Lexeme → Json → Prop
  | null : SpellsValue [.null] .null
  | boolean (b : Bool) : SpellsValue [.boolean b] (.boolean b)
  | number (n : Numeral) : SpellsValue [.number n] (.number n)
  | string {ps : List Piece} {s : String} (h : PiecesSpell ps s.toList) :
      SpellsValue [.string ps] (.string s)
  | emptyArray : SpellsValue [.openBracket, .closeBracket] (.array [])
  | array {ls : List Lexeme} {vs : List Json} (h : SpellsItems ls vs) :
      SpellsValue (.openBracket :: ls) (.array vs)
  | emptyObject : SpellsValue [.openBrace, .closeBrace] (.object [])
  | object {ls : List Lexeme} {ms : List (String × Json)} (h : SpellsMembers ls ms) :
      SpellsValue (.openBrace :: ls) (.object ms)

/-- The lexemes spell elements, at least one, up to the closing bracket. -/
inductive SpellsItems : List Lexeme → List Json → Prop
  | last {ls : List Lexeme} {v : Json} (h : SpellsValue ls v) :
      SpellsItems (ls ++ [.closeBracket]) [v]
  | more {ls ls' : List Lexeme} {v : Json} {vs : List Json} (h : SpellsValue ls v)
      (hs : SpellsItems ls' vs) : SpellsItems (ls ++ .comma :: ls') (v :: vs)

/-- The lexemes spell members, at least one, up to the closing brace. -/
inductive SpellsMembers : List Lexeme → List (String × Json) → Prop
  | last {ps : List Piece} {name : String} {ls : List Lexeme} {v : Json}
      (hname : PiecesSpell ps name.toList) (h : SpellsValue ls v) :
      SpellsMembers (.string ps :: .colon :: (ls ++ [.closeBrace])) [(name, v)]
  | more {ps : List Piece} {name : String} {ls ls' : List Lexeme} {v : Json}
      {ms : List (String × Json)} (hname : PiecesSpell ps name.toList) (h : SpellsValue ls v)
      (hs : SpellsMembers ls' ms) :
      SpellsMembers (.string ps :: .colon :: (ls ++ .comma :: ls')) ((name, v) :: ms)

end

/-- The text spells the value. -/
def Spells (text : String) (v : Json) : Prop :=
  ∃ ls, Tokens text.toList ls ∧ SpellsValue ls v

/-! ### How values begin -/

/-- No value begins like the end of an array. -/
theorem SpellsValue.exists_head {ls : List Lexeme} {v : Json} (h : SpellsValue ls v) :
    ∃ l ls', ls = l :: ls' ∧ l ≠ .closeBracket := by
  cases h <;> exact ⟨_, _, rfl, nofun⟩

/-- Elements begin with a value. -/
theorem SpellsItems.exists_head {ls : List Lexeme} {vs : List Json} (h : SpellsItems ls vs) :
    ∃ l ls', ls = l :: ls' ∧ l ≠ .closeBracket := by
  cases h with
  -- there is a first element in any case
  | last h | more h _ =>
    obtain ⟨l, ls', rfl, hl⟩ := h.exists_head
    exact ⟨l, _, rfl, hl⟩

/-- Members begin with a name. -/
theorem SpellsMembers.exists_head {ls : List Lexeme} {ms : List (String × Json)}
    (h : SpellsMembers ls ms) : ∃ l ls', ls = l :: ls' ∧ l ≠ .closeBrace := by
  cases h <;> exact ⟨_, _, rfl, nofun⟩

/-! ### No junk -/

mutual

/-- Where lexemes spell a value there is no junk. -/
theorem SpellsValue.junk_not_mem : ∀ {ls : List Lexeme} {v : Json}, SpellsValue ls v → .junk ∉ ls
  | _, _, .null | _, _, .boolean _ | _, _, .number _ | _, _, .string _ | _, _, .emptyArray
  | _, _, .emptyObject => by simp
  | _, _, .array h => by simpa using h.junk_not_mem
  | _, _, .object h => by simpa using h.junk_not_mem

/-- Where lexemes spell elements there is no junk. -/
theorem SpellsItems.junk_not_mem : ∀ {ls : List Lexeme} {vs : List Json}, SpellsItems ls vs →
    .junk ∉ ls
  | _, _, .last h => by simpa using h.junk_not_mem
  | _, _, .more h hs => by simpa using ⟨h.junk_not_mem, hs.junk_not_mem⟩

/-- Where lexemes spell members there is no junk. -/
theorem SpellsMembers.junk_not_mem : ∀ {ls : List Lexeme} {ms : List (String × Json)},
    SpellsMembers ls ms → .junk ∉ ls
  | _, _, .last _ h => by simpa using h.junk_not_mem
  | _, _, .more _ h hs => by simpa using ⟨h.junk_not_mem, hs.junk_not_mem⟩

end

/-- A text spells a value if its lexemes do. -/
theorem spells_iff {text : String} {v : Json} :
    Spells text v ↔ SpellsValue (lexemes text.toList) v := by
  constructor
  · rintro ⟨ls, htokens, h⟩
    -- the tokens of a text are its lexemes
    rwa [(tokens_iff.1 htokens).1]
  · intro h
    -- lexemes without junk are tokens
    exact ⟨_, tokens_iff.2 ⟨rfl, h.junk_not_mem⟩, h⟩

/-! ### Written values -/

mutual

/-- A value is spelled by its own lexemes. -/
theorem spellsValue_lexemesOf : ∀ v : Json, SpellsValue (lexemesOf v) v
  | .null => .null
  | .boolean b => .boolean b
  | .number n => .number n
  | .string s => .string (piecesSpell_writtenPieces s)
  | .array [] => .emptyArray
  | .array (v :: vs) => .array (spellsItems_itemLexemes (List.cons_ne_nil v vs))
  | .object [] => .emptyObject
  | .object (m :: ms) => .object (spellsMembers_memberLexemes (List.cons_ne_nil m ms))

/-- Elements are spelled by their lexemes, if there are any. -/
theorem spellsItems_itemLexemes : ∀ {vs : List Json}, vs ≠ [] → SpellsItems (itemLexemes vs) vs
  | [], h => absurd rfl h
  | [v], _ => .last (spellsValue_lexemesOf v)
  | v :: w :: vs, _ =>
    .more (spellsValue_lexemesOf v) (spellsItems_itemLexemes (List.cons_ne_nil w vs))

/-- Members are spelled by their lexemes, if there are any. -/
theorem spellsMembers_memberLexemes : ∀ {ms : List (String × Json)}, ms ≠ [] →
    SpellsMembers (memberLexemes ms) ms
  | [], h => absurd rfl h
  | [(name, v)], _ => .last (piecesSpell_writtenPieces name) (spellsValue_lexemesOf v)
  | (name, v) :: m :: ms, _ => .more (piecesSpell_writtenPieces name) (spellsValue_lexemesOf v)
      (spellsMembers_memberLexemes (List.cons_ne_nil m ms))

end

/-- **A regular value is spelled by its compact text.** -/
theorem spells_text {v : Json} (h : v.Regular) : Spells v.text v := by
  -- nothing follows the text, so no number in it can go on
  have hnil : Tokens [] [] := .space nofun
  have hends : NoDigit [] := fun _ hc => by cases hc
  have htokens := tokens_write h hends hnil
  rw [List.append_nil, List.append_nil] at htokens
  refine ⟨lexemesOf v, ?_, spellsValue_lexemesOf v⟩
  rw [text, String.toList_ofList]
  exact htokens

end Rulebook.Json
