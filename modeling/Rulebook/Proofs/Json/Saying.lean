import Rulebook.Proofs.Json.Grammar

/-!
# What documents say

A document says a value (`Document.Says`) if it is intact and spells the value out: the same
literals, the same numbers, the same members in the same order, and strings whose pieces make up the
texts of the value. Several documents say one value, as a character may be spelled in several ways;
whoever reads a document with a shape in mind can only tell what it says.

Two documents are known to say a given value: the one that is made of the value without any text
(`says_toDocument`), and the one that is read from any text of the value (`Json.IsText`). The texts
of a value are those that spell it by the grammar (`isText_iff`): lexemes that spell a value are
read as a document that says it (`says_ofLexemes`), and none but these are (`spells_ofLexemes`). The
compact text of a regular value is one of its texts (`isText_text`), and no document says two values
(`Document.Says.unique`).
-/

namespace Rulebook.Json

mutual

/-- The document says the value. -/
inductive Document.Says : Document → Json → Prop
  | null : Document.Says .null .null
  | boolean (b : Bool) : Document.Says (.boolean b) (.boolean b)
  | number (n : Numeral) : Document.Says (.number n) (.number n)
  | string {ps : List Piece} {s : String} (h : text? ps = some s) :
      Document.Says (.string ps) (.string s)
  | array {items : Items} {vs : List Json} (h : Items.Says items vs) :
      Document.Says (.array items) (.array vs)
  | object {members : Members} {ms : List (String × Json)} (h : Members.Says members ms) :
      Document.Says (.object members) (.object ms)

/-- The elements say the values, one each. -/
inductive Items.Says : Items → List Json → Prop
  | done : Items.Says .done []
  | more {head : Document} {tail : Items} {v : Json} {vs : List Json}
      (hhead : Document.Says head v) (htail : Items.Says tail vs) :
      Items.Says (.more head tail) (v :: vs)

/-- The members say the named values, one each. -/
inductive Members.Says : Members → List (String × Json) → Prop
  | done : Members.Says .done []
  | more {ps : List Piece} {value : Document} {tail : Members} {name : String} {v : Json}
      {ms : List (String × Json)} (hname : text? ps = some name)
      (hvalue : Document.Says value v) (htail : Members.Says tail ms) :
      Members.Says (.more (.string ps) value tail) ((name, v) :: ms)

end

mutual

/-- A document says one value at most. -/
theorem Document.Says.unique : ∀ {d : Document} {v w : Json}, d.Says v → d.Says w → v = w
  | _, _, _, .null, .null => rfl
  | _, _, _, .boolean _, .boolean _ => rfl
  | _, _, _, .number _, .number _ => rfl
  | _, _, _, .string h, .string h' => congrArg Json.string (Option.some.inj (h.symm.trans h'))
  | _, _, _, .array h, .array h' => congrArg Json.array (h.unique h')
  | _, _, _, .object h, .object h' => congrArg Json.object (h.unique h')

/-- Elements say one list of values at most. -/
theorem Items.Says.unique : ∀ {items : Items} {vs ws : List Json}, items.Says vs → items.Says ws →
    vs = ws
  | _, _, _, .done, .done => rfl
  | _, _, _, .more h htail, .more h' htail' => by rw [h.unique h', htail.unique htail']

/-- Members say one list of named values at most. -/
theorem Members.Says.unique : ∀ {members : Members} {ms ns : List (String × Json)},
    members.Says ms → members.Says ns → ms = ns
  | _, _, _, .done, .done => rfl
  | _, _, _, .more hname h htail, .more hname' h' htail' => by
    rw [Option.some.inj (hname.symm.trans hname'), h.unique h', htail.unique htail']

end

/-! ### Documents made of values -/

/-- The pieces that a text is cut into make it up again. -/
@[simp]
theorem text?_pieces (s : String) : text? (pieces s) = some s := by
  have h : ∀ cs : List Char, readPieces (cs.map .char) = some cs := by
    intro cs
    induction cs with
    | nil => rfl
    | cons c cs ih => rw [List.map_cons, readPieces, ih, Option.map_some]
  rw [text?, pieces, h, Option.map_some, String.ofList_toList]

mutual

/-- The document made of a value says the value. -/
theorem says_toDocument : ∀ v : Json, v.toDocument.Says v
  | .null => .null
  | .boolean b => .boolean b
  | .number n => .number n
  | .string s => .string (text?_pieces s)
  | .array vs => .array (says_itemsOf vs)
  | .object ms => .object (says_membersOf ms)

/-- The elements made of values say the values. -/
theorem says_itemsOf : ∀ vs : List Json, (itemsOf vs).Says vs
  | [] => .done
  | v :: vs => .more (says_toDocument v) (says_itemsOf vs)

/-- The members made of named values say them. -/
theorem says_membersOf : ∀ ms : List (String × Json), (membersOf ms).Says ms
  | [] => .done
  | (name, v) :: ms => .more (text?_pieces name) (says_toDocument v) (says_membersOf ms)

end

/-! ### Documents read from texts -/

/-- The text says the value, and nothing follows it. -/
def IsText (v : Json) (text : String) : Prop :=
  ∃ d, Document.ofChars text.toList = (d, []) ∧ d.Says v

/-- Behind an opening bracket elements are read, unless the array is closed at once. -/
theorem ofLexemes_openBracket (n : Nat) {l : Lexeme} (hl : l ≠ .closeBracket) (ls : List Lexeme) :
    Document.ofLexemes (n + 1) (.openBracket :: l :: ls) =
      (.array (Document.itemsOfLexemes n (l :: ls)).1,
        (Document.itemsOfLexemes n (l :: ls)).2) := by
  cases l with
  | closeBracket => exact absurd rfl hl
  | _ => rfl

/-- Behind an opening brace members are read, unless the object is closed at once. -/
theorem ofLexemes_openBrace (n : Nat) {l : Lexeme} (hl : l ≠ .closeBrace) (ls : List Lexeme) :
    Document.ofLexemes (n + 1) (.openBrace :: l :: ls) =
      (.object (Document.membersOfLexemes n (l :: ls)).1,
        (Document.membersOfLexemes n (l :: ls)).2) := by
  cases l with
  | closeBrace => exact absurd rfl hl
  | _ => rfl

mutual

/-- Lexemes that spell a value are read as a document that says it. Two steps of the recursion for
each lexeme are enough. -/
theorem says_ofLexemes : ∀ (n : Nat) {ls : List Lexeme} {v : Json}, SpellsValue ls v →
    2 * ls.length ≤ n → ∀ rest, ∃ d, Document.ofLexemes n (ls ++ rest) = (d, rest) ∧ d.Says v
  | 0, ls, v, h, hn, _ => by
    obtain ⟨l, ls', rfl, -⟩ := h.exists_head
    simp at hn
  -- for a single lexeme one step is enough
  | _ + 1, _, _, .null, _, _ => ⟨.null, rfl, .null⟩
  | _ + 1, _, _, .boolean b, _, _ => ⟨.boolean b, rfl, .boolean b⟩
  | _ + 1, _, _, .number n, _, _ => ⟨.number n, rfl, .number n⟩
  | _ + 1, _, _, .string hs, _, _ => ⟨.string _, rfl, .string (text?_of_piecesSpell hs)⟩
  | _ + 1, _, _, .emptyArray, _, _ => ⟨.array .done, rfl, .array .done⟩
  | n + 1, _, _, .array h, hn, rest => by
    -- the bracket pays for the step into the array
    rw [List.length_cons] at hn
    obtain ⟨items, hitems, hsaid⟩ := says_itemsOfLexemes n h (by omega) rest
    obtain ⟨l, ls', rfl, hl⟩ := h.exists_head
    refine ⟨.array items, ?_, .array hsaid⟩
    rw [List.cons_append, List.cons_append, ofLexemes_openBracket n hl, ← List.cons_append, hitems]
  | _ + 1, _, _, .emptyObject, _, _ => ⟨.object .done, rfl, .object .done⟩
  | n + 1, _, _, .object h, hn, rest => by
    rw [List.length_cons] at hn
    obtain ⟨members, hmembers, hsaid⟩ := says_membersOfLexemes n h (by omega) rest
    obtain ⟨l, ls', rfl, hl⟩ := h.exists_head
    refine ⟨.object members, ?_, .object hsaid⟩
    rw [List.cons_append, List.cons_append, ofLexemes_openBrace n hl, ← List.cons_append, hmembers]

/-- Lexemes that spell elements are read as elements that say the same values. -/
theorem says_itemsOfLexemes : ∀ (n : Nat) {ls : List Lexeme} {vs : List Json}, SpellsItems ls vs →
    2 * ls.length ≤ n → ∀ rest,
    ∃ items, Document.itemsOfLexemes n (ls ++ rest) = (items, rest) ∧ items.Says vs
  | 0, ls, vs, h, hn, _ => by
    obtain ⟨l, ls', rfl, -⟩ := h.exists_head
    simp at hn
  -- the bracket that ends the array pays for the step to the last element
  | n + 1, _, _, .last h, hn, rest => by
    rw [List.length_append, List.length_singleton] at hn
    obtain ⟨d, hd, hsaid⟩ := says_ofLexemes n h (by omega) (.closeBracket :: rest)
    refine ⟨.more d .done, ?_, .more hsaid .done⟩
    rw [List.append_assoc, List.singleton_append, Document.itemsOfLexemes, hd]
  -- the comma pays for the step to this element
  | n + 1, _, _, .more h hs, hn, rest => by
    rw [List.length_append, List.length_cons] at hn
    obtain ⟨items, hitems, htail⟩ := says_itemsOfLexemes n hs (by omega) rest
    obtain ⟨d, hd, hsaid⟩ := says_ofLexemes n h (by omega) (.comma :: (_ ++ rest))
    refine ⟨.more d items, ?_, .more hsaid htail⟩
    rw [List.append_assoc, List.cons_append, Document.itemsOfLexemes, hd]
    simp only [hitems]

/-- Lexemes that spell members are read as members that say the same. -/
theorem says_membersOfLexemes : ∀ (n : Nat) {ls : List Lexeme} {ms : List (String × Json)},
    SpellsMembers ls ms → 2 * ls.length ≤ n → ∀ rest,
    ∃ members, Document.membersOfLexemes n (ls ++ rest) = (members, rest) ∧ members.Says ms
  | 0, ls, ms, h, hn, _ => by
    obtain ⟨l, ls', rfl, -⟩ := h.exists_head
    simp at hn
  -- name, colon and the end of the object pay for the step to the value
  | n + 1, _, _, .last hname h, hn, rest => by
    simp only [List.length_cons, List.length_append, List.length_nil] at hn
    obtain ⟨d, hd, hsaid⟩ := says_ofLexemes n h (by omega) (.closeBrace :: rest)
    refine ⟨.more _ d .done, ?_, .more (text?_of_piecesSpell hname) hsaid .done⟩
    rw [List.cons_append, List.cons_append, List.append_assoc, List.singleton_append,
      Document.membersOfLexemes, hd]
  | n + 1, _, _, .more hname h hs, hn, rest => by
    simp only [List.length_cons, List.length_append] at hn
    obtain ⟨members, hmembers, htail⟩ := says_membersOfLexemes n hs (by omega) rest
    obtain ⟨d, hd, hsaid⟩ := says_ofLexemes n h (by omega) (.comma :: (_ ++ rest))
    refine ⟨.more _ d members, ?_, .more (text?_of_piecesSpell hname) hsaid htail⟩
    rw [List.cons_append, List.cons_append, List.append_assoc, List.cons_append,
      Document.membersOfLexemes, hd]
    simp only [hmembers]

end

/-- The strings among the lexemes name units of 16 bits. -/
def NameUnits (ls : List Lexeme) : Prop :=
  ∀ ps u, .string ps ∈ ls → .unit u ∈ ps → u < 0x10000

theorem NameUnits.mono {ls ls' : List Lexeme} (h : NameUnits ls) (hsub : ls' ⊆ ls) :
    NameUnits ls' :=
  fun ps u hps => h ps u (hsub hps)

/-- A string in front of such lexemes spells the text that it makes up. -/
theorem NameUnits.piecesSpell {ps : List Piece} {s : String} {ls : List Lexeme}
    (h : NameUnits (.string ps :: ls)) (hs : text? ps = some s) : PiecesSpell ps s.toList :=
  (text?_eq_some_iff fun u => h ps u List.mem_cons_self).1 hs

mutual

/-- If the document that is read says a value, the lexemes that were read spell it. -/
theorem spells_ofLexemes : ∀ (n : Nat) {ls rest : List Lexeme} {d : Document} {v : Json},
    NameUnits ls → Document.ofLexemes n ls = (d, rest) → d.Says v →
    ∃ ls', SpellsValue ls' v ∧ ls = ls' ++ rest
  | 0, _, _, _, _, _, h, hsaid => by
    cases h
    cases hsaid
  | n + 1, ls, rest, d, v, hunits, h, hsaid => by
    -- one case for each lexeme that a value begins with; anything else is read as a document that
    -- says nothing
    unfold Document.ofLexemes at h
    split at h
    · cases h; cases hsaid; exact ⟨_, .null, rfl⟩
    · cases h; cases hsaid; exact ⟨_, .boolean _, rfl⟩
    · cases h; cases hsaid; exact ⟨_, .number _, rfl⟩
    · cases h
      cases hsaid with
      | string hs => exact ⟨_, .string (hunits.piecesSpell hs), rfl⟩
    · cases h
      cases hsaid with
      | array hitems =>
        cases hitems
        exact ⟨_, .emptyArray, rfl⟩
    · cases h
      cases hsaid with
      | array hitems =>
        have hunits := hunits.mono (List.subset_cons_self _ _)
        obtain ⟨ls', hspells, hls⟩ := spells_itemsOfLexemes n hunits rfl hitems
        exact ⟨_, .array hspells, congrArg (_ :: ·) hls⟩
    · cases h
      cases hsaid with
      | object hmembers =>
        cases hmembers
        exact ⟨_, .emptyObject, rfl⟩
    · cases h
      cases hsaid with
      | object hmembers =>
        have hunits := hunits.mono (List.subset_cons_self _ _)
        obtain ⟨ls', hspells, hls⟩ := spells_membersOfLexemes n hunits rfl hmembers
        exact ⟨_, .object hspells, congrArg (_ :: ·) hls⟩
    · cases h
      cases hsaid

/-- If the elements that are read say something, the lexemes that were read spell it. Elements that
are cut off say nothing, so what follows an element is a comma or a bracket. -/
theorem spells_itemsOfLexemes : ∀ (n : Nat) {ls rest : List Lexeme} {items : Items}
    {vs : List Json}, NameUnits ls → Document.itemsOfLexemes n ls = (items, rest) →
    items.Says vs → ∃ ls', SpellsItems ls' vs ∧ ls = ls' ++ rest
  | 0, _, _, _, _, _, h, hsaid => by
    cases h
    cases hsaid
  | n + 1, ls, rest, items, vs, hunits, h, hsaid => by
    rw [Document.itemsOfLexemes] at h
    cases hread : Document.ofLexemes n ls with
    | mk d rest' =>
      rw [hread] at h
      dsimp only at h
      split at h
      · -- a bracket: this was the last element
        cases h
        cases hsaid with
        | more hd htail =>
          cases htail
          obtain ⟨ls', hspells, rfl⟩ := spells_ofLexemes n hunits hread hd
          exact ⟨_, .last hspells, by simp⟩
      · -- a comma: more elements follow
        cases h
        cases hsaid with
        | more hd htail =>
          obtain ⟨ls', hspells, rfl⟩ := spells_ofLexemes n hunits hread hd
          have hunits := hunits.mono fun l hl =>
            List.mem_append_right ls' (List.mem_cons_of_mem _ hl)
          obtain ⟨ls'', hspells', hls⟩ := spells_itemsOfLexemes n hunits rfl htail
          exact ⟨_, .more hspells hspells', by rw [List.append_assoc, List.cons_append, ← hls]⟩
      · -- anything else cuts the elements off
        cases h
        cases hsaid with
        | more _ htail => cases htail

/-- If the members that are read say something, the lexemes that were read spell it. -/
theorem spells_membersOfLexemes : ∀ (n : Nat) {ls rest : List Lexeme} {members : Members}
    {ms : List (String × Json)}, NameUnits ls →
    Document.membersOfLexemes n ls = (members, rest) → members.Says ms →
    ∃ ls', SpellsMembers ls' ms ∧ ls = ls' ++ rest
  | 0, _, _, _, _, _, h, hsaid => by
    cases h
    cases hsaid
  | n + 1, ls, rest, members, ms, hunits, h, hsaid => by
    unfold Document.membersOfLexemes at h
    split at h
    · next ps ls =>
      -- behind the name and the colon there are fewer strings
      have hvalue : NameUnits ls := hunits.mono fun l hl =>
        List.mem_cons_of_mem _ (List.mem_cons_of_mem _ hl)
      cases hread : Document.ofLexemes n ls with
      | mk d rest' =>
        rw [hread] at h
        dsimp only at h
        split at h
        · -- a brace: this was the last member
          cases h
          cases hsaid with
          | more hname hd htail =>
            cases htail
            obtain ⟨ls', hspells, rfl⟩ := spells_ofLexemes n hvalue hread hd
            exact ⟨_, .last (hunits.piecesSpell hname) hspells, by simp⟩
        · -- a comma: more members follow
          cases h
          cases hsaid with
          | more hname hd htail =>
            obtain ⟨ls', hspells, rfl⟩ := spells_ofLexemes n hvalue hread hd
            have hrest := hvalue.mono fun l hl =>
              List.mem_append_right ls' (List.mem_cons_of_mem _ hl)
            obtain ⟨ls'', hspells', hls⟩ := spells_membersOfLexemes n hrest rfl htail
            refine ⟨_, .more (hunits.piecesSpell hname) hspells hspells', ?_⟩
            rw [List.cons_append, List.cons_append, List.append_assoc, List.cons_append, ← hls]
        · -- anything else cuts the members off
          cases h
          cases hsaid with
          | more _ _ htail => cases htail
    -- a key without a colon, and what stands in the place of a key, is followed by nothing
    · cases h
      cases hsaid with
      | more _ _ htail => cases htail
    · cases h
      generalize Document.strayKey _ = key at hsaid
      cases hsaid with
      | more _ _ htail => cases htail

end

/-- **The texts of a value are those that spell it.** -/
theorem isText_iff {v : Json} {text : String} : IsText v text ↔ Spells text v := by
  rw [spells_iff]
  constructor
  · -- all the lexemes belong to the document, as nothing follows it
    rintro ⟨d, hd, hsaid⟩
    have hunits : NameUnits (lexemes text.toList) :=
      fun ps u hps hu => unit_lt_of_mem_lexemesUpTo hu hps
    obtain ⟨ls, hspells, hls⟩ := spells_ofLexemes _ hunits hd hsaid
    rwa [hls, List.append_nil]
  · intro h
    obtain ⟨d, hd, hsaid⟩ := says_ofLexemes _ h (Nat.le_succ _) []
    rw [List.append_nil] at hd
    exact ⟨d, hd, hsaid⟩

/-- The compact text of a regular value says the value. -/
theorem isText_text {v : Json} (h : v.Regular) : IsText v v.text :=
  isText_iff.2 (spells_text h)

end Rulebook.Json
