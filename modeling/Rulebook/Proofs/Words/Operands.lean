import Rulebook.Proofs.Words

/-!
# Words that are operands

A word that reads as an operand is classified twice: once when a rule is cut into tokens
(`Token.ofWord?`), which asks only whether it is an operand, and again when the operand gets a value
(`Operand.ofText`), which asks what it stands for. This module says in plain terms which words are
operands (`ofWord?_eq_operand_iff`) and what each text stands for (`ofText_eq_number_iff`,
`ofText_eq_text_iff`, `ofText_eq_attribute_iff`), so that the two agree (`ofWord?_ofText_agree`).

A text can also be classified by its octets: digits are sought among the octets, and what stands
between two quotes is cut out by counting octets. Such a cut could fall into the middle of a
character. It never does: `ofOctets?` classifies every text, and as `ofText` does
(`ofOctets?_eq`), because a quote is a single octet and so is the only character whose octets are
those of a digit.
-/

namespace Rulebook

namespace Operand

/-! ### What a text stands for -/

/-- A number is read from any run of digits, and from nothing else. -/
theorem isSome_natOfDigits?_iff {cs : List Char} :
    (Text.natOfDigits? cs).isSome = true ↔ cs ≠ [] ∧ ∀ c ∈ cs, Text.isDigit c = true := by
  cases cs with
  | nil => simp
  | cons c cs =>
    rw [Text.natOfDigits?, List.isEmpty_cons, if_neg Bool.false_ne_true, ← List.all_eq_true]
    by_cases h : (c :: cs).all Text.isDigit = true <;> simp [h]

/-- What stands between two quotes is no run of digits. -/
theorem natOfDigits?_of_quoted? {cs body : List Char} (h : quoted? cs = some body) :
    (Text.natOfDigits? cs).isSome = false := by
  refine eq_false_of_ne_true fun hsome => ?_
  obtain ⟨-, hdigits⟩ := isSome_natOfDigits?_iff.1 hsome
  rw [quoted?_eq_some_iff.1 h] at hdigits
  exact absurd (hdigits '\'' List.mem_cons_self) (by decide)

/-- A text is quoted if it is a quote, another text and a quote. -/
theorem quoted?_toList_eq_some_iff {s x : String} :
    quoted? s.toList = some x.toList ↔ s = "'" ++ x ++ "'" := by
  rw [quoted?_eq_some_iff, ← String.toList_inj, String.toList_append, String.toList_append]
  rfl

/-- A text stands for a number exactly if it is a run of digits. -/
theorem ofText_eq_number_iff {s d : String} :
    ofText s = .number d ↔ d = s ∧ s ≠ "" ∧ ∀ c ∈ s.toList, Text.isDigit c = true := by
  have hempty : s ≠ "" ↔ s.toList ≠ [] := not_congr String.toList_eq_nil_iff.symm
  rw [ofText, hempty, ← isSome_natOfDigits?_iff]
  split
  · next hsome => simp [hsome, eq_comm]
  · next hnone => split <;> simp [hnone]

/-- A text stands for a string exactly if it is a quote, the string and a quote. -/
theorem ofText_eq_text_iff {s x : String} : ofText s = .text x ↔ s = "'" ++ x ++ "'" := by
  rw [← quoted?_toList_eq_some_iff, ofText]
  cases hquoted : quoted? s.toList with
  | none => split <;> simp
  -- what is quoted is no run of digits, so the quotes decide
  | some body =>
    rw [natOfDigits?_of_quoted? hquoted, if_neg Bool.false_ne_true]
    constructor
    · intro h
      cases h
      rw [String.toList_ofList]
    · intro h
      cases h
      exact congrArg Operand.text String.ofList_toList

/-- A text stands for an attribute exactly if it is neither a run of digits nor quoted. -/
theorem ofText_eq_attribute_iff {s name : String} :
    ofText s = .attribute name ↔ name = s ∧
      ¬ (s ≠ "" ∧ ∀ c ∈ s.toList, Text.isDigit c = true) ∧ ¬ ∃ x, s = "'" ++ x ++ "'" := by
  -- an attribute has the text itself for a name
  have hname : ∀ {a}, ofText s = .attribute a → a = s := by
    intro a h
    unfold ofText at h
    split at h
    · cases h
    · split at h <;> cases h
      rfl
  constructor
  · intro h
    refine ⟨hname h, fun hdigits => ?_, fun ⟨x, hx⟩ => ?_⟩
    · cases h.symm.trans (ofText_eq_number_iff.2 ⟨rfl, hdigits⟩)
    · cases h.symm.trans (ofText_eq_text_iff.2 hx)
  · rintro ⟨rfl, hdigits, hquoted⟩
    -- none of the other two readings is left
    rcases h : ofText name with d | x | a
    · exact absurd (ofText_eq_number_iff.1 h).2 hdigits
    · exact absurd ⟨x, ofText_eq_text_iff.1 h⟩ hquoted
    · rw [hname h]

/-! ### Reading octets -/

/-- The octets of a text. -/
def octets (cs : List Char) : List UInt8 :=
  cs.flatMap String.utf8EncodeChar

/-- The octet of one of the ten ASCII digits. -/
def isDigitOctet (b : UInt8) : Bool :=
  decide (0x30 ≤ b) && decide (b ≤ 0x39)

/-- Cuts a text behind so many octets, unless that would cut a character apart. -/
def cutBehind? : Nat → List Char → Option (List Char × List Char)
  | 0, cs => some ([], cs)
  | _ + 1, [] => none
  | n + 1, c :: cs =>
    if c.utf8Size ≤ n + 1 then (cutBehind? (n + 1 - c.utf8Size) cs).map fun r => (c :: r.1, r.2)
    else none

/-- What stands in a text between two places that are given by the octets in front of them, unless
a character would be cut apart. -/
def between? (i j : Nat) (cs : List Char) : Option (List Char) := do
  let (_, behind) ← cutBehind? i cs
  let (body, _) ← cutBehind? (j - i) behind
  return body

/-- Reads the text of an operand by its octets, unless a character would be cut apart. -/
def ofOctets? (text : String) : Option Operand :=
  let size := (octets text.toList).length
  if size ≠ 0 ∧ (octets text.toList).all isDigitOctet = true then some (.number text)
  else if 2 ≤ size ∧ text.toList.head? = some '\'' ∧ text.toList.getLast? = some '\'' then
    (between? 1 (size - 1) text.toList).map fun body => .text (String.ofList body)
  else some (.attribute text)

/-- The octets of a character are those of digits exactly if it is a digit. -/
theorem all_isDigitOctet_utf8EncodeChar (c : Char) :
    (String.utf8EncodeChar c).all isDigitOctet = Text.isDigit c := by
  have hdigit : Text.isDigit c = true ↔ 0x30 ≤ c.val.toNat ∧ c.val.toNat ≤ 0x39 := by
    simp [Text.isDigit, Char.le_def, UInt32.le_iff_toNat_le]
  have hoctet : ∀ n, isDigitOctet (UInt8.ofNat n) = true ↔ 0x30 ≤ n % 256 ∧ n % 256 ≤ 0x39 := by
    intro n
    simp [isDigitOctet, UInt8.le_iff_toNat_le]
  rw [Bool.eq_iff_iff, hdigit, List.all_eq_true]
  by_cases hsmall : c.val.toNat ≤ 127
  · -- a single octet, which is the code point
    simp only [String.utf8EncodeChar, if_pos hsmall, List.mem_singleton, forall_eq, hoctet]
    omega
  · -- the last of several octets is too great for a digit
    have hlast : UInt8.ofNat (c.val.toNat % 64 + 128) ∈ String.utf8EncodeChar c := by
      simp only [String.utf8EncodeChar, if_neg hsmall]
      split
      · simp
      · split <;> simp
    constructor
    · intro h
      have hdigit := (hoctet _).1 (h _ hlast)
      omega
    · intro h
      omega

/-- A text has the octets of digits only, if it has digits only. -/
theorem all_isDigitOctet_octets (cs : List Char) :
    (octets cs).all isDigitOctet = cs.all Text.isDigit := by
  induction cs with
  | nil => rfl
  | cons c cs ih =>
    rw [octets, List.flatMap_cons, List.all_append, ← octets, ih, all_isDigitOctet_utf8EncodeChar,
      List.all_cons]

/-- A character has its own octets, in front of the others. -/
theorem octets_cons (c : Char) (cs : List Char) :
    (octets (c :: cs)).length = c.utf8Size + (octets cs).length := by
  rw [octets, List.flatMap_cons, List.length_append, String.length_utf8EncodeChar, ← octets]

/-- The octets of two texts stand one behind the other. -/
theorem octets_append (cs ds : List Char) :
    (octets (cs ++ ds)).length = (octets cs).length + (octets ds).length := by
  rw [octets, List.flatMap_append, List.length_append, ← octets, ← octets]

/-- Between two characters no character is cut apart. -/
theorem cutBehind?_append (cs ds : List Char) :
    cutBehind? (octets cs).length (cs ++ ds) = some (cs, ds) := by
  induction cs with
  | nil => exact cutBehind?.eq_1 ds
  | cons c cs ih =>
    have hpos := c.utf8Size_pos
    obtain ⟨n, hn⟩ : ∃ n, (octets (c :: cs)).length = n + 1 :=
      Nat.exists_eq_succ_of_ne_zero (by rw [octets_cons]; omega)
    -- behind the first character there are as many octets left as the others have
    have hrest : n + 1 - c.utf8Size = (octets cs).length := by
      rw [← hn, octets_cons]
      omega
    have hle : c.utf8Size ≤ n + 1 := by
      rw [← hn, octets_cons]
      omega
    rw [hn, List.cons_append, cutBehind?, if_pos hle, hrest, ih]
    rfl

/-- Of a text in quotes, what stands behind the first octet and in front of the last one is what
stands between the quotes. -/
theorem between?_quoted (body : List Char) :
    between? 1 ((octets ('\'' :: (body ++ ['\'']))).length - 1) ('\'' :: (body ++ ['\''])) =
      some body := by
  -- each quote is a single octet
  have hsize : (octets ('\'' :: (body ++ ['\'']))).length - 1 - 1 = (octets body).length := by
    have hquote : '\''.utf8Size = 1 ∧ (octets ['\'']).length = 1 := by decide
    rw [octets_cons, octets_append]
    omega
  have hfirst : cutBehind? 1 ('\'' :: (body ++ ['\''])) = some (['\''], body ++ ['\'']) :=
    cutBehind?_append ['\''] (body ++ ['\''])
  rw [between?, hfirst, hsize]
  change (cutBehind? (octets body).length (body ++ ['\''])).bind _ = _
  rw [cutBehind?_append]
  rfl

/-- A text of at least two octets is quoted if it begins and ends with a quote. -/
theorem quoted?_isSome_iff {cs : List Char} :
    (quoted? cs).isSome = true ↔
      2 ≤ (octets cs).length ∧ cs.head? = some '\'' ∧ cs.getLast? = some '\'' := by
  rw [Option.isSome_iff_exists]
  constructor
  · rintro ⟨body, hbody⟩
    rw [quoted?_eq_some_iff] at hbody
    subst hbody
    -- two quotes are two octets
    refine ⟨?_, rfl, by rw [← List.cons_append, List.getLast?_concat]⟩
    rw [octets_cons, octets_append]
    exact Nat.add_le_add (Nat.le_refl 1) (Nat.le_add_left 1 _)
  · rintro ⟨hsize, hhead, hlast⟩
    obtain ⟨rest, rfl⟩ := List.head?_eq_some_iff.1 hhead
    -- with one character only there would be one octet
    rcases List.eq_nil_or_concat rest with rfl | ⟨body, c, hrest⟩
    · exact absurd hsize (by decide)
    · rw [List.concat_eq_append] at hrest
      subst hrest
      rw [← List.cons_append, List.getLast?_concat] at hlast
      exact ⟨body, quoted?_eq_some_iff.2 (by rw [Option.some.inj hlast])⟩

/-- **Reading octets cuts no character apart**, and reads what reading characters does. -/
theorem ofOctets?_eq (s : String) : ofOctets? s = some (ofText s) := by
  have hdigits : (octets s.toList).length ≠ 0 ∧ (octets s.toList).all isDigitOctet = true ↔
      (Text.natOfDigits? s.toList).isSome = true := by
    rw [all_isDigitOctet_octets, isSome_natOfDigits?_iff, List.all_eq_true]
    -- the text is empty if it has no octets
    refine and_congr_left fun _ => not_congr ?_
    cases s.toList with
    | nil => exact iff_of_true rfl rfl
    | cons c cs =>
      have hpos := c.utf8Size_pos
      rw [octets_cons]
      exact iff_of_false (by omega) (List.cons_ne_nil c cs)
  rw [ofOctets?, ofText]
  simp only [hdigits, ← quoted?_isSome_iff]
  split
  · rfl
  · cases hquoted : quoted? s.toList with
    | none => rfl
    | some body =>
      rw [quoted?_eq_some_iff.1 hquoted, if_pos Option.isSome_some, between?_quoted]
      rfl

end Operand

namespace Token

/-! ### Operands among words -/

/-- The word is a run of letters and digits, and no connective. -/
def IsBare (s : String) : Prop :=
  s ≠ "" ∧ (∀ c ∈ s.toList, Text.isAlphanumeric c = true) ∧ s ≠ "AND" ∧ s ≠ "OR"

/-- The word is a run of letters and digits, which may be a connective, between two quotes. -/
def Quotes (s body : String) : Prop :=
  body ≠ "" ∧ (∀ c ∈ body.toList, Text.isAlphanumeric c = true) ∧ s = "'" ++ body ++ "'"

/-- Digits are letters or numbers. -/
theorem isAlphanumeric_of_isDigit {c : Char} (h : Text.isDigit c = true) :
    Text.isAlphanumeric c = true := by
  have hrange : '0'.toNat ≤ c.toNat ∧ c.toNat ≤ '9'.toNat := by
    simpa [Text.isDigit, Char.le_def, UInt32.le_iff_toNat_le] using h
  -- the digits are the first range of the table
  refine List.any_eq_true.2 ⟨(0x30, 0x39), List.mem_cons_self, ?_⟩
  simpa using hrange

/-- A word has the form of an operand if it has a body of letters and digits. -/
theorem isOperandWord_iff {s : String} :
    isOperandWord s = true ↔ body s.toList ≠ [] ∧
      ∀ c ∈ body s.toList, Text.isAlphanumeric c = true := by
  simp [isOperandWord]

/-- What begins with a letter or a digit is not quoted. -/
theorem body_of_isAlphanumeric {cs : List Char} (h : ∀ c ∈ cs, Text.isAlphanumeric c = true) :
    body cs = cs := by
  have hquote : Operand.quoted? cs = none := by
    refine Option.eq_none_iff_forall_ne_some.2 fun b hb => ?_
    rw [Operand.quoted?_eq_some_iff.1 hb] at h
    exact absurd (h '\'' List.mem_cons_self) (by decide +kernel)
  rw [body, hquote, Option.getD_none]

/-- A word has the form of an operand exactly if it is a run of letters and digits, bare or between
quotes. -/
theorem isOperandWord_iff_or {s : String} :
    isOperandWord s = true ↔
      (s ≠ "" ∧ ∀ c ∈ s.toList, Text.isAlphanumeric c = true) ∨ ∃ b, Quotes s b := by
  rw [isOperandWord_iff]
  constructor
  · rintro ⟨hne, hall⟩
    cases hquoted : Operand.quoted? s.toList with
    | none =>
      rw [body, hquoted, Option.getD_none] at hne hall
      exact .inl ⟨fun hempty => hne (String.toList_eq_nil_iff.2 hempty), hall⟩
    -- of a quoted word only the body has to consist of letters and digits
    | some b =>
      rw [body, hquoted, Option.getD_some] at hne hall
      have hb : (String.ofList b).toList = b := String.toList_ofList
      refine .inr ⟨String.ofList b, fun hempty => hne ?_, by rwa [hb], ?_⟩
      · rw [← hb, hempty]
        rfl
      · rw [← Operand.quoted?_toList_eq_some_iff, hquoted, hb]
  · rintro (⟨hne, hall⟩ | ⟨b, hne, hall, hs⟩)
    · rw [body_of_isAlphanumeric hall]
      exact ⟨fun hnil => hne (String.toList_eq_nil_iff.1 hnil), hall⟩
    · rw [body, Operand.quoted?_toList_eq_some_iff.2 hs, Option.getD_some]
      exact ⟨fun hnil => hne (String.toList_eq_nil_iff.1 hnil), hall⟩

/-- Of the symbols, only the connectives have letters. -/
theorem ofSymbol?_of_isBare {s : String} (h : IsBare s) : Operator.ofSymbol? s = none := by
  obtain ⟨-, hall, hand, hor⟩ := h
  refine Option.eq_none_iff_forall_ne_some.2 fun op hop => ?_
  obtain rfl := Operator.ofSymbol?_eq_some_iff.1 hop
  cases op with
  | logical c =>
    cases c with
    | and => exact hand rfl
    | or => exact hor rfl
  -- a comparison is written without letters
  | relating c =>
    have hfalse : c.symbol.toList.all Text.isAlphanumeric = false := by
      cases c <;> decide +kernel
    exact absurd ((List.all_eq_true.2 hall).symm.trans hfalse) Bool.true_eq_false.mp

/-- No symbol begins with a quote. -/
theorem ofSymbol?_of_quotes {s b : String} (h : Quotes s b) : Operator.ofSymbol? s = none := by
  refine Option.eq_none_iff_forall_ne_some.2 fun op hop => ?_
  have hquoted := Operand.quoted?_toList_eq_some_iff.2 h.2.2
  rw [Operator.ofSymbol?_eq_some_iff.1 hop] at hquoted
  have hnone : Operand.quoted? op.symbol.toList = none := by
    rcases op with c | c <;> cases c <;> rfl
  cases hnone.symm.trans hquoted

/-- What reads as an operand has the form of one and is no symbol. -/
theorem of_ofWord?_eq_operand {s t : String} (h : ofWord? s = some (.operand t)) :
    isOperandWord s = true ∧ Operator.ofSymbol? s = none := by
  unfold ofWord? at h
  split at h
  · cases h
  · split at h
    · cases h
    · split at h
      · cases h
      · next hsymbol =>
        split at h
        · next hword => exact ⟨hword, hsymbol⟩
        · cases h

/-- **Which words are operands.** -/
theorem ofWord?_eq_operand_iff {s : String} :
    ofWord? s = some (.operand s) ↔ IsBare s ∨ ∃ b, Quotes s b := by
  constructor
  · intro h
    obtain ⟨hword, hsymbol⟩ := of_ofWord?_eq_operand h
    -- a connective would have been read as an operator
    refine (isOperandWord_iff_or.1 hword).imp_left fun ⟨hne, hall⟩ => ⟨hne, hall, ?_, ?_⟩
    · rintro rfl
      cases hsymbol
    · rintro rfl
      cases hsymbol
  · rintro (h | ⟨b, h⟩)
    · exact ofWord?_of_ofSymbol?_eq_none (isOperandWord_iff_or.2 (.inl ⟨h.1, h.2.1⟩))
        (ofSymbol?_of_isBare h)
    · exact ofWord?_of_ofSymbol?_eq_none (isOperandWord_iff_or.2 (.inr ⟨b, h⟩))
        (ofSymbol?_of_quotes h)

/-- A word that reads as an operand has letters and digits between its quotes, if it has quotes. -/
theorem quotes_iff {s b : String} (h : isOperandWord s = true) :
    Quotes s b ↔ s = "'" ++ b ++ "'" := by
  refine ⟨fun hquotes => hquotes.2.2, fun hs => ?_⟩
  have hword := isOperandWord_iff.1 h
  rw [body, Operand.quoted?_toList_eq_some_iff.2 hs, Option.getD_some] at hword
  exact ⟨fun hempty => hword.1 (String.toList_eq_nil_iff.2 hempty), hword.2, hs⟩

/-- **Words and operands are read the same way.** A word is an operand if it is a run of letters and
digits that is no connective, or any such run between quotes. Then it stands for the string between
its quotes if it has any, for a number if it is a run of digits, and for an attribute otherwise. Of
all texts, those stand for a string that are a quote, the string and a quote; and reading a text by
its octets comes to the same, without ever cutting a character apart. -/
theorem ofWord?_ofText_agree (s : String) :
    (ofWord? s = some (.operand s) ↔ IsBare s ∨ ∃ b, Quotes s b) ∧
    (ofWord? s = some (.operand s) →
      (∀ b, Operand.ofText s = .text b ↔ Quotes s b) ∧
      (Operand.ofText s = .number s ↔ ∀ c ∈ s.toList, Text.isDigit c = true) ∧
      (Operand.ofText s = .attribute s ↔
        (¬ ∃ b, Quotes s b) ∧ ¬ ∀ c ∈ s.toList, Text.isDigit c = true)) ∧
    (∀ x, Operand.ofText s = .text x ↔ s = "'" ++ x ++ "'") ∧
    Operand.ofOctets? s = some (Operand.ofText s) := by
  refine ⟨ofWord?_eq_operand_iff, fun h => ?_, fun x => Operand.ofText_eq_text_iff,
    Operand.ofOctets?_eq s⟩
  have hword := (of_ofWord?_eq_operand h).1
  have hne : s ≠ "" := by
    rintro rfl
    cases h
  refine ⟨fun b => ?_, ?_, ?_⟩
  · rw [Operand.ofText_eq_text_iff, quotes_iff hword]
  · rw [Operand.ofText_eq_number_iff]
    exact ⟨fun h => h.2.2, fun h => ⟨rfl, hne, h⟩⟩
  · rw [Operand.ofText_eq_attribute_iff]
    simp only [quotes_iff hword, true_and]
    -- of a word it does not matter that the text is not empty
    constructor
    · rintro ⟨hdigits, hquoted⟩
      exact ⟨hquoted, fun h => hdigits ⟨hne, h⟩⟩
    · rintro ⟨hquoted, hdigits⟩
      exact ⟨fun h => hdigits h.2, hquoted⟩

/-- A connective between quotes stands for a string, and a digit of another script for an
attribute. -/
theorem ofWord?_ofText_agree_otherScripts :
    ofWord? "'AND'" = some (.operand "'AND'") ∧ Operand.ofText "'AND'" = .text "AND" ∧
    ofWord? "٣" = some (.operand "٣") ∧ Operand.ofText "٣" = .attribute "٣" := by
  have hquotes : Quotes "'AND'" "AND" :=
    ⟨by decide, List.all_eq_true.1 (by decide +kernel), by decide⟩
  have hquoted := (ofWord?_ofText_agree "'AND'").1.2 (.inr ⟨"AND", hquotes⟩)
  have hbare := (ofWord?_ofText_agree "٣").1.2
    (.inl ⟨by decide, List.all_eq_true.1 (by decide +kernel), by decide, by decide⟩)
  have hunquoted : ¬ ∃ b, Quotes "٣" b := fun ⟨b, hb⟩ => by
    have hquotes := Operand.quoted?_toList_eq_some_iff.2 hb.2.2
    cases hquotes
  have hdigits : ¬ ∀ c ∈ "٣".toList, Text.isDigit c = true := fun h =>
    absurd (List.all_eq_true.2 h) (by decide)
  exact ⟨hquoted, (((ofWord?_ofText_agree "'AND'").2.1 hquoted).1 "AND").2 hquotes, hbare,
    ((ofWord?_ofText_agree "٣").2.1 hbare).2.2.2 ⟨hunquoted, hdigits⟩⟩

end Token

end Rulebook
