import Rulebook.Proofs.Words

/-!
# Words as segments

The words of a text cut it up, and nothing is lost but blanks. `Segments` says of a text and some
words that they fit together: the text is made of the words in their order, with blanks anywhere
between them, and a run of characters that is a word ends where the text ends or where a blank or a
parenthesis follows. This module proves that every text has exactly one such segmentation, and that
`words` finds it (`segments_iff`). All else is read off it:

* the words have the form of words, and put together they are the text without its blanks;
* a parenthesis, or a longest run of characters that end no word, is one word, and stands behind the
  words of what is in front of it (`wordsFrom_piece`);
* words that are set apart by blanks are found again (`words_of_setApart`).

There is a plainer way to find the words: set every parenthesis between two blanks, and cut the text
at its blanks. It comes to the same (`wordsFrom_eq_fieldsFrom`).
-/

namespace Rulebook.Token

/-! ### Segments -/

/-- Some characters none of which ends a word. -/
def IsRun (w : List Char) : Prop :=
  w ≠ [] ∧ ∀ c ∈ w, endsWord c = false

/-- A run can be checked character by character. -/
theorem isRun_of_all {w : List Char} (hne : w ≠ []) (h : w.all (fun c => !endsWord c) = true) :
    IsRun w :=
  ⟨hne, fun c hc => by simpa using List.all_eq_true.1 h c hc⟩

/-- The text is made of the words and of blanks, and no run that is a word could be longer. -/
inductive Segments : List Char → List (List Char) → Prop where
  | nil : Segments [] []
  /-- A blank belongs to no word. -/
  | blank {c : Char} {cs : List Char} {ws : List (List Char)} (hc : Text.isBlank c = true)
    (h : Segments cs ws) : Segments (c :: cs) ws
  /-- A parenthesis is a word. -/
  | paren {c : Char} {cs : List Char} {ws : List (List Char)} (hc : c = '(' ∨ c = ')')
    (h : Segments cs ws) : Segments (c :: cs) ([c] :: ws)
  /-- A run is a word if nothing could be added to it. -/
  | run {w cs : List Char} {ws : List (List Char)} (hw : IsRun w) (hcs : Detached cs)
    (h : Segments cs ws) : Segments (w ++ cs) (w :: ws)

/-- There are two parentheses. -/
theorem isParen_iff {c : Char} : isParen c = true ↔ c = '(' ∨ c = ')' := by
  simp [isParen]

/-- The words that a text is made of have the form of words. -/
theorem Segments.isWord {cs : List Char} {ws : List (List Char)} (h : Segments cs ws) :
    ∀ w ∈ ws, IsWord w := by
  induction h with
  | nil => simp
  | blank hc h ih => exact ih
  | paren hc h ih =>
    intro w hw
    rcases List.mem_cons.1 hw with rfl | hw
    · rcases hc with rfl | rfl
      · exact .inl rfl
      · exact .inr (.inl rfl)
    · exact ih w hw
  -- a run has the form of a word by itself
  | run hv hcs h ih =>
    intro w hw
    rcases List.mem_cons.1 hw with rfl | hw
    · exact .inr (.inr hv)
    · exact ih w hw

/-- Nothing is lost but blanks. -/
theorem Segments.flatten_eq {cs : List Char} {ws : List (List Char)} (h : Segments cs ws) :
    ws.flatten = cs.filter fun c => !Text.isBlank c := by
  induction h with
  | nil => rfl
  | blank hc h ih => simpa [hc] using ih
  | @paren c cs ws hc h ih =>
    have hblank : Text.isBlank c = false := by
      rcases hc with rfl | rfl <;> rfl
    simpa [hblank] using ih
  | @run w cs ws hw hcs h ih =>
    -- a run has no blanks
    have hkept : w.filter (fun c => !Text.isBlank c) = w := by
      refine List.filter_eq_self.2 fun c hc => ?_
      have hfalse := hw.2 c hc
      simp only [endsWord, Bool.or_eq_false_iff] at hfalse
      rw [hfalse.1]
      rfl
    rw [List.flatten_cons, ih, List.filter_append, hkept]

/-- A run that was gathered is a word in front of a text that is detached from it. -/
theorem segments_endWord {gathered cs : List Char} {ws : List (List Char)}
    (hg : ∀ c ∈ gathered, endsWord c = false) (hcs : Detached cs) (h : Segments cs ws) :
    Segments (gathered.reverse ++ cs) (endWord gathered ws) := by
  -- if nothing was gathered, no word ends here
  by_cases hnil : gathered = []
  · subst hnil
    exact h
  · have hrun : IsRun gathered.reverse :=
      ⟨by simpa using hnil, fun c hc => hg c (List.mem_reverse.1 hc)⟩
    have hwords := endWord_reverse hrun.1 ws
    rw [List.reverse_reverse] at hwords
    rw [hwords]
    exact .run hrun hcs h

/-- The words that are found make up the text, with the characters that were gathered before. -/
theorem segments_wordsFrom (cs : List Char) :
    ∀ gathered : List Char, (∀ c ∈ gathered, endsWord c = false) →
      Segments (gathered.reverse ++ cs) (wordsFrom gathered cs) := by
  induction cs with
  | nil =>
    intro gathered hg
    exact segments_endWord hg detached_nil .nil
  | cons c cs ih =>
    intro gathered hg
    have hrest : Segments cs (wordsFrom [] cs) := ih [] (by simp)
    rw [wordsFrom]
    split
    · next hblank =>
      have hdetached : Detached (c :: cs) := detached_cons (by simp [endsWord, hblank]) cs
      exact segments_endWord hg hdetached (.blank hblank hrest)
    · split
      · next hparen =>
        have hdetached : Detached (c :: cs) := detached_cons (by simp [endsWord, hparen]) cs
        exact segments_endWord hg hdetached (.paren (isParen_iff.1 hparen) hrest)
      · next hblank hparen =>
        -- the character is gathered in front of the others
        have hmore : ∀ d ∈ c :: gathered, endsWord d = false := by
          intro d hd
          rcases List.mem_cons.1 hd with rfl | hd
          · simp [endsWord, hblank, hparen]
          · exact hg d hd
        simpa using ih (c :: gathered) hmore

/-- A blank in front of a text does not change its words. -/
theorem wordsFrom_of_isBlank {c : Char} (hc : Text.isBlank c = true) (cs : List Char) :
    wordsFrom [] (c :: cs) = wordsFrom [] cs := by
  rw [wordsFrom, if_pos hc, endWord_nil]

/-- **A text has one segmentation**, and it is the one into its words. -/
theorem segments_iff {cs : List Char} {ws : List (List Char)} :
    Segments cs ws ↔ ws = wordsFrom [] cs := by
  constructor
  · intro h
    induction h with
    | nil => rfl
    | blank hc h ih => rw [wordsFrom_of_isBlank hc, ih]
    | paren hc h ih => rw [wordsFrom_paren hc, ih]
    -- a run is found whole because what follows it is detached
    | run hw hcs h ih => rw [wordsFrom_word (.inr (.inr hw)) hcs, ih]
  · rintro rfl
    exact segments_wordsFrom cs [] (by simp)

/-! ### Pieces of a text -/

/-- What stands between the two texts is a parenthesis, or a run that goes on on neither side. -/
inductive IsPiece (before piece after : List Char) : Prop where
  | paren (h : piece = ['('] ∨ piece = [')'])
  | run (h : IsRun piece) (hbefore : ∀ c ∈ before.getLast?, endsWord c = true)
    (hafter : Detached after)

/-- Behind a character that ends a word, a text has the words that it has by itself. -/
theorem wordsFrom_cons_endsWord {c : Char} (hc : endsWord c = true) (cs : List Char) :
    wordsFrom [] (c :: cs) = wordsFrom [] [c] ++ wordsFrom [] cs := by
  by_cases hblank : Text.isBlank c = true
  · rw [wordsFrom_of_isBlank hblank, wordsFrom_of_isBlank hblank]
    rfl
  · have hparen : c = '(' ∨ c = ')' := by simpa [endsWord, hblank, isParen] using hc
    rw [wordsFrom_paren hparen, wordsFrom_paren hparen]
    rfl

/-- Behind a text that is empty or ends with a character that ends words, a text has the words that
it has by itself. -/
theorem wordsFrom_append_of_getLast? {before : List Char}
    (h : ∀ c ∈ before.getLast?, endsWord c = true) (cs : List Char) :
    wordsFrom [] (before ++ cs) = wordsFrom [] before ++ wordsFrom [] cs := by
  rcases List.eq_nil_or_concat before with rfl | ⟨front, c, hfront⟩
  · rfl
  · rw [List.concat_eq_append] at hfront
    subst hfront
    have hc : endsWord c = true := h c (by simp)
    -- the character in front ends a word on its left as well as on its right
    have hsingle : Detached [c] := detached_cons hc []
    calc wordsFrom [] (front ++ [c] ++ cs)
        = wordsFrom [] (front ++ c :: cs) := by rw [List.append_assoc, List.singleton_append]
      _ = wordsFrom [] front ++ wordsFrom [] (c :: cs) :=
          wordsFrom_append_detached (detached_cons hc cs) [] front
      _ = wordsFrom [] front ++ wordsFrom [] [c] ++ wordsFrom [] cs := by
          rw [wordsFrom_cons_endsWord hc, List.append_assoc]
      _ = wordsFrom [] (front ++ [c]) ++ wordsFrom [] cs := by
          rw [← wordsFrom_append_detached hsingle]

/-- **A piece is a word**, behind the words in front of it. -/
theorem wordsFrom_piece {before piece after : List Char} (h : IsPiece before piece after) :
    wordsFrom [] (before ++ piece ++ after) =
      wordsFrom [] before ++ piece :: wordsFrom [] after := by
  rw [List.append_assoc]
  cases h with
  | paren h =>
    obtain ⟨c, rfl, hc⟩ : ∃ c, piece = [c] ∧ (c = '(' ∨ c = ')') := by
      rcases h with rfl | rfl
      · exact ⟨'(', rfl, .inl rfl⟩
      · exact ⟨')', rfl, .inr rfl⟩
    have hends : endsWord c = true := by
      rcases hc with rfl | rfl <;> rfl
    rw [List.singleton_append, wordsFrom_append_detached (detached_cons hends after),
      wordsFrom_paren hc]
  | run hrun hbefore hafter =>
    rw [wordsFrom_append_of_getLast? hbefore, wordsFrom_word (.inr (.inr hrun)) hafter]

/-! ### Words that are set apart -/

/-- The text consists of the words in their order, with one or more blanks between any two that are
neighbours. -/
inductive SetApart : List String → String → Prop where
  | none : SetApart [] ""
  | one (w : String) : SetApart [w] w
  | more (w gap : String) {v : String} {ws : List String} {text : String} (hgap : gap ≠ "")
    (hblank : ∀ c ∈ gap.toList, Text.isBlank c = true) (h : SetApart (v :: ws) text) :
    SetApart (w :: v :: ws) (w ++ gap ++ text)

/-- Blanks in front of a text do not change its words. -/
theorem wordsFrom_append_of_blank {gap : List Char} (h : ∀ c ∈ gap, Text.isBlank c = true)
    (cs : List Char) : wordsFrom [] (gap ++ cs) = wordsFrom [] cs := by
  induction gap with
  | nil => rfl
  | cons c gap ih =>
    rw [List.cons_append, wordsFrom_of_isBlank (h c List.mem_cons_self)]
    exact ih fun d hd => h d (List.mem_cons_of_mem _ hd)

/-- A text that is blanks at first is detached. -/
theorem detached_append {gap : List Char} (hne : gap ≠ [])
    (h : ∀ c ∈ gap, Text.isBlank c = true) (cs : List Char) : Detached (gap ++ cs) := by
  cases gap with
  | nil => exact absurd rfl hne
  | cons c gap =>
    have hc : endsWord c = true := by rw [endsWord, h c List.mem_cons_self, Bool.true_or]
    exact detached_cons hc (gap ++ cs)

/-- The words of a rule are those of its characters. -/
theorem toList_words (rule : String) :
    (words rule).map String.toList = wordsFrom [] rule.toList := by
  rw [words, List.map_map]
  have hid : String.toList ∘ String.ofList = id := funext fun _ => String.toList_ofList
  rw [hid, List.map_id]

/-- Words can be compared by their characters. -/
theorem words_eq_iff {rule : String} {ws : List String} :
    words rule = ws ↔ wordsFrom [] rule.toList = ws.map String.toList := by
  rw [← toList_words, List.map_inj_right fun _ _ => String.toList_inj.1]

/-- **Words that are set apart are found again.** -/
theorem words_of_setApart {ws : List String} {text : String} (h : SetApart ws text)
    (hws : ∀ w ∈ ws, IsWord w.toList) : words text = ws := by
  rw [words_eq_iff]
  induction h with
  | none => rfl
  | one w =>
    have hw := wordsFrom_word (hws w List.mem_cons_self) detached_nil
    rwa [List.append_nil] at hw
  | @more w gap v ws text hgap hblank h ih =>
    have hgap : gap.toList ≠ [] := fun hnil => hgap (String.toList_eq_nil_iff.1 hnil)
    have hw := hws w List.mem_cons_self
    have hrest := ih fun u hu => hws u (List.mem_cons_of_mem _ hu)
    -- the first word ends where the gap begins, and the gap has no words
    rw [String.toList_append, String.toList_append, List.append_assoc,
      wordsFrom_word hw (detached_append hgap hblank _), wordsFrom_append_of_blank hblank, hrest]
    rfl

/-! ### Cutting at blanks -/

/-- The text with a blank on both sides of every character `p`. -/
def padded (p : Char) (cs : List Char) : List Char :=
  cs.flatMap fun c => if c = p then [' ', c, ' '] else [c]

/-- The longest parts of the text that have no blanks. -/
def fields (cs : List Char) : List (List Char) :=
  (cs.splitOnP Text.isBlank).filter fun w => !w.isEmpty

/-- The fields of a text in front of which some characters were gathered. -/
def fieldsFrom (gathered cs : List Char) : List (List Char) :=
  ((cs.splitOnP Text.isBlank).modifyHead (gathered.reverse ++ ·)).filter fun w => !w.isEmpty

theorem fieldsFrom_nil (cs : List Char) : fieldsFrom [] cs = fields cs := by
  have hid : (fun w : List Char => [].reverse ++ w) = id := rfl
  rw [fieldsFrom, hid, List.modifyHead_id]
  rfl

/-- A blank ends what was gathered. -/
theorem fieldsFrom_blank {c : Char} (hc : Text.isBlank c = true) (gathered cs : List Char) :
    fieldsFrom gathered (c :: cs) = endWord gathered (fields cs) := by
  rw [fieldsFrom, List.splitOnP_cons_eq_if_modifyHead, if_pos hc, List.modifyHead_cons,
    List.append_nil, List.filter_cons, ← fields, endWord]
  cases gathered <;> simp

/-- Any other character is gathered. -/
theorem fieldsFrom_cons {c : Char} (hc : Text.isBlank c = false) (gathered cs : List Char) :
    fieldsFrom gathered (c :: cs) = fieldsFrom (c :: gathered) cs := by
  rw [fieldsFrom, List.splitOnP_cons_eq_if_modifyHead, if_neg (by simp [hc]),
    List.modifyHead_modifyHead, fieldsFrom]
  congr 2
  funext w
  simp

/-- The text with a blank on both sides of every parenthesis. -/
def spaced (cs : List Char) : List Char :=
  padded ')' (padded '(' cs)

/-- A parenthesis is set between blanks. -/
theorem spaced_paren {c : Char} (hc : c = '(' ∨ c = ')') (cs : List Char) :
    spaced (c :: cs) = ' ' :: c :: ' ' :: spaced cs := by
  rcases hc with rfl | rfl <;> rfl

/-- Any other character stays as it is. -/
theorem spaced_cons {c : Char} (hc : isParen c = false) (cs : List Char) :
    spaced (c :: cs) = c :: spaced cs := by
  simp only [isParen, Bool.or_eq_false_iff, decide_eq_false_iff_not] at hc
  simp [spaced, padded, hc.1, hc.2]

/-- The words are the fields of the text in which the parentheses are set between blanks. -/
theorem wordsFrom_eq_fieldsFrom (gathered cs : List Char) :
    wordsFrom gathered cs = fieldsFrom gathered (spaced cs) := by
  induction cs generalizing gathered with
  | nil =>
    change endWord gathered [] = (([[]].modifyHead (gathered.reverse ++ ·)).filter _)
    cases gathered <;> simp [endWord]
  | cons c cs ih =>
    have hwords : wordsFrom [] cs = fields (spaced cs) := (ih []).trans (fieldsFrom_nil _)
    rw [wordsFrom]
    split
    · next hblank =>
      -- no parenthesis is blank
      have hparen : isParen c = false := by
        cases hp : isParen c with
        | false => rfl
        | true => rcases isParen_iff.1 hp with rfl | rfl <;> cases hblank
      rw [spaced_cons hparen, fieldsFrom_blank hblank, hwords]
    · next hblank =>
      split
      · next hparen =>
        -- the blank in front ends what was gathered, and the one behind ends the parenthesis
        rw [spaced_paren (isParen_iff.1 hparen), fieldsFrom_blank rfl, ← fieldsFrom_nil,
          fieldsFrom_cons (by simpa using hblank), fieldsFrom_blank rfl, hwords]
        rfl
      · next hparen =>
        -- any other character is gathered on both sides
        rw [spaced_cons (by simpa using hparen), fieldsFrom_cons (by simpa using hblank), ih]

/-! ### The segmentation of a rule -/

/-- **Every text has one segmentation, into its words, and loses nothing but blanks.** Its words
have the form of words, and put together they are the text without its blanks. Each parenthesis and
each longest run is one word, in its place among the others. Words that blanks set apart are found
again. They are the fields of the text once its parentheses are set between blanks, and no other
words segment it. -/
theorem words_segment (rule : String) :
    (∀ w ∈ words rule, IsWord w.toList) ∧
    String.join (words rule) =
      String.ofList (rule.toList.filter fun c => !Text.isBlank c) ∧
    (∀ before piece after : String, rule = before ++ piece ++ after →
      IsPiece before.toList piece.toList after.toList →
        words rule = words before ++ piece :: words after) ∧
    (∀ ws : List String, (∀ w ∈ ws, IsWord w.toList) → SetApart ws rule → words rule = ws) ∧
    (∀ ws : List String, Segments rule.toList (ws.map String.toList) ↔ ws = words rule) ∧
    (words rule).map String.toList = fields (padded ')' (padded '(' rule.toList)) := by
  have hsegments : Segments rule.toList ((words rule).map String.toList) :=
    segments_iff.2 (toList_words rule)
  refine ⟨fun w hw => ?_, ?_, ?_, fun ws hws h => words_of_setApart h hws, fun ws => ?_, ?_⟩
  · exact hsegments.isWord w.toList (List.mem_map_of_mem hw)
  · rw [← hsegments.flatten_eq, ← List.flatMap_def, ← String.toList_join, String.ofList_toList]
  · rintro before piece after rfl hpiece
    rw [words_eq_iff, String.toList_append, String.toList_append, wordsFrom_piece hpiece,
      List.map_append, List.map_cons, toList_words, toList_words]
  · -- the words are the one segmentation
    rw [segments_iff, eq_comm, ← words_eq_iff, eq_comm]
  · rw [toList_words, wordsFrom_eq_fieldsFrom, fieldsFrom_nil]
    rfl

/-- A run between parentheses is one word, and words that are set apart by wide blanks are found
again. -/
theorem words_segment_wideBlanks :
    IsPiece "((".toList "ä>b".toList ")\u3000 c".toList ∧
    words "((ä>b)\u3000 c" = words "((" ++ "ä>b" :: words ")\u3000 c" ∧
    SetApart ["(", "ä", ")"] "(\u2003ä \t)" ∧ words "(\u2003ä \t)" = ["(", "ä", ")"] := by
  have hrun : IsRun "ä>b".toList := isRun_of_all (by decide) (by decide)
  have hpiece : IsPiece "((".toList "ä>b".toList ")\u3000 c".toList :=
    .run hrun (fun c hc => by cases hc; rfl) (detached_cons rfl _)
  have hapart : SetApart ["(", "ä", ")"] "(\u2003ä \t)" :=
    .more "(" "\u2003" (by decide) (List.all_eq_true.1 (by decide))
      (.more "ä" " \t" (by decide) (List.all_eq_true.1 (by decide)) (.one ")"))
  have hwords : ∀ w ∈ ["(", "ä", ")"], IsWord w.toList := by
    intro w hw
    simp only [List.mem_cons, List.not_mem_nil, or_false] at hw
    rcases hw with rfl | rfl | rfl
    · exact .inl rfl
    · exact .inr (.inr (isRun_of_all (by decide) (by decide)))
    · exact .inr (.inl rfl)
  exact ⟨hpiece, (words_segment _).2.2.1 "((" "ä>b" ")\u3000 c" rfl hpiece, hapart,
    (words_segment _).2.2.2.1 ["(", "ä", ")"] hwords hapart⟩

end Rulebook.Token
