import Mathlib.Data.List.TakeWhile
import Rulebook.Proofs.Settings.Load

/-!
# Texts from variables

A setting that is a text arrives as it stands in its variable, unless it can be read as a truth
value or as a number (`Settings.load_text_of_variable`): then the setting is the text of this value,
which may be spelled in another way, as `7` for `007` (`Settings.not_load_text_verbatim`).

A text with a character that numbers do not have always arrives as it stands, if it is not one of
the few words for truth values and special numbers (`Variables.Arrives.eq_of_isNotable`).
-/

namespace Rulebook

namespace Setting

variable {p : List String} {s v : Setting} {es : List (String × Setting)}

/-- Once a setting stands where names lead, it is there in the end or has been put away by others
inside, if nothing else is put there. -/
theorem at?_layer_of_mem {e : String × Setting} (he : e ∈ es) (hsteps : stepsOf e.1 = p.map .key)
    (hes : ∀ e' ∈ es, ¬ e'.2.IsTable ∧ KeepsTables p (stepsOf e'.1) e'.2 ∧
      (stepsOf e'.1 = p.map .key → e'.2 = e.2)) (base : Setting) :
    at? p (layer base es) = some e.2 ∨ ∃ c, c.IsCompound ∧ at? p (layer base es) = some c := by
  -- the entry itself brings this about, and every entry keeps it
  have hself : ∀ s, ∀ e' ∈ es, stepsOf e'.1 = p.map .key → at? p (putEntry s e') = some e.2 := by
    intro s e' he' hsteps'
    obtain ⟨hv, -, hval⟩ := hes e' he'
    have hput : putEntry s e' = change (fun lower => overlay lower e'.2) (p.map .key) s := by
      rw [← hsteps']
      rfl
    rw [hput, at?_change_self, overlay_of_not_isTable hv, hval hsteps']
  have hkeep : ∀ s, ∀ e' ∈ es, (at? p s = some e.2 ∨ ∃ c, c.IsCompound ∧ at? p s = some c) →
      at? p (putEntry s e') = some e.2 ∨ ∃ c, c.IsCompound ∧ at? p (putEntry s e') = some c := by
    intro s e' he' hs
    obtain ⟨hv, hkeeps, -⟩ := hes e' he'
    by_cases hsteps' : stepsOf e'.1 = p.map .key
    · exact .inl (hself s e' he' hsteps')
    · -- another entry leaves the setting, or puts others into its place
      rcases hs with hs | ⟨c, hc, hs⟩
      · exact at?_change_of_ne hv hkeeps hsteps' hs
      · rcases at?_change_of_ne hv hkeeps hsteps' hs with h | h
        · exact .inr ⟨c, hc, h⟩
        · exact .inr h
  obtain ⟨before, after, rfl⟩ := List.append_of_mem he
  -- of what comes before the entry nothing is left
  rw [layer, List.foldl_append, List.foldl_cons]
  exact List.foldlRecOn after putEntry (.inl (hself _ e he hsteps)) fun s hs e' he' =>
    hkeep s e' (List.mem_append_right _ (List.mem_cons_of_mem e he')) hs

/-- What has a setting inside is a table. -/
theorem isTable_of_at?_pair {name field : String} {x : Setting} (h : at? [name, field] s = some x) :
    ∀ y ∈ at? [name] s, y.IsTable := by
  intro y hy
  obtain ⟨inner, hinner, hfield⟩ := Option.bind_eq_some_iff.1 h
  rw [at?_singleton, hinner] at hy
  cases hy
  rw [at?_singleton] at hfield
  cases y with
  | table es => exact ⟨es, rfl⟩
  | _ => cases hfield

end Setting

namespace Variables

open Setting (lowered)

/-! ### What values are read as -/

/-- The text that arrives where a text is due and the variable has the value `text`. -/
inductive Arrives (text : String) : String → Prop
  /-- A truth value, in letters of any case. -/
  | truth (b : Bool) (h : lowered text = toString b) : Arrives text (toString b)
  /-- A whole number of 64 bits, perhaps with a sign and with zeros in front. -/
  | whole {i : Int64} (h : Text.int64? text.toList = some i) : Arrives text (Text.ofInt i.toInt)
  /-- Another number. -/
  | number {x : Binary64} (hwhole : Text.int64? text.toList = none)
      (h : Binary64.ofText? text.toList = some x) : Arrives text x.text
  /-- Anything else. -/
  | verbatim (htruth : ∀ b : Bool, lowered text ≠ toString b)
      (hwhole : Text.int64? text.toList = none) (h : Binary64.ofText? text.toList = none) :
      Arrives text text

/-- The text of a setting that a value makes. -/
theorem exists_toText?_setting (text : String) :
    ∃ t, (setting text).toText? = some t ∧ Arrives text t := by
  unfold setting
  dsimp only
  -- in the order in which a value is looked at: truth values, whole numbers, other numbers
  by_cases htrue : lowered text = "true"
  · rw [if_pos htrue]
    exact ⟨_, rfl, .truth true htrue⟩
  rw [if_neg htrue]
  by_cases hfalse : lowered text = "false"
  · rw [if_pos hfalse]
    exact ⟨_, rfl, .truth false hfalse⟩
  rw [if_neg hfalse]
  cases hwhole : Text.int64? text.toList with
  | some i => exact ⟨_, rfl, .whole hwhole⟩
  | none =>
    cases hnumber : Binary64.ofText? text.toList with
    | some x => exact ⟨_, rfl, .number hwhole hnumber⟩
    | none =>
      refine ⟨_, rfl, .verbatim (fun b => ?_) hwhole hnumber⟩
      cases b
      · exact hfalse
      · exact htrue

/-- A value never makes a table. -/
theorem not_isTable_setting (text : String) : ¬ (setting text).IsTable := by
  obtain ⟨t, ht, -⟩ := exists_toText?_setting text
  rintro ⟨es, hes⟩
  rw [hes] at ht
  cases ht

/-! ### Texts that do not look like numbers -/

/-- The character occurs in numbers other than the special ones. -/
def isNumberChar (c : Char) : Bool :=
  Text.isDigit c || ['+', '-', '.', 'e', 'E'].contains c

/-- The words that stand for truth values and for special numbers, in small letters. -/
def words : List String := ["true", "false", "nan", "inf", "infinity"]

/-- The text is none of the words, with a sign or without, and has a character that does not occur
in numbers. -/
def IsNotable (text : String) : Prop :=
  (∀ w ∈ words, lowered text ≠ w ∧ lowered (String.ofList (Text.cutSign text.toList).2) ≠ w) ∧
    ∃ c ∈ text.toList, isNumberChar c = false

instance (text : String) : Decidable (IsNotable text) :=
  -- a search among the characters of the text, not among all of them
  letI := List.decidableBEx (fun c => isNumberChar c = false) text.toList
  inferInstanceAs (Decidable ((∀ w ∈ words, _) ∧ _))

theorem isNumberChar_of_isDigit {c : Char} (h : Text.isDigit c = true) : isNumberChar c = true := by
  rw [isNumberChar, h, Bool.true_or]

theorem isNumberChar_of_cutSign {cs : List Char}
    (h : ∀ c ∈ (Text.cutSign cs).2, isNumberChar c = true) : ∀ c ∈ cs, isNumberChar c = true := by
  unfold Text.cutSign at h
  split at h
  · exact List.forall_mem_cons.2 ⟨rfl, h⟩
  · exact List.forall_mem_cons.2 ⟨rfl, h⟩
  · exact h

/-- All of a run of digits occurs in numbers. -/
theorem isNumberChar_of_natOfDigits? {cs : List Char} {n : Nat}
    (h : Text.natOfDigits? cs = some n) : ∀ c ∈ cs, isNumberChar c = true := by
  obtain ⟨⟨-, hdigits⟩, -⟩ := Text.natOfDigits?_eq_some_iff.1 h
  rw [String.toList_ofList] at hdigits
  exact fun c hc => isNumberChar_of_isDigit (hdigits c hc)

/-- All of a whole number occurs in numbers. -/
theorem isNumberChar_of_intOfNumeral? {cs : List Char} {i : Int}
    (h : Text.intOfNumeral? cs = some i) : ∀ c ∈ cs, isNumberChar c = true := by
  obtain ⟨n, hn, -⟩ := Option.map_eq_some_iff.1 h
  exact isNumberChar_of_cutSign (isNumberChar_of_natOfDigits? hn)

/-- A text has the digits in front and what follows them. -/
theorem isNumberChar_of_drop {cs : List Char}
    (h : ∀ c ∈ cs.drop (cs.takeWhile Text.isDigit).length, isNumberChar c = true) :
    ∀ c ∈ cs, isNumberChar c = true := by
  have hparts := List.prefix_iff_eq_append.1 (List.takeWhile_prefix Text.isDigit (l := cs))
  intro c hc
  rw [← hparts, List.mem_append] at hc
  rcases hc with hdigit | hrest
  · exact isNumberChar_of_isDigit (List.mem_takeWhile_imp hdigit)
  · exact h c hrest

/-- Behind the digits of a number there is nothing more, or an exponent. -/
theorem isNumberChar_of_exponent {cs : List Char} {o : Option Binary64} {f : Int → Binary64}
    {x : Binary64} (h : (match cs with
      | [] => o
      | c :: cs => if c = 'e' ∨ c = 'E' then (Text.intOfNumeral? cs).map f else none) = some x) :
    ∀ c ∈ cs, isNumberChar c = true := by
  cases cs with
  | nil => exact nofun
  | cons c cs =>
    dsimp only at h
    split at h
    · next hc =>
      obtain ⟨i, hi, -⟩ := Option.map_eq_some_iff.1 h
      refine List.forall_mem_cons.2 ⟨?_, isNumberChar_of_intOfNumeral? hi⟩
      rcases hc with rfl | rfl <;> rfl
    · cases h

/-- All of a decimal number occurs in numbers. -/
theorem isNumberChar_of_ofUnsigned? {negative : Bool} {cs : List Char} {x : Binary64}
    (h : Binary64.ofUnsigned? negative cs = some x) : ∀ c ∈ cs, isNumberChar c = true := by
  refine isNumberChar_of_drop ?_
  unfold Binary64.ofUnsigned? at h
  dsimp only at h
  generalize cs.drop (cs.takeWhile Text.isDigit).length = rest at h ⊢
  split at h
  · -- a point with digits behind it
    split at h
    · cases h
    · intro c hc
      rcases List.mem_cons.1 hc with rfl | hc
      · rfl
      · exact isNumberChar_of_drop (isNumberChar_of_exponent h) c hc
  · split at h
    · cases h
    · exact isNumberChar_of_exponent h

/-- A notable text arrives as it stands. -/
theorem Arrives.eq_of_isNotable {text t : String} (h : Arrives text t) (hnotable : IsNotable text) :
    t = text := by
  obtain ⟨hwords, c, hc, hchar⟩ := hnotable
  cases h with
  | truth b htruth =>
    cases b with
    | true => exact absurd htruth (hwords "true" (by decide)).1
    | false => exact absurd htruth (hwords "false" (by decide)).1
  -- the notable character would occur in a number
  | whole hwhole =>
    obtain ⟨i, hi, -⟩ := Option.bind_eq_some_iff.1 hwhole
    rw [isNumberChar_of_intOfNumeral? hi c hc] at hchar
    cases hchar
  -- special numbers are words, which a notable text is not, and the others are made of number
  -- characters
  | number _ hnumber =>
    have hspecial : ∀ w ∈ words,
        String.ofList ((Text.cutSign text.toList).2.map Char.toLower) ≠ w := by
      intro w hw
      have hsign := (hwords w hw).2
      rwa [lowered, String.toList_ofList] at hsign
    unfold Binary64.ofText? Binary64.ofMagnitude? at hnumber
    dsimp only at hnumber
    rw [if_neg (hspecial "nan" (by decide)), if_neg] at hnumber
    · rw [isNumberChar_of_cutSign (isNumberChar_of_ofUnsigned? hnumber) c hc] at hchar
      cases hchar
    · rintro (h | h)
      · exact hspecial "inf" (by decide) h
      · exact hspecial "infinity" (by decide) h
  | verbatim => rfl

/-! ### Variables of settings -/

/-- The variable makes the setting to which the names lead. -/
def LeadsTo (name : String) (path : List String) : Prop :=
  ∃ n ∈ settingName? name, Setting.stepsOf n = path.map .key

instance (name : String) (path : List String) : Decidable (LeadsTo name path) :=
  match h : settingName? name with
  | some n => decidable_of_iff (Setting.stepsOf n = path.map .key)
    ⟨fun hn => ⟨n, h, hn⟩, fun ⟨_, hn', hn⟩ => by cases h.symm.trans hn'; exact hn⟩
  | none => .isFalse fun ⟨_, hn, _⟩ => nomatch h.symm.trans hn

/-- A variable with a name for a setting makes a setting of its value. -/
theorem mem_settings_iff {vs : Variables} {e : String × Setting} : e ∈ vs.settings ↔
    ∃ v ∈ vs, settingName? v.1 = some e.1 ∧ e.2 = setting v.2 := by
  simp only [settings, List.mem_filterMap, Option.map_eq_some_iff]
  constructor
  · rintro ⟨v, hv, n, hn, rfl⟩
    exact ⟨v, hv, hn, rfl⟩
  · rintro ⟨v, hv, hn, he⟩
    exact ⟨v, hv, e.1, hn, by rw [← he]⟩

end Variables

/-- The name of the variable that sets a leaf. -/
def Leaf.variable (l : Leaf) : String :=
  "RULES_" ++ String.ofList
    ((List.intercalate ['_', '_'] (l.path.map String.toList)).map Char.toUpper)

/-- The leaves that are texts. -/
def Leaf.texts : List Leaf := [.service, .environment, .host, .url, .level]

/-- The text that a leaf is set to, if it is a text. -/
def Leaf.text? (s : Settings) : Leaf → Option String
  | .service => some s.service
  | .environment => some s.environment
  | .host => some s.server.host
  | .url => some s.database.url
  | .level => some s.log.level
  | _ => none

/-- What a leaf is set to is a text, if it is a leaf of texts. -/
theorem Leaf.toText?_of_convert {l : Leaf} (hl : l ∈ texts) {s : Settings} {v : Setting}
    (h : l.convert v = some (l.get s)) : v.toText? = l.text? s := by
  cases l with
  | service | environment | host | url | level => exact h
  | _ => exact absurd hl (by decide)

/-- The port is no text. -/
theorem Leaf.text?_withPort (l : Leaf) (s : Settings) (port? : Option Nat) :
    l.text? (s.withPort port?) = l.text? s := by
  cases port? with
  | none => rfl
  | some port => cases l <;> rfl

namespace Settings

/-- What is loaded is read from all layers below the variables, and from the variables over them. -/
theorem exists_base_of_load {service : String} {w : Surroundings} {s : Settings}
    (h : load service w = .ok s) : ∃ base s₀,
      ofTable? (Setting.layer base w.allVariables.settings) = some s₀ ∧
      (∃ es, Setting.layer base w.allVariables.settings = .table es) ∧
      s = s₀.withPort (servicePort? w.allVariables service) := by
  obtain ⟨ls, s₀, hls, hs, hport⟩ := load_eq_ok h
  obtain ⟨common, ofEnvironment, ofService, -, -, -, rfl⟩ := layers_eq_ok hls
  exact ⟨_, s₀, hs, Setting.exists_layers_eq_table [_, _, _, _, _] [], hport⟩

/-- **A text arrives from its variable.** It is the text as it stands, or if this can be read as a
truth value or as a number, then the text of this value. As it stands arrives each text with a
character that does not occur in numbers, apart from a few words. No other variable may set the
same, and none may make the section of the setting something else than a table. -/
theorem load_text_of_variable {service : String} {w : Surroundings} {s : Settings} {l : Leaf}
    {name text : String} (hload : load service w = .ok s) (hl : l ∈ Leaf.texts)
    (hset : (name, text) ∈ w.allVariables) (hname : Variables.LeadsTo name l.path)
    (honly : ∀ v ∈ w.allVariables, Variables.LeadsTo v.1 l.path → v = (name, text))
    (hsection : ∀ e ∈ w.allVariables.settings, ∀ outer ∈ l.path.dropLast,
      Setting.KeepsSection outer e) :
    ∃ t, l.text? s = some t ∧ Variables.Arrives text t ∧ (Variables.IsNotable text → t = text) := by
  obtain ⟨base, s₀, hs, ⟨es, hes⟩, rfl⟩ := exists_base_of_load hload
  obtain ⟨n, hn, hsteps⟩ := hname
  have hmem : (n, Variables.setting text) ∈ w.allVariables.settings :=
    Variables.mem_settings_iff.2 ⟨_, hset, hn, rfl⟩
  -- in the end there is the setting of the variable, or else one that has others inside
  have hat := Setting.at?_layer_of_mem hmem hsteps (fun e he => by
    obtain ⟨v, hv, hvn, hval⟩ := Variables.mem_settings_iff.1 he
    refine ⟨hval ▸ Variables.not_isTable_setting v.2, keepsTables_path l (hsection e he),
      fun h => ?_⟩
    rw [hval, honly v hv ⟨e.1, hvn, h⟩]) base
  -- whatever stands there in the end is what the leaf has been read from
  have hread : ∀ r, Setting.at? l.path (Setting.layer base w.allVariables.settings) = some r →
      r.toText? = l.text? s₀ := by
    intro r hr
    have htable : ∀ outer ∈ l.path.dropLast,
        ∀ x ∈ Setting.at? [outer] (Setting.layer base w.allVariables.settings), x.IsTable := by
      intro outer houter
      cases l <;>
        simp only [Leaf.path, List.dropLast, List.mem_singleton, List.not_mem_nil] at houter
      all_goals exact houter ▸ Setting.isTable_of_at?_pair hr
    rw [hes] at hs htable hr
    have hreads := readsAt_of_ofTable? l htable hs
    rw [hr] at hreads
    exact Leaf.toText?_of_convert hl hreads
  obtain ⟨t, ht, harrives⟩ := Variables.exists_toText?_setting text
  rcases hat with hat | ⟨c, hc, hat⟩
  · refine ⟨t, ?_, harrives, harrives.eq_of_isNotable⟩
    rw [Leaf.text?_withPort, ← hread _ hat, ht]
  · -- what has others inside is no text, so nothing would have been loaded
    have hnone : c.toText? = none := by cases hc <;> rfl
    have htext : l.text? s₀ = none := (hread c hat).symm.trans hnone
    cases l with
    | service | environment | host | url | level => cases htext
    | _ => exact absurd hl (by decide)

/-- A host that begins with digits arrives as it stands, beside a variable for the port. -/
theorem load_text_of_variable_host :
    let w : Surroundings :=
      ⟨[("rules_server__host", "10.0.0.x"), ("RULES_SERVER__PORT", "81")], fun _ => none⟩
    let s : Settings := ⟨"rule-api-service", "development", .postgres, ⟨"10.0.0.x", 81⟩, {}, {}⟩
    load "rule-api-service" w = .ok s ∧ Leaf.host ∈ Leaf.texts ∧
      ("rules_server__host", "10.0.0.x") ∈ w.allVariables ∧
      Variables.LeadsTo "rules_server__host" Leaf.host.path ∧
      (∀ v ∈ w.allVariables, Variables.LeadsTo v.1 Leaf.host.path →
        v = ("rules_server__host", "10.0.0.x")) ∧
      (∀ e ∈ w.allVariables.settings, ∀ outer ∈ Leaf.host.path.dropLast,
        Setting.KeepsSection outer e) ∧
      Variables.IsNotable "10.0.0.x" ∧ ∃ t, Leaf.host.text? s = some t ∧ t = "10.0.0.x" := by
  intro w s
  have hload : load "rule-api-service" w = .ok s := by decide +kernel
  have hl : Leaf.host ∈ Leaf.texts := by decide
  have hset : ("rules_server__host", "10.0.0.x") ∈ w.allVariables := by decide
  have hname : Variables.LeadsTo "rules_server__host" Leaf.host.path := by decide
  have honly : ∀ v ∈ w.allVariables, Variables.LeadsTo v.1 Leaf.host.path →
      v = ("rules_server__host", "10.0.0.x") := by decide
  have hsection : ∀ e ∈ w.allVariables.settings, ∀ outer ∈ Leaf.host.path.dropLast,
      Setting.KeepsSection outer e := by decide +kernel
  have hnotable : Variables.IsNotable "10.0.0.x" := by decide
  obtain ⟨t, ht, -, hverbatim⟩ := load_text_of_variable hload hl hset hname honly hsection
  exact ⟨hload, hl, hset, hname, honly, hsection, hnotable, t, ht, hverbatim hnotable⟩

/-- Not every text arrives as it stands: a host `007` is loaded as `7`. -/
theorem not_load_text_verbatim :
    ¬ ∀ (service : String) (w : Surroundings) (s : Settings) (l : Leaf) (text t : String),
      load service w = .ok s → (l.variable, text) ∈ w.process → l.text? s = some t → t = text := by
  intro h
  have hload : load "rule-api-service" ⟨[("RULES_SERVER__HOST", "007")], fun _ => none⟩ =
      .ok ⟨"rule-api-service", "development", .postgres, ⟨"7", 8080⟩, {}, {}⟩ := by decide +kernel
  have heq := h _ _ _ .host "007" "7" hload (by decide) rfl
  exact absurd heq (by decide)

end Settings

end Rulebook
