import Rulebook.Proofs.Store.Chronicle

/-!
# What a catalogue answers

`Answers` says what each operation does after some calls, in terms of the calls alone: a catalogue
is a map from numbers to rules that hands out the numbers 1, 2, 3 and so on. `answers_ofCalls` is
the main result, that a catalogue answers in this way after any calls.

It is put together from what `Proofs.Store.Chronicle` finds under a number and from the laws of the
single operations. Times are compared along the calls (`Leaves.createdAt_le`): a rule is written
behind the call that saved it, so it is enough that the clock is never set back between one writing
and the next. That the rules are kept in the order in which they are listed makes no difference to
an answer: the list is what sorting gives, in whatever order the map is gone through
(`result_list_eq_mergeSort`).
-/

namespace Rulebook

open Catalogue (backend empty ofCalls)

/-! ### Numbers -/

/-- The number under which the call stores a rule, if it saves one. -/
def Call.givenId? (c : Catalogue) : Call → Option Int64
  | ⟨now, .save name text tree⟩ =>
    (backend.perform now (.save name text tree) c).result.toOption.map (·.id)
  | _ => none

/-- The numbers that some calls hand out, one after another. -/
def idsGiven (c : Catalogue) : List Call → List Int64
  | [] => []
  | call :: calls => (call.givenId? c).toList ++ idsGiven (c.afterCall call) calls

/-- The numbers that are handed out go on from the counter, one by one. -/
theorem idsGiven_eq (c : Catalogue) (calls : List Call) :
    idsGiven c calls = (List.range' (c.saved + 1) (saveCount calls)).map Int64.ofNat := by
  induction calls generalizing c with
  | nil => rfl
  | cons call calls ih =>
    rw [idsGiven, ih, Catalogue.saved_afterCall, saveCount_cons]
    cases hsaves : call.saves with
    -- a call that saves nothing hands out no number, and the counter stays
    | false =>
      have hgiven : call.givenId? c = none := by
        obtain ⟨now, op⟩ := call
        cases op with
        | save => cases hsaves
        | get | list | update | delete => rfl
      rw [hgiven]
      rfl
    -- a call that saves hands out the number behind the counter
    | true =>
      obtain ⟨now, name, text, tree, rfl⟩ := Call.eq_save_of_saves hsaves
      rw [if_pos rfl, List.range'_succ, List.map_cons]
      rfl

/-- As long as there are numbers left, none is handed out twice. -/
theorem nodup_idsGiven {calls : List Call} (h : (saveCount calls : Int) ≤ Int64.maxValue.toInt) :
    (idsGiven empty calls).Nodup := by
  have hmax : Int64.maxValue.toInt = 2 ^ 63 - 1 := by decide
  rw [idsGiven_eq]
  refine List.Nodup.map_on (fun k hk k' hk' heq => ?_) List.nodup_range'
  have hk := (List.mem_range'_1.1 hk).2
  have hk' := (List.mem_range'_1.1 hk').2
  have hsaved : empty.saved = 0 := rfl
  -- numbers that are left are far enough below the greatest word not to wrap around
  have hint := congrArg Int64.toInt heq
  rw [Int64.toInt_ofNat_of_lt (by omega), Int64.toInt_ofNat_of_lt (by omega)] at hint
  exact Int.ofNat.inj hint

/-! ### Times -/

/-- What the clock says where the call writes. It is not asked for a rule that is not there. -/
def Call.reading? (c : Catalogue) : Call → Option Time.Instant
  | ⟨now, .save _ _ _⟩ => some now
  | ⟨now, .update id _ _⟩ => (c.get? id).map fun _ => now
  | _ => none

/-- What the clock says where some calls write, one after another. -/
def readings (c : Catalogue) : List Call → List Time.Instant
  | [] => []
  | call :: calls => (call.reading? c).toList ++ readings (c.afterCall call) calls

/-- What the clock says in two parts of the calls, it says in the whole. -/
theorem readings_append (c : Catalogue) (calls calls' : List Call) :
    readings c (calls ++ calls') = readings c calls ++ readings (c.afterCalls calls) calls' := by
  induction calls generalizing c with
  | nil => rfl
  | cons call calls ih =>
    rw [List.cons_append, readings, ih, readings, List.append_assoc, Catalogue.afterCalls_cons]

variable {c : Catalogue} {id : Int64}

/-- The clock is asked where a rule is written that is there. -/
theorem Call.reading?_of_writing? {call : Call} {w : Writing} (hget : (c.get? id).isSome = true)
    (h : call.writing? id = some w) : call.reading? c = some w.time := by
  obtain ⟨now, op⟩ := call
  cases op with
  | update other text tree =>
    by_cases hid : other = id
    · -- the rule is there, so the update writes it
      obtain ⟨r, hr⟩ := Option.isSome_iff_exists.1 hget
      simp only [Call.writing?, if_pos hid, Option.some.injEq] at h
      rw [Call.reading?, hid, hr, ← h]
      rfl
    · simp only [Call.writing?, if_neg hid, reduceCtorEq] at h
  | save | get | list | delete => cases h

/-- A rule that is not removed is there afterwards. -/
theorem Catalogue.isSome_get?_afterCall {call : Call} (hget : (c.get? id).isSome = true)
    (hkept : call.removes id = false) : ((c.afterCall call).get? id).isSome = true := by
  obtain ⟨now, op⟩ := call
  cases op with
  -- a rule that is saved may take the place of the one that is there
  | save name text tree =>
    change ((c.save now name text tree).2.get? id).isSome = true
    rw [get?_save]
    split
    · rfl
    · exact hget
  | get | list => exact hget
  | update other text tree =>
    change ((c.update now other text tree).2.get? id).isSome = true
    rw [get?_update]
    split
    · next hid => rw [Option.isSome_map, ← hid, hget]
    · exact hget
  -- another rule is removed
  | delete other =>
    change ((c.delete other).2.get? id).isSome = true
    rw [get?_delete, if_neg]
    · exact hget
    · rintro rfl
      exact Bool.false_ne_true (hkept.symm.trans (decide_eq_true rfl))

/-- The last writing of a rule that is there and stays is the first one, or the clock was asked for
its time. -/
theorem time_lastWriting {calls : List Call} {first : Writing} (hget : (c.get? id).isSome = true)
    (hkept : ∀ call ∈ calls, call.removes id = false) :
    lastWriting id first calls = first ∨
      (lastWriting id first calls).time ∈ readings c calls := by
  induction calls generalizing c first with
  | nil => exact .inl rfl
  | cons call calls ih =>
    have hthere := Catalogue.isSome_get?_afterCall hget (hkept call List.mem_cons_self)
    rw [lastWriting_cons, readings]
    rcases ih hthere fun call hcall => hkept call (List.mem_cons_of_mem _ hcall) with hlast | hlater
    · rw [hlast]
      cases hw : call.writing? id with
      | none => exact .inl rfl
      | some w =>
        -- this call is the last one that writes the rule
        rw [Call.reading?_of_writing? hget hw]
        exact .inr (List.mem_append_left _ (List.mem_singleton_self w.time))
    · exact .inr (List.mem_append_right _ hlater)

/-- Where the clock is never set back, no rule is written before it is saved. -/
theorem Leaves.createdAt_le {calls : List Call} {r : StoredRule}
    (hroom : (saveCount calls : Int) ≤ Int64.maxValue.toInt) (h : Leaves calls id r)
    (hclock : (readings empty calls).Pairwise (· ≤ ·)) : r.createdAt ≤ r.updatedAt := by
  obtain ⟨before, now, name, text, tree, after, rfl, hid, hkept, rfl⟩ := h
  rw [saveCount_append, saveCount_cons_save] at hroom
  have hnext : (ofCalls before).nextId = id := Catalogue.nextId_ofCalls (by omega) hid
  -- from its saving on the rule is there, as no call removes it
  have hsaved : (((ofCalls before).save now name text tree).2.get? id).isSome = true := by
    rw [Catalogue.get?_save, if_pos hnext]
    rfl
  rw [readings_append, List.pairwise_append] at hclock
  have hbehind := List.pairwise_cons.1 hclock.2.1
  change now ≤ (lastWriting id ⟨text, tree, now⟩ after).time
  rcases time_lastWriting hsaved hkept with hfirst | hlater
  · rw [hfirst]
    exact Time.Instant.le_refl now
  · exact hbehind.1 _ hlater

/-! ### Answers -/

/-- What a catalogue answers after some calls, and what it becomes. -/
structure Answers (calls : List Call) (c : Catalogue) : Prop where
  /-- A rule that is saved gets the number that the calls have come to. -/
  save : ∀ now name text tree, ∃ r : StoredRule,
    (backend.perform now (.save name text tree) c).result = .ok r ∧
      r.id.toInt = saveCount calls + 1 ∧
      r = (⟨text, tree, now⟩ : Writing).toRule r.id name now
  /-- The numbers so far are 1, 2, 3 and so on, and no two of them are the same. -/
  ids : idsGiven empty calls = (List.range' 1 (saveCount calls)).map Int64.ofNat ∧
    (idsGiven empty calls).Nodup
  /-- Under a number is the rule that the calls leave there. -/
  get : ∀ now id,
    (∀ r, (backend.perform now (.get id) c).result = .ok (some r) ↔ Leaves calls id r) ∧
    ((backend.perform now (.get id) c).result = .ok none ↔ Gone calls id) ∧
    (backend.perform now (.get id) c).state = c
  /-- All rules that the calls leave are listed, each once, the highest number first. -/
  list : ∀ now, ∃ rules, (backend.perform now .list c).result = .ok rules ∧
    (∀ r, r ∈ rules ↔ Leaves calls r.id r) ∧
    rules.Pairwise (fun r r' => r'.id < r.id) ∧ c.size = rules.length ∧
    (backend.perform now .list c).state = c
  /-- A rule that is there keeps its number, its name and its first time when it is updated; nothing
  happens if there is none, and in no case does anything happen to another rule. -/
  update : ∀ now id text tree,
    (∀ r, Leaves calls id r →
      ∃ r', (backend.perform now (.update id text tree) c).result = .ok (some r') ∧
        (backend.perform now (.update id text tree) c).state.get? id = some r' ∧
        r' = (⟨text, tree, now⟩ : Writing).toRule r.id r.name r.createdAt) ∧
    ((backend.perform now (.update id text tree) c).result = .ok none ↔ Gone calls id) ∧
    (Gone calls id → (backend.perform now (.update id text tree) c).state = c) ∧
    ∀ other, other ≠ id →
      (backend.perform now (.update id text tree) c).state.get? other = c.get? other
  /-- A rule that is there is removed; nothing happens if there is none, and in no case does
  anything happen to another rule. -/
  delete : ∀ now id,
    ((backend.perform now (.delete id) c).result = .ok true ↔ ∃ r, Leaves calls id r) ∧
    ((backend.perform now (.delete id) c).result = .ok false ↔ Gone calls id) ∧
    (backend.perform now (.delete id) c).state.get? id = none ∧
    (Gone calls id → (backend.perform now (.delete id) c).state = c) ∧
    ∀ other, other ≠ id →
      (backend.perform now (.delete id) c).state.get? other = c.get? other
  /-- No rule was updated before it was saved, unless the clock was set back. -/
  times : (readings empty calls).Pairwise (· ≤ ·) →
    ∀ r ∈ c.rules, r.createdAt ≤ r.updatedAt

namespace Catalogue

variable {calls : List Call} (h : (saveCount calls : Int) < Int64.maxValue.toInt)

include h

/-- The calls leave a rule under a number or none. -/
theorem exists_leaves_iff {id : Int64} :
    (∃ r, Leaves calls id r) ↔ ((ofCalls calls).get? id).isSome = true := by
  rw [Option.isSome_iff_exists]
  exact exists_congr fun r => (get?_ofCalls_eq_some_iff (Int.le_of_lt h)).symm

/-- A rule is saved under the number that the calls have come to. -/
theorem result_save_ofCalls (now : Time.Instant) (name : Option String) (text : String)
    (tree : Tree) :
    ∃ r : StoredRule, (backend.perform now (.save name text tree) (ofCalls calls)).result = .ok r ∧
      r.id.toInt = saveCount calls + 1 ∧
      r = (⟨text, tree, now⟩ : Writing).toRule r.id name now := by
  have hid : (ofCalls calls).nextId.toInt = saveCount calls + 1 := by
    have hsaved := saved_ofCalls calls
    rw [toInt_nextId (by omega), hsaved]
  exact ⟨((ofCalls calls).save now name text tree).1, rfl, hid, rfl⟩

/-- All rules that the calls leave are listed by falling numbers. -/
theorem result_list_ofCalls (now : Time.Instant) :
    ∃ rules, (backend.perform now .list (ofCalls calls)).result = .ok rules ∧
      (∀ r, r ∈ rules ↔ Leaves calls r.id r) ∧
      rules.Pairwise (fun r r' => r'.id < r.id) ∧ (ofCalls calls).size = rules.length ∧
      (backend.perform now .list (ofCalls calls)).state = ofCalls calls := by
  have hnumbered : (ofCalls calls).Numbered := numbered_ofCalls (Int.le_of_lt h)
  -- a rule is in the list exactly if it is found under its number
  have hmem : ∀ r, r ∈ (ofCalls calls).rules ↔ Leaves calls r.id r := by
    intro r
    rw [← get?_ofCalls_eq_some_iff (Int.le_of_lt h), hnumbered.get?_eq_some_iff]
    exact ⟨fun hr => ⟨hr, rfl⟩, And.left⟩
  have hfalling := hnumbered.falling.imp fun hlt => Int64.lt_iff_toInt_lt.2 hlt
  exact ⟨(ofCalls calls).rules, rfl, hmem, hfalling, rfl, rfl⟩

/-- What is listed is any listing of the map from numbers to rules, sorted by falling numbers. -/
theorem result_list_eq_mergeSort (now : Time.Instant) {listing : List StoredRule}
    (hnodup : listing.Nodup)
    (hmem : ∀ r, r ∈ listing ↔ (ofCalls calls).get? r.id = some r) :
    (backend.perform now .list (ofCalls calls)).result =
      .ok (listing.mergeSort Catalogue.isBefore) := by
  have hnumbered : (ofCalls calls).Numbered := numbered_ofCalls (Int.le_of_lt h)
  exact congrArg Except.ok (hnumbered.mergeSort_eq hnodup hmem).symm

/-- A rule that the calls leave is updated, and no other rule changes. -/
theorem update_ofCalls (now : Time.Instant) (id : Int64) (text : String) (tree : Tree) :
    let done := backend.perform now (.update id text tree) (ofCalls calls)
    (∀ r, Leaves calls id r →
      ∃ r', done.result = .ok (some r') ∧ done.state.get? id = some r' ∧
        r' = (⟨text, tree, now⟩ : Writing).toRule r.id r.name r.createdAt) ∧
    (done.result = .ok none ↔ Gone calls id) ∧ (Gone calls id → done.state = ofCalls calls) ∧
    ∀ other, other ≠ id → done.state.get? other = (ofCalls calls).get? other := by
  have hnone : (ofCalls calls).get? id = none ↔ Gone calls id :=
    get?_ofCalls_eq_none_iff (Int.le_of_lt h)
  -- the result is taken from what is there before the update
  have hresult : (backend.perform now (.update id text tree) (ofCalls calls)).result =
      .ok (((ofCalls calls).get? id).map (revise now text tree)) := rfl
  refine ⟨fun r hr => ?_, ?_, fun hgone => ?_, fun other hother => ?_⟩
  · have hget := (get?_ofCalls_eq_some_iff (Int.le_of_lt h)).2 hr
    refine ⟨revise now text tree r, ?_, ?_, rfl⟩
    · rw [hresult, hget]
      rfl
    · refine (get?_update _ now id id text tree).trans ?_
      rw [if_pos rfl, hget]
      rfl
  · rw [hresult, Except.ok.injEq, Option.map_eq_none_iff, hnone]
  · exact update_of_get?_eq_none (hnone.2 hgone) now text tree
  · exact (get?_update _ now id other text tree).trans (if_neg hother)

/-- A rule that the calls leave is removed, and no other rule changes. -/
theorem delete_ofCalls (now : Time.Instant) (id : Int64) :
    let done := backend.perform now (.delete id) (ofCalls calls)
    (done.result = .ok true ↔ ∃ r, Leaves calls id r) ∧ (done.result = .ok false ↔ Gone calls id) ∧
    done.state.get? id = none ∧ (Gone calls id → done.state = ofCalls calls) ∧
    ∀ other, other ≠ id → done.state.get? other = (ofCalls calls).get? other := by
  have hnone : (ofCalls calls).get? id = none ↔ Gone calls id :=
    get?_ofCalls_eq_none_iff (Int.le_of_lt h)
  have hresult : (backend.perform now (.delete id) (ofCalls calls)).result =
      .ok ((ofCalls calls).get? id).isSome := rfl
  refine ⟨?_, ?_, ?_, fun hgone => ?_, fun other hother => ?_⟩
  · rw [hresult, Except.ok.injEq, exists_leaves_iff h]
  · rw [hresult, Except.ok.injEq, Option.isSome_eq_false_iff, Option.isNone_iff_eq_none, hnone]
  · exact (get?_delete _ id id).trans (if_pos rfl)
  · exact delete_of_get?_eq_none (hnone.2 hgone)
  · exact (get?_delete _ id other).trans (if_neg hother)

/-- **A catalogue answers as its calls tell it.** After any calls that save fewer rules than there
are positive numbers of 64 bits, an empty catalogue has become a map from numbers to rules that is
made of these calls, and answers each operation from it. -/
theorem answers_ofCalls : Answers calls (ofCalls calls) where
  save := result_save_ofCalls h
  ids := ⟨idsGiven_eq empty calls, nodup_idsGiven (Int.le_of_lt h)⟩
  get now id := by
    have hresult : (backend.perform now (.get id) (ofCalls calls)).result =
        .ok ((ofCalls calls).get? id) := rfl
    rw [hresult]
    refine ⟨fun r => ?_, ?_, rfl⟩
    · rw [Except.ok.injEq, get?_ofCalls_eq_some_iff (Int.le_of_lt h)]
    · rw [Except.ok.injEq, get?_ofCalls_eq_none_iff (Int.le_of_lt h)]
  list := result_list_ofCalls h
  update := update_ofCalls h
  delete := delete_ofCalls h
  times hclock r hr := by
    have hnumbered : (ofCalls calls).Numbered := numbered_ofCalls (Int.le_of_lt h)
    have hget := hnumbered.get?_eq_some_iff.2 ⟨hr, rfl⟩
    have hleaves := (get?_ofCalls_eq_some_iff (Int.le_of_lt h)).1 hget
    exact hleaves.createdAt_le (Int.le_of_lt h) hclock

end Catalogue

/-- Three rules are saved; the first is removed and the second updated in between. -/
def sampleCalls : List Call :=
  [⟨⟨1, 0⟩, .save none "a" (.operand "a")⟩, ⟨⟨2, 0⟩, .save (some "n") "b" (.operand "b")⟩,
   ⟨⟨3, 0⟩, .delete 1⟩, ⟨⟨4, 0⟩, .update 2 "c" (.operand "c")⟩,
   ⟨⟨5, 0⟩, .save none "d" (.operand "d")⟩]

/-- The first rule is gone, and the second has kept its number, its name and its first time. -/
theorem answers_ofCalls_sampleCalls :
    (saveCount sampleCalls : Int) < Int64.maxValue.toInt ∧ Gone sampleCalls 1 ∧
      Leaves sampleCalls 2
        ⟨2, some "n", "c", Transport.ofTree (.operand "c"), ⟨2, 0⟩, ⟨4, 0⟩⟩ := by
  have hroom : (saveCount sampleCalls : Int) < Int64.maxValue.toInt := by decide
  have hanswers := Catalogue.answers_ofCalls hroom
  exact ⟨hroom, (hanswers.get ⟨6, 0⟩ 1).2.1.1 rfl, ((hanswers.get ⟨6, 0⟩ 2).1 _).1 rfl⟩

end Rulebook
