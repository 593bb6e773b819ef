import Mathlib.Data.List.Nodup
import Rulebook.Store.Catalogue

/-!
# A catalogue as its calls tell it

A catalogue that is asked again and again is, at any time, what the calls so far have made of it.
This module says what that is without looking at the catalogue, and proves that nothing else is
found in it (`get?_ofCalls_eq_some_iff`, `get?_ofCalls_eq_none_iff`), as long as there are numbers
left for the rules that are saved.

A number belongs to the call that it counts: the rule numbered `k` is the one of the `k`th call that
saves. `Leaves` follows that rule through the calls behind it: its name and its first time stay, its
text, its tree and its second time are those of the last writing, and no call has removed it. `Gone`
says that the calls leave no rule under a number, which was never given or whose rule has been
removed.

* `saved_afterCalls` ties the counter to the calls, and `Numbered` the rules to the counter: their
  numbers are no greater, and fall from one rule to the next. So the rules are in the order that
  sorting would bring them into (`Numbered.mergeSort_eq`).
* `get?_afterCall` is the effect of one call on what is under a number that the call does not give
  out; `get?_afterCalls` is that of all calls behind the one that gave it out.
-/

namespace Rulebook

/-- An instant is at most another if it has fewer seconds, or as many and no more nanoseconds. -/
instance : LE Time.Instant :=
  ⟨fun i j => i.seconds < j.seconds ∨ i.seconds = j.seconds ∧ i.nanos ≤ j.nanos⟩

theorem Time.Instant.le_refl (i : Time.Instant) : i ≤ i :=
  .inr ⟨rfl, Nat.le_refl _⟩

/-! ### Calls -/

/-- Something asked of a store, and what the clock says meanwhile. -/
structure Call where
  {α : Type}
  now : Time.Instant
  op : Operation α

/-- What is written of a rule each time that it is saved or updated. -/
structure Writing where
  text : String
  tree : Tree
  time : Time.Instant

/-- The rule that a writing leaves under a number, with the name and the time of its saving. -/
def Writing.toRule (w : Writing) (id : Int64) (name : Option String) (createdAt : Time.Instant) :
    StoredRule :=
  ⟨id, name, w.text, Transport.ofTree w.tree, createdAt, w.time⟩

namespace Call

/-- The call saves a rule. -/
def saves : Call → Bool
  | ⟨_, .save _ _ _⟩ => true
  | _ => false

/-- The call removes the rule with a number. -/
def removes (id : Int64) : Call → Bool
  | ⟨_, .delete other⟩ => decide (other = id)
  | _ => false

/-- What the call writes of the rule with a number. -/
def writing? (id : Int64) : Call → Option Writing
  | ⟨now, .update other text tree⟩ => if other = id then some ⟨text, tree, now⟩ else none
  | _ => none

end Call

/-- How many of the calls save a rule. -/
def saveCount (calls : List Call) : Nat :=
  calls.countP Call.saves

/-- The last writing of a rule, the first one being that of its saving. -/
def lastWriting (id : Int64) (first : Writing) (calls : List Call) : Writing :=
  (calls.filterMap (Call.writing? id)).getLast?.getD first

/-- The calls have given the number to a rule. -/
def WasSaved (calls : List Call) (id : Int64) : Prop :=
  1 ≤ id.toInt ∧ id.toInt ≤ saveCount calls

/-- A call has removed the rule with the number. -/
def WasRemoved (calls : List Call) (id : Int64) : Prop :=
  ∃ before call after, calls = before ++ call :: after ∧ call.removes id = true ∧
    WasSaved before id

/-- The calls leave no rule under the number. -/
def Gone (calls : List Call) (id : Int64) : Prop :=
  ¬ WasSaved calls id ∨ WasRemoved calls id

/-- The calls leave the rule under the number: it has the name and the time of the call that saved
it, and the rest of the last call that wrote it, and no call has removed it since. -/
def Leaves (calls : List Call) (id : Int64) (r : StoredRule) : Prop :=
  ∃ before now name text tree after,
    calls = before ++ ⟨now, .save name text tree⟩ :: after ∧ id.toInt = saveCount before + 1 ∧
      (∀ call ∈ after, call.removes id = false) ∧
      r = (lastWriting id ⟨text, tree, now⟩ after).toRule id name now

theorem saveCount_append (calls calls' : List Call) :
    saveCount (calls ++ calls') = saveCount calls + saveCount calls' :=
  List.countP_append

theorem saveCount_cons (call : Call) (calls : List Call) :
    saveCount (call :: calls) = saveCount calls + if call.saves then 1 else 0 :=
  List.countP_cons

theorem saveCount_cons_save (now : Time.Instant) (name : Option String) (text : String)
    (tree : Tree) (calls : List Call) :
    saveCount (⟨now, .save name text tree⟩ :: calls) = saveCount calls + 1 :=
  saveCount_cons _ _

/-- A call that writes the rule takes the place of the first writing. -/
theorem lastWriting_cons (id : Int64) (first : Writing) (call : Call) (calls : List Call) :
    lastWriting id first (call :: calls) =
      lastWriting id ((call.writing? id).getD first) calls := by
  unfold lastWriting
  cases hw : call.writing? id with
  | none => rw [List.filterMap_cons_none hw, Option.getD_none]
  | some w =>
    rw [List.filterMap_cons_some hw, List.getLast?_cons, Option.getD_some, Option.getD_some]

/-- A call that saves has something to save. -/
theorem Call.eq_save_of_saves {call : Call} (h : call.saves = true) :
    ∃ now name text tree, call = ⟨now, .save name text tree⟩ := by
  obtain ⟨now, op⟩ := call
  cases op with
  | save name text tree => exact ⟨now, name, text, tree, rfl⟩
  | get | list | update | delete => cases h

/-- The call that gives out a number is found by counting. -/
theorem exists_save {calls : List Call} {k : Nat} (hk : k < saveCount calls) :
    ∃ before now name text tree after,
      calls = before ++ ⟨now, .save name text tree⟩ :: after ∧ saveCount before = k := by
  induction calls generalizing k with
  | nil => exact absurd hk (Nat.not_lt_zero k)
  | cons call calls ih =>
    rw [saveCount_cons] at hk
    cases hsaves : call.saves with
    | false =>
      rw [hsaves, if_neg Bool.false_ne_true, Nat.add_zero] at hk
      obtain ⟨before, now, name, text, tree, after, hcalls, hcount⟩ := ih hk
      refine ⟨call :: before, now, name, text, tree, after, congrArg (call :: ·) hcalls, ?_⟩
      rw [saveCount_cons, hsaves, hcount]
      rfl
    | true =>
      rw [hsaves, if_pos rfl] at hk
      cases k with
      -- the call in front is the one
      | zero =>
        obtain ⟨now, name, text, tree, rfl⟩ := Call.eq_save_of_saves hsaves
        exact ⟨[], now, name, text, tree, calls, rfl, rfl⟩
      -- the call in front is one of those that are counted
      | succ k =>
        obtain ⟨before, now, name, text, tree, after, hcalls, hcount⟩ :=
          ih (Nat.lt_of_succ_lt_succ hk)
        refine ⟨call :: before, now, name, text, tree, after, congrArg (call :: ·) hcalls, ?_⟩
        rw [saveCount_cons, hsaves, hcount]
        rfl

/-! ### The counter -/

namespace Catalogue

/-- The catalogue after a call. -/
def afterCall (c : Catalogue) (call : Call) : Catalogue :=
  (backend.perform call.now call.op c).state

/-- The catalogue after some calls. -/
def afterCalls (c : Catalogue) (calls : List Call) : Catalogue :=
  calls.foldl afterCall c

/-- The catalogue that some calls have made of the empty one. -/
def ofCalls (calls : List Call) : Catalogue :=
  empty.afterCalls calls

theorem afterCalls_cons (c : Catalogue) (call : Call) (calls : List Call) :
    c.afterCalls (call :: calls) = (c.afterCall call).afterCalls calls := rfl

theorem afterCalls_append (c : Catalogue) (calls calls' : List Call) :
    c.afterCalls (calls ++ calls') = (c.afterCalls calls).afterCalls calls' :=
  List.foldl_append

theorem ofCalls_append (calls calls' : List Call) :
    ofCalls (calls ++ calls') = (ofCalls calls).afterCalls calls' :=
  afterCalls_append empty calls calls'

/-- A call moves the counter if it saves. -/
theorem saved_afterCall (c : Catalogue) (call : Call) :
    (c.afterCall call).saved = c.saved + if call.saves then 1 else 0 := by
  obtain ⟨now, op⟩ := call
  cases op <;> rfl

/-- Calls move the counter by as many as save. -/
theorem saved_afterCalls (c : Catalogue) (calls : List Call) :
    (c.afterCalls calls).saved = c.saved + saveCount calls := by
  induction calls generalizing c with
  | nil => rfl
  | cons call calls ih =>
    rw [afterCalls_cons, ih, saved_afterCall, saveCount_cons]
    omega

/-- From the empty catalogue on the counter counts the calls that save. -/
theorem saved_ofCalls (calls : List Call) : (ofCalls calls).saved = saveCount calls :=
  (saved_afterCalls empty calls).trans (Nat.zero_add _)

/-- As long as there are numbers left, the next number is one more than the counter. -/
theorem toInt_nextId {c : Catalogue} (h : (c.saved : Int) < Int64.maxValue.toInt) :
    c.nextId.toInt = c.saved + 1 := by
  have hmax : Int64.maxValue.toInt = 2 ^ 63 - 1 := by decide
  rw [nextId, Int64.toInt_ofNat_of_lt (by omega)]
  omega

/-- The rules have numbers up to the counter, falling from one rule to the next. -/
structure Numbered (c : Catalogue) : Prop where
  within : ∀ r ∈ c.rules, 1 ≤ r.id.toInt ∧ r.id.toInt ≤ c.saved
  falling : c.rules.Pairwise fun r r' => r'.id.toInt < r.id.toInt

theorem numbered_empty : empty.Numbered where
  within := nofun
  falling := .nil

/-- **Every call keeps the rules in the order of their numbers.** -/
theorem Numbered.afterCall {c : Catalogue} (hc : c.Numbered) {call : Call}
    (hroom : call.saves = true → (c.saved : Int) < Int64.maxValue.toInt) :
    (c.afterCall call).Numbered := by
  obtain ⟨now, op⟩ := call
  cases op with
  -- the new rule comes in front, with a number above all others
  | save name text tree =>
    have hid := toInt_nextId (hroom rfl)
    refine ⟨fun r hr => ?_, .cons (fun r hr => ?_) hc.falling⟩
    · rcases List.mem_cons.1 hr with rfl | hr
      · change 1 ≤ c.nextId.toInt ∧ c.nextId.toInt ≤ (c.saved + 1 : Nat)
        omega
      · have hr := hc.within r hr
        change 1 ≤ r.id.toInt ∧ r.id.toInt ≤ (c.saved + 1 : Nat)
        omega
    · have hr := hc.within r hr
      change r.id.toInt < c.nextId.toInt
      omega
  | get | list => exact hc
  | update id text tree =>
    -- a rule keeps its number and its place when it is revised
    have hkeep : ∀ r, (if r.id = id then revise now text tree r else r).id = r.id := by
      intro r
      split <;> rfl
    refine ⟨fun r hr => ?_, List.pairwise_map.2 (hc.falling.imp fun h => ?_)⟩
    · obtain ⟨old, hold, rfl⟩ := List.mem_map.1 hr
      rw [hkeep]
      exact hc.within old hold
    · rw [hkeep, hkeep]
      exact h
  -- removing a rule leaves the others in order
  | delete id =>
    exact ⟨fun r hr => hc.within r (List.mem_filter.1 hr).1, hc.falling.filter _⟩

/-- What every call keeps, all calls keep, if there are numbers left. -/
theorem Numbered.afterCalls {c : Catalogue} (hc : c.Numbered) {calls : List Call}
    (hroom : (c.saved + saveCount calls : Int) ≤ Int64.maxValue.toInt) :
    (c.afterCalls calls).Numbered := by
  induction calls generalizing c with
  | nil => exact hc
  | cons call calls ih =>
    rw [saveCount_cons] at hroom
    -- each call leaves room for those behind it
    refine ih (hc.afterCall fun hsaves => ?_) ?_
    · rw [hsaves, if_pos rfl] at hroom
      omega
    · rw [saved_afterCall]
      omega

/-- A rule is there under its number and no other. -/
theorem Numbered.get?_eq_some_iff {c : Catalogue} (hc : c.Numbered) {id : Int64} {r : StoredRule} :
    c.get? id = some r ↔ r ∈ c.rules ∧ r.id = id := by
  unfold get?
  constructor
  · intro h
    exact ⟨List.mem_of_find?_eq_some h, by simpa using List.find?_some h⟩
  · rintro ⟨hr, rfl⟩
    -- the rule is the first one with its number
    obtain ⟨before, after, hrules⟩ := List.append_of_mem hr
    have hfalling := hc.falling
    rw [hrules, List.pairwise_append] at hfalling
    have hnone : before.find? (fun r' => decide (r'.id = r.id)) = none := by
      rw [List.find?_eq_none]
      intro r' hr' hid
      -- the rules in front have greater numbers
      have hlt := hfalling.2.2 r' hr' r List.mem_cons_self
      rw [of_decide_eq_true hid] at hlt
      omega
    rw [hrules, List.find?_append, hnone, Option.none_or]
    exact List.find?_cons_of_pos (decide_eq_true rfl)

/-- The order of falling numbers. -/
def isBefore (r r' : StoredRule) : Bool :=
  decide (r'.id ≤ r.id)

/-- **The rules stand in the order that sorting brings them into.** Whoever goes through the map
from numbers to rules, in whatever order, meets each rule once; the rules of the catalogue are what
he has in the end, sorted by falling numbers. -/
theorem Numbered.mergeSort_eq {c : Catalogue} (hc : c.Numbered) {listing : List StoredRule}
    (hnodup : listing.Nodup) (hmem : ∀ r, r ∈ listing ↔ c.get? r.id = some r) :
    listing.mergeSort isBefore = c.rules := by
  -- both hold the same rules, each of them once
  have hperm : listing.Perm c.rules := by
    have hrules : c.rules.Nodup := hc.falling.imp fun hlt heq => by
      rw [heq] at hlt
      omega
    refine (List.perm_ext_iff_of_nodup hnodup hrules).2 fun r => ?_
    rw [hmem, hc.get?_eq_some_iff]
    exact and_iff_left rfl
  -- what is sorted is in order, because numbers can be compared with one another
  have hsorted : (listing.mergeSort isBefore).Pairwise fun r r' => r'.id ≤ r.id := by
    have htrans : ∀ a b d, isBefore a b = true → isBefore b d = true → isBefore a d = true :=
      fun a b d hab hbd => decide_eq_true
        (Int64.le_trans (of_decide_eq_true hbd) (of_decide_eq_true hab))
    have htotal : ∀ a b, (isBefore a b || isBefore b a) = true := fun a b => by
      rw [Bool.or_eq_true, isBefore, isBefore, decide_eq_true_eq, decide_eq_true_eq]
      exact Int64.le_total ..
    exact (List.pairwise_mergeSort htrans htotal listing).imp of_decide_eq_true
  have hfalling : c.rules.Pairwise fun r r' => r'.id ≤ r.id :=
    hc.falling.imp fun hlt => Int64.le_of_lt (Int64.lt_iff_toInt_lt.2 hlt)
  refine List.Perm.eq_of_pairwise (fun r r' hr hr' hle hle' => ?_) hsorted hfalling
    ((List.mergeSort_perm ..).trans hperm)
  -- under one number there is one rule, so the order of two rules is never open
  have hid : r'.id = r.id := Int64.le_antisymm hle hle'
  have hr := (hmem r).1 (List.mem_mergeSort.1 hr)
  have hr' := hc.get?_eq_some_iff.2 ⟨hr', rfl⟩
  rw [hid, hr] at hr'
  exact Option.some.inj hr'

/-! ### What is under a number -/

/-- A call that does not give out a number either removes what is under it or writes it, or leaves
it as it is. -/
theorem get?_afterCall {c : Catalogue} {call : Call} {id : Int64}
    (hid : call.saves = true → c.nextId ≠ id) :
    (c.afterCall call).get? id = if call.removes id = true then none else
      match call.writing? id with
      | some w => (c.get? id).map (revise w.time w.text w.tree)
      | none => c.get? id := by
  obtain ⟨now, op⟩ := call
  cases op with
  | save name text tree =>
    exact (get?_save c now name text tree id).trans (if_neg (hid rfl))
  | get | list => rfl
  -- the call is about this number or about another one
  | update other text tree =>
    refine (get?_update c now other id text tree).trans ?_
    by_cases hother : other = id
    · simp [Call.removes, Call.writing?, hother]
    · simp [Call.removes, Call.writing?, hother, Ne.symm hother]
  | delete other =>
    refine (get?_delete c other id).trans ?_
    by_cases hother : other = id
    · simp [Call.removes, hother]
    · simp [Call.removes, Call.writing?, hother, Ne.symm hother]

/-- **What the calls behind it leave of a rule.** Its number is not given out again. -/
theorem get?_afterCalls {c : Catalogue} {calls : List Call} {id : Int64} {first : Option Writing}
    {name : Option String} {createdAt : Time.Instant} (hid : id.toInt ≤ c.saved)
    (hroom : (c.saved + saveCount calls : Int) ≤ Int64.maxValue.toInt)
    (hget : c.get? id = first.map (·.toRule id name createdAt)) :
    (c.afterCalls calls).get? id = if calls.any (Call.removes id) = true then none else
      first.map fun w => (lastWriting id w calls).toRule id name createdAt := by
  -- the first writing varies in the induction: none is left behind a removal
  induction calls generalizing c first with
  | nil => exact hget
  | cons call calls ih =>
    rw [saveCount_cons] at hroom
    -- the counter is at this number or beyond it, so no later call gives it out
    have hnew : call.saves = true → c.nextId ≠ id := by
      rintro hsaves rfl
      rw [hsaves, if_pos rfl] at hroom
      rw [toInt_nextId (by omega)] at hid
      omega
    have hid' : id.toInt ≤ (c.afterCall call).saved := by
      rw [saved_afterCall]
      omega
    have hroom' : ((c.afterCall call).saved + saveCount calls : Int) ≤ Int64.maxValue.toInt := by
      rw [saved_afterCall]
      omega
    have hcall := get?_afterCall hnew
    rw [afterCalls_cons, List.any_cons]
    by_cases hremoves : call.removes id = true
    · have hnone : (c.afterCall call).get? id =
          (none : Option Writing).map (·.toRule id name createdAt) := by
        rw [hcall, if_pos hremoves]
        rfl
      rw [ih hid' hroom' hnone, hremoves, Bool.true_or, if_pos rfl, Option.map_none, ite_self]
    · -- the writing of this call takes the place of the first one
      have hfirst : (c.afterCall call).get? id =
          (first.map ((call.writing? id).getD ·)).map (·.toRule id name createdAt) := by
        rw [hcall, if_neg hremoves, hget]
        cases call.writing? id <;> cases first <;> rfl
      rw [ih hid' hroom' hfirst, eq_false_of_ne_true hremoves, Bool.false_or,
        Option.map_map]
      simp only [Function.comp_def, lastWriting_cons]

/-- A number is the next one behind the calls that it counts. -/
theorem nextId_ofCalls {calls : List Call} {id : Int64}
    (hroom : (saveCount calls : Int) < Int64.maxValue.toInt)
    (hid : id.toInt = saveCount calls + 1) : (ofCalls calls).nextId = id := by
  have hsaved := saved_ofCalls calls
  rw [← Int64.toInt_inj, toInt_nextId (by omega), hsaved, hid]

/-- What is under the number of a rule, from the call that saved it. -/
theorem get?_ofCalls {before after : List Call} {now : Time.Instant} {name : Option String}
    {text : String} {tree : Tree} {id : Int64}
    (hroom : (saveCount (before ++ ⟨now, .save name text tree⟩ :: after) : Int) ≤
      Int64.maxValue.toInt)
    (hid : id.toInt = saveCount before + 1) :
    (ofCalls (before ++ ⟨now, .save name text tree⟩ :: after)).get? id =
      if after.any (Call.removes id) = true then none else
        some ((lastWriting id ⟨text, tree, now⟩ after).toRule id name now) := by
  have hsaved := saved_ofCalls before
  rw [saveCount_append, saveCount_cons_save] at hroom
  have hnext : (ofCalls before).nextId = id := nextId_ofCalls (by omega) hid
  -- the call has just saved the rule, and this is its first writing
  have hget : ((ofCalls before).save now name text tree).2.get? id =
      (some (⟨text, tree, now⟩ : Writing)).map (·.toRule id name now) := by
    rw [get?_save, if_pos hnext, ← hnext]
    rfl
  have hcounter : ((ofCalls before).save now name text tree).2.saved = saveCount before + 1 :=
    congrArg (· + 1) hsaved
  rw [ofCalls_append, afterCalls_cons]
  exact get?_afterCalls (by omega) (by omega) hget

variable {calls : List Call} {id : Int64}

/-- A number that has been given out was given out by some call. -/
theorem exists_save_of_wasSaved (h : WasSaved calls id) :
    ∃ before now name text tree after,
      calls = before ++ ⟨now, .save name text tree⟩ :: after ∧ id.toInt = saveCount before + 1 := by
  obtain ⟨hone, hle⟩ := h
  have hk : id.toInt.toNat - 1 < saveCount calls := by omega
  obtain ⟨before, now, name, text, tree, after, hcalls, hcount⟩ := exists_save hk
  exact ⟨before, now, name, text, tree, after, hcalls, by omega⟩

/-- From the empty catalogue on the rules are in order. -/
theorem numbered_ofCalls (hroom : (saveCount calls : Int) ≤ Int64.maxValue.toInt) :
    (ofCalls calls).Numbered := by
  refine numbered_empty.afterCalls ?_
  have hzero : empty.saved = 0 := rfl
  omega

/-- A number under which there is a rule has been given out. -/
theorem wasSaved_of_get? (hroom : (saveCount calls : Int) ≤ Int64.maxValue.toInt) {r : StoredRule}
    (h : (ofCalls calls).get? id = some r) : WasSaved calls id := by
  have hc := numbered_ofCalls hroom
  obtain ⟨hr, rfl⟩ := hc.get?_eq_some_iff.1 h
  have hwithin := hc.within r hr
  rw [saved_ofCalls] at hwithin
  exact hwithin

/-- A rule is found under a number exactly if the calls leave it there. -/
theorem get?_ofCalls_eq_some_iff (hroom : (saveCount calls : Int) ≤ Int64.maxValue.toInt)
    {r : StoredRule} : (ofCalls calls).get? id = some r ↔ Leaves calls id r := by
  constructor
  · intro h
    -- a rule that is found had its number from some call
    obtain ⟨before, now, name, text, tree, after, rfl, hid⟩ :=
      exists_save_of_wasSaved (wasSaved_of_get? hroom h)
    rw [get?_ofCalls hroom hid] at h
    split at h
    · cases h
    · next hkept =>
      refine ⟨before, now, name, text, tree, after, rfl, hid, fun call hcall => ?_,
        (Option.some.inj h).symm⟩
      exact eq_false_of_ne_true fun hremoves =>
        hkept (List.any_eq_true.2 ⟨call, hcall, hremoves⟩)
  · rintro ⟨before, now, name, text, tree, after, rfl, hid, hkept, rfl⟩
    rw [get?_ofCalls hroom hid, if_neg]
    intro hany
    obtain ⟨call, hcall, hremoves⟩ := List.any_eq_true.1 hany
    exact Bool.false_ne_true ((hkept call hcall).symm.trans hremoves)

/-- No rule is found under a number exactly if the calls leave none there. -/
theorem get?_ofCalls_eq_none_iff (hroom : (saveCount calls : Int) ≤ Int64.maxValue.toInt) :
    (ofCalls calls).get? id = none ↔ Gone calls id := by
  constructor
  · intro h
    by_contra hgone
    obtain ⟨hsaved, hkept⟩ := not_or.1 hgone
    obtain ⟨before, now, name, text, tree, after, rfl, hid⟩ :=
      exists_save_of_wasSaved (not_not.1 hsaved)
    rw [get?_ofCalls hroom hid] at h
    split at h
    · next hany =>
      obtain ⟨call, hcall, hremoves⟩ := List.any_eq_true.1 hany
      -- the call that removed the rule stands behind the one that saved it
      obtain ⟨front, back, rfl⟩ := List.append_of_mem hcall
      refine hkept
        ⟨before ++ ⟨now, .save name text tree⟩ :: front, call, back, by simp, hremoves, ?_⟩
      rw [WasSaved, saveCount_append, saveCount_cons_save]
      omega
    · cases h
  · rintro (hsaved | ⟨before, call, after, rfl, hremoves, hsaved⟩)
    · cases hget : (ofCalls calls).get? id with
      | none => rfl
      | some r => exact absurd (wasSaved_of_get? hroom hget) hsaved
    · -- the number was given out in front of the removal
      obtain ⟨front, now, name, text, tree, back, rfl, hid⟩ := exists_save_of_wasSaved hsaved
      rw [List.append_assoc, List.cons_append] at hroom ⊢
      rw [get?_ofCalls hroom hid, if_pos]
      exact List.any_eq_true.2
        ⟨call, List.mem_append_right back List.mem_cons_self, hremoves⟩

end Catalogue

end Rulebook
