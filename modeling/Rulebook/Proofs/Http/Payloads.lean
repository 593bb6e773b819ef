import Mathlib.Data.String.Basic
import Rulebook.Http.Service
import Rulebook.Proofs.Exchange.Contexts
import Rulebook.Proofs.Exchange.Transit
import Rulebook.Proofs.Json.Reading

/-!
# Requests that send an object

What the service reads from the bodies of requests. A request posts an object (`Request.Posts`) or
puts it (`Request.Puts`) in any JSON text of the object, with its members in any order; each kind of
payload is read from all of these texts alike (`Request.Posts.payload_eq`). There are such requests
for every object whose compact text is not too long for a body (`posts_posted`, `exists_puts`).
-/

namespace Rulebook

/-! ### Sizes -/

/-- A character has at most four octets. -/
theorem Json.size_text_le (v : Json) : v.text.utf8ByteSize ≤ 4 * v.write.length := by
  rw [text, String.utf8ByteSize_ofList]
  -- the octets are counted along the characters
  induction v.write with
  | nil => rfl
  | cons c cs ih =>
    have hsize := c.utf8Size_le_four
    rw [String.utf8Len_cons, List.length_cons]
    omega

/-- A character is written with at most six characters. -/
theorem Json.length_writeString_le (s : String) : (writeString s).length ≤ 6 * s.length + 2 := by
  -- the longest escape names a code unit
  have hescape : ∀ c, (escape c).length ≤ 6 := by
    intro c
    unfold escape
    repeat' split
    all_goals simp
  have hall : ∀ cs : List Char, (cs.flatMap escape).length ≤ 6 * cs.length := by
    intro cs
    induction cs with
    | nil => exact Nat.le_refl 0
    | cons c cs ih =>
      have hc := hescape c
      rw [List.flatMap_cons, List.length_append, List.length_cons]
      omega
  have hchars := hall s.toList
  rw [String.length_toList] at hchars
  -- two more characters are the quotes
  rw [writeString, List.length_cons, List.length_append, List.length_singleton]
  omega

namespace Http

/-! ### Requests -/

/-- The request posts an object with these members, in any order, whose text is said to be JSON and
is not too long. -/
structure Request.Posts (q : Request) (path : String) (members : List (String × Json)) : Prop where
  method : q.method = "POST"
  path : q.path = path
  isJson : q.isJson = true
  size : q.body.utf8ByteSize ≤ maxBodySize
  body : ∃ ms, ms.Perm members ∧ Json.IsText (.object ms) q.body

/-- What is read from an object in every order of its members is the payload. -/
theorem Request.Posts.payload_eq {q : Request} {path : String} {members : List (String × Json)}
    (h : q.Posts path members) {α : Type} {read : Nat → Json.Document → Except Json.Fault α} {p : α}
    (hread : ∀ ms d, ms.Perm members → d.Says (.object ms) → read Json.maxDepth d = .ok p) :
    q.payload read = .ok p := by
  obtain ⟨ms, hperm, htext⟩ := h.body
  have hbody := Json.readWhole_of_isText htext fun d hd => hread ms d hperm hd
  -- neither the header nor the size of the body is in the way
  rw [payload, h.isJson, if_neg (by decide), if_neg (Nat.not_lt.2 h.size), hbody]
  rfl

/-- An object is posted with its members in every order. -/
theorem Request.Posts.perm {q : Request} {path : String} {members members' : List (String × Json)}
    (h : q.Posts path members) (hperm : members.Perm members') : q.Posts path members' := by
  obtain ⟨ms, hms, htext⟩ := h.body
  exact { h with body := ⟨ms, hms.trans hperm, htext⟩ }

/-- A request that posts the compact text of an object. -/
def posted (path : String) (members : List (String × Json)) : Request :=
  ⟨"POST", path, some "application/json", (Json.object members).text⟩

/-- The usual content type is that of JSON. -/
theorem isJson_applicationJson :
    ((some "application/json").bind MediaType.ofHeader?).any MediaType.isJson = true := by
  decide +kernel

/-- The request posts the object, if it is regular and not too long. -/
theorem posts_posted {path : String} {members : List (String × Json)}
    (hregular : (Json.object members).Regular)
    (hsize : (Json.object members).text.utf8ByteSize ≤ maxBodySize) :
    (posted path members).Posts path members where
  method := rfl
  path := rfl
  isJson := isJson_applicationJson
  size := hsize
  body := ⟨members, .refl _, Json.isText_text hregular⟩

/-- The request puts an object with these members at the path, as one that posts them does. -/
structure Request.Puts (q : Request) (path : String) (members : List (String × Json)) : Prop where
  method : q.method = "PUT"
  posts : { q with method := "POST" }.Posts path members

/-- Every text that is not too long for a body can be put at a rule. -/
theorem exists_puts {path text : String} (h : text.length ≤ 10000) :
    ∃ q : Request, q.Puts path [("rule", .string text)] := by
  -- the request that posts the text, with the other method
  refine ⟨{ posted path [("rule", .string text)] with method := "PUT" }, rfl,
    posts_posted (.object (by simp [Entries.names]) ?_) ?_⟩
  · rw [List.forall_mem_singleton]
    exact .string text
  · -- a character of the text takes no more than 24 octets of the body
    have hsize := Json.size_text_le (.object [("rule", .string text)])
    have htext := Json.length_writeString_le text
    have hname : (Json.writeString "rule").length = 6 := by decide
    simp only [Json.write, Json.writeMembers, List.length_cons, List.length_append,
      List.length_nil] at hsize
    exact Nat.le_trans hsize (by rw [maxBodySize]; omega)

/-! ### Kinds of payloads -/

/-- A payload is read from any document that says its only member. -/
theorem Revision.read_of_said {text : String} {ms : List (String × Json)} {d : Json.Document}
    {depth : Nat} (hperm : ms.Perm [("rule", .string text)]) (h : d.Says (.object ms)) :
    read (depth + 1) d = .ok ⟨text⟩ := by
  refine Json.record_of_perm (fun (_ : Revision) _ => ⟨text⟩) hperm h (fun _ _ _ => rfl)
    (fun m hm => ?_) (by simp [Entries.names]) fun slot hslot _ => ?_
  · rw [List.mem_singleton.1 hm]
    refine ⟨_, rfl, fun p d hd => ?_⟩
    simp only [Json.readText_of_said hd]
    rfl
  · rw [List.mem_singleton.1 hslot]
    exact List.mem_singleton_self _

namespace Joining

/-- `p` with the field of that name taken from `x`. -/
def takeField (x p : Joining) (name : String) : Joining :=
  if name = "rules" then { p with rules := x.rules }
  else if name = "operator" then { p with connective := x.connective }
  else { p with save := x.save }

/-- The fields may be taken in any order. -/
theorem takeField_comm (x p : Joining) (n n' : String) :
    x.takeField (x.takeField p n) n' = x.takeField (x.takeField p n') n := by
  unfold takeField
  repeat' split
  all_goals rfl

/-- A payload without a name is read from any document that says its members, in any order. -/
theorem read_of_said {rules : List String} {connective : Connective} {save : Bool}
    {ms : List (String × Json)} {d : Json.Document} {depth : Nat}
    (hperm : ms.Perm [("rules", .array (rules.map .string)), ("operator", connective.toJson),
      ("save", .boolean save)])
    (h : d.Says (.object ms)) : read (depth + 2) d = .ok ⟨rules, connective, save, none⟩ := by
  refine Json.record_of_perm (takeField ⟨rules, connective, save, none⟩) hperm h (takeField_comm _)
    (fun m hm => ?_) (by simp [Entries.names]) fun slot hslot hp => ?_
  · -- each member is read by the reader of its field, whatever has been read before
    simp only [List.mem_cons, List.not_mem_nil, or_false] at hm
    rcases hm with rfl | rfl | rfl
    · refine ⟨_, rfl, fun p d hd => ?_⟩
      have hread : Json.readList (depth + 1) (fun _ => Json.readText) d = .ok rules :=
        Json.readList_of_said (fun _ _ h => Json.readText_of_said h) hd
      simp only [hread]
      rfl
    · refine ⟨_, rfl, fun p d hd => ?_⟩
      have hread : Connective.read (depth + 1) d = .ok connective :=
        Json.readVariant_of_said hd (by cases connective <;> rfl)
      simp only [hread]
      rfl
    · refine ⟨_, rfl, fun p d hd => ?_⟩
      simp only [Json.readFlag_of_said hd]
      rfl
  · -- only the rules are required
    simp only [slots, List.mem_cons, List.not_mem_nil, or_false] at hslot
    rcases hslot with rfl | rfl | rfl | rfl
    · exact List.mem_cons_self
    all_goals cases hp

end Joining

/-! What is to be evaluated comes with a context, and with the wish for a record. -/

/-- The members say whether an evaluation is traced. That it is not need not be said. -/
inductive SaysTrace : List (String × Json) → Bool → Prop
  | said (traced : Bool) : SaysTrace [("trace", .boolean traced)] traced
  | unsaid : SaysTrace [] false

/-- There is no member but the one that says it. -/
theorem SaysTrace.eq_of_mem {trace : List (String × Json)} {traced : Bool} {m : String × Json}
    (h : SaysTrace trace traced) (hm : m ∈ trace) : m = ("trace", .boolean traced) := by
  cases h with
  | said => exact List.mem_singleton.1 hm
  | unsaid => cases hm

namespace RuleEvaluation

/-- `p` with the field of that name taken from `x`. -/
def takeField (x p : RuleEvaluation) (name : String) : RuleEvaluation :=
  if name = "context" then { p with context := x.context } else { p with traced := x.traced }

/-- The fields may be taken in any order. -/
theorem takeField_comm (x p : RuleEvaluation) (n n' : String) :
    x.takeField (x.takeField p n) n' = x.takeField (x.takeField p n') n := by
  unfold takeField
  split <;> split <;> rfl

/-- A payload is read from any document that says its members, in any order. -/
theorem read_of_said {es : List (String × Value)} {trace : List (String × Json)} {traced : Bool}
    {ms : List (String × Json)} {d : Json.Document} {depth : Nat} (htrace : SaysTrace trace traced)
    (hperm : ms.Perm (("context", .object (es.map fun e => (e.1, e.2.toJson))) :: trace))
    (h : d.Says (.object ms)) : read (depth + 2) d = .ok ⟨some (.ofList es), traced⟩ := by
  refine (Json.record_of_perm (takeField ⟨some (.ofList es), traced⟩) hperm h (takeField_comm _)
    (fun m hm => ?_) ?_ fun slot hslot hp => ?_).trans (congrArg Except.ok ?_)
  · rcases List.mem_cons.1 hm with rfl | hm
    · refine ⟨_, rfl, fun p d hd => ?_⟩
      have hread : Context.read (depth + 1) d = .ok (.ofList es) := Context.read_of_saidMembers hd
      simp only [Json.readOptional_of_said hd Json.noConfusion hread]
      rfl
    · rw [htrace.eq_of_mem hm]
      refine ⟨_, rfl, fun p d hd => ?_⟩
      simp only [Json.readFlag_of_said hd]
      rfl
  · cases htrace <;> simp [Entries.names]
  · -- no field is required
    simp only [slots, List.mem_cons, List.not_mem_nil, or_false] at hslot
    rcases hslot with rfl | rfl <;> cases hp
  · -- without a record is what a payload says before anything is read
    cases htrace <;> rfl

end RuleEvaluation

namespace TreeEvaluation

/-- `p` with the field of that name taken from `x`. -/
def takeField (x p : TreeEvaluation) (name : String) : TreeEvaluation :=
  if name = "ast" then { p with ast := x.ast }
  else if name = "context" then { p with context := x.context }
  else { p with traced := x.traced }

/-- The fields may be taken in any order. -/
theorem takeField_comm (x p : TreeEvaluation) (n n' : String) :
    x.takeField (x.takeField p n) n' = x.takeField (x.takeField p n') n := by
  unfold takeField
  repeat' split
  all_goals rfl

/-- A payload is read from any document that says its members, in any order, if the value in it is
no higher than the depth inside allows. Whether the value is a tree does not matter yet. -/
theorem read_of_said {ast : Json} {es : List (String × Value)} {trace : List (String × Json)}
    {traced : Bool} {ms : List (String × Json)} {d : Json.Document} {depth : Nat}
    (hregular : ast.Regular) (hnull : ast ≠ .null) (hheight : ast.height ≤ depth + 1)
    (htrace : SaysTrace trace traced)
    (hperm : ms.Perm
      (("ast", ast) :: ("context", .object (es.map fun e => (e.1, e.2.toJson))) :: trace))
    (h : d.Says (.object ms)) :
    read (depth + 2) d = .ok ⟨some ast, some (.ofList es), traced⟩ := by
  refine (Json.record_of_perm (takeField ⟨some ast, some (.ofList es), traced⟩) hperm h
    (takeField_comm _) (fun m hm => ?_) ?_ fun slot hslot hp => ?_).trans (congrArg Except.ok ?_)
  · rcases List.mem_cons.1 hm with rfl | hm
    · refine ⟨_, rfl, fun p d hd => ?_⟩
      have hread := Json.readAny_of_said hd hregular hheight
      simp only [Json.readOptional_of_said hd hnull hread]
      rfl
    rcases List.mem_cons.1 hm with rfl | hm
    · refine ⟨_, rfl, fun p d hd => ?_⟩
      have hread : Context.read (depth + 1) d = .ok (.ofList es) := Context.read_of_saidMembers hd
      simp only [Json.readOptional_of_said hd Json.noConfusion hread]
      rfl
    · rw [htrace.eq_of_mem hm]
      refine ⟨_, rfl, fun p d hd => ?_⟩
      simp only [Json.readFlag_of_said hd]
      rfl
  · cases htrace <;> simp [Entries.names]
  · -- no field is required
    simp only [slots, List.mem_cons, List.not_mem_nil, or_false] at hslot
    rcases hslot with rfl | rfl | rfl <;> cases hp
  · -- without a record is what a payload says before anything is read
    cases htrace <;> rfl

end TreeEvaluation

end Http

end Rulebook
