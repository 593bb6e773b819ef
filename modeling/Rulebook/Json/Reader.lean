import Rulebook.Entries
import Rulebook.Json.Value

/-!
# Reading documents with a shape in mind

A reader goes through a document from front to back and stops at the first fault. There are two
kinds of fault: the text is *malformed* (it is no JSON, or JSON beyond what can be read: too deep,
a number beyond double precision, half of a surrogate pair), or it is *misshapen* (fine JSON of the
wrong shape). Which of the two is met first decides.

A number, a string or a literal of the wrong kind is read to its end before it is found to be of
the wrong kind; an array or an object is not.

`record` reads a structure with named fields, written as an object or as an array of its fields in
order. `depth` is everywhere the number of arrays and objects that may still be opened; what is
skipped (the value of an unknown field) may be of any depth.
-/

namespace Rulebook.Json

/-- What can be wrong with a document. -/
inductive Fault where
  /-- The text is no JSON that can be read. -/
  | malformed
  /-- The text is JSON of the wrong shape. -/
  | misshapen
  deriving DecidableEq, Repr

/-- How many arrays and objects a document may open inside one another. -/
def maxDepth : Nat := 127

/-- The fault of a document that is not of the kind that is due. -/
def mismatch : Document → Fault
  | .unread => .malformed
  | .number n => if n.isTooLarge then .malformed else .misshapen
  | .string ps => if (text? ps).isSome then .misshapen else .malformed
  | _ => .misshapen

/-! ### Single values -/

/-- Reads a text. -/
def readText : Document → Except Fault String
  | .string ps =>
    match text? ps with
    | some s => .ok s
    | none => .error .malformed
  | d => .error (mismatch d)

/-- Reads a truth value. -/
def readFlag : Document → Except Fault Bool
  | .boolean b => .ok b
  | d => .error (mismatch d)

/-- Reads an integer between two bounds. -/
def readInt (least greatest : Int) : Document → Except Fault Int
  | .number n =>
    if n.isTooLarge then .error .malformed
    else match n.toInt? with
      | some i => if least ≤ i ∧ i ≤ greatest then .ok i else .error .misshapen
      | none => .error .misshapen
  | d => .error (mismatch d)

/-- Reads a signed word of 64 bits. -/
def readInt64 (d : Document) : Except Fault Int64 :=
  (readInt Int64.minValue.toInt Int64.maxValue.toInt d).map Int64.ofInt

/-- Reads a value that may be `null`. -/
def readOptional {α : Type} (read : Document → Except Fault α) :
    Document → Except Fault (Option α)
  | .null => .ok none
  | d => (read d).map some

/-- Finds the meaning of a name. -/
def readName {α : Type} (names : List (String × α)) (d : Document) : Except Fault α := do
  let name ← readText d
  match Entries.find? name names with
  | some a => return a
  | none => throw .misshapen

/-- Reads one of several names. It may also be written as an object with the name as its only key
and `null` as its value. -/
def readVariant {α : Type} (depth : Nat) (names : List (String × α)) :
    Document → Except Fault α
  | .string ps => readName names (.string ps)
  | .object members =>
    if depth = 0 then .error .malformed
    else match members with
      | .more key value tail => do
        let a ← readName names key
        match value, tail with
        -- the name decides before the value is looked at
        | .null, .done => return a
        | .null, _ => throw .malformed
        | d, _ => throw (mismatch d)
      | _ => .error .malformed
  | _ => .error .malformed

/-- Reads the elements of an array. -/
def readItems {α : Type} (read : Document → Except Fault α) : Items → Except Fault (List α)
  | .done => .ok []
  | .cut => .error .malformed
  | .more head tail => do
    let a ← read head
    let as ← readItems read tail
    return a :: as

/-- Reads an array of values of one kind. -/
def readList {α : Type} (depth : Nat) (read : Nat → Document → Except Fault α) :
    Document → Except Fault (List α)
  | .array items =>
    match depth with
    | 0 => .error .malformed
    | depth + 1 => readItems (read depth) items
  | d => .error (mismatch d)

/-- Reads the members of an object with any keys, and takes them into `found` one by one. -/
def readEntries {σ α : Type} (read : Document → Except Fault α) (insert : σ → String → α → σ)
    (found : σ) : Members → Except Fault σ
  | .done => .ok found
  | .cut => .error .malformed
  | .more key value tail => do
    match key with
    | .string ps =>
      match text? ps with
      | none => throw .malformed
      | some name =>
        let a ← read value
        readEntries read insert (insert found name a) tail
    | _ => throw .malformed

mutual

/-- Reads a document of any shape. -/
def readAny (depth : Nat) : Document → Except Fault Json
  | .unread => .error .malformed
  | .null => .ok .null
  | .boolean b => .ok (.boolean b)
  | .number n => if n.isTooLarge then .error .malformed else .ok (.number n)
  | .string ps =>
    match text? ps with
    | some s => .ok (.string s)
    | none => .error .malformed
  | .array items =>
    match depth with
    | 0 => .error .malformed
    | depth + 1 => (readAnyItems depth items).map .array
  | .object members =>
    match depth with
    | 0 => .error .malformed
    | depth + 1 => (readAnyMembers depth [] members).map .object

/-- Reads elements of any shape. -/
def readAnyItems (depth : Nat) : Items → Except Fault (List Json)
  | .done => .ok []
  | .cut => .error .malformed
  | .more head tail => do
    let v ← readAny depth head
    let vs ← readAnyItems depth tail
    return v :: vs

/-- Reads members of any shape; the last value of a name counts. -/
def readAnyMembers (depth : Nat) (found : List (String × Json)) :
    Members → Except Fault (List (String × Json))
  | .done => .ok found
  | .cut => .error .malformed
  | .more key value tail => do
    match key with
    | .string ps =>
      match text? ps with
      | none => throw .malformed
      | some name =>
        let v ← readAny depth value
        readAnyMembers depth (Entries.set name v found) tail
    | _ => throw .malformed

end

/-! ### Records -/

/-- When a field may be left out. -/
inductive Presence where
  /-- Never. -/
  | required
  /-- In an object, but not in an array. -/
  | nullable
  /-- In an object, and at the end of an array. -/
  | defaulted
  deriving DecidableEq, Repr

/-- A field of a record that is read into `σ`. -/
structure Slot (σ : Type) where
  name : String
  presence : Presence
  /-- Reads the value of the field into the record. -/
  read : σ → Document → Except Fault σ

/-- Reads a record from the members of an object. A known name that comes a second time is a fault
as soon as it is read; an unknown name is skipped with its value. -/
def recordOfMembers {σ : Type} (slots : List (Slot σ)) (seen : List String) (s : σ) :
    Members → Except Fault σ
  | .done =>
    if slots.all fun slot => slot.presence ≠ .required || seen.contains slot.name then .ok s
    else .error .misshapen
  | .cut => .error .malformed
  | .more key value tail =>
    match key with
    | .string ps =>
      match text? ps with
      | none => .error .malformed
      | some name =>
        match slots.find? fun slot => slot.name = name with
        -- of an unknown field the value only has to be JSON
        | none => if value.isIntact then recordOfMembers slots seen s tail else .error .malformed
        | some slot =>
          if seen.contains name then .error .misshapen
          else do
            let s ← slot.read s value
            recordOfMembers slots (name :: seen) s tail
    | _ => .error .malformed

/-- Reads a record from the elements of an array. -/
def recordOfItems {σ : Type} : List (Slot σ) → σ → Items → Except Fault σ
  | [], s, .done => .ok s
  -- more elements than fields
  | [], _, _ => .error .malformed
  | slot :: slots, s, .done =>
    -- the array ends early: the rest of the fields must have defaults
    if slot.presence = .defaulted then recordOfItems slots s .done else .error .misshapen
  | _ :: _, _, .cut => .error .malformed
  | slot :: slots, s, .more head tail => do
    let s ← slot.read s head
    recordOfItems slots s tail

/-- Reads a record whose fields, read at the depth inside it, start out as `s`. -/
def record {σ : Type} (depth : Nat) (slots : Nat → List (Slot σ)) (s : σ) :
    Document → Except Fault σ
  | .array items =>
    match depth with
    | 0 => .error .malformed
    | depth + 1 => recordOfItems (slots depth) s items
  | .object members =>
    match depth with
    | 0 => .error .malformed
    | depth + 1 => recordOfMembers (slots depth) [] s members
  | d => .error (mismatch d)

/-! ### Texts -/

/-- Reads a whole text; nothing but space may follow the value. -/
def readWhole {α : Type} (read : Document → Except Fault α) (text : String) : Except Fault α := do
  let (d, rest) := Document.ofChars text.toList
  let a ← read d
  if rest.isEmpty then return a else throw .malformed

end Rulebook.Json
