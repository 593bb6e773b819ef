import Rulebook.Json.Lexeme

/-!
# JSON documents, read as far as they go

A `Document` is what a JSON text says up to the first place where it stops being JSON. Arrays and
objects end either where they are closed or where reading is cut off, and a value that cannot be
read is `Document.unread`. Keeping the readable front of a broken text matters because whoever reads
a document goes through it from front to back: what is wrong with the front is found before the
break is reached.
-/

namespace Rulebook.Json

mutual

/-- A JSON value, as far as it can be read. -/
inductive Document where
  /-- No value can be read here. -/
  | unread
  | null
  | boolean (b : Bool)
  | number (n : Numeral)
  | string (pieces : List Piece)
  | array (items : Items)
  | object (members : Members)

/-- The elements of an array, as far as they can be read. -/
inductive Items where
  /-- The array is closed. -/
  | done
  /-- Reading stops here. -/
  | cut
  | more (head : Document) (tail : Items)

/-- The members of an object, as far as they can be read. A key that is not a string is kept as the
value that stands in its place, and nothing is read behind it. -/
inductive Members where
  /-- The object is closed. -/
  | done
  /-- Reading stops here. -/
  | cut
  | more (key value : Document) (tail : Members)

end

namespace Document

/-! ### From lexemes to documents

A value that cannot be read swallows all lexemes, so that everything around it is cut off as
well.
-/

/-- What stands where a key is due, if it is not a string. -/
def strayKey : List Lexeme → Document
  | .null :: _ => .null
  | .boolean b :: _ => .boolean b
  | .number n :: _ => .number n
  | .openBracket :: _ => .array .cut
  | .openBrace :: _ => .object .cut
  | _ => .unread

mutual

/-- Reads a value. The first argument bounds the depth of the recursion. -/
def ofLexemes : Nat → List Lexeme → Document × List Lexeme
  | 0, _ => (.unread, [])
  | n + 1, ls =>
    match ls with
    | .null :: ls => (.null, ls)
    | .boolean b :: ls => (.boolean b, ls)
    | .number m :: ls => (.number m, ls)
    | .string ps :: ls => (.string ps, ls)
    | .openBracket :: .closeBracket :: ls => (.array .done, ls)
    | .openBracket :: ls =>
      let (items, ls) := itemsOfLexemes n ls
      (.array items, ls)
    | .openBrace :: .closeBrace :: ls => (.object .done, ls)
    | .openBrace :: ls =>
      let (members, ls) := membersOfLexemes n ls
      (.object members, ls)
    | _ => (.unread, [])

/-- Reads elements, at least one, up to the end of the array. -/
def itemsOfLexemes : Nat → List Lexeme → Items × List Lexeme
  | 0, _ => (.cut, [])
  | n + 1, ls =>
    let (head, ls) := ofLexemes n ls
    match ls with
    | .closeBracket :: ls => (.more head .done, ls)
    | .comma :: ls =>
      let (tail, ls) := itemsOfLexemes n ls
      (.more head tail, ls)
    | _ => (.more head .cut, [])

/-- Reads members, at least one, up to the end of the object. -/
def membersOfLexemes : Nat → List Lexeme → Members × List Lexeme
  | 0, _ => (.cut, [])
  | n + 1, ls =>
    match ls with
    | .string key :: .colon :: ls =>
      let (value, ls) := ofLexemes n ls
      match ls with
      | .closeBrace :: ls => (.more (.string key) value .done, ls)
      | .comma :: ls =>
        let (tail, ls) := membersOfLexemes n ls
        (.more (.string key) value tail, ls)
      | _ => (.more (.string key) value .cut, [])
    -- a key without a colon is still read as a key
    | .string key :: _ => (.more (.string key) .unread .cut, [])
    | ls => (.more (strayKey ls) .unread .cut, [])

end

/-- Reads the document at the front of a text, and the lexemes that follow it. -/
def ofChars (cs : List Char) : Document × List Lexeme :=
  let ls := lexemes cs
  -- each lexeme leads at most one value and one list of values deeper
  ofLexemes (2 * ls.length + 1) ls

end Document

/-! ### Intact documents -/

mutual

/-- The document can be read to its end. -/
def Document.isIntact : Document → Bool
  | .unread => false
  | .array items => items.isIntact
  | .object members => members.isIntact
  | _ => true

/-- The elements can be read to the end of the array. -/
def Items.isIntact : Items → Bool
  | .done => true
  | .cut => false
  | .more head tail => head.isIntact && tail.isIntact

/-- The members can be read to the end of the object. -/
def Members.isIntact : Members → Bool
  | .done => true
  | .cut => false
  | .more key value tail => key.isIntact && value.isIntact && tail.isIntact

end

end Rulebook.Json
