import Rulebook.Json.Document

/-!
# JSON values

`Json` is the type of complete JSON values: what is answered, and what a document says when nothing
more is known about its shape. A number is kept as it is written. `write` gives the one compact text
of a value; `toDocument` gives the document that this text reads back as.
-/

namespace Rulebook

/-- A complete JSON value. The members of an object have different names. -/
inductive Json where
  | null
  | boolean (b : Bool)
  | number (n : Json.Numeral)
  | string (s : String)
  | array (items : List Json)
  | object (members : List (String × Json))

instance : Inhabited Json := ⟨.null⟩

namespace Json

/-- An integer, written without a sign unless it is negative. -/
def int (i : Int) : Json :=
  .number ⟨decide (i < 0), (Nat.repr i.natAbs).toList, [], none⟩

/-- A text, or `null` for none. -/
def optional : Option String → Json
  | none => .null
  | some s => .string s

/-! ### Writing -/

/-- The hexadecimal digit of a number below sixteen. -/
def hexChar (n : Nat) : Char :=
  if n < 10 then Char.ofNat ('0'.toNat + n) else Char.ofNat ('a'.toNat + n - 10)

/-- A character inside a string: quotes, backslashes and control characters are escaped. -/
def escape (c : Char) : List Char :=
  if c = '"' then ['\\', '"']
  else if c = '\\' then ['\\', '\\']
  else if c = '\x08' then ['\\', 'b']
  else if c = '\x0c' then ['\\', 'f']
  else if c = '\n' then ['\\', 'n']
  else if c = '\r' then ['\\', 'r']
  else if c = '\t' then ['\\', 't']
  else if c.toNat < 0x20 then ['\\', 'u', '0', '0', hexChar (c.toNat / 16), hexChar (c.toNat % 16)]
  else [c]

/-- A string with its quotes. -/
def writeString (s : String) : List Char :=
  '"' :: (s.toList.flatMap escape ++ ['"'])

/-- A number. -/
def writeNumeral (n : Numeral) : List Char :=
  (if n.negative then ['-'] else []) ++ n.whole ++
    (if n.fraction.isEmpty then [] else '.' :: n.fraction) ++
    match n.exponent with
    | none => []
    | some (negative, ds) => 'e' :: ((if negative then ['-'] else []) ++ ds)

mutual

/-- The compact text of a value. -/
def write : Json → List Char
  | .null => ['n', 'u', 'l', 'l']
  | .boolean true => ['t', 'r', 'u', 'e']
  | .boolean false => ['f', 'a', 'l', 's', 'e']
  | .number n => writeNumeral n
  | .string s => writeString s
  | .array items => '[' :: writeItems items
  | .object members => '\x7b' :: writeMembers members

/-- The elements of an array, up to the closing bracket. -/
def writeItems : List Json → List Char
  | [] => [']']
  | [v] => v.write ++ [']']
  | v :: vs => v.write ++ ',' :: writeItems vs

/-- The members of an object, up to the closing brace. -/
def writeMembers : List (String × Json) → List Char
  | [] => ['\x7d']
  | [(name, v)] => writeString name ++ ':' :: (v.write ++ ['\x7d'])
  | (name, v) :: ms => writeString name ++ ':' :: (v.write ++ ',' :: writeMembers ms)

end

/-- The compact text of a value, as a string. -/
def text (v : Json) : String :=
  String.ofList v.write

/-! ### Height -/

mutual

/-- How many arrays and objects stand inside one another. -/
def height : Json → Nat
  | .array items => itemsHeight items + 1
  | .object members => membersHeight members + 1
  | _ => 0

/-- The greatest height of an element. -/
def itemsHeight : List Json → Nat
  | [] => 0
  | v :: vs => max v.height (itemsHeight vs)

/-- The greatest height of a member. -/
def membersHeight : List (String × Json) → Nat
  | [] => 0
  | (_, v) :: ms => max v.height (membersHeight ms)

end

/-! ### Documents of values -/

/-- A text as the pieces of a written string. -/
def pieces (s : String) : List Piece :=
  s.toList.map .char

mutual

/-- The document of a value. -/
def toDocument : Json → Document
  | .null => .null
  | .boolean b => .boolean b
  | .number n => .number n
  | .string s => .string (pieces s)
  | .array items => .array (itemsOf items)
  | .object members => .object (membersOf members)

/-- The elements of an array as a document has them. -/
def itemsOf : List Json → Items
  | [] => .done
  | v :: vs => .more v.toDocument (itemsOf vs)

/-- The members of an object as a document has them. -/
def membersOf : List (String × Json) → Members
  | [] => .done
  | (name, v) :: ms => .more (.string (pieces name)) v.toDocument (membersOf ms)

end

end Json

end Rulebook
