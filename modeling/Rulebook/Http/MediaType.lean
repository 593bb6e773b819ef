import Rulebook.Text.Parts

/-!
# Media types

A media type is written as `type/subtype`, perhaps with parameters behind semicolons; the part of
the subtype behind its last plus sign is its suffix. `MediaType.isJson` tells whether it is one of
JSON: the type is `application`, and the subtype or the suffix is `json`.
-/

namespace Rulebook.Http

/-- A character of a name in a header. -/
def isTokenChar (c : Char) : Bool :=
  c.isAlphanum || "!#$%&'*+-.^_|~".toList.contains c || c.toNat = 0x60

/-- A character that a header may hold if it is to be read as text. -/
def isVisible (c : Char) : Bool :=
  (decide (0x20 ≤ c.toNat) && decide (c.toNat < 0x7f)) || c = '\t'

/-! ### Parameters -/

/-- Where a reader of parameters stands. -/
inductive ParameterState where
  /-- Before a parameter. -/
  | start
  /-- Within a name. -/
  | name
  /-- Behind the equals sign. -/
  | equals
  /-- Within a value without quotes. -/
  | bare
  /-- Behind the quote that opens a value. -/
  | opened
  /-- Within a quoted value. -/
  | quoted
  /-- Behind the quote that closes a value. -/
  | closed
  deriving DecidableEq, Repr

namespace ParameterState

/-- Reads one character. -/
def step (c : Char) : ParameterState → Option ParameterState
  | .start => if c = ' ' then some .start else if isTokenChar c then some .name else none
  | .name => if c = '=' then some .equals else if isTokenChar c then some .name else none
  | .equals => if c = '"' then some .opened else if isTokenChar c then some .bare else none
  | .bare => if c = ';' then some .start else if isTokenChar c then some .bare else none
  | .opened => if 0x1f < c.toNat then some .quoted else none
  | .quoted => if c = '"' then some .closed else if 0x1f < c.toNat then some .quoted else none
  | .closed => if c = ';' then some .start else if c = ' ' then some .closed else none

/-- The text may end here. -/
def mayEnd : ParameterState → Bool
  | .start | .equals | .bare | .closed => true
  | .name | .opened | .quoted => false

end ParameterState

/-- The parameters are well formed. A quoted value is not empty, and a quote at its beginning does
not close it. -/
def areParameters (cs : List Char) : Bool :=
  match cs.foldlM (fun state c => state.step c) ParameterState.start with
  | some state => state.mayEnd
  | none => false

/-! ### Media types -/

/-- A media type without its parameters. -/
structure MediaType where
  type : List Char
  /-- The subtype up to its last plus sign, unless it begins with that. -/
  subtype : List Char
  /-- The subtype from behind its last plus sign. -/
  suffix : Option (List Char)
  deriving DecidableEq, Repr

namespace MediaType

/-- Cuts a subtype at its last plus sign, if that is not its first character. -/
def cutSuffix (cs : List Char) : List Char × Option (List Char) :=
  match Text.cutLast '+' cs with
  | some (front, suffix) => if front.isEmpty then (cs, none) else (front, some suffix)
  | none => (cs, none)

/-- The media type that a header names. -/
def ofHeader? (header : String) : Option MediaType :=
  let cs := header.toList
  let essence := cs.takeWhile (· ≠ ';')
  let type := essence.takeWhile (· ≠ '/')
  let subtype := essence.drop (type.length + 1)
  let parameters := cs.drop (essence.length + 1)
  -- the subtype may be empty, but not in front of parameters
  let named := essence.contains '/' && !type.isEmpty && type.all isTokenChar &&
    subtype.all isTokenChar && (cs.length = essence.length || !subtype.isEmpty)
  if cs.all isVisible && named && areParameters parameters then
    let (front, suffix) := cutSuffix subtype
    some ⟨type, front, suffix⟩
  else none

/-- Two names are the same but for the case of letters. -/
def sameName (cs : List Char) (name : String) : Bool :=
  cs.map Char.toLower = name.toList

/-- The media type is one of JSON. -/
def isJson (m : MediaType) : Bool :=
  sameName m.type "application" &&
    (sameName m.subtype "json" || m.suffix.any (sameName · "json"))

end MediaType

end Rulebook.Http
