import Rulebook.Journal.Event
import Rulebook.Json.Value

/-!
# Lines

How an event is written: as text for a terminal, with the level in its colour and the names of
fields set off, or as a JSON record. What depends on the moment, the time and the thread, comes from
outside.
-/

namespace Rulebook.Journal

/-- A line of the journal. -/
inductive Line where
  | text (s : String)
  | record (v : Json)

/-- The circumstances of an event. -/
structure Circumstances where
  /-- The time, as it is written. -/
  time : String
  /-- The name of the thread. -/
  thread : String
  deriving DecidableEq, Repr

/-- The ways in which a terminal sets off a text. -/
inductive Style where
  | dim
  | slanted
  | coloured (level : Level)
  deriving DecidableEq, Repr

namespace Style

/-- The number of a style on a terminal. -/
def number : Style → String
  | .dim => "2"
  | .slanted => "3"
  | .coloured .error => "31"
  | .coloured .warn => "33"
  | .coloured .info => "32"
  | .coloured .debug => "34"
  | .coloured .trace => "35"

/-- A text in a style. -/
def apply (s : Style) (text : String) : String :=
  "\x1b[" ++ s.number ++ "m" ++ text ++ "\x1b[0m"

end Style

/-- The name of a level, five characters wide. -/
def Level.aligned (l : Level) : String :=
  String.ofList (List.replicate (5 - l.name.length) ' ') ++ l.name

namespace FieldValue

/-- The value of a field as text. -/
def shown : FieldValue → String
  | .number i => Text.ofInt i
  | .flag true => "true"
  | .flag false => "false"
  | .text s => s

/-- The value of a field as JSON. -/
def toJson : FieldValue → Json
  | .number i => .int i
  | .flag b => .boolean b
  | .text s => .string s

end FieldValue

namespace Line

/-- A field on a terminal. -/
def ofField (name : String) (value : FieldValue) : String :=
  " " ++ Style.slanted.apply name ++ Style.dim.apply "=" ++ value.shown

/-- An event as text. -/
def textOf (when : Circumstances) (e : Event) : String :=
  Style.dim.apply when.time ++ " " ++ (Style.coloured e.level).apply e.level.aligned ++ " " ++
    Style.dim.apply e.target ++ Style.dim.apply ":" ++ " " ++ e.message ++
    String.join (e.fields.map fun f => ofField f.1 f.2)

/-- The fields of an event as JSON. -/
def fieldsOf (e : Event) : Json :=
  .object (("message", .string e.message) :: e.fields.map fun f => (f.1, f.2.toJson))

/-- An event as a record. -/
def recordOf (when : Circumstances) (e : Event) : Json :=
  .object [("timestamp", .string when.time), ("level", .string e.level.name),
    ("fields", fieldsOf e), ("target", .string e.target), ("threadId", .string when.thread)]

/-- An event as a line. -/
def ofEvent (json : Bool) (when : Circumstances) (e : Event) : Line :=
  if json then .record (recordOf when e) else .text (textOf when e)

end Line

end Rulebook.Journal
