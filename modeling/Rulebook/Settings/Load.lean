import Rulebook.Settings.Application
import Rulebook.Settings.Dotenv
import Rulebook.Text.Uppercase
import Rulebook.Toml.Document

/-!
# Loading the settings

The settings of a service come in layers, each laid over those before it:

* the name of the service and that of its environment;
* three files that need not be there: one for all, one for the environment, one for the service;
* the variables of the process, to which a file `.env` adds those that are not set.

The result is read as a record, and what no layer sets keeps its default. Last, a variable of its
own may set the port of the service.
-/

namespace Rulebook.Settings

/-- What surrounds a service when it starts. -/
structure Surroundings where
  /-- The variables of the process. -/
  process : Variables
  /-- The text of a file, if the file is there. -/
  file : String → Option String

/-- Why settings cannot be loaded. -/
inductive Fault where
  /-- A file is not well formed. -/
  | unreadable (name : String)
  /-- A setting cannot stand for its field. -/
  | unfit
  deriving DecidableEq, Repr

/-- The variables of the process with those of the file `.env`. -/
def Surroundings.allVariables (w : Surroundings) : Variables :=
  match w.file ".env" with
  | some text => Dotenv.load w.process text
  | none => w.process

/-- The path of a file in a folder. -/
def inFolder (folder file : String) : String :=
  if file.startsWith "/" || folder.isEmpty then file
  else if folder.endsWith "/" then folder ++ file
  else folder ++ "/" ++ file

/-- The name of a file ends in a name in front of its dot. -/
def isNamed (name : String) : Bool :=
  !name.isEmpty && !name.endsWith "/"

/-- The text of a file of settings. A file without a name in front of its dot does not count, and in
place of one that is not there the file counts that has the ending twice. -/
def fileText (w : Surroundings) (folder name : String) : Option String :=
  let path := inFolder folder (name ++ ".toml")
  match w.file path with
  | some text => if isNamed name then some text else none
  | none => w.file (path ++ ".toml")

/-- The entries of a file of settings; if there is none, there are no entries. -/
def readFile (w : Surroundings) (folder name : String) :
    Except Fault (List (String × Setting)) :=
  match fileText w folder name with
  | none => .ok []
  | some text =>
    match Toml.read? text with
    | some entries => .ok entries
    | none => .error (.unreadable name)

/-- The name of the variable that sets the port of a service. -/
def portVariable (service : String) : String :=
  if service = "rule-api-service" then "RULE_API_PORT"
  else
    let word := (Text.uppercase service).toList.map fun c => if c = '-' then '_' else c
    String.ofList word ++ "_PORT"

/-- The port that the variables set for a service. -/
def servicePort? (vs : Variables) (service : String) : Option Nat :=
  vs.get? (portVariable service) >>= fun v => Text.natBelow? ServerSettings.portBound v.toList

/-- The environment that the variables name. -/
def environmentOf (vs : Variables) : String :=
  (vs.get? "RULES_ENV").getD "development"

/-- The folder of the files of settings. -/
def folderOf (vs : Variables) : String :=
  (vs.get? "CONFIG_DIR").getD "config"

/-- The names that a service has before any layer. -/
def names (service environment : String) : List (String × Setting) :=
  [("service_name", .text service), ("environment", .text environment)]

/-- The layers of the settings of a service, the lowest first. -/
def layers (service : String) (w : Surroundings) :
    Except Fault (List (List (String × Setting))) := do
  let vs := w.allVariables
  let environment := environmentOf vs
  let read := readFile w (folderOf vs)
  let common ← read "default"
  let ofEnvironment ← read environment
  let ofService ← read service
  return [names service environment, common, ofEnvironment, ofService, vs.settings]

/-- The settings of a service. -/
def load (service : String) (w : Surroundings) : Except Fault Settings := do
  let ls ← layers service w
  -- the fields are read only once, from all layers together
  match ofTable? (ls.foldl Setting.layer (.table [])) with
  | none => throw .unfit
  | some s =>
    match servicePort? w.allVariables service with
    | some port => return { s with server := { s.server with port } }
    | none => return s

end Rulebook.Settings
