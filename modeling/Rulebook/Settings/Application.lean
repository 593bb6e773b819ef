import Rulebook.Settings.Database
import Rulebook.Journal.Log

/-!
# Settings of the application

Everything that can be set: the names of the service and of its environment, the kind of store, and
the sections of the server, the database and the log.
-/

namespace Rulebook

/-- The settings of the server. -/
structure ServerSettings where
  host : String := "0.0.0.0"
  port : Nat := 8080
  deriving DecidableEq, Repr

/-- The kinds of stores. -/
inductive StoreKind where
  /-- A store in a database. -/
  | postgres
  /-- A store in memory, which is lost when the service stops. -/
  | memory
  deriving DecidableEq, Repr

/-- The name of a kind of stores. -/
def StoreKind.name : StoreKind → String
  | .postgres => "postgres"
  | .memory => "memory"

/-- The settings of the application. -/
structure Settings where
  service : String := ""
  environment : String := ""
  store : StoreKind := .postgres
  server : ServerSettings := {}
  database : DatabaseSettings := {}
  log : Journal.LogSettings := {}
  deriving DecidableEq, Repr

namespace ServerSettings

/-- Ports lie below this bound. -/
def portBound : Nat := UInt16.size

/-- The fields of the server. -/
def fields : List (Setting.Field ServerSettings) :=
  [⟨"host", fun s v => return { s with host := ← v.toText? }⟩,
   ⟨"port", fun s v => return { s with port := ← v.toNatBelow? portBound }⟩]

/-- Where the server listens. -/
def address (s : ServerSettings) : String :=
  s.host ++ ":" ++ Nat.repr s.port

end ServerSettings

/-- The fields of the log. -/
def Journal.LogSettings.fields : List (Setting.Field Journal.LogSettings) :=
  [⟨"log_level", fun s v => return { s with level := ← v.toText? }⟩,
   ⟨"json_logs", fun s v => return { s with json := ← v.toFlag? }⟩]

namespace Settings

/-- The kinds of stores by name. -/
def storeNames : List (String × StoreKind) :=
  [StoreKind.postgres, .memory].map fun k => (k.name, k)

/-- The fields of the application. -/
def fields : List (Setting.Field Settings) :=
  [⟨"service_name", fun s v => return { s with service := ← v.toText? }⟩,
   ⟨"environment", fun s v => return { s with environment := ← v.toText? }⟩,
   ⟨"storage", fun s v => return { s with store := ← v.toNamed? storeNames }⟩,
   ⟨"server", fun s v => return { s with server := ← v.toSection? ServerSettings.fields {} }⟩,
   ⟨"database", fun s v => return { s with database := ← v.toSection? DatabaseSettings.fields {} }⟩,
   ⟨"observability", fun s v =>
      return { s with log := ← v.toSection? Journal.LogSettings.fields {} }⟩]

/-- The settings that a table stands for, if it stands for some. -/
def ofTable? (root : Setting) : Option Settings :=
  root.toSection? fields {}

/-- The service runs in production. -/
def isProduction (s : Settings) : Bool :=
  s.environment = "production"

end Settings

end Rulebook
