import Rulebook.Journal.Filter
import Rulebook.Journal.Line
import Rulebook.Json.Reader

/-!
# Logs

A process opens its log once, from settings and from a filter that may have been given to the
process; to open it again fails. Opening leaves the first event.
-/

namespace Rulebook.Journal

/-- What the settings say about the log. -/
structure LogSettings where
  /-- The filter; mostly just a level. -/
  level : String := "info"
  /-- Lines are JSON records. -/
  json : Bool := false
  deriving DecidableEq, Repr

namespace LogSettings

/-- The fields of the settings. -/
def slots : List (Json.Slot LogSettings) :=
  [⟨"log_level", .defaulted, fun s d => return { s with level := ← Json.readText d }⟩,
   ⟨"json_logs", .defaulted, fun s d => return { s with json := ← Json.readFlag d }⟩]

/-- The settings that a JSON text denotes. -/
def ofText (text : String) : Except Json.Fault LogSettings :=
  Json.readWhole (Json.record Json.maxDepth (fun _ => slots) {}) text

end LogSettings

/-- An open log. -/
structure Log where
  filter : Filter
  json : Bool
  deriving DecidableEq, Repr

namespace Log

/-- Opens the log of a process, unless it is open already. -/
def start? (present : Option Log) (given : Option String) (s : LogSettings) : Option Log :=
  match present with
  | none => some ⟨Filter.select given s.level, s.json⟩
  | some _ => none

/-- The event of opening a log. -/
def opening (service : String) (s : LogSettings) : Event :=
  .loggingStarted service s.level s.json

/-- The lines that a log keeps of events. -/
def lines (log : Log) (when : Circumstances) (events : List Event) : List Line :=
  (events.filter log.filter.keeps).map (Line.ofEvent log.json when)

end Log

end Rulebook.Journal
