import Rulebook.Value
import Rulebook.Operator
import Rulebook.Store.Fault

/-!
# Events

The things that are worth a line in the journal. An `Event` says what happened; its level, the part
of the service that it belongs to, its message and its fields follow from that.
-/

namespace Rulebook.Journal

/-- How much an event matters, the most important first. -/
inductive Level where
  | error
  | warn
  | info
  | debug
  | trace
  deriving DecidableEq, Repr

namespace Level

/-- The name of a level. -/
def name : Level → String
  | .error => "ERROR"
  | .warn => "WARN"
  | .info => "INFO"
  | .debug => "DEBUG"
  | .trace => "TRACE"

/-- The rank of a level; what matters less has a higher rank. -/
def rank : Level → Nat
  | .error => 1
  | .warn => 2
  | .info => 3
  | .debug => 4
  | .trace => 5

end Level

/-- The value of a field. -/
inductive FieldValue where
  | number (i : Int)
  | flag (b : Bool)
  | text (s : String)
  deriving DecidableEq, Repr

/-- Something that happened. -/
inductive Event where
  /-- A rule of so many words was read. -/
  | ruleRead (words : Nat)
  /-- So many rules were combined. -/
  | rulesCombined (count : Nat) (connective : Connective)
  /-- The catalogue took in a rule. -/
  | ruleStored (id : Int64)
  | ruleCreated (id : Int64)
  | ruleUpdated (id : Int64)
  | ruleDeleted (id : Int64)
  /-- A combination of so many rules was stored. -/
  | combinationSaved (id : Int64) (count : Nat)
  /-- A rule was evaluated, in so many microseconds. -/
  | ruleEvaluated (result : Value) (elapsed : Nat)
  | storageFailed (fault : StorageFault)
  | poolClosed
  | loggingStarted (service level : String) (json : Bool)
  deriving DecidableEq, Repr

namespace Event

/-- How much the event matters. -/
def level : Event → Level
  | .ruleRead _ | .rulesCombined _ _ | .ruleStored _ | .ruleEvaluated _ _ => .debug
  | .storageFailed _ => .error
  | _ => .info

/-- The part of the service that the event belongs to. -/
def target : Event → String
  | .ruleRead _ => "rule_engine::builder"
  | .rulesCombined _ _ => "rule_engine::combinator"
  | .ruleStored _ => "rule_api_service::repository::memory"
  | .storageFailed _ => "rule_api_service::error"
  | .poolClosed => "rule_api_service::repository::postgres"
  | .loggingStarted _ _ _ => "rule_shared::observability"
  | _ => "rule_api_service::handlers::rule"

/-- The sentence that describes the event. -/
def message : Event → String
  | .ruleRead _ => "Rule AST built"
  | .rulesCombined _ _ => "Rules combined"
  | .ruleStored _ => "Rule stored in memory"
  | .ruleCreated _ => "Rule created"
  | .ruleUpdated _ => "Rule updated"
  | .ruleDeleted _ => "Rule deleted"
  | .combinationSaved _ _ => "Combined rule saved"
  | .ruleEvaluated _ _ => "Rule evaluated"
  | .storageFailed _ => "Database operation failed"
  | .poolClosed => "Database connection pool closed"
  | .loggingStarted _ _ _ => "Logging initialized"

/-- The fields of the event besides its message, in order. -/
def fields : Event → List (String × FieldValue)
  | .ruleRead words => [("token_count", .number words)]
  | .rulesCombined count c => [("rule_count", .number count), ("connective", .text c.symbol)]
  | .ruleStored id | .ruleCreated id | .ruleUpdated id | .ruleDeleted id =>
    [("rule_id", .number id.toInt)]
  | .combinationSaved id count => [("rule_id", .number id.toInt), ("count", .number count)]
  | .ruleEvaluated result elapsed =>
    [("result", .text result.text), ("elapsed_us", .number elapsed)]
  | .storageFailed fault => [("error", .text fault.text)]
  | .poolClosed => []
  | .loggingStarted service level json =>
    [("service", .text service), ("log_level", .text level), ("json_logs", .flag json)]

/-- The names of all fields of the event. -/
def fieldNames (e : Event) : List String :=
  "message" :: e.fields.map Prod.fst

end Event

end Rulebook.Journal
