import Rulebook.Http.Payload
import Rulebook.RuleError
import Rulebook.Journal.Event

/-!
# Replies

What comes of a request once it is known what it asks for: a response, and the events that lead to
it. A `ServiceError` says why a request that was understood could not be fulfilled. Why a store
failed is told to the journal only.
-/

namespace Rulebook.Http

/-- Why a request could not be fulfilled. -/
inductive ServiceError where
  /-- Some demands on the payload are not met. -/
  | invalid (unmet : List Unmet)
  | rule (e : RuleError)
  /-- There is no rule with this number. -/
  | unknownRule (id : Int64)
  | storage (fault : StorageFault)
  deriving DecidableEq, Repr

namespace ServiceError

/-- The status of an error. -/
def status : ServiceError → Nat
  | .invalid _ | .rule _ => 400
  | .unknownRule _ => 404
  | .storage _ => 500

/-- The name of the kind of error. -/
def code : ServiceError → String
  | .invalid _ => "VALIDATION_ERROR"
  | .rule e => e.code
  | .unknownRule _ => "RULE_NOT_FOUND"
  | .storage _ => "DATABASE_ERROR"

/-- The sentence that describes the error. -/
def message : ServiceError → String
  | .invalid unmet => "参数验证失败: " ++ "\n".intercalate (unmet.map Unmet.text)
  | .rule e => e.message
  | .unknownRule id => "规则不存在: " ++ Text.ofInt64 id
  -- the reason stays in the journal
  | .storage _ => "服务内部错误，请稍后重试"

/-- The events of an error. -/
def events : ServiceError → List Journal.Event
  | .storage fault => [.storageFailed fault]
  | _ => []

end ServiceError

/-- A response with the events that lead to it. -/
structure Reply where
  response : Response
  events : List Journal.Event

namespace Reply

/-- The reply to a request that is refused. -/
def refused (why : Refusal) : Reply :=
  ⟨.bare why.status, []⟩

/-- The reply to a request that is fulfilled. -/
def success (data : Json) (events : List Journal.Event) : Reply :=
  ⟨.success data, events⟩

/-- The reply to a request that cannot be fulfilled. -/
def failure (e : ServiceError) : Reply :=
  ⟨.failure e.status e.code e.message, e.events⟩

/-- The reply with further events in front. -/
def after (events : List Journal.Event) (r : Reply) : Reply :=
  { r with events := events ++ r.events }

/-- The reply that depends on what a store answers. -/
def ofAnswer {α : Type} (reply : α → Reply) : Except StorageFault α → Reply
  | .ok a => reply a
  | .error fault => failure (.storage fault)

/-- The reply that depends on whether a store has a rule. -/
def ofFound {α : Type} (id : Int64) (reply : α → Reply) : Except StorageFault (Option α) → Reply :=
  ofAnswer fun
    | some a => reply a
    | none => failure (.unknownRule id)

end Reply

end Rulebook.Http
