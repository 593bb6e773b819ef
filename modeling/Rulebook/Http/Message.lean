import Rulebook.Json.Reader

/-!
# Requests and responses

What the service is asked and what it answers. Of a request only the method, the path, the header
with the content type and the body matter.

A response has a JSON body or none. The responses that refuse a request before anything is done
about it have none here: most of them come with a line of plain text that tells a reader why, and
that line is left out, so that such a response is no more than its status.
-/

namespace Rulebook.Http

/-- A request. -/
structure Request where
  method : String
  /-- The path, perhaps with a query. -/
  path : String
  contentType : Option String
  /-- The body, as text. What is sent may be any bytes, but of bodies that are not text in UTF-8
  nothing can be said here. -/
  body : String
  deriving DecidableEq, Repr

/-- A response. -/
structure Response where
  status : Nat
  body : Option Json

namespace Response

/-- A response of which only the status is told: it has no body, or a line of plain text that is
left out. -/
def bare (status : Nat) : Response := ⟨status, none⟩

/-- The envelope of an answer. -/
def success (data : Json) : Response :=
  ⟨200, some (.object [("success", .boolean true), ("code", .string "SUCCESS"),
    ("message", .string "操作成功"), ("data", data)])⟩

/-- The envelope of a failure. -/
def failure (status : Nat) (code message : String) : Response :=
  ⟨status, some (.object [("success", .boolean false), ("code", .string code),
    ("message", .string message), ("data", .null)])⟩

end Response

/-- Why a request is refused before anything is done about it. -/
inductive Refusal where
  /-- There is nothing at the path. -/
  | unknownPath
  /-- What is at the path does not know the method. -/
  | unknownMethod
  /-- The number in the path is none. -/
  | unusableNumber
  /-- The body is not said to be JSON. -/
  | notJson
  /-- The body is too long. -/
  | tooLong
  /-- The body cannot be read. -/
  | unreadable (fault : Json.Fault)
  deriving DecidableEq, Repr

/-- The status of a refusal. -/
def Refusal.status : Refusal → Nat
  | .unknownPath => 404
  | .unknownMethod => 405
  | .unusableNumber => 400
  | .notJson => 415
  | .tooLong => 413
  | .unreadable .malformed => 400
  | .unreadable .misshapen => 422

end Rulebook.Http
