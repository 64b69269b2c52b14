import ServiceCall.Contract.Error
import ServiceCall.Http.Message
import ServiceCall.Http.Status
import ServiceCall.Log.Record

/-!
# Errors that a service answers with

A response with an error status is an error of the service. If its body is an error payload, the
error has the identity, severity, code and message of the payload, else those of a fallback.
-/

namespace ServiceCall

/-- How bad the service says its error is. -/
inductive Severity where
  | warn
  | error
deriving DecidableEq, Repr

namespace Severity

/-- The word for a severity. -/
def text : Severity → String
  | .warn => "WARN"
  | .error => "ERROR"

/-- The severity of a word. -/
def ofText? (word : String) : Option Severity :=
  if word = "WARN" then some .warn else if word = "ERROR" then some .error else none

/-- The level at which an error of this severity is told. -/
def level : Severity → Log.Level
  | .warn => .warn
  | .error => .error

/-- The severity that a value stands for: its word, or an object with its word as only name and null
as the value. -/
def ofJson? : Json → Option Severity
  | .text word => ofText? word
  | .object [(word, .null)] => ofText? word
  | _ => none

end Severity

/-- An error of the service. -/
structure RemoteError where
  /-- The identity that the service gave it. -/
  id : Option String
  severity : Severity
  code : String
  message : String
  status : Http.Status
deriving DecidableEq, Repr

namespace RemoteError

/-- What the service told in its payload. -/
structure Payload where
  id : String
  severity : Severity
  code : String
  message : String

/-- The payload made of four values. -/
def payloadOf? : Json → Json → Json → Json → Option Payload
  | .text id, severity, .text code, .text message =>
    (Severity.ofJson? severity).map fun s => ⟨id, s, code, message⟩
  | _, _, _, _ => none

/-- The payload that a value holds: an object with its four members, or an array of just these. -/
def payload? (v : Json) : Option Payload :=
  match v with
  | .object members => do
    let id ← members.lookup "id"
    let severity ← members.lookup "severity"
    let code ← members.lookup "errorCode"
    let message ← members.lookup "message"
    payloadOf? id severity code message
  | .array [id, severity, code, message] => payloadOf? id severity code message
  | _ => none

/-- The code of an error without a payload. -/
def fallbackCode : String := "REMOTE_SERVICE_ERROR"

/-- An error without a payload. -/
def fallback (status : Http.Status) (what : String) : RemoteError :=
  { id := none, severity := .error, code := fallbackCode
    message := what ++ ", statusCode=" ++ toString status.code, status }

/-- The error that a body stands for under an error status. -/
def ofBody (status : Http.Status) (body : Bytes) : RemoteError :=
  if body.isEmpty then fallback status "failed to call remote service"
  else
    match Json.read body with
    | .error _ => fallback status "internal communication failed"
    | .ok v =>
      match payload? v with
      | some p => ⟨some p.id, p.severity, p.code, p.message, status⟩
      | none => fallback status "failed to call remote service"

/-- The record that tells about an error. -/
def record (e : RemoteError) : Log.Record :=
  ⟨e.severity.level, "ws_client::service", e.message,
    [("error_code", e.code), ("status", toString e.status.code)]⟩

end RemoteError

end ServiceCall
