import ServiceCall.Client.Remote
import ServiceCall.Http.Client

/-!
# Errors of a call

A call is misconfigured, or the service cannot be reached, or the service answers with an error, or a
value cannot be carried, or a hook refuses.
-/

namespace ServiceCall

/-- Why a call gave no value. -/
inductive CallError where
  | contract (cause : ContractError)
  | transport (cause : Http.TransportError)
  | remote (cause : RemoteError)
  | bean (cause : Bean.Error)
  | interceptor (reason : String)
deriving DecidableEq, Repr

namespace CallError

/-- The text of an error. -/
def message : CallError → String
  | .contract cause => cause.message
  | .transport cause => cause.message
  | .remote cause => cause.message
  | .bean cause => cause.message
  | .interceptor reason => "web service client interceptor failed: " ++ reason

/-- The texts of the causes, the nearest first. -/
def causes : CallError → List String
  | .transport cause => cause.causes
  | .interceptor reason => [reason]
  | _ => []

end CallError

/-- The status of a response that is a success. -/
def validateResponse (r : Http.Response) : Except CallError Http.Status :=
  match Http.Status.ofCode? r.status with
  | none => .error (.contract (.unsupportedStatus r.status))
  | some status =>
    if status.isSuccess then .ok status else .error (.remote (.ofBody status r.body))

end ServiceCall
