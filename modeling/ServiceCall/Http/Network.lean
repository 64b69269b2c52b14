import ServiceCall.Http.Message
import ServiceCall.Retry.Run

/-!
# One attempt on the network

What a single attempt can come to: headers with a body that may still break off, or an error. Reading
the body to its end counts as part of the attempt.
-/

namespace ServiceCall.Http

/-- What went wrong on the network. -/
inductive NetworkFault where
  /-- No connection was made. -/
  | connect
  /-- No connection was made in time. -/
  | connectTimeout
  /-- There was no answer, or no end of its body, in time. -/
  | timeout
  /-- The connection was lost before an answer came. -/
  | reset
  /-- The body of the answer broke off while it was read. -/
  | bodyCut
  /-- The body of the request could not be handed on. -/
  | bodyUnsent
  /-- The request could not be made. -/
  | invalidRequest
  /-- A stage between the client and the network refused. -/
  | refused
deriving DecidableEq, Repr

/-- An error of the network, with its text and the texts of its causes. -/
structure NetworkError where
  fault : NetworkFault
  text : String
  causes : List String := []
deriving DecidableEq, Repr

/-- Time had run out. -/
def NetworkFault.isTimeout : NetworkFault → Bool
  | .timeout => true
  | .connectTimeout => true
  | _ => false

/-- No connection had been made. -/
def NetworkFault.isConnect : NetworkFault → Bool
  | .connect => true
  | .connectTimeout => true
  | _ => false

/-- The fault is put down to a body that is handed on. A body that breaks off while it is read is a
fault of the reading instead. -/
def NetworkFault.isBody : NetworkFault → Bool
  | .bodyUnsent => true
  | _ => false

/-- Another attempt could mend the fault. -/
def NetworkFault.isTransient : NetworkFault → Bool
  | .connect => true
  | .connectTimeout => true
  | .timeout => true
  | .reset => true
  | _ => false

/-- What a fault means for another attempt. -/
def NetworkFault.failure (fault : NetworkFault) : Retry.Failure :=
  if fault.isTimeout && !fault.isConnect then .timeout
  else if fault.isBody then .connection
  else if fault.isTransient then .connection
  else .fatal

/-- The head of an answer, and its body or what breaks while it is read. -/
structure Answer where
  status : Nat
  headers : List (String × Bytes) := []
  body : Except NetworkError Bytes := .ok []

/-- What an attempt came to. -/
abbrev Outcome := Except NetworkError Answer

/-- Reads the body of an answer to its end; a body that breaks is an error of the attempt. -/
def buffer : Outcome → Outcome
  | .error e => .error e
  | .ok answer =>
    match answer.body with
    | .ok _ => .ok answer
    | .error e => .error e

/-- The status of a service that is not available. -/
def unavailableStatus : Nat := 503

/-- Why an attempt gave no usable response; nothing if it did. -/
def classify : Outcome → Option Retry.Failure
  | .ok answer => if answer.status = unavailableStatus then some .serviceUnavailable else none
  | .error e => some e.fault.failure

/-- The text of the error of an attempt. -/
def errorText? : Outcome → Option String
  | .ok _ => none
  | .error e => some e.text

/-- What the attempts on a request go by. -/
def procedure {ρ : Type} (policy : Retry.Policy) (method : String) (copy? : ρ → Option ρ)
    (draw : Nat → Nat) : Retry.Procedure ρ Outcome :=
  ⟨policy, method, copy?, classify, errorText?, draw⟩

/-- Attempts on a request by a policy. A request whose body can be sent only once has no copy: it is
sent once, and the body of its answer is left unread. -/
def passage? {ρ : Type} (policy : Retry.Policy) (method : String) (copy? : ρ → Option ρ)
    (draw : Nat → Nat) (script : Nat → Outcome) (request : ρ) : Option (Retry.Course ρ Outcome) :=
  match copy? request with
  | none => some ⟨[.send request], script 0, {}⟩
  | some attempt =>
    (procedure policy method copy? draw).runFrom (fun k => buffer (script k)) request attempt {}

/-- The headers of an answer in small letters; values with bytes beyond printable ASCII and the tab
are left out, and of several values the last one stays. -/
def responseHeaders (headers : List (String × Bytes)) : KeyMap String :=
  headers.foldl
    (fun m (name, value) =>
      if value.all fun b => b == 9 || (32 ≤ b && b ≤ 126) then
        m.insert (lowerName name) ((Utf8.decode? value).getD "")
      else m)
    .empty

end ServiceCall.Http
