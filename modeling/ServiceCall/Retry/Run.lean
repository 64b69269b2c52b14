import ServiceCall.Log.Record
import ServiceCall.Retry.State

/-!
# Attempts until one is final

The outcomes of attempts are given by their numbers. Attempts are made until one succeeds or may not
be repeated; its outcome is the outcome of the call. Each attempt sends a copy of the request, and
between two attempts a warning is told and some time is waited.
-/

namespace ServiceCall.Retry

/-- One thing that is done in the course of a call. -/
inductive Step (ρ : Type) where
  | send (request : ρ)
  | warn (record : Log.Record)
  | wait (time : Duration)
deriving Repr

/-- The request that a step sends. -/
def Step.request? {ρ : Type} : Step ρ → Option ρ
  | .send request => some request
  | _ => none

/-- The record that a step tells. -/
def Step.record? {ρ : Type} : Step ρ → Option Log.Record
  | .warn record => some record
  | _ => none

/-- A call from its first attempt to its last. -/
structure Course (ρ α : Type) where
  steps : List (Step ρ)
  /-- The outcome of the last attempt. -/
  outcome : α
  state : State

namespace Course

variable {ρ α : Type}

/-- The requests that were sent, in order. -/
def sent (c : Course ρ α) : List ρ := c.steps.filterMap Step.request?

/-- The warnings, in order. -/
def warnings (c : Course ρ α) : List Log.Record := c.steps.filterMap Step.record?

/-- The course with more steps in front. -/
def behind (c : Course ρ α) (steps : List (Step ρ)) : Course ρ α := { c with steps := steps ++ c.steps }

end Course

/-- The part of the library that tells about retries. -/
def logTarget : String := "ws_client::http::retry"

/-- The warning before a wait; `error` is the text of the failure, if there was no response. -/
def warning (attempts : Nat) (wait : Duration) (error : Option String) : Log.Record :=
  let fields := [("error_code", "HTTP_COMMUNICATION_FAILED"), ("attempts", toString attempts),
    ("wait_ms", toString wait.millisWord)]
  match error with
  | some text =>
    ⟨.warn, logTarget, "http communication failed, retry soon", fields ++ [("error", text)]⟩
  | none => ⟨.warn, logTarget, "service unavailable, retry soon", fields⟩

/-- What the attempts on requests go by. -/
structure Procedure (ρ α : Type) where
  policy : Policy
  method : String
  /-- A copy of a request, if its body can be sent more than once. -/
  copy? : ρ → Option ρ
  classify : α → Option Failure
  errorText? : α → Option String
  /-- The draw for the wait behind an attempt, by the number of attempts before it. -/
  draw : Nat → Nat

namespace Procedure

variable {ρ α : Type}

/-- The state behind an attempt with the given outcome. -/
def next? (l : Procedure ρ α) (s : State) (outcome : α) : Option State :=
  s.advance? l.policy l.method (l.draw s.attempts) (l.classify outcome)

/-- Attempts from a state on, the first of them with `attempt`; `script k` is the outcome of the
attempt behind `k` others. There is no course if the waits are no duration. -/
def runFrom (l : Procedure ρ α) (script : Nat → α) (request attempt : ρ) (s : State) :
    Option (Course ρ α) :=
  let outcome := script s.attempts
  match _hnext : l.next? s outcome with
  | none => none
  | some next =>
    match _hphase : next.phase with
    | .retrying wait =>
      match l.copy? request with
      -- what cannot be copied is not sent again
      | none => some ⟨[.send attempt], outcome, next⟩
      | some again =>
        (l.runFrom script request again next).map fun c => c.behind
          [.send attempt, .warn (warning next.attempts wait (l.errorText? outcome)), .wait wait]
    | _ => some ⟨[.send attempt], outcome, next⟩
termination_by l.policy.maxAttempts - s.attempts
decreasing_by
  obtain ⟨hattempts, hlt⟩ := State.attempts_of_retrying _hnext _hphase
  omega

end Procedure

end ServiceCall.Retry
