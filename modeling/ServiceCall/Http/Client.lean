import ServiceCall.Http.Header
import ServiceCall.Http.Network
import ServiceCall.Text.Quoted

/-!
# The client

Sends a request: its parts are checked before anything leaves, then attempts are made by the policy.
Every response is returned, whatever its status; only the want of one is an error. What is done is
told in the log.
-/

namespace ServiceCall.Http

/-- Why there is no response. -/
inductive TransportError where
  | url (cause : Url.Error)
  | invalidHeader (name : String)
  | network (error : NetworkError)
deriving DecidableEq, Repr

namespace TransportError

/-- The text of an error. -/
def message : TransportError → String
  | .url cause => "URL parse error: " ++ cause.message
  | .invalidHeader name => "Invalid header, name=" ++ name
  | .network error => "Middleware error: " ++ error.text

/-- The texts of the causes, the nearest first. -/
def causes : TransportError → List String
  | .url cause => [cause.message]
  | .invalidHeader _ => []
  | .network error => error.text :: error.causes

/-- Time had run out. -/
def isTimeout : TransportError → Bool
  | .network error => error.fault.isTimeout
  | _ => false

end TransportError

/-- A request as it leaves. -/
structure SentRequest where
  method : Method
  url : Url
  headers : KeyMap String
  body : Option Bean.EncodedBody

/-- What an attempt came to, and how long it took. -/
structure Attempt where
  outcome : Outcome
  took : Duration

/-- The network: what each attempt on a request comes to, by the number of attempts before it. -/
abbrev Network := SentRequest → Nat → Attempt

/-- The network of a machine that has none: no connection is ever made. -/
def Network.unreachable : Network := fun sent _ =>
  ⟨.error ⟨.connect, "error sending request for url (" ++ sent.url.text ++ ")",
    ["client error (Connect)", "tcp connect error", "Network is unreachable (os error 101)"]⟩,
    .saturating 1⟩

/-- How requests are sent. -/
structure Client where
  userAgent : String
  policy : Retry.Policy
  slowThreshold : Duration

/-- What sending a request has come to. -/
structure Delivery where
  logs : List Log.Record
  outcome : Except TransportError Response
  elapsed : Duration
  /-- One for each attempt. -/
  attempts : List SentRequest

/-- The part of the library that tells about requests. -/
def logTarget : String := "ws_client::http::http_client"

/-- A record about a request or response. -/
def note (message : String) (fields : List (String × String)) : Log.Record :=
  ⟨.debug, logTarget, message, fields⟩

/-- What is told about a request before it is sent. -/
def requestNotes (r : Request) : List Log.Record :=
  [note "[request]"
    [("method", r.method.text), ("uri", r.uri), ("params", Quoted.pairs r.params)]]

/-- What is told about the headers and the body of a request. -/
def contentNotes (r : Request) : List Log.Record :=
  note "[request]" [("headers", Quoted.map r.headers.entries)]
    :: (match r.body with
      | some body =>
        [note "[request]" [("content_type", body.contentType),
          ("body", bodyText body.bytes (some body.contentType))]]
      | none => [])

/-- What is told about a response. -/
def responseNotes (r : Response) : List Log.Record :=
  [note "[response]" [("status", toString r.status)],
    note "[response]" [("headers", Quoted.map r.headers.entries)],
    note "[response]" [("body", bodyText r.body r.contentType?)]]

/-- A URL that only the network of web pages reaches. -/
def isWebUrl (u : Url) : Bool := u.scheme == "http".toList || u.scheme == "https".toList

/-- The error for a URL of another scheme. -/
def schemeError (u : Url) : NetworkError :=
  ⟨.invalidRequest, "builder error for url (" ++ u.text ++ ")", ["URL scheme is not allowed"]⟩

/-- The attempts on a request. A URL that is not of the web never reaches the network. -/
def attempt (network : Network) (sent : SentRequest) (k : Nat) : Attempt :=
  if isWebUrl sent.url then network sent k else ⟨.error (schemeError sent.url), .zero⟩

namespace Client

/-- What is sent, or why nothing can be. -/
def prepare [Idna] (c : Client) (r : Request) : Except (Halt TransportError) SentRequest :=
  match r.url with
  | .error cause => .error (.error (.url cause))
  | .ok url =>
    match sentHeaders c.userAgent r with
    | .error (.error name) => .error (.error (.invalidHeader name))
    | .error .panic => .error .panic
    | .ok headers => .ok ⟨r.method, url, headers, r.body⟩

/-- The notes that are made until the request is sent or refused. -/
def preparationNotes [Idna] (c : Client) (r : Request) : List Log.Record :=
  match c.prepare r with
  | .error (.error (.url _)) => []
  | .error (.error _) => requestNotes r
  | _ => requestNotes r ++ contentNotes r

/-- The time that all attempts and the waits between them took. -/
def totalTime (took : List Duration) (waited : Duration) : Duration :=
  .saturating (took.foldl (fun sum d => sum + d.nanos) waited.nanos)

/-- The response of an answer, its body read to the end. -/
def readOutcome : Outcome → Except TransportError Response
  | .error e => .error (.network e)
  | .ok answer =>
    match answer.body with
    | .error e => .error (.network e)
    | .ok body => .ok ⟨answer.status, responseHeaders answer.headers, body⟩

/-- Sends a request that is prepared; there is no delivery if the waits are no duration. The body of
a request is at hand as a whole, so that a request is its own copy. -/
def deliver? (c : Client) (network : Network) (draw : Nat → Nat) (sent : SentRequest) :
    Option Delivery := do
  let script := attempt network sent
  let course ← passage? c.policy sent.method.text some draw (fun k => (script k).outcome) sent
  let took := (List.range course.sent.length).map fun k => (script k).took
  return {
    logs := course.warnings
    outcome := readOutcome course.outcome
    elapsed := totalTime took course.state.waited
    attempts := course.sent }

/-- The notes at the end of a call; a slow one is warned of. -/
def closingNotes (c : Client) (elapsed : Duration) : List Log.Record :=
  note "execute" [("elapsed", elapsed.unitText)]
    :: (if c.slowThreshold.nanos < elapsed.nanos then
        [⟨.warn, logTarget, "slow http operation",
          [("error_code", "SLOW_HTTP"), ("elapsed", elapsed.unitText)]⟩]
      else [])

/-- Sends a request. `setup` is the time that everything but the attempts takes. There is no delivery
if the program panics. -/
def send? [Idna] (c : Client) (network : Network) (draw : Nat → Nat) (setup : Duration) (r : Request) :
    Option Delivery := do
  let before := c.preparationNotes r
  match c.prepare r with
  | .error .panic => none
  | .error (.error e) =>
    return ⟨before ++ c.closingNotes setup, .error e, setup, []⟩
  | .ok sent =>
    let d ← c.deliver? network draw sent
    let elapsed := Duration.saturating (setup.nanos + d.elapsed.nanos)
    let after := match d.outcome with
      | .ok response => responseNotes response
      | .error _ => []
    return { d with logs := before ++ d.logs ++ after ++ c.closingNotes elapsed, elapsed }

end Client

end ServiceCall.Http
