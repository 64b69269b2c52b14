import ServiceCall.Client.Service
import ServiceCall.Json.Decoder

/-!
# One call

A call builds its request, runs the hooks on it, sends it once, runs the hooks on the response,
checks the status and decodes the body. The first failure ends it. The steps that can be seen from
outside are kept.
-/

namespace ServiceCall

/-- Sends a request: what is told about it, and what comes back. -/
abbrev Transport := Http.Request → List Log.Record × Except Http.TransportError Http.Response

/-- What can be seen of a call; hooks are known by their places. -/
inductive Step where
  | onRequest (hook : Nat) (seen : Http.Request)
  | send (request : Http.Request)
  | onResponse (hook : Nat) (seen : Http.Response)

/-- A call as it went. -/
structure CallRun where
  steps : List Step := []
  logs : List Log.Record := []
  result : Except CallError Json

namespace ServiceClient

/-- Runs hooks on a request, from place `k` on; each sees what the one before it has made. -/
def requestHooks : Nat → List Interceptor → Http.Request →
    List Step × Except String Http.Request
  | _, [], r => ([], .ok r)
  | k, hook :: rest, r =>
    match hook.onRequest r with
    | .error reason => ([.onRequest k r], .error reason)
    | .ok changed =>
      let (steps, result) := requestHooks (k + 1) rest changed
      (.onRequest k r :: steps, result)

/-- Runs hooks on a response, from place `k` on. -/
def responseHooks : Nat → List Interceptor → Http.Response → List Step × Except String Unit
  | _, [], _ => ([], .ok ())
  | k, hook :: rest, r =>
    match hook.onResponse r with
    | .error reason => ([.onResponse k r], .error reason)
    | .ok () =>
      let (steps, result) := responseHooks (k + 1) rest r
      (.onResponse k r :: steps, result)

/-- The request of a call, before any hook. -/
def buildRequest (c : ServiceClient) (verb : Http.Method) (template : PathTemplate)
    (values : KeyMap String) (bean : Option Json) : Except CallError Http.Request :=
  match c.serviceUrl template values with
  | .error e => .error (.contract e)
  | .ok uri =>
    let request : Http.Request := { method := verb, uri }
    match bean with
    | none => .ok request
    | some b =>
      match request.putBean b with
      | .error e => .error (.bean e)
      | .ok placed => .ok placed

/-- The note before a body is decoded. -/
def decodeNote (verb : Http.Method) (template : PathTemplate) (shape : Shape) : Log.Record :=
  ⟨.debug, "ws_client::service", "decode response",
    [("method", verb.text), ("path", template.text), ("returns", shape.text)]⟩

/-- What a response that passed the hooks means, and what is told about it. -/
def readResponse (verb : Http.Method) (template : PathTemplate) (shape : Shape)
    (decoder : Json.Decoder) (response : Http.Response) :
    List Log.Record × Except CallError Json :=
  match validateResponse response with
  | .error (.remote e) => ([e.record], .error (.remote e))
  | .error e => ([], .error e)
  | .ok _ =>
    ([decodeNote verb template shape],
      match Bean.decode decoder response.body shape with
      | .ok v => .ok v
      | .error e => .error (.bean e))

/-- Makes one call. -/
def execute (c : ServiceClient) (transport : Transport) (verb : Http.Method)
    (template : PathTemplate) (values : KeyMap String) (bean : Option Json) (shape : Shape)
    (decoder : Json.Decoder) : CallRun :=
  match c.buildRequest verb template values bean with
  | .error e => { result := .error e }
  | .ok request =>
    let (before, hooked) := requestHooks 0 c.interceptors request
    match hooked with
    | .error reason => { steps := before, result := .error (.interceptor reason) }
    | .ok final =>
      -- all hooks have let the request pass
      let (logs, answer) := transport final
      let steps := before ++ [.send final]
      match answer with
      | .error e => { steps, logs, result := .error (.transport e) }
      | .ok response =>
        let (after, checked) := responseHooks 0 c.interceptors response
        let steps := steps ++ after
        match checked with
        | .error reason => { steps, logs, result := .error (.interceptor reason) }
        | .ok () =>
          let (more, result) := readResponse verb template shape decoder response
          { steps, logs := logs ++ more, result }

end ServiceClient

end ServiceCall
