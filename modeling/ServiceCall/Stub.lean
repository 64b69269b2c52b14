import ServiceCall.Client.Execute
import ServiceCall.Contract.Validator

/-!
# Stubs

A stub is a method of a valid contract, ready to be called: its path is read once and its arguments
are matched by name.
-/

namespace ServiceCall

/-- The arguments of a call: values for path parameters by name, and a request bean. -/
structure CallArgs where
  path : List (String × Json) := []
  bean : Option Json := none

/-- A method with its route read. -/
structure Stub where
  spec : ServiceMethod
  verb : Http.Method
  template : PathTemplate

namespace Stub

/-- The stub of a method. -/
def compile (m : ServiceMethod) : Except ContractError Stub :=
  match m.route with
  | none => .error (.missingRoute m.name)
  | some route =>
    match PathTemplate.parse route.path with
    | .error e => .error e
    | .ok template => .ok ⟨m, route.verb, template⟩

/-- An error of the arguments. -/
def mismatch (s : Stub) (reason : String) : CallError :=
  .contract (.argumentMismatch s.spec.name reason)

/-- The placeholder that the first parameter of a name is bound to. -/
def placeholder? (s : Stub) (name : String) : Option String :=
  (s.spec.params.find? (·.name == name)).bind (·.binding.placeholder?)

/-- The values of placeholders, behind those that are there already. -/
def bindPath (s : Stub) : KeyMap String → List (String × Json) → Except CallError (KeyMap String)
  | values, [] => .ok values
  | values, (name, value) :: rest =>
    match s.placeholder? name with
    | none => .error (s.mismatch ("method has no path param named " ++ name))
    | some placeholder =>
      match Bean.encodePathValue value with
      | .error e => .error (.bean e)
      | .ok text => bindPath s (values.insert placeholder text) rest

/-- A path parameter whose placeholder has no value. -/
def isUnbound (values : KeyMap String) (p : Param) : Bool :=
  match p.binding.placeholder? with
  | some placeholder => !values.contains placeholder
  | none => false

/-- The request bean of a call; null is none. -/
def bindBean (s : Stub) : Option Json → Except CallError (Option Json)
  | none => .ok none
  | some .null => .ok none
  | some bean =>
    match s.spec.beanParam? with
    | some _ => .ok (some bean)
    | none => .error (s.mismatch "method declares no request bean")

/-- Splits arguments into the values of placeholders and the request bean. -/
def partition (s : Stub) (args : CallArgs) : Except CallError (KeyMap String × Option Json) :=
  match s.bindPath .empty args.path with
  | .error e => .error e
  | .ok values =>
    match s.spec.params.find? (isUnbound values) with
    | some p => .error (s.mismatch ("missing path param " ++ p.name))
    | none => (s.bindBean args.bean).map fun bean => (values, bean)

/-- The part of the library that tells about stubs. -/
def logTarget : String := "ws_client::stub"

/-- The note before a call. -/
def callNote (s : Stub) : Log.Record :=
  ⟨.debug, logTarget, "call web service", [("method", s.spec.describe)]⟩

/-- Calls a stub. -/
def invoke (s : Stub) (client : ServiceClient) (transport : Transport) (args : CallArgs)
    (decoder : Json.Decoder) : CallRun :=
  let run : CallRun := match s.partition args with
    | .error e => { result := .error e }
    | .ok (values, bean) =>
      client.execute transport s.verb s.template values bean s.spec.returns decoder
  { run with logs := s.callNote :: run.logs }

/-- The record about a stub that has been made. -/
def record (service : String) (s : Stub) : Log.Record :=
  ⟨.info, logTarget, "Generated web service stub",
    [("service", service), ("method", s.spec.name), ("http_method", s.verb.text),
      ("path", s.template.text)]⟩

end Stub

namespace Contract

/-- The stubs of methods by their names, behind those that are there already. -/
def compileMethods : KeyMap Stub → List ServiceMethod → Except ContractError (KeyMap Stub)
  | stubs, [] => .ok stubs
  | stubs, m :: rest =>
    match Stub.compile m with
    | .error e => .error e
    | .ok stub => compileMethods (stubs.insert m.name stub) rest

/-- The stubs of a contract, if it is valid. -/
def generate (c : Contract) : Except ContractError (KeyMap Stub) :=
  match c.validate with
  | .error e => .error e
  | .ok () => compileMethods .empty c.methods

/-- The records about stubs, in the order of their names. -/
def generateRecords (c : Contract) (stubs : KeyMap Stub) : List Log.Record :=
  stubs.values.map (Stub.record c.name)

end Contract

/-- The stubs of a service and the client that they call through. -/
structure ServiceStubs where
  contract : Contract
  client : ServiceClient
  stubs : KeyMap Stub

namespace ServiceStubs

/-- The stubs of a contract behind a client. -/
def build (contract : Contract) (client : ServiceClient) : Except ContractError ServiceStubs :=
  contract.generate.map fun stubs => ⟨contract, client, stubs⟩

/-- Calls a method by its name. -/
def call (s : ServiceStubs) (transport : Transport) (name : String) (args : CallArgs)
    (decoder : Json.Decoder) : CallRun :=
  match s.stubs.get? name with
  | none => { result := .error (.contract (.unknownMethod s.contract.name name)) }
  | some stub => stub.invoke s.client transport args decoder

end ServiceStubs

end ServiceCall
