import ServiceCall.Stub
import ServiceCall.WireType

/-!
# Typed services

Methods that are declared with the types of their arguments and results. The contract follows from the
declaration, and arguments and results are checked against their types.
-/

namespace ServiceCall

/-- A declared parameter. A path parameter is bound to the placeholder of its own name. -/
structure TypedParam where
  name : String
  type : WireType
  isPath : Bool

/-- A declared method. -/
structure TypedMethod where
  name : String
  params : List TypedParam
  returns : WireType
  verb : Http.Method
  path : String

/-- A declared service. -/
structure TypedService where
  name : String
  methods : List TypedMethod

/-- The parameter as a contract has it. -/
def TypedParam.toParam (p : TypedParam) : Param :=
  ⟨p.name, if p.isPath then .path p.name else .bean, p.type.shape⟩

/-- The method as a contract has it. -/
def TypedMethod.toMethod (m : TypedMethod) : ServiceMethod :=
  { name := m.name, route := some ⟨m.verb, m.path⟩
    params := m.params.map TypedParam.toParam, returns := m.returns.shape }

/-- The contract of a declared service. -/
def TypedService.contract (s : TypedService) : Contract :=
  ⟨s.name, s.methods.map TypedMethod.toMethod⟩

/-- The arguments of a call, given the value of each parameter in the order of the declaration. -/
def TypedMethod.arguments (m : TypedMethod) (values : List Json) : CallArgs :=
  (m.params.zip values).foldl
    (fun args (p, v) =>
      if p.isPath then { args with path := args.path ++ [(p.name, v)] }
      else { args with bean := some v })
    {}

/-- Calls a declared method. -/
def TypedMethod.call (m : TypedMethod) (stubs : ServiceStubs) (transport : Transport)
    (values : List Json) : CallRun :=
  stubs.call transport m.name (m.arguments values) m.returns.decoder

end ServiceCall
