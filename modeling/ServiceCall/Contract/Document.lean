import ServiceCall.Contract.Basic
import ServiceCall.Contract.Error

/-!
# Contracts as documents

The form in which a contract is written down: request methods and types by their names. A method has
a route if both its request method and its path are there, and a parameter without a path is the
request bean.
-/

namespace ServiceCall

/-- A parameter of a written contract. -/
structure ParamDocument where
  name : String
  typeName : String
  path : Option String := none
deriving DecidableEq, Repr

/-- A method of a written contract. -/
structure MethodDocument where
  name : String
  method : Option String := none
  path : Option String := none
  returns : Option String := none
  params : List ParamDocument := []
deriving DecidableEq, Repr

/-- A written contract. -/
structure ContractDocument where
  name : String
  methods : List MethodDocument := []
deriving DecidableEq, Repr

/-- The shape of a type name. -/
def readShape (name : String) : Except ContractError Shape :=
  match Shape.parse name with
  | .ok shape => .ok shape
  | .error cause => .error (.schema (.typeName cause))

/-- The parameter that is written. -/
def ParamDocument.toParam (p : ParamDocument) : Except ContractError Param := do
  let shape ← readShape p.typeName
  let binding := match p.path with
    | some placeholder => Binding.path placeholder
    | none => .bean
  return ⟨p.name, binding, shape⟩

/-- The route that is written; half a route is none. -/
def MethodDocument.toRoute (m : MethodDocument) : Except ContractError (Option Route) :=
  match m.method, m.path with
  | some word, some path =>
    match Http.Method.parse? word with
    | some verb => .ok (some ⟨verb, path⟩)
    | none => .error (.schema (.unsupportedMethod word))
  | _, _ => .ok none

/-- The method that is written. -/
def MethodDocument.toMethod (m : MethodDocument) : Except ContractError ServiceMethod := do
  let route ← m.toRoute
  let returns ← match m.returns with
    | some name => readShape name
    | none => pure .void
  let params ← m.params.mapM ParamDocument.toParam
  return { name := m.name, route, params, returns }

/-- The contract that is written. -/
def ContractDocument.toContract (d : ContractDocument) : Except ContractError Contract := do
  let methods ← d.methods.mapM MethodDocument.toMethod
  return ⟨d.name, methods⟩

end ServiceCall
