import ServiceCall.Http.Method
import ServiceCall.Shape.Basic

/-!
# Contracts

A contract is the ordered list of methods that a client and a service agree on. Each parameter of a
method is bound to a placeholder of the path, or is the request bean.
-/

namespace ServiceCall

/-- The request method and the path template of a method. -/
structure Route where
  verb : Http.Method
  path : String
deriving DecidableEq, Repr

/-- How a parameter is carried. -/
inductive Binding where
  /-- As a segment of the path, in the place of a placeholder. -/
  | path (placeholder : String)
  /-- As pairs of the query or as the body. -/
  | bean
deriving DecidableEq, Repr

/-- The placeholder that a binding names. -/
def Binding.placeholder? : Binding → Option String
  | .path placeholder => some placeholder
  | .bean => none

/-- A parameter of a method. -/
structure Param where
  name : String
  binding : Binding
  shape : Shape
deriving DecidableEq, Repr

/-- A method of a contract. -/
structure ServiceMethod where
  name : String
  route : Option Route := none
  params : List Param := []
  returns : Shape := .void
deriving DecidableEq, Repr

/-- The first parameter that is a request bean. -/
def ServiceMethod.beanParam? (m : ServiceMethod) : Option Param :=
  m.params.find? (·.binding == .bean)

/-- Request method and path, for logs. -/
def ServiceMethod.describe (m : ServiceMethod) : String :=
  match m.route with
  | some route => route.verb.text ++ " " ++ route.path
  | none => "<no route>"

/-- A named service and its methods in the order of their declaration. -/
structure Contract where
  name : String
  methods : List ServiceMethod
deriving DecidableEq, Repr

end ServiceCall
