import ServiceCall.Contract.Basic
import ServiceCall.Contract.PathTemplate

/-!
# Valid contracts

A contract is checked once, before anything is made from it: names are unique, every method has a
route, parameters and placeholders belong together one to one, there is at most one request bean,
and the types are such as can be carried.
-/

namespace ServiceCall

namespace ServiceMethod

/-- The shape can be that of a request bean. -/
def checkRequestShape (m : ServiceMethod) (shape : Shape) : Except ContractError Unit :=
  if shape.isBean || shape.isBeanList then .ok ()
  else if shape.isValue then .error (.pathParamBindingRequired m.name shape)
  else .error (.invalidRequestBeanType m.name shape)

/-- The shape can be returned. -/
def returnable : Shape → Bool
  | .void => true
  | .bean _ => true
  | .optional item => item.isBean
  | .list item => item.isBean
  | _ => false

/-- The shape can be that of a response. -/
def checkResponseShape (m : ServiceMethod) (shape : Shape) : Except ContractError Unit :=
  if returnable shape then .ok () else .error (.invalidResponseBeanType m.name shape)

/-- What has been seen of the parameters: bound placeholders, and whether a bean was among them. -/
structure Seen where
  bound : List String := []
  bean : Bool := false

/-- Checks one parameter behind others. -/
def checkParam (m : ServiceMethod) (route : Route) (template : PathTemplate) (seen : Seen)
    (param : Param) : Except ContractError Seen :=
  match param.binding with
  | .path placeholder =>
    if !template.hasPlaceholder placeholder then
      .error (.unknownPathParam m.name placeholder route.path)
    else if seen.bound.contains placeholder then .error (.duplicatePathParam m.name placeholder)
    else if !param.shape.isValue then
      .error (.invalidPathParamType m.name param.name param.shape)
    else .ok { seen with bound := placeholder :: seen.bound }
  | .bean =>
    if seen.bean then .error (.multipleRequestBeans m.name)
    else
      match m.checkRequestShape param.shape with
      | .error e => .error e
      | .ok () =>
        if !route.verb.hasBody && !param.shape.isBean then
          .error (.invalidQueryBeanType m.name param.shape)
        else .ok { seen with bean := true }

/-- Checks one method. -/
def validate (m : ServiceMethod) : Except ContractError Unit :=
  match m.route with
  | none => .error (.missingRoute m.name)
  | some route => do
    let template ← PathTemplate.parse route.path
    let seen ← m.params.foldlM (m.checkParam route template) {}
    match template.placeholders.find? (!seen.bound.contains ·) with
    | some name => throw (.unresolvedPlaceholder route.path name)
    | none => m.checkResponseShape m.returns

end ServiceMethod

namespace Contract

/-- Checks methods behind those whose names are given. -/
def validateMethods (service : String) (names : List String) :
    List ServiceMethod → Except ContractError Unit
  | [] => .ok ()
  | m :: rest =>
    if names.contains m.name then .error (.duplicateMethod service m.name)
    else
      match m.validate with
      | .error e => .error e
      | .ok () => validateMethods service (m.name :: names) rest

/-- Checks a contract; the first fault in the order of the methods is told. -/
def validate (c : Contract) : Except ContractError Unit := validateMethods c.name [] c.methods

end Contract

end ServiceCall
