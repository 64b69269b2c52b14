import ServiceCall.Http.Method
import ServiceCall.Shape.Parser

/-!
# Errors of contracts

A contract, a path, an address or a status that cannot be handled. Such errors arise when a contract
is registered or first used; they are never retried.
-/

namespace ServiceCall

/-- Why the document of a contract does not describe one. -/
inductive SchemaFault where
  /-- The document cannot be read, or its parts are not what a contract needs. -/
  | unreadable
  | unsupportedMethod (word : String)
  | typeName (cause : Shape.Error)
deriving DecidableEq, Repr

/-- The reason that is told. -/
def SchemaFault.message : SchemaFault → String
  | .unreadable => "document"
  | .unsupportedMethod word => Http.Method.unsupported word
  | .typeName cause => cause.message

/-- An error of a contract or of its use. -/
inductive ContractError where
  | missingRoute (method : String)
  | invalidPath (path reason : String)
  | duplicateMethod (service method : String)
  | pathParamBindingRequired (method : String) (shape : Shape)
  | invalidRequestBeanType (method : String) (shape : Shape)
  | invalidQueryBeanType (method : String) (shape : Shape)
  | invalidResponseBeanType (method : String) (shape : Shape)
  | multipleRequestBeans (method : String)
  | invalidPathParamType (method param : String) (shape : Shape)
  | unknownPathParam (method param path : String)
  | duplicatePathParam (method param : String)
  | unresolvedPlaceholder (path name : String)
  | invalidPathValue (path name value : String)
  | unknownMethod (service method : String)
  | argumentMismatch (method reason : String)
  | unsupportedStatus (code : Nat)
  | invalidServiceUrl (url reason : String)
  | serviceAlreadyRegistered (service : String)
  | schema (fault : SchemaFault)
deriving DecidableEq, Repr

/-- The text of an error. -/
def ContractError.message : ContractError → String
  | .missingRoute m => "method must have a route with http method and path, method=" ++ m
  | .invalidPath path reason => "invalid path, path=" ++ path ++ ", reason=" ++ reason
  | .duplicateMethod service m =>
    "found duplicate method name, service=" ++ service ++ ", method=" ++ m
  | .pathParamBindingRequired m shape =>
    "request bean type must be bean or List<T>, if it is path param, "
      ++ "please add a path-param binding, type=" ++ shape.text ++ ", method=" ++ m
  | .invalidRequestBeanType m shape =>
    "request bean type must be bean or List<T>, type=" ++ shape.text ++ ", method=" ++ m
  | .invalidQueryBeanType m shape =>
    "query param bean must be bean, type=" ++ shape.text ++ ", method=" ++ m
  | .invalidResponseBeanType m shape =>
    "response bean type must be bean, Optional<T> or List<T>, type=" ++ shape.text
      ++ ", method=" ++ m
  | .multipleRequestBeans m => "method must not have more than one request bean param, method=" ++ m
  | .invalidPathParamType m param shape =>
    "path param must be scalar or enum, param=" ++ param ++ ", type=" ++ shape.text
      ++ ", method=" ++ m
  | .unknownPathParam m param path =>
    "path param is not declared in path, param=" ++ param ++ ", path=" ++ path ++ ", method=" ++ m
  | .duplicatePathParam m param =>
    "path param is bound more than once, param=" ++ param ++ ", method=" ++ m
  | .unresolvedPlaceholder path name =>
    "path param is not resolved, name=" ++ name ++ ", path=" ++ path
  | .invalidPathValue path name value =>
    "path param value must not be empty, '.' or '..', name=" ++ name ++ ", value=" ++ value
      ++ ", path=" ++ path
  | .unknownMethod service m =>
    "method is not declared in contract, service=" ++ service ++ ", method=" ++ m
  | .argumentMismatch m reason =>
    "call arguments do not match method, method=" ++ m ++ ", reason=" ++ reason
  | .unsupportedStatus code => "unsupported http status code, code=" ++ toString code
  | .invalidServiceUrl url reason => "invalid service url, url=" ++ url ++ ", reason=" ++ reason
  | .serviceAlreadyRegistered service => "service client is already registered, service=" ++ service
  | .schema fault => "invalid contract schema: " ++ fault.message

end ServiceCall
