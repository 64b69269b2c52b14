import ServiceCall.Client.Error
import ServiceCall.Contract.PathTemplate

/-!
# The client of one service

Every request of a service goes to an address below the address of the service. Hooks may look at and
change what is sent, and look at what comes back.
-/

namespace ServiceCall

/-- Hooks around a call; each may refuse and so end it. -/
structure Interceptor where
  onRequest : Http.Request → Except String Http.Request := .ok
  onResponse : Http.Response → Except String Unit := fun _ => .ok ()

/-- The header that names a request. -/
def requestIdHeader : String := "x-request-id"

/-- Names every request that has no name yet by a fresh identity. -/
def Interceptor.requestId (fresh : String) : Interceptor where
  onRequest r := .ok (if r.headers.contains requestIdHeader then r else r.setHeader requestIdHeader fresh)

/-- The address of a service and the hooks around its calls, in the order of registration. -/
structure ServiceClient where
  base : Url
  interceptors : List Interceptor := []

namespace ServiceClient

/-- The reason against an address below which there is none. -/
def noPathReason : String := "service url cannot have path appended"

/-- The client of the service at an address. -/
def create [Idna] (serviceUrl : String) : Except ContractError ServiceClient :=
  match Url.parse serviceUrl with
  | .error cause => .error (.invalidServiceUrl serviceUrl cause.message)
  | .ok url =>
    if url.isOpaque then .error (.invalidServiceUrl serviceUrl noPathReason)
    else if url.query.isSome || url.fragment.isSome then
      .error (.invalidServiceUrl serviceUrl "service url must not contain query or fragment")
    else .ok { base := url }

/-- The client with one more hook. -/
def intercept (c : ServiceClient) (i : Interceptor) : ServiceClient :=
  { c with interceptors := c.interceptors ++ [i] }

/-- The address for a path, each of its segments escaped on its own. -/
def serviceUrl (c : ServiceClient) (template : PathTemplate) (values : KeyMap String) :
    Except ContractError String :=
  match template.resolve values with
  | .error e => .error e
  | .ok segments =>
    match c.base.extend? (segments.map String.toList) with
    | some url => .ok url.text
    | none => .error (.invalidServiceUrl c.base.text noPathReason)

/-- The client as it is shown to people. -/
def debugText (c : ServiceClient) : String :=
  "WebServiceClient \x7b service_url: " ++ Quoted.quote c.base.text ++ ", interceptors: "
    ++ toString c.interceptors.length ++ ", .. \x7d"

end ServiceClient

end ServiceCall
