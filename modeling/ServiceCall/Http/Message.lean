import ServiceCall.Bean
import ServiceCall.Http.Method
import ServiceCall.KeyMap
import ServiceCall.Url.Form
import ServiceCall.Url.Parser

/-!
# Requests and responses

A request as it is put together for a call, and the response that comes back. The names of headers
are kept as they were given in a request, and in small letters in a response.
-/

namespace ServiceCall.Http

/-- A request. -/
structure Request where
  method : Method
  /-- The address with the path, without the pairs of the query. -/
  uri : String
  params : List (String × String) := []
  headers : KeyMap String := .empty
  body : Option Bean.EncodedBody := none

/-- The URL of a request, its pairs added to the query. -/
def Request.url [Idna] (r : Request) : Except Url.Error Url :=
  (Url.parse r.uri).map (·.addPairs r.params)

/-- The request with a header, in place of an earlier one of the same spelling. -/
def Request.setHeader (r : Request) (name value : String) : Request :=
  { r with headers := r.headers.insert name value }

/-- Places a bean: as pairs of the query, or as the body, in place of an earlier body. -/
def Request.putBean (r : Request) (bean : Json) : Except Bean.Error Request :=
  if r.method.hasBody then .ok { r with body := some (Bean.encodeBody bean) }
  else (Bean.encodeQuery bean).map fun pairs => { r with params := r.params ++ pairs }

/-- A response. -/
structure Response where
  status : Nat
  headers : KeyMap String := .empty
  body : Bytes := []

/-- The name of a header in small letters. -/
def lowerName (name : String) : String := String.ofList (name.toList.map Char.toLower)

/-- The value of a header, whatever the case of the name that is asked for. -/
def Response.header? (r : Response) (name : String) : Option String := r.headers.get? (lowerName name)

/-- The type of the content. -/
def Response.contentType? (r : Response) : Option String := r.header? "content-type"

/-- The word occurs in the text. -/
def occursIn (word : List Char) : List Char → Bool
  | [] => word.isEmpty
  | c :: rest => word.isPrefixOf (c :: rest) || occursIn word rest

/-- A body of this type is shown as text. -/
def isTextual (contentType : String) : Bool :=
  occursIn "json".toList contentType.toList || "text/".toList.isPrefixOf contentType.toList

/-- A body as it is shown in logs: text where the type says so and the bytes allow it, else its
size. -/
def bodyText (body : Bytes) (contentType : Option String) : String :=
  let size := "<" ++ toString body.length ++ " bytes>"
  if (contentType.map isTextual).getD false then (Utf8.decode? body).getD size else size

end ServiceCall.Http
