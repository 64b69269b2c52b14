import ServiceCall.Json.Decoder
import ServiceCall.Json.Printer
import ServiceCall.Shape.Basic
import ServiceCall.Text.Blank

/-!
# Beans on the wire

A bean goes into a query as pairs of a name and a text, into a body as JSON, and a single value of it
into one segment of a path. A response body comes back by the shape that the method declares.
-/

namespace ServiceCall

namespace Bean

/-- Why a bean cannot be carried. -/
inductive Error where
  | numberOutOfRange
  | keyNotText
  | decode (shape : Shape) (fault : Json.Fault)
  | emptyBody (shape : Shape)
  | notAnObject (kind : String)
  | unsupportedQueryValue (field : String)
  | unsupportedPathValue (kind : String)
deriving DecidableEq, Repr

/-- The text of an error. -/
def Error.message : Error → String
  | .numberOutOfRange => "failed to serialize bean: number out of range"
  | .keyNotText => "failed to serialize bean: key must be a string"
  | .decode shape _ => "failed to decode response body into " ++ shape.text
  | .emptyBody shape => "response body is empty, but " ++ shape.text ++ " requires a value"
  | .notAnObject kind => "query param bean must serialize to an object, got " ++ kind
  | .unsupportedQueryValue field =>
    "query param field must be a scalar or enum value, field=" ++ field
  | .unsupportedPathValue kind => "path param must be a scalar or enum value, got " ++ kind

/-- A body and the type of its content. -/
structure EncodedBody where
  bytes : Bytes
  contentType : String

/-- The content type of every encoded bean. -/
def jsonContentType : String := "application/json"

/-- The pairs of a bean's members; null members are left out. -/
def queryMembers : List (String × Json) → Except Error (List (String × String))
  | [] => .ok []
  | (name, value) :: rest =>
    match value with
    | .null => queryMembers rest
    | .array _ | .object _ => .error (.unsupportedQueryValue name)
    | scalar =>
      match scalar.scalarText? with
      | some text => (queryMembers rest).map ((name, text) :: ·)
      | none => queryMembers rest

/-- A bean as pairs of a name and a text, in the order of its members. -/
def encodeQuery : Json → Except Error (List (String × String))
  | .object members => queryMembers members
  | bean => .error (.notAnObject bean.kindName)

/-- A bean as a body. -/
def encodeBody (bean : Json) : EncodedBody := ⟨Utf8.encode bean.compact, jsonContentType⟩

/-- A single value as the text of one path segment. -/
def encodePathValue (value : Json) : Except Error String :=
  match value.scalarText? with
  | some text => .ok text
  | none => .error (.unsupportedPathValue value.kindName)

/-- The body has no byte other than ASCII blanks. -/
def isBlankBody (body : Bytes) : Bool := body.all Blank.isAsciiByte

/-- Decodes a response body by the declared shape: nothing is read for `void`, and an empty body is
the absent value of an optional type and the empty list of a list type. -/
def decode (decoder : Json.Decoder) (body : Bytes) (shape : Shape) : Except Error Json :=
  let result :=
    match shape with
    | .void => some (decoder.given [.null])
    | .optional _ => some (if isBlankBody body then decoder.given [.null] else decoder.body body)
    | .list _ =>
      some (if isBlankBody body then decoder.given [.openArray, .closeArray] else decoder.body body)
    | _ => if isBlankBody body then none else some (decoder.body body)
  match result with
  | none => .error (.emptyBody shape)
  | some (.ok v) => .ok v
  | some (.error fault) => .error (.decode shape fault)

/-- An integer of any size as a value of a bean. -/
def ofInt (i : Int) : Except Error Json :=
  match Json.ofInt? i with
  | some v => .ok v
  | none => .error .numberOutOfRange

/-- A number as a value of a bean; what is not finite is null. -/
def ofFloating : Floating → Json
  | .finite x => .number (.real x)
  | _ => .null

/-- The name of a member whose key is not a text: numbers and truth values have one. -/
def keyText (key : Json) : Except Error String :=
  match key.scalarText? with
  | some text => .ok text
  | none => .error .keyNotText

end Bean

end ServiceCall
