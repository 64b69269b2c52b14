import ServiceCall.Http.Message

/-!
# Headers that are sent

The headers of a request under names in small letters, one value for each name. Names and values that
cannot be written in a request are refused. The type of a body is a text of the program itself: if that
cannot be written, the program panics.
-/

namespace ServiceCall.Http

/-- What ends a computation before it gives a value: an error that is returned, or a panic. -/
inductive Halt (ε : Type) where
  | error (cause : ε)
  | panic
deriving DecidableEq, Repr

/-- A character of a header name. -/
def isTokenChar (c : Char) : Bool :=
  c.isAlphanum || "!#$%&'*+-.^_|~".toList.contains c || c == Percent.backtick

/-- The name can be sent. -/
def isValidName (name : String) : Bool :=
  let cs := name.toList
  !cs.isEmpty && cs.length < 65536 && cs.all isTokenChar

/-- The value can be sent: no controls but the tab. -/
def isValidValue (value : String) : Bool :=
  value.toList.all fun c => c == '\t' || (32 ≤ c.toNat && c.toNat != 127)

/-- The value can be sent as a text of the program: visible ASCII and the tab. -/
def isStaticValue (value : String) : Bool :=
  value.toList.all fun c => c == '\t' || (32 ≤ c.toNat && c.toNat < 127)

/-- The headers of a request behind those that are set already; a bad one is told by its name. -/
def addHeaders : KeyMap String → List (String × String) → Except String (KeyMap String)
  | sent, [] => .ok sent
  | sent, (name, value) :: rest =>
    if !isValidName name || !isValidValue value then .error name
    else addHeaders (sent.insert (lowerName name) value) rest

/-- The name of the header for the agent. -/
def agentHeader : String := "user-agent"

/-- The headers that a request is sent with: the agent unless the request names another, the headers
of the request in the order of their names, and the type of the body. -/
def sentHeaders (userAgent : String) (r : Request) : Except (Halt String) (KeyMap String) :=
  if !isValidValue userAgent then .error (.error agentHeader)
  else
    match addHeaders (KeyMap.empty.insert agentHeader userAgent) r.headers.entries with
    | .error name => .error (.error name)
    | .ok sent =>
      match r.body with
      | none => .ok sent
      | some body =>
        if isStaticValue body.contentType then .ok (sent.insert "content-type" body.contentType)
        else .error .panic

end ServiceCall.Http
