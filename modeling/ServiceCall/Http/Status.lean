/-!
# Statuses

The statuses that a response may carry. A response with any other code is refused.
-/

namespace ServiceCall.Http

/-- A status with its code, its name and the phrase that goes with it. -/
structure Status where
  code : Nat
  name : String
  reason : String
deriving DecidableEq, Repr

namespace Status

/-- Every known status once, in the order of their codes. -/
def known : List Status :=
  [⟨100, "Continue", "Continue"⟩,
   ⟨101, "SwitchingProtocols", "Switching Protocols"⟩,
   ⟨200, "Ok", "OK"⟩,
   ⟨201, "Created", "Created"⟩,
   ⟨202, "Accepted", "Accepted"⟩,
   ⟨203, "NonAuthoritativeInformation", "Non-Authoritative Information"⟩,
   ⟨204, "NoContent", "No Content"⟩,
   ⟨205, "ResetContent", "Reset Content"⟩,
   ⟨206, "PartialContent", "Partial Content"⟩,
   ⟨300, "MultipleChoices", "Multiple Choices"⟩,
   ⟨301, "MovedPermanently", "Moved Permanently"⟩,
   ⟨302, "Found", "Found"⟩,
   ⟨303, "SeeOther", "See Other"⟩,
   ⟨304, "NotModified", "Not Modified"⟩,
   ⟨305, "UseProxy", "Use Proxy"⟩,
   ⟨307, "TemporaryRedirect", "Temporary Redirect"⟩,
   ⟨308, "PermanentRedirect", "Permanent Redirect"⟩,
   ⟨400, "BadRequest", "Bad Request"⟩,
   ⟨401, "Unauthorized", "Unauthorized"⟩,
   ⟨402, "PaymentRequired", "Payment Required"⟩,
   ⟨403, "Forbidden", "Forbidden"⟩,
   ⟨404, "NotFound", "Not Found"⟩,
   ⟨405, "MethodNotAllowed", "Method Not Allowed"⟩,
   ⟨406, "NotAcceptable", "Not Acceptable"⟩,
   ⟨407, "ProxyAuthenticationRequired", "Proxy Authentication Required"⟩,
   ⟨408, "RequestTimeout", "Request Timeout"⟩,
   ⟨409, "Conflict", "Conflict"⟩,
   ⟨410, "Gone", "Gone"⟩,
   ⟨411, "LengthRequired", "Length Required"⟩,
   ⟨412, "PreconditionFailed", "Precondition Failed"⟩,
   ⟨413, "PayloadTooLarge", "Payload Too Large"⟩,
   ⟨414, "UriTooLong", "URI Too Long"⟩,
   ⟨415, "UnsupportedMediaType", "Unsupported Media Type"⟩,
   ⟨416, "RangeNotSatisfiable", "Range Not Satisfiable"⟩,
   ⟨417, "ExpectationFailed", "Expectation Failed"⟩,
   ⟨421, "MisdirectedRequest", "Misdirected Request"⟩,
   ⟨422, "UnprocessableEntity", "Unprocessable Entity"⟩,
   ⟨423, "Locked", "Locked"⟩,
   ⟨424, "FailedDependency", "Failed Dependency"⟩,
   ⟨426, "UpgradeRequired", "Upgrade Required"⟩,
   ⟨428, "PreconditionRequired", "Precondition Required"⟩,
   ⟨429, "TooManyRequests", "Too Many Requests"⟩,
   ⟨431, "RequestHeaderFieldsTooLarge", "Request Header Fields Too Large"⟩,
   ⟨451, "UnavailableForLegalReasons", "Unavailable For Legal Reasons"⟩,
   ⟨500, "InternalServerError", "Internal Server Error"⟩,
   ⟨501, "NotImplemented", "Not Implemented"⟩,
   ⟨502, "BadGateway", "Bad Gateway"⟩,
   ⟨503, "ServiceUnavailable", "Service Unavailable"⟩,
   ⟨504, "GatewayTimeout", "Gateway Timeout"⟩,
   ⟨505, "HttpVersionNotSupported", "HTTP Version Not Supported"⟩,
   ⟨507, "InsufficientStorage", "Insufficient Storage"⟩,
   ⟨511, "NetworkAuthenticationRequired", "Network Authentication Required"⟩]

/-- The known status of a code. -/
def ofCode? (code : Nat) : Option Status := known.find? (·.code == code)

/-- A code below 400 is a successful outcome. -/
def isSuccess (s : Status) : Bool := s.code < 400

/-- Code and phrase. -/
def text (s : Status) : String := toString s.code ++ " " ++ s.reason

end Status

end ServiceCall.Http
