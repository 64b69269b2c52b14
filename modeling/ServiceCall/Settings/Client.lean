import ServiceCall.Duration
import ServiceCall.Http.Client
import ServiceCall.Settings.Environment
import ServiceCall.Settings.Document

/-!
# Settings of a client

What a client is told in a settings document: where its service is, and how it sends. What the
document leaves out is taken from the standard settings. The document is made if there is none, and
the environment is laid over it.
-/

namespace ServiceCall

/-- The settings of a client; times are in milliseconds. -/
structure ClientSettings where
  serviceUrl : String := "http://localhost:8080"
  userAgent : String := "ws-client"
  timeout : Nat := 60000
  connectTimeout : Nat := 25000
  /-- Attempts for one request, the first included. -/
  maxAttempts : Nat := 3
  retryBaseWait : Nat := 500
  retryJitter : Bool := false
  slowThreshold : Nat := 30000
deriving DecidableEq, Repr

namespace ClientSettings

/-- The settings of a client that is told nothing. -/
def standard : ClientSettings := {}

/-- A part of the settings, the standard one if it is left out. -/
def part? {α : Type} (standard : α) (convert : Node → Option α) : Option Node → Option α
  | none => some standard
  | some n => convert n

/-- A number of attempts, which has 32 bits. -/
def attempts? (n : Node) : Option Nat := n.natural?.map (· % 2 ^ 32)

/-- The settings in their parts, of which any may be left out. -/
def ofParts? (part : Nat → String → Option Node) : Option ClientSettings := do
  let serviceUrl ← part? standard.serviceUrl Node.text? (part 0 "service_url")
  let userAgent ← part? standard.userAgent Node.text? (part 1 "user_agent")
  let timeout ← part? standard.timeout Node.natural? (part 2 "timeout_ms")
  let connectTimeout ← part? standard.connectTimeout Node.natural? (part 3 "connect_timeout_ms")
  let maxAttempts ← part? standard.maxAttempts attempts? (part 4 "max_attempts")
  let retryBaseWait ← part? standard.retryBaseWait Node.natural? (part 5 "retry_base_wait_ms")
  let retryJitter ← part? standard.retryJitter Node.flag? (part 6 "retry_jitter")
  let slowThreshold ←
    part? standard.slowThreshold Node.natural? (part 7 "slow_operation_threshold_ms")
  return { serviceUrl, userAgent, timeout, connectTimeout, maxAttempts, retryBaseWait, retryJitter,
           slowThreshold }

/-- The settings in a table by the names of its entries, or in a list by their places. -/
def ofNode? : Node → Option ClientSettings
  | .table entries => ofParts? fun _ name => entries.lookup name
  | .list items => ofParts? fun place _ => items[place]?
  | _ => none

/-- The settings under the key `client`, the standard ones if there is none. -/
def ofRoot? (root : Node) : Option ClientSettings :=
  match root.entries.lookup "client" with
  | some n => ofNode? n
  | none => some standard

/-- An empty table tells nothing. -/
theorem ofNode?_table_nil : ofNode? (.table []) = some standard := rfl

/-- When requests are sent again. -/
def policy (s : ClientSettings) : Retry.Policy :=
  .make s.maxAttempts (.ofMillis s.retryBaseWait) s.retryJitter

/-- The client that sends under these settings. -/
def client (s : ClientSettings) : Http.Client :=
  { userAgent := s.userAgent, policy := s.policy, slowThreshold := .ofMillis s.slowThreshold }

end ClientSettings

/-- Settings that are given for one call. -/
structure ConnectionOptions where
  serviceUrl : Option String := none
  maxAttempts : Option Nat := none
deriving DecidableEq, Repr

/-- The settings with those that are given for one call in their place. -/
def ClientSettings.apply (s : ClientSettings) (o : ConnectionOptions) : ClientSettings :=
  { s with
    serviceUrl := o.serviceUrl.getD s.serviceUrl
    maxAttempts := o.maxAttempts.getD s.maxAttempts }

namespace Settings

/-- The document that is made where there is none. -/
def standardDocument : String :=
  String.intercalate "\n"
    ["# Web service client configuration.",
     "# Every key can be overridden from the environment, e.g. WS_CLIENT_CLIENT__MAX_ATTEMPTS=5",
     "",
     "[client]",
     "service_url = \"http://localhost:8080\"",
     "user_agent = \"ws-client\"",
     "# request timeout for each attempt",
     "timeout_ms = 60000",
     "connect_timeout_ms = 25000",
     "# first attempt included",
     "max_attempts = 3",
     "retry_base_wait_ms = 500",
     "retry_jitter = false",
     "slow_operation_threshold_ms = 30000",
     "",
     ""]

/-- Settings that were read, or why they were not. -/
structure Loaded where
  root : Except Files.Error Node
  /-- A standard document was made. -/
  created : Bool
  logs : List Log.Record

/-- The part that speaks when a document is made. -/
def logTarget : String := "ws_client::config::loader"

/-- The files with one more. -/
def withFile (files : Files) (path text : String) : Files := fun p =>
  if p == path then some text else files p

/-- Reads the document of a name, which is made if it is not there, and lays the environment over
it. -/
def load (files : Files) (environment : List (String × String)) (name : String) : Loaded :=
  let created := (files name).isNone
  let files := if created then withFile files name standardDocument else files
  let logs : List Log.Record :=
    if created then [⟨.info, logTarget, "Created new configuration file", [("path", name)]⟩] else []
  let root := (files.read name).map fun entries =>
    Node.layer (Node.layer (.table []) entries) (Environment.settings environment)
  ⟨root, created, logs⟩

end Settings

end ServiceCall
