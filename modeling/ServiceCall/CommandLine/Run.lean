import ServiceCall.CommandLine.Help
import ServiceCall.Contract.Schema
import ServiceCall.Json.Printer
import ServiceCall.Json.Reader
import ServiceCall.Log.Line
import ServiceCall.Stub
import ServiceCall.Url.International

/-!
# Carrying out a command

What a command prints, and the code it ends with. A failure is told with the chain of its causes.
-/

namespace ServiceCall.CommandLine

/-- What surrounds a command. -/
structure Surroundings where
  files : Files
  environment : List (String × String) := []
  network : Http.Network
  /-- The random part of the wait before each attempt. -/
  draw : Nat → Nat := fun _ => 0
  /-- The time that a request takes beside its attempts. -/
  setup : Duration := .zero
  /-- The id of a request. -/
  requestId : String := ""

/-- A failure of a command, with the texts of its causes, the nearest first. -/
structure Failure where
  message : String
  causes : List String := []
deriving DecidableEq, Repr

namespace Failure

/-- A text with blanks before each of its lines but the first. -/
def indented (blanks : Nat) (s : String) : String :=
  String.intercalate ("\n" ++ String.ofList (List.replicate blanks ' ')) (s.splitOn "\n")

/-- A cause with its number. -/
def numbered (n : Nat) (cause : String) : String :=
  let number := toString n
  String.ofList (List.replicate (5 - number.length) ' ') ++ number ++ ": " ++ indented 7 cause

/-- The failure and its causes; several are numbered. -/
def text (f : Failure) : String :=
  let causes := match f.causes with
    | [] => []
    | [cause] => ["    " ++ indented 4 cause]
    | many => many.zipIdx.map fun (cause, n) => numbered n cause
  let chain := if causes.isEmpty then "" else "\n\nCaused by:\n" ++ String.intercalate "\n" causes
  "Error: " ++ f.message ++ chain ++ "\n"

end Failure

/-- What a command has come to. -/
structure Outcome where
  code : Nat := 0
  stdout : String := ""
  /-- What is printed about a failure, behind the logs. -/
  stderr : String := ""
  logs : List Log.Record := []
  /-- A settings document that was made: its path and its text. -/
  created : Option (String × String) := none

namespace Outcome

/-- The command failed. -/
def fail (o : Outcome) (f : Failure) : Outcome := { o with code := 1, stderr := o.stderr ++ f.text }

/-- The logs that are not for debugging, a line for each. -/
def logText (o : Outcome) : String :=
  let shown := o.logs.filter fun r => r.level.rank ≤ Log.Level.info.rank
  String.join (shown.map (Log.lineText .brief ""))

/-- With more logs. -/
def tell (o : Outcome) (logs : List Log.Record) : Outcome := { o with logs := o.logs ++ logs }

end Outcome

/-- The file that says how to log. -/
def loggingFile : String := "log4rs.yml"

/-- What is told when logging starts. -/
def loggingRecord (files : Files) : Log.Record :=
  if (files loggingFile).isSome then
    ⟨.info, "ws_client::log", "Logging initialized from external configuration",
      [("path", loggingFile)]⟩
  else
    ⟨.debug, "ws_client::log",
      "Logging initialized from embedded defaults (no external log4rs.yml found)", []⟩

/-- The failure of a contract that cannot be loaded. -/
def loadFailure (e : Contract.LoadError) : Failure := ⟨e.message, e.causes⟩

/-- One line for each stub: its name, its request method and its path. -/
def stubLine (s : Stub) : String :=
  "  " ++ s.spec.name ++ " -> " ++ s.verb.text ++ " " ++ s.template.text ++ "\n"

/-- Validates a contract and prints its stubs. -/
def validate (files : Files) (name : String) (o : Outcome) : Outcome :=
  let (logs, loaded) := Contract.load files name
  let o := o.tell logs
  match loaded with
  | .error e => o.fail (loadFailure e)
  | .ok contract =>
    match contract.generate with
    | .error e => o.fail ⟨"Invalid contract " ++ contract.name, [e.message]⟩
    | .ok stubs =>
      let o := o.tell (contract.generateRecords stubs)
      { o with stdout := contract.name ++ "\n" ++ String.join (stubs.values.map stubLine) }

/-- The value of a request on which the program panics. -/
def panicked : Http.TransportError := .network ⟨.invalidRequest, "no value", []⟩

/-- Sends requests by a client. -/
def transport [Idna] (s : Surroundings) (client : Http.Client) : Transport := fun r =>
  match client.send? s.network s.draw s.setup r with
  | some d => (d.logs, d.outcome)
  | none => ([], .error panicked)

/-- The arguments of a call. -/
def callArgs (c : CallOptions) : Except Json.Fault CallArgs := do
  let path := c.path.map fun (name, value) => (name, Json.text value)
  match c.bean with
  | none => return { path }
  | some text =>
    let bean ← Json.readText text
    return { path, bean := some bean }

/-- The text about an error that the service told. -/
def remoteText (e : RemoteError) : String :=
  "severity=" ++ e.severity.text ++ ", error_code=" ++ e.code ++ ", status=" ++ toString e.status.code
    ++ ", message=" ++ e.message ++ "\n"

/-- Prints the value of a call, or tells why there is none. -/
def report (o : Outcome) : Except CallError Json → Outcome
  | .ok .null => o
  | .ok v => { o with stdout := v.pretty ++ "\n" }
  | .error (.remote e) =>
    { o with stderr := remoteText e }.fail ⟨"Remote service error: " ++ e.code, []⟩
  | .error e => o.fail ⟨"Web service call failed", e.message :: e.causes⟩

/-- The part that speaks when a method is called. -/
def logTarget : String := "ws_client"

/-- Calls a method of loaded stubs. -/
def callStubs [Idna] (s : Surroundings) (c : CallOptions) (client : Http.Client) (stubs : ServiceStubs)
    (o : Outcome) : Outcome :=
  match callArgs c with
  | .error fault =>
    let cause := match fault with
      | .cutShort => "text ends too early"
      | _ => "text is not JSON"
    o.fail ⟨"Request bean is not valid JSON", [cause]⟩
  | .ok args =>
    let o := o.tell [⟨.info, logTarget, "Calling web service",
      [("service", stubs.contract.name), ("method", c.method)]⟩]
    let run := stubs.call (transport s client) c.method args .any
    report (o.tell run.logs) run.result

/-- Loads a contract and calls a method of it. -/
def callContract [Idna] (s : Surroundings) (files : Files) (c : CallOptions) (settings : ClientSettings)
    (o : Outcome) : Outcome :=
  match ServiceClient.create settings.serviceUrl with
  | .error e => o.fail ⟨e.message, []⟩
  | .ok client =>
    let client := client.intercept (.requestId s.requestId)
    let (logs, loaded) := Contract.load files c.contract
    let o := o.tell logs
    match loaded with
    | .error e => o.fail (loadFailure e)
    | .ok contract =>
      match ServiceStubs.build contract client with
      | .error e => o.fail ⟨e.message, []⟩
      | .ok stubs =>
        callStubs s c settings.client stubs (o.tell (contract.generateRecords stubs.stubs))

/-- Loads the settings and calls a method. -/
def call [Idna] (s : Surroundings) (c : CallOptions) (o : Outcome) : Outcome :=
  let loaded := Settings.load s.files s.environment c.config
  let made := if loaded.created then some (c.config, Settings.standardDocument) else none
  let o := { o with created := made }.tell loaded.logs
  -- a file that was written is there for all that is read from now on
  let files := if loaded.created then Settings.withFile s.files c.config Settings.standardDocument
    else s.files
  match loaded.root with
  | .error e => o.fail ⟨"Could not build config", [e.message]⟩
  | .ok root =>
    match ClientSettings.ofRoot? root with
    | none => o.fail ⟨"Invalid client configuration", ["client settings do not fit"]⟩
    | some settings => callContract s files c (settings.apply c.connection) o

/-- Carries out the command that arguments spell. Help ends well; refused arguments end with code
2. -/
def run [Idna] (s : Surroundings) (arguments : List String) : Outcome :=
  let o : Outcome := { logs := [loggingRecord s.files] }
  match Command.parse arguments with
  | .error (.displayHelp command) => { o with stdout := Help.text command }
  | .error _ => { o with code := 2, stderr := Help.overview }
  | .ok (.validate contract) => validate s.files contract o
  | .ok (.call options) => call s options o

end ServiceCall.CommandLine
