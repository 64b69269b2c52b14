import ServiceCall.CommandLine.Option
import ServiceCall.Settings.Client

/-!
# Commands

A contract is validated, or one method of it is called.
-/

namespace ServiceCall.CommandLine

/-- What a call is told. -/
structure CallOptions where
  contract : String
  method : String
  path : List (String × String) := []
  bean : Option String := none
  config : String := "config/config.toml"
  connection : ConnectionOptions := {}
deriving DecidableEq, Repr

/-- A command with its options. -/
inductive Command where
  | validate (contract : String)
  | call (options : CallOptions)
deriving DecidableEq, Repr

namespace Command

/-- The option for the contract. -/
def contractOption : OptionSpec :=
  { long := "contract", letter := some 'c', kind := .path, required := true
    about := "Path to the contract schema file (TOML or YAML)" }

/-- The options of a validation. -/
def validateOptions : List OptionSpec := [contractOption]

/-- The options of a call. -/
def callOptions : List OptionSpec :=
  [contractOption,
   { long := "method", letter := some 'm', required := true
     about := "Name of the contract method to call" },
   { long := "path", letter := some 'p', kind := .pair, repeated := true
     about := "Path param as name=value. Can be specified multiple times." },
   { long := "bean", letter := some 'b', about := "Request bean as JSON" },
   { long := "config", kind := .path, standard := some "config/config.toml"
     about := "Path to the config file" },
   { long := "service-url", letter := some 'u'
     about := "Overrides client.service_url from the config file" },
   { long := "max-attempts", kind := .count
     about := "Overrides client.max_attempts from the config file" }]

/-- The call that the options tell. -/
def ofFound (f : Found) : CallOptions :=
  { contract := (f.one? "contract").getD ""
    method := (f.one? "method").getD ""
    path := (f.all "path").filterMap namePair?
    bean := f.one? "bean"
    config := (f.one? "config").getD "config/config.toml"
    connection := ⟨f.one? "service-url", (f.one? "max-attempts").bind count?⟩ }

/-- The names of the documents that a command reads. -/
def documents : Command → List String
  | .validate contract => [contract]
  | .call options => [options.contract, options.config]

/-- The names of commands. -/
def names : List String := ["validate", "call", "help"]

/-- A request for help on a command, none of which has commands of its own. -/
def help : List String → ArgumentError
  | [] => .displayHelp none
  | [name] => if names.contains name then .displayHelp (some name) else .invalidSubcommand
  | _ => .invalidSubcommand

/-- An option before any command; only help is known there. -/
def leading (argument : List Char) : ArgumentError :=
  match argument with
  | '-' :: '-' :: body =>
    match longArgument none [] body {} with
    | .error e => e
    | .ok _ => .unknownArgument
  | '-' :: letter :: body =>
    match shortArgument none [] letter body {} with
    | .error e => e
    | .ok _ => .unknownArgument
  | _ => .invalidSubcommand

/-- The command that arguments spell. -/
def parse : List String → Except ArgumentError Command
  | [] => .error .displayHelpOnMissingArgumentOrSubcommand
  | "validate" :: rest =>
    (readAll "validate" validateOptions rest).map fun f => .validate ((f.one? "contract").getD "")
  | "call" :: rest => (readAll "call" callOptions rest).map fun f => .call (ofFound f)
  | "help" :: rest => .error (help rest)
  | "--" :: rest =>
    match rest with
    | [] => .error .displayHelpOnMissingArgumentOrSubcommand
    | name :: _ => .error (if names.contains name then .unknownArgument else .invalidSubcommand)
  | argument :: _ => .error (leading argument.toList)

end Command

end ServiceCall.CommandLine
