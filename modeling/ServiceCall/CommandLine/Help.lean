import ServiceCall.CommandLine.Command

/-!
# Help

What is shown about the commands: what they do, how they are called, and their options in columns.
-/

namespace ServiceCall.CommandLine.Help

/-- The name of the program. -/
def program : String := "ws-client"

/-- The name of an option's value. -/
def valueName (o : OptionSpec) : String :=
  "<" ++ String.ofList (o.long.toList.map fun c => if c == '-' then '_' else c.toUpper) ++ ">"

/-- An option with its letter, or with blanks in its place. -/
def optionName (o : OptionSpec) : String :=
  let letter := match o.letter with
    | some c => "-" ++ c.toString ++ ", "
    | none => "    "
  letter ++ "--" ++ o.long ++ " " ++ valueName o

/-- What an option is for. -/
def optionAbout (o : OptionSpec) : String :=
  match o.standard with
  | some value => o.about ++ " [default: " ++ value ++ "]"
  | none => o.about

/-- Rows of two columns. -/
def rows (entries : List (String × String)) : String :=
  let width := (entries.map fun e => e.1.length).foldl max 0
  let row (e : String × String) : String :=
    "  " ++ e.1 ++ String.ofList (List.replicate (width - e.1.length + 2) ' ') ++ e.2 ++ "\n"
  String.join (entries.map row)

/-- The row for help itself. -/
def helpRow : String × String := ("-h, --help", "Print help")

/-- The call of a command with its required options. -/
def usage (name : String) (options : List OptionSpec) : String :=
  let optional := if options.any (!·.required) then " [OPTIONS]" else ""
  let needed := (options.filter (·.required)).map fun o => " --" ++ o.long ++ " " ++ valueName o
  "Usage: " ++ program ++ " " ++ name ++ optional ++ String.join needed ++ "\n"

/-- What the commands do. -/
def about : List (String × String) :=
  [("validate", "Validate a contract schema file and print the generated method-to-route mapping, "
      ++ "sorted by method name"),
   ("call", "Call one method of a contract and print the decoded response as JSON"),
   ("help", "Print this message or the help of the given subcommand(s)")]

/-- Help on a command. -/
def ofCommand (name : String) (options : List OptionSpec) : String :=
  (about.lookup name).getD "" ++ "\n\n" ++ usage name options ++ "\nOptions:\n"
    ++ rows (options.map (fun o => (optionName o, optionAbout o)) ++ [helpRow])

/-- Help on all commands. -/
def overview : String :=
  "Validate and call web service contracts\n\nUsage: " ++ program ++ " <COMMAND>\n\nCommands:\n"
    ++ rows about ++ "\nOptions:\n" ++ rows [helpRow]

/-- Help on help. -/
def ofHelp : String :=
  (about.lookup "help").getD "" ++ "\n\nUsage: " ++ program ++ " help [COMMAND]...\n\nArguments:\n"
    ++ rows [("[COMMAND]...", "Print help for the subcommand(s)")]

/-- The help that is asked for. -/
def text : Option String → String
  | some "validate" => ofCommand "validate" Command.validateOptions
  | some "call" => ofCommand "call" Command.callOptions
  | some "help" => ofHelp
  | _ => overview

end ServiceCall.CommandLine.Help
