import ServiceCall.CommandLine.Run

/-!
# The program

Reads the files that a command needs, carries the command out and prints what it has come to.
-/

namespace ServiceCall.Program

/-- The text of a file, if there is one. -/
def readText? (path : String) : IO (Option String) := do
  try
    return some (← IO.FS.readFile path)
  catch _ => return none

/-- The files among some paths, with their texts. -/
def readKnown (paths : List String) : IO (List (String × String)) :=
  paths.filterMapM fun path => do
    let text ← readText? path
    return text.map fun t => (path, t)

/-- The variables of the environment. -/
def environment : IO (List (String × String)) := do
  let text ← readText? "/proc/self/environ"
  return ((text.getD "").splitOn "\x00").filterMap CommandLine.namePair?

/-- Digits of a random number in base 16. -/
def randomDigits (n : Nat) : IO String := do
  let digits ← (List.range n).mapM fun _ => IO.rand 0 15
  return String.ofList (digits.map Nat.digitChar)

/-- A random id of a request. -/
def requestId : IO String := do
  let first ← randomDigits 8
  let second ← randomDigits 4
  let third ← randomDigits 3
  let fourth ← randomDigits 3
  let last ← randomDigits 12
  return first ++ "-" ++ second ++ "-4" ++ third ++ "-8" ++ fourth ++ "-" ++ last

/-- Writes a document that was made, with the directories above it. -/
def write (path text : String) : IO Unit := do
  let above := Files.directory path
  if above != "" then IO.FS.createDirAll above
  IO.FS.writeFile path text

/-- Carries out a command. -/
def run (arguments : List String) : IO UInt32 := do
  let named := match CommandLine.Command.parse arguments with
    | .ok command => command.documents
    | .error _ => []
  let known ← readKnown (CommandLine.loggingFile :: named.flatMap Files.candidates)
  let surroundings : CommandLine.Surroundings :=
    { files := fun path => known.lookup path
      environment := ← environment
      network := Http.Network.unreachable
      requestId := ← requestId }
  let outcome := CommandLine.run surroundings arguments
  if let some (path, text) := outcome.created then write path text
  IO.print outcome.stdout
  IO.eprint (outcome.logText ++ outcome.stderr)
  return outcome.code.toUInt32

end ServiceCall.Program

/-- The command line. -/
def main (arguments : List String) : IO UInt32 := ServiceCall.Program.run arguments
