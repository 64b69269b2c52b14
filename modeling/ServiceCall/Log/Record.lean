/-!
# Log records

What the library tells about its work: a level, the part that speaks, a message, and pairs of a key
and the text of a value.
-/

namespace ServiceCall.Log

/-- How urgent a record is. -/
inductive Level where
  | error
  | warn
  | info
  | debug
  | trace
deriving DecidableEq, Repr

/-- The word for a level. -/
def Level.text : Level → String
  | .error => "ERROR"
  | .warn => "WARN"
  | .info => "INFO"
  | .debug => "DEBUG"
  | .trace => "TRACE"

/-- The level of a word. -/
def Level.ofText? (word : String) : Option Level :=
  [Level.error, .warn, .info, .debug, .trace].find? fun l => l.text == word

/-- A level is read off its word. -/
theorem Level.ofText?_text (l : Level) : ofText? l.text = some l := by
  cases l <;> decide

/-- From the most urgent level, 1, to the least, 5. -/
def Level.rank : Level → Nat
  | .error => 1
  | .warn => 2
  | .info => 3
  | .debug => 4
  | .trace => 5

/-- One record. -/
structure Record where
  level : Level
  target : String
  message : String
  fields : List (String × String) := []
deriving DecidableEq, Repr

end ServiceCall.Log
