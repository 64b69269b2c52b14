import ServiceCall.Json.Value

/-!
# JSON text

The compact form has no blanks. The form for people puts each item on a line of its own, two spaces
deeper than its container.
-/

namespace ServiceCall.Json

namespace Printer

/-- A hexadecimal digit of four bits. -/
def hexDigit (n : Nat) : Char := Nat.digitChar n

/-- One character of a quoted text: short escapes where there are any, other controls by code. -/
def escape (c : Char) : List Char :=
  if c == '"' || c == '\\' then ['\\', c]
  else if c == '\x08' then ['\\', 'b']
  else if c == '\x0c' then ['\\', 'f']
  else if c == '\n' then ['\\', 'n']
  else if c == '\r' then ['\\', 'r']
  else if c == '\t' then ['\\', 't']
  else if c.toNat < 32 then ['\\', 'u', '0', '0', hexDigit (c.toNat / 16), hexDigit (c.toNat % 16)]
  else [c]

/-- A text between quotes. -/
def quoted (s : String) : List Char := '"' :: s.toList.flatMap escape ++ ['"']

mutual

/-- The compact text of a value. -/
def compact : Json → List Char
  | .null => ['n', 'u', 'l', 'l']
  | .bool true => ['t', 'r', 'u', 'e']
  | .bool false => ['f', 'a', 'l', 's', 'e']
  | .number n => n.text
  | .text s => quoted s
  | .array items => '[' :: compactItems items ++ [']']
  | .object members => '{' :: compactMembers members ++ ['}']

/-- Items with commas between them. -/
def compactItems : List Json → List Char
  | [] => []
  | [v] => compact v
  | v :: w :: rest => compact v ++ ',' :: compactItems (w :: rest)

/-- Members with commas between them. -/
def compactMembers : List (String × Json) → List Char
  | [] => []
  | [(name, v)] => quoted name ++ ':' :: compact v
  | (name, v) :: m :: rest => quoted name ++ ':' :: compact v ++ ',' :: compactMembers (m :: rest)

end

/-- A line break and the indentation of a depth. -/
def newline (depth : Nat) : List Char := '\n' :: List.replicate (2 * depth) ' '

mutual

/-- The text of a value for people; empty containers stay on one line. -/
def pretty (depth : Nat) : Json → List Char
  | .array [] => ['[', ']']
  | .object [] => ['{', '}']
  | .array (v :: rest) => '[' :: prettyItems (depth + 1) (v :: rest) ++ newline depth ++ [']']
  | .object (m :: rest) => '{' :: prettyMembers (depth + 1) (m :: rest) ++ newline depth ++ ['}']
  | v => compact v

/-- Items, each on a line of its own. -/
def prettyItems (depth : Nat) : List Json → List Char
  | [] => []
  | [v] => newline depth ++ pretty depth v
  | v :: w :: rest => newline depth ++ pretty depth v ++ ',' :: prettyItems depth (w :: rest)

/-- Members, each on a line of its own. -/
def prettyMembers (depth : Nat) : List (String × Json) → List Char
  | [] => []
  | [(name, v)] => newline depth ++ quoted name ++ ':' :: ' ' :: pretty depth v
  | (name, v) :: m :: rest =>
    newline depth ++ quoted name ++ ':' :: ' ' :: pretty depth v ++ ',' :: prettyMembers depth (m :: rest)

end

end Printer

/-- The compact text of a value. -/
def compact (v : Json) : String := String.ofList (Printer.compact v)

/-- The text of a value for people. -/
def pretty (v : Json) : String := String.ofList (Printer.pretty 0 v)

end ServiceCall.Json
