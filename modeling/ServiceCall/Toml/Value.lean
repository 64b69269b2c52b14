import ServiceCall.Toml.Text
import ServiceCall.Toml.Moment
import ServiceCall.Toml.Number

/-!
# Keys and values in TOML

A key is bare or quoted, and keys with points between them make a path. A value is a text, a number,
a truth value, a moment, an array or a table between braces. Moments become their text. Arrays and
tables between braces lie inside one another less than eighty deep.
-/

namespace ServiceCall.Toml

/-- A character of a key without quotes. -/
def isBare (c : Char) : Bool := c.isAlphanum || c == '_' || c == '-'

/-- The text without the blanks at its start. -/
def skipBlanks (cs : List Char) : List Char := cs.dropWhile isBlank

/-- One key, and what follows it. -/
def key? : List Char → Option (String × List Char)
  | '"' :: rest => (Quoted.basic rest).map fun (k, rest) => (String.ofList k, rest)
  | '\'' :: rest => (Quoted.literal rest).map fun (k, rest) => (String.ofList k, rest)
  | cs =>
    match cs.takeWhile isBare with
    | [] => none
    | k => some (String.ofList k, cs.dropWhile isBare)

/-- Keys with points between them and blanks around each, and what follows. The number of steps
bounds how many keys are read. -/
def path? : Nat → List Char → Option (List String × List Char)
  | 0, _ => none
  | steps + 1, cs => do
    let (k, rest) ← key? (skipBlanks cs)
    match skipBlanks rest with
    | '.' :: rest =>
      let (ks, rest) ← path? steps rest
      return (k :: ks, rest)
    | rest => return ([k], rest)

/-- What follows a comment, if one stands here that ends with its line. -/
def skipComment? : List Char → Option (List Char)
  | '#' :: rest =>
    match rest.dropWhile isVisible with
    | [] => some []
    | rest => if (afterBreak? rest).isSome then some rest else none
  | cs => some cs

/-- The text without the blanks, comments and line breaks at its start. -/
def skipLines? : Nat → List Char → Option (List Char)
  | 0, cs => some cs
  | steps + 1, cs =>
    match skipBlanks cs with
    | '#' :: rest => (skipComment? ('#' :: rest)).bind fun rest => skipLines? steps rest
    | '\n' :: rest => skipLines? steps rest
    | '\r' :: '\n' :: rest => skipLines? steps rest
    | rest => some rest

/-- Skips blanks, comments and line breaks, as many as there are. -/
def skipAllLines? (cs : List Char) : Option (List Char) := skipLines? (cs.length + 1) cs

/-- A table between braces while it is read: whether it was made by a path, and its entries. -/
inductive Inline where
  | node (n : Node)
  | table (byPath : Bool) (entries : List (String × Inline))
deriving Repr, Inhabited

namespace Inline

/-- Adds a value under a path. A value or a table between braces cannot be extended, and no key is
given twice. -/
def add? (value : Inline) : List String → List (String × Inline) → Option (List (String × Inline))
  | [], _ => none
  | [k], entries => if (entries.lookup k).isSome then none else some (entries ++ [(k, value)])
  | k :: path, entries =>
    match entries.lookup k with
    | none => (add? value path []).map fun inner => entries ++ [(k, .table true inner)]
    | some (.table true inner) =>
      (add? value path inner).map fun inner =>
        entries.map fun e => if e.1 == k then (k, .table true inner) else e
    | some _ => none

mutual

/-- What was read as a value. -/
def toNode : Inline → Node
  | .node n => n
  | .table _ entries => .table (toEntries entries)

/-- The entries as values. -/
def toEntries : List (String × Inline) → List (String × Node)
  | [] => []
  | (k, v) :: rest => (k, toNode v) :: toEntries rest

end

end Inline

/-- A value without parts, and what follows it. -/
def simple? (cs : List Char) : Option (Node × List Char) :=
  match cs with
  | 't' :: 'r' :: 'u' :: 'e' :: rest => some (.flag true, rest)
  | 'f' :: 'a' :: 'l' :: 's' :: 'e' :: rest => some (.flag false, rest)
  | '"' :: _ | '\'' :: _ =>
    (Quoted.read cs).map fun (s, rest) => (.text (String.ofList s), rest)
  | _ =>
    if Moment.startsDay cs then
      (Moment.dated? cs).map fun (m, rest) => (.text (String.ofList m.chars), rest)
    else if Moment.startsTime cs then
      (Moment.time? cs).map fun (t, rest) => (.text (String.ofList t.chars), rest)
    else Number.read? cs

mutual

/-- A value that may hold parts `depth` deep, and what follows it. -/
def value? : Nat → Nat → List Char → Option (Node × List Char)
  | 0, _, _ => none
  | _ + 1, 0, '[' :: _ => none
  | _ + 1, 0, '{' :: _ => none
  | steps + 1, depth + 1, '[' :: rest =>
    (items? steps depth rest).map fun (vs, rest) => (.list vs, rest)
  | steps + 1, depth + 1, '{' :: rest =>
    match skipBlanks rest with
    | '}' :: rest => some (.table [], rest)
    | rest => (pairs? steps depth [] rest).map fun (es, rest) => (.table (Inline.toEntries es), rest)
  | _ + 1, _, cs => simple? cs

/-- The items of an array up to its closing bracket, and what follows it. -/
def items? : Nat → Nat → List Char → Option (List Node × List Char)
  | 0, _, _ => none
  | steps + 1, depth, cs => do
    match ← skipAllLines? cs with
    | ']' :: rest => return ([], rest)
    | cs =>
      let (v, rest) ← value? steps depth cs
      match ← skipAllLines? rest with
      | ',' :: rest =>
        let (vs, rest) ← items? steps depth rest
        return (v :: vs, rest)
      | ']' :: rest => return ([v], rest)
      | _ => none

/-- The pairs of a table between braces up to the closing one, and what follows it. -/
def pairs? : Nat → Nat → List (String × Inline) → List Char → Option (List (String × Inline) × List Char)
  | 0, _, _, _ => none
  | steps + 1, depth, entries, cs => do
    let (path, rest) ← path? cs.length cs
    match rest with
    | '=' :: rest =>
      let (v, rest) ← value? steps depth (skipBlanks rest)
      let entries ← Inline.add? (.node v) path entries
      match skipBlanks rest with
      | ',' :: rest => pairs? steps depth entries rest
      | '}' :: rest => return (entries, rest)
      | _ => none
    | _ => none

end

/-- How deep arrays and tables between braces may lie. -/
def depthLimit : Nat := 79

/-- A value, and what follows it. -/
def readValue? (cs : List Char) : Option (Node × List Char) := value? (cs.length + 1) depthLimit cs

end ServiceCall.Toml
