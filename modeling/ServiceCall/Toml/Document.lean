import ServiceCall.Toml.Value

/-!
# TOML documents

A document is a list of pairs under headers. A header names a table, or adds a table to a list of
tables. A table is defined once: by a header, by the path of a longer header, or by the path of a
pair, and only one that a longer header made may get a header of its own later.
-/

namespace ServiceCall.Toml

/-- How a table came to be. -/
inductive Origin where
  | header
  /-- On the way to the table of a longer header. -/
  | passed
  /-- On the way to the value of a pair. -/
  | byPair
deriving DecidableEq, Repr

/-- A table of a document, and what an entry of it holds. -/
inductive Section where
  | value (n : Node)
  | table (origin : Origin) (entries : List (String × Section))
  | tables (each : List (List (String × Section)))
deriving Repr, Inhabited

/-- The entries of a table. -/
abbrev Entries := List (String × Section)

/-- Puts a value under a key, in the place of an earlier one. -/
def Entries.put (key : String) (value : Section) : Entries → Entries
  | [] => [(key, value)]
  | (k, v) :: rest => if k == key then (key, value) :: rest else (k, v) :: Entries.put key value rest

/-- A change of the last item of a list, if there is one. -/
def onLast? {α : Type} (f : α → Option α) : List α → Option (List α)
  | [] => none
  | [a] => (f a).map fun b => [b]
  | a :: rest => (onLast? f rest).map (a :: ·)

/-- A change of the table that a header's path leads to; tables on the way are made, and of a list
of tables the last is taken. -/
def Entries.under? (f : Entries → Option Entries) : List String → Entries → Option Entries
  | [], entries => f entries
  | k :: path, entries =>
    match entries.lookup k with
    | none => (under? f path []).map fun inner => entries ++ [(k, .table .passed inner)]
    | some (.table origin inner) =>
      (under? f path inner).map fun inner => Entries.put k (.table origin inner) entries
    | some (.tables each) =>
      (onLast? (under? f path) each).map fun each => Entries.put k (.tables each) entries
    | some (.value _) => none

/-- Adds the value of a pair. Tables on the way must not have a header, and the last of them not be
made by one. -/
def Entries.addPair? (value : Node) : List String → Entries → Option Entries
  | [], _ => none
  | [k], entries =>
    if (entries.lookup k).isSome then none else some (entries ++ [(k, .value value)])
  | k :: path, entries =>
    match entries.lookup k with
    | none => (addPair? value path []).map fun inner => entries ++ [(k, .table .byPair inner)]
    | some (.table .byPair inner) =>
      (addPair? value path inner).map fun inner => Entries.put k (.table .byPair inner) entries
    | some (.table .passed inner) =>
      if path.length = 1 then none
      else (addPair? value path inner).map fun inner => Entries.put k (.table .passed inner) entries
    | some _ => none

/-- Gives a table its header. -/
def Entries.open? (key : String) (entries : Entries) : Option Entries :=
  match entries.lookup key with
  | none => some (entries ++ [(key, .table .header [])])
  | some (.table .passed inner) => some (Entries.put key (.table .header inner) entries)
  | some _ => none

/-- Adds a table to a list of tables. -/
def Entries.append? (key : String) (entries : Entries) : Option Entries :=
  match entries.lookup key with
  | none => some (entries ++ [(key, .tables [[]])])
  | some (.tables each) => some (Entries.put key (.tables (each ++ [[]])) entries)
  | some _ => none

mutual

/-- What stands in a document as a value. -/
def Section.toNode : Section → Node
  | .value n => n
  | .table _ entries => .table (toEntries entries)
  | .tables each => .list (toTables each)

/-- The entries of a table as values. -/
def Section.toEntries : List (String × Section) → List (String × Node)
  | [] => []
  | (k, v) :: rest => (k, v.toNode) :: toEntries rest

/-- Several tables as values. -/
def Section.toTables : List (List (String × Section)) → List Node
  | [] => []
  | entries :: rest => .table (toEntries entries) :: toTables rest

end

/-- A document while it is read: the entries at its top, and the path of the last header. -/
structure Document where
  entries : Entries := []
  current : List String := []

namespace Document

/-- Adds a pair under the last header. -/
def pair? (d : Document) (path : List String) (value : Node) : Option Document :=
  (Entries.under? (Entries.addPair? value path) d.current d.entries).map fun es =>
    { d with entries := es }

/-- A header: the change that it makes in the table above its own. -/
def header? (d : Document) (change : String → Entries → Option Entries) (path : List String) :
    Option Document :=
  match path.reverse with
  | [] => none
  | key :: above =>
    (Entries.under? (change key) above.reverse d.entries).map fun es => ⟨es, path⟩

end Document

/-- What follows the end of a line, behind blanks and a comment. -/
def lineEnd? (cs : List Char) : Option (List Char) := do
  match ← skipComment? (skipBlanks cs) with
  | [] => return []
  | rest => afterBreak? rest

/-- What follows some characters, if the text starts with them. -/
def closing? : List Char → List Char → Option (List Char)
  | [], cs => some cs
  | m :: marks, c :: cs => if m == c then closing? marks cs else none
  | _ :: _, [] => none

/-- One line of a document: a header, a pair or nothing. A pair may run over several lines. -/
def line? (d : Document) (cs : List Char) : Option (Document × List Char) := do
  match skipBlanks cs with
  | '[' :: '[' :: rest =>
    let (path, rest) ← path? rest.length rest
    let rest ← closing? [']', ']'] rest
    let rest ← lineEnd? rest
    let d ← d.header? Entries.append? path
    return (d, rest)
  | '[' :: rest =>
    let (path, rest) ← path? rest.length rest
    let rest ← closing? [']'] rest
    let rest ← lineEnd? rest
    let d ← d.header? Entries.open? path
    return (d, rest)
  | [] => return (d, [])
  | c :: rest =>
    if c == '#' || c == '\n' || c == '\r' then
      let rest ← lineEnd? (c :: rest)
      return (d, rest)
    else
      let (path, rest) ← path? (rest.length + 1) (c :: rest)
      let rest ← closing? ['='] rest
      let (v, rest) ← readValue? (skipBlanks rest)
      let rest ← lineEnd? rest
      let d ← d.pair? path v
      return (d, rest)

/-- All lines of a document; each takes at least one character. -/
def lines? : Nat → Document → List Char → Option Document
  | _, d, [] => some d
  | 0, _, _ :: _ => none
  | steps + 1, d, cs => (line? d cs).bind fun (d, rest) => lines? steps d rest

/-- The text without a byte order mark at its start. -/
def dropMark : List Char → List Char
  | c :: rest => if c.toNat = 0xFEFF then rest else c :: rest
  | [] => []

/-- The table that a TOML document holds, if it is one. -/
def read? (text : String) : Option Node :=
  let cs := dropMark text.toList
  (lines? (cs.length + 1) {} cs).map fun d => .table (Section.toEntries d.entries)

end ServiceCall.Toml
