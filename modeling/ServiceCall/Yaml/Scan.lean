import ServiceCall.Yaml.Token
import ServiceCall.Yaml.Cursor

/-!
# The state between two tokens

Columns open and close blocks: a stack of indentations says which are open. A token on a line may
turn out to be a key when a colon follows it; for each open flow collection, and for the blocks
around them, the place of the last such token is kept.
-/

namespace ServiceCall.Yaml

/-- A token that may be a key: whether it has to be one, its number, and its place. -/
structure Candidate where
  required : Bool
  number : Nat
  line : Nat
  column : Nat
  index : Nat
deriving Repr

/-- What an entry of a flow sequence is so far. -/
inductive Entry where
  | item
  /-- A pair that a colon alone started. -/
  | pair
  /-- A pair that a question mark started. -/
  | marked
deriving DecidableEq, Repr

/-- An open flow collection. -/
inductive Flow where
  | mapping
  | sequence (entry : Entry)
deriving DecidableEq, Repr

/-- An indentation to return to, and whether a block closes on the way back. -/
structure Outer where
  indent : Int
  closes : Bool
deriving DecidableEq, Repr

/-- The state between two tokens. -/
structure Scan where
  here : Cursor
  tokens : Array Token := #[]
  /-- The candidate of the innermost collection first. -/
  candidates : List (Option Candidate) := [none]
  /-- A key may start here. -/
  keyAllowed : Bool := true
  /-- The column of the innermost block, less than zero outside every block. -/
  indent : Int := -1
  outer : List Outer := []
  /-- The innermost flow collection first. -/
  flows : List Flow := []
  /-- The place behind a key in quotes or brackets, where a colon needs no gap. -/
  adjacent : Option Nat := none
deriving Repr

namespace Scan

/-- Inside a flow collection. -/
def inFlow (s : Scan) : Bool := !s.flows.isEmpty

/-- With one more token. -/
def push (t : Token) (s : Scan) : Scan := { s with tokens := s.tokens.push t }

/-- With a token before the token of a number. -/
def insert (number : Nat) (t : Token) (s : Scan) : Scan :=
  { s with tokens := s.tokens.insertIdxIfInBounds number t }

/-- Where a key may or may not start. -/
def allowKey (allowed : Bool) (s : Scan) : Scan := { s with keyAllowed := allowed }

/-- At another place. -/
def move (c : Cursor) (s : Scan) : Scan := { s with here := c }

/-- The candidate of the innermost collection. -/
def candidate? (s : Scan) : Option Candidate := s.candidates.head?.join

/-- With another candidate for the innermost collection. -/
def setCandidate (c : Option Candidate) (s : Scan) : Scan :=
  { s with candidates := c :: s.candidates.drop 1 }

/-- The token that comes next may be a key, if keys may start here. It has to be one at the column of
an open block. -/
def noteCandidate (s : Scan) : Scan :=
  if s.keyAllowed then
    let required := !s.inFlow && s.indent == (s.here.column : Int) && s.outer.head?.any Outer.closes
    s.setCandidate (some ⟨required, s.tokens.size, s.here.line, s.here.column, s.here.index⟩)
  else s

/-- No token before this one is a key; an error if one had to be. -/
def dropCandidate? (s : Scan) : Option Scan :=
  match s.candidate? with
  | some c => if c.required then none else some (s.setCandidate none)
  | none => some s

/-- Outside flow collections a key and its colon stand on one line, less than 1024 characters
apart. -/
def dropStale? (s : Scan) : Option Scan :=
  if s.inFlow then some s
  else
    match s.candidate? with
    | some c =>
      if c.line < s.here.line || c.index + 1024 < s.here.index then
        if c.required then none else some (s.setCandidate none)
      else some s
    | none => some s

/-- Closes the blocks that are open beyond a column. -/
def closeBlocks (column : Int) (s : Scan) : Scan :=
  if s.inFlow then s else go s.outer s
where
  /-- Returns to the outer indentations one by one. -/
  go : List Outer → Scan → Scan
    | [], s => s
    | o :: rest, s =>
      if column < s.indent then
        let s := { s with indent := o.indent, outer := rest }
        go rest (if o.closes then s.push .blockEnd else s)
      else s

/-- Leaves an indentation that no block stands at, if the innermost is one that this column
continues. -/
def leaveColumn (column : Nat) (s : Scan) : Scan :=
  if s.indent ≤ (column : Int) then
    match s.outer with
    | o :: rest => if o.closes then s else { s with indent := o.indent, outer := rest }
    | [] => s
  else s

/-- Opens a block at a column beyond the innermost one, its token before the token of a number or
last. -/
def openBlock (column : Nat) (number : Option Nat) (t : Token) (s : Scan) : Scan :=
  if s.inFlow then s
  else
    let s := s.leaveColumn column
    if s.indent < (column : Int) then
      let s := { s with outer := ⟨s.indent, true⟩ :: s.outer, indent := column }
      match number with
      | some n => s.insert n t
      | none => s.push t
    else s

/-- What follows lies beyond the innermost block, without a block of its own. -/
def enterColumn (s : Scan) : Scan :=
  if !s.inFlow && s.outer.head?.any Outer.closes then
    { s with outer := ⟨s.indent, false⟩ :: s.outer, indent := s.indent + 1 }
  else s

/-- Leaves the indentations that no block stands at. -/
def leaveColumns (s : Scan) : Scan :=
  go s.outer s
where
  /-- Returns to the outer indentations up to the first block. -/
  go : List Outer → Scan → Scan
    | [], s => s
    | o :: rest, s => if o.closes then s else go rest { s with indent := o.indent, outer := rest }

/-- Ends the pair that a colon alone started in a flow sequence. -/
def endPair (s : Scan) : Scan :=
  match s.flows with
  | .sequence .pair :: rest => { s with flows := .sequence .item :: rest }.push .flowMappingEnd
  | .sequence .marked :: rest => { s with flows := .sequence .item :: rest }
  | _ => s

/-- Behind blanks, comments and line breaks. At the start of a line a tab does not indent a
block. -/
def toToken? : Nat → Scan → Option Scan
  | 0, s => some s
  | steps + 1, s =>
    let c := s.here
    match c.peek with
    | some '\t' =>
      if !s.outer.isEmpty && c.leading && (c.column : Int) < s.indent then
        match c.afterBlanks? with
        | none => none
        | some c => if isLineEnd c.peek then toToken? steps (s.move c) else none
      else toToken? steps (s.move (c.pass 1))
    | some ' ' => toToken? steps (s.move (c.pass 1))
    | some '\n' | some '\r' =>
      let s := s.move c.nextLine
      toToken? steps (if s.inFlow then s else s.allowKey true)
    | some '#' => toToken? steps (s.move c.toLineEnd)
    | _ => some s

/-- Behind all blanks, comments and line breaks that stand here. -/
def toNext? (s : Scan) : Option Scan := s.toToken? (s.here.rest.length + 1)

end Scan

end ServiceCall.Yaml
