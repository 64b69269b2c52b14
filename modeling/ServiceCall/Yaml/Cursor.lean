/-!
# Places in a YAML text

The text that is still to be read, with the line and the column where it starts.
-/

namespace ServiceCall.Yaml

/-- The character ends a line. -/
def isBreak (c : Char) : Bool := c == '\n' || c == '\r'

/-- A blank inside a line. -/
def isBlank (c : Char) : Bool := c == ' ' || c == '\t'

/-- A bracket or a comma of a flow collection. -/
def isFlow (c : Char) : Bool := c == ',' || c == '[' || c == ']' || c == '{' || c == '}'

/-- The line or the text ends here. -/
def isLineEnd : Option Char → Bool
  | none => true
  | some c => isBreak c

/-- A blank stands here, or the line or the text ends. -/
def isGap : Option Char → Bool
  | none => true
  | some c => isBlank c || isBreak c

/-- A place in a text. -/
structure Cursor where
  rest : List Char
  index : Nat := 0
  line : Nat := 0
  column : Nat := 0
  /-- Only blanks stand between the start of the line and here. -/
  leading : Bool := true
deriving Repr

namespace Cursor

/-- The character that stands here; none at the end of the text. -/
def peek (c : Cursor) : Option Char := c.rest.head?

/-- The character that stands some places ahead. -/
def peekAt (c : Cursor) (n : Nat) : Option Char := (c.rest.drop n).head?

/-- The text ends here. -/
def atEnd (c : Cursor) : Bool := c.rest.isEmpty

/-- Behind blanks or characters of a comment. -/
def pass (c : Cursor) (n : Nat) : Cursor :=
  { c with rest := c.rest.drop n, index := c.index + n, column := c.column + n }

/-- Behind characters that are content. -/
def skip (c : Cursor) (n : Nat) : Cursor := { c.pass n with leading := false }

/-- At the start of the next line, behind the line break that stands here. -/
def nextLine (c : Cursor) : Cursor :=
  match c.rest with
  | '\r' :: '\n' :: rest => ⟨rest, c.index + 2, c.line + 1, 0, true⟩
  | _ :: rest => ⟨rest, c.index + 1, c.line + 1, 0, true⟩
  | [] => c

/-- At the end of the line. -/
def toLineEnd (c : Cursor) : Cursor := c.pass (c.rest.takeWhile (!isBreak ·)).length

/-- Three characters of a kind at the start of a line, and a gap behind them. -/
def atMark (mark : Char) (c : Cursor) : Bool :=
  c.column == 0 && c.rest.take 3 == [mark, mark, mark] && isGap (c.peekAt 3)

/-- A document starts or ends here. -/
def atDocumentMark (c : Cursor) : Bool := c.atMark '-' || c.atMark '.'

/-- What was passed on the way to the end of a line. -/
structure Passed where
  tab : Bool := false
  space : Bool := false

/-- Behind blanks and a comment; a comment has a blank before it. -/
def passBlanks? (tabs : Bool) : Nat → Passed → Cursor → Option (Passed × Cursor)
  | 0, passed, c => some (passed, c)
  | steps + 1, passed, c =>
    match c.peek with
    | some ' ' => passBlanks? tabs steps { passed with space := true } (c.pass 1)
    | some '\t' =>
      if tabs then passBlanks? tabs steps { passed with tab := true } (c.pass 1) else some (passed, c)
    | some '#' => if passed.tab || passed.space then some (passed, c.toLineEnd) else none
    | _ => some (passed, c)

/-- Behind the blanks and the comment that stand here. -/
def toContent? (tabs : Bool) (c : Cursor) : Option (Passed × Cursor) :=
  c.passBlanks? tabs (c.rest.length + 1) {}

/-- Behind the blanks and the comment that stand here, tabs included. -/
def afterBlanks? (c : Cursor) : Option Cursor := (c.toContent? true).map Prod.snd

end Cursor

end ServiceCall.Yaml
