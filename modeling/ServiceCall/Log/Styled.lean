/-!
# Styled text

Text with changes of style between its parts. Written plainly the styles are dropped; for a terminal
each change is an escape sequence that starts from the plain style.
-/

namespace ServiceCall.Log

/-- Colours in use. -/
inductive Color where
  | red
  | green
  | yellow
  | cyan
deriving DecidableEq, Repr

/-- The digit of a colour in an escape sequence. -/
def Color.digit : Color → Char
  | .red => '1'
  | .green => '2'
  | .yellow => '3'
  | .cyan => '6'

/-- How text looks: its colour, and whether it is intense. -/
structure Style where
  color : Option Color := none
  intense : Bool := false
deriving DecidableEq, Repr

namespace Style

/-- No colour, not intense. -/
def plain : Style := {}

/-- Text in one colour. -/
def ofColor (c : Color) : Style := { color := some c }

/-- The escape sequence that switches to the style. -/
def escape (s : Style) : List Char :=
  let color := match s.color with
    | some c => [';', '3', c.digit]
    | none => []
  '\x1b' :: '[' :: '0' :: color ++ (if s.intense then [';', '1'] else []) ++ ['m']

end Style

/-- A part of styled text: characters, or a change of style. -/
inductive Span where
  | text (cs : List Char)
  | style (s : Style)
deriving DecidableEq, Repr

namespace Span

/-- The characters of a part. -/
def chars : Span → List Char
  | .text cs => cs
  | .style _ => []

/-- The characters of a part on a terminal. -/
def terminalChars : Span → List Char
  | .text cs => cs
  | .style s => s.escape

end Span

/-- Styled text without its styles. -/
def plainChars (spans : List Span) : List Char := spans.flatMap Span.chars

/-- Styled text for a terminal. -/
def terminalChars (spans : List Span) : List Char := spans.flatMap Span.terminalChars

theorem plainChars_append (a b : List Span) : plainChars (a ++ b) = plainChars a ++ plainChars b :=
  List.flatMap_append

/-- Keeps the first characters, and every change of style. -/
def truncate : Nat → List Span → List Span
  | _, [] => []
  | n, .style s :: rest => .style s :: truncate n rest
  | n, .text cs :: rest => .text (cs.take n) :: truncate (n - cs.length) rest

end ServiceCall.Log
