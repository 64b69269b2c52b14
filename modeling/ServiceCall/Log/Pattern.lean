import ServiceCall.Log.Layout
import ServiceCall.Log.Record

/-!
# Patterns of log lines

A pattern is text with formatters between braces. A formatter has a name, for some names a pattern
of its own between parentheses, and behind a colon a fill character, a side, a least and a most
width. Braces and parentheses are written twice to stand for themselves, or behind a backslash. A
part that cannot be read stands in the line as an error.
-/

namespace ServiceCall.Log

/-- What a formatter tells of a record. -/
inductive Item where
  | level
  | message
  | target
  | date
  | lineBreak
  /-- The place in a program, which records do not know. -/
  | place
deriving DecidableEq, Repr

/-- A part of a pattern. -/
inductive Piece where
  | text (cs : List Char)
  | item (i : Item) (layout : Layout)
  /-- A pattern inside the pattern, in the colour of the level if it is highlighted. -/
  | group (highlight : Bool) (pieces : List Piece) (layout : Layout)
  | unreadable (reason : String)
deriving Repr

/-- A pattern is read as the list of its parts. -/
abbrev Pattern := List Piece

namespace Pattern

/-- Date, level, target and message. -/
def standard : Pattern :=
  [.item .date {}, .text [' '], .item .level {}, .text [' '], .item .target {}, .text [' ', '-', ' '],
   .item .message {}]

/-- Level, target and message. -/
def brief : Pattern :=
  [.item .level {}, .text [' '], .item .target {}, .text [' ', '-', ' '], .item .message {}]

/-- The style of a highlighted part; a record for debugging is not highlighted. -/
def highlightStyle : Level → Option Style
  | .error => some { color := some .red, intense := true }
  | .warn => some (.ofColor .yellow)
  | .info => some (.ofColor .green)
  | .debug => none
  | .trace => some (.ofColor .cyan)

/-- What a formatter tells. -/
def itemChars (date : String) (r : Record) : Item → List Char
  | .level => r.level.text.toList
  | .message => r.message.toList
  | .target => r.target.toList
  | .date => date.toList
  | .lineBreak => ['\n']
  | .place => ['?', '?', '?']

mutual

/-- A part of a pattern, filled with a record. -/
def renderPiece (date : String) (r : Record) : Piece → List Span
  | .text cs => [.text cs]
  | .item i layout => layout.apply [.text (itemChars date r i)]
  | .group false pieces layout => layout.apply (render date r pieces)
  | .group true pieces layout =>
    match highlightStyle r.level with
    | some s => layout.apply (.style s :: render date r pieces ++ [.style .plain])
    | none => layout.apply (render date r pieces)
  | .unreadable reason => [.text (('{' :: "ERROR: ".toList) ++ reason.toList ++ ['}'])]

/-- A pattern filled with a record. -/
def render (date : String) (r : Record) : List Piece → List Span
  | [] => []
  | p :: rest => renderPiece date r p ++ render date r rest

end

namespace Reader

/-- Characters that text in a pattern cannot hold as they are. -/
def isSpecial (c : Char) : Bool := c == '{' || c == '}' || c == '(' || c == ')' || c == '\\'

/-- The name of a formatter, and what follows it. -/
def name : List Char → String × List Char
  | [] => ("", [])
  | c :: rest =>
    if c.isAlpha || c == '_' then
      (String.ofList (c :: rest.takeWhile fun d => d.isAlphanum || d == '_'),
        rest.dropWhile fun d => d.isAlphanum || d == '_')
    else ("", c :: rest)

/-- A whole number, if there is one, and what follows. -/
def width (cs : List Char) : Option Nat × List Char :=
  match cs.takeWhile Char.isDigit with
  | [] => (none, cs)
  | digits =>
    (some (digits.foldl (fun n c => 10 * n + (c.toNat - '0'.toNat)) 0), cs.dropWhile Char.isDigit)

/-- The fill character, if a side follows it. -/
def fill : List Char → Char × List Char
  | c :: '<' :: rest => (c, '<' :: rest)
  | c :: '>' :: rest => (c, '>' :: rest)
  | cs => (' ', cs)

/-- The side at which the text stands. -/
def side : List Char → Bool × List Char
  | '<' :: rest => (false, rest)
  | '>' :: rest => (true, rest)
  | cs => (false, cs)

/-- The layout behind a colon, if there is one. -/
def layout : List Char → Layout × List Char
  | ':' :: rest =>
    let (fill, rest) := fill rest
    let (right, rest) := side rest
    let (least, rest) := width rest
    match rest with
    | '.' :: more =>
      let (most, more) := width more
      (⟨fill, right, least, most⟩, more)
    | _ => (⟨fill, right, least, none⟩, rest)
  | cs => ({}, cs)

/-- The formatters without a pattern of their own. -/
def item? : String → Option Item
  | "l" | "level" => some .level
  | "m" | "message" => some .message
  | "t" | "target" => some .target
  | "n" => some .lineBreak
  | "f" | "file" | "L" | "line" | "M" | "module" => some .place
  | _ => none

/-- The formatter of a name with its patterns. -/
def formatter (name : String) (arguments : List Pattern) (layout : Layout) : Piece :=
  if name == "d" || name == "date" then
    if 2 < arguments.length then .unreadable "expected at most two arguments"
    else .item .date layout
  else if name == "h" || name == "highlight" || name == "" then
    match arguments with
    | [pieces] => .group (name != "") pieces layout
    | _ => .unreadable "expected exactly one argument"
  else
    match item? name with
    | none => .unreadable ("unknown formatter `" ++ name ++ "`")
    | some i => if arguments.isEmpty then .item i layout else .unreadable "unexpected arguments"

mutual

/-- The next part of a pattern, and what follows it. -/
def piece : Nat → List Char → Piece × List Char
  | 0, _ => (.unreadable "pattern is too deep", [])
  | _ + 1, [] => (.text [], [])
  | fuel + 1, c :: rest =>
    if c == '{' then
      match rest with
      | '{' :: more => (.text ['{'], more)
      | _ =>
        let (name, rest) := name rest
        match arguments fuel rest with
        | none => (.unreadable "expected `\x7d`", [])
        | some (patterns, rest) =>
          let (layout, rest) := layout rest
          match rest with
          | '}' :: more => (formatter name patterns layout, more)
          | _ => (.unreadable "expected `\x7d`", [])
    else if c == '\\' then
      match rest with
      | d :: more =>
        if isSpecial d then (.text [d], more) else (.unreadable "unexpected `\\`", rest)
      | [] => (.unreadable "unexpected `\\`", [])
    else if isSpecial c then
      match rest with
      | d :: more =>
        if d == c then (.text [c], more)
        else (.unreadable (stray c), rest)
      | [] => (.unreadable (stray c), [])
    else
      (.text (c :: rest.takeWhile fun d => !isSpecial d), rest.dropWhile fun d => !isSpecial d)
where
  /-- Why a special character cannot stand alone. -/
  stray (c : Char) : String :=
    if c == '}' then "unmatched `\x7d`" else "unexpected `" ++ c.toString ++ "`"

/-- The patterns between parentheses, and what follows them. -/
def arguments : Nat → List Char → Option (List Pattern × List Char)
  | 0, _ => none
  | fuel + 1, '(' :: rest =>
    match inside fuel rest with
    | none => none
    | some (pieces, rest) =>
      match arguments fuel rest with
      | none => none
      | some (patterns, rest) => some (pieces :: patterns, rest)
  | _ + 1, cs => some ([], cs)

/-- The parts up to a closing parenthesis, and what follows it. -/
def inside : Nat → List Char → Option (Pattern × List Char)
  | 0, _ => none
  | _ + 1, [] => none
  | _ + 1, ')' :: rest => some ([], rest)
  | fuel + 1, cs =>
    let (p, rest) := piece fuel cs
    (inside fuel rest).map fun (pieces, rest) => (p :: pieces, rest)

end

/-- All parts of a pattern. -/
def pieces : Nat → List Char → Pattern
  | 0, _ => []
  | _ + 1, [] => []
  | fuel + 1, cs =>
    let (p, rest) := piece (3 * cs.length + 3) cs
    p :: pieces fuel rest

end Reader

/-- The pattern that a text spells. Every part of it takes at least one character. -/
def ofText (s : String) : Pattern := Reader.pieces s.length s.toList

end Pattern

end ServiceCall.Log
