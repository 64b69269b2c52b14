import ServiceCall.Yaml.Cursor

/-!
# Scalars in YAML

A scalar is plain, quoted, or a block of lines behind a mark. In plain and quoted scalars a line
break counts as a space, and further empty lines as line breaks. A block keeps its line breaks, or
folds them likewise between lines that do not start with a blank.
-/

namespace ServiceCall.Yaml

/-- Some line breaks. -/
def breaks (n : Nat) : List Char := List.replicate n '\n'

/-- What stands between two pieces of a scalar: blanks, or line breaks. -/
inductive Gap where
  | blanks (cs : List Char)
  /-- Whether a first line break was passed, and the number of those behind it. -/
  | lines (first : Bool) (more : Nat)
deriving Repr

/-- The text that a gap stands for. -/
def Gap.chars : Gap → List Char
  | .blanks cs => cs
  | .lines true 0 => [' ']
  | .lines _ more => breaks more

/-- The gap has a line break. -/
def Gap.isLines : Gap → Bool
  | .blanks _ => false
  | .lines _ _ => true

/-- The gap with one more line break. -/
def Gap.addBreak : Gap → Gap
  | .blanks _ => .lines true 0
  | .lines first more => .lines first (more + 1)

namespace Plain

/-- The character ends a plain scalar: a colon before a gap, or in a flow collection a bracket, a
comma, or a colon before one. -/
def isEnd (flow : Bool) (c : Char) (next : Option Char) : Bool :=
  (c == ':' && (isGap next || (flow && next.any isFlow))) || (flow && isFlow c)

/-- The characters from here on that go on without a gap. -/
def run (flow : Bool) : List Char → List Char
  | [] => []
  | c :: rest => if isBlank c || isBreak c || isEnd flow c rest.head? then [] else c :: run flow rest

/-- Behind a gap in a plain scalar. A tab must not stand before the column of the scalar, unless its
line is empty. -/
def gap? (indent : Int) : Nat → Gap → Cursor → Option (Gap × Cursor)
  | 0, g, c => some (g, c)
  | steps + 1, g, c =>
    match c.peek with
    | none => some (g, c)
    | some x =>
      if isBreak x then gap? indent steps g.addBreak c.nextLine
      else if isBlank x then
        match g with
        | .blanks cs => gap? indent steps (.blanks (cs ++ [x])) (c.pass 1)
        | .lines _ _ =>
          if x == '\t' && (c.column : Int) < indent then
            match c.afterBlanks? with
            | none => none
            | some c => if isLineEnd c.peek then gap? indent steps g c else none
          else gap? indent steps g (c.pass 1)
      else some (g, c)

/-- The scalar from here on, `g` being the gap before; what follows its last gap is at the cursor. -/
def read? (flow : Bool) (indent : Int) : Nat → Gap → Cursor → Option (List Char × Cursor)
  | 0, _, c => some ([], c)
  | steps + 1, g, c =>
    if c.atDocumentMark || c.peek == some '#' then some ([], c)
    else if flow && c.peek == some '-' && (c.peekAt 1).any isFlow then none
    else
      let word := run flow c.rest
      let before := if word.isEmpty then [] else g.chars
      let c := if word.isEmpty then c else c.skip word.length
      let g := if word.isEmpty then g else .blanks []
      if c.peek.any fun x => isBlank x || isBreak x then
        match gap? indent (c.rest.length + 1) g c with
        | none => none
        | some (g, c) =>
          if !flow && (c.column : Int) < indent then some (before ++ word, c)
          else (read? flow indent steps g c).map fun (more, c) => (before ++ word ++ more, c)
      else some (before ++ word, c)

end Plain

namespace Quoted

/-- The character that a letter stands for behind a backslash. -/
def short? : Char → Option Char
  | '0' => some '\x00'
  | 'a' => some '\x07'
  | 'b' => some '\x08'
  | 't' | '\t' => some '\t'
  | 'n' => some '\n'
  | 'v' => some '\x0b'
  | 'f' => some '\x0c'
  | 'r' => some '\r'
  | 'e' => some '\x1b'
  | ' ' => some ' '
  | '"' => some '"'
  | '/' => some '/'
  | '\\' => some '\\'
  | 'N' => some (Char.ofNat 0x85)
  | '_' => some (Char.ofNat 0xA0)
  | 'L' => some (Char.ofNat 0x2028)
  | 'P' => some (Char.ofNat 0x2029)
  | _ => none

/-- The number of digits of a code point behind a letter. -/
def codeLength : Char → Nat
  | 'x' => 2
  | 'u' => 4
  | 'U' => 8
  | _ => 0

/-- The value of a hexadecimal digit. -/
def hexValue? (c : Char) : Option Nat :=
  if c.isDigit then some (c.toNat - '0'.toNat)
  else if 'a' ≤ c ∧ c ≤ 'f' then some (c.toNat - 'a'.toNat + 10)
  else if 'A' ≤ c ∧ c ≤ 'F' then some (c.toNat - 'A'.toNat + 10)
  else none

/-- The character of a code point in hexadecimal digits. -/
def scalar? (digits : List Char) : Option Char := do
  let code ← digits.foldlM (fun n c => (hexValue? c).map (16 * n + ·)) 0
  if h : code.isValidChar then some (Char.ofNatAux code h) else none

/-- The character behind a backslash that stands here, and the place behind it. -/
def escape? (c : Cursor) : Option (Char × Cursor) := do
  let letter ← c.peekAt 1
  let length := codeLength letter
  if length = 0 then
    let x ← short? letter
    return (x, c.skip 2)
  else
    let digits := (c.rest.drop 2).take length
    if digits.length < length then none
    else
      let x ← scalar? digits
      return (x, c.skip (length + 2))

/-- Characters up to a gap or the closing quote, and whether a backslash at the end of a line stopped
them. -/
def run? (single : Bool) : Nat → Cursor → Option (List Char × Bool × Cursor)
  | 0, c => some ([], false, c)
  | steps + 1, c =>
    match c.peek with
    | none => some ([], false, c)
    | some x =>
      if isBlank x || isBreak x then some ([], false, c)
      else if single && x == '\'' then
        if c.peekAt 1 == some '\'' then
          (run? single steps (c.skip 2)).map fun (cs, stopped, c) => ('\'' :: cs, stopped, c)
        else some ([], false, c)
      else if !single && x == '"' then some ([], false, c)
      else if !single && x == '\\' then
        if (c.peekAt 1).any isBreak then some ([], true, (c.skip 1).nextLine)
        else
          match escape? c with
          | none => none
          | some (y, c) => (run? single steps c).map fun (cs, stopped, c) => (y :: cs, stopped, c)
      else (run? single steps (c.skip 1)).map fun (cs, stopped, c) => (x :: cs, stopped, c)

/-- Behind a gap in a quoted scalar. -/
def gap? (indent : Int) : Nat → Gap → Cursor → Option (Gap × Cursor)
  | 0, g, c => some (g, c)
  | steps + 1, g, c =>
    match c.peek with
    | none => some (g, c)
    | some x =>
      if isBreak x then gap? indent steps g.addBreak c.nextLine
      else if isBlank x then
        match g with
        | .blanks cs => gap? indent steps (.blanks (cs ++ [x])) (c.pass 1)
        | .lines _ _ =>
          if x == '\t' && (c.column : Int) < indent then none
          else gap? indent steps g (c.pass 1)
      else some (g, c)

/-- The scalar from here on, up to its closing quote, and the place of that quote. -/
def read? (single : Bool) (indent : Int) : Nat → Cursor → Option (List Char × Cursor)
  | 0, _ => none
  | steps + 1, c =>
    if c.atDocumentMark || c.atEnd || (c.column : Int) < indent then none
    else
      match run? single (c.rest.length + 1) c with
      | none => none
      | some (word, stopped, c) =>
        if c.peek == some (if single then '\'' else '"') then some (word, c)
        else
          let start := if stopped then .lines false 0 else .blanks []
          match gap? indent (c.rest.length + 1) start c with
          | none => none
          | some (g, c) =>
            (read? single indent steps c).map fun (more, c) => (word ++ g.chars ++ more, c)

end Quoted

namespace Block

/-- What happens to the line breaks at the end of a block. -/
inductive Chomping where
  | strip
  | clip
  | keep
deriving DecidableEq, Repr

/-- The mark of a chomping. -/
def chomping? : Option Char → Option Chomping
  | some '+' => some .keep
  | some '-' => some .strip
  | _ => none

/-- The digit of an indentation, which is not zero; none if no digit stands here. -/
def increment? (c : Cursor) : Option (Nat × Cursor) :=
  match c.peek with
  | some x =>
    if x.isDigit then (if x == '0' then none else some (x.toNat - '0'.toNat, c.skip 1))
    else some (0, c)
  | none => some (0, c)

/-- The marks behind the first one: chomping and indentation in any order. -/
def header? (c : Cursor) : Option (Chomping × Nat × Cursor) :=
  match chomping? c.peek with
  | some chomping => (increment? (c.skip 1)).map fun (n, c) => (chomping, n, c)
  | none =>
    match increment? c with
    | none => none
    | some (0, c) => some (.clip, 0, c)
    | some (n, c) =>
      match chomping? c.peek with
      | some chomping => some (chomping, n, c.skip 1)
      | none => some (.clip, n, c)

/-- Behind the spaces that stand here, at most up to a column. -/
def passSpaces (column : Nat) (c : Cursor) : Cursor :=
  c.pass ((c.rest.takeWhile (· == ' ')).take (column - c.column)).length

/-- Behind empty lines and the indentation of the next line, with the number of those lines. -/
def indentation (indent : Nat) : Nat → Cursor → Nat × Cursor
  | 0, c => (0, c)
  | steps + 1, c =>
    let c := passSpaces indent c
    if c.peek.any isBreak then
      let (n, c) := indentation indent steps c.nextLine
      (n + 1, c)
    else (0, c)

/-- Behind empty lines and the spaces before the first line of content: the number of those lines,
and the greatest column that was reached. -/
def firstIndentation : Nat → Cursor → Nat × Nat × Cursor
  | 0, c => (0, c.column, c)
  | steps + 1, c =>
    let c := c.pass (c.rest.takeWhile (· == ' ')).length
    if c.peek.any isBreak then
      let (n, widest, c') := firstIndentation steps c.nextLine
      (n + 1, max c.column widest, c')
    else (0, c.column, c)

/-- The lines of a block that were read: their text, whether a line break ends it, and the number of
empty lines behind. -/
structure Lines where
  text : List Char := []
  ended : Bool := false
  empty : Nat := 0
  /-- The last line starts with a blank. -/
  blank : Bool := false

/-- The text with what joins it to a next line. -/
def Lines.joined (literal blank : Bool) (l : Lines) : List Char :=
  if !literal && l.ended && !l.blank && !blank then
    l.text ++ (if l.empty = 0 then [' '] else breaks l.empty)
  else l.text ++ breaks ((if l.ended then 1 else 0) + l.empty)

/-- The lines of a block at a column. -/
def lines (literal : Bool) (indent : Nat) : Nat → Lines → Cursor → Lines × Cursor
  | 0, l, c => (l, c)
  | steps + 1, l, c =>
    if c.column != indent || c.atEnd || (indent == 0 && c.atMark '.') then (l, c)
    else
      let blank := c.peek.any isBlank
      let content := c.rest.takeWhile (!isBreak ·)
      let text := l.joined literal blank ++ content
      let c := c.pass content.length
      if c.atEnd then ({ text, blank }, c)
      else
        let (empty, c) := indentation indent (c.rest.length + 1) c.nextLine
        lines literal indent steps { text, ended := true, empty, blank } c

/-- The text of a block with its end chomped. -/
def chomped (chomping : Chomping) (indent : Nat) (l : Lines) (c : Cursor) : List Char :=
  let final := if l.ended then ['\n'] else []
  let cutOff := if c.atEnd && max indent 1 ≤ c.column then ['\n'] else []
  match chomping with
  | .strip => l.text
  | .clip => l.text ++ final ++ cutOff
  | .keep => l.text ++ final ++ cutOff ++ breaks l.empty

/-- The text of a block without content at the end of the text. -/
def withoutLines (chomping : Chomping) (sameLine : Bool) (broke : Bool) (empty : Nat) : List Char :=
  let first := if broke then ['\n'] else []
  match chomping with
  | .strip => []
  | .clip => if sameLine then [] else first
  | .keep => if sameLine then [] else if empty = 0 then first else breaks empty

/-- The block whose mark stands here, in a place with an indentation. -/
def read? (literal : Bool) (outer : Int) (start : Cursor) : Option (List Char × Cursor) := do
  let (chomping, increment, c) ← header? (start.skip 1)
  let c ← c.afterBlanks?
  if !isLineEnd c.peek then none
  else
    let broke := !c.atEnd
    let c := if broke then c.nextLine else c
    if c.peek == some '\t' then none
    else
      -- the indentation is counted from that of the place, or set by the first line with content
      let (empty, indent, c) :=
        if increment = 0 then
          let (empty, widest, c) := firstIndentation (c.rest.length + 1) c
          let indent := max widest (outer + 1).toNat
          (empty, if 0 < outer then max indent 1 else indent, c)
        else
          let indent := if 0 ≤ outer then (outer + increment).toNat else increment
          let (empty, c) := indentation indent (c.rest.length + 1) c
          (empty, indent, c)
      if c.atEnd then return (withoutLines chomping (c.line == start.line) broke empty, c)
      else if c.column < indent && outer < (c.column : Int) then none
      else
        let (l, c) := lines literal indent (c.rest.length + 1) { empty } c
        return (chomped chomping indent l c, c)

end Block

end ServiceCall.Yaml
