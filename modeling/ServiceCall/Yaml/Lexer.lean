import ServiceCall.Yaml.Scan
import ServiceCall.Yaml.Scalar

/-!
# From text to tokens

One token at a time, chosen by the characters at its start. A colon behind a token makes a key of
it: the token of the key, and of the block that opens with it, are put before the token that is
already there.
-/

namespace ServiceCall.Yaml

namespace Lexer

/-- A token that may be a key, and is not followed by one on its line. -/
def word (t : Token) (c : Cursor) (s : Scan) : Scan :=
  ((s.noteCandidate.allowKey false).move c).push t

/-- A character of the name of an anchor. -/
def isNameChar (c : Char) : Bool := !isBlank c && !isBreak c && !isFlow c && c.toNat != 0xFEFF

/-- The name of an anchor or an alias. -/
def name? (make : String → Token) (s : Scan) : Option Scan :=
  let name := (s.here.rest.drop 1).takeWhile isNameChar
  if name.isEmpty then none
  else some (word (make (String.ofList name)) (s.here.skip (name.length + 1)) s)

/-- A letter, a digit, a dash or an underscore. -/
def isHandleChar (c : Char) : Bool := c.isAlphanum || c == '-' || c == '_'

/-- A character of a resource identifier. -/
def isUriChar (c : Char) : Bool :=
  c.isAlphanum || "-#;/?:@&=+$,_.!~*'()[]%".toList.contains c

/-- A character of the short form of a tag. -/
def isTagChar (c : Char) : Bool := isUriChar c && !isFlow c && c != '!'

/-- The characters of the short form of a tag behind its handle. -/
def suffix (c : Cursor) : List Char := c.rest.takeWhile isTagChar

/-- The handle of a tag with its closing mark, if it has one. -/
def handle (c : Cursor) : List Char :=
  let inner := (c.rest.drop 1).takeWhile isHandleChar
  if c.peekAt (inner.length + 1) == some '!' then '!' :: inner ++ ['!'] else '!' :: inner

/-- A tag: in its full form between angle brackets, or as a handle and a suffix. A lone mark has an
empty handle. -/
def tag? (s : Scan) : Option Scan :=
  let c := s.here
  let finish (handle suffix : List Char) (c : Cursor) : Option Scan :=
    if isGap c.peek || (s.inFlow && c.peek.any isFlow) then
      some (word (.tag (String.ofList handle) (String.ofList suffix)) c s)
    else none
  if c.peekAt 1 == some '<' then
    let full := (c.rest.drop 2).takeWhile isUriChar
    let c := c.skip (full.length + 2)
    if c.peek == some '>' then finish [] full (c.skip 1) else none
  else
    let mark := handle c
    let c := c.skip mark.length
    let more := suffix c
    let c := c.skip more.length
    -- a mark without another one at its end is no handle, but the start of a suffix
    if 2 ≤ mark.length && mark.getLast? == some '!' then finish mark more c
    else
      let whole := mark.drop 1 ++ more
      if whole.isEmpty then finish [] ['!'] c else finish ['!'] whole c

/-- A bracket that opens a flow collection. -/
def openFlow? (flow : Flow) (t : Token) (s : Scan) : Option Scan := do
  let s := s.noteCandidate.enterColumn
  let c ← (s.here.skip 1).afterBlanks?
  let s := { s with flows := flow :: s.flows, candidates := none :: s.candidates, keyAllowed := true }
  return (s.move c).push t

/-- A bracket that closes a flow collection. In another one a colon may follow without a gap. -/
def closeFlow? (t : Token) (s : Scan) : Option Scan := do
  let s ← s.dropCandidate?
  let s := s.endPair
  let s := if s.inFlow then { s with flows := s.flows.drop 1, candidates := s.candidates.drop 1 } else s
  let c ← (s.here.skip 1).afterBlanks?
  let s := if s.inFlow then { s with adjacent := some c.index } else s
  return ((s.allowKey false).move c).push t

/-- A comma between the entries of a flow collection. -/
def comma? (s : Scan) : Option Scan := do
  let s ← s.dropCandidate?
  let s := (s.allowKey true).endPair
  let c ← (s.here.skip 1).afterBlanks?
  return (s.move c).push .flowEntry

/-- The last token is an anchor or a tag. -/
def afterProperty (s : Scan) : Bool :=
  match s.tokens.back? with
  | some (.anchor _) | some (.tag _ _) => true
  | _ => false

/-- A dash before an entry of a block sequence. -/
def dash? (s : Scan) : Option Scan := do
  if s.inFlow || !s.keyAllowed then none
  else if afterProperty s && s.here.column == 0 && -1 < s.indent then none
  else
    let column := s.here.column
    let s := (s.move (s.here.skip 1)).openBlock column none .blockSequence
    let (passed, c) ← s.here.toContent? true
    if passed.tab && c.peek == some '-' && isGap (c.peekAt 1) then none
    else
      let s := s.move c
      let s := if c.peek.any fun x => isBreak x || isFlow x then s.enterColumn else s
      let s ← s.dropCandidate?
      return (s.allowKey true).push .blockEntry

/-- Behind spaces, comments and line breaks; whether there was a space or a line break. -/
def passSpace : Nat → Bool → Scan → Bool × Scan
  | 0, passed, s => (passed, s)
  | steps + 1, passed, s =>
    match s.here.peek with
    | some ' ' => passSpace steps true (s.move (s.here.pass 1))
    | some '\n' | some '\r' =>
      let s := s.move s.here.nextLine
      passSpace steps true (if s.inFlow then s else s.allowKey true)
    | some '#' => passSpace steps passed (s.move s.here.toLineEnd)
    | _ => (passed, s)

/-- A question mark before a key. -/
def question? (s : Scan) : Option Scan := do
  if !s.inFlow && !s.keyAllowed then none
  else
    let s := s.openBlock s.here.column none .blockMapping
    let s := match s.flows with
      | .sequence .item :: rest => { s with flows := .sequence .marked :: rest }
      | _ => s
    let s ← s.dropCandidate?
    let s := s.allowKey (!s.inFlow)
    let s := s.move (s.here.skip 1)
    let (passed, s) := passSpace (s.here.rest.length + 1) false s
    if !passed || s.here.peek == some '\t' then none else return s.push .key

/-- Behind a colon, a tab does not stand alone before a dash or a letter. -/
def afterColon? (c : Cursor) : Option Cursor :=
  if c.peek == some '\t' then do
    let (passed, c) ← c.toContent? true
    if !passed.space && c.peek.any (fun x => x == '-' || x.isAlpha) then none else return c
  else some c

/-- A colon between a key and its value. -/
def colon? (s : Scan) : Option Scan := do
  let column := s.here.column
  let line := s.here.line
  let startsPair := s.flows.head? == some (.sequence .item)
  let s := match s.flows with
    | .sequence .item :: rest => { s with flows := .sequence .pair :: rest }
    | _ => s
  let c ← afterColon? (s.here.skip 1)
  let s := s.move c
  -- a key that stands before its colon gets its token only now, and its mapping too
  match s.candidate? with
  | some k =>
    if startsPair && k.line < line then none
    else
      let s := s.insert k.number .key
      let s := if startsPair then s.insert k.number .flowMapping else s
      let s := (s.openBlock k.column (some k.number) .blockMapping).enterColumn
      return ((s.setCandidate none).allowKey false).push .value
  | none =>
    let s := if startsPair then s.push .flowMapping else s
    if s.inFlow then return (s.enterColumn.allowKey false).push .value
    else if !s.keyAllowed then none
    else return ((s.openBlock column none .blockMapping).enterColumn.allowKey true).push .value

/-- A scalar between quotes. Behind it only what can follow a key or an entry stands on its line. -/
def quoted? (single : Bool) (s : Scan) : Option Scan := do
  let start := s.here
  let (text, c) ← Quoted.read? single s.indent (start.rest.length + 1) (start.skip 1)
  let c ← (c.skip 1).afterBlanks?
  let sound := match c.peek with
    | none => true
    | some x =>
      isBreak x || (s.inFlow && (x == ',' || x == '}' || x == ']' || x == ':'))
        || (x == ':' && start.line == c.line)
  if !sound then none
  else
    let s ← ((s.noteCandidate.allowKey false).move c).toNext?
    return { s with adjacent := some s.here.index }.push (.scalar false (String.ofList text))

/-- A scalar without quotes, which is not empty. -/
def plain? (s : Scan) : Option Scan := do
  let s := (s.noteCandidate.allowKey false).leaveColumns
  if s.inFlow && (s.here.column : Int) < s.indent + 1 then none
  else
    let (text, c) ← Plain.read? s.inFlow (s.indent + 1) (s.here.rest.length + 1) (.blanks []) s.here
    if text.isEmpty then none
    else
      let s := if c.leading then s.allowKey true else s
      return (s.move c).push (.scalar true (String.ofList text))

/-- A block of lines behind its mark. -/
def block? (literal : Bool) (s : Scan) : Option Scan := do
  let s := (s.noteCandidate.allowKey true).leaveColumns
  let (text, c) ← Block.read? literal s.indent s.here
  return (s.move c).push (.scalar false (String.ofList text))

/-- A token at the start of a line outside every block: no key stands before it. -/
def atTop? (s : Scan) : Option Scan := ((s.closeBlocks (-1)).dropCandidate?).map (·.allowKey false)

/-- The line that starts or ends a document. -/
def documentMark? (t : Token) (s : Scan) : Option Scan :=
  (atTop? s).map fun s => (s.move (s.here.skip 3)).push t

/-- The end of a document, with nothing but a comment behind it. -/
def documentEnd? (s : Scan) : Option Scan := do
  let s ← documentMark? .documentEnd s
  let c ← s.here.afterBlanks?
  if isLineEnd c.peek then return s.move c else none

/-- At most nine digits, and the place behind them. -/
def versionPart? (c : Cursor) : Option Cursor :=
  let n := (c.rest.takeWhile Char.isDigit).length
  if n = 0 || 9 < n then none else some (c.skip n)

/-- Behind blanks. -/
def passGap (c : Cursor) : Cursor := c.pass (c.rest.takeWhile isBlank).length

/-- The handle and the full form of tags in a directive. -/
def tagDirective? (c : Cursor) : Option (Token × Cursor) :=
  let c := passGap c
  if c.peek != some '!' then none
  else
    let mark := handle c
    if mark != ['!'] && mark.getLast? != some '!' then none
    else
      let c := passGap (c.skip mark.length)
      if !c.peek.any (fun x => x == '!' || isTagChar x) then none
      else
        let full := (c.rest.take 1) ++ (c.rest.drop 1).takeWhile isUriChar
        let c := c.skip full.length
        if isGap c.peek then some (.tagDirective (String.ofList mark) (String.ofList full), c) else none

/-- A directive, which takes a line of its own. -/
def directive? (s : Scan) : Option Scan := do
  let s ← atTop? s
  let c := s.here.skip 1
  let name := c.rest.takeWhile isHandleChar
  let c := c.skip name.length
  if name.isEmpty || !isGap c.peek then none
  else
    let (t, c) ←
      if name == ['Y', 'A', 'M', 'L'] then do
        let c ← versionPart? (passGap c)
        if c.peek != some '.' then none
        else
          let c ← versionPart? (c.skip 1)
          some (Token.versionDirective, c)
      else if name == ['T', 'A', 'G'] then tagDirective? c
      else some (Token.tagDirective "" "", c.toLineEnd)
    let c ← c.afterBlanks?
    if isLineEnd c.peek then return (s.move c.nextLine).push t else none

/-- The next token, at a character. -/
def start? (c : Char) (s : Scan) : Option Scan :=
  let next := s.here.peekAt 1
  if c == '[' then openFlow? (.sequence .item) .flowSequence s
  else if c == '{' then openFlow? .mapping .flowMapping s
  else if c == ']' then closeFlow? .flowSequenceEnd s
  else if c == '}' then closeFlow? .flowMappingEnd s
  else if c == ',' then comma? s
  else if c == '-' && isGap next then dash? s
  else if c == '?' && isGap next then question? s
  else if c == ':' && (isGap next || (s.inFlow && (next.any isFlow || s.adjacent == some s.here.index)))
  then colon? s
  else if c == '*' then name? .alias s
  else if c == '&' then name? .anchor s
  else if c == '!' then tag? s
  else if c == '|' && !s.inFlow then block? true s
  else if c == '>' && !s.inFlow then block? false s
  else if c == '\'' then quoted? true s
  else if c == '"' then quoted? false s
  -- signs that are kept for later use
  else if c == '%' || c == '@' || c.toNat == 96 then none
  else plain? s

/-- One step: the next token, or none at the end of the text. -/
def step? (s : Scan) : Option (Scan × Bool) := do
  let s ← s.toNext?
  let s ← s.dropStale?
  let s := s.closeBlocks s.here.column
  match s.here.peek with
  | none =>
    if s.candidates.any fun c => c.any Candidate.required then none
    else return (s.closeBlocks (-1), true)
  | some c =>
    if s.here.column == 0 && c == '%' then (directive? s).map (·, false)
    else if s.here.atMark '-' then (documentMark? .documentStart s).map (·, false)
    else if s.here.atMark '.' then (documentEnd? s).map (·, false)
    else if (s.here.column : Int) < s.indent then none
    else (start? c s).map (·, false)

/-- All tokens from here on; each step takes at least one character. -/
def steps? : Nat → Scan → Option Scan
  | 0, _ => none
  | n + 1, s => (step? s).bind fun (s, done) => if done then some s else steps? n s

end Lexer

/-- The tokens of a text, which a character with the code point 0 would end. -/
def tokens? (text : String) : Option (List Token) :=
  let cs := text.toList.takeWhile (· != '\x00')
  (Lexer.steps? (cs.length + 2) { here := ⟨cs, 0, 0, 0, true⟩ }).map fun s => s.tokens.toList

end ServiceCall.Yaml
