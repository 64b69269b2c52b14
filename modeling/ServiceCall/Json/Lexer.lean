import ServiceCall.Json.Token
import ServiceCall.Text.Utf8

/-!
# From bytes to tokens

A machine that takes one unit of text at a time: a character, or a byte that belongs to none. Stray
bytes and unpaired surrogates leave a quoted text without content but do not stop the machine; a
reader that skips the text never looks at it.
-/

namespace ServiceCall.Json

namespace Lexer

/-- Where in a number the machine stands: behind what kind of character. -/
inductive NumberPhase where
  | minus
  | zero
  | whole
  | point
  | fraction
  | mark
  | sign
  | exponent
deriving DecidableEq, Repr

/-- Where in a quoted text the machine stands. -/
inductive TextPhase where
  | plain
  /-- Behind a backslash. -/
  | escape
  /-- Behind `\u`: bytes still to come, the code so far, and whether all were hexadecimal digits. -/
  | code (left : Nat) (value : Nat) (sound : Bool)
deriving DecidableEq, Repr

/-- A quoted text read so far, its characters in reverse. -/
structure OpenText where
  content : Option (List Char) := some []
  /-- Half of a surrogate pair has stood alone. -/
  lone : Bool := false
  /-- The first half of a surrogate pair, waiting for the second. -/
  half : Option Nat := none
  phase : TextPhase := .plain
deriving DecidableEq, Repr

/-- The state between two units; the digits of an open number are in reverse. -/
inductive State where
  | between
  | word (rest : List Char) (token : Token)
  | number (phase : NumberPhase) (parts : Numeral)
  | text (t : OpenText)
  | broken
deriving DecidableEq, Repr

/-- The number whose digits were collected in reverse. -/
def closeNumeral (n : Numeral) : Numeral :=
  { n with
    whole := n.whole.reverse
    fraction := n.fraction.reverse
    exponent := n.exponent.map fun (negative, digits) => (negative, digits.reverse) }

/-- The first character of a token. -/
def start (c : Char) : List Token × State :=
  if c == ' ' || c == '\t' || c == '\n' || c == '\r' then ([], .between)
  else if c == '[' then ([.openArray], .between)
  else if c == ']' then ([.closeArray], .between)
  else if c == '{' then ([.openObject], .between)
  else if c == '}' then ([.closeObject], .between)
  else if c == ',' then ([.comma], .between)
  else if c == ':' then ([.colon], .between)
  else if c == '"' then ([], .text {})
  else if c == 'n' then ([], .word ['u', 'l', 'l'] .null)
  else if c == 't' then ([], .word ['r', 'u', 'e'] (.bool true))
  else if c == 'f' then ([], .word ['a', 'l', 's', 'e'] (.bool false))
  else if c == '-' then ([], .number .minus { negative := true })
  else if c == '0' then ([], .number .zero { whole := ['0'] })
  else if c.isDigit then ([], .number .whole { whole := [c] })
  else ([], .broken)

/-- The token of a number that has ended, and the character behind it. -/
def endNumber (parts : Numeral) (c : Char) : List Token × State :=
  let (tokens, state) := start c
  (.number (closeNumeral parts) :: tokens, state)

/-- A point or the mark of an exponent behind the digits of a whole number. -/
def afterWhole (parts : Numeral) (c : Char) : List Token × State :=
  if c == '.' then ([], .number .point parts)
  else if c == 'e' || c == 'E' then ([], .number .mark parts)
  else endNumber parts c

/-- The parts of a number with one more digit of the exponent. -/
def pushExponent (parts : Numeral) (c : Char) : Numeral :=
  { parts with exponent := parts.exponent.map fun (negative, digits) => (negative, c :: digits) }

/-- One character of a number. -/
def stepNumber (phase : NumberPhase) (parts : Numeral) (c : Char) : List Token × State :=
  match phase with
  | .minus =>
    if c == '0' then ([], .number .zero { parts with whole := [c] })
    else if c.isDigit then ([], .number .whole { parts with whole := [c] })
    else ([], .broken)
  | .zero => if c.isDigit then ([], .broken) else afterWhole parts c
  | .whole =>
    if c.isDigit then ([], .number .whole { parts with whole := c :: parts.whole })
    else afterWhole parts c
  | .point =>
    if c.isDigit then ([], .number .fraction { parts with fraction := [c] }) else ([], .broken)
  | .fraction =>
    if c.isDigit then ([], .number .fraction { parts with fraction := c :: parts.fraction })
    else if c == 'e' || c == 'E' then ([], .number .mark parts)
    else endNumber parts c
  | .mark =>
    if c == '+' || c == '-' then
      ([], .number .sign { parts with exponent := some (c == '-', []) })
    else if c.isDigit then ([], .number .exponent { parts with exponent := some (false, [c]) })
    else ([], .broken)
  | .sign =>
    if c.isDigit then ([], .number .exponent (pushExponent parts c)) else ([], .broken)
  | .exponent =>
    if c.isDigit then ([], .number .exponent (pushExponent parts c)) else endNumber parts c

/-- Adds a character to a quoted text. -/
def OpenText.push (t : OpenText) (c : Char) : OpenText :=
  { t with content := t.content.map (c :: ·), phase := .plain }

/-- A first half that no second half follows spoils the content. -/
def OpenText.drop (t : OpenText) : OpenText :=
  if t.half.isSome then { t with content := none, lone := true, half := none } else t

/-- The character of a code with four digits, alone or as second half of a pair. -/
def OpenText.pushCode (t : OpenText) (code : Nat) : OpenText :=
  let first : Bool := 0xD800 ≤ code && code < 0xDC00
  let second : Bool := 0xDC00 ≤ code && code < 0xE000
  -- a first half waits for the second one; a half without the other leaves no text
  match t.half with
  | some high =>
    if second then
      { t with half := none }.push (Char.ofNat (0x10000 + (high - 0xD800) * 0x400 + (code - 0xDC00)))
    else { t with content := none, lone := true, half := none, phase := .plain }
  | none =>
    if first then { t with half := some code, phase := .plain }
    else if second then { t with content := none, lone := true, phase := .plain }
    else t.push (Char.ofNat code)

/-- The value of a hexadecimal digit. -/
def hexValue? (c : Char) : Option Nat :=
  if c.isDigit then some (c.toNat - '0'.toNat)
  else if 'a' ≤ c ∧ c ≤ 'f' then some (c.toNat - 'a'.toNat + 10)
  else if 'A' ≤ c ∧ c ≤ 'F' then some (c.toNat - 'A'.toNat + 10)
  else none

/-- The character that a letter behind a backslash stands for. -/
def shortEscape? (c : Char) : Option Char :=
  if c == '"' || c == '\\' || c == '/' then some c
  else if c == 'b' then some '\x08'
  else if c == 'f' then some '\x0c'
  else if c == 'n' then some '\n'
  else if c == 'r' then some '\r'
  else if c == 't' then some '\t'
  else none

/-- One unit of the four bytes behind `\u`. -/
def stepCode (t : OpenText) (left value : Nat) (sound : Bool) (u : Option Char) : State :=
  let digit := u.bind hexValue?
  let sound := sound && digit.isSome
  let value := 16 * value + digit.getD 0
  let left := left - Utf8.width u
  -- all four bytes are taken before it counts whether they were digits
  if left ≠ 0 then .text { t with phase := .code left value sound }
  else if sound then .text (t.pushCode value)
  else .broken

/-- One unit of a quoted text. -/
def stepText (t : OpenText) (u : Option Char) : List Token × State :=
  match t.phase, u with
  | .code left value sound, u => ([], stepCode t left value sound u)
  | .escape, some c =>
    if c == 'u' then ([], .text { t with phase := .code 4 0 true })
    else
      match shortEscape? c with
      | some e => ([], .text (t.drop.push e))
      | none => ([], .broken)
  | .escape, none => ([], .broken)
  | .plain, some c =>
    if c == '\\' then ([], .text { t with phase := .escape })
    else if c == '"' then
      ([.text (t.drop.content.map fun cs => String.ofList cs.reverse)], .between)
    else if c.toNat < 32 then ([], .broken)
    else ([], .text (t.drop.push c))
  | .plain, none => ([], .text { t.drop with content := none })

/-- One unit of a document. -/
def step (state : State) (u : Option Char) : List Token × State :=
  match state, u with
  | .text t, u => stepText t u
  | .broken, _ => ([], .broken)
  | _, none => ([], .broken)
  | .between, some c => start c
  | .number phase parts, some c => stepNumber phase parts c
  | .word [] _, some _ => ([], .broken)
  | .word [last] token, some c => if c == last then ([token], .between) else ([], .broken)
  | .word (next :: rest) token, some c =>
    if c == next then ([], .word rest token) else ([], .broken)

/-- What is left when the text ends. -/
def finish : State → List Token × Ending
  | .between => ([], .complete)
  | .word _ _ => ([], .cutWord)
  | .number .zero parts | .number .whole parts | .number .fraction parts
  | .number .exponent parts => ([.number (closeNumeral parts)], .complete)
  | .number _ _ => ([], .cutNumber)
  | .text t => ([], .cutText t.lone)
  | .broken => ([], .broken)

/-- Tokens from a state on. -/
def run : State → List (Option Char) → List Token × Ending
  | state, [] => finish state
  | state, u :: rest =>
    let (tokens, next) := step state u
    let (more, ending) := run next rest
    (tokens ++ more, ending)

end Lexer

/-- The tokens of a body. -/
def lex (body : Bytes) : List Token × Ending := Lexer.run .between (Utf8.units body)

end ServiceCall.Json
