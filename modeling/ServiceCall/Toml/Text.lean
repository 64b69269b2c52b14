/-!
# Quoted text in TOML

Text between double quotes has escapes, text between single quotes has none. Between tripled quotes
it may run over several lines: a line break right behind the opening is dropped, every other one is
a line feed, and a backslash at the end of a line skips the blanks and line breaks behind it.
-/

namespace ServiceCall.Toml

/-- A blank inside a line. -/
def isBlank (c : Char) : Bool := c == ' ' || c == '\t'

/-- The character may stand in a line: a tab, or any that is not a control character. -/
def isVisible (c : Char) : Bool := c == '\t' || (32 ≤ c.toNat && c.toNat != 127)

/-- What follows a line break, if the text starts with one. -/
def afterBreak? : List Char → Option (List Char)
  | '\n' :: rest => some rest
  | '\r' :: '\n' :: rest => some rest
  | _ => none

namespace Quoted

/-- The character that a letter stands for behind a backslash. -/
def short? : Char → Option Char
  | 'b' => some '\x08'
  | 't' => some '\t'
  | 'n' => some '\n'
  | 'f' => some '\x0c'
  | 'r' => some '\r'
  | '"' => some '"'
  | '\\' => some '\\'
  | _ => none

/-- The value of a hexadecimal digit. -/
def hexValue? (c : Char) : Option Nat :=
  if c.isDigit then some (c.toNat - '0'.toNat)
  else if 'a' ≤ c ∧ c ≤ 'f' then some (c.toNat - 'a'.toNat + 10)
  else if 'A' ≤ c ∧ c ≤ 'F' then some (c.toNat - 'A'.toNat + 10)
  else none

/-- The character of a code point in hexadecimal digits. -/
def scalar? (digits : List Char) : Option Char := do
  let code ← digits.foldlM (fun n c => (hexValue? c).map (16 * n + ·)) 0
  if h : code.isValidChar then some (Char.ofNatAux code h) else none

/-- Puts a character before a text that was read. -/
def push (c : Char) (read : Option (List Char × List Char)) : Option (List Char × List Char) :=
  read.map fun (text, rest) => (c :: text, rest)

/-- Text up to a double quote on the same line, and what follows it. -/
def basic : List Char → Option (List Char × List Char)
  | [] => none
  | '"' :: rest => some ([], rest)
  | '\\' :: 'u' :: a :: b :: c :: d :: rest =>
    (scalar? [a, b, c, d]).bind fun x => push x (basic rest)
  | '\\' :: 'U' :: a :: b :: c :: d :: e :: f :: g :: h :: rest =>
    (scalar? [a, b, c, d, e, f, g, h]).bind fun x => push x (basic rest)
  | '\\' :: c :: rest => (short? c).bind fun x => push x (basic rest)
  | c :: rest => if isVisible c && c != '\\' then push c (basic rest) else none

/-- Text up to a single quote on the same line, and what follows it. -/
def literal : List Char → Option (List Char × List Char)
  | [] => none
  | '\'' :: rest => some ([], rest)
  | c :: rest => if isVisible c then push c (literal rest) else none

/-- Quotes that belong to the text although the closing ones follow: at most two. -/
def lastQuotes (quote : Char) : List Char → List Char × List Char
  | a :: b :: rest =>
    if a == quote && b == quote then ([quote, quote], rest)
    else if a == quote then ([quote], b :: rest)
    else ([], a :: b :: rest)
  | [a] => if a == quote then ([quote], []) else ([], [a])
  | [] => ([], [])

/-- Only blanks stand between here and the end of the line. -/
def endsLine (cs : List Char) : Bool := (afterBreak? (cs.dropWhile isBlank)).isSome

/-- Text up to three double quotes; behind a backslash that ends a line blanks are skipped. -/
def longBasic (skipping : Bool) : List Char → Option (List Char × List Char)
  | [] => none
  | '"' :: '"' :: '"' :: rest => some (lastQuotes '"' rest)
  | '\r' :: '\n' :: rest => if skipping then longBasic true rest else push '\n' (longBasic false rest)
  | '\n' :: rest => if skipping then longBasic true rest else push '\n' (longBasic false rest)
  | '\\' :: 'u' :: a :: b :: c :: d :: rest =>
    (scalar? [a, b, c, d]).bind fun x => push x (longBasic false rest)
  | '\\' :: 'U' :: a :: b :: c :: d :: e :: f :: g :: h :: rest =>
    (scalar? [a, b, c, d, e, f, g, h]).bind fun x => push x (longBasic false rest)
  | '\\' :: '\r' :: rest => if endsLine ('\r' :: rest) then longBasic true ('\r' :: rest) else none
  | '\\' :: c :: rest =>
    if endsLine (c :: rest) then longBasic true (c :: rest)
    else (short? c).bind fun x => push x (longBasic false rest)
  | c :: rest =>
    if skipping && isBlank c then longBasic true rest
    else if isVisible c && c != '\\' then push c (longBasic false rest)
    else none

/-- Text up to three single quotes. -/
def longLiteral : List Char → Option (List Char × List Char)
  | [] => none
  | '\'' :: '\'' :: '\'' :: rest => some (lastQuotes '\'' rest)
  | '\r' :: '\n' :: rest => push '\n' (longLiteral rest)
  | '\n' :: rest => push '\n' (longLiteral rest)
  | c :: rest => if isVisible c then push c (longLiteral rest) else none

/-- The text without a line break at its start. -/
def dropBreak (cs : List Char) : List Char := (afterBreak? cs).getD cs

/-- A quoted text of any form, and what follows it. -/
def read : List Char → Option (List Char × List Char)
  | '"' :: '"' :: '"' :: rest => longBasic false (dropBreak rest)
  | '"' :: rest => basic rest
  | '\'' :: '\'' :: '\'' :: rest => longLiteral (dropBreak rest)
  | '\'' :: rest => literal rest
  | _ => none

end Quoted

end ServiceCall.Toml
