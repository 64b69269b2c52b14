import ServiceCall.Text.Hidden

/-!
# Quoted text

Text between double quotes on one line. The backslash, the double quote and four control characters
have short escapes, any other hidden character is written as its code point in hexadecimal.
-/

namespace ServiceCall.Quoted

/-- The digits of a number in base 16, in lower case. -/
def hexDigits (n : Nat) : List Char := Nat.toDigits 16 n

/-- One character between the quotes. -/
def escape (c : Char) : List Char :=
  if c == '\x00' then ['\\', '0']
  else if c == '\t' then ['\\', 't']
  else if c == '\r' then ['\\', 'r']
  else if c == '\n' then ['\\', 'n']
  else if c == '\\' || c == '"' then ['\\', c]
  else if Hidden.isHidden c then '\\' :: 'u' :: '{' :: hexDigits c.toNat ++ ['}']
  else [c]

/-- Quoted form of a list of characters. -/
def quoteChars (cs : List Char) : List Char := '"' :: cs.flatMap escape ++ ['"']

/-- Quoted form of a text. -/
def quote (s : String) : String := String.ofList (quoteChars s.toList)

/-- A list of items between brackets, separated by commas. -/
def brackets (left right : String) (items : List String) : String :=
  left ++ String.intercalate ", " items ++ right

/-- A list of pairs of texts, each pair in parentheses. -/
def pairs (entries : List (String × String)) : String :=
  brackets "[" "]" (entries.map fun (n, v) => brackets "(" ")" [quote n, quote v])

/-- A map from texts to texts: quoted keys and values with a colon between them. -/
def map (entries : List (String × String)) : String :=
  brackets "\x7b" "\x7d" (entries.map fun (k, v) => quote k ++ ": " ++ quote v)

end ServiceCall.Quoted
