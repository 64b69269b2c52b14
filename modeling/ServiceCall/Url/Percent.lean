import ServiceCall.Text.Utf8

/-!
# Percent-encoding

A character that may not stand for itself is written as its UTF-8 bytes, each a percent sign and two
hexadecimal digits. Which characters these are depends on the part of the URL.
-/

namespace ServiceCall.Percent

/-- A control character of ASCII, or any character beyond it. -/
def isControl (c : Char) : Bool := c.toNat < 32 || 126 < c.toNat

/-- A backtick. -/
def backtick : Char := Char.ofNat 0x60

/-- Escaped in a fragment. -/
def inFragment (c : Char) : Bool :=
  isControl c || c == ' ' || c == '"' || c == '<' || c == '>' || c == backtick

/-- Escaped in a query of a scheme without its own rules. -/
def inQuery (c : Char) : Bool :=
  isControl c || c == ' ' || c == '"' || c == '#' || c == '<' || c == '>'

/-- Escaped in a query of a special scheme. -/
def inSpecialQuery (c : Char) : Bool := inQuery c || c == '\''

/-- Escaped in a path that is read from the text of a URL. -/
def inPath (c : Char) : Bool := inQuery c || c == '?' || c == backtick || c == '{' || c == '}'

/-- Escaped in a single segment that is added to a path. -/
def inSegment (c : Char) : Bool := inPath c || c == '/' || c == '%'

/-- Escaped in a single segment of a special scheme. -/
def inSpecialSegment (c : Char) : Bool := inSegment c || c == '\\'

/-- Escaped in a user name or password. -/
def inUserInfo (c : Char) : Bool :=
  inPath c || c == '/' || c == ':' || c == ';' || c == '=' || c == '@' || c == '['
    || c == '\\' || c == ']' || c == '^' || c == '|'

/-- A hexadecimal digit of four bits, a capital letter from ten on. -/
def hexDigit (n : Nat) : Char := (Nat.digitChar n).toUpper

/-- A byte as a percent sign and two digits. -/
def byte (b : UInt8) : List Char := ['%', hexDigit (b.toNat / 16), hexDigit (b.toNat % 16)]

/-- A character as its escaped bytes. -/
def char (c : Char) : List Char := (String.utf8EncodeChar c).flatMap byte

/-- The text with every character of the set escaped. -/
def encode (set : Char → Bool) (cs : List Char) : List Char :=
  cs.flatMap fun c => if set c then char c else [c]

/-- The value of a hexadecimal digit of either case. -/
def hexValue? (c : Char) : Option Nat :=
  if c.isDigit then some (c.toNat - '0'.toNat)
  else if 'a' ≤ c ∧ c ≤ 'f' then some (c.toNat - 'a'.toNat + 10)
  else if 'A' ≤ c ∧ c ≤ 'F' then some (c.toNat - 'A'.toNat + 10)
  else none

/-- The bytes of a text: escaped ones by their digits, other characters by their UTF-8. A percent
sign without two digits stands for itself. -/
def decode : List Char → Bytes
  | [] => []
  | '%' :: a :: b :: rest =>
    match hexValue? a, hexValue? b with
    | some high, some low => UInt8.ofNat (16 * high + low) :: decode rest
    | _, _ => String.utf8EncodeChar '%' ++ decode (a :: b :: rest)
  | c :: rest => String.utf8EncodeChar c ++ decode rest

end ServiceCall.Percent
