/-!
# UTF-8 text as units

A body is a list of bytes. Readers that must go on past a stray byte work on its units: each
unit is a character, or `none` for one byte that belongs to no character.
-/

namespace ServiceCall

/-- Octets of a message body. -/
abbrev Bytes := List UInt8

namespace Utf8

/-- The bytes of a text. -/
def encode (s : String) : Bytes := s.toList.flatMap String.utf8EncodeChar

/-- The character that starts a byte list, if its first bytes form one. -/
def head? (bytes : Bytes) : Option Char := (bytes.take 4).toByteArray.utf8DecodeChar? 0

/-- Units of a byte list whose first `skip` bytes belong to a character already read. -/
def unitsFrom : Nat → Bytes → List (Option Char)
  | _, [] => []
  | skip + 1, _ :: rest => unitsFrom skip rest
  | 0, b :: rest =>
    match head? (b :: rest) with
    | some c => some c :: unitsFrom (c.utf8Size - 1) rest
    | none => none :: unitsFrom 0 rest

/-- Characters of a body in order; a byte outside every character is a `none` of its own. -/
def units (bytes : Bytes) : List (Option Char) := unitsFrom 0 bytes

/-- All units as characters, if there is no stray byte. -/
def chars? : List (Option Char) → Option (List Char)
  | [] => some []
  | none :: _ => none
  | some c :: rest => (chars? rest).map (c :: ·)

/-- The text of a body, if the whole of it is UTF-8. -/
def decode? (bytes : Bytes) : Option String := (chars? (units bytes)).map String.ofList

/-- Number of bytes that a unit stands for. -/
def width : Option Char → Nat
  | some c => c.utf8Size
  | none => 1

end Utf8

end ServiceCall
