/-!
# Blank characters

Two sets of blanks are in use: the characters with the Unicode property `White_Space`, which are
trimmed from names and make a logged value quoted, and the five ASCII blanks that make a body
count as empty.
-/

namespace ServiceCall.Blank

/-- Code points with the property `White_Space` above ASCII, as inclusive ranges. -/
def wideRanges : List (Nat × Nat) :=
  [(0x85, 0x85), (0xA0, 0xA0), (0x1680, 0x1680), (0x2000, 0x200A), (0x2028, 0x2029),
   (0x202F, 0x202F), (0x205F, 0x205F), (0x3000, 0x3000)]

/-- The character has the Unicode property `White_Space`. -/
def isWide (c : Char) : Bool :=
  c == ' ' || (9 ≤ c.toNat && c.toNat ≤ 13)
    || wideRanges.any fun r => r.1 ≤ c.toNat && c.toNat ≤ r.2

/-- The byte is a space, tab, line feed, form feed or carriage return. -/
def isAsciiByte (b : UInt8) : Bool := b == 32 || b == 9 || b == 10 || b == 12 || b == 13

/-- The list without the blanks at either end. -/
def trimChars (cs : List Char) : List Char :=
  ((cs.dropWhile isWide).reverse.dropWhile isWide).reverse

/-- The text without the blanks at either end. -/
def trim (s : String) : String := String.ofList (trimChars s.toList)

end ServiceCall.Blank
