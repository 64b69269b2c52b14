/-!
# Domains

A domain is brought to ASCII by the rules for international names. Their tables are no part of this
library: the step that goes by them is given from outside. What comes of it may not hold a character
that stands for another part of a URL.
-/

namespace ServiceCall

/-- The rules for international names: the ASCII form of a domain, if it has one. -/
class Idna where
  toAscii? : List Char → Option (List Char)

/-- What these rules promise. -/
class Idna.Lawful [Idna] : Prop where
  /-- An ASCII form is its own ASCII form. -/
  toAscii?_self {domain ascii : List Char} :
    Idna.toAscii? domain = some ascii → Idna.toAscii? ascii = some ascii
  /-- Digits and points are in ASCII already. -/
  toAscii?_digits {domain : List Char} :
    (∀ c ∈ domain, c.isDigit = true ∨ c = '.') → Idna.toAscii? domain = some domain

namespace Domain

/-- Characters that no domain may hold. -/
def isForbidden (c : Char) : Bool :=
  c.toNat ≤ 32 || c.toNat == 127 || "%#/:<>?@[\\]^|".toList.contains c

/-- The ASCII form of a domain, if it is a domain. -/
def parse? [Idna] (domain : List Char) : Option (List Char) :=
  (Idna.toAscii? domain).filter fun d => !d.any isForbidden

end Domain

end ServiceCall
