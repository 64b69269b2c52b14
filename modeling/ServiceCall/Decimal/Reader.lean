import ServiceCall.Decimal.Binary

/-!
# Reading decimals

A decimal is an optional sign, digits with an optional point among them, and an optional exponent;
the words for infinity and for the undefined value are read in any case. The result is the nearest
value of the format.
-/

namespace ServiceCall

namespace Decimal

/-- The value of a digit character. -/
def digitValue (c : Char) : Nat := c.toNat - '0'.toNat

/-- The natural number that digit characters spell, `acc` standing before them. -/
def digitsValue (acc : Nat) (cs : List Char) : Nat :=
  cs.foldl (fun n c => 10 * n + digitValue c) acc

/-- A sign, if the text starts with one, and what follows. -/
def takeSign : List Char → Bool × List Char
  | '-' :: rest => (true, rest)
  | '+' :: rest => (false, rest)
  | cs => (false, cs)

/-- An integer with an optional sign, and no other character. -/
def integer? (cs : List Char) : Option Int :=
  let (negative, digits) := takeSign cs
  if digits.isEmpty || !digits.all Char.isDigit then none
  else
    let n := digitsValue 0 digits
    some (if negative then -(n : Int) else n)

/-- The value nearest to `digits * 10 ^ exponent`. Exponents that cannot matter are not raised. -/
def nearest (format : BinaryFormat) (negative : Bool) (digits : Nat) (exponent : Int) : Floating :=
  let places : Int := (Nat.toDigits 10 digits).length + exponent
  let rounded :=
    if digits = 0 ∨ places < -400 then Binary.ofRatio? format negative 0 1
    else if 400 < places then none
    else if 0 ≤ exponent then Binary.ofRatio? format negative (digits * 10 ^ exponent.toNat) 1
    else Binary.ofRatio? format negative digits (10 ^ (-exponent).toNat)
  match rounded with
  | some b => .finite b
  | none => .infinite negative

/-- The exponent part of a decimal: nothing, or a mark and an integer. -/
def exponent? : List Char → Option Int
  | [] => some 0
  | c :: rest => if c == 'e' || c == 'E' then integer? rest else none

/-- Digits with an optional point among them, then an exponent. -/
def magnitude? (cs : List Char) : Option (Nat × Int) :=
  let whole := cs.takeWhile Char.isDigit
  let rest := cs.dropWhile Char.isDigit
  let (decimals, rest) := match rest with
    | '.' :: more => (more.takeWhile Char.isDigit, more.dropWhile Char.isDigit)
    | other => ([], other)
  if whole.isEmpty && decimals.isEmpty then none
  else (exponent? rest).map fun e =>
    (digitsValue (digitsValue 0 whole) decimals, e - decimals.length)

/-- Reads a decimal, `inf`, `infinity` or `nan` as a value of the format. -/
def read? (format : BinaryFormat) (text : String) : Option Floating :=
  let (negative, cs) := takeSign text.toList
  let word := String.ofList (cs.map Char.toLower)
  if word == "inf" || word == "infinity" then some (.infinite negative)
  else if word == "nan" then some .nan
  else (magnitude? cs).map fun (digits, e) => nearest format negative digits e

end Decimal

end ServiceCall
