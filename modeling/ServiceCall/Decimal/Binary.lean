import ServiceCall.Text.Digits

/-!
# Binary fractions of limited precision

Exact values `± mantissa * 2 ^ exponent`, and rounding of a quotient of naturals to the nearest
value that a format of so many bits can hold, a tie going to the even mantissa.
-/

namespace ServiceCall

/-- The value `mantissa * 2 ^ exponent`, negated if `negative`. -/
structure Binary where
  negative : Bool
  mantissa : Nat
  exponent : Int
deriving DecidableEq, Repr, Inhabited

/-- A binary fraction, or one of the values outside the finite range. -/
inductive Floating where
  | finite (value : Binary)
  | infinite (negative : Bool)
  | nan
deriving DecidableEq, Repr, Inhabited

/-- How many bits a mantissa has, and which exponents it may come with. -/
structure BinaryFormat where
  precision : Nat
  minExponent : Int
  maxExponent : Int

namespace BinaryFormat

/-- The 64-bit format: 53 bits of mantissa. -/
def double : BinaryFormat := ⟨53, -1074, 971⟩

/-- The 32-bit format: 24 bits of mantissa. -/
def single : BinaryFormat := ⟨24, -149, 104⟩

end BinaryFormat

namespace Binary

/-- A quotient rounded to a natural number; a half goes to the even neighbour. -/
def roundHalfEven (num den : Nat) : Nat :=
  let q := num / den
  let twice := 2 * (num % den)
  if twice < den then q
  else if den < twice then q + 1
  else q + q % 2

/-- The fraction `num / den * 2 ^ exponent` as a quotient of naturals. -/
def scale (num den : Nat) (exponent : Int) : Nat × Nat :=
  if 0 ≤ exponent then (num * 2 ^ exponent.toNat, den) else (num, den * 2 ^ (-exponent).toNat)

/-- The integer part of the base-two logarithm of a positive quotient. -/
def floorLog2 (num den : Nat) : Int :=
  let guess := (Nat.log2 num : Int) - Nat.log2 den
  let (n, d) := scale num den (-guess)
  if d ≤ n then guess else guess - 1

/-- The value of the format nearest to `num / den`; `none` if it is beyond the greatest one. -/
def ofRatio? (format : BinaryFormat) (negative : Bool) (num den : Nat) : Option Binary :=
  if num = 0 then some ⟨negative, 0, format.minExponent⟩
  else
    let exponent := max (floorLog2 num den - (format.precision - 1)) format.minExponent
    let (n, d) := scale num den (-exponent)
    let mantissa := roundHalfEven n d
    let carried := mantissa == 2 ^ format.precision
    let exponent := if carried then exponent + 1 else exponent
    if format.maxExponent < exponent then none
    else some ⟨negative, if carried then mantissa / 2 else mantissa, exponent⟩

/-- The value without its sign, as a quotient of naturals. -/
def ratio (b : Binary) : Nat × Nat := scale b.mantissa 1 b.exponent

/-- The value is zero, of either sign. -/
def isZero (b : Binary) : Bool := b.mantissa == 0

/-- The value in another format. -/
def convert? (format : BinaryFormat) (b : Binary) : Option Binary :=
  ofRatio? format b.negative b.ratio.1 b.ratio.2

/-- The double nearest to an integer. -/
def ofInt (i : Int) : Binary := (ofRatio? .double (i < 0) i.natAbs 1).getD ⟨false, 0, -1074⟩

/-- The value as a quotient, its sign in the numerator. -/
def signedRatio (b : Binary) : Int × Nat :=
  let (n, d) := b.ratio
  (if b.negative then -(n : Int) else n, d)

/-- The nearest integer, a half going away from zero. -/
def roundHalfAway (b : Binary) : Int :=
  let (n, d) := b.ratio
  let magnitude := (2 * n + d) / (2 * d)
  if b.negative then -(magnitude : Int) else magnitude

/-- The value as an integer, if it has no fractional part. -/
def toInt? (b : Binary) : Option Int :=
  let (n, d) := b.ratio
  if n % d = 0 then some (if b.negative then -((n / d : Nat) : Int) else (n / d : Nat)) else none

end Binary

end ServiceCall
