import ServiceCall.Json.Value
import ServiceCall.Json.Token
import ServiceCall.Decimal.Reader

/-!
# The value of a number

An integer that a 64-bit word can hold is taken as it is. Any other number is a double that is
reached in two roundings: the digits up to the first that overflows an unsigned 64-bit word make an
integer, the rest only shift the point, and that integer is multiplied or divided once by the
nearest power of ten. It may differ in the last bit from the double nearest to the text.
-/

namespace ServiceCall.Json.Numeral

/-- The greatest unsigned 64-bit word. -/
def maxWord : Nat := 2 ^ 64 - 1

/-- The greatest and least exponent that is kept exactly. -/
def maxExponent : Int := 2 ^ 31 - 1

/-- The leading digits that fit a word, and how many more there were. -/
structure Leading where
  value : Nat := 0
  dropped : Nat := 0

/-- One more digit before the point. -/
def Leading.push (s : Leading) (c : Char) : Leading :=
  let next := 10 * s.value + Decimal.digitValue c
  if s.dropped ≠ 0 ∨ maxWord < next then { s with dropped := s.dropped + 1 }
  else { s with value := next }

/-- The leading digits and how many of them stand behind the point. -/
structure Trailing where
  value : Nat
  taken : Nat := 0
  full : Bool := false

/-- One more digit behind the point; once a digit does not fit, none is taken. -/
def Trailing.push (s : Trailing) (c : Char) : Trailing :=
  let next := 10 * s.value + Decimal.digitValue c
  if s.full || decide (maxWord < next) then { s with full := true }
  else { s with value := next, taken := s.taken + 1 }

/-- The product with `10 ^ exponent`, or the quotient, rounded once. -/
def shiftOnce? (x : Binary) (exponent : Nat) (divide : Bool) : Option Binary := do
  let power ← Binary.ofRatio? .double false (10 ^ exponent) 1
  let (n, d) := x.ratio
  let (m, k) := power.ratio
  if divide then Binary.ofRatio? .double false (n * k) (d * m)
  else Binary.ofRatio? .double false (n * m) (d * k)

/-- `x * 10 ^ exponent` for an exponent of at most 308; steps of 308 downwards until it fits or
nothing is left of `x`. -/
def shift? : Nat → Binary → Int → Option Binary
  | 0, x, _ => some x
  | fuel + 1, x, exponent =>
    if exponent.natAbs ≤ 308 then shiftOnce? x exponent.natAbs (exponent < 0)
    else if x.isZero then some x
    else if 0 ≤ exponent then none
    else (shiftOnce? x 308 true).bind fun y => shift? fuel y (exponent + 308)

/-- The double for `value * 10 ^ exponent`; `none` beyond the greatest double. -/
def real? (negative : Bool) (value : Nat) (exponent : Int) : Option Number := do
  let x ← Binary.ofRatio? .double false value 1
  let y ← shift? 4 x exponent
  some (.real { y with negative := negative })

/-- An exponent held within its bounds. -/
def clamp (e : Int) : Int := max (-maxExponent - 1) (min maxExponent e)

/-- The number that a numeral stands for; `none` if it is beyond the greatest double. -/
def number? (n : Numeral) : Option Number :=
  let leading := n.whole.foldl Leading.push {}
  let trailing := n.fraction.foldl Trailing.push { value := leading.value }
  let point : Int := (leading.dropped : Int) - trailing.taken
  match n.exponent with
  | some (down, digits) =>
    let e : Int := Decimal.digitsValue 0 digits
    -- beyond all exponents a number is zero or too great
    if maxExponent < e then
      if !down && trailing.value != 0 then none else real? n.negative 0 0
    else real? n.negative trailing.value (clamp (if down then point - e else point + e))
  | none =>
    if n.fraction.isEmpty && leading.dropped == 0 then
      let i : Int := if n.negative then -(leading.value : Int) else leading.value
      -- minus zero is no integer, nor is a number that no word of 64 bits holds
      match (if n.negative && leading.value == 0 then none else Whole.ofInt? i) with
      | some w => some (.whole w)
      | none => real? n.negative leading.value 0
    else real? n.negative trailing.value point

end ServiceCall.Json.Numeral
