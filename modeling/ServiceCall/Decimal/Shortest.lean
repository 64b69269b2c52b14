import ServiceCall.Decimal.Binary

/-!
# The fewest digits that read back

Of the decimals that round to a given binary fraction, those with the fewest digits, and of these
the one nearest to it; an exact tie goes to the even last digit.
-/

namespace ServiceCall

/-- The decimal `digits * 10 ^ exponent`. -/
structure DecimalDigits where
  digits : Nat
  exponent : Int
deriving DecidableEq, Repr

namespace DecimalDigits

/-- The decimal digits of a natural number, most significant first. -/
def characters (n : Nat) : List Char := Nat.toDigits 10 n

/-- The same value without trailing zero digits; `fuel` bounds their number. -/
def dropZeros : Nat → DecimalDigits → DecimalDigits
  | 0, d => d
  | fuel + 1, d =>
    if d.digits ≠ 0 ∧ d.digits % 10 = 0 then dropZeros fuel ⟨d.digits / 10, d.exponent + 1⟩ else d

/-- `num / den * 10 ^ exponent` as a quotient of naturals. -/
def scaleTen (num den : Nat) (exponent : Int) : Nat × Nat :=
  if 0 ≤ exponent then (num * 10 ^ exponent.toNat, den) else (num, den * 10 ^ (-exponent).toNat)

/-- The place of the leading digit of a positive quotient: `e` with `10 ^ e ≤ num / den < 10 ^ (e + 1)`. -/
def leadingPlace (num den : Nat) : Int :=
  let guess := ((characters num).length : Int) - (characters den).length
  let (n, d) := scaleTen num den (-guess)
  if d ≤ n then guess else guess - 1

/-- The reals that round to a positive binary fraction, as numerators over one denominator. -/
structure Neighbourhood where
  low : Nat
  value : Nat
  high : Nat
  den : Nat
  closed : Bool

/-- Half a unit of the last place to either side, a quarter below a power of two. -/
def neighbourhood (format : BinaryFormat) (b : Binary) : Neighbourhood :=
  let narrow := b.mantissa == 2 ^ (format.precision - 1) && decide (format.minExponent < b.exponent)
  let at2 (quarters : Nat) : Nat := (Binary.scale quarters 4 b.exponent).1
  { low := at2 (4 * b.mantissa - if narrow then 1 else 2)
    value := at2 (4 * b.mantissa)
    high := at2 (4 * b.mantissa + 2)
    den := (Binary.scale 1 4 b.exponent).2
    closed := b.mantissa % 2 == 0 }

/-- The decimal lies in the neighbourhood. -/
def inside (around : Neighbourhood) (d : DecimalDigits) : Bool :=
  let (n, m) := scaleTen d.digits 1 d.exponent
  let here := n * around.den
  let low := around.low * m
  let high := around.high * m
  if around.closed then decide (low ≤ here) && decide (here ≤ high)
  else decide (low < here) && decide (here < high)

/-- The nearer of the two grid points around the value, if one lies in the neighbourhood. -/
def onGrid? (around : Neighbourhood) (exponent : Int) : Option DecimalDigits :=
  let (n, m) := scaleTen around.value around.den (-exponent)
  let below : DecimalDigits := ⟨n / m, exponent⟩
  let above : DecimalDigits := ⟨n / m + 1, exponent⟩
  let rest := 2 * (n % m)
  match inside around below, inside around above with
  | false, false => none
  | true, false => some below
  | false, true => some above
  -- of two points the nearer one, of two that are equally near the even one
  | true, true =>
    if rest < m then some below
    else if m < rest then some above
    else if below.digits % 2 = 0 then some below else some above

/-- The first grid of `count` digits or more with a point in the neighbourhood. -/
def search (around : Neighbourhood) (place : Int) : Nat → Nat → DecimalDigits
  | 0, count => ⟨around.value / around.den, count⟩
  | fuel + 1, count =>
    match onGrid? around (place - count + 1) with
    | some d => d
    | none => search around place fuel (count + 1)

/-- The shortest digits of a binary fraction, its sign left aside; zero is the digit 0. -/
def shortest (format : BinaryFormat) (b : Binary) : DecimalDigits :=
  if b.mantissa = 0 then ⟨0, 0⟩
  else
    let (n, d) := b.ratio
    dropZeros 20 (search (neighbourhood format b) (leadingPlace n d) 17 1)

end DecimalDigits

end ServiceCall
