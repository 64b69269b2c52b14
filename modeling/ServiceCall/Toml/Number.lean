import ServiceCall.Decimal.Reader
import ServiceCall.Settings.Node

/-!
# Numbers in TOML

Whole numbers of 64 bits in base 10, 16, 8 or 2, and doubles. An underscore may stand between two
digits. A decimal number starts with a zero only if that is its whole part.
-/

namespace ServiceCall.Toml

namespace Number

/-- Digits behind a first digit, underscores among them left out, and what follows. -/
def moreDigits (isDigit : Char → Bool) : List Char → Option (List Char × List Char)
  | [] => some ([], [])
  | ['_'] => none
  | '_' :: d :: rest =>
    if isDigit d then (moreDigits isDigit rest).map fun (ds, rest) => (d :: ds, rest) else none
  | d :: rest =>
    if isDigit d then (moreDigits isDigit rest).map fun (ds, rest) => (d :: ds, rest)
    else some ([], d :: rest)

/-- Digits, at least one, and what follows. -/
def digits? (isDigit : Char → Bool) : List Char → Option (List Char × List Char)
  | d :: rest =>
    if isDigit d then (moreDigits isDigit rest).map fun (ds, rest) => (d :: ds, rest) else none
  | [] => none

/-- The whole part of a decimal number, and what follows. -/
def whole? : List Char → Option (List Char × List Char)
  | '0' :: rest => some (['0'], rest)
  | cs => digits? Char.isDigit cs

/-- The value of a digit in base 16. -/
def digitValue (c : Char) : Nat :=
  if c.isDigit then c.toNat - '0'.toNat else c.toLower.toNat - 'a'.toNat + 10

/-- A digit of a base up to 16. -/
def isDigitOf (base : Nat) (c : Char) : Bool :=
  (c.isDigit || ('a' ≤ c && c ≤ 'f') || ('A' ≤ c && c ≤ 'F')) && digitValue c < base

/-- A whole number of 64 bits with a sign. -/
def bounded? (n : Int) : Option Node :=
  if -(2 ^ 63) ≤ n ∧ n < 2 ^ 63 then some (.integer n) else none

/-- A whole number in another base behind its mark, and what follows. -/
def inBase? (base : Nat) (cs : List Char) : Option (Node × List Char) := do
  let (digits, rest) ← digits? (isDigitOf base) cs
  let n ← bounded? (digits.foldl (fun n c => base * n + digitValue c) 0 : Nat)
  return (n, rest)

/-- The exponent behind its mark, and what follows. -/
def exponent? (cs : List Char) : Option (Int × List Char) := do
  let (negative, cs) := Decimal.takeSign cs
  let (digits, rest) ← digits? Char.isDigit cs
  let n := Decimal.digitsValue 0 digits
  return (if negative then -(n : Int) else n, rest)

/-- An exponent if its mark is there, and what follows. -/
def optionalExponent? : List Char → Option (Int × List Char)
  | c :: rest => if c == 'e' || c == 'E' then exponent? rest else some (0, c :: rest)
  | [] => some (0, [])

/-- The double nearest to a decimal; a value above every double is refused. -/
def real? (negative : Bool) (digits : List Char) (exponent : Int) : Option Node :=
  match Decimal.nearest .double negative (Decimal.digitsValue 0 digits) exponent with
  | .infinite false => none
  | x => some (.real x)

/-- A decimal number behind its sign, and what follows. -/
def decimal? (negative : Bool) (cs : List Char) : Option (Node × List Char) := do
  let (whole, rest) ← whole? cs
  match rest with
  | '.' :: rest =>
    let (decimals, rest) ← digits? Char.isDigit rest
    let (exponent, rest) ← optionalExponent? rest
    let x ← real? negative (whole ++ decimals) (exponent - decimals.length)
    return (x, rest)
  | 'e' :: rest | 'E' :: rest =>
    let (exponent, rest) ← exponent? rest
    let x ← real? negative whole exponent
    return (x, rest)
  | rest =>
    let n : Int := Decimal.digitsValue 0 whole
    let n ← bounded? (if negative then -n else n)
    return (n, rest)

/-- A number, infinity or the undefined value, and what follows. -/
def read? : List Char → Option (Node × List Char)
  | '0' :: 'x' :: rest => inBase? 16 rest
  | '0' :: 'o' :: rest => inBase? 8 rest
  | '0' :: 'b' :: rest => inBase? 2 rest
  | cs =>
    let (negative, cs) := Decimal.takeSign cs
    match cs with
    | 'i' :: 'n' :: 'f' :: rest => some (.real (.infinite negative), rest)
    | 'n' :: 'a' :: 'n' :: rest => some (.real .nan, rest)
    | cs => decimal? negative cs

end Number

end ServiceCall.Toml
