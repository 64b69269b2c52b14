import ServiceCall.Decimal.Shortest

/-!
# Decimal text of binary fractions

Two layouts. Documents write a number so that it reads back as a fraction: positional with at least
one decimal while the leading digit stands at place -5 to 15, else with a signed exponent. Settings
show the plain positional form, whole numbers without a point.
-/

namespace ServiceCall

namespace DecimalDigits

/-- Positional text, a whole number followed by `whole`. -/
def positional (d : DecimalDigits) (whole : List Char) : List Char :=
  let cs := characters d.digits
  if 0 ≤ d.exponent then cs ++ List.replicate d.exponent.toNat '0' ++ whole
  else
    let decimals := (-d.exponent).toNat
    if decimals < cs.length then
      cs.take (cs.length - decimals) ++ '.' :: cs.drop (cs.length - decimals)
    else '0' :: '.' :: List.replicate (decimals - cs.length) '0' ++ cs

/-- One digit before the point and an exponent that always shows its sign. -/
def scientific (d : DecimalDigits) : List Char :=
  let cs := characters d.digits
  let place : Int := d.exponent + cs.length - 1
  let mantissa := match cs with
    | [] => []
    | [c] => [c]
    | c :: rest => c :: '.' :: rest
  mantissa ++ 'e' :: (if place < 0 then '-' else '+') :: characters place.natAbs

/-- Positional for leading places -5 to 15, scientific beyond. -/
def documentText (d : DecimalDigits) : List Char :=
  let place : Int := d.exponent + (characters d.digits).length - 1
  if -5 ≤ place ∧ place ≤ 15 then d.positional ['.', '0'] else d.scientific

end DecimalDigits

namespace Binary

/-- A minus sign, also for a negative zero, before the text of the magnitude. -/
def signed (negative : Bool) (text : List Char) : List Char :=
  if negative then '-' :: text else text

/-- The text of a double in a document. -/
def documentText (b : Binary) : List Char :=
  signed b.negative (DecimalDigits.shortest .double b).documentText

/-- The plain text of a double. -/
def plainText (b : Binary) : List Char :=
  signed b.negative ((DecimalDigits.shortest .double b).positional [])

end Binary

/-- The plain text of a number that may be infinite or undefined. -/
def Floating.plainText : Floating → String
  | .finite b => String.ofList b.plainText
  | .infinite negative => if negative then "-inf" else "inf"
  | .nan => "NaN"

end ServiceCall
