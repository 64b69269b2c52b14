import ServiceCall.Decimal.Reader
import ServiceCall.Settings.Node
import ServiceCall.Text.Folding

/-!
# What a value of settings counts as

Values are converted where another kind is wanted: numbers and truth values to text, text and
fractions to whole numbers, words and numbers to truth values. Null counts as nothing, and lists and
tables are never converted.
-/

namespace ServiceCall

/-- The text in small letters. -/
def Folding.lowerText (s : String) : String := String.ofList (s.toList.map Folding.lower)

namespace Node

/-- The value as a text. -/
def text? : Node → Option String
  | .text s => some s
  | .flag b => some (if b then "true" else "false")
  | .integer n => some (toString n)
  | .real x => some x.plainText
  | .null | .list _ | .table _ => none

/-- Words for yes and no. -/
def word? (s : String) : Option Bool :=
  let w := Folding.lowerText s
  if w == "true" || w == "on" || w == "yes" then some true
  else if w == "false" || w == "off" || w == "no" then some false
  else none

/-- The greatest number of a 64-bit word. -/
def wordMax : Nat := 2 ^ 64 - 1

/-- A number of a 64-bit word in decimal digits, with an optional plus sign. -/
def digitsToWord? (s : String) : Option Nat :=
  let digits := match s.toList with
    | '+' :: rest => rest
    | cs => cs
  if digits.isEmpty || !digits.all Char.isDigit then none
  else (some (Decimal.digitsValue 0 digits)).filter (· ≤ wordMax)

/-- A real number as one of a 64-bit word: the nearest, a half going up; what is not in the word goes
to its end, and the undefined value to zero. -/
def realToWord : Floating → Nat
  | .finite b => min b.roundHalfAway.toNat wordMax
  | .infinite negative => if negative then 0 else wordMax
  | .nan => 0

/-- The value as a number of a 64-bit word. -/
def natural? : Node → Option Nat
  | .integer n => if 0 ≤ n then some n.toNat else none
  | .real x => some (realToWord x)
  | .flag b => some b.toNat
  | .text s =>
    match word? s with
    | some b => some b.toNat
    | none => digitsToWord? s
  | .null | .list _ | .table _ => none

/-- The value as a truth value: of numbers, all but zero are true. -/
def flag? : Node → Option Bool
  | .flag b => some b
  | .integer n => some (n != 0)
  | .real (.finite b) => some (!b.isZero)
  | .real _ => some true
  | .text s => if s == "1" then some true else if s == "0" then some false else word? s
  | .null | .list _ | .table _ => none

/-- A text that may be null. -/
def optionalText? : Node → Option (Option String)
  | .null => some none
  | n => n.text?.map some

/-- The items of a list. -/
def items? : Node → Option (List Node)
  | .list items => some items
  | _ => none

end Node

end ServiceCall
