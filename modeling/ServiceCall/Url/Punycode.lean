/-!
# Punycode

Labels of a domain that hold characters beyond ASCII, written in ASCII: the ASCII characters first,
then the places of the others as numbers of variable length in base 36, the thresholds of whose
digits adapt as the numbers go.
-/

namespace ServiceCall.Punycode

/-- The digit of a value below 36: letters first. -/
def digit (n : Nat) : Char :=
  if n < 26 then Char.ofNat ('a'.toNat + n) else Char.ofNat ('0'.toNat + (n - 26))

/-- The value of a digit; capitals count as small letters. -/
def digitValue? (c : Char) : Option Nat :=
  if c.isDigit then some (c.toNat - '0'.toNat + 26)
  else if c.isAlpha then some (c.toLower.toNat - 'a'.toNat)
  else none

/-- Divides by 35 until at most 455 is left, and counts 36 for each division. -/
def scaleDown : Nat → Nat → Nat → Nat × Nat
  | 0, delta, k => (delta, k)
  | fuel + 1, delta, k => if 455 < delta then scaleDown fuel (delta / 35) (k + 36) else (delta, k)

/-- The next bias, after a number was written among `points` characters. -/
def adapt (delta points : Nat) (first : Bool) : Nat :=
  let delta := if first then delta / 700 else delta / 2
  let (delta, k) := scaleDown delta (delta + delta / points) 0
  k + 36 * delta / (delta + 38)

/-- The threshold of the digit at place `k`. -/
def threshold (k bias : Nat) : Nat :=
  if k ≤ bias then 1 else if bias + 26 ≤ k then 26 else k - bias

/-- A number in digits from place `k` on; `fuel` bounds their count. -/
def number (bias : Nat) : Nat → Nat → Nat → List Char
  | 0, _, _ => []
  | fuel + 1, k, q =>
    let t := threshold k bias
    if q < t then [digit q]
    else digit (t + (q - t) % (36 - t)) :: number bias fuel (k + 36) ((q - t) / (36 - t))

/-- What has been written so far, and the numbers that the next one depends on. -/
structure Writer where
  out : List Char
  delta : Nat
  bias : Nat
  handled : Nat

/-- One character of the label while the code point `next` is being written. -/
def Writer.pass (basic next : Nat) (w : Writer) (c : Char) : Writer :=
  if c.toNat < next then { w with delta := w.delta + 1 }
  else if c.toNat = next then
    { out := w.out ++ number w.bias (w.delta + 1) 36 w.delta
      delta := 0
      bias := adapt w.delta (w.handled + 1) (w.handled == basic)
      handled := w.handled + 1 }
  else w

/-- Writes the code points beyond ASCII in increasing order. -/
def encodePoints (label : List Char) (basic : Nat) : List Nat → Nat → Writer → Writer
  | [], _, w => w
  | next :: rest, current, w =>
    let w := { w with delta := w.delta + (next - current) * (w.handled + 1) }
    let w := label.foldl (Writer.pass basic next) w
    encodePoints label basic rest (next + 1) { w with delta := w.delta + 1 }

/-- The code points beyond ASCII, each once, in increasing order. -/
def widePoints (label : List Char) : List Nat :=
  ((label.map Char.toNat).filter (128 ≤ ·)).eraseDups.mergeSort

/-- The ASCII form of a label. -/
def encode (label : List Char) : List Char :=
  let ascii := label.filter (·.toNat < 128)
  let basic := ascii.length
  let start : List Char := if basic = 0 then [] else ascii ++ ['-']
  (encodePoints label basic (widePoints label) 128 ⟨start, 0, 72, basic⟩).out

/-- The number that the digits at the head spell, and the digits behind it. -/
def takeNumber (bias : Nat) : List Char → Nat → Nat → Nat → Option (Nat × List Char)
  | [], _, _, _ => none
  | c :: rest, k, weight, sum => do
    let d ← digitValue? c
    let sum := sum + d * weight
    let t := threshold k bias
    if d < t then some (sum, rest) else takeNumber bias rest (k + 36) (weight * (36 - t)) sum

/-- Inserts the characters that the numbers place; `fuel` bounds their count. -/
def decodePoints : Nat → List Char → List Char → Nat → Nat → Nat → Option (List Char)
  | _, [], out, _, _, _ => some out
  | 0, _ :: _, _, _, _, _ => none
  | fuel + 1, digits, out, point, place, bias => do
    let (delta, rest) ← takeNumber bias digits 36 1 0
    let size := out.length + 1
    let first := place == 0
    -- places are counted from the last one on; where they run out, the next code point begins
    let total := place + delta
    let point := point + total / size
    let place := total % size
    if h : point.isValidChar then
      let out := out.take place ++ Char.ofNatAux point h :: out.drop place
      decodePoints fuel rest out point (place + 1) (adapt delta size first)
    else none

/-- The label of an ASCII form: what stands before the last hyphen, and the numbers behind it. -/
def decode? (ascii : List Char) : Option (List Char) :=
  let digits := (ascii.reverse.takeWhile (· != '-')).reverse
  let basic := ascii.take (ascii.length - digits.length - 1)
  decodePoints digits.length digits basic 128 0 72

end ServiceCall.Punycode
