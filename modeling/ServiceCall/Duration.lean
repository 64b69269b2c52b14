import ServiceCall.Text.Digits

/-!
# Durations

Spans of time in whole nanoseconds, up to a greatest one.
-/

namespace ServiceCall

/-- The greatest duration, in nanoseconds. -/
def maxNanos : Nat := 2 ^ 64 * 10 ^ 9 - 1

/-- A span of time. -/
structure Duration where
  nanos : Nat
  le_max : nanos ≤ maxNanos := by decide
deriving DecidableEq, Repr

namespace Duration

/-- No time. -/
def zero : Duration := ⟨0, Nat.zero_le _⟩

instance : Inhabited Duration := ⟨zero⟩

theorem eq_iff {a b : Duration} : a = b ↔ a.nanos = b.nanos := by
  cases a
  cases b
  simp

/-- So many nanoseconds, or the greatest duration if there are too many. -/
def saturating (nanos : Nat) : Duration := ⟨min nanos maxNanos, Nat.min_le_right _ _⟩

/-- So many milliseconds, or the greatest duration. -/
def ofMillis (millis : Nat) : Duration := saturating (millis * 10 ^ 6)

/-- The sum, if it is a duration. -/
def add? (a b : Duration) : Option Duration :=
  if h : a.nanos + b.nanos ≤ maxNanos then some ⟨a.nanos + b.nanos, h⟩ else none

theorem add_eq_some_iff {a b c : Duration} : a.add? b = some c ↔ c.nanos = a.nanos + b.nanos := by
  have hmax := c.le_max
  unfold add?
  split <;> simp only [Option.some.injEq, eq_iff, reduceCtorEq, false_iff] <;> omega

/-- The difference, if it is a duration. -/
def sub? (a b : Duration) : Option Duration :=
  if b.nanos ≤ a.nanos then some ⟨a.nanos - b.nanos, Nat.le_trans (Nat.sub_le _ _) a.le_max⟩ else none

/-- The duration so many times, or the greatest one. -/
def scale (d : Duration) (factor : Nat) : Duration := saturating (d.nanos * factor)

/-- A part of the duration, rounded down. -/
def part (d : Duration) (parts : Nat) : Duration :=
  ⟨d.nanos / parts, Nat.le_trans (Nat.div_le_self _ _) d.le_max⟩

/-- Whole milliseconds, as a 64-bit word. -/
def millisWord (d : Duration) : Nat := d.nanos / 10 ^ 6 % 2 ^ 64

/-- A number with so many digits, zeros in front. -/
def padded (width n : Nat) : String := String.ofList (paddedDigits width n)

/-- Seconds with nine decimals. -/
def text (d : Duration) : String :=
  toString (d.nanos / 10 ^ 9) ++ "." ++ padded 9 (d.nanos % 10 ^ 9)

/-- A number with the decimals that its remainder needs. -/
def decimals (whole rest width : Nat) : String :=
  let digits := ((padded width rest).toList.reverse.dropWhile (· == '0')).reverse
  toString whole ++ (if digits.isEmpty then "" else "." ++ String.ofList digits)

/-- The duration in the greatest unit of which there is one whole. -/
def unitText (d : Duration) : String :=
  if 10 ^ 9 ≤ d.nanos then decimals (d.nanos / 10 ^ 9) (d.nanos % 10 ^ 9) 9 ++ "s"
  else if 10 ^ 6 ≤ d.nanos then decimals (d.nanos / 10 ^ 6) (d.nanos % 10 ^ 6) 6 ++ "ms"
  else if 10 ^ 3 ≤ d.nanos then decimals (d.nanos / 10 ^ 3) (d.nanos % 10 ^ 3) 3 ++ "µs"
  else toString d.nanos ++ "ns"

end Duration

end ServiceCall
