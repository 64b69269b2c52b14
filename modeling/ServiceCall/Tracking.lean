import ServiceCall.KeyMap
import ServiceCall.Text.Digits

/-!
# Accounts of calls

For each category of operations: how many there were and how long they took together.
-/

namespace ServiceCall

/-- The account of one category; the total stays at its greatest value once it is there. -/
structure CategoryStats where
  count : Nat := 0
  totalNanos : Nat := 0
deriving DecidableEq, Repr

/-- The greatest total. -/
def CategoryStats.maxTotal : Nat := 2 ^ 64 - 1

/-- The account with one more operation. -/
def CategoryStats.add (s : CategoryStats) (nanos : Nat) : CategoryStats :=
  ⟨s.count + 1, min (s.totalNanos + nanos) maxTotal⟩

/-- The accounts of all categories. -/
abbrev ActionStats := KeyMap CategoryStats

/-- The accounts with one more operation in a category. -/
def ActionStats.track (s : ActionStats) (category : String) (nanos : Nat) : ActionStats :=
  KeyMap.insert s category (((KeyMap.get? s category).getD {}).add nanos)

end ServiceCall
