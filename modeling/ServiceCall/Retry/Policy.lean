import ServiceCall.Duration

/-!
# When to try again

A policy says after which failures another attempt is made and how long to wait before it. The wait
doubles with every attempt. A request that the service may have carried out already is not repeated
if it is not safe to repeat.
-/

namespace ServiceCall.Retry

/-- Why an attempt gave no usable response. -/
inductive Failure where
  /-- The service answered that it is not available. -/
  | serviceUnavailable
  /-- A connection was made, but there was no response in time. -/
  | timeout
  /-- The connection was not made, or was lost. -/
  | connection
  /-- Nothing that another attempt could mend. -/
  | fatal
deriving DecidableEq, Repr

/-- The greatest number of attempts that can be asked for, and the greatest factor of a wait. -/
def maxCount : Nat := 2 ^ 32 - 1

theorem le_maxCount_iff {n : Nat} : n ≤ maxCount ↔ n < 2 ^ 32 := Nat.le_sub_one_iff_lt (by decide)

/-- A policy; the first attempt counts, so there is at least one. -/
structure Policy where
  maxAttempts : Nat
  baseWait : Duration
  jitter : Bool := false
  one_le : 1 ≤ maxAttempts
  le_maxCount : maxAttempts ≤ maxCount
deriving DecidableEq, Repr

namespace Policy

/-- A policy with at least one attempt, and no more than can be asked for. -/
def make (maxAttempts : Nat) (baseWait : Duration) (jitter : Bool) : Policy :=
  ⟨min (max 1 maxAttempts) maxCount, baseWait, jitter,
    Nat.le_min.mpr ⟨Nat.le_max_left _ _, by decide⟩, Nat.min_le_right _ _⟩

/-- Three attempts, and half a second before the second. -/
def standard : Policy := make 3 (Duration.ofMillis 500) false

/-- The method whose requests are not safe to repeat. -/
def onceOnlyMethod : String := "POST"

/-- Whether there is another attempt behind the one with number `attempts`. -/
def shouldRetry (p : Policy) (attempts : Nat) (failure : Failure) (method : String) : Bool :=
  if p.maxAttempts ≤ attempts then false
  else
    match failure with
    | .serviceUnavailable => true
    | .connection => true
    | .timeout => method != onceOnlyMethod
    | .fatal => false

/-- Another attempt is made only within the number of attempts that the policy allows. -/
theorem lt_of_shouldRetry {p : Policy} {attempts : Nat} {failure : Failure} {method : String}
    (h : p.shouldRetry attempts failure method = true) : attempts < p.maxAttempts := by
  unfold shouldRetry at h
  split at h
  · cases h
  · next hlt => exact Nat.lt_of_not_le hlt

/-- The factor of the wait behind an attempt. -/
def factor (attempts : Nat) : Nat := if 33 ≤ attempts then maxCount else 2 ^ (attempts - 1)

/-- The wait behind an attempt: doubled each time, up to the greatest factor and duration. -/
def waitTime (p : Policy) (attempts : Nat) : Duration := p.baseWait.scale (factor attempts)

/-- The wait as it is made: with jitter, a tenth to either side at random. The draw is taken from
the range of twice a tenth; there is no wait if the sum is no duration. -/
def delay? (p : Policy) (attempts draw : Nat) : Option Duration :=
  let wait := p.waitTime attempts
  if !p.jitter then some wait
  else
    let spread := wait.part 10
    let offset := Duration.saturating (draw % (2 * spread.nanos + 1))
    (wait.sub? spread).bind (·.add? offset)

end Policy

end ServiceCall.Retry
