import Mathlib.Order.Monotone.Basic
import ServiceCall.Retry.Policy

/-!
# How waits grow

The wait behind an attempt is the base wait, doubled for each attempt before it, with two bounds: the
factor goes up to the greatest word of 32 bits, and the product up to the greatest duration. Below
these bounds nothing is lost. It is the same to multiply seconds and nanoseconds apart, if the whole
seconds among the nanoseconds are carried.
-/

namespace ServiceCall

namespace Duration

/-- The whole seconds of a duration. -/
def seconds (d : Duration) : Nat := d.nanos / 10 ^ 9

/-- The nanoseconds behind the whole seconds. -/
def subseconds (d : Duration) : Nat := d.nanos % 10 ^ 9

/-- The duration of so many seconds, a word of 64 bits, and nanoseconds behind them. -/
def ofParts (seconds subseconds : Nat) (hseconds : seconds < 2 ^ 64)
    (hsubseconds : subseconds < 10 ^ 9) : Duration :=
  ⟨seconds * 10 ^ 9 + subseconds, by unfold maxNanos; omega⟩

/-- The greatest duration. -/
def greatest : Duration := ofParts (2 ^ 64 - 1) (10 ^ 9 - 1) (by decide) (by decide)

/-- The duration so many times, if its seconds are a word of 64 bits. Seconds and nanoseconds are
multiplied apart, and the whole seconds among the nanoseconds are carried. -/
def times? (d : Duration) (factor : Nat) : Option Duration :=
  if h : d.seconds * factor + d.subseconds * factor / 10 ^ 9 < 2 ^ 64 then
    some (ofParts _ (d.subseconds * factor % 10 ^ 9) h (Nat.mod_lt _ (by decide)))
  else none

theorem nanos_ofParts {seconds subseconds : Nat} (hseconds : seconds < 2 ^ 64)
    (hsubseconds : subseconds < 10 ^ 9) :
    (ofParts seconds subseconds hseconds hsubseconds).nanos = seconds * 10 ^ 9 + subseconds :=
  rfl

theorem nanos_greatest : greatest.nanos = maxNanos := rfl

variable (d : Duration) (factor : Nat)

theorem nanos_scale : (d.scale factor).nanos = min (d.nanos * factor) maxNanos := rfl

/-- Nothing is lost where the parts are multiplied. -/
theorem nanos_mul_eq : d.nanos * factor
    = (d.seconds * factor + d.subseconds * factor / 10 ^ 9) * 10 ^ 9
      + d.subseconds * factor % 10 ^ 9 := by
  have hparts : 10 ^ 9 * d.seconds + d.subseconds = d.nanos := Nat.div_add_mod d.nanos (10 ^ 9)
  have hcarried := Nat.div_add_mod (d.subseconds * factor) (10 ^ 9)
  calc d.nanos * factor
      = 10 ^ 9 * (d.seconds * factor) + d.subseconds * factor := by
        rw [← hparts, Nat.add_mul, Nat.mul_assoc]
    _ = _ := by omega

/-- The product is cut just if its parts, with what is carried, are no duration. -/
theorem scale_eq_times : d.scale factor = (d.times? factor).getD greatest := by
  have hproduct := d.nanos_mul_eq factor
  have hrest : d.subseconds * factor % 10 ^ 9 < 10 ^ 9 := Nat.mod_lt _ (by decide)
  rw [eq_iff, nanos_scale, times?]
  -- the seconds fit into a word just if the product is a duration
  split
  · next hword =>
    rw [Option.getD_some, nanos_ofParts, ← hproduct]
    exact Nat.min_eq_left (by unfold maxNanos; omega)
  · next hword =>
    rw [Option.getD_none, nanos_greatest]
    exact Nat.min_eq_right (by unfold maxNanos; omega)

end Duration

namespace Retry

/-- How the waits of a policy grow. The first attempt has the number one, and a number of zero stands
for it too. -/
structure Backoff (p : Policy) : Prop where
  /-- The wait is the exact product, cut at the greatest duration. -/
  capped (attempts : Nat) : (p.waitTime attempts).nanos
    = min Duration.greatest.nanos (p.baseWait.nanos * min (2 ^ (attempts - 1)) (2 ^ 32 - 1))
  /-- It is the same if seconds and nanoseconds are multiplied apart. -/
  carried (attempts : Nat) : p.waitTime attempts
    = (p.baseWait.times? (min (2 ^ (attempts - 1)) (2 ^ 32 - 1))).getD Duration.greatest
  /-- It is doubled for each attempt before just as long as that fits and the factor is not cut. -/
  doubled (attempts : Nat) : (p.waitTime attempts).nanos = p.baseWait.nanos * 2 ^ (attempts - 1)
    ↔ p.baseWait.nanos * 2 ^ (attempts - 1) ≤ Duration.greatest.nanos
      ∧ (attempts ≤ 32 ∨ p.baseWait.nanos = 0)
  growing : Monotone fun attempts => (p.waitTime attempts).nanos
  /-- No wait is shorter for a longer base wait, whatever else is different. -/
  widening (q : Policy) (attempts : Nat) : p.baseWait.nanos ≤ q.baseWait.nanos →
    (p.waitTime attempts).nanos ≤ (q.waitTime attempts).nanos

namespace Policy

/-! ### The factor -/

theorem factor_of_le {attempts : Nat} (h : attempts ≤ 32) : factor attempts = 2 ^ (attempts - 1) := by
  rw [factor, if_neg (by omega)]

theorem factor_of_lt {attempts : Nat} (h : 32 < attempts) : factor attempts = maxCount := by
  rw [factor, if_pos (by omega)]

/-- From the thirty-third attempt on, the power is no word of 32 bits. -/
theorem maxCount_lt_pow {attempts : Nat} (h : 32 < attempts) : maxCount < 2 ^ (attempts - 1) := by
  have hpow : 2 ^ 32 ≤ 2 ^ (attempts - 1) := Nat.pow_le_pow_right (by decide) (by omega)
  unfold maxCount
  omega

/-- The factor doubles up to the greatest word of 32 bits. -/
theorem factor_eq_min (attempts : Nat) :
    factor attempts = min (2 ^ (attempts - 1)) (2 ^ 32 - 1) := by
  rcases Nat.lt_or_ge 32 attempts with hlate | hearly
  · rw [factor_of_lt hlate]
    exact (Nat.min_eq_right (Nat.le_of_lt (maxCount_lt_pow hlate))).symm
  · have hpow : 2 ^ (attempts - 1) ≤ 2 ^ 31 := Nat.pow_le_pow_right (by decide) (by omega)
    rw [factor_of_le hearly]
    exact (Nat.min_eq_left (by omega)).symm

theorem factor_monotone : Monotone factor := by
  intro earlier later h
  have hpow : 2 ^ (earlier - 1) ≤ 2 ^ (later - 1) := Nat.pow_le_pow_right (by decide) (by omega)
  rw [factor_eq_min, factor_eq_min]
  omega

/-! ### The wait -/

variable (p : Policy) (attempts : Nat)

theorem nanos_waitTime :
    (p.waitTime attempts).nanos = min maxNanos (p.baseWait.nanos * factor attempts) := by
  rw [waitTime, Duration.nanos_scale, Nat.min_comm]

/-- The wait is exact as long as neither the product nor the factor is cut. -/
theorem nanos_waitTime_eq_iff : (p.waitTime attempts).nanos = p.baseWait.nanos * 2 ^ (attempts - 1)
    ↔ p.baseWait.nanos * 2 ^ (attempts - 1) ≤ maxNanos
      ∧ (attempts ≤ 32 ∨ p.baseWait.nanos = 0) := by
  have hmax := (p.waitTime attempts).le_max
  have hwait := p.nanos_waitTime attempts
  constructor
  · intro h
    refine ⟨h ▸ hmax, ?_⟩
    -- a factor that is cut makes less of a base wait that is not zero
    by_contra hcut
    rw [not_or, Nat.not_le] at hcut
    obtain ⟨hlate, hbase⟩ := hcut
    have hless : p.baseWait.nanos * maxCount < p.baseWait.nanos * 2 ^ (attempts - 1) :=
      Nat.mul_lt_mul_of_pos_left (maxCount_lt_pow hlate) (Nat.pos_of_ne_zero hbase)
    rw [factor_of_lt hlate] at hwait
    omega
  · rintro ⟨hfits, hearly | hbase⟩
    · rw [hwait, factor_of_le hearly, Nat.min_eq_right hfits]
    · rw [hwait, hbase, Nat.zero_mul, Nat.zero_mul, Nat.min_zero]

theorem waitTime_monotone : Monotone fun attempts => (p.waitTime attempts).nanos := by
  intro earlier later h
  have hproduct : p.baseWait.nanos * factor earlier ≤ p.baseWait.nanos * factor later :=
    Nat.mul_le_mul_left _ (factor_monotone h)
  simp only [nanos_waitTime]
  omega

variable {p} in
theorem waitTime_le_of_le {q : Policy} (h : p.baseWait.nanos ≤ q.baseWait.nanos) :
    (p.waitTime attempts).nanos ≤ (q.waitTime attempts).nanos := by
  have hproduct : p.baseWait.nanos * factor attempts ≤ q.baseWait.nanos * factor attempts :=
    Nat.mul_le_mul_right _ h
  rw [nanos_waitTime, nanos_waitTime]
  omega

/-- The waits of every policy double until they meet a bound, and never become shorter. -/
theorem backs_off : Backoff p where
  capped attempts := by rw [nanos_waitTime, factor_eq_min, Duration.nanos_greatest]
  carried attempts := by rw [waitTime, Duration.scale_eq_times, factor_eq_min]
  doubled attempts := p.nanos_waitTime_eq_iff attempts
  growing := p.waitTime_monotone
  widening _ attempts := waitTime_le_of_le attempts

/-- The standard policy: half a second, a second, two seconds. -/
example : [1, 2, 3].map (fun attempts => (standard.waitTime attempts).text)
    = ["0.500000000", "1.000000000", "2.000000000"] := by decide +kernel

end Policy

end Retry

end ServiceCall
