import Mathlib.Algebra.GroupWithZero.Nat
import Mathlib.Order.Monotone.Basic
import ServiceCall.Retry.State

/-!
# The waits of a call

The state of a call is told of one attempt after the other, and tells the waits between them. They
stay within a tenth of the wait that the policy names, and they are added up. The wait that the
policy names is cut to the greatest duration, but the jitter on top of it and the sum are not, and
neither is the number of attempts. So there is a next state exactly as long as the attempts can be
counted and everything waited so far is a duration.

An attempt is told by its failure, if it was one, and by the draw for the wait behind it.
-/

namespace ServiceCall.Retry

namespace Policy

/-- How far jitter goes to either side of the wait that the policy names. -/
def spread (p : Policy) (attempts : Nat) : Nat := (p.waitTime attempts).nanos / 10

/-- So many nanoseconds are within a tenth of the wait that the policy names. -/
def IsNear (p : Policy) (attempts nanos : Nat) : Prop :=
  (p.waitTime attempts).nanos - p.spread attempts ≤ nanos
    ∧ nanos ≤ (p.waitTime attempts).nanos + p.spread attempts

/-- The nanoseconds that are waited behind an attempt, whether they are a duration or not. -/
def drawn (p : Policy) (attempts draw : Nat) : Nat :=
  if p.jitter then
    (p.waitTime attempts).nanos - p.spread attempts + draw % (2 * p.spread attempts + 1)
  else (p.waitTime attempts).nanos

/-- The same if the attempt failed in a way that another one follows. -/
def asked (p : Policy) (method : String) (attempts : Nat) (failure : Option Failure) (draw : Nat) :
    Nat :=
  if failure.any (p.shouldRetry attempts · method) then p.drawn attempts draw else 0

/-- What is waited behind attempts in all, `k` others having been made before. -/
def total (p : Policy) (method : String) : Nat → List (Option Failure × Nat) → Nat
  | _, [] => 0
  | k, (failure, draw) :: rest => p.asked method (k + 1) failure draw + p.total method (k + 1) rest

/-- The most that is waited behind an attempt. -/
def longestWait (p : Policy) (attempts : Nat) : Nat :=
  if p.jitter then (p.waitTime attempts).nanos + p.spread attempts else (p.waitTime attempts).nanos

/-- The most that is waited behind `k` attempts. -/
def longest (p : Policy) : Nat → Nat
  | 0 => 0
  | k + 1 => p.longest k + p.longestWait (k + 1)

/-- The service stays unavailable for `count` attempts, and each wait is the longest; `k` other
attempts have been made before. -/
def hardest (p : Policy) (k count : Nat) : List (Option Failure × Nat) :=
  (List.range' (k + 1) count).map fun attempts =>
    (some .serviceUnavailable, 2 * p.spread attempts)

end Policy

namespace State

/-- The states behind attempts, one after the other, if each attempt has one. -/
def run? (p : Policy) (method : String) : State → List (Option Failure × Nat) → Option (List State)
  | _, [] => some []
  | s, (failure, draw) :: rest => do
    let next ← s.advance? p method draw failure
    let later ← next.run? p method rest
    return next :: later

/-- The nanoseconds that are waited in a state. -/
def wait (s : State) : Nat :=
  match s.phase with
  | .retrying wait => wait.nanos
  | _ => 0

end State

/-- The waits of a run are within a tenth of those that the policy names, and each state has the sum
of the waits so far. -/
structure Timed (p : Policy) (states : List State) : Prop where
  near (s : State) (wait : Duration) :
    s ∈ states → s.phase = .retrying wait → p.IsNear s.attempts wait.nanos
  summed (before : List State) (s : State) (later : List State) : states = before ++ s :: later →
    s.waited.nanos = min ((before ++ [s]).map State.wait).sum maxNanos

variable {p : Policy} {method : String} {failure : Option Failure} {draw attempts : Nat}
  {s next : State} {inputs : List (Option Failure × Nat)} {states : List State} {wait : Duration}

/-! ### One wait -/

namespace Policy

theorem spread_le (p : Policy) (attempts : Nat) :
    p.spread attempts ≤ (p.waitTime attempts).nanos :=
  Nat.div_le_self _ _

theorem draw_le (p : Policy) (attempts draw : Nat) :
    draw % (2 * p.spread attempts + 1) ≤ 2 * p.spread attempts :=
  Nat.le_of_lt_succ (Nat.mod_lt _ (Nat.succ_pos _))

theorem drawn_le_longestWait (p : Policy) (attempts draw : Nat) :
    p.drawn attempts draw ≤ p.longestWait attempts := by
  have hdraw := p.draw_le attempts draw
  have hspread := p.spread_le attempts
  simp only [drawn, longestWait]
  split <;> omega

theorem isNear_drawn (p : Policy) (attempts draw : Nat) :
    p.IsNear attempts (p.drawn attempts draw) := by
  have hdraw := p.draw_le attempts draw
  have hspread := p.spread_le attempts
  simp only [IsNear, drawn]
  split <;> omega

/-- The greatest draw makes for the longest wait. -/
theorem drawn_greatest (p : Policy) (attempts : Nat) :
    p.drawn attempts (2 * p.spread attempts) = p.longestWait attempts := by
  have hspread := p.spread_le attempts
  simp only [drawn, longestWait, Nat.mod_eq_of_lt (Nat.lt_succ_self (2 * p.spread attempts))]
  split <;> omega

/-- There is a wait exactly if it is a duration, the jitter on top included. -/
theorem delay_eq_some_iff :
    p.delay? attempts draw = some wait ↔ wait.nanos = p.drawn attempts draw := by
  cases hjitter : p.jitter with
  | false => simp [delay?, drawn, hjitter, Duration.eq_iff, eq_comm]
  | true =>
    have hmax := (p.waitTime attempts).le_max
    have hspread : (p.waitTime attempts).nanos / 10 ≤ (p.waitTime attempts).nanos :=
      p.spread_le attempts
    -- the jitter alone is a duration, so it is not cut
    have hoffset : min (draw % (2 * ((p.waitTime attempts).nanos / 10) + 1)) maxNanos
        = draw % (2 * ((p.waitTime attempts).nanos / 10) + 1) := by
      have hdraw := p.draw_le attempts draw
      simp only [spread] at hdraw
      omega
    simp [delay?, drawn, spread, hjitter, Duration.sub?, Duration.part, Duration.saturating,
      hspread, hoffset, Duration.add_eq_some_iff]

end Policy

/-! ### One attempt -/

namespace State

/-- What an attempt does to the state: it is counted, and the wait behind it is added up. -/
theorem advance_spec (h : s.advance? p method draw failure = some next) :
    next.attempts = s.attempts + 1
      ∧ next.wait = p.asked method (s.attempts + 1) failure draw
      ∧ next.waited.nanos = s.waited.nanos + next.wait
      ∧ ∀ wait, next.phase = .retrying wait → wait.nanos = p.drawn (s.attempts + 1) draw := by
  by_cases hretry : failure.any (p.shouldRetry (s.attempts + 1) · method) = true
  · obtain ⟨f, rfl, hf⟩ := (Option.any_eq_true _ _).mp hretry
    obtain ⟨hattempts, wait, hdelay, hsum, hphase⟩ := (advance?_of_retry hf).mp h
    have hdrawn := Policy.delay_eq_some_iff.mp hdelay
    have hwait : next.wait = wait.nanos := by rw [State.wait, hphase]
    refine ⟨hattempts, ?_, ?_, fun other hother => ?_⟩
    · rw [hwait, hdrawn, Policy.asked, if_pos hretry]
    · rw [hwait, Duration.add_eq_some_iff.mp hsum]
    · cases hphase.symm.trans hother
      exact hdrawn
  · have hend : ∀ f, failure = some f → p.shouldRetry (s.attempts + 1) f method = false :=
      fun f hf => by simpa [hf] using hretry
    obtain ⟨hattempts, hwaited, hphase⟩ := (advance?_of_end hend).mp h
    have hwait : next.wait = 0 := by
      rw [State.wait, hphase]
      by_cases hgood : failure = none ∨ failure = some .serviceUnavailable <;> simp [hgood]
    refine ⟨hattempts, ?_, ?_, fun wait hother => ?_⟩
    · rw [hwait, Policy.asked, if_neg hretry]
    · rw [hwait, hwaited, Nat.add_zero]
    · rw [hphase] at hother
      split at hother <;> cases hother

/-- An attempt has a next state exactly if it can be counted, and what is waited with the wait behind it
is a duration. -/
theorem exists_advance_iff : (∃ next, s.advance? p method draw failure = some next)
    ↔ s.attempts < maxCount
      ∧ s.waited.nanos + p.asked method (s.attempts + 1) failure draw ≤ maxNanos := by
  constructor
  · rintro ⟨next, hnext⟩
    obtain ⟨hattempts, hwait, hwaited, -⟩ := advance_spec hnext
    have hbound := next.attempts_le
    rw [← hwait, ← hwaited]
    exact ⟨by omega, next.waited.le_max⟩
  · rintro ⟨hcount, hfits⟩
    -- the next state is written down in both cases: the two bounds are what its parts ask for
    by_cases hretry : failure.any (p.shouldRetry (s.attempts + 1) · method) = true
    · rw [Policy.asked, if_pos hretry] at hfits
      obtain ⟨f, rfl, hf⟩ := (Option.any_eq_true _ _).mp hretry
      have hmax : p.drawn (s.attempts + 1) draw ≤ maxNanos := by omega
      exact ⟨⟨.retrying ⟨_, hmax⟩, s.attempts + 1, ⟨_, hfits⟩, hcount⟩,
        (advance?_of_retry hf).mpr ⟨rfl, _, Policy.delay_eq_some_iff.mpr rfl,
          Duration.add_eq_some_iff.mpr rfl, rfl⟩⟩
    · have hend : ∀ f, failure = some f → p.shouldRetry (s.attempts + 1) f method = false :=
        fun f hf => by simpa [hf] using hretry
      exact ⟨⟨_, s.attempts + 1, s.waited, hcount⟩, (advance?_of_end hend).mpr ⟨rfl, rfl, rfl⟩⟩

/-! ### A run of attempts -/

theorem run_cons_eq_some_iff : s.run? p method ((failure, draw) :: inputs) = some states
    ↔ ∃ next later, s.advance? p method draw failure = some next
      ∧ next.run? p method inputs = some later ∧ states = next :: later := by
  simp only [run?, Option.bind_eq_bind, Option.bind_eq_some_iff, Option.pure_def, Option.some.injEq]
  constructor
  · rintro ⟨next, hnext, later, hlater, rfl⟩
    exact ⟨next, later, hnext, hlater, rfl⟩
  · rintro ⟨next, later, hnext, hlater, rfl⟩
    exact ⟨next, hnext, later, hlater, rfl⟩

/-- Every wait is within a tenth of the one that the policy names. -/
theorem near_of_run (h : s.run? p method inputs = some states) (hmem : next ∈ states)
    (hphase : next.phase = .retrying wait) : p.IsNear next.attempts wait.nanos := by
  induction inputs generalizing s states with
  | nil =>
    cases h
    cases hmem
  | cons input inputs ih =>
    obtain ⟨failure, draw⟩ := input
    obtain ⟨first, later, hfirst, hlater, rfl⟩ := run_cons_eq_some_iff.mp h
    rcases List.mem_cons.mp hmem with rfl | hmem
    · obtain ⟨hattempts, -, -, hdrawn⟩ := advance_spec hfirst
      rw [hdrawn wait hphase, hattempts]
      exact p.isNear_drawn _ _
    · exact ih hlater hmem

/-- What is waited up to a state is what was waited before the run, and all waits since then. -/
theorem waited_of_run {before later : List State}
    (h : s.run? p method inputs = some (before ++ next :: later)) :
    next.waited.nanos = s.waited.nanos + ((before ++ [next]).map State.wait).sum := by
  induction inputs generalizing s before with
  | nil => simp [run?] at h
  | cons input inputs ih =>
    obtain ⟨failure, draw⟩ := input
    obtain ⟨first, rest, hfirst, hrest, heq⟩ := run_cons_eq_some_iff.mp h
    obtain ⟨-, -, hwaited, -⟩ := advance_spec hfirst
    cases before with
    | nil =>
      obtain ⟨rfl, -⟩ := List.cons.inj heq
      simpa using hwaited
    | cons _ before =>
      obtain ⟨rfl, rfl⟩ := List.cons.inj heq
      rw [ih hrest, hwaited]
      simp [Nat.add_assoc]

theorem timed_of_run (h : ({} : State).run? p method inputs = some states) : Timed p states where
  near _ _ := near_of_run h
  summed before next later heq := by
    have hwaited := waited_of_run (heq ▸ h)
    have hmax := next.waited.le_max
    simp only [Duration.zero, Nat.zero_add] at hwaited
    omega

/-- A run has all its states exactly if its attempts can be counted, and what is waited in the end is a
duration. -/
theorem exists_run_iff (s : State) (p : Policy) (method : String)
    (inputs : List (Option Failure × Nat)) : (∃ states, s.run? p method inputs = some states)
    ↔ s.attempts + inputs.length ≤ maxCount
      ∧ s.waited.nanos + p.total method s.attempts inputs ≤ maxNanos := by
  induction inputs generalizing s with
  | nil => simp [run?, Policy.total, s.waited.le_max, s.attempts_le]
  | cons input inputs ih =>
    obtain ⟨failure, draw⟩ := input
    rw [Policy.total, ← Nat.add_assoc, List.length_cons, Nat.add_comm inputs.length, ← Nat.add_assoc]
    -- the first attempt leads to a state from which the rest of the run is one attempt shorter
    constructor
    · rintro ⟨states, h⟩
      obtain ⟨next, later, hnext, hlater, -⟩ := run_cons_eq_some_iff.mp h
      obtain ⟨hattempts, hwait, hwaited, -⟩ := advance_spec hnext
      rw [← hwait, ← hwaited, ← hattempts]
      exact (ih next).mp ⟨later, hlater⟩
    · rintro ⟨hcount, hfits⟩
      obtain ⟨next, hnext⟩ :=
        exists_advance_iff.mpr ⟨by omega, Nat.le_trans (Nat.le_add_right _ _) hfits⟩
      obtain ⟨hattempts, hwait, hwaited, -⟩ := advance_spec hnext
      rw [← hattempts] at hcount
      rw [← hwait, ← hwaited, ← hattempts] at hfits
      obtain ⟨later, hlater⟩ := (ih next).mpr ⟨hcount, hfits⟩
      exact ⟨next :: later, run_cons_eq_some_iff.mpr ⟨next, later, hnext, hlater, rfl⟩⟩

end State

/-! ### The longest waits -/

namespace Policy

theorem longest_mono (p : Policy) : Monotone p.longest :=
  monotone_nat_of_le_succ fun _ => Nat.le_add_right _ _

/-- No attempts are waited for longer than all that the policy allows. -/
theorem total_le_longest (p : Policy) (method : String) (k : Nat)
    (inputs : List (Option Failure × Nat)) :
    p.longest (min k (p.maxAttempts - 1)) + p.total method k inputs
      ≤ p.longest (p.maxAttempts - 1) := by
  induction inputs generalizing k with
  | nil => exact p.longest_mono (Nat.min_le_right _ _)
  | cons input inputs ih =>
    obtain ⟨failure, draw⟩ := input
    rw [total, ← Nat.add_assoc]
    refine Nat.le_trans (Nat.add_le_add_right ?_ _) (ih (k + 1))
    unfold asked
    split
    · next hretry =>
      obtain ⟨f, -, hf⟩ := (Option.any_eq_true _ _).mp hretry
      have hlt := lt_of_shouldRetry hf
      rw [Nat.min_eq_left (by omega), Nat.min_eq_left (by omega), longest]
      exact Nat.add_le_add_left (p.drawn_le_longestWait _ _) _
    · -- an attempt without a wait behind it counts, so that a longest wait goes unused
      exact p.longest_mono (by omega)

/-- A service that stays unavailable is waited for as long as the policy allows. -/
theorem total_hardest (p : Policy) (method : String) {k count : Nat}
    (hwithin : k + count < p.maxAttempts) :
    p.longest k + p.total method k (p.hardest k count) = p.longest (k + count) := by
  induction count generalizing k with
  | zero => rfl
  | succ count ih =>
    have hretry : p.shouldRetry (k + 1) .serviceUnavailable method = true := by
      simp [shouldRetry, show ¬ p.maxAttempts ≤ k + 1 by omega]
    have hrest := ih (k := k + 1) (by omega)
    rw [longest, hardest] at hrest
    simp only [hardest, List.range'_succ, List.map_cons, total, asked, Option.any_some, hretry,
      if_true, drawn_greatest]
    rw [← Nat.add_assoc, hrest]
    congr 1
    omega

end Policy

/-- A run that comes to its end is timed as it should be. It does so exactly if its attempts can be
counted in 32 bits and all that it waits for is a duration, and every run of countable length does so
if the longest waits that the policy allows are one together. -/
theorem timed_runs_iff (p : Policy) (method : String) :
    (∀ inputs states, ({} : State).run? p method inputs = some states → Timed p states)
      ∧ (∀ inputs, (∃ states, ({} : State).run? p method inputs = some states)
        ↔ inputs.length < 2 ^ 32 ∧ p.total method 0 inputs ≤ maxNanos)
      ∧ ((∀ inputs, inputs.length < 2 ^ 32 →
          ∃ states, ({} : State).run? p method inputs = some states ∧ Timed p states)
        ↔ p.longest (p.maxAttempts - 1) ≤ maxNanos) := by
  have hends (inputs : List (Option Failure × Nat)) :
      (∃ states, ({} : State).run? p method inputs = some states)
        ↔ inputs.length < 2 ^ 32 ∧ p.total method 0 inputs ≤ maxNanos := by
    rw [← le_maxCount_iff]
    simpa [Duration.zero] using ({} : State).exists_run_iff p method inputs
  refine ⟨fun _ _ => State.timed_of_run, hends, ?_⟩
  constructor
  · intro hall
    -- the longest waits are those of a service that stays unavailable
    have hlength : (p.hardest 0 (p.maxAttempts - 1)).length < 2 ^ 32 := by
      have hbound := le_maxCount_iff.mp p.le_maxCount
      simp only [Policy.hardest, List.length_map, List.length_range']
      omega
    obtain ⟨states, hstates, -⟩ := hall _ hlength
    have hpos := p.one_le
    have hwithin : 0 + (p.maxAttempts - 1) < p.maxAttempts := by omega
    have hhardest := p.total_hardest method hwithin
    simp only [Policy.longest, Nat.zero_add] at hhardest
    rw [← hhardest]
    exact ((hends _).mp ⟨states, hstates⟩).2
  · intro hfits inputs hlength
    have hle := p.total_le_longest method 0 inputs
    simp only [Nat.zero_min, Policy.longest, Nat.zero_add] at hle
    obtain ⟨states, hstates⟩ := (hends inputs).mpr ⟨hlength, Nat.le_trans hle hfits⟩
    exact ⟨states, hstates, State.timed_of_run hstates⟩

/-- The standard policy waits for one second and a half at most. -/
example : Policy.standard.longest (Policy.standard.maxAttempts - 1) = 1500 * 10 ^ 6 := by decide

/-- Eleven attempts with the longest base wait in milliseconds: behind the tenth of them the waits
are no duration any more. -/
theorem eleven_attempts_no_run :
    ({} : State).run? (Policy.make 11 (Duration.ofMillis (2 ^ 64 - 1)) false) "GET"
      (List.replicate 10 (some .serviceUnavailable, 0)) = none := by
  decide

end ServiceCall.Retry
