import ServiceCall.Retry.Policy

/-!
# The course of one call

Attempts are counted and waits added up, both within bounds. A service that stays unavailable until the
last attempt has still answered, so the call does not fail.
-/

namespace ServiceCall.Retry

/-- Where a call stands. -/
inductive Phase where
  | attempting
  | retrying (wait : Duration)
  | succeeded
  | failed
deriving DecidableEq, Repr

/-- What has happened in a call. -/
structure State where
  phase : Phase := .attempting
  attempts : Nat := 0
  waited : Duration := .zero
  attempts_le : attempts ≤ maxCount := by decide
deriving Repr

/-- The state with one more attempt; none is counted behind the greatest number. -/
def State.count? (s : State) : Option State :=
  if h : s.attempts < maxCount then some { s with attempts := s.attempts + 1, attempts_le := h }
  else none

/-- The state behind an attempt that failed or not; there is none if the attempts are no longer counted
or the waits no longer add up to a duration. -/
def State.advance? (s : State) (p : Policy) (method : String) (draw : Nat)
    (failure : Option Failure) : Option State := do
  let s ← s.count?
  -- the attempt is counted first: the policy is asked with the new number
  match failure with
  | none => return { s with phase := .succeeded }
  | some f =>
    if p.shouldRetry s.attempts f method then
      let wait ← p.delay? s.attempts draw
      let waited ← s.waited.add? wait
      return { s with phase := .retrying wait, waited }
    else
      -- an answer that the service is not available is still an answer
      return { s with phase := if f = .serviceUnavailable then .succeeded else .failed }

namespace State

variable {s next : State} {p : Policy} {method : String} {draw : Nat} {failure : Option Failure}

theorem eq_iff : s = next
    ↔ s.phase = next.phase ∧ s.attempts = next.attempts ∧ s.waited = next.waited := by
  cases s
  cases next
  simp

instance : DecidableEq State := fun _ _ => decidable_of_iff' _ eq_iff

theorem count?_eq_some_iff : s.count? = some next
    ↔ next.attempts = s.attempts + 1 ∧ next.phase = s.phase ∧ next.waited = s.waited := by
  have hbound := next.attempts_le
  rw [count?]
  split
  · simp [eq_iff, eq_comm, and_left_comm]
  · next hend =>
    simp only [reduceCtorEq, false_iff]
    rintro ⟨hattempts, -⟩
    omega

/-- An attempt that another one follows: it is waited behind, and the wait is added up. -/
theorem advance?_of_retry {f : Failure} (h : p.shouldRetry (s.attempts + 1) f method = true) :
    s.advance? p method draw (some f) = some next
      ↔ next.attempts = s.attempts + 1 ∧ ∃ wait, p.delay? (s.attempts + 1) draw = some wait
        ∧ s.waited.add? wait = some next.waited ∧ next.phase = .retrying wait := by
  simp only [advance?, Option.bind_eq_bind, Option.bind_eq_some_iff, count?_eq_some_iff]
  constructor
  · rintro ⟨counted, ⟨hattempts, -, hwaited⟩, hrest⟩
    rw [← hattempts] at h ⊢
    simp only [h, if_true, Option.bind_eq_some_iff, hwaited] at hrest
    obtain ⟨wait, hwait, total, htotal, hnext⟩ := hrest
    cases hnext
    exact ⟨rfl, wait, hwait, htotal, rfl⟩
  · rintro ⟨hattempts, wait, hwait, htotal, hphase⟩
    refine ⟨{ next with phase := s.phase, waited := s.waited }, ⟨hattempts, rfl, rfl⟩, ?_⟩
    rw [← hattempts] at h hwait
    simp only [h, if_true, hwait, htotal, Option.bind_some, ← hphase]
    rfl

/-- An attempt that no other one follows. -/
theorem advance?_of_end (h : ∀ f, failure = some f → p.shouldRetry (s.attempts + 1) f method = false) :
    s.advance? p method draw failure = some next
      ↔ next.attempts = s.attempts + 1 ∧ next.waited = s.waited
        ∧ next.phase = if failure = none ∨ failure = some .serviceUnavailable then .succeeded
          else .failed := by
  simp only [advance?, Option.bind_eq_bind, Option.bind_eq_some_iff, count?_eq_some_iff]
  constructor
  · rintro ⟨counted, ⟨hattempts, -, hwaited⟩, hrest⟩
    rw [← hattempts] at h ⊢
    cases failure with
    | none =>
      cases hrest
      exact ⟨rfl, hwaited, rfl⟩
    | some f =>
      simp only [h f rfl, Bool.false_eq_true, if_false] at hrest
      cases hrest
      exact ⟨rfl, hwaited, by simp⟩
  · rintro ⟨hattempts, hwaited, hphase⟩
    refine ⟨{ next with phase := s.phase }, ⟨hattempts, rfl, hwaited⟩, ?_⟩
    rw [← hattempts] at h
    cases failure with
    | none =>
      simp only [true_or, if_true] at hphase
      rw [← hphase]
      rfl
    | some f =>
      simp only [reduceCtorEq, Option.some.injEq, false_or] at hphase
      simp only [h f rfl, Bool.false_eq_true, if_false, ← hphase]
      rfl

/-- A call goes on only while the policy allows more attempts than were made. -/
theorem attempts_of_retrying {wait : Duration} (h : s.advance? p method draw failure = some next)
    (hphase : next.phase = .retrying wait) :
    next.attempts = s.attempts + 1 ∧ s.attempts + 1 < p.maxAttempts := by
  by_cases hretry : failure.any (p.shouldRetry (s.attempts + 1) · method) = true
  · obtain ⟨f, rfl, hretry⟩ := (Option.any_eq_true _ _).mp hretry
    exact ⟨((advance?_of_retry hretry).mp h).1, Policy.lt_of_shouldRetry hretry⟩
  · obtain ⟨-, -, hended⟩ := (advance?_of_end fun f hf => by simpa [hf] using hretry).mp h
    rw [hphase] at hended
    split at hended <;> cases hended

end State

end ServiceCall.Retry
