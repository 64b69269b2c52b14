import Mathlib.Data.Nat.Find
import ServiceCall.Retry.Run

/-!
# The loop of attempts

A call goes on through failures that may be repeated and ends with the first attempt that is final.
It does the same between any two attempts: it tells a warning and waits. It comes to its end if all
waits that the policy can ask for add up.

The attempts have numbers from one on, and `outcomes k` is the outcome of the attempt behind `k`
others.
-/

namespace ServiceCall.Retry

namespace Policy

/-- The time that is waited up to the attempt behind `k` others, if it is a duration. -/
def waited? (p : Policy) (draw : Nat → Nat) : Nat → Option Duration
  | 0 => some .zero
  | k + 1 => do
    let before ← p.waited? draw k
    let wait ← p.delay? (k + 1) (draw k)
    before.add? wait

theorem waited_succ_eq_some {p : Policy} {draw : Nat → Nat} {k : Nat} {total : Duration} :
    p.waited? draw (k + 1) = some total ↔ ∃ before wait, p.waited? draw k = some before
      ∧ p.delay? (k + 1) (draw k) = some wait ∧ before.add? wait = some total := by
  simp only [waited?, Option.bind_eq_bind, Option.bind_eq_some_iff]
  constructor
  · rintro ⟨before, hbefore, wait, hwait, htotal⟩
    exact ⟨before, wait, hbefore, hwait, htotal⟩
  · rintro ⟨before, wait, hbefore, hwait, htotal⟩
    exact ⟨before, hbefore, wait, hwait, htotal⟩

/-- If the waits add up, so do the first ones of them. -/
theorem exists_waited_of_le {p : Policy} {draw : Nat → Nat} {j k : Nat} (hle : j ≤ k)
    (h : ∃ total, p.waited? draw k = some total) : ∃ total, p.waited? draw j = some total := by
  induction hle with
  | refl => exact h
  | step _ ih =>
    obtain ⟨total, htotal⟩ := h
    obtain ⟨before, -, hbefore, -⟩ := waited_succ_eq_some.mp htotal
    exact ih ⟨before, hbefore⟩

end Policy

namespace Procedure

variable {ρ α : Type} (l : Procedure ρ α) (outcomes : Nat → α) (request : ρ)

/-- The failure of the attempt with a number, if it was one. -/
def failure? (k : Nat) : Option Failure := l.classify (outcomes (k - 1))

/-- The attempt with a number is no failure, or one after which the policy makes no other
attempt. -/
def Final (k : Nat) : Prop :=
  ∀ f, l.failure? outcomes k = some f → l.policy.shouldRetry k f l.method = false

/-- The wait behind `k` attempts and one more. -/
def pause (k : Nat) : Duration := (l.policy.delay? (k + 1) (l.draw k)).getD .zero

/-- What is done from one attempt up to the next, `k` attempts having been made before. -/
def turn (k : Nat) : List (Step ρ) :=
  [.send request, .warn (warning (k + 1) (l.pause k) (l.errorText? (outcomes k))), .wait (l.pause k)]

/-- What is done up to the last attempt, with which the call ends: `count` turns and that attempt,
`k` attempts having been made before. -/
def turns (k count : Nat) : List (Step ρ) :=
  (List.range' k count).flatMap (l.turn outcomes request) ++ [.send request]

variable {l outcomes request}

/-! ### One attempt -/

theorem exists_of_not_final {k : Nat} (h : ¬ l.Final outcomes k) :
    ∃ f, l.failure? outcomes k = some f ∧ l.policy.shouldRetry k f l.method = true := by
  simpa [Final] using h

theorem lt_of_not_final {k : Nat} (h : ¬ l.Final outcomes k) : k < l.policy.maxAttempts := by
  obtain ⟨f, -, hretry⟩ := exists_of_not_final h
  exact Policy.lt_of_shouldRetry hretry

theorem next_of_final {s : State} (hwithin : s.attempts < l.policy.maxAttempts)
    (h : l.Final outcomes (s.attempts + 1)) :
    ∃ next, l.next? s (outcomes s.attempts) = some next ∧ next.attempts = s.attempts + 1
      ∧ ∀ wait, next.phase ≠ .retrying wait := by
  have hcount : s.attempts < maxCount := Nat.lt_of_lt_of_le hwithin l.policy.le_maxCount
  obtain ⟨phase, hphase⟩ : ∃ phase, phase = if l.classify (outcomes s.attempts) = none
      ∨ l.classify (outcomes s.attempts) = some .serviceUnavailable then .succeeded
    else Phase.failed := ⟨_, rfl⟩
  refine ⟨⟨phase, s.attempts + 1, s.waited, hcount⟩,
    (State.advance?_of_end h).mpr ⟨rfl, rfl, hphase⟩, rfl, fun wait (hwait : phase = _) => ?_⟩
  rw [hphase] at hwait
  split at hwait <;> cases hwait

/-- An attempt that another one follows is waited behind, and the waits are added up. -/
theorem next_of_not_final {s : State} (hwaited : l.policy.waited? l.draw s.attempts = some s.waited)
    (h : ¬ l.Final outcomes (s.attempts + 1)) {total : Duration}
    (htotal : l.policy.waited? l.draw (s.attempts + 1) = some total) :
    ∃ next, l.next? s (outcomes s.attempts) = some next ∧ next.attempts = s.attempts + 1
      ∧ next.waited = total ∧ next.phase = .retrying (l.pause s.attempts) := by
  obtain ⟨f, hf, hretry⟩ := exists_of_not_final h
  have hf : l.classify (outcomes s.attempts) = some f := hf
  obtain ⟨before, wait, hbefore, hwait, hsum⟩ := Policy.waited_succ_eq_some.mp htotal
  cases hbefore.symm.trans hwaited
  have hcount : s.attempts < maxCount := Nat.lt_of_lt_of_le
    (Nat.lt_of_succ_lt (Policy.lt_of_shouldRetry hretry)) l.policy.le_maxCount
  refine ⟨⟨_, s.attempts + 1, total, hcount⟩, ?_, rfl, rfl, rfl⟩
  rw [next?, hf, State.advance?_of_retry hretry]
  exact ⟨rfl, wait, hwait, hsum, by rw [pause, hwait, Option.getD_some]⟩

/-- If the waits no longer add up, nothing comes behind it. -/
theorem next_of_endless {s : State} (hwaited : l.policy.waited? l.draw s.attempts = some s.waited)
    (h : ¬ l.Final outcomes (s.attempts + 1))
    (hnone : l.policy.waited? l.draw (s.attempts + 1) = none) :
    l.next? s (outcomes s.attempts) = none := by
  obtain ⟨f, hf, hretry⟩ := exists_of_not_final h
  have hf : l.classify (outcomes s.attempts) = some f := hf
  by_contra hsome
  obtain ⟨next, hnext⟩ := Option.ne_none_iff_exists'.mp hsome
  rw [next?, hf, State.advance?_of_retry hretry] at hnext
  obtain ⟨-, wait, hwait, hsum, -⟩ := hnext
  cases hnone.symm.trans (Policy.waited_succ_eq_some.mpr ⟨_, _, hwaited, hwait, hsum⟩)

variable (outcomes) in
/-- Some attempt is final, since the policy allows only so many. -/
theorem exists_first_final {k : Nat} (hwithin : k < l.policy.maxAttempts) :
    ∃ count, k + count < l.policy.maxAttempts ∧ l.Final outcomes (k + count + 1)
      ∧ ∀ j, k < j → j < k + count + 1 → ¬ l.Final outcomes j := by
  classical
  -- the attempt that uses up the number of attempts is final at the latest
  have hsome : ∃ count, l.Final outcomes (k + count + 1) := by
    refine ⟨l.policy.maxAttempts - k - 1, ?_⟩
    by_contra hmore
    have hlt := lt_of_not_final hmore
    omega
  refine ⟨Nat.find hsome, ?_, Nat.find_spec hsome, ?_⟩
  · rcases Nat.eq_zero_or_pos (Nat.find hsome) with hzero | hpos
    · omega
    · have hbefore := Nat.find_min hsome (Nat.sub_one_lt_of_lt hpos)
      have hlt := lt_of_not_final hbefore
      omega
  · intro j hj hj'
    have hbefore := Nat.find_min hsome (m := j - k - 1) (by omega)
    rwa [show k + (j - k - 1) + 1 = j by omega] at hbefore

/-! ### One turn of the loop -/

theorem runFrom_stop {attempt : ρ} {s next : State}
    (hnext : l.next? s (outcomes s.attempts) = some next)
    (hphase : ∀ wait, next.phase ≠ .retrying wait) :
    l.runFrom outcomes request attempt s = some ⟨[.send attempt], outcomes s.attempts, next⟩ := by
  rw [runFrom]
  split
  · next hnone => cases hnone.symm.trans hnext
  · next state hstate =>
    cases hstate.symm.trans hnext
    split
    · next wait hwait => exact absurd hwait (hphase wait)
    · rfl

theorem runFrom_go {attempt : ρ} {s next : State} {wait : Duration}
    (hcopy : l.copy? request = some request)
    (hnext : l.next? s (outcomes s.attempts) = some next) (hphase : next.phase = .retrying wait) :
    l.runFrom outcomes request attempt s = (l.runFrom outcomes request request next).map fun c =>
      c.behind [.send attempt,
        .warn (warning next.attempts wait (l.errorText? (outcomes s.attempts))), .wait wait] := by
  rw [runFrom]
  split
  · next hnone => cases hnone.symm.trans hnext
  · next state hstate =>
    cases hstate.symm.trans hnext
    split
    · next hwait =>
      cases hwait.symm.trans hphase
      rw [hcopy]
    · next hother => exact absurd hphase (hother wait)

theorem runFrom_none {attempt : ρ} {s : State} (hnext : l.next? s (outcomes s.attempts) = none) :
    l.runFrom outcomes request attempt s = none := by
  rw [runFrom]
  split
  · rfl
  · next state hstate => cases hstate.symm.trans hnext

theorem turns_succ (k count : Nat) : l.turns outcomes request k (count + 1)
    = l.turn outcomes request k ++ l.turns outcomes request (k + 1) count := by
  simp only [turns, List.range'_succ, List.flatMap_cons, List.append_assoc]

/-! ### The whole loop -/

/-- The loop goes on to the first attempt that is final. It has an end just if the waits up to that
attempt add up. -/
theorem runFrom_eq_map (hcopy : l.copy? request = some request) {s : State}
    (hwithin : s.attempts < l.policy.maxAttempts)
    (hwaited : l.policy.waited? l.draw s.attempts = some s.waited) {count : Nat}
    (hfinal : l.Final outcomes (s.attempts + count + 1))
    (hbefore : ∀ k, s.attempts < k → k < s.attempts + count + 1 → ¬ l.Final outcomes k) :
    ∃ last, last.attempts = s.attempts + count + 1
      ∧ l.runFrom outcomes request request s
        = (l.policy.waited? l.draw (s.attempts + count)).map fun _ =>
          ⟨l.turns outcomes request s.attempts count, outcomes (s.attempts + count), last⟩ := by
  -- on the number of attempts to come; behind each, the waits so far are those of the state
  induction count generalizing s with
  | zero =>
    obtain ⟨next, hnext, hattempts, hphase⟩ := next_of_final hwithin hfinal
    exact ⟨next, hattempts, by rw [runFrom_stop hnext hphase, Nat.add_zero, hwaited]; rfl⟩
  | succ count ih =>
    have hfirst := hbefore (s.attempts + 1) (by omega) (by omega)
    cases htotal : l.policy.waited? l.draw (s.attempts + 1) with
    | none =>
      -- the waits that do not add up here do not add up later either
      have hlater : l.policy.waited? l.draw (s.attempts + (count + 1)) = none := by
        by_contra hsome
        obtain ⟨total, hle⟩ := Policy.exists_waited_of_le (j := s.attempts + 1) (by omega)
          (Option.ne_none_iff_exists'.mp hsome)
        cases htotal.symm.trans hle
      have hcount : s.attempts + (count + 1) + 1 ≤ maxCount := Nat.le_trans
        (lt_of_not_final (hbefore (s.attempts + (count + 1)) (by omega) (by omega)))
        l.policy.le_maxCount
      exact ⟨⟨.attempting, _, .zero, hcount⟩, rfl,
        by rw [runFrom_none (next_of_endless hwaited hfirst htotal), hlater]; rfl⟩
    | some total =>
      obtain ⟨next, hnext, hattempts, hsum, hphase⟩ := next_of_not_final hwaited hfirst htotal
      have hindex : s.attempts + (count + 1) = next.attempts + count := by omega
      obtain ⟨last, hlast, hrun⟩ := ih (s := next) (hattempts ▸ lt_of_not_final hfirst)
        (by rw [hattempts, hsum, htotal]) (by simpa only [← hindex] using hfinal)
        (fun k hk hk' => hbefore k (by omega) (by omega))
      refine ⟨last, by rw [hlast, hindex], ?_⟩
      rw [runFrom_go hcopy hnext hphase, hrun, hindex, Option.map_map, turns_succ, hattempts]
      rfl

variable (outcomes request) in
/-- Behind attempts whose waits add up, the loop goes on to the first attempt that is final. -/
theorem runFrom_eq_turns (hcopy : l.copy? request = some request)
    (hfits : ∃ total, l.policy.waited? l.draw (l.policy.maxAttempts - 1) = some total) {s : State}
    (hwithin : s.attempts < l.policy.maxAttempts)
    (hwaited : l.policy.waited? l.draw s.attempts = some s.waited) :
    ∃ count last, l.runFrom outcomes request request s = some
        ⟨l.turns outcomes request s.attempts count, outcomes (s.attempts + count), last⟩
      ∧ last.attempts = s.attempts + count + 1 ∧ l.Final outcomes (s.attempts + count + 1)
      ∧ ∀ k, s.attempts < k → k < s.attempts + count + 1 → ¬ l.Final outcomes k := by
  obtain ⟨count, hlt, hfinal, hbefore⟩ := exists_first_final outcomes hwithin
  obtain ⟨last, hattempts, hrun⟩ := runFrom_eq_map hcopy hwithin hwaited hfinal hbefore
  obtain ⟨total, htotal⟩ := Policy.exists_waited_of_le (j := s.attempts + count) (by omega) hfits
  rw [htotal, Option.map_some] at hrun
  exact ⟨count, last, hrun, hattempts, hfinal, hbefore⟩

/-- If one request is sent in each turn, then one more is sent than there are turns. -/
theorem sent_flatMap {f : Nat → List (Step ρ)}
    (hf : ∀ k, (f k).filterMap Step.request? = [request]) (k count : Nat) :
    ((List.range' k count).flatMap f ++ [Step.send request]).filterMap Step.request?
      = List.replicate (count + 1) request := by
  induction count generalizing k with
  | zero => rfl
  | succ count ih =>
    rw [List.range'_succ, List.flatMap_cons, List.append_assoc, List.filterMap_append, hf, ih]
    rfl

variable (l outcomes request) in
theorem sent_turns (k count : Nat) :
    (l.turns outcomes request k count).filterMap Step.request?
      = List.replicate (count + 1) request :=
  sent_flatMap (fun _ => rfl) k count

theorem target_warning (attempts : Nat) (wait : Duration) (error : Option String) :
    (warning attempts wait error).target = logTarget := by
  cases error <;> rfl

/-- The loop tells nothing but its warnings. -/
theorem target_of_mem_turns {k count : Nat} {x : Log.Record}
    (hx : x ∈ (l.turns outcomes request k count).filterMap Step.record?) : x.target = logTarget := by
  induction count generalizing k with
  | zero => cases hx
  | succ count ih =>
    rw [turns_succ, List.filterMap_append, List.mem_append] at hx
    rcases hx with hx | hx
    · obtain rfl := List.mem_singleton.mp hx
      exact target_warning _ _ _
    · exact ih hx

end Procedure

end ServiceCall.Retry
