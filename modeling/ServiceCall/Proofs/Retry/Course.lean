import Mathlib.Order.Bounds.Basic
import ServiceCall.Http.Network
import ServiceCall.Proofs.Retry.Loop

/-!
# The course of a call

Without jitter the waits are known beforehand: the policy and the number of the attempt settle them.
So all that a call does between its first attempt and its last can be written down.
-/

namespace ServiceCall.Retry

/-- The nanoseconds that are waited up to the attempt behind `k` others. -/
def Policy.spent (p : Policy) : Nat → Nat
  | 0 => 0
  | k + 1 => p.spent k + (p.waitTime (k + 1)).nanos

theorem Policy.delay_of_steady {p : Policy} (h : p.jitter = false) (attempts draw : Nat) :
    p.delay? attempts draw = some (p.waitTime attempts) := by
  simp [Policy.delay?, h]

theorem Policy.waited_of_steady {p : Policy} (hsteady : p.jitter = false) (draw : Nat → Nat) {k : Nat}
    (hfits : p.spent k ≤ maxNanos) : p.waited? draw k = some ⟨p.spent k, hfits⟩ := by
  induction k with
  | zero => rfl
  | succ k ih =>
    have hbefore : p.spent k ≤ maxNanos := Nat.le_trans (Nat.le_add_right _ _) hfits
    exact Policy.waited_succ_eq_some.mpr ⟨_, _, ih hbefore,
      Policy.delay_of_steady hsteady (k + 1) (draw k), Duration.add_eq_some_iff.mpr rfl⟩

namespace Procedure

variable {ρ α : Type} (l : Procedure ρ α) (outcomes : Nat → α) (request : ρ)

/-- What is done from one attempt up to the next, `k` attempts having been made before. -/
def round (k : Nat) : List (Step ρ) :=
  [.send request,
    .warn (warning (k + 1) (l.policy.waitTime (k + 1)) (l.errorText? (outcomes k))),
    .wait (l.policy.waitTime (k + 1))]

/-- What is done up to the last attempt, with which the call ends: `count` rounds and that attempt,
`k` attempts having been made before. -/
def rounds (k count : Nat) : List (Step ρ) :=
  (List.range' k count).flatMap (l.round outcomes request) ++ [.send request]

variable {l outcomes request}

theorem turns_of_steady (hsteady : l.policy.jitter = false) :
    l.turns outcomes request = l.rounds outcomes request := by
  have hpause (k : Nat) : l.pause k = l.policy.waitTime (k + 1) := by
    rw [pause, Policy.delay_of_steady hsteady, Option.getD_some]
  have hturn : l.turn outcomes request = l.round outcomes request := by
    funext k
    rw [turn, round, hpause]
  funext k count
  rw [turns, rounds, hturn]

variable (outcomes) in
/-- Behind attempts whose waits add up, the loop goes on to the first attempt that is final. -/
theorem runFrom_eq_some (hcopy : l.copy? request = some request) (hsteady : l.policy.jitter = false)
    (hfits : l.policy.spent (l.policy.maxAttempts - 1) ≤ maxNanos) {s : State}
    (hwithin : s.attempts < l.policy.maxAttempts)
    (hwaited : s.waited.nanos = l.policy.spent s.attempts) :
    ∃ count last, l.runFrom outcomes request request s = some
        ⟨l.rounds outcomes request s.attempts count, outcomes (s.attempts + count), last⟩
      ∧ last.attempts = s.attempts + count + 1 ∧ l.Final outcomes (s.attempts + count + 1)
      ∧ ∀ k, s.attempts < k → k < s.attempts + count + 1 → ¬ l.Final outcomes k := by
  have hbefore : l.policy.spent s.attempts ≤ maxNanos := hwaited ▸ s.waited.le_max
  have hwaited' : l.policy.waited? l.draw s.attempts = some s.waited := by
    rw [Policy.waited_of_steady hsteady l.draw hbefore]
    simp only [← hwaited]
  rw [← turns_of_steady hsteady]
  exact runFrom_eq_turns outcomes request hcopy ⟨_, Policy.waited_of_steady hsteady l.draw hfits⟩
    hwithin hwaited'

variable (l outcomes request) in
theorem sent_rounds (k count : Nat) :
    (l.rounds outcomes request k count).filterMap Step.request?
      = List.replicate (count + 1) request :=
  sent_flatMap (fun _ => rfl) k count

end Procedure

end ServiceCall.Retry

namespace ServiceCall.Http

open Retry

/-- The attempt fails on the network, before an answer or while the body of one is read. -/
inductive Fails : Outcome → NetworkError → Prop
  | early (e : NetworkError) : Fails (.error e) e
  | late {answer : Answer} {e : NetworkError} (hbody : answer.body = .error e) : Fails (.ok answer) e

/-- The attempt brings an answer with the whole of its body. -/
def Answers (o : Outcome) (answer : Answer) : Prop :=
  o = .ok answer ∧ ∃ body, answer.body = .ok body

/-- Another attempt may follow: the service is not available, or the connection failed, or there was
no end of the answer in time and the request is safe to repeat. -/
inductive Repeatable (method : String) (o : Outcome) : Prop
  | unavailable {answer : Answer} (h : Answers o answer) (hstatus : answer.status = 503)
  | lost {e : NetworkError} (h : Fails o e)
      (hfault : e.fault ∈ [.connect, .connectTimeout, .reset, .bodyUnsent])
  | slow {e : NetworkError} (h : Fails o e) (hfault : e.fault = .timeout) (hmethod : method ≠ "POST")

/-- The warning behind the attempt with number `k`, before a wait. -/
inductive Warns (k : Nat) (wait : Duration) (o : Outcome) : Log.Record → Prop
  | failed {e : NetworkError} (h : Fails o e) :
      Warns k wait o ⟨.warn, "ws_client::http::retry", "http communication failed, retry soon",
        [("error_code", "HTTP_COMMUNICATION_FAILED"), ("attempts", toString k),
          ("wait_ms", toString (wait.nanos / 10 ^ 6 % 2 ^ 64)), ("error", e.text)]⟩
  | unavailable {answer : Answer} (h : Answers o answer) (hstatus : answer.status = 503) :
      Warns k wait o ⟨.warn, "ws_client::http::retry", "service unavailable, retry soon",
        [("error_code", "HTTP_COMMUNICATION_FAILED"), ("attempts", toString k),
          ("wait_ms", toString (wait.nanos / 10 ^ 6 % 2 ^ 64))]⟩

/-- A course of `n` attempts on a request, of at most `budget`. -/
structure MakesAttempts {ρ : Type} (budget : Nat) (wait : Nat → Duration) (method : String)
    (script : Nat → Outcome) (request : ρ) (n : Nat) (course : Course ρ Outcome) : Prop where
  /-- The last attempt is the first one that is not repeated. -/
  first : IsLeast {k | 1 ≤ k ∧ (Repeatable method (script (k - 1)) → budget ≤ k)} n
  within : 1 ≤ n ∧ n ≤ budget
  earlier (k : Nat) : 1 ≤ k → k < n → Repeatable method (script (k - 1))
  /-- An answer of any other status is the last one. -/
  usable (k : Nat) (answer : Answer) :
    1 ≤ k → Answers (script (k - 1)) answer → answer.status ≠ 503 → n ≤ k
  answered (answer : Answer) : Answers (script (n - 1)) answer → course.outcome = .ok answer
  failed (e : NetworkError) : Fails (script (n - 1)) e → course.outcome = .error e
  counted : course.state.attempts = n
  sent : course.sent = List.replicate n request
  /-- Between two attempts there is one warning, and one wait. -/
  steps : ∃ told : Nat → Log.Record,
    course.steps = (List.range' 1 (n - 1)).flatMap
        (fun k => [.send request, .warn (told k), .wait (wait k)]) ++ [.send request]
      ∧ ∀ k, 1 ≤ k → k < n → Warns k (wait k) (script (k - 1)) (told k)

variable {o : Outcome} {e : NetworkError} {answer : Answer} {method : String}

/-! ### One attempt -/

theorem fails_or_answers (o : Outcome) : (∃ e, Fails o e) ∨ ∃ answer, Answers o answer := by
  cases o with
  | error e => exact .inl ⟨e, .early e⟩
  | ok answer =>
    cases hbody : answer.body with
    | error e => exact .inl ⟨e, .late hbody⟩
    | ok body => exact .inr ⟨answer, rfl, body, hbody⟩

theorem buffer_of_fails (h : Fails o e) : buffer o = .error e := by
  cases h with
  | early => rfl
  | late hbody => simp only [buffer, hbody]

theorem buffer_of_answers (h : Answers o answer) : buffer o = .ok answer := by
  obtain ⟨rfl, body, hbody⟩ := h
  simp only [buffer, hbody]

theorem repeatable_of_fails_iff (h : Fails o e) : Repeatable method o
    ↔ e.fault ∈ [.connect, .connectTimeout, .reset, .bodyUnsent]
      ∨ e.fault = .timeout ∧ method ≠ "POST" := by
  have hbuffer := buffer_of_fails h
  constructor
  · rintro (⟨ha, -⟩ | ⟨he, hfault⟩ | ⟨he, hfault, hmethod⟩)
    · cases hbuffer.symm.trans (buffer_of_answers ha)
    · cases hbuffer.symm.trans (buffer_of_fails he)
      exact .inl hfault
    · cases hbuffer.symm.trans (buffer_of_fails he)
      exact .inr ⟨hfault, hmethod⟩
  · rintro (hfault | ⟨hfault, hmethod⟩)
    · exact .lost h hfault
    · exact .slow h hfault hmethod

theorem repeatable_of_answers_iff (h : Answers o answer) :
    Repeatable method o ↔ answer.status = 503 := by
  have hbuffer := buffer_of_answers h
  constructor
  · rintro (⟨ha, hstatus⟩ | ⟨he, -⟩ | ⟨he, -, -⟩)
    · cases hbuffer.symm.trans (buffer_of_answers ha)
      exact hstatus
    · cases hbuffer.symm.trans (buffer_of_fails he)
    · cases hbuffer.symm.trans (buffer_of_fails he)
  · exact .unavailable h

/-- The policy makes another attempt just behind one that is repeatable, up to its number of them. -/
theorem shouldRetry_iff {policy : Policy} {k : Nat} :
    (∃ f, classify (buffer o) = some f ∧ policy.shouldRetry k f method = true)
      ↔ Repeatable method o ∧ k < policy.maxAttempts := by
  rcases fails_or_answers o with ⟨e, he⟩ | ⟨answer, ha⟩
  · rw [buffer_of_fails he, repeatable_of_fails_iff he]
    -- each fault is of one kind
    cases hfault : e.fault <;>
      simp [classify, hfault, NetworkFault.failure, NetworkFault.isTimeout, NetworkFault.isConnect,
        NetworkFault.isBody, NetworkFault.isTransient, Policy.shouldRetry, Policy.onceOnlyMethod,
        and_comm]
  · rw [buffer_of_answers ha, repeatable_of_answers_iff ha]
    by_cases hstatus : answer.status = 503 <;>
      simp [classify, unavailableStatus, hstatus, Policy.shouldRetry]

theorem final_iff {ρ : Type} {policy : Policy} {copy? : ρ → Option ρ} {draw : Nat → Nat}
    {script : Nat → Outcome} {k : Nat} :
    (procedure policy method copy? draw).Final (fun j => buffer (script j)) k
      ↔ (Repeatable method (script (k - 1)) → policy.maxAttempts ≤ k) := by
  rw [← not_iff_not, Classical.not_imp, Nat.not_le, ← shouldRetry_iff]
  simp [Procedure.Final, Procedure.failure?, procedure]

theorem warns_of_repeatable (h : Repeatable method o) (k : Nat) (wait : Duration) :
    Warns k wait o (warning k wait (errorText? (buffer o))) := by
  rcases fails_or_answers o with ⟨e, he⟩ | ⟨answer, ha⟩
  · rw [buffer_of_fails he]
    exact .failed he
  · rw [buffer_of_answers ha]
    exact .unavailable ha ((repeatable_of_answers_iff ha).mp h)

theorem attempts_of_warns {k : Nat} {wait : Duration} {record : Log.Record}
    (h : Warns k wait o record) : ("attempts", toString k) ∈ record.fields := by
  cases h <;> simp

/-! ### All attempts -/

/-- The rounds of a course, told by the numbers of their attempts. -/
theorem rounds_eq {ρ : Type} (l : Procedure ρ Outcome) (outcomes : Nat → Outcome) (request : ρ)
    (count : Nat) : l.rounds outcomes request 0 count
      = (List.range' 1 count).flatMap (fun k => [.send request,
          .warn (warning k (l.policy.waitTime k) (l.errorText? (outcomes (k - 1)))),
          .wait (l.policy.waitTime k)]) ++ [.send request] := by
  -- the loop counts attempts from zero, the warnings from one
  have hround (k : Nat) : l.round outcomes request k = [.send request,
      .warn (warning (1 + k) (l.policy.waitTime (1 + k)) (l.errorText? (outcomes (1 + k - 1)))),
      .wait (l.policy.waitTime (1 + k))] := by
    rw [Procedure.round, Nat.add_comm 1 k, Nat.add_sub_cancel]
  rw [Procedure.rounds, ← Nat.add_zero 1, ← List.map_add_range', List.flatMap_map, funext hround]

theorem exists_makesAttempts {ρ : Type} {policy : Policy} (hsteady : policy.jitter = false)
    (method : String) {copy? : ρ → Option ρ} (draw : Nat → Nat) (script : Nat → Outcome) {request : ρ}
    (hcopy : copy? request = some request)
    (hfits : policy.spent (policy.maxAttempts - 1) ≤ maxNanos) :
    ∃ n course, passage? policy method copy? draw script request = some course
      ∧ MakesAttempts policy.maxAttempts policy.waitTime method script request n course := by
  let l := procedure policy method copy? draw
  let outcomes := fun k => buffer (script k)
  obtain ⟨count, last, hrun, hattempts, hfinal, hbefore⟩ :=
    Procedure.runFrom_eq_some (l := l) (s := {}) outcomes hcopy hsteady hfits policy.one_le rfl
  have hsent := l.sent_rounds outcomes request 0 count
  simp only [Nat.zero_add] at hrun hattempts hfinal hbefore
  rw [final_iff] at hfinal
  -- from here on attempts are told apart by statuses and faults, not by the classes of the loop
  have hearlier : ∀ k, 1 ≤ k → k < count + 1 →
      Repeatable method (script (k - 1)) ∧ k < policy.maxAttempts := by
    intro k hk hlt
    have hgoes := hbefore k hk hlt
    rwa [final_iff, Classical.not_imp, Nat.not_le] at hgoes
  have hleast : ∀ k, 1 ≤ k → (Repeatable method (script (k - 1)) → policy.maxAttempts ≤ k) →
      count + 1 ≤ k := by
    intro k hk hends
    by_contra hlt
    obtain ⟨hrepeatable, hmore⟩ := hearlier k hk (Nat.lt_of_not_le hlt)
    exact absurd (hends hrepeatable) (Nat.not_le_of_lt hmore)
  refine ⟨count + 1, ⟨l.rounds outcomes request 0 count, outcomes count, last⟩, ?_, ?_⟩
  · rw [passage?, hcopy]
    exact hrun
  exact {
    first := ⟨⟨Nat.le_add_left 1 count, hfinal⟩, fun k hk => hleast k hk.1 hk.2⟩
    within := ⟨Nat.le_add_left 1 count, hleast _ policy.one_le fun _ => Nat.le_refl _⟩
    earlier := fun k hk hlt => (hearlier k hk hlt).1
    usable := fun k answer hk ha hstatus =>
      hleast k hk fun h => absurd ((repeatable_of_answers_iff ha).mp h) hstatus
    answered := fun answer ha => buffer_of_answers ha
    failed := fun e he => buffer_of_fails he
    counted := hattempts
    sent := hsent
    steps := ⟨_, rounds_eq l outcomes request count, fun k hk hlt =>
      warns_of_repeatable (hearlier k hk hlt).1 k _⟩ }

/-- A request that can be copied is sent until the first attempt that is not repeatable or uses up the
number of attempts. What that one has come to is what comes back. -/
theorem sent_until_final {ρ : Type} (maxAttempts : UInt32) (base : Duration) (method : String)
    (copy? : ρ → Option ρ) (draw : Nat → Nat) (script : Nat → Outcome) (request : ρ)
    (hcopy : copy? request = some request)
    (hfits : (Policy.make maxAttempts.toNat base false).spent (max 1 maxAttempts.toNat - 1)
      ≤ maxNanos) :
    ∃ n course,
      passage? (Policy.make maxAttempts.toNat base false) method copy? draw script request
        = some course
      ∧ MakesAttempts (max 1 maxAttempts.toNat)
          (Policy.make maxAttempts.toNat base false).waitTime method script request n course := by
  have hbudget : (Policy.make maxAttempts.toNat base false).maxAttempts = max 1 maxAttempts.toNat :=
    Nat.min_eq_left (le_maxCount_iff.mpr (by have := maxAttempts.toNat_lt; omega))
  rw [← hbudget] at hfits ⊢
  exact exists_makesAttempts rfl method draw script hcopy hfits

/-- The connection is lost, then the service is not available, and then it answers. -/
def flaky : Nat → Outcome
  | 0 => .error ⟨.reset, "connection reset", []⟩
  | 1 => .ok { status := 503 }
  | _ => .ok { status := 200 }

/-- Of five attempts that are allowed three are made: the third one brings an answer. -/
theorem sent_until_final_flaky : ∃ course,
    passage? (Policy.make 5 (Duration.ofMillis 500) false) "GET" some (fun _ => 0) flaky "request"
      = some course
    ∧ course.sent = ["request", "request", "request"] ∧ course.outcome = .ok { status := 200 }
    ∧ course.state.attempts = 3 ∧ ∃ told : Nat → Log.Record,
      course.steps = [.send "request", .warn (told 1), .wait (Duration.ofMillis 500),
        .send "request", .warn (told 2), .wait (Duration.ofMillis 1000), .send "request"]
      ∧ ("attempts", "1") ∈ (told 1).fields ∧ ("attempts", "2") ∈ (told 2).fields := by
  obtain ⟨n, course, hrun, hmakes⟩ := sent_until_final 5 (Duration.ofMillis 500) "GET" some
    (fun _ => 0) flaky "request" rfl (by decide)
  have hreset : Repeatable "GET" (flaky 0) := .lost (.early _) (by decide)
  have hbusy : Repeatable "GET" (flaky 1) := .unavailable ⟨rfl, _, rfl⟩ rfl
  obtain rfl : n = 3 := by
    have hmost := hmakes.usable 3 { status := 200 } (by decide) ⟨rfl, _, rfl⟩ (by decide)
    have hleast := hmakes.within.1
    have hone : n ≠ 1 := by
      rintro rfl
      exact absurd (hmakes.first.1.2 hreset) (by decide)
    have htwo : n ≠ 2 := by
      rintro rfl
      exact absurd (hmakes.first.1.2 hbusy) (by decide)
    omega
  obtain ⟨told, hsteps, htold⟩ := hmakes.steps
  refine ⟨course, hrun, hmakes.sent, hmakes.answered _ ⟨rfl, _, rfl⟩, hmakes.counted, told, hsteps,
    ?_, ?_⟩
  · exact attempts_of_warns (htold 1 (by decide) (by decide))
  · exact attempts_of_warns (htold 2 (by decide) (by decide))

end ServiceCall.Http
