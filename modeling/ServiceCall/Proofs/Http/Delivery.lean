import Mathlib.Order.Bounds.Basic
import ServiceCall.Http.Client
import ServiceCall.Proofs.Retry.Loop

/-!
# Delivery of a request

What comes back for a request that is sent is the outcome of the last attempt, and what is told on the
way is told by the parts that make requests and repeat them.
-/

namespace ServiceCall.Http

open Retry

/-- The outcomes of the attempts on a request, by the number of attempts before. -/
def outcomes (network : Network) (sent : SentRequest) (k : Nat) : Outcome :=
  buffer (attempt network sent k).outcome

/-- What the attempts on a prepared request go by. -/
def sending (policy : Policy) (draw : Nat → Nat) (sent : SentRequest) :
    Procedure SentRequest Outcome :=
  procedure policy sent.method.text some draw

/-- The last attempt on a request is the one with this number: the first that is final. -/
def IsLast (policy : Policy) (network : Network) (draw : Nat → Nat) (sent : SentRequest) (n : Nat) :
    Prop :=
  IsLeast {k | 1 ≤ k ∧ (sending policy draw sent).Final (outcomes network sent) k} n

/-- Sends requests by the standard policy. -/
def plainClient : Client where
  userAgent := "agent"
  policy := .standard
  slowThreshold := .ofMillis 1000

/-! ### Preparing -/

theorem prepare_eq_ok_iff [Idna] {client : Client} {r : Request} {sent : SentRequest} :
    client.prepare r = .ok sent
      ↔ ∃ url headers, r.url = .ok url ∧ sentHeaders client.userAgent r = .ok headers
        ∧ sent = ⟨r.method, url, headers, r.body⟩ := by
  rw [Client.prepare]
  cases r.url with
  | error cause => simp
  | ok url => rcases sentHeaders client.userAgent r with (_ | _) | _ <;> simp [eq_comm]

/-! ### Attempts -/

theorem body_of_buffer {o : Outcome} {answer : Answer} (h : buffer o = .ok answer) :
    ∃ body, answer.body = .ok body := by
  unfold buffer at h
  split at h
  · cases h
  · split at h
    · next body hbody =>
      cases h
      exact ⟨body, hbody⟩
    · cases h

/-- Attempts are made up to the last one, whose outcome is what they come to. -/
theorem exists_passage {policy : Policy} (network : Network) {draw : Nat → Nat} (sent : SentRequest)
    (hwaits : ∃ total, policy.waited? draw (policy.maxAttempts - 1) = some total) :
    ∃ n course, passage? policy sent.method.text some draw
          (fun k => (attempt network sent k).outcome) sent = some course
      ∧ IsLast policy network draw sent n ∧ n ≤ policy.maxAttempts
      ∧ course.sent = List.replicate n sent ∧ course.outcome = outcomes network sent (n - 1)
      ∧ ∀ x ∈ course.warnings, x.target = Retry.logTarget := by
  let l := sending policy draw sent
  obtain ⟨count, last, hrun, -, hfinal, hbefore⟩ :=
    Procedure.runFrom_eq_turns (l := l) (s := {}) (outcomes network sent) sent rfl hwaits policy.one_le
      rfl
  simp only [Nat.zero_add] at hrun hfinal hbefore
  refine ⟨count + 1, _, hrun, ⟨⟨Nat.le_add_left 1 count, hfinal⟩, ?_⟩, ?_,
    l.sent_turns _ sent 0 count, rfl, fun x hx => Procedure.target_of_mem_turns hx⟩
  · rintro k ⟨hk, hkfinal⟩
    by_contra hlt
    exact hbefore k hk (Nat.lt_of_not_le hlt) hkfinal
  · rcases Nat.eq_zero_or_pos count with rfl | hcount
    · exact policy.one_le
    · exact Procedure.lt_of_not_final (hbefore count hcount (Nat.lt_succ_self count))

/-! ### Records -/

theorem target_requestNotes (r : Request) : ∀ x ∈ requestNotes r, x.target = logTarget := by
  simp [requestNotes, note]

theorem target_contentNotes (r : Request) : ∀ x ∈ contentNotes r, x.target = logTarget := by
  cases hbody : r.body <;> simp [contentNotes, note, hbody]

theorem target_responseNotes (r : Response) : ∀ x ∈ responseNotes r, x.target = logTarget := by
  simp [responseNotes, note]

theorem target_closingNotes (client : Client) (elapsed : Duration) :
    ∀ x ∈ client.closingNotes elapsed, x.target = logTarget := by
  rw [Client.closingNotes]
  split <;> simp [note]

/-- A request that is prepared is delivered: it is sent up to the last attempt, and what comes back is
the outcome of that one. -/
theorem exists_delivery [Idna] {client : Client} (network : Network) {draw : Nat → Nat}
    (setup : Duration) {r : Request} {sent : SentRequest} (hprepare : client.prepare r = .ok sent)
    (hwaits : ∃ total, client.policy.waited? draw (client.policy.maxAttempts - 1) = some total) :
    ∃ n delivery, client.send? network draw setup r = some delivery
      ∧ IsLast client.policy network draw sent n ∧ n ≤ client.policy.maxAttempts
      ∧ delivery.attempts = List.replicate n sent
      ∧ delivery.outcome = Client.readOutcome (outcomes network sent (n - 1))
      ∧ ∀ x ∈ delivery.logs, x.target = logTarget ∨ x.target = Retry.logTarget := by
  obtain ⟨n, course, hcourse, hlast, hwithin, hsent, houtcome, hwarnings⟩ :=
    exists_passage network sent hwaits
  refine ⟨n, _, by simp only [Client.send?, hprepare, Client.deliver?, hcourse]; rfl, hlast, hwithin,
    hsent, by simp only [houtcome], fun x hx => ?_⟩
  simp only [List.mem_append] at hx
  rcases hx with ((hx | hx) | hx) | hx
  · simp only [Client.preparationNotes, hprepare, List.mem_append] at hx
    exact .inl (hx.elim (target_requestNotes r x) (target_contentNotes r x))
  · exact .inr (hwarnings x hx)
  · split at hx
    · exact .inl (target_responseNotes _ x hx)
    · cases hx
  · exact .inl (target_closingNotes client _ x hx)

end ServiceCall.Http
