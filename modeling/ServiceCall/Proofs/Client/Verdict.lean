import ServiceCall.Proofs.Client.Payload
import ServiceCall.Proofs.Json.Document

/-!
# The verdict on a response

A response is a success, refused for its code, or an error of the service. The error is that of the
payload, or a fallback; what a fallback tells depends on whether the body is a document at all.
-/

namespace ServiceCall

open Json (Document)

namespace RemoteError

/-- The body is a document that holds the payload. -/
def Holds (body : Bytes) (p : Payload) : Prop :=
  ∃ v, Document body v ∧ (Documented v p ∨ Undocumented v p)

/-- Something came, and it is no document. -/
def Unreadable (body : Bytes) : Prop := body ≠ [] ∧ ∀ v, ¬ Document body v

variable {status : Http.Status} {body : Bytes} {p : Payload}

theorem ofBody_of_holds (h : Holds body p) : ofBody status body = ofPayload status p := by
  obtain ⟨v, hv, hp⟩ := h
  exact ofBody_eq_ofPayload_iff.mpr
    ⟨v, Json.read_eq_ok_iff.mpr hv, payload?_eq_some_iff.mpr hp⟩

theorem ofBody_of_unreadable (h : Unreadable body) :
    ofBody status body = fallback status "internal communication failed" := by
  obtain ⟨hbody, hnone⟩ := h
  have hread : ∀ v, Json.read body ≠ .ok v := fun v hv =>
    hnone v (Json.read_eq_ok_iff.mp hv)
  rw [ofBody, if_neg (by simpa using hbody)]
  split
  · rfl
  · next v hv => exact absurd hv (hread v)

theorem ofBody_of_readable (h : ¬ Unreadable body) (hnone : ∀ p, ¬ Holds body p) :
    ofBody status body = fallback status "failed to call remote service" := by
  rw [ofBody]
  split
  · rfl
  · next hbody =>
    split
    · next hread =>
      refine absurd ⟨by simpa using hbody, fun v hv => ?_⟩ h
      cases hread.symm.trans (Json.read_eq_ok_iff.mpr hv)
    · next v hread =>
      split
      · next p hp =>
        exact absurd ⟨v, Json.read_eq_ok_iff.mp hread, payload?_eq_some_iff.mp hp⟩ (hnone p)
      · rfl

theorem message_fallback (status : Http.Status) {what start : String}
    (h : what ++ ", statusCode=" = start) :
    (fallback status what).message = start ++ toString status.code := by
  rw [← h]
  rfl

theorem internal_ne_failed (a b : String) : "internal communication failed, statusCode=" ++ a
    ≠ "failed to call remote service, statusCode=" ++ b := by
  intro h
  have hhead := congrArg (fun s => s.toList.head?) h
  simp at hhead

/-- Without a payload an error is a fallback, with one of two messages. -/
theorem ofBody_of_not_holds (status : Http.Status) (hnone : ∀ p, ¬ Holds body p) : ∃ what,
    ofBody status body = fallback status what
      ∧ ((fallback status what).message
          = "internal communication failed, statusCode=" ++ toString status.code ↔ Unreadable body)
      ∧ ((fallback status what).message
          = "failed to call remote service, statusCode=" ++ toString status.code
          ↔ ¬ Unreadable body) := by
  have hne := internal_ne_failed (toString status.code) (toString status.code)
  by_cases h : Unreadable body
  · have hstart : "internal communication failed" ++ ", statusCode="
        = "internal communication failed, statusCode=" := by decide
    refine ⟨_, ofBody_of_unreadable h, ?_⟩
    rw [message_fallback status hstart]
    exact ⟨iff_of_true rfl h, iff_of_false hne (not_not_intro h)⟩
  · have hstart : "failed to call remote service" ++ ", statusCode="
        = "failed to call remote service, statusCode=" := by decide
    refine ⟨_, ofBody_of_readable h hnone, ?_⟩
    rw [message_fallback status hstart]
    exact ⟨iff_of_false hne.symm h, iff_of_true rfl h⟩

end RemoteError

open RemoteError

theorem validateResponse_eq_ok_iff {r : Http.Response} {s : Http.Status} :
    validateResponse r = .ok s ↔ s ∈ Http.Status.known ∧ s.code = r.status ∧ r.status < 400 := by
  rw [← and_assoc, ← Http.Status.ofCode?_eq_some_iff]
  unfold validateResponse
  split
  · next hnone => simp [hnone]
  · next t ht =>
    have hsuccess := Http.Status.isSuccess_eq_false_iff ht
    rw [ht, Option.some.injEq]
    cases h : t.isSuccess with
    | true =>
      have hbelow : r.status < 400 := by simpa [h] using hsuccess
      simp [hbelow]
    | false =>
      have habove := hsuccess.mp h
      simp [Nat.not_lt.mpr habove]

theorem validateResponse_eq_contract_iff {r : Http.Response} {e : ContractError} :
    validateResponse r = .error (.contract e)
      ↔ e = .unsupportedStatus r.status ∧ ∀ s ∈ Http.Status.known, s.code ≠ r.status := by
  rw [← Http.Status.ofCode?_eq_none_iff]
  unfold validateResponse
  split
  · next hnone => simp [hnone, eq_comm]
  · next t ht =>
    rw [ht]
    split <;> simp

/-- A response is a success just if its code is known and below 400, and refused just if its code is not
known. Every other one is an error of the service, without an identity just if the body holds no payload.
One message of such a fallback tells of a body that is no document, the other of all the rest. -/
theorem response_partition (r : Http.Response) :
    (∀ s, validateResponse r = .ok s
      ↔ s ∈ Http.Status.known ∧ s.code = r.status ∧ r.status < 400)
    ∧ (∀ e, validateResponse r = .error (.contract e)
      ↔ e = .unsupportedStatus r.status ∧ ∀ s ∈ Http.Status.known, s.code ≠ r.status)
    ∧ ∀ s ∈ Http.Status.known, s.code = r.status → 400 ≤ r.status →
      ∃ e, validateResponse r = .error (.remote e) ∧ e.status = s
        ∧ (∀ p, Holds r.body p → e = ofPayload s p)
        ∧ (e.id = none ↔ ∀ p, ¬ Holds r.body p)
        ∧ (e.id = none → e.severity = .error ∧ e.code = "REMOTE_SERVICE_ERROR"
          ∧ (e.message = "internal communication failed, statusCode=" ++ toString r.status
            ↔ r.body ≠ [] ∧ ∀ v, ¬ Document r.body v)
          ∧ (e.message = "failed to call remote service, statusCode=" ++ toString r.status
            ↔ ¬ (r.body ≠ [] ∧ ∀ v, ¬ Document r.body v))) := by
  refine ⟨fun s => validateResponse_eq_ok_iff, fun e => validateResponse_eq_contract_iff, ?_⟩
  intro s hs hcode herror
  have hknown := Http.Status.ofCode?_eq_some_iff.mpr ⟨hs, hcode⟩
  refine ⟨_, validateResponse_of_error hknown herror, status_ofBody s r.body,
    fun p hp => ofBody_of_holds hp, ?_⟩
  by_cases hholds : ∃ p, Holds r.body p
  · obtain ⟨p, hp⟩ := hholds
    rw [ofBody_of_holds hp]
    exact ⟨iff_of_false nofun fun hnone => hnone p hp, nofun⟩
  · have hnone : ∀ p, ¬ Holds r.body p := not_exists.mp hholds
    obtain ⟨what, hbody, hinternal, hfailed⟩ := ofBody_of_not_holds s hnone
    rw [hcode] at hinternal hfailed
    rw [hbody]
    exact ⟨iff_of_true rfl hnone, fun _ => ⟨rfl, rfl, hinternal, hfailed⟩⟩

end ServiceCall
