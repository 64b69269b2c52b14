import Mathlib.Logic.Basic
import ServiceCall.Client.Error
import ServiceCall.Proofs.Http.Status

/-!
# Error payloads

Which bodies are taken for an error payload. The protocol has one form, an object with four texts. Two
more are taken: the word of the severity may stand as the only name of an object, and the four values
may stand in an array. Under an error status every other body gives the fallback.
-/

namespace ServiceCall

namespace Severity

theorem ofText?_eq_some_iff {word : String} {s : Severity} : ofText? word = some s ↔ word = s.text := by
  unfold ofText?
  split
  · next h => cases s <;> simp [h, text]
  · next hwarn =>
    split
    · next h => cases s <;> simp [h, text]
    · next herror =>
      refine ⟨nofun, ?_⟩
      rintro rfl
      cases s with
      | warn => exact absurd rfl hwarn
      | error => exact absurd rfl herror

theorem ofJson?_eq_some_iff {v : Json} {s : Severity} :
    ofJson? v = some s ↔ v = .text s.text ∨ v = .object [(s.text, .null)] := by
  unfold ofJson?
  split
  · simp [ofText?_eq_some_iff]
  · simp [ofText?_eq_some_iff]
  · next htext hobject =>
    refine ⟨nofun, ?_⟩
    rintro (rfl | rfl)
    · exact absurd rfl (htext _)
    · exact absurd rfl (hobject _)

end Severity

namespace RemoteError

/-- The error that tells what a payload tells. -/
def ofPayload (status : Http.Status) (p : Payload) : RemoteError :=
  ⟨some p.id, p.severity, p.code, p.message, status⟩

/-- A payload as the protocol has it. Members of other names do not count. -/
inductive Documented : Json → Payload → Prop
  | intro {members : List (String × Json)} {p : Payload}
      (id : members.lookup "id" = some (.text p.id))
      (severity : members.lookup "severity" = some (.text p.severity.text))
      (code : members.lookup "errorCode" = some (.text p.code))
      (message : members.lookup "message" = some (.text p.message)) :
      Documented (.object members) p

/-- A payload in a form that the protocol does not have. -/
inductive Undocumented : Json → Payload → Prop
  /-- The severity is an object, its word the only name in it and null the value. -/
  | tagged {members : List (String × Json)} {p : Payload}
      (id : members.lookup "id" = some (.text p.id))
      (severity : members.lookup "severity" = some (.object [(p.severity.text, .null)]))
      (code : members.lookup "errorCode" = some (.text p.code))
      (message : members.lookup "message" = some (.text p.message)) :
      Undocumented (.object members) p
  /-- The four values in a row, without their names. -/
  | listed {severity : Json} {p : Payload} (h : Severity.ofJson? severity = some p.severity) :
      Undocumented (.array [.text p.id, severity, .text p.code, .text p.message]) p

/-! ### Values -/

theorem payloadOf?_eq_some_iff {id severity code message : Json} {p : Payload} :
    payloadOf? id severity code message = some p ↔ id = .text p.id
      ∧ Severity.ofJson? severity = some p.severity ∧ code = .text p.code
      ∧ message = .text p.message := by
  unfold payloadOf?
  split
  · next id code message =>
    rw [Option.map_eq_some_iff]
    constructor
    · rintro ⟨s, hs, rfl⟩
      exact ⟨rfl, hs, rfl, rfl⟩
    · rintro ⟨⟨⟩, hs, ⟨⟩, ⟨⟩⟩
      exact ⟨_, hs, rfl⟩
  · next hother =>
    refine ⟨nofun, ?_⟩
    rintro ⟨rfl, -, rfl, rfl⟩
    exact (hother _ _ _ rfl rfl rfl).elim

/-- A value is taken for a payload in three forms. -/
theorem payload?_eq_some_iff {v : Json} {p : Payload} :
    payload? v = some p ↔ Documented v p ∨ Undocumented v p := by
  unfold payload?
  -- an object, a list of four, or anything else
  split
  · next members =>
    simp only [Option.bind_eq_bind, Option.bind_eq_some_iff, payloadOf?_eq_some_iff]
    constructor
    · rintro ⟨_, hid, severity, hseverity, _, hcode, _, hmessage, rfl, hs, rfl, rfl⟩
      rcases Severity.ofJson?_eq_some_iff.mp hs with rfl | rfl
      · exact .inl (.intro hid hseverity hcode hmessage)
      · exact .inr (.tagged hid hseverity hcode hmessage)
    · rintro (⟨hid, hseverity, hcode, hmessage⟩ | ⟨hid, hseverity, hcode, hmessage⟩)
      · exact ⟨_, hid, _, hseverity, _, hcode, _, hmessage, rfl,
          Severity.ofJson?_eq_some_iff.mpr (.inl rfl), rfl, rfl⟩
      · exact ⟨_, hid, _, hseverity, _, hcode, _, hmessage, rfl,
          Severity.ofJson?_eq_some_iff.mpr (.inr rfl), rfl, rfl⟩
  · next id severity code message =>
    rw [payloadOf?_eq_some_iff]
    constructor
    · rintro ⟨rfl, hs, rfl, rfl⟩
      exact .inr (.listed hs)
    · rintro (hdocumented | hlisted)
      · cases hdocumented
      · cases hlisted with
        | listed hs => exact ⟨rfl, hs, rfl, rfl⟩
  · next hobject harray =>
    refine ⟨nofun, ?_⟩
    rintro (⟨-, -, -, -⟩ | ⟨-, -, -, -⟩ | ⟨-⟩)
    · exact absurd rfl (hobject _)
    · exact absurd rfl (hobject _)
    · exact absurd rfl (harray _ _ _ _)

theorem not_documented_of_undocumented {v : Json} {p q : Payload} (h : Undocumented v p) :
    ¬ Documented v q := by
  rintro ⟨-, hseverity, -, -⟩
  cases h with
  | tagged _ hother _ _ => cases hseverity.symm.trans hother

theorem ofPayload_injective (status : Http.Status) : Function.Injective (ofPayload status) := by
  rintro ⟨_, _, _, _⟩ ⟨_, _, _, _⟩ h
  cases h
  rfl

/-! ### Bodies -/

theorem read_nil : Json.read [] = .error .cutShort := rfl

/-- The error of a body: that of its payload, or a fallback. -/
theorem ofBody_cases (status : Http.Status) (body : Bytes) :
    (∃ v p, Json.read body = .ok v ∧ payload? v = some p ∧ ofBody status body = ofPayload status p)
      ∨ (∀ v, Json.read body = .ok v → payload? v = none)
        ∧ ∃ what, ofBody status body = fallback status what := by
  unfold ofBody
  split
  · next hempty =>
    rw [List.isEmpty_iff] at hempty
    subst hempty
    exact .inr ⟨fun v h => (nomatch read_nil.symm.trans h), _, rfl⟩
  · split
    · next hread => exact .inr ⟨fun v h => (nomatch hread.symm.trans h), _, rfl⟩
    · next v hread =>
      split
      · next p hp => exact .inl ⟨v, p, hread, hp, rfl⟩
      · next hp =>
        refine .inr ⟨fun w h => ?_, _, rfl⟩
        cases hread.symm.trans h
        exact hp

theorem ofBody_eq_ofPayload_iff {status : Http.Status} {body : Bytes} {p : Payload} :
    ofBody status body = ofPayload status p ↔ ∃ v, Json.read body = .ok v ∧ payload? v = some p := by
  rcases ofBody_cases status body with ⟨v, q, hread, hq, hbody⟩ | ⟨hnone, what, hbody⟩
  · rw [hbody, (ofPayload_injective status).eq_iff]
    constructor
    · rintro rfl
      exact ⟨v, hread, hq⟩
    · rintro ⟨w, hw, hp⟩
      cases hread.symm.trans hw
      exact Option.some.inj (hq.symm.trans hp)
  · rw [hbody]
    refine ⟨fun h => ?_, fun ⟨v, hread, hp⟩ => ?_⟩
    · cases congrArg RemoteError.id h
    · cases (hnone v hread).symm.trans hp

theorem status_ofBody (status : Http.Status) (body : Bytes) : (ofBody status body).status = status := by
  rcases ofBody_cases status body with ⟨v, p, -, -, hbody⟩ | ⟨-, what, hbody⟩
  · rw [hbody]
    rfl
  · rw [hbody]
    rfl

end RemoteError

open RemoteError

/-- An error status gives the error that the body stands for. -/
theorem validateResponse_of_error {r : Http.Response} {status : Http.Status}
    (hknown : Http.Status.ofCode? r.status = some status) (herror : 400 ≤ r.status) :
    validateResponse r = .error (.remote (ofBody status r.body)) := by
  have hfailure := (Http.Status.isSuccess_eq_false_iff hknown).mpr herror
  simp [validateResponse, hknown, hfailure]

/-- Under an error status, a response is the error of its payload if its body has one in one of the
three forms, and else a fallback. Just the bodies in an undocumented form are taken otherwise than the
protocol says. -/
theorem payload_taken_iff {r : Http.Response} {status : Http.Status}
    (hknown : Http.Status.ofCode? r.status = some status) (herror : 400 ≤ r.status) :
    ∃ e, validateResponse r = .error (.remote e) ∧ e.status = status
      ∧ (∀ p, e = ofPayload status p
          ↔ ∃ v, Json.read r.body = .ok v ∧ (Documented v p ∨ Undocumented v p))
      ∧ ((¬ ∃ v p, Json.read r.body = .ok v ∧ (Documented v p ∨ Undocumented v p)) →
          e.id = none ∧ e.severity = .error ∧ e.code = "REMOTE_SERVICE_ERROR")
      ∧ ((∀ p, e = ofPayload status p ↔ ∃ v, Json.read r.body = .ok v ∧ Documented v p)
          ↔ ¬ ∃ v p, Json.read r.body = .ok v ∧ Undocumented v p) := by
  have htaken : ∀ p, ofBody status r.body = ofPayload status p
      ↔ ∃ v, Json.read r.body = .ok v ∧ (Documented v p ∨ Undocumented v p) := by
    intro p
    simp only [ofBody_eq_ofPayload_iff, payload?_eq_some_iff]
  refine ⟨_, validateResponse_of_error hknown herror, status_ofBody status r.body, htaken,
    fun hnone => ?_, fun hexact => ?_, fun hnone p => ?_⟩
  · rcases ofBody_cases status r.body with ⟨v, p, hread, hp, -⟩ | ⟨-, what, hbody⟩
    · exact absurd ⟨v, p, hread, payload?_eq_some_iff.mp hp⟩ hnone
    · rw [hbody]
      exact ⟨rfl, rfl, rfl⟩
  · -- a body has one value, and no value is in two of the forms
    rintro ⟨v, p, hread, hp⟩
    obtain ⟨w, hw, hdocumented⟩ := (hexact p).mp ((htaken p).mpr ⟨v, hread, .inr hp⟩)
    cases hread.symm.trans hw
    exact not_documented_of_undocumented hp hdocumented
  · rw [htaken p]
    refine exists_congr fun v => and_congr_right fun hread => or_iff_left ?_
    exact fun hp => hnone ⟨v, p, hread, hp⟩

/-- The answer that something is not there. -/
def notFound (body : Json) : Http.Response := { status := 404, body := Utf8.encode body.compact }

/-- The status of this answer. -/
def notFoundStatus : Http.Status := ⟨404, "NotFound", "Not Found"⟩

theorem known_notFound (body : Json) :
    Http.Status.ofCode? (notFound body).status = some notFoundStatus := rfl

theorem error_notFound (body : Json) : 400 ≤ (notFound body).status := by
  show 400 ≤ 404
  decide

/-- What the service tells about it. -/
def notFoundPayload : Payload := ⟨"x", .warn, "GONE", "no"⟩

/-- The members of a documented payload, with one that has no meaning. -/
def documentedNotFound (id : String) : List (String × Json) :=
  [("id", .text id), ("severity", .text "WARN"), ("errorCode", .text "GONE"), ("at", .null),
    ("message", .text "no")]

/-- Members with two values for the identity. -/
def repeatedNotFound : Json := .object (documentedNotFound "y" ++ [("id", .text "x")])

set_option maxRecDepth 2000 in
theorem read_repeatedNotFound :
    Json.read (notFound repeatedNotFound).body = .ok (.object (documentedNotFound "x")) := by
  have htokens : Json.lex (notFound repeatedNotFound).body =
      ([.openObject, .text (some "id"), .colon, .text (some "y"), .comma,
        .text (some "severity"), .colon, .text (some "WARN"), .comma,
        .text (some "errorCode"), .colon, .text (some "GONE"), .comma,
        .text (some "at"), .colon, .null, .comma,
        .text (some "message"), .colon, .text (some "no"), .comma,
        .text (some "id"), .colon, .text (some "x"), .closeObject], .complete) := rfl
  rw [Json.read, Json.Input.ofBytes, htokens]
  rfl

/-- A documented payload is taken, and of two values for a name the last one counts. -/
theorem payload_taken_notFound : validateResponse (notFound repeatedNotFound)
    = .error (.remote (ofPayload notFoundStatus notFoundPayload)) := by
  obtain ⟨e, he, -, htaken, -, -⟩ :=
    payload_taken_iff (known_notFound _) (error_notFound repeatedNotFound)
  rw [he, (htaken notFoundPayload).mpr
    ⟨_, read_repeatedNotFound, .inl (.intro rfl rfl rfl rfl)⟩]

/-- The values of a payload in a row. -/
def listedNotFound : Json := .array [.text "x", .text "WARN", .text "GONE", .text "no"]

/-- The values in a row are taken for a payload, although they are no documented one. -/
theorem listed_payload_taken : Json.read (notFound listedNotFound).body = .ok listedNotFound
    ∧ (∀ members, listedNotFound ≠ .object members)
    ∧ (∀ p, ¬ Documented listedNotFound p)
    ∧ validateResponse (notFound listedNotFound)
      = .error (.remote (ofPayload notFoundStatus notFoundPayload)) := by
  have hread : Json.read (notFound listedNotFound).body = .ok listedNotFound := rfl
  have hbody : ofBody notFoundStatus (notFound listedNotFound).body
      = ofPayload notFoundStatus notFoundPayload :=
    ofBody_eq_ofPayload_iff.mpr ⟨listedNotFound, hread, rfl⟩
  refine ⟨hread, ?_, ?_, ?_⟩
  · intro members h
    cases h
  · intro p h
    cases h
  · rw [validateResponse_of_error (known_notFound _) (error_notFound _), hbody]

end ServiceCall
