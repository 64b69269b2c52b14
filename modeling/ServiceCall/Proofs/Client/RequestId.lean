import ServiceCall.Proofs.Client.Trace
import ServiceCall.Proofs.Http.Delivery
import ServiceCall.Proofs.Http.Header
import ServiceCall.Url.International

/-!
# The identity that a request is sent with

A hook names requests that have no identity yet. It looks for one under the spelling in small
letters only, and that is the spelling whose value is sent. So an identity is kept if it is spelled
so, and one under any other spelling gives way to the new one.
-/

namespace ServiceCall

open Http (lowerName plainClient)

/-- A request as the hook that names requests leaves it. -/
def named (r : Http.Request) (fresh : String) : Http.Request :=
  if r.headers.contains requestIdHeader then r else r.setHeader requestIdHeader fresh

/-- A request spells its identity in some way. -/
def SpellsId (r : Http.Request) : Prop :=
  ∃ e ∈ r.headers.entries, lowerName e.1 = requestIdHeader

/-- A request is sent with the identity that it had, and with a fresh one only if it had none. -/
structure KeepsId (r : Http.Request) (fresh : String) (sent : Http.SentRequest) : Prop where
  earlier (value : String) :
    r.HasHeader requestIdHeader value → sent.headers.get? requestIdHeader = some value
  unnamed : ¬ SpellsId r → sent.headers.get? requestIdHeader = some fresh

variable {r : Http.Request} {sent : Http.SentRequest} {fresh value : String}

/-! ### The hook -/

theorem named_of_contains (h : r.headers.contains requestIdHeader = true) : named r fresh = r :=
  if_pos h

theorem named_of_not_contains (h : r.headers.contains requestIdHeader = false) :
    named r fresh = r.setHeader requestIdHeader fresh := by
  rw [named, h]
  rfl

theorem contains_named (r : Http.Request) (fresh : String) :
    (named r fresh).headers.contains requestIdHeader = true := by
  cases h : r.headers.contains requestIdHeader with
  | true => rw [named_of_contains h, h]
  | false => simp [named_of_not_contains h, Http.Request.setHeader, KeyMap.contains]

/-- A request that is named stays as it is, however often it is to be named. -/
theorem behind_of_contains (h : r.headers.contains requestIdHeader = true) (ids : List String) :
    behind (ids.map Interceptor.requestId) r = .ok r := by
  induction ids with
  | nil => rfl
  | cons id ids ih =>
    have hkept : (Interceptor.requestId id).onRequest r = .ok r := by
      simp [Interceptor.requestId, h]
    rw [List.map_cons, behind_cons, hkept]
    exact ih

theorem behind_requestIds (r : Http.Request) (first : String) (rest : List String) :
    behind ((first :: rest).map Interceptor.requestId) r = .ok (named r first) := by
  rw [List.map_cons, behind_cons]
  exact behind_of_contains (contains_named r first) rest

/-! ### What is sent -/

theorem get?_prepare_eq_some_iff [Idna] {client : Http.Client} (h : client.prepare r = .ok sent) :
    sent.headers.get? requestIdHeader = some value ↔ r.HasHeader requestIdHeader value := by
  obtain ⟨url, headers, -, hheaders, rfl⟩ := Http.prepare_eq_ok_iff.mp h
  exact Http.get?_sentHeaders_eq_some_iff hheaders (by decide) (by decide)

/-- A request that can be sent can be sent with an identity, too. -/
theorem exists_prepare_named [Idna] {client : Http.Client} (h : client.prepare r = .ok sent)
    (hfresh : Http.isValidValue fresh = true) :
    ∃ after, client.prepare (named r fresh) = .ok after := by
  cases hspelled : r.headers.contains requestIdHeader with
  | true => exact ⟨sent, by rwa [named_of_contains hspelled]⟩
  | false =>
    obtain ⟨url, headers, hurl, hheaders, -⟩ := Http.prepare_eq_ok_iff.mp h
    obtain ⟨hagent, hvalid, htype, -⟩ := Http.sentHeaders_eq_ok_iff.mp hheaders
    rw [named_of_not_contains hspelled]
    refine ⟨_, Http.prepare_eq_ok_iff.mpr ⟨url, _, hurl,
      Http.sentHeaders_eq_ok_iff.mpr ⟨hagent, fun e he => ?_, htype, rfl⟩, rfl⟩⟩
    rcases KeyMap.mem_insertEntry he with rfl | he
    · have hname : Http.isValidName requestIdHeader = true := by decide
      exact ⟨hname, hfresh⟩
    · exact hvalid e he

/-- The identity that is sent stands under the spelling in small letters. -/
theorem hasHeader_named (r : Http.Request) (fresh : String) :
    (named r fresh).HasHeader requestIdHeader ((r.headers.get? requestIdHeader).getD fresh) := by
  refine Http.hasHeader_of_get? (by decide) ?_
  cases hspelled : r.headers.contains requestIdHeader with
  | true =>
    obtain ⟨value, hvalue⟩ := Option.isSome_iff_exists.mp hspelled
    rw [named_of_contains hspelled, hvalue, Option.getD_some]
  | false =>
    have hnone : r.headers.get? requestIdHeader = none := by
      simpa [KeyMap.contains] using hspelled
    rw [named_of_not_contains hspelled, hnone, Option.getD_none]
    exact KeyMap.get?_insert_self r.headers requestIdHeader fresh

/-! ### What is kept -/

theorem spellsId_of_hasHeader (h : r.HasHeader requestIdHeader value) : SpellsId r := by
  obtain ⟨spelling, hmem, hname, -⟩ := h
  exact ⟨_, hmem, hname⟩

/-- An identity in small letters is the one that the request has, so it is kept if it is sent. -/
theorem keepsId_of_get? (hvalue : r.headers.get? requestIdHeader = some value)
    (hid : sent.headers.get? requestIdHeader = some value) : KeepsId r fresh sent := by
  have hhas : r.HasHeader requestIdHeader value := Http.hasHeader_of_get? (by decide) hvalue
  refine ⟨fun other hother => ?_, fun hunspelled => ?_⟩
  · rw [hid, hhas.unique hother]
  · exact absurd (spellsId_of_hasHeader hhas) hunspelled

/-- A fresh identity is right for a request without one, and for one that has just this one. -/
theorem keepsId_fresh_iff (hid : sent.headers.get? requestIdHeader = some fresh) :
    KeepsId r fresh sent ↔ ¬ SpellsId r ∨ r.HasHeader requestIdHeader fresh := by
  constructor
  · intro hkeeps
    by_cases hspells : SpellsId r
    · obtain ⟨e, he, hname⟩ := hspells
      obtain ⟨value, hvalue⟩ := hname ▸ Http.exists_hasHeader he
      have hsame := (hkeeps.earlier value hvalue).symm.trans hid
      cases hsame
      exact .inr hvalue
    · exact .inl hspells
  · rintro (hunspelled | hhas)
    · exact ⟨fun _ hvalue => absurd (spellsId_of_hasHeader hvalue) hunspelled, fun _ => hid⟩
    · exact ⟨fun _ hvalue => by rw [hid, hhas.unique hvalue], fun _ => hid⟩

/-- Hooks that name requests run on a request that can be sent, one or more of them. It is then sent
with the identity under the spelling in small letters, or with the first fresh one. That is the one
it had exactly if it spelled it so, or had none, or had the fresh one. -/
theorem keeps_id_iff [Idna] {client : Http.Client} (hsent : client.prepare r = .ok sent)
    {first : String} (hfirst : Http.isValidValue first = true) (rest : List String) :
    ∃ final after, behind ((first :: rest).map Interceptor.requestId) r = .ok final
      ∧ client.prepare final = .ok after
      ∧ after.headers.get? requestIdHeader
        = some ((r.headers.get? requestIdHeader).getD first)
      ∧ (KeepsId r first after ↔ r.headers.contains requestIdHeader = true ∨ ¬ SpellsId r
          ∨ r.HasHeader requestIdHeader first) := by
  obtain ⟨after, hafter⟩ := exists_prepare_named hsent hfirst
  have hid := (get?_prepare_eq_some_iff hafter).mpr (hasHeader_named r first)
  refine ⟨named r first, after, behind_requestIds r first rest, hafter, hid, ?_⟩
  cases hvalue : r.headers.get? requestIdHeader with
  | some value =>
    rw [hvalue, Option.getD_some] at hid
    exact iff_of_true (keepsId_of_get? hvalue hid) (.inl (by rw [KeyMap.contains, hvalue]; rfl))
  | none =>
    rw [hvalue, Option.getD_none] at hid
    simp [keepsId_fresh_iff hid, KeyMap.contains, hvalue]

/-- A request with an identity, its header spelled in some way. -/
def identified (spelling : String) : Http.Request where
  method := .get
  uri := "http://localhost/api"
  headers := KeyMap.empty.insert spelling "earlier"

/-- An identity in small letters is kept by two hooks in a row. -/
theorem keeps_id_small : ∃ final after,
    behind (["first", "second"].map Interceptor.requestId) (identified "x-request-id") = .ok final
      ∧ plainClient.prepare final = .ok after
      ∧ KeepsId (identified "x-request-id") "first" after
      ∧ after.headers.get? "x-request-id" = some "earlier" := by
  obtain ⟨sent, hsent⟩ : ∃ sent, plainClient.prepare (identified "x-request-id") = .ok sent :=
    ⟨_, rfl⟩
  have hfirst : Http.isValidValue "first" = true := by decide
  obtain ⟨final, after, hfinal, hafter, hid, hkeeps⟩ := keeps_id_iff hsent hfirst ["second"]
  exact ⟨final, after, hfinal, hafter, hkeeps.mpr (.inl rfl), hid⟩

/-- An identity that is spelled with capital letters gives way to the fresh one. -/
theorem capital_id_replaced : ∃ final after,
    behind [.requestId "4f9d1c52-8a3b-4e6f-9c7d-2b1a0e5f6d38"] (identified "X-Request-Id") = .ok final
      ∧ plainClient.prepare final = .ok after
      ∧ (identified "X-Request-Id").HasHeader "x-request-id" "earlier"
      ∧ after.headers.get? "x-request-id" = some "4f9d1c52-8a3b-4e6f-9c7d-2b1a0e5f6d38"
      ∧ ¬ KeepsId (identified "X-Request-Id") "4f9d1c52-8a3b-4e6f-9c7d-2b1a0e5f6d38" after := by
  have hhas : (identified "X-Request-Id").HasHeader "x-request-id" "earlier" :=
    ⟨"X-Request-Id", List.mem_cons_self, rfl, by
      simp [identified, KeyMap.insert, KeyMap.empty, insertEntry]⟩
  refine ⟨_, _, rfl, rfl, hhas, rfl, fun hkeeps => ?_⟩
  exact absurd (hkeeps.earlier "earlier" hhas) (by decide)

end ServiceCall
