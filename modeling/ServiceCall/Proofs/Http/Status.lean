import Mathlib.Data.List.Nodup
import ServiceCall.Http.Status

/-!
# Statuses by their codes
-/

namespace ServiceCall.Http.Status

theorem code_of_ofCode? {code : Nat} {s : Status} (h : ofCode? code = some s) : s.code = code := by
  simpa using List.find?_some h

/-- No two known statuses share a code. -/
theorem nodup_codes : (known.map code).Nodup := by decide +kernel

theorem ofCode?_eq_some_iff {code : Nat} {s : Status} :
    ofCode? code = some s ↔ s ∈ known ∧ s.code = code := by
  constructor
  · intro h
    exact ⟨List.mem_of_find?_eq_some h, code_of_ofCode? h⟩
  · rintro ⟨hs, rfl⟩
    cases hfound : ofCode? s.code with
    | none => simpa using List.find?_eq_none.mp hfound s hs
    | some t =>
      have ht := List.mem_of_find?_eq_some hfound
      rw [List.inj_on_of_nodup_map nodup_codes ht hs (code_of_ofCode? hfound)]

theorem ofCode?_eq_none_iff {code : Nat} : ofCode? code = none ↔ ∀ s ∈ known, s.code ≠ code := by
  simp [ofCode?]

/-- A known status is an error just if its code is at least 400. -/
theorem isSuccess_eq_false_iff {code : Nat} {s : Status} (h : ofCode? code = some s) :
    s.isSuccess = false ↔ 400 ≤ code := by
  rw [isSuccess, code_of_ofCode? h]
  simp

end ServiceCall.Http.Status
