import ServiceCall.Proofs.Client.Query
import ServiceCall.Proofs.First

/-!
# What a path value can touch

The address of a call is that of its service with another path. Whatever the literals of the template
and the values are, none of their characters ends the path: the address has the scheme, user, host and
port of the service, no query and no fragment, and is read back as it is. An address is refused only
for a value that the template does not take.
-/

namespace ServiceCall

/-- Characters that a path can hold in the text of a web address: visible ones of ASCII that do not
end it. -/
def Url.InPath (c : Char) : Prop :=
  32 < c.toNat ∧ c.toNat < 127 ∧ c ≠ '?' ∧ c ≠ '#' ∧ c ≠ '\\'

theorem Url.Segmented.inPath {items : List (List Char)} (h : Url.Segmented .web items) :
    ∀ c ∈ Url.segmentsChars items, Url.InPath c := by
  intro c hc
  obtain ⟨hvisible, hquestion, hhash⟩ := h.chars c hc
  obtain ⟨s, hs, hc⟩ := List.mem_flatMap.mp hc
  rcases List.mem_cons.mp hc with rfl | hc
  · refine ⟨?_, ?_, ?_, ?_, ?_⟩ <;> decide
  · obtain ⟨hfree, hslash⟩ := (h s hs).chars c hc
    simp only [Percent.inPath, Percent.inQuery, Percent.isControl, Bool.or_eq_false_iff,
      decide_eq_false_iff_not] at hfree
    simp only [Url.isSlash, Url.SchemeKind.isSpecial, Bool.and_true, Bool.or_eq_false_iff,
      beq_eq_false_iff_ne] at hslash
    exact ⟨hvisible, by omega, hquestion, hhash, hslash.2⟩

namespace PathTemplate

/-- A template that does not resolve lacks a value or refuses one. -/
theorem fault_of_resolve {t : PathTemplate} {values : KeyMap String} {e : ContractError}
    (h : t.resolve values = .error e) :
    (∃ name, e = .unresolvedPlaceholder t.text name)
      ∨ ∃ name value, e = .invalidPathValue t.text name value := by
  obtain ⟨s, -, hs⟩ := exists_of_mapM_eq_error h
  cases s with
  | literal text => cases hs
  | placeholder name =>
    rw [resolveSegment] at hs
    split at hs
    · cases hs
      exact .inl ⟨name, rfl⟩
    · next value _ =>
      split at hs
      · cases hs
        exact .inr ⟨name, value, rfl⟩
      · cases hs

end PathTemplate

namespace ServiceClient

section Confinement

variable [Idna] {c : ServiceClient} {t : PathTemplate} {values : KeyMap String}

/-- The text is an address that differs from that of the service in its path only. -/
structure Confined (c : ServiceClient) (uri : String) : Prop where
  /-- Behind scheme, user, host and port stands nothing but the path. -/
  layout : ∃ a path, c.base.authority = some a
    ∧ uri.toList = c.base.scheme ++ "://".toList ++ a.chars ++ '/' :: path
    ∧ ∀ ch ∈ path, Url.InPath ch
  /-- Read as a URL, it has the same parts but for the path, and its text is the same again. -/
  read : ∃ u, Url.parse uri = .ok u ∧ u.text = uri
    ∧ u.scheme = c.base.scheme ∧ u.authority = c.base.authority ∧ u.query = none ∧ u.fragment = none
  /-- It is the URL of every request to it that has no pairs. -/
  request : ∀ r : Http.Request, r.uri = uri → r.params = [] → ∃ u, r.url = .ok u ∧ u.text = uri

/-- An address below that of the service is confined to it. -/
theorem Placed.confined [Idna.Lawful] {items : List (List Char)} (h : c.Placed items)
    (hkind : Url.schemeKind c.base.scheme = .web) (texts : List String) :
    c.Confined (c.callUrl items texts).text := by
  have hsettled := h.settled_callUrl texts
  have hweb : Url.schemeKind (c.callUrl items texts).scheme = .web := hkind
  have hread : Url.parse (c.callUrl items texts).text = .ok (c.callUrl items texts) :=
    hsettled.parse_text h.query h.fragment (by simp [hweb])
  refine ⟨?_, ⟨_, hread, rfl, rfl, rfl, h.query, h.fragment⟩, fun r huri hparams => ?_⟩
  · obtain ⟨a, hauthority, -⟩ := hsettled.exists_authority hweb
    have hlead : (c.callUrl items texts).lead = '/' :: '/' :: a.chars := by
      rw [Url.lead, hauthority]
    have hspecial : (Url.schemeKind (c.callUrl items texts).scheme).isSpecial = true := by
      rw [hweb]
      rfl
    -- the path starts with the slash before its first segment
    obtain ⟨s, rest, hpath⟩ := List.exists_cons_of_ne_nil (hsettled.filled (.inl hspecial))
    have hchars : ∀ ch ∈ '/' :: (s ++ Url.segmentsChars rest), Url.InPath ch := by
      have hsegmented := hsettled.segmented
      rw [hweb, hpath] at hsegmented
      exact Url.segmentsChars_cons s rest ▸ hsegmented.inPath
    refine ⟨a, s ++ Url.segmentsChars rest, hauthority, ?_, (List.forall_mem_cons.mp hchars).2⟩
    rw [Url.text, String.toList_ofList, hsettled.chars_eq h.query h.fragment, hlead, hpath,
      Url.segmentsChars_cons]
    simp [callUrl]
  · refine ⟨_, Http.Request.url_of_parse (huri ▸ hread), ?_⟩
    rw [hparams, Url.addPairs_nil]

/-- A call has no address just if its template does not resolve, and then for that reason; the address
of the service never is one. The address that a call has is confined to the service. -/
theorem serviceUrl_confined [Idna.Lawful] {url : String} (hc : create url = .ok c)
    (hweb : Http.isWebUrl c.base = true) (t : PathTemplate) (values : KeyMap String) :
    (∀ e, c.serviceUrl t values = .error e ↔ t.resolve values = .error e)
      ∧ (∀ service reason, c.serviceUrl t values ≠ .error (.invalidServiceUrl service reason))
      ∧ ∀ uri, c.serviceUrl t values = .ok uri → c.Confined uri := by
  obtain ⟨items, hplaced⟩ := exists_placed hc
  have hfails : ∀ e, c.serviceUrl t values = .error e ↔ t.resolve values = .error e := by
    intro e
    rw [hplaced.serviceUrl]
    cases t.resolve values with
    | error fault => simp [Except.map]
    | ok texts => simp [Except.map]
  refine ⟨hfails, fun service reason h => ?_, fun uri huri => ?_⟩
  · rcases PathTemplate.fault_of_resolve ((hfails _).mp h) with ⟨name, hname⟩ | ⟨name, value, hvalue⟩
    · cases hname
    · cases hvalue
  · rw [hplaced.serviceUrl] at huri
    obtain ⟨texts, -, rfl⟩ := map_eq_ok.mp huri
    exact hplaced.confined (schemeKind_of_isWebUrl hweb) texts

end Confinement

/-- The client of a service behind a user and a port. -/
def behindPort : ServiceClient where
  base := { scheme := "http".toList, path := .segments [[]],
            authority := some { username := "me".toList, host := .name "localhost".toList
                                port := some 81 } }

/-- An id with the signs of a query, a fragment, a user and a port stays in the path. -/
theorem serviceUrl_confined_signs : create "http://me@localhost:81" = .ok behindPort
    ∧ Http.isWebUrl behindPort.base = true
    ∧ behindPort.serviceUrl orders (.ofList [("id", "a?b#c@d:1\\%2f/")])
      = .ok "http://me@localhost:81/user/a%3Fb%23c@d:1%5C%252f%2F/orders"
    ∧ behindPort.Confined "http://me@localhost:81/user/a%3Fb%23c@d:1%5C%252f%2F/orders" := by
  have hc : create "http://me@localhost:81" = .ok behindPort := rfl
  have huri : behindPort.serviceUrl orders (.ofList [("id", "a?b#c@d:1\\%2f/")])
      = .ok "http://me@localhost:81/user/a%3Fb%23c@d:1%5C%252f%2F/orders" := rfl
  obtain ⟨-, -, hconfined⟩ :=
    serviceUrl_confined hc rfl orders (.ofList [("id", "a?b#c@d:1\\%2f/")])
  exact ⟨hc, rfl, huri, hconfined _ huri⟩

end ServiceClient

end ServiceCall
