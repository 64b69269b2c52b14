import ServiceCall.Client.Service
import ServiceCall.Proofs.Url.Reparse

/-!
# Addresses of a service

The address of a service is read from a text, with a path of segments and without query and fragment.
So is the address of each of its calls: it has further segments, and it is a text that can be read.
-/

namespace ServiceCall.ServiceClient

variable [Idna] {c : ServiceClient} {t : PathTemplate} {values : KeyMap String} {items : List (List Char)}

/-- The client of a service on the own machine. -/
def ownMachine : ServiceClient where
  base := { scheme := "http".toList, authority := some { host := .name "localhost".toList },
            path := .segments [[]] }

/-- An address that calls can go below. -/
structure Placed (c : ServiceClient) (items : List (List Char)) : Prop where
  settled : c.base.Settled items
  query : c.base.query = none
  fragment : c.base.fragment = none

/-- Every client has such an address. -/
theorem exists_placed {url : String} (hc : create url = .ok c) : ∃ items, c.Placed items := by
  rw [create] at hc
  split at hc
  · cases hc
  next u hparse =>
  split at hc
  · cases hc
  next hpath =>
  split at hc
  · cases hc
  next hends =>
  cases hc
  simp only [Bool.or_eq_true, Option.isSome_iff_ne_none, not_or, not_not] at hends
  obtain ⟨items, hu⟩ := Url.settled_of_parse hparse (Bool.eq_false_iff.mpr hpath)
  exact ⟨items, hu, hends.1, hends.2⟩

/-- The path of a call: the segments of the service and those of the call behind them. -/
def callSegments (c : ServiceClient) (items : List (List Char)) (texts : List String) :
    List (List Char) :=
  (texts.map String.toList).foldl (Url.pushSegment (Url.schemeKind c.base.scheme))
    (Url.dropEmptyEnd items)

/-- The address of the service with the path of a call. -/
def callUrl (c : ServiceClient) (items : List (List Char)) (texts : List String) : Url :=
  { c.base with path := .segments (c.callSegments items texts) }

/-- A call has an address if its template resolves. -/
theorem Placed.serviceUrl (h : c.Placed items) :
    c.serviceUrl t values = (t.resolve values).map fun texts => (c.callUrl items texts).text := by
  rw [ServiceClient.serviceUrl]
  cases t.resolve values with
  | error e => rfl
  | ok texts =>
    dsimp only
    rw [Url.extend?, h.settled.path]
    rfl

theorem Placed.settled_callUrl (h : c.Placed items) (texts : List String) :
    (c.callUrl items texts).Settled (c.callSegments items texts) :=
  h.settled.extend _

/-- The address of a call is read as a URL without query. -/
theorem Placed.exists_parse [Idna.Lawful] (h : c.Placed items) {uri : String}
    (huri : c.serviceUrl t values = .ok uri) :
    ∃ u, Url.parse uri = .ok u ∧ u.query = none := by
  rw [h.serviceUrl] at huri
  obtain ⟨texts, -, rfl⟩ := map_eq_ok.mp huri
  exact (h.settled_callUrl texts).exists_parse_text h.query h.fragment

end ServiceCall.ServiceClient
