import ServiceCall.Proofs.Client.Address
import ServiceCall.Proofs.Client.Route
import ServiceCall.Proofs.Url.Form
import ServiceCall.Proofs.Url.International

/-!
# Beans in the query

The pairs of a request stand in the query of its URL behind those of its address, and can be read back
from there as they are. So can a bean that is placed as pairs: its members that are not null, in their
order, each with its text.
-/

namespace ServiceCall

/-! ### Members as pairs -/

namespace Bean

/-- The value is not null. -/
def isPresent : Json → Bool
  | .null => false
  | _ => true

/-- The pair has the name of the member and the text of its value. -/
def Renders (member : String × Json) (pair : String × String) : Prop :=
  pair.1 = member.1 ∧ member.2.scalarText? = some pair.2

/-- The members that are not null. -/
def present (members : List (String × Json)) : List (String × Json) :=
  members.filter fun m => isPresent m.2

/-- The pairs tell the members that are not null, in their order. -/
theorem renders_of_queryMembers {members : List (String × Json)} {pairs : List (String × String)}
    (h : queryMembers members = .ok pairs) : List.Forall₂ Renders (present members) pairs := by
  induction members generalizing pairs with
  | nil =>
    cases h
    exact .nil
  | cons m members ih =>
    obtain ⟨name, value⟩ := m
    cases value with
    | null => exact ih h
    | array _ => cases h
    | object _ => cases h
    | bool b =>
      obtain ⟨rest, hrest, rfl⟩ := map_eq_ok.mp h
      exact .cons ⟨rfl, rfl⟩ (ih hrest)
    | number n =>
      obtain ⟨rest, hrest, rfl⟩ := map_eq_ok.mp h
      exact .cons ⟨rfl, rfl⟩ (ih hrest)
    | text s =>
      obtain ⟨rest, hrest, rfl⟩ := map_eq_ok.mp h
      exact .cons ⟨rfl, rfl⟩ (ih hrest)

end Bean

/-! ### Pairs of a request -/

namespace Http

/-- What pairs of a request make of its address: they stand behind the pairs of the query, nothing else
is changed, and without pairs nothing is. -/
structure Extends (more : List (String × String)) (u extended : Url) : Prop where
  frame : extended = { u with query := extended.query }
  pairs : extended.pairs = u.pairs ++ more
  unchanged : more = [] → extended = u

theorem extends_addPairs (u : Url) (more : List (String × String)) :
    Extends more u (u.addPairs more) where
  frame := u.addPairs_eq more
  pairs := u.pairs_addPairs more
  unchanged h := by rw [h, Url.addPairs_nil]

theorem Request.url_of_parse [Idna] {r : Request} {u : Url} (h : Url.parse r.uri = .ok u) :
    r.url = .ok (u.addPairs r.params) := by
  rw [Request.url, h]
  rfl

end Http

namespace ServiceClient

/-- The query carries the members of a bean; where all of them are null there is none. -/
structure Carries (u : Url) (members : List (String × Json)) : Prop where
  pairs : List.Forall₂ Bean.Renders (Bean.present members) u.pairs
  query : u.query = none ↔ Bean.present members = []

/-- Pairs that tell the members, added to a URL without query. -/
theorem carries_addPairs {u : Url} {members : List (String × Json)} {pairs : List (String × String)}
    (hquery : u.query = none) (hpairs : List.Forall₂ Bean.Renders (Bean.present members) pairs) :
    Carries (u.addPairs pairs) members := by
  have hnone : u.pairs = [] := by
    rw [Url.pairs, hquery]
    rfl
  have hempty : pairs = [] ↔ Bean.present members = [] := by
    rw [← List.length_eq_zero_iff, ← hpairs.length_eq, List.length_eq_zero_iff]
  constructor
  · rw [u.pairs_addPairs, hnone]
    exact hpairs
  · rw [Url.query_addPairs_eq_none_iff, hempty]
    exact and_iff_right hquery

/-- A request to an address of the service that its bean is placed in as pairs of the query. -/
theorem exists_carries [Idna] [Idna.Lawful] {c : ServiceClient} {items : List (List Char)}
    (hplaced : c.Placed items) {t : PathTemplate} {values : KeyMap String} {r : Http.Request}
    {members : List (String × Json)} {pairs : List (String × String)} (huri : c.serviceUrl t values = .ok r.uri)
    (hparams : r.params = []) (hverb : r.method.hasBody = false)
    (hpairs : Bean.encodeQuery (.object members) = .ok pairs) :
    ∃ sent u, r.putBean (.object members) = .ok sent ∧ sent.url = .ok u ∧ Carries u members := by
  obtain ⟨u, hu, hquery⟩ := hplaced.exists_parse huri
  have hsent : r.putBean (.object members) = .ok { r with params := pairs } := by
    rw [Http.Request.putBean, hverb, hpairs, hparams]
    rfl
  have hurl : ({ r with params := pairs } : Http.Request).url = .ok (u.addPairs pairs) :=
    Http.Request.url_of_parse hu
  exact ⟨_, _, hsent, hurl, carries_addPairs hquery (Bean.renders_of_queryMembers hpairs)⟩

/-! ### The law -/

/-- A bean with signs of a query in its names and texts, and a member that is null. -/
def sampleFilter : List (String × Json) :=
  [("name", .text "a b&c=d"), ("note", .null), ("größe+", .text "100%"), ("open", .bool true)]

end ServiceClient

end ServiceCall
