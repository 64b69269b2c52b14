import ServiceCall.Proofs.Client.Route
import ServiceCall.Proofs.Url.Keeping

/-!
# Routes without placeholders

A template without placeholders always leads to the same address of a service. The segments of the
address are those of the service, and then what is written between the slashes of the template, if all
of that keeps its place in a path. Among such templates no two lead to the same address; but dots are
left out of a path, so every template shares its address with one that has more of them.
-/

namespace ServiceCall

namespace PathTemplate

variable {t : PathTemplate}

/-- Without placeholders, a template resolves to its pieces. -/
theorem resolve_of_free (hfree : t.placeholders = []) (values : KeyMap String) :
    ∃ texts, t.resolve values = .ok texts ∧ texts.map String.toList = t.pieces := by
  refine ⟨_, resolve_eq_ok_iff.mpr ⟨fun name hname => ?_, rfl⟩, ?_⟩
  · rw [hfree] at hname
    cases hname
  · rw [pieces, List.map_map]
    refine List.map_congr_left fun s hs => ?_
    cases s with
    | literal text => rfl
    | placeholder name =>
      have hname : name ∈ t.placeholders := mem_placeholders.mpr hs
      rw [hfree] at hname
      cases hname

/-- Segments are read one after the other. -/
theorem readSegments_append (earlier : List Segment) (ps qs : List (List Char)) :
    readSegments earlier (ps ++ qs) = readSegments earlier ps >>= fun out => readSegments out qs := by
  induction ps generalizing earlier with
  | nil => rfl
  | cons p ps ih =>
    rw [List.cons_append, readSegments.eq_def, readSegments.eq_def earlier (p :: ps)]
    dsimp only
    split
    · split
      · rfl
      split
      · rfl
      · exact ih _
    · exact ih _

/-- A dot behind a template is a further literal. -/
theorem parse_append_dot {path : String} (h : parse path = .ok t) :
    parse (path ++ "/.") = .ok ⟨t.segments ++ [.literal "."]⟩ := by
  obtain ⟨rest, hpath, hends, hread⟩ := parse_ok_iff_slash.mp h
  refine parse_ok_iff_slash.mpr ⟨rest ++ '/' :: ['.'], ?_, ?_, ?_⟩
  · rw [String.toList_append, hpath]
    rfl
  · rw [List.any_append, hends]
    rfl
  · rw [List.splitOn_append_cons_self, readSegments_append, hread]
    rfl

end PathTemplate

namespace ServiceClient

variable {c : ServiceClient} {t : PathTemplate} {values : KeyMap String} {items : List (List Char)}

/-- The segments of the service, without an empty one at the end. -/
def ownSegments (c : ServiceClient) : List (List Char) := Url.trimmed (Url.pathSegments c.base.text)

/-- The segments of the address are those of the service, and behind them one for each piece of the
template, which spells it. -/
def Follows (c : ServiceClient) (t : PathTemplate) (uri : String) : Prop :=
  ∃ tail, Url.pathSegments uri = c.ownSegments ++ tail ∧ List.Forall₂ Url.Spells tail t.pieces

/-- All pieces of the template keep their place behind the segments of the service. -/
def Keeps (c : ServiceClient) (t : PathTemplate) : Prop := Url.AllStay c.ownSegments t.pieces

theorem Placed.ownSegments [Idna] (h : c.Placed items) (hkind : Url.schemeKind c.base.scheme = .web) :
    c.ownSegments = Url.trimmed items := by
  rw [ServiceClient.ownSegments, Url.pathSegments_text h.settled hkind h.query h.fragment]

theorem Placed.ne_nil [Idna] (h : c.Placed items) (hkind : Url.schemeKind c.base.scheme = .web) :
    items ≠ [] := by
  refine h.settled.filled (.inl ?_)
  rw [hkind]
  rfl

/-- The address of a template without placeholders, and the segments in it. -/
theorem Placed.serviceUrl_of_free [Idna] (h : c.Placed items)
    (hkind : Url.schemeKind c.base.scheme = .web) (hfree : t.placeholders = []) (values : KeyMap String) :
    c.serviceUrl t values = .ok (c.addressOf (Url.extended items t.pieces))
      ∧ Url.pathSegments (c.addressOf (Url.extended items t.pieces)) = Url.extended items t.pieces := by
  obtain ⟨texts, hresolve, htexts⟩ := PathTemplate.resolve_of_free hfree values
  have hsegments : c.callSegments items texts = Url.extended items t.pieces := by
    rw [callSegments, hkind, htexts, Url.extended]
  have haddress : (c.callUrl items texts).text = c.addressOf (Url.extended items t.pieces) := by
    rw [callUrl, hsegments, addressOf]
  constructor
  · rw [h.serviceUrl, hresolve, ← haddress]
    rfl
  · rw [← haddress, ← hsegments]
    exact Url.pathSegments_text (h.settled_callUrl texts) hkind h.query h.fragment

theorem Follows.length {uri : String} (h : c.Follows t uri) :
    (Url.pathSegments uri).length = c.ownSegments.length + t.pieces.length := by
  obtain ⟨tail, htail, hspells⟩ := h
  rw [htail, List.length_append, hspells.length_eq]

/-- Of two templates that keep their place, each leads to an address of its own. -/
theorem eq_of_follows {path other : String} {u : PathTemplate} {uri : String}
    (ht : PathTemplate.parse path = .ok t) (hu : PathTemplate.parse other = .ok u)
    (htfollows : c.Follows t uri) (hufollows : c.Follows u uri) : u = t := by
  obtain ⟨tail, htail, htspells⟩ := htfollows
  obtain ⟨tail', htail', huspells⟩ := hufollows
  obtain rfl := List.append_cancel_left (htail.symm.trans htail')
  -- a segment spells one text only
  have hpieces : t.pieces = u.pieces := Url.spells_rightUnique.forall₂ htspells huspells
  have hpath : path = other := by
    rw [← PathTemplate.text_of_parse ht, ← PathTemplate.text_of_parse hu, PathTemplate.text_eq, hpieces,
      ← PathTemplate.text_eq]
  rw [hpath] at ht
  exact Except.ok.inj (hu.symm.trans ht)

/-- The address of a template without placeholders follows the template just if all of its pieces keep
their place. Then no other such template leads to this address; but some template always does. -/
theorem follows_iff [Idna] {url path : String} (hc : create url = .ok c)
    (hweb : Http.isWebUrl c.base = true) (ht : PathTemplate.parse path = .ok t)
    (hfree : t.placeholders = []) (values : KeyMap String) :
    ∃ uri, c.serviceUrl t values = .ok uri
      ∧ (c.Follows t uri ↔ c.Keeps t)
      ∧ (∀ other u, PathTemplate.parse other = .ok u → u.placeholders = [] → c.Keeps t → c.Keeps u →
          c.serviceUrl u values = .ok uri → u = t)
      ∧ ∃ other u, PathTemplate.parse other = .ok u ∧ u.placeholders = [] ∧ u ≠ t
          ∧ c.serviceUrl u values = .ok uri := by
  have hkind := schemeKind_of_isWebUrl hweb
  obtain ⟨items, hplaced⟩ := exists_placed hc
  have hown := hplaced.ownSegments hkind
  -- for any template, since the second part is about two of them
  have hfollows : ∀ {p : String} {u : PathTemplate}, PathTemplate.parse p = .ok u →
      u.placeholders = [] →
      (c.Follows u (c.addressOf (Url.extended items u.pieces)) ↔ c.Keeps u) := by
    intro p u hu hufree
    have hpieces : u.pieces ≠ [] := by
      obtain ⟨rest, -, hpieces⟩ := PathTemplate.pieces_of_parse hu
      exact hpieces ▸ List.splitOn_ne_nil '/' rest
    rw [Follows, Keeps, hown, (hplaced.serviceUrl_of_free hkind hufree values).2]
    exact Url.extended_iff (hplaced.ne_nil hkind) hpieces
  obtain ⟨huri, -⟩ := hplaced.serviceUrl_of_free hkind hfree values
  refine ⟨_, huri, hfollows ht hfree, ?_, ?_⟩
  · intro other u hu hufree htkeeps hukeeps huuri
    have hsame := (hplaced.serviceUrl_of_free hkind hufree values).1.symm.trans huuri
    have hutakes := (hfollows hu hufree).mpr hukeeps
    rw [Except.ok.inj hsame] at hutakes
    exact eq_of_follows ht hu ((hfollows ht hfree).mpr htkeeps) hutakes
  · -- a dot at the end of the path adds nothing to the address
    have hdotted : (⟨t.segments ++ [.literal "."]⟩ : PathTemplate).placeholders = [] := by
      rw [PathTemplate.placeholders, List.filterMap_append]
      exact (List.append_nil _).trans hfree
    have hpath : Url.extended items (⟨t.segments ++ [.literal "."]⟩ : PathTemplate).pieces
        = Url.extended items t.pieces := by
      rw [PathTemplate.pieces, List.map_append]
      exact (Url.extended_concat _ _ _).trans rfl
    refine ⟨_, _, PathTemplate.parse_append_dot ht, hdotted, fun h => ?_, ?_⟩
    · have hlength := congrArg (fun u : PathTemplate => u.segments.length) h
      simp at hlength
    · rw [(hplaced.serviceUrl_of_free hkind hdotted values).1, hpath]

/-- The path to all orders of all users. -/
def allOrders : PathTemplate := ⟨[.literal "user", .literal "orders"]⟩

/-- The path to all orders, with a dot among its literals. -/
def dottedOrders : PathTemplate := ⟨[.literal "user", .literal ".", .literal "orders"]⟩

/-- The path to all orders, with an empty literal at its head. -/
def doubledOrders : PathTemplate := ⟨[.literal "", .literal "user", .literal "orders"]⟩

/-- The path to all orders, with a tab in a literal. -/
def tabbedOrders : PathTemplate := ⟨[.literal "us\ter", .literal "orders"]⟩

/-- The pieces of a plain path keep their place, so its address follows it. It is the address of another
template too. -/
theorem follows_iff_allOrders : create "http://localhost" = .ok ownMachine
    ∧ PathTemplate.parse "/user/orders" = .ok allOrders
    ∧ ownMachine.serviceUrl allOrders .empty = .ok "http://localhost/user/orders"
    ∧ ownMachine.Follows allOrders "http://localhost/user/orders"
    ∧ ∃ other u, PathTemplate.parse other = .ok u ∧ u ≠ allOrders
        ∧ ownMachine.serviceUrl u .empty = .ok "http://localhost/user/orders" := by
  have ht : PathTemplate.parse "/user/orders" = .ok allOrders := rfl
  have huri : ownMachine.serviceUrl allOrders .empty = .ok "http://localhost/user/orders" := rfl
  have hkeeps : ownMachine.Keeps allOrders := by
    show Url.AllStay [] ([] ++ ["user".toList] ++ ["orders".toList])
    refine Url.allStay_concat_iff.mpr ⟨Url.allStay_concat_iff.mpr ⟨Url.allStay_nil _, ?_, ?_⟩, ?_, ?_⟩
    · exact ⟨by decide, by decide, rfl⟩
    · decide
    · exact ⟨by decide, by decide, rfl⟩
    · decide
  obtain ⟨uri, hsame, hfollows, -, other, u, hu, -, hne, huuri⟩ :=
    follows_iff create_ownMachine rfl ht rfl .empty
  cases huri.symm.trans hsame
  exact ⟨create_ownMachine, ht, huri, hfollows.mpr hkeeps, other, u, hu, hne, huuri⟩

/-- A dot, an empty literal at the head of a path and a tab are left out of the address of a service at
the root: three templates are read that lead to the address of a fourth and do not follow it. -/
theorem literals_left_out : create "http://localhost" = .ok ownMachine
    ∧ PathTemplate.parse "/user/orders" = .ok allOrders
    ∧ PathTemplate.parse "/user/./orders" = .ok dottedOrders
    ∧ PathTemplate.parse "//user/orders" = .ok doubledOrders
    ∧ PathTemplate.parse "/us\ter/orders" = .ok tabbedOrders
    ∧ ownMachine.serviceUrl allOrders .empty = .ok "http://localhost/user/orders"
    ∧ ∀ t ∈ [dottedOrders, doubledOrders, tabbedOrders], t.placeholders = [] ∧ t ≠ allOrders
      ∧ ownMachine.serviceUrl t .empty = .ok "http://localhost/user/orders"
      ∧ ¬ ownMachine.Follows t "http://localhost/user/orders" := by
  have hshort {t : PathTemplate} (h : 2 < t.pieces.length) :
      ¬ ownMachine.Follows t "http://localhost/user/orders" := by
    intro hfollows
    have hlength : 2 = t.pieces.length := hfollows.length.trans (Nat.zero_add _)
    omega
  refine ⟨create_ownMachine, rfl, rfl, rfl, rfl, rfl, fun t ht => ?_⟩
  simp only [List.mem_cons, List.not_mem_nil, or_false] at ht
  rcases ht with rfl | rfl | rfl
  · exact ⟨rfl, by decide, rfl, hshort (by decide)⟩
  · exact ⟨rfl, by decide, rfl, hshort (by decide)⟩
  · refine ⟨rfl, by decide, rfl, fun ⟨tail, htail, hspells⟩ => ?_⟩
    have htail : ["user".toList, "orders".toList] = tail := htail
    rw [← htail] at hspells
    cases hspells with
    | cons hhead _ =>
      have htab : Percent.decode "user".toList
          ≠ ['u', 's', '\t', 'e', 'r'].flatMap String.utf8EncodeChar := by decide
      exact htab hhead

end ServiceClient

end ServiceCall
