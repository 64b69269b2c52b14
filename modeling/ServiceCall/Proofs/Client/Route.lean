import ServiceCall.Http.Client
import ServiceCall.Proofs.Client.Address
import ServiceCall.Proofs.Client.Layout
import ServiceCall.Proofs.KeyMap
import ServiceCall.Url.International

/-!
# Routes of calls

Values that the template accepts should decide nothing but their own segments: addresses of one
template have equally many segments, and other values give another address. This holds of values
without tabs and line breaks, if no literal of the template takes a value back. A value with a tab or
line break shares its address with others.
-/

namespace ServiceCall.ServiceClient

open PathTemplate (Admits Segment valueOf)
open Layout (TakesBack)

variable {c : ServiceClient} {t : PathTemplate} {values : KeyMap String}

/-! ### Addresses -/

/-- The address of the service with another path. -/
def addressOf (c : ServiceClient) (items : List (List Char)) : String :=
  Url.text { c.base with path := .segments items }

/-- The path of a call behind the segments of the service. -/
def routed (t : PathTemplate) (values : KeyMap String) (base : List (List Char)) :
    List (List Char) :=
  (t.segments.map fun s => (s.fill values).toList).foldl (Url.pushSegment .web) base

/-- A client of a web service whose calls go below the segments `base`. -/
structure Based (c : ServiceClient) (base : List (List Char)) : Prop where
  serviceUrl : ∀ (t : PathTemplate) (values : KeyMap String), t.Admits values →
    c.serviceUrl t values = .ok (c.addressOf (routed t values base))
  pathSegments : ∀ (t : PathTemplate) (values : KeyMap String),
    Url.pathSegments (c.addressOf (routed t values base)) = routed t values base

theorem schemeKind_of_isWebUrl {u : Url} (h : Http.isWebUrl u = true) :
    Url.schemeKind u.scheme = .web := by
  simp only [Http.isWebUrl, Bool.or_eq_true, beq_iff_eq] at h
  rcases h with h | h <;> rw [h] <;> rfl

/-- Every client of a web service has such segments. -/
theorem exists_based [Idna] {url : String} (hc : create url = .ok c)
    (hweb : Http.isWebUrl c.base = true) : ∃ base, c.Based base := by
  have hkind := schemeKind_of_isWebUrl hweb
  obtain ⟨items, hplaced⟩ := exists_placed hc
  have hrouted : ∀ (t : PathTemplate) (values : KeyMap String),
      c.callSegments items (t.segments.map (Segment.fill values))
        = routed t values (Url.dropEmptyEnd items) := by
    intro t values
    rw [callSegments, hkind, List.map_map]
    rfl
  refine ⟨Url.dropEmptyEnd items, fun t values hadmits => ?_, fun t values => ?_⟩
  · rw [hplaced.serviceUrl, PathTemplate.resolve_eq_ok_iff.mpr ⟨hadmits, rfl⟩, ← hrouted]
    rfl
  · rw [← hrouted]
    exact Url.pathSegments_text (hplaced.settled_callUrl _) hkind hplaced.query hplaced.fragment

/-! ### Values apart -/

/-- The template resolves with these values. -/
def Resolves (t : PathTemplate) (values : KeyMap String) : Prop :=
  ∃ texts, t.resolve values = .ok texts

/-- No value that the template takes holds a tab or line break. -/
def Clean (t : PathTemplate) (values : KeyMap String) : Prop :=
  ∀ name ∈ t.placeholders, ∀ value, values.get? name = some value →
    value.toList.any Url.isSkipped = false

/-- Of the values that are allowed and that the template resolves with, all give addresses of equally
many segments, and only the same values give the same address. -/
def Separates (c : ServiceClient) (t : PathTemplate) (allowed : KeyMap String → Prop) : Prop :=
  ∀ v w, allowed v → allowed w → Resolves t v → Resolves t w →
    ∃ a b, c.serviceUrl t v = .ok a ∧ c.serviceUrl t w = .ok b
      ∧ (Url.pathSegments a).length = (Url.pathSegments b).length
      ∧ (a = b → ∀ name ∈ t.placeholders, v.get? name = w.get? name)

theorem resolves_iff : Resolves t values ↔ t.Admits values := by
  simp only [Resolves, PathTemplate.resolve_eq_ok_iff]
  exact ⟨fun ⟨_, h, _⟩ => h, fun h => ⟨_, h, rfl⟩⟩

theorem fit_of_clean (hadmits : t.Admits values) (hclean : Clean t values) {name : String}
    (hname : .placeholder name ∈ t.segments) : Layout.Fit (valueOf values name) := by
  have hname := PathTemplate.mem_placeholders.mpr hname
  obtain ⟨value, hget, husable⟩ := hadmits name hname
  have hvalue : valueOf values name = value := by rw [valueOf, hget, Option.getD_some]
  refine ⟨hvalue ▸ husable, ?_⟩
  rw [hvalue, Url.kept, List.filter_eq_self]
  intro ch hch
  rw [Bool.not_eq_true']
  exact Bool.eq_false_iff.mpr (List.any_eq_false.mp (hclean name hname value hget) ch hch)

/-- The value of a placeholder can be told from its segment. -/
theorem get?_eq_of_fill_eq {v w : KeyMap String} {name : String} (hv : t.Admits v)
    (hw : t.Admits w) (hname : name ∈ t.placeholders)
    (h : (Slot.value name).fill v = (Slot.value name).fill w) : v.get? name = w.get? name := by
  obtain ⟨a, ha, -⟩ := hv name hname
  obtain ⟨b, hb, -⟩ := hw name hname
  have htext : valueOf v name = valueOf w name :=
    String.toList_inj.mp (Percent.encode_inSpecialSegment_injective h)
  rw [valueOf, valueOf, ha, hb, Option.getD_some, Option.getD_some] at htext
  rw [ha, hb, htext]

/-- The path of a call with values that hold no tabs and line breaks is the layout filled with them,
unless a literal takes a drive back. -/
theorem routed_of_clean (base : List (List Char)) (hadmits : t.Admits values)
    (hclean : Clean t values)
    (hdrive : TakesBack t.segments → ∀ name ∈ t.placeholders,
      Url.isDrive ((Slot.value name).fill values) = false) :
    routed t values base = (Layout.layout base t.segments).map (Slot.fill values) := by
  rw [routed, Layout.map_fill_layout fun _ hname => fit_of_clean hadmits hclean hname]
  exact fun hback name hname => hdrive hback name (PathTemplate.mem_placeholders.mpr hname)

/-- As long as no literal takes a value back, values without tabs and line breaks are kept apart. -/
theorem separates_of_not_takesBack {base : List (List Char)} (hc : c.Based base)
    (h : ¬ TakesBack t.segments) : c.Separates t (Clean t) := by
  intro v w hvclean hwclean hv hw
  rw [resolves_iff] at hv hw
  have hvroute := routed_of_clean base hv hvclean fun hback => absurd hback h
  have hwroute := routed_of_clean base hw hwclean fun hback => absurd hback h
  refine ⟨_, _, hc.serviceUrl t v hv, hc.serviceUrl t w hw, ?_, ?_⟩
  · rw [hc.pathSegments, hc.pathSegments, hvroute, hwroute, List.length_map, List.length_map]
  · intro heq name hname
    have hsegments := congrArg Url.pathSegments heq
    rw [hc.pathSegments, hc.pathSegments, hvroute, hwroute, List.map_inj_left] at hsegments
    have hplace : .value name ∈ Layout.layout base t.segments :=
      Layout.value_mem_layout h (PathTemplate.mem_placeholders.mp hname)
    exact get?_eq_of_fill_eq hv hw hname (hsegments _ hplace)

/-- The same value for every placeholder. -/
def uniform (t : PathTemplate) (value : String) : KeyMap String :=
  .ofList (t.placeholders.map fun name => (name, value))

theorem get?_uniform {value name : String} (h : name ∈ t.placeholders) :
    (uniform t value).get? name = some value := by
  rw [uniform, KeyMap.get?_ofList, ← List.map_reverse]
  have hmem : name ∈ t.placeholders.reverse := List.mem_reverse.mpr h
  generalize t.placeholders.reverse = names at hmem
  induction names with
  | nil => exact absurd hmem List.not_mem_nil
  | cons n names ih =>
    rw [List.map_cons, lookup_cons_eq_if]
    split
    · rfl
    · next hne =>
      rcases List.mem_cons.mp hmem with h | h
      · exact absurd h hne
      · exact ih h

/-- Letters as values are fit for every template, and none of them names a drive. -/
theorem of_letters
    (h : ∀ name ∈ t.placeholders, values.get? name = some "a" ∨ values.get? name = some "b") :
    t.Admits values ∧ Clean t values
      ∧ ∀ name ∈ t.placeholders, Url.isDrive ((Slot.value name).fill values) = false := by
  refine ⟨fun name hname => ?_, fun name hname value hvalue => ?_, fun name hname => ?_⟩
  · rcases h name hname with h | h
    · exact ⟨"a", h, rfl⟩
    · exact ⟨"b", h, rfl⟩
  · rcases h name hname with h | h
    · cases h.symm.trans hvalue
      rfl
    · cases h.symm.trans hvalue
      rfl
  · rw [Slot.fill, valueOf]
    rcases h name hname with h | h
    · rw [h]
      rfl
    · rw [h]
      rfl

/-- A literal that takes a value back hides the value. -/
theorem not_separates_of_takesBack {base : List (List Char)} (hc : c.Based base)
    (hnodup : t.placeholders.Nodup) (h : TakesBack t.segments) : ¬ c.Separates t (Clean t) := by
  obtain ⟨lost, hlost, hplace⟩ : ∃ name, .placeholder name ∈ t.segments
      ∧ .value name ∉ Layout.layout base t.segments := Layout.exists_value_not_mem_layout h hnodup
  have hlost := PathTemplate.mem_placeholders.mpr hlost
  -- Two maps of letters that differ in the value of the lost placeholder only.
  have hv : ∀ name ∈ t.placeholders, (uniform t "a").get? name = some "a" :=
    fun name hname => get?_uniform hname
  have hw : ∀ name ∈ t.placeholders, ((uniform t "a").insert lost "b").get? name = some "a"
      ∨ ((uniform t "a").insert lost "b").get? name = some "b" := by
    intro name hname
    rw [KeyMap.get?_insert]
    split
    · exact .inr rfl
    · exact .inl (hv name hname)
  obtain ⟨hvadmits, hvclean, hvdrive⟩ := of_letters fun name hname => .inl (hv name hname)
  obtain ⟨hwadmits, hwclean, hwdrive⟩ := of_letters hw
  have hroute : routed t (uniform t "a") base = routed t ((uniform t "a").insert lost "b") base := by
    rw [routed_of_clean base hvadmits hvclean fun _ => hvdrive,
      routed_of_clean base hwadmits hwclean fun _ => hwdrive, List.map_inj_left]
    intro slot hslot
    cases slot with
    | fixed chars => rfl
    | value name =>
      have hne : name ≠ lost := fun h => hplace (h ▸ hslot)
      rw [Slot.fill, Slot.fill, valueOf, valueOf, KeyMap.get?_insert_of_ne _ _ hne]
  intro hsep
  obtain ⟨a, b, ha, hb, -, hagree⟩ :=
    hsep _ _ hvclean hwclean (resolves_iff.mpr hvadmits) (resolves_iff.mpr hwadmits)
  rw [hc.serviceUrl t _ hvadmits] at ha
  rw [hc.serviceUrl t _ hwadmits, ← hroute, ha] at hb
  have hsame := hagree (Except.ok.inj hb) lost hlost
  rw [hv lost hlost, KeyMap.get?_insert_self] at hsame
  exact absurd (Option.some.inj hsame) (by decide)

/-- No text that is refused holds a tab or line break. -/
theorem any_isSkipped_of_isUnusable {value : String} (h : PathTemplate.isUnusable value = true) :
    value.toList.any Url.isSkipped = false := by
  simp only [PathTemplate.isUnusable, Bool.or_eq_true, beq_iff_eq] at h
  rcases h with (rfl | rfl) | rfl <;> rfl

/-- A value with a tab or line break is usable, and no plain dots. -/
theorem usable_of_skipped {value : String} (hskipped : value.toList.any Url.isSkipped = true) :
    PathTemplate.isUnusable value = false
      ∧ ¬ (value.toList = ['.'] ∨ value.toList = ['.', '.']) := by
  have hrefused : ∀ v : String, PathTemplate.isUnusable v = true → v.toList ≠ value.toList := by
    intro v hv heq
    have hclean := any_isSkipped_of_isUnusable hv
    rw [heq, hskipped] at hclean
    cases hclean
  refine ⟨Bool.eq_false_iff.mpr fun h => hrefused value h rfl, ?_⟩
  rintro (h | h)
  · exact hrefused "." rfl h.symm
  · exact hrefused ".." rfl h.symm

/-- A value with a tab or line break can be replaced by one of the same characters that count. -/
theorem routed_insert {name value other : String} (base : List (List Char))
    (hget : values.get? name = some value) (hvalue : value.toList.any Url.isSkipped = true)
    (hother : other.toList.any Url.isSkipped = true)
    (hkept : Url.kept value.toList = Url.kept other.toList) :
    routed t (values.insert name other) base = routed t values base := by
  rw [routed, routed, List.foldl_map, List.foldl_map]
  refine List.foldl_ext _ _ _ fun items s _ => ?_
  cases s with
  | literal text => rfl
  | placeholder n =>
    rw [Segment.fill, Segment.fill, valueOf, valueOf, KeyMap.get?_insert]
    split
    · next h =>
      rw [h, hget, Option.getD_some, Option.getD_some]
      exact Url.pushSegment_congr (usable_of_skipped hother).2 (usable_of_skipped hvalue).2
        hkept.symm
    · rfl

/-- A value with a tab or line break shares its address with another value. -/
theorem exists_same_address {base : List (List Char)} (hc : c.Based base) (hadmits : t.Admits values)
    (hdirty : ¬ Clean t values) : ∃ others address, Resolves t others
      ∧ c.serviceUrl t values = .ok address ∧ c.serviceUrl t others = .ok address
      ∧ ∃ name ∈ t.placeholders, values.get? name ≠ others.get? name := by
  simp only [Clean, not_forall, Bool.not_eq_false] at hdirty
  obtain ⟨name, hname, value, hget, hskipped⟩ := hdirty
  -- One more tab makes another value, but of the same characters that count.
  let longer := value ++ "\t"
  let others := values.insert name longer
  have htext : longer.toList = value.toList ++ ['\t'] := String.toList_append
  have hlonger : longer.toList.any Url.isSkipped = true := by
    rw [htext, List.any_append, hskipped, Bool.true_or]
  have hothers : t.Admits others := by
    intro n hn
    by_cases h : n = name
    · exact ⟨longer, by rw [h, KeyMap.get?_insert_self], (usable_of_skipped hlonger).1⟩
    · rw [KeyMap.get?_insert_of_ne _ _ h]
      exact hadmits n hn
  have hkept : Url.kept value.toList = Url.kept longer.toList := by
    rw [htext, Url.kept, Url.kept, List.filter_append]
    exact (List.append_nil _).symm
  have hroute := routed_insert (t := t) base hget hskipped hlonger hkept
  refine ⟨others, _, resolves_iff.mpr hothers, hc.serviceUrl t values hadmits, ?_, name, hname, ?_⟩
  · rw [hc.serviceUrl t others hothers, hroute]
  · rw [hget, KeyMap.get?_insert_self]
    intro h
    have hlength := congrArg (fun v : String => v.toList.length) (Option.some.inj h)
    simp [htext] at hlength

/-! ### The law -/

/-- Among values without tabs and line breaks, addresses of a template have equally many segments and
tell all values, if and only if no literal of the template takes a value back. Values with a tab or
line break always share their address with others. -/
theorem separates_iff [Idna] {url path : String} (hc : create url = .ok c)
    (hweb : Http.isWebUrl c.base = true) (ht : PathTemplate.parse path = .ok t) :
    (c.Separates t (Clean t) ↔ ¬ TakesBack t.segments)
      ∧ ∀ values, Resolves t values → ¬ Clean t values → ∃ others address, Resolves t others
        ∧ c.serviceUrl t values = .ok address ∧ c.serviceUrl t others = .ok address
        ∧ ∃ name ∈ t.placeholders, values.get? name ≠ others.get? name := by
  obtain ⟨base, hbase⟩ := exists_based hc hweb
  refine ⟨⟨fun hsep hback => ?_, separates_of_not_takesBack hbase⟩, fun values hvalues hdirty => ?_⟩
  · exact not_separates_of_takesBack hbase (PathTemplate.nodup_placeholders ht) hback hsep
  · exact exists_same_address hbase (resolves_iff.mp hvalues) hdirty

/-- The path to the orders of a user. -/
def orders : PathTemplate := ⟨[.literal "user", .placeholder "id", .literal "orders"]⟩

theorem create_ownMachine : create "http://localhost" = .ok ownMachine := rfl

theorem parse_orders : PathTemplate.parse "/user/:id/orders" = .ok orders := rfl

theorem not_takesBack_orders : ¬ TakesBack orders.segments := by
  rintro ⟨before, name, dots, climb, after, hsegments, -, text, rfl, -, hkept⟩
  have hmem : Segment.literal text ∈ orders.segments := by
    rw [hsegments]
    simp
  simp only [orders, List.mem_cons, List.not_mem_nil, or_false, Segment.literal.injEq, reduceCtorEq,
    false_or] at hmem
  rcases hmem with rfl | rfl <;> exact absurd hkept (by decide)

/-- Two dots around a tab are accepted as an id, and the request goes to the orders of nobody. -/
theorem dots_around_tab_reroute : create "http://localhost" = .ok ownMachine
    ∧ Http.isWebUrl ownMachine.base = true ∧ PathTemplate.parse "/user/:id/orders" = .ok orders
    ∧ ownMachine.serviceUrl orders (.ofList [("id", ".\t.")]) = .ok "http://localhost/orders"
    ∧ ownMachine.serviceUrl orders (.ofList [("id", "7")]) = .ok "http://localhost/user/7/orders"
    ∧ ¬ ownMachine.Separates orders fun _ => True := by
  have hdots : ownMachine.serviceUrl orders (.ofList [("id", ".\t.")])
      = .ok "http://localhost/orders" := rfl
  have hseven : ownMachine.serviceUrl orders (.ofList [("id", "7")])
      = .ok "http://localhost/user/7/orders" := rfl
  refine ⟨create_ownMachine, rfl, parse_orders, hdots, hseven, fun hsep => ?_⟩
  obtain ⟨a, b, ha, hb, hlength, -⟩ :=
    hsep (.ofList [("id", ".\t.")]) (.ofList [("id", "7")]) trivial trivial ⟨_, rfl⟩ ⟨_, rfl⟩
  rw [hdots] at ha
  rw [hseven] at hb
  cases ha
  cases hb
  exact absurd hlength (by decide)

/-- Ids without tabs and line breaks are told apart by the addresses of their orders; an id with a tab
is not. -/
theorem separates_orders : ownMachine.Separates orders (Clean orders)
    ∧ ∃ others address, Resolves orders others
      ∧ ownMachine.serviceUrl orders (.ofList [("id", "a\tb")]) = .ok address
      ∧ ownMachine.serviceUrl orders others = .ok address := by
  obtain ⟨hiff, hshared⟩ := separates_iff create_ownMachine rfl parse_orders
  have hdirty : ¬ Clean orders (.ofList [("id", "a\tb")]) := by
    intro hclean
    have htab := hclean "id" (by decide) "a\tb" rfl
    cases htab
  obtain ⟨others, address, hothers, ha, hb, -⟩ :=
    hshared (.ofList [("id", "a\tb")]) ⟨_, rfl⟩ hdirty
  exact ⟨hiff.mpr not_takesBack_orders, others, address, hothers, ha, hb⟩

end ServiceCall.ServiceClient
