import ServiceCall.Proofs.Stub.Generation

/-!
# The arguments that a stub takes

A stub looks a parameter up by the name of an argument, and takes the first one of that name. So the
arguments of a method reach their placeholders if no parameter has a name that a path parameter
behind it has too. Otherwise the method cannot be called at all.
-/

namespace ServiceCall

/-- The parameters that are bound to placeholders. -/
def pathParams (params : List Param) : List Param := params.filter (·.binding != .bean)

/-- A value that has a text: a text, a number or a truth value. -/
inductive Scalar : Json → Prop
  | text (s : String) : Scalar (.text s)
  | number (n : Json.Number) : Scalar (.number n)
  | bool (b : Bool) : Scalar (.bool b)

/-- The request bean that is given; null is none. -/
def givenBean : Option Json → Option Json
  | some .null => none
  | bean => bean

/-- What a method declares, supplied: each path parameter has a scalar value, under its name and in
any order, and there is a request bean just if the method has one. -/
structure Supplies (m : ServiceMethod) (given : List (Param × Json)) (args : CallArgs) : Prop where
  params : (given.map Prod.fst).Perm (pathParams m.params)
  scalar : ∀ g ∈ given, Scalar g.2
  named : args.path = given.map fun g => (g.1.name, g.2)
  bean : (givenBean args.bean).isSome ↔ ∃ p ∈ m.params, p.binding = .bean

/-- A stub takes arguments: each placeholder gets the text of the value that was supplied for the
parameter bound to it. -/
def Stub.Takes (s : Stub) (given : List (Param × Json)) (args : CallArgs) : Prop :=
  ∃ values, s.partition args = .ok (values, givenBean args.bean)
    ∧ ∀ x ∈ s.template.placeholders, ∃ p v text, (p, v) ∈ given ∧ p.binding = .path x
      ∧ v.scalarText? = some text ∧ values.get? x = some text

/-- No parameter has the name of a path parameter behind it. -/
def ServiceMethod.NamesApart (m : ServiceMethod) : Prop :=
  m.params.Pairwise fun earlier later => later.binding ≠ .bean → earlier.name ≠ later.name

/-! ### Parameters -/

theorem placeholder?_eq_some_iff {b : Binding} {x : String} :
    b.placeholder? = some x ↔ b = .path x := by
  cases b <;> simp [Binding.placeholder?]

theorem mem_boundNames {params : List Param} {x : String} :
    x ∈ boundNames params ↔ ∃ p ∈ params, p.binding = .path x := by
  simp [boundNames, placeholder?_eq_some_iff]

theorem mem_pathParams {params : List Param} {p : Param} :
    p ∈ pathParams params ↔ p ∈ params ∧ ∃ x, p.binding = .path x := by
  rw [pathParams, List.mem_filter]
  cases p.binding <;> simp

theorem boundNames_pathParams (params : List Param) :
    boundNames (pathParams params) = boundNames params := by
  rw [boundNames, pathParams, List.filterMap_filter, boundNames]
  refine List.filterMap_congr fun p _ => ?_
  cases p.binding <;> simp [Binding.placeholder?]

theorem boundNames_cons_path {p : Param} {x : String} (hp : p.binding = .path x)
    (params : List Param) : boundNames (p :: params) = x :: boundNames params := by
  simp [boundNames, hp, Binding.placeholder?]

theorem nodup_boundNames_tail {p : Param} {params : List Param}
    (h : (boundNames (p :: params)).Nodup) : (boundNames params).Nodup :=
  h.sublist ((List.sublist_cons_self p params).filterMap _)

/-- A placeholder that is bound once has no second parameter. -/
theorem binding_ne_of_bound_once {p q : Param} {params : List Param}
    (honce : (boundNames (p :: params)).Nodup) {x : String} (hp : p.binding = .path x)
    (hq : q ∈ params) : q.binding ≠ .path x := by
  rw [boundNames_cons_path hp, List.nodup_cons] at honce
  exact fun hqx => honce.1 (mem_boundNames.mpr ⟨q, hq, hqx⟩)

theorem eq_of_bound_once {params : List Param} (honce : (boundNames params).Nodup) {p q : Param}
    (hp : p ∈ params) (hq : q ∈ params) {x : String} (hpx : p.binding = .path x)
    (hqx : q.binding = .path x) : p = q := by
  induction params with
  | nil => cases hp
  | cons head rest ih =>
    rcases List.mem_cons.mp hp with hphead | hprest
    · rcases List.mem_cons.mp hq with hqhead | hqrest
      · rw [hphead, hqhead]
      · exact absurd hqx (binding_ne_of_bound_once honce (hphead ▸ hpx) hqrest)
    · rcases List.mem_cons.mp hq with hqhead | hqrest
      · exact absurd hpx (binding_ne_of_bound_once honce (hqhead ▸ hqx) hprest)
      · exact ih (nodup_boundNames_tail honce) hprest hqrest

theorem beanParam?_eq_none_iff {m : ServiceMethod} :
    m.beanParam? = none ↔ ¬ ∃ p ∈ m.params, p.binding = .bean := by
  simp [ServiceMethod.beanParam?]

/-! ### Names -/

/-- If the names are apart, each path parameter is found under its own name. -/
theorem find?_of_namesApart {m : ServiceMethod} (h : m.NamesApart) {p : Param} {x : String}
    (hp : p ∈ m.params) (hpx : p.binding = .path x) :
    m.params.find? (·.name == p.name) = some p := by
  obtain ⟨before, after, hparams⟩ := List.append_of_mem hp
  rw [ServiceMethod.NamesApart, hparams, List.pairwise_append] at h
  obtain ⟨-, -, hpair⟩ := h
  rw [List.find?_eq_some_iff_append]
  refine ⟨beq_self_eq_true p.name, before, after, hparams, fun q hq => ?_⟩
  have hne : q.name ≠ p.name := hpair q hq p List.mem_cons_self (by simp [hpx])
  simpa using hne

/-- If each path parameter is found under its own name, the names are apart. -/
theorem pairwise_of_find? {params : List Param} (honce : (boundNames params).Nodup)
    (h : ∀ p ∈ params, ∀ x, p.binding = .path x → params.find? (·.name == p.name) = some p) :
    params.Pairwise fun earlier later => later.binding ≠ .bean → earlier.name ≠ later.name := by
  induction params with
  | nil => exact .nil
  | cons head rest ih =>
    -- each name finds its own parameter, so none in front of that one has it
    have hne : ∀ p ∈ rest, ∀ x, p.binding = .path x → head.name ≠ p.name := by
      intro p hp x hpx hname
      have hfind := h p (List.mem_cons_of_mem head hp) x hpx
      rw [List.find?_cons_of_pos (by simpa using hname)] at hfind
      have hhead : head = p := Option.some.inj hfind
      exact binding_ne_of_bound_once honce (hhead ▸ hpx) hp hpx
    refine List.pairwise_cons.mpr ⟨fun p hp hpath => ?_, ih (nodup_boundNames_tail honce) ?_⟩
    · cases hpx : p.binding with
      | bean => exact absurd hpx hpath
      | path x => exact hne p hp x hpx
    · intro p hp x hpx
      have hfind := h p (List.mem_cons_of_mem head hp) x hpx
      rwa [List.find?_cons_of_neg (by simpa using hne p hp x hpx)] at hfind

/-! ### Values -/

theorem scalar_iff {v : Json} : Scalar v ↔ ∃ text, v.scalarText? = some text := by
  constructor
  · rintro (s | n | b) <;> exact ⟨_, rfl⟩
  · rintro ⟨text, h⟩
    obtain rfl | ⟨n, rfl, -⟩ | ⟨rfl, -⟩ | ⟨rfl, -⟩ := Json.scalarText?_eq_some_iff.mp h
    · exact .text text
    · exact .number n
    · exact .bool true
    · exact .bool false

theorem givenBean_some {bean : Json} (h : bean ≠ .null) : givenBean (some bean) = some bean := by
  cases bean with
  | null => exact absurd rfl h
  | bool _ | number _ | text _ | array _ | object _ => rfl

theorem encodePathValue_eq_ok_iff {v : Json} {text : String} :
    Bean.encodePathValue v = .ok text ↔ v.scalarText? = some text := by
  rw [Bean.encodePathValue]
  cases v.scalarText? <;> simp

namespace Stub

variable {s : Stub} {args : CallArgs}

/-- What an argument becomes: the placeholder of its parameter, and the text of its value. -/
def Binds (s : Stub) (argument : String × Json) (bound : String × String) : Prop :=
  s.placeholder? argument.1 = some bound.1 ∧ argument.2.scalarText? = some bound.2

theorem placeholder?_eq_some_iff {name x : String} : s.placeholder? name = some x
    ↔ ∃ p, s.spec.params.find? (·.name == name) = some p ∧ p.binding = .path x := by
  simp [placeholder?, Option.bind_eq_some_iff, ServiceCall.placeholder?_eq_some_iff]

/-- Arguments are bound one after the other, or there is a first one that cannot be. -/
theorem bindPath_eq_ok_iff {arguments : List (String × Json)} {earlier out : KeyMap String} :
    s.bindPath earlier arguments = .ok out ↔ ∃ bound, List.Forall₂ s.Binds arguments bound
      ∧ bound.foldl (fun values p => values.insert p.1 p.2) earlier = out := by
  induction arguments generalizing earlier with
  | nil => simp [bindPath]
  | cons argument rest ih =>
    obtain ⟨name, value⟩ := argument
    rw [bindPath]
    cases hname : s.placeholder? name with
    | none => simp [List.forall₂_cons_left_iff, Binds, hname]
    | some x =>
      cases htext : Bean.encodePathValue value with
      | error e =>
        have hnone : ∀ text, value.scalarText? ≠ some text := by
          intro text h
          cases htext.symm.trans (encodePathValue_eq_ok_iff.mpr h)
        simp [List.forall₂_cons_left_iff, Binds, hnone]
      | ok text =>
        rw [encodePathValue_eq_ok_iff] at htext
        simp only [ih, List.forall₂_cons_left_iff, Binds, hname, htext]
        constructor
        · rintro ⟨bound, hbound, hout⟩
          exact ⟨(x, text) :: bound, ⟨(x, text), bound, ⟨rfl, rfl⟩, hbound, rfl⟩, hout⟩
        · rintro ⟨_, ⟨⟨_, _⟩, bound, ⟨⟨⟩, ⟨⟩⟩, hbound, rfl⟩, hout⟩
          exact ⟨bound, hbound, hout⟩

theorem bindBean_eq_ok_iff {bean out : Option Json} : s.bindBean bean = .ok out
    ↔ givenBean bean = out ∧ (out.isSome → ∃ p ∈ s.spec.params, p.binding = .bean) := by
  have hdeclared : s.spec.beanParam?.isSome ↔ ∃ p ∈ s.spec.params, p.binding = .bean := by
    rw [← not_iff_not, ← beanParam?_eq_none_iff, Option.not_isSome_iff_eq_none]
  rw [← hdeclared, bindBean.eq_def]
  have habsent : none = out → out.isSome → s.spec.beanParam?.isSome := by
    rintro rfl hsome
    cases hsome
  -- no bean, a null in place of it, and one that is given
  split
  · simpa [givenBean] using habsent
  · simpa [givenBean] using habsent
  · next bean hnull =>
    rw [givenBean_some hnull]
    cases s.spec.beanParam? with
    | none =>
      refine ⟨fun h => (nomatch h), fun ⟨hout, hsome⟩ => ?_⟩
      cases hsome (hout ▸ rfl)
    | some p => simp

theorem find?_isUnbound_eq_none_iff {values : KeyMap String} {params : List Param} :
    params.find? (isUnbound values) = none ↔ ∀ x ∈ boundNames params, values.contains x = true := by
  have hbound : ∀ p : Param, ¬ isUnbound values p = true
      ↔ ∀ x, p.binding = .path x → values.contains x = true := by
    intro p
    unfold isUnbound
    cases p.binding <;> simp [Binding.placeholder?]
  rw [List.find?_eq_none]
  simp only [hbound, mem_boundNames]
  constructor
  · rintro h x ⟨p, hp, hpx⟩
    exact h p hp x hpx
  · exact fun h p hp x hpx => h x ⟨p, hp, hpx⟩

/-- When arguments are taken, and what becomes of them. -/
theorem partition_eq_ok_iff {values : KeyMap String} {bean : Option Json} :
    s.partition args = .ok (values, bean)
      ↔ (∃ bound, List.Forall₂ s.Binds args.path bound ∧ KeyMap.ofList bound = values
          ∧ ∀ x ∈ boundNames s.spec.params, x ∈ bound.map Prod.fst)
        ∧ s.bindBean args.bean = .ok bean := by
  constructor
  · intro h
    rw [partition] at h
    split at h
    · cases h
    · next bindings hpath =>
      obtain ⟨bound, hbound, rfl⟩ := bindPath_eq_ok_iff.mp hpath
      split at h
      · cases h
      · next hfind =>
        obtain ⟨out, hbean, hpair⟩ := map_eq_ok.mp h
        cases hpair
        rw [find?_isUnbound_eq_none_iff] at hfind
        exact ⟨⟨bound, hbound, rfl, fun x hx => (KeyMap.contains_ofList bound x).mp (hfind x hx)⟩,
          hbean⟩
  · rintro ⟨⟨bound, hbound, rfl, hcomplete⟩, hbean⟩
    have hpath : s.bindPath .empty args.path = .ok (KeyMap.ofList bound) :=
      bindPath_eq_ok_iff.mpr ⟨bound, hbound, rfl⟩
    have hfind : s.spec.params.find? (isUnbound (KeyMap.ofList bound)) = none :=
      find?_isUnbound_eq_none_iff.mpr fun x hx =>
        (KeyMap.contains_ofList bound x).mpr (hcomplete x hx)
    simp only [partition, hpath, hfind, hbean]
    rfl

/-! ### Arguments as declared -/

/-- The placeholder and the text of what is supplied for a parameter. -/
def boundPair (g : Param × Json) : String × String :=
  (g.1.binding.placeholder?.getD "", g.2.scalarText?.getD "")

section Declared

variable {given : List (Param × Json)} (hgiven : Supplies s.spec given args)
include hgiven

/-- What is supplied for a parameter goes to the placeholder of that parameter. -/
theorem binds_boundPair (hnames : s.spec.NamesApart) {g : Param × Json} (hg : g ∈ given) :
    s.Binds (g.1.name, g.2) (boundPair g) ∧ g.1.binding = .path (boundPair g).1 := by
  obtain ⟨hp, x, hpx⟩ := mem_pathParams.mp (hgiven.params.mem_iff.mp (List.mem_map_of_mem hg))
  obtain ⟨text, htext⟩ := scalar_iff.mp (hgiven.scalar g hg)
  have hpair : boundPair g = (x, text) := by
    simp [boundPair, hpx, htext, Binding.placeholder?]
  rw [hpair]
  exact ⟨⟨placeholder?_eq_some_iff.mpr ⟨g.1, find?_of_namesApart hnames hp hpx, hpx⟩, htext⟩, hpx⟩

/-- The placeholders that get something are those that are bound, each once. -/
theorem perm_boundPair (hnames : s.spec.NamesApart) :
    ((given.map boundPair).map Prod.fst).Perm (boundNames s.spec.params) := by
  have hfirst : (given.map boundPair).map Prod.fst = boundNames (given.map Prod.fst) := by
    rw [boundNames, List.filterMap_map, List.map_map, ← List.filterMap_eq_map]
    refine List.filterMap_congr fun g hg => ?_
    simp [(binds_boundPair hgiven hnames hg).2, Binding.placeholder?]
  rw [hfirst, ← boundNames_pathParams s.spec.params]
  exact hgiven.params.filterMap _

/-- Arguments as declared are taken where the names are apart. -/
theorem takes_of_namesApart (hfit : Supports s.spec s.verb s.template)
    (hnames : s.spec.NamesApart) : s.Takes given args := by
  have hbound : List.Forall₂ s.Binds args.path (given.map boundPair) := by
    rw [hgiven.named, List.forall₂_map_left_iff, List.forall₂_map_right_iff, List.forall₂_same]
    exact fun g hg => (binds_boundPair hgiven hnames hg).1
  have hperm := perm_boundPair hgiven hnames
  have hpartition : s.partition args = .ok (KeyMap.ofList (given.map boundPair),
      givenBean args.bean) :=
    partition_eq_ok_iff.mpr ⟨⟨_, hbound, rfl, fun x hx => hperm.mem_iff.mpr hx⟩,
      bindBean_eq_ok_iff.mpr ⟨rfl, hgiven.bean.mp⟩⟩
  refine ⟨_, hpartition, fun x hx => ?_⟩
  obtain ⟨_, hpair, rfl⟩ := List.mem_map.mp (hperm.mem_iff.mpr (hfit.complete x hx))
  obtain ⟨g, hg, rfl⟩ := List.mem_map.mp hpair
  obtain ⟨⟨-, htext⟩, hpx⟩ := binds_boundPair hgiven hnames hg
  exact ⟨g.1, g.2, _, hg, hpx, htext,
    KeyMap.get?_ofList_of_mem (hperm.nodup_iff.mpr hfit.once) hpair⟩

end Declared

/-- The parameter of a placeholder that gets a value is found under the name of an argument. -/
theorem exists_argument_of_bound {arguments : List (String × Json)} {bound : List (String × String)}
    (honce : (boundNames s.spec.params).Nodup) (hbound : List.Forall₂ s.Binds arguments bound)
    {p : Param} {x : String} (hp : p ∈ s.spec.params) (hpx : p.binding = .path x)
    (hx : x ∈ bound.map Prod.fst) :
    ∃ a ∈ arguments, p.name = a.1 ∧ s.spec.params.find? (·.name == p.name) = some p := by
  obtain ⟨b, hb, hbx⟩ := List.mem_map.mp hx
  obtain ⟨argument, hargument, hplaceholder, -⟩ := exists_left_of_forall₂ hbound hb
  obtain ⟨q, hfind, hqx⟩ := placeholder?_eq_some_iff.mp hplaceholder
  have hqp : q = p := eq_of_bound_once honce (List.mem_of_find?_eq_some hfind) hp (hbx ▸ hqx) hpx
  have hname : q.name = argument.1 := by simpa using List.find?_some hfind
  rw [hqp] at hfind hname
  exact ⟨argument, hargument, hname, by rwa [hname]⟩

/-- Where the names are not apart, no arguments are taken: a placeholder is out of reach. -/
theorem namesApart_of_partition {out : KeyMap String × Option Json}
    (honce : (boundNames s.spec.params).Nodup) (h : s.partition args = .ok out) :
    s.spec.NamesApart := by
  obtain ⟨⟨bound, hbound, -, hcomplete⟩, -⟩ := partition_eq_ok_iff.mp h
  refine pairwise_of_find? honce fun p hp x hpx => ?_
  obtain ⟨-, -, -, hfind⟩ := exists_argument_of_bound honce hbound hp hpx
    (hcomplete x (mem_boundNames.mpr ⟨p, hp, hpx⟩))
  exact hfind

end Stub

/-- Arguments for each path parameter, all of them empty texts, and a bean if one is declared. -/
def plainArgs (m : ServiceMethod) : CallArgs where
  path := (pathParams m.params).map fun p => (p.name, .text "")
  bean := m.beanParam?.map fun _ => .object []

theorem supplies_plainArgs (m : ServiceMethod) :
    Supplies m ((pathParams m.params).map fun p => (p, .text "")) (plainArgs m) := by
  refine ⟨?_, ?_, ?_, ?_⟩
  · rw [List.map_map]
    exact .of_eq (List.map_id _)
  · simp only [List.mem_map]
    rintro _ ⟨p, -, rfl⟩
    exact .text ""
  · simp [plainArgs]
  · rw [← not_iff_not, ← beanParam?_eq_none_iff, plainArgs]
    cases m.beanParam? <;> simp [givenBean]

/-- A valid contract has a stub for each of its methods. The stub takes all arguments that are as the
method declares them if and only if no parameter has the name of a path parameter behind it; otherwise
it takes no arguments at all. -/
theorem takes_declared_iff {c : Contract} (hvalid : c.validate = .ok ()) :
    ∃ stubs, c.generate = .ok stubs ∧ ∀ m ∈ c.methods, ∃ s, stubs.get? m.name = some s
      ∧ s.spec = m ∧ ((∀ given args, Supplies m given args → s.Takes given args) ↔ m.NamesApart)
      ∧ (¬ m.NamesApart → ∀ args, ∃ e, s.partition args = .error e) := by
  obtain ⟨stubs, hstubs, hmethods⟩ := Contract.exists_generate hvalid
  refine ⟨stubs, hstubs, fun m hm => ?_⟩
  obtain ⟨s, hcompile, hfit, hget⟩ := hmethods m hm
  obtain rfl := Stub.spec_of_compile hcompile
  refine ⟨s, hget, rfl, ⟨fun htakes => ?_, fun hnames given args hgiven => ?_⟩, fun hnames args => ?_⟩
  · obtain ⟨values, hpartition, -⟩ := htakes _ _ (supplies_plainArgs s.spec)
    exact Stub.namesApart_of_partition hfit.once hpartition
  · exact Stub.takes_of_namesApart hgiven hfit hnames
  · cases hpartition : s.partition args with
    | error e => exact ⟨e, rfl⟩
    | ok out => exact absurd (Stub.namesApart_of_partition hfit.once hpartition) hnames

/-- The method that finds the orders of a user. -/
def findOrders : ServiceMethod where
  name := "find_orders"
  route := some ⟨.get, "/user/:id/orders"⟩
  params := [⟨"id", .path "id", .scalar .u64⟩, ⟨"filter", .bean, .bean "OrderFilter"⟩]
  returns := .list (.bean "Order")

/-- A user and a filter, as the method declares them. -/
def ordersOfSeven : CallArgs where
  path := [("id", .text "7")]
  bean := some (.object [("state", .text "OPEN")])

/-- The orders of a user are found by the number of the user. -/
theorem takes_declared_orders : (Contract.mk "OrderWebService" [findOrders]).validate = .ok ()
    ∧ ∃ s : Stub, s.spec = findOrders
      ∧ s.Takes [(⟨"id", .path "id", .scalar .u64⟩, .text "7")] ordersOfSeven := by
  have hvalid : (Contract.mk "OrderWebService" [findOrders]).validate = .ok () := rfl
  obtain ⟨stubs, -, hmethods⟩ := takes_declared_iff hvalid
  obtain ⟨s, -, hspec, hiff, -⟩ := hmethods findOrders List.mem_cons_self
  have hnames : findOrders.NamesApart := by
    simp [ServiceMethod.NamesApart, findOrders]
  refine ⟨hvalid, s, hspec, hiff.mpr hnames _ _ ⟨.refl _, ?_, rfl, ?_⟩⟩
  · simpa using Scalar.text "7"
  · simp [ordersOfSeven, givenBean, findOrders]

/-- The same method, but its filter stands in front and has the name of the path parameter. -/
def hidingOrders : ServiceMethod :=
  { findOrders with
    params := [⟨"id", .bean, .bean "OrderFilter"⟩, ⟨"id", .path "id", .scalar .u64⟩] }

/-- A valid method does not take the arguments that it declares, if its bean hides a path
parameter. -/
theorem bean_hides_path_param : (Contract.mk "OrderWebService" [hidingOrders]).validate = .ok ()
    ∧ ∃ s, Stub.compile hidingOrders = .ok s
      ∧ Supplies hidingOrders [(⟨"id", .path "id", .scalar .u64⟩, .text "7")] ordersOfSeven
      ∧ s.partition ordersOfSeven = .error (.contract
          (.argumentMismatch "find_orders" "method has no path param named id"))
      ∧ ¬ s.Takes [(⟨"id", .path "id", .scalar .u64⟩, .text "7")] ordersOfSeven := by
  refine ⟨rfl, _, rfl, ⟨.refl _, ?_, rfl, ?_⟩, rfl, ?_⟩
  · simpa using Scalar.text "7"
  · simp [ordersOfSeven, givenBean, hidingOrders]
  · rintro ⟨values, hpartition, -⟩
    cases hpartition

end ServiceCall
