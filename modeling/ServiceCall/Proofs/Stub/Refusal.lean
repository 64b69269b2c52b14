import ServiceCall.Proofs.Contract.Resolving
import ServiceCall.Proofs.Stub.Arguments

/-!
# Arguments that are taken fill the path

The check of a contract and the arguments of a call together leave no placeholder open: a stub of a
valid contract either has a value for each placeholder of its path, and for nothing else, or refuses
the call before anything is sent.
-/

namespace ServiceCall

/-- An error in how a method is called: its arguments do not match it, or one of them has no text. -/
def IsCallFault (m : ServiceMethod) (e : CallError) : Prop :=
  (∃ reason, e = .contract (.argumentMismatch m.name reason)) ∨ ∃ fault, e = .bean fault

namespace Stub

variable {s : Stub} {args : CallArgs} {values : KeyMap String} {bean : Option Json}

/-- What is passed on of arguments that are taken. -/
structure Fills (s : Stub) (args : CallArgs) (values : KeyMap String) (bean : Option Json) :
    Prop where
  /-- The placeholders of the path have values, and no others do. -/
  keys : ∀ x, values.contains x = true ↔ x ∈ s.template.placeholders
  /-- The path resolves, or some value cannot stand for a segment. -/
  resolves : (∃ texts, s.template.resolve values = .ok texts)
    ∨ ∃ name value, s.template.resolve values
      = .error (.invalidPathValue s.template.text name value)
  /-- An argument becomes the value of its placeholder, unless one behind it does. -/
  kept : ∀ before name v after, args.path = before ++ (name, v) :: after →
    (∀ a ∈ after, s.placeholder? a.1 ≠ s.placeholder? name) →
    ∃ x text, s.placeholder? name = some x ∧ v.scalarText? = some text
      ∧ values.get? x = some text
  passed : bean = givenBean args.bean
  declared : bean.isSome → ∃ p ∈ s.spec.params, p.binding = .bean

/-- Arguments that are not those of the method: a path parameter has no argument of its name, or an
argument has the name of no path parameter. -/
def Misfits (s : Stub) (args : CallArgs) : Prop :=
  (∃ p ∈ pathParams s.spec.params, p.name ∉ args.path.map Prod.fst)
    ∨ ∃ a ∈ args.path, a.1 ∉ (pathParams s.spec.params).map Param.name

/-- A call ends with an error in how it was made, and nothing is sent. -/
def Refuses (s : Stub) (args : CallArgs) : Prop :=
  ∃ e, s.partition args = .error e ∧ IsCallFault s.spec e
    ∧ ∀ client transport decoder, (s.invoke client transport args decoder).steps = []
      ∧ (s.invoke client transport args decoder).result = .error e

/-! ### What can be wrong -/

theorem isCallFault_of_bindPath {arguments : List (String × Json)} {earlier : KeyMap String}
    {e : CallError} (h : s.bindPath earlier arguments = .error e) : IsCallFault s.spec e := by
  induction arguments generalizing earlier with
  | nil => cases h
  | cons argument rest ih =>
    obtain ⟨name, value⟩ := argument
    rw [bindPath] at h
    split at h
    · cases h
      exact .inl ⟨_, rfl⟩
    · split at h
      · cases h
        exact .inr ⟨_, rfl⟩
      · exact ih h

theorem isCallFault_of_bindBean {e : CallError} (h : s.bindBean bean = .error e) :
    IsCallFault s.spec e := by
  rw [bindBean.eq_def] at h
  split at h
  · cases h
  · cases h
  · split at h
    · cases h
    · cases h
      exact .inl ⟨_, rfl⟩

theorem isCallFault_of_partition {e : CallError} (h : s.partition args = .error e) :
    IsCallFault s.spec e := by
  rw [partition] at h
  split at h
  · next hpath =>
    cases h
    exact isCallFault_of_bindPath hpath
  · split at h
    · cases h
      exact .inl ⟨_, rfl⟩
    · cases hbean : s.bindBean args.bean with
      | error fault =>
        rw [hbean] at h
        cases h
        exact isCallFault_of_bindBean hbean
      | ok out =>
        rw [hbean] at h
        cases h

theorem refuses_of_partition {e : CallError} (h : s.partition args = .error e) :
    s.Refuses args := by
  refine ⟨e, h, isCallFault_of_partition h, fun client transport decoder => ?_⟩
  rw [invoke, h]
  exact ⟨rfl, rfl⟩

/-! ### What arguments become -/

/-- Bound placeholders are those of parameters. -/
theorem mem_boundNames_of_binds {argument : String × Json} {b : String × String}
    (h : s.Binds argument b) : b.1 ∈ boundNames s.spec.params := by
  obtain ⟨p, hfind, hp⟩ := placeholder?_eq_some_iff.mp h.1
  exact mem_boundNames.mpr ⟨p, List.mem_of_find?_eq_some hfind, hp⟩

/-- The values are those of the placeholders of the path. -/
theorem contains_iff_of_partition (hfit : Supports s.spec s.verb s.template)
    (h : s.partition args = .ok (values, bean)) (x : String) :
    values.contains x = true ↔ x ∈ s.template.placeholders := by
  obtain ⟨⟨bound, hbound, rfl, hcomplete⟩, -⟩ := partition_eq_ok_iff.mp h
  rw [KeyMap.contains_ofList]
  constructor
  · intro hx
    obtain ⟨b, hb, rfl⟩ := List.mem_map.mp hx
    obtain ⟨argument, -, hbinds⟩ := exists_left_of_forall₂ hbound hb
    exact hfit.declared _ (mem_boundNames_of_binds hbinds)
  · exact fun hx => hcomplete x (hfit.complete x hx)

/-- Of the arguments for one placeholder the last one counts. -/
theorem get?_of_partition (h : s.partition args = .ok (values, bean))
    {before after : List (String × Json)} {name : String} {v : Json}
    (hpath : args.path = before ++ (name, v) :: after)
    (hlast : ∀ a ∈ after, s.placeholder? a.1 ≠ s.placeholder? name) :
    ∃ x text, s.placeholder? name = some x ∧ v.scalarText? = some text
      ∧ values.get? x = some text := by
  obtain ⟨⟨bound, hbound, rfl, -⟩, -⟩ := partition_eq_ok_iff.mp h
  rw [hpath] at hbound
  -- the placeholder of this argument, with those of the later ones behind it
  have hback := (List.forall₂_drop_append _ _ _ hbound.flip).flip
  obtain ⟨⟨x, text⟩, later, ⟨hx, htext⟩, hlater, hdrop⟩ := List.forall₂_cons_left_iff.mp hback
  rw [← List.take_append_drop before.length bound, hdrop]
  refine ⟨x, text, hx, htext, KeyMap.get?_ofList_append _ text fun hmem => ?_⟩
  obtain ⟨b, hb, hbx⟩ := List.mem_map.mp hmem
  obtain ⟨a, ha, hbinds⟩ := exists_left_of_forall₂ hlater hb
  exact hlast a ha (by rw [hbinds.1, hx, hbx])

theorem fills_of_partition (hfit : Supports s.spec s.verb s.template)
    (h : s.partition args = .ok (values, bean)) : s.Fills args values bean := by
  have hkeys := contains_iff_of_partition hfit h
  obtain ⟨-, hbean⟩ := partition_eq_ok_iff.mp h
  obtain ⟨hgiven, hdeclared⟩ := bindBean_eq_ok_iff.mp hbean
  exact {
    keys := hkeys
    resolves := PathTemplate.resolve_of_contains fun x hx => (hkeys x).mpr hx
    kept := fun _ _ _ _ hpath hlast => get?_of_partition h hpath hlast
    passed := hgiven.symm
    declared := hdeclared }

/-- Arguments that are taken have the names of the path parameters, all of them and no others. -/
theorem not_misfits_of_partition (hfit : Supports s.spec s.verb s.template)
    (h : s.partition args = .ok (values, bean)) : ¬ s.Misfits args := by
  obtain ⟨⟨bound, hbound, -, hcomplete⟩, -⟩ := partition_eq_ok_iff.mp h
  rintro (⟨p, hp, hmissing⟩ | ⟨a, ha, hunknown⟩)
  · obtain ⟨hp, x, hpx⟩ := mem_pathParams.mp hp
    obtain ⟨a, ha, hname, -⟩ := exists_argument_of_bound hfit.once hbound hp hpx
      (hcomplete x (mem_boundNames.mpr ⟨p, hp, hpx⟩))
    exact hmissing (List.mem_map.mpr ⟨a, ha, hname.symm⟩)
  · obtain ⟨b, -, hplaceholder, -⟩ := exists_right_of_forall₂ hbound ha
    obtain ⟨p, hfind, hpx⟩ := placeholder?_eq_some_iff.mp hplaceholder
    have hname : p.name = a.1 := by simpa using List.find?_some hfind
    exact hunknown (List.mem_map.mpr
      ⟨p, mem_pathParams.mpr ⟨List.mem_of_find?_eq_some hfind, _, hpx⟩, hname⟩)

end Stub

/-- What a stub of a valid contract does with any arguments: those that it takes fill its path and
nothing else, so that the path can only fail to resolve for what a value is; those that are not the
arguments of the method it refuses, and nothing is sent. -/
theorem fills_or_refuses {c : Contract} (hvalid : c.validate = .ok ()) :
    ∃ stubs, c.generate = .ok stubs ∧ ∀ name s, stubs.get? name = some s → ∀ args,
      (∀ values bean, s.partition args = .ok (values, bean) → s.Fills args values bean)
        ∧ (s.Misfits args → s.Refuses args) := by
  obtain ⟨stubs, hstubs, hmethods⟩ := Contract.exists_generate hvalid
  refine ⟨stubs, hstubs, fun name s hget args => ?_⟩
  obtain ⟨m, hm, rfl, hcompile⟩ := (Contract.get?_of_generate hstubs).mp hget
  obtain ⟨own, hown, hfit, -⟩ := hmethods m hm
  obtain rfl : s = own := by
    rw [hcompile] at hown
    cases hown
    rfl
  obtain rfl := Stub.spec_of_compile hcompile
  refine ⟨fun values bean h => Stub.fills_of_partition hfit h, fun hmisfits => ?_⟩
  cases h : s.partition args with
  | error e => exact Stub.refuses_of_partition h
  | ok out => exact absurd hmisfits (Stub.not_misfits_of_partition hfit h)

/-- The user of a call for orders is in its path, and without a user there is no call. -/
theorem fills_or_refuses_orders : (Contract.mk "OrderWebService" [findOrders]).validate = .ok ()
    ∧ ∃ s values bean, Stub.compile findOrders = .ok s
      ∧ s.partition ordersOfSeven = .ok (values, bean) ∧ s.Fills ordersOfSeven values bean
      ∧ s.Misfits { path := [] } ∧ s.Refuses { path := [] } := by
  have hvalid : (Contract.mk "OrderWebService" [findOrders]).validate = .ok () := rfl
  obtain ⟨stubs, hstubs, hlaw⟩ := fills_or_refuses hvalid
  obtain ⟨s, hcompile⟩ : ∃ s, Stub.compile findOrders = .ok s := ⟨_, rfl⟩
  have hget : stubs.get? "find_orders" = some s :=
    (Contract.get?_of_generate hstubs).mpr ⟨findOrders, List.mem_cons_self, rfl, hcompile⟩
  have hmisfits : s.Misfits { path := [] } := by
    rw [Stub.Misfits, Stub.spec_of_compile hcompile]
    exact .inl ⟨⟨"id", .path "id", .scalar .u64⟩, List.mem_cons_self, List.not_mem_nil⟩
  obtain ⟨values, bean, htaken⟩ : ∃ values bean, s.partition ordersOfSeven = .ok (values, bean) := by
    cases hcompile
    exact ⟨_, _, rfl⟩
  exact ⟨hvalid, s, values, bean, hcompile, htaken, (hlaw _ s hget _).1 values bean htaken, hmisfits,
    (hlaw _ s hget _).2 hmisfits⟩

end ServiceCall
