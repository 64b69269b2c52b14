import ServiceCall.Proofs.Contract.Resolving
import ServiceCall.Proofs.Stub.Arguments

/-!
# The stubs of a contract, whatever the order of its methods

A valid contract has one stub for each of its methods and no other, and a record is told about each, in
the order of the names. In which order the methods are declared makes no difference to either.
-/

namespace ServiceCall

/-- The stub of a method: the method as it is, its request method, and the template of its path. -/
def Stub.IsOf (s : Stub) (m : ServiceMethod) : Prop :=
  s.spec = m ∧ ∃ route, m.route = some route ∧ s.verb = route.verb
    ∧ PathTemplate.parse route.path = .ok s.template

/-- The record tells that a method of a service has its stub. -/
def Tells (service : String) (m : ServiceMethod) (r : Log.Record) : Prop :=
  ∃ route, m.route = some route ∧ r = ⟨.info, "ws_client::stub", "Generated web service stub",
    [("service", service), ("method", m.name), ("http_method", route.verb.text),
      ("path", route.path)]⟩

theorem isOf_iff {s : Stub} {m : ServiceMethod} : s.IsOf m ↔ Stub.compile m = .ok s := by
  rw [Stub.compile_eq_ok_iff]
  constructor
  · rintro ⟨rfl, route, hroute, hverb, htemplate⟩
    exact ⟨route, s.template, hroute, htemplate, by rw [← hverb]⟩
  · rintro ⟨route, template, hroute, htemplate, rfl⟩
    exact ⟨rfl, route, hroute, rfl, htemplate⟩

/-- The record of a stub tells about its method, the path as it was declared. -/
theorem Stub.IsOf.tells {s : Stub} {m : ServiceMethod} (h : s.IsOf m) (service : String) :
    Tells service m (s.record service) := by
  obtain ⟨rfl, route, hroute, hverb, htemplate⟩ := h
  refine ⟨route, hroute, ?_⟩
  rw [record, hverb, PathTemplate.text_of_parse htemplate]
  rfl

namespace Contract

variable {c d : Contract} {stubs : KeyMap Stub}

/-- Each method has a stub under its name, and there are no others. -/
structure Stocked (c : Contract) (stubs : KeyMap Stub) : Prop where
  names : stubs.keys.Perm (c.methods.map ServiceMethod.name)
  own : ∀ m ∈ c.methods, ∃ s, stubs.get? m.name = some s ∧ s.IsOf m

/-- A record is told about each method, in the order of the names. -/
def Announced (c : Contract) (stubs : KeyMap Stub) : Prop :=
  ∃ ordered : List ServiceMethod, ordered.Perm c.methods
    ∧ ordered.Pairwise (fun a b => a.name < b.name)
    ∧ List.Forall₂ (Tells c.name) ordered (c.generateRecords stubs)

/-- The stubs, as pairs with the names of their methods, are those of the methods in some order. -/
theorem perm_entries_of_generate (h : c.generate = .ok stubs) :
    (stubs.entries.map fun e => e.2.spec).Perm c.methods
      ∧ ∀ e ∈ stubs.entries, e.1 = e.2.spec.name ∧ e.2.IsOf e.2.spec := by
  obtain ⟨hvalid, made, hmade, rfl⟩ := generate_eq_ok_iff.mp h
  have hperm := KeyMap.perm_entries_ofList (nodup_made hvalid hmade)
  constructor
  · have hspecs := hperm.map fun e => e.2.spec
    rw [List.map_map] at hspecs
    exact hspecs.trans (.of_eq (specs_of_made hmade))
  · intro e he
    obtain ⟨s, hs, rfl⟩ := List.mem_map.mp (hperm.mem_iff.mp he)
    obtain ⟨m, -, hcompile⟩ := exists_left_of_forall₂ hmade hs
    obtain rfl := Stub.spec_of_compile hcompile
    exact ⟨rfl, isOf_iff.mpr hcompile⟩

theorem stocked_of_generate (h : c.generate = .ok stubs) : c.Stocked stubs := by
  obtain ⟨hperm, hentries⟩ := perm_entries_of_generate h
  constructor
  · have hnames := hperm.map ServiceMethod.name
    rw [List.map_map] at hnames
    have hkeys : stubs.keys = stubs.entries.map (ServiceMethod.name ∘ fun e => e.2.spec) :=
      List.map_congr_left fun e he => (hentries e he).1
    rwa [hkeys]
  · intro m hm
    obtain ⟨hvalid, -⟩ := generate_eq_ok_iff.mp h
    obtain ⟨-, -, hmethods⟩ := validateMethods_eq_ok_iff.mp hvalid
    obtain ⟨s, hcompile, -⟩ := exists_compile_of_supported (hmethods m hm)
    exact ⟨s, (get?_of_generate h).mpr ⟨m, hm, rfl, hcompile⟩, isOf_iff.mpr hcompile⟩

theorem announced_of_generate (h : c.generate = .ok stubs) : c.Announced stubs := by
  obtain ⟨hperm, hentries⟩ := perm_entries_of_generate h
  refine ⟨_, hperm, ?_, ?_⟩
  · -- the names are the keys, and the entries stand in the order of their keys
    rw [List.pairwise_map]
    refine stubs.sorted.imp_of_mem fun ha hb hlt => ?_
    rwa [(hentries _ ha).1, (hentries _ hb).1] at hlt
  · rw [generateRecords, KeyMap.values, List.map_map, List.forall₂_map_left_iff,
      List.forall₂_map_right_iff, List.forall₂_same]
    exact fun e he => (hentries e he).2.tells c.name

/-! ### The order of the methods -/

/-- A valid contract stays valid in any order of its methods. -/
theorem validate_of_perm (hperm : d.methods.Perm c.methods) (h : c.validate = .ok ()) :
    d.validate = .ok () := by
  obtain ⟨hnames, -, hmethods⟩ := validateMethods_eq_ok_iff.mp h
  refine validateMethods_eq_ok_iff.mpr ⟨?_, fun _ _ => List.not_mem_nil, fun m hm => ?_⟩
  · exact (hperm.map ServiceMethod.name).nodup_iff.mpr hnames
  · exact hmethods m (hperm.mem_iff.mp hm)

/-- Methods in another order have the same stubs. -/
theorem generate_of_perm (hperm : d.methods.Perm c.methods) (h : c.generate = .ok stubs) :
    d.generate = .ok stubs := by
  obtain ⟨hvalid, -⟩ := generate_eq_ok_iff.mp h
  obtain ⟨made, hd, -⟩ := exists_generate (validate_of_perm hperm hvalid)
  have heq : made = stubs := by
    refine KeyMap.ext_get? fun name => Option.ext fun s => ?_
    rw [get?_of_generate hd, get?_of_generate h]
    simp only [hperm.mem_iff]
  rw [hd, heq]

/-- Stubs are made of just the valid contracts. There is one for each method, and a record about each
in the order of the names. Another order of the methods gives the same stubs and the same records. -/
theorem generate_keeps_methods (c : Contract) :
    ((∃ stubs, c.generate = .ok stubs) ↔ c.validate = .ok ())
      ∧ ∀ stubs, c.generate = .ok stubs → c.Stocked stubs ∧ c.Announced stubs
        ∧ ∀ d : Contract, d.name = c.name → d.methods.Perm c.methods →
          d.generate = .ok stubs ∧ d.generateRecords stubs = c.generateRecords stubs := by
  refine ⟨⟨fun ⟨_, h⟩ => (generate_eq_ok_iff.mp h).1, fun h => ?_⟩, fun stubs h => ?_⟩
  · obtain ⟨stubs, hstubs, -⟩ := exists_generate h
    exact ⟨stubs, hstubs⟩
  · refine ⟨stocked_of_generate h, announced_of_generate h, fun d hname hperm => ?_⟩
    exact ⟨generate_of_perm hperm h, by rw [generateRecords, generateRecords, hname]⟩

/-- The method that takes an order back. -/
def cancelOrder : ServiceMethod where
  name := "cancel_order"
  route := some ⟨.delete, "/order/:id"⟩
  params := [⟨"order", .path "id", .scalar .u64⟩]

/-- Two methods in either order have the same stubs, of which that of the first name is told first. -/
theorem generate_keeps_orders :
    ∃ stubs, (Contract.mk "OrderWebService" [findOrders, cancelOrder]).generate = .ok stubs
      ∧ (Contract.mk "OrderWebService" [cancelOrder, findOrders]).generate = .ok stubs
      ∧ stubs.keys = ["cancel_order", "find_orders"] := by
  obtain ⟨hvalid, hlaw⟩ :=
    generate_keeps_methods (Contract.mk "OrderWebService" [findOrders, cancelOrder])
  obtain ⟨stubs, hstubs⟩ := hvalid.mpr rfl
  obtain ⟨-, -, hperm⟩ := hlaw stubs hstubs
  refine ⟨stubs, hstubs, (hperm ⟨_, [cancelOrder, findOrders]⟩ rfl (.swap _ _ _)).1, ?_⟩
  cases hstubs
  rfl

end Contract

end ServiceCall
