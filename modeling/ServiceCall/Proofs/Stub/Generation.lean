import ServiceCall.Proofs.Contract.Support
import ServiceCall.Proofs.KeyMap
import ServiceCall.Stub

/-!
# The stubs of a valid contract

A contract that passes its check has a stub for each of its methods, under the name of the method.
-/

namespace ServiceCall

theorem Stub.compile_eq_ok_iff {m : ServiceMethod} {s : Stub} : Stub.compile m = .ok s
    ↔ ∃ route template, m.route = some route ∧ PathTemplate.parse route.path = .ok template
      ∧ ⟨m, route.verb, template⟩ = s := by
  rw [compile]
  cases m.route with
  | none => simp
  | some route =>
    cases htemplate : PathTemplate.parse route.path with
    | error e => simp [htemplate]
    | ok template => simp [htemplate]

theorem Stub.spec_of_compile {m : ServiceMethod} {s : Stub} (h : Stub.compile m = .ok s) :
    s.spec = m := by
  obtain ⟨_, _, -, -, rfl⟩ := compile_eq_ok_iff.mp h
  rfl

/-- The stub of a supported method fits the method. -/
theorem exists_compile_of_supported {m : ServiceMethod} (h : m.Supported) :
    ∃ s, Stub.compile m = .ok s ∧ Supports m s.verb s.template := by
  obtain ⟨route, template, hroute, htemplate, hfit⟩ := h
  exact ⟨_, Stub.compile_eq_ok_iff.mpr ⟨route, template, hroute, htemplate, rfl⟩, hfit⟩

namespace Contract

theorem compileMethods_eq_ok_iff {methods : List ServiceMethod} {earlier out : KeyMap Stub} :
    compileMethods earlier methods = .ok out
      ↔ ∃ stubs, List.Forall₂ (fun m s => Stub.compile m = .ok s) methods stubs
        ∧ (stubs.map fun s => (s.spec.name, s)).foldl (fun made p => made.insert p.1 p.2) earlier
          = out := by
  induction methods generalizing earlier with
  | nil => simp [compileMethods, eq_comm]
  | cons m methods ih =>
    rw [compileMethods]
    cases hm : Stub.compile m with
    | error e => simp [hm, List.forall₂_cons_left_iff]
    | ok s =>
      simp only [ih, List.forall₂_cons_left_iff, hm, Except.ok.injEq]
      have hname : s.spec.name = m.name := by rw [Stub.spec_of_compile hm]
      constructor
      · rintro ⟨stubs, hstubs, hout⟩
        refine ⟨s :: stubs, ⟨s, stubs, rfl, hstubs, rfl⟩, ?_⟩
        rw [List.map_cons, List.foldl_cons, hname]
        exact hout
      · rintro ⟨_, ⟨_, stubs, rfl, hstubs, rfl⟩, hout⟩
        refine ⟨stubs, hstubs, ?_⟩
        rw [List.map_cons, List.foldl_cons, hname] at hout
        exact hout

/-- A contract has stubs if it is valid: one for each method, put under the name of the method. -/
theorem generate_eq_ok_iff {c : Contract} {stubs : KeyMap Stub} : c.generate = .ok stubs
    ↔ c.validate = .ok () ∧ ∃ made, List.Forall₂ (fun m s => Stub.compile m = .ok s) c.methods made
      ∧ KeyMap.ofList (made.map fun s => (s.spec.name, s)) = stubs := by
  rw [generate]
  cases hvalid : c.validate with
  | error e => simp
  | ok done => simp only [compileMethods_eq_ok_iff, true_and, KeyMap.ofList]

theorem exists_made {c : Contract} (hvalid : c.validate = .ok ()) :
    ∃ made, List.Forall₂ (fun m s => Stub.compile m = .ok s) c.methods made := by
  obtain ⟨-, -, hmethods⟩ := validateMethods_eq_ok_iff.mp hvalid
  refine exists_forall₂ fun m hm => ?_
  obtain ⟨s, hs, -⟩ := exists_compile_of_supported (hmethods m hm)
  exact ⟨s, hs⟩

theorem specs_of_made {methods : List ServiceMethod} {made : List Stub}
    (h : List.Forall₂ (fun m s => Stub.compile m = .ok s) methods made) :
    made.map Stub.spec = methods := by
  rw [← List.forall₂_eq_eq_eq, List.forall₂_map_left_iff]
  exact h.flip.imp fun s m hcompile => Stub.spec_of_compile hcompile

/-- The stubs of a valid contract have names of their own. -/
theorem nodup_made {c : Contract} (hvalid : c.validate = .ok ()) {made : List Stub}
    (h : List.Forall₂ (fun m s => Stub.compile m = .ok s) c.methods made) :
    ((made.map fun s => (s.spec.name, s)).map Prod.fst).Nodup := by
  obtain ⟨hnames, -⟩ := validateMethods_eq_ok_iff.mp hvalid
  rw [← specs_of_made h, List.map_map] at hnames
  rwa [List.map_map]

/-- The stubs that are found are those of the methods, each under the name of its method. -/
theorem get?_of_generate {c : Contract} {stubs : KeyMap Stub} (h : c.generate = .ok stubs)
    {name : String} {s : Stub} : stubs.get? name = some s
      ↔ ∃ m ∈ c.methods, m.name = name ∧ Stub.compile m = .ok s := by
  obtain ⟨hvalid, made, hmade, rfl⟩ := generate_eq_ok_iff.mp h
  -- the names are apart, so that no stub has replaced another one
  rw [← KeyMap.mem_entries_iff, (KeyMap.perm_entries_ofList (nodup_made hvalid hmade)).mem_iff,
    List.mem_map]
  constructor
  · rintro ⟨_, hs, hpair⟩
    cases hpair
    obtain ⟨m, hm, hcompile⟩ := exists_left_of_forall₂ hmade hs
    exact ⟨m, hm, by rw [Stub.spec_of_compile hcompile], hcompile⟩
  · rintro ⟨m, hm, rfl, hcompile⟩
    obtain ⟨own, hown, hcompileOwn⟩ := exists_right_of_forall₂ hmade hm
    cases hcompile.symm.trans hcompileOwn
    exact ⟨s, hown, by rw [Stub.spec_of_compile hcompile]⟩

/-- A valid contract has stubs, and each method finds its own under its name. -/
theorem exists_generate {c : Contract} (hvalid : c.validate = .ok ()) :
    ∃ stubs, c.generate = .ok stubs ∧ ∀ m ∈ c.methods, ∃ s, Stub.compile m = .ok s
      ∧ Supports m s.verb s.template ∧ stubs.get? m.name = some s := by
  obtain ⟨made, hmade⟩ := exists_made hvalid
  have hstubs : c.generate = .ok (.ofList (made.map fun s => (s.spec.name, s))) :=
    generate_eq_ok_iff.mpr ⟨hvalid, made, hmade, rfl⟩
  refine ⟨_, hstubs, fun m hm => ?_⟩
  obtain ⟨-, -, hmethods⟩ := validateMethods_eq_ok_iff.mp hvalid
  obtain ⟨s, hcompile, hfit⟩ := exists_compile_of_supported (hmethods m hm)
  exact ⟨s, hcompile, hfit, (get?_of_generate hstubs).mpr ⟨m, hm, rfl, hcompile⟩⟩

end Contract

end ServiceCall
