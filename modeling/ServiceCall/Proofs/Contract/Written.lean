import ServiceCall.Contract.Document
import ServiceCall.Proofs.First
import ServiceCall.Proofs.Shape.Display

/-!
# Contracts written down

A contract is written as a document that names the verb and the path of every route, and every type by
its display. It is read back from there if its types can be. What a document says of a contract is
told without the reader, and so is what speaks against a document: a verb that there is not, in a
whole route, or a text that is no type name. Half a route does not.
-/

namespace ServiceCall

/-! ### Contracts as documents -/

/-- A parameter, written down. -/
def Param.document (p : Param) : ParamDocument := ⟨p.name, p.shape.text, p.binding.placeholder?⟩

/-- A method, written down. -/
def ServiceMethod.document (m : ServiceMethod) : MethodDocument where
  name := m.name
  method := m.route.map (·.verb.text)
  path := m.route.map (·.path)
  returns := some m.returns.text
  params := m.params.map Param.document

/-- A contract, written down. -/
def Contract.document (c : Contract) : ContractDocument := ⟨c.name, c.methods.map ServiceMethod.document⟩

/-- What a method takes and gives. -/
def ServiceMethod.shapes (m : ServiceMethod) : List Shape := m.returns :: m.params.map (·.shape)

/-- What the methods of a contract take and give. -/
def Contract.shapes (c : Contract) : List Shape := c.methods.flatMap ServiceMethod.shapes

/-! ### What a document says -/

/-- A parameter is the one that is written. -/
structure ParamDocument.Describes (d : ParamDocument) (p : Param) : Prop where
  name : p.name = d.name
  shape : Shape.parse d.typeName = .ok p.shape
  binding : p.binding.placeholder? = d.path

/-- The route of a method: there is one if both of its parts are. -/
inductive MethodDocument.Routes (d : MethodDocument) : Option Route → Prop where
  | whole {word path : String} {verb : Http.Method} (hasMethod : d.method = some word)
      (hasPath : d.path = some path) (known : Http.Method.parse? word = some verb) :
      Routes d (some ⟨verb, path⟩)
  | half (missing : d.method = none ∨ d.path = none) : Routes d none

/-- The shape that a method gives: none is void. -/
inductive MethodDocument.Gives (d : MethodDocument) : Shape → Prop where
  | named {name : String} {s : Shape} (hasReturns : d.returns = some name)
      (known : Shape.parse name = .ok s) : Gives d s
  | void (missing : d.returns = none) : Gives d .void

/-- A method is the one that is written. -/
structure MethodDocument.Describes (d : MethodDocument) (m : ServiceMethod) : Prop where
  name : m.name = d.name
  route : d.Routes m.route
  returns : d.Gives m.returns
  params : List.Forall₂ ParamDocument.Describes d.params m.params

/-- A contract is the one that is written. -/
structure ContractDocument.Describes (d : ContractDocument) (c : Contract) : Prop where
  name : c.name = d.name
  methods : List.Forall₂ MethodDocument.Describes d.methods c.methods

/-! ### What speaks against a document -/

namespace MethodDocument

/-- A whole route is there, but its verb is none. -/
def UnknownVerb (m : MethodDocument) (word : String) : Prop :=
  m.method = some word ∧ m.path ≠ none ∧ Http.Method.parse? word = none

/-- The type names of a method. -/
def typeNames (m : MethodDocument) : List String := m.returns.toList ++ m.params.map (·.typeName)

/-- The fault of a method: its verb, or else the first of its type names that is none. -/
inductive Fault (m : MethodDocument) : SchemaFault → Prop where
  | verb {word : String} (unknown : m.UnknownVerb word) : Fault m (.unsupportedMethod word)
  | typeName {name : String} {cause : Shape.Error} (known : ∀ word, ¬ m.UnknownVerb word)
      (first : IsFirst (Fails Shape.parse) m.typeNames name)
      (bad : Shape.parse name = .error cause) : Fault m (.typeName cause)

/-- A method has a fault. -/
def Faulty (m : MethodDocument) : Prop := ∃ fault, m.Fault fault

end MethodDocument

/-! ### Parts of a method -/

theorem readShape_eq_ok_iff {name : String} {s : Shape} :
    readShape name = .ok s ↔ Shape.parse name = .ok s := by
  rw [readShape]
  cases Shape.parse name <;> simp

theorem readShape_eq_error_iff {name : String} {e : ContractError} :
    readShape name = .error e
      ↔ ∃ cause, Shape.parse name = .error cause ∧ e = .schema (.typeName cause) := by
  rw [readShape]
  cases Shape.parse name <;> simp [eq_comm]

theorem ParamDocument.toParam_eq_ok_iff {d : ParamDocument} {p : Param} :
    d.toParam = .ok p ↔ d.Describes p := by
  rw [toParam, bind_eq_ok]
  constructor
  · rintro ⟨s, hshape, hp⟩
    cases hp
    refine ⟨rfl, readShape_eq_ok_iff.mp hshape, ?_⟩
    cases d.path <;> rfl
  · rintro ⟨hname, hshape, hbinding⟩
    refine ⟨p.shape, readShape_eq_ok_iff.mpr hshape, ?_⟩
    obtain ⟨name, binding, shape⟩ := p
    rw [← hbinding, ← hname]
    cases binding <;> rfl

theorem ParamDocument.toParam_eq_error_iff {d : ParamDocument} {e : ContractError} :
    d.toParam = .error e
      ↔ ∃ cause, Shape.parse d.typeName = .error cause ∧ e = .schema (.typeName cause) := by
  rw [toParam, bind_eq_error, readShape_eq_error_iff, or_iff_left]
  rintro ⟨s, -, h⟩
  cases h

namespace MethodDocument

variable {d : MethodDocument} {e : ContractError}

theorem toRoute_eq_ok_iff {route : Option Route} : d.toRoute = .ok route ↔ d.Routes route := by
  constructor
  · intro h
    rw [toRoute] at h
    split at h
    · next word path hmethod hpath =>
      split at h
      · next verb hverb =>
        cases h
        exact .whole hmethod hpath hverb
      · cases h
    · next hmissing =>
      cases h
      refine .half ?_
      cases hmethod : d.method with
      | none => exact .inl rfl
      | some word =>
        cases hpath : d.path with
        | none => exact .inr rfl
        | some path => exact absurd hpath (hmissing word path hmethod)
  · rintro (⟨hmethod, hpath, hverb⟩ | hmissing)
    · simp only [toRoute, hmethod, hpath, hverb]
    · rcases hmissing with hmissing | hmissing
      · rw [toRoute, hmissing]
      · rw [toRoute, hmissing]
        cases d.method <;> rfl

theorem toRoute_eq_error_iff :
    d.toRoute = .error e ↔ ∃ word, d.UnknownVerb word ∧ e = .schema (.unsupportedMethod word) := by
  constructor
  · intro h
    rw [toRoute] at h
    split at h
    · next word path hmethod hpath =>
      split at h
      · cases h
      · next hverb =>
        cases h
        exact ⟨word, ⟨hmethod, by simp [hpath], hverb⟩, rfl⟩
    · cases h
  · rintro ⟨word, ⟨hmethod, hpath, hverb⟩, rfl⟩
    obtain ⟨path, hpath⟩ := Option.ne_none_iff_exists'.mp hpath
    simp only [toRoute, hmethod, hpath, hverb]

/-- The shape that a method gives, or why there is none. -/
def readReturns (d : MethodDocument) : Except ContractError Shape :=
  match d.returns with
  | some name => readShape name
  | none => pure .void

theorem readReturns_eq_ok_iff {s : Shape} : d.readReturns = .ok s ↔ d.Gives s := by
  constructor
  · intro h
    rw [readReturns] at h
    split at h
    · next name hreturns => exact .named hreturns (readShape_eq_ok_iff.mp h)
    · next hreturns =>
      cases h
      exact .void hreturns
  · rintro (⟨hreturns, hshape⟩ | hreturns)
    · rw [readReturns, hreturns]
      exact readShape_eq_ok_iff.mpr hshape
    · rw [readReturns, hreturns]
      rfl

/-- A method is read in three parts. -/
theorem toMethod_eq (d : MethodDocument) : d.toMethod = (do
    let route ← d.toRoute
    let returns ← d.readReturns
    let params ← d.params.mapM ParamDocument.toParam
    return { name := d.name, route, params, returns }) := by
  rw [toMethod, readReturns]
  cases d.returns <;> rfl

theorem toMethod_eq_ok_iff {m : ServiceMethod} : d.toMethod = .ok m ↔ d.Describes m := by
  simp only [toMethod_eq, bind_eq_ok, toRoute_eq_ok_iff, readReturns_eq_ok_iff, mapM_eq_ok,
    ParamDocument.toParam_eq_ok_iff]
  constructor
  · rintro ⟨route, hroute, returns, hreturns, params, hparams, hm⟩
    cases hm
    exact ⟨rfl, hroute, hreturns, hparams⟩
  · rintro ⟨hname, hroute, hreturns, hparams⟩
    refine ⟨m.route, hroute, m.returns, hreturns, m.params, hparams, ?_⟩
    rw [← hname]
    rfl

theorem Gives.parse {s : Shape} (h : d.Gives s) {name : String} (hreturns : d.returns = some name) :
    Shape.parse name = .ok s := by
  cases h with
  | named hname hknown =>
    rw [hreturns] at hname
    cases hname
    exact hknown
  | void hmissing =>
    rw [hreturns] at hmissing
    cases hmissing

theorem readReturns_eq_error_iff : d.readReturns = .error e ↔ ∃ name cause,
    d.returns = some name ∧ Shape.parse name = .error cause ∧ e = .schema (.typeName cause) := by
  rw [readReturns]
  cases d.returns with
  | none => simp [pure, Except.pure]
  | some name => simp [readShape_eq_error_iff]

theorem fails_toParam_iff {p : ParamDocument} :
    Fails ParamDocument.toParam p ↔ Fails Shape.parse p.typeName := by
  constructor
  · rintro ⟨e, he⟩
    obtain ⟨cause, hcause, -⟩ := ParamDocument.toParam_eq_error_iff.mp he
    exact ⟨cause, hcause⟩
  · rintro ⟨cause, hcause⟩
    exact ⟨_, ParamDocument.toParam_eq_error_iff.mpr ⟨cause, hcause, rfl⟩⟩

/-- Parameters fail as the first of their type names does. -/
theorem mapM_toParam_eq_error_iff : d.params.mapM ParamDocument.toParam = .error e
    ↔ ∃ name cause, IsFirst (Fails Shape.parse) (d.params.map (·.typeName)) name
      ∧ Shape.parse name = .error cause ∧ e = .schema (.typeName cause) := by
  simp only [mapM_eq_error_iff, isFirst_map, isFirst_congr (fun _ => fails_toParam_iff),
    ParamDocument.toParam_eq_error_iff]
  constructor
  · rintro ⟨p, hfirst, cause, hcause, he⟩
    exact ⟨p.typeName, cause, ⟨p, hfirst, rfl⟩, hcause, he⟩
  · rintro ⟨_, cause, ⟨p, hfirst, rfl⟩, hcause, he⟩
    exact ⟨p, hfirst, cause, hcause, he⟩

/-- The type names of a method fail as that of what it gives does, or else as the first one of its
parameters. -/
theorem readTypes_eq_error_iff :
    (∃ name cause, IsFirst (Fails Shape.parse) d.typeNames name ∧ Shape.parse name = .error cause
        ∧ e = .schema (.typeName cause))
      ↔ d.readReturns = .error e
        ∨ ∃ s, d.Gives s ∧ d.params.mapM ParamDocument.toParam = .error e := by
  rw [readReturns_eq_error_iff, mapM_toParam_eq_error_iff, typeNames]
  cases hreturns : d.returns with
  | none =>
    have hgives : d.Gives .void := .void hreturns
    simp only [Option.toList_none, List.nil_append, reduceCtorEq, false_and, exists_false, false_or]
    exact ⟨fun h => ⟨_, hgives, h⟩, fun ⟨_, _, h⟩ => h⟩
  | some name =>
    simp only [Option.toList_some, List.singleton_append]
    -- the name of what a method gives is read before those of its parameters
    cases hparse : Shape.parse name with
    | error cause =>
      have hfails : Fails Shape.parse name := ⟨cause, hparse⟩
      have hgives (s : Shape) : ¬ d.Gives s := by
        intro h
        have hknown := h.parse hreturns
        rw [hparse] at hknown
        cases hknown
      simp [isFirst_cons_of_pos hfails, hparse, hgives]
    | ok s =>
      have hpasses : ¬ Fails Shape.parse name := by simp [Fails, hparse]
      have hgives : d.Gives s := .named hreturns hparse
      simp only [isFirst_cons_of_neg hpasses]
      constructor
      · exact fun h => .inr ⟨s, hgives, h⟩
      · rintro (⟨_, cause, ⟨⟩, hcause, -⟩ | ⟨-, -, h⟩)
        · rw [hparse] at hcause
          cases hcause
        · exact h

theorem toMethod_eq_error_iff :
    d.toMethod = .error e ↔ ∃ fault, d.Fault fault ∧ e = .schema fault := by
  -- what is read behind the route fails for a type name only
  have htypes (route : Option Route) : (do
      let returns ← d.readReturns
      let params ← d.params.mapM ParamDocument.toParam
      return { name := d.name, route, params, returns } : Except ContractError ServiceMethod)
        = .error e ↔ d.readReturns = .error e
          ∨ ∃ s, d.Gives s ∧ d.params.mapM ParamDocument.toParam = .error e := by
    simp [bind_eq_error, readReturns_eq_ok_iff, pure, Except.pure]
  simp only [toMethod_eq, bind_eq_error (r := d.toRoute), htypes, ← readTypes_eq_error_iff]
  constructor
  · rintro (hverb | ⟨route, hroute, name, cause, hfirst, hbad, he⟩)
    · obtain ⟨word, hunknown, he⟩ := toRoute_eq_error_iff.mp hverb
      exact ⟨_, .verb hunknown, he⟩
    · refine ⟨_, .typeName (fun word hunknown => ?_) hfirst hbad, he⟩
      have herror := toRoute_eq_error_iff.mpr ⟨word, hunknown, rfl⟩
      rw [hroute] at herror
      cases herror
  · rintro ⟨fault, hunknown | ⟨hknown, hfirst, hbad⟩, he⟩
    · exact .inl (toRoute_eq_error_iff.mpr ⟨_, hunknown, he⟩)
    · cases hroute : d.toRoute with
      | error fault =>
        obtain ⟨word, hunknown, -⟩ := toRoute_eq_error_iff.mp hroute
        exact absurd hunknown (hknown word)
      | ok route => exact .inr ⟨route, rfl, _, _, hfirst, hbad, he⟩

theorem fails_toMethod_iff : Fails toMethod d ↔ d.Faulty := by
  simp only [Fails, Faulty, toMethod_eq_error_iff]
  constructor
  · rintro ⟨-, fault, hfault, -⟩
    exact ⟨fault, hfault⟩
  · rintro ⟨fault, hfault⟩
    exact ⟨_, fault, hfault, rfl⟩

end MethodDocument

/-! ### Whole documents -/

theorem toContract_eq_ok_iff {d : ContractDocument} {c : Contract} :
    d.toContract = .ok c ↔ d.Describes c := by
  simp only [ContractDocument.toContract, bind_eq_ok, mapM_eq_ok, MethodDocument.toMethod_eq_ok_iff]
  constructor
  · rintro ⟨methods, hmethods, hc⟩
    cases hc
    exact ⟨rfl, hmethods⟩
  · rintro ⟨hname, hmethods⟩
    refine ⟨c.methods, hmethods, ?_⟩
    rw [← hname]
    rfl

theorem toContract_eq_error_iff {d : ContractDocument} {e : ContractError} :
    d.toContract = .error e ↔ ∃ m fault, IsFirst MethodDocument.Faulty d.methods m
      ∧ m.Fault fault ∧ e = .schema fault := by
  have hmethods : d.toContract = .error e ↔ d.methods.mapM MethodDocument.toMethod = .error e := by
    simp [ContractDocument.toContract, bind_eq_error, pure, Except.pure]
  simp only [hmethods, mapM_eq_error_iff, isFirst_congr (fun _ => MethodDocument.fails_toMethod_iff),
    MethodDocument.toMethod_eq_error_iff, exists_and_left]

/-! ### Writing and reading -/

theorem parse?_text (verb : Http.Method) : Http.Method.parse? verb.text = some verb := by
  cases verb <;> decide

theorem describes_param_document_iff {p : Param} :
    p.document.Describes p ↔ Shape.parse p.shape.text = .ok p.shape :=
  ⟨fun h => h.shape, fun h => ⟨rfl, h, rfl⟩⟩

theorem routes_document (m : ServiceMethod) : m.document.Routes m.route := by
  cases hroute : m.route with
  | none => exact .half (.inl (by simp [ServiceMethod.document, hroute]))
  | some route =>
    have hverb := parse?_text route.verb
    exact .whole (by simp [ServiceMethod.document, hroute]) (by simp [ServiceMethod.document, hroute])
      hverb

theorem gives_document_iff {m : ServiceMethod} :
    m.document.Gives m.returns ↔ Shape.parse m.returns.text = .ok m.returns :=
  ⟨fun h => h.parse rfl, fun h => .named rfl h⟩

theorem describes_method_document_iff {m : ServiceMethod} :
    m.document.Describes m ↔ ∀ s ∈ m.shapes, Shape.parse s.text = .ok s := by
  have hparams : List.Forall₂ ParamDocument.Describes (m.params.map Param.document) m.params
      ↔ ∀ p ∈ m.params, Shape.parse p.shape.text = .ok p.shape := by
    simp [List.forall₂_map_left_iff, List.forall₂_same, describes_param_document_iff]
  rw [ServiceMethod.shapes, List.forall_mem_cons, List.forall_mem_map, ← hparams,
    ← gives_document_iff]
  exact ⟨fun h => ⟨h.returns, h.params⟩, fun h => ⟨rfl, routes_document m, h.1, h.2⟩⟩

/-- A contract is read back from its document just if its types are read back from their displays. -/
theorem describes_document_iff {c : Contract} :
    c.document.Describes c ↔ ∀ s ∈ c.shapes, Shape.parse s.text = .ok s := by
  have hmethods : List.Forall₂ MethodDocument.Describes (c.methods.map ServiceMethod.document) c.methods
      ↔ ∀ m ∈ c.methods, ∀ s ∈ m.shapes, Shape.parse s.text = .ok s := by
    simp [List.forall₂_map_left_iff, List.forall₂_same, describes_method_document_iff]
  rw [Contract.shapes, List.forall_mem_flatMap, ← hmethods]
  exact ⟨fun h => h.methods, fun h => ⟨rfl, h⟩⟩

/-- What a type name says is read back from its display, and so is void. -/
theorem MethodDocument.Gives.reads_back {d : MethodDocument} {s : Shape} (h : d.Gives s) :
    Shape.parse s.text = .ok s := by
  cases h with
  | named _ hknown => exact Shape.parse_text_of_named (Shape.named_of_parse hknown)
  | void _ => exact Shape.parse_text_of_named .void

theorem MethodDocument.Describes.reads_back {d : MethodDocument} {m : ServiceMethod}
    (h : d.Describes m) : ∀ s ∈ m.shapes, Shape.parse s.text = .ok s := by
  rw [ServiceMethod.shapes, List.forall_mem_cons, List.forall_mem_map]
  refine ⟨h.returns.reads_back, fun p hp => ?_⟩
  obtain ⟨written, -, hwritten⟩ := exists_left_of_forall₂ h.params hp
  exact Shape.parse_text_of_named (Shape.named_of_parse hwritten.shape)

theorem ContractDocument.Describes.reads_back {d : ContractDocument} {c : Contract}
    (h : d.Describes c) : ∀ s ∈ c.shapes, Shape.parse s.text = .ok s := by
  rw [Contract.shapes, List.forall_mem_flatMap]
  intro m hm
  obtain ⟨written, -, hwritten⟩ := exists_left_of_forall₂ h.methods hm
  exact hwritten.reads_back

/-- A contract is read back from its document just if its types are read back from their displays. From
any document the contract is read that it describes, and this one is read back from its own document.
A document is refused for the first of its methods with a fault, which is in a verb or a type name. -/
theorem documents_tell_contracts :
    (∀ c : Contract, c.document.toContract = .ok c ↔ ∀ s ∈ c.shapes, Shape.parse s.text = .ok s)
    ∧ (∀ (d : ContractDocument) (c : Contract), d.toContract = .ok c ↔ d.Describes c)
    ∧ (∀ (d : ContractDocument) (c : Contract), d.toContract = .ok c →
        c.document.toContract = .ok c)
    ∧ ∀ (d : ContractDocument) (e : ContractError), d.toContract = .error e
        ↔ ∃ m fault, IsFirst MethodDocument.Faulty d.methods m ∧ m.Fault fault
          ∧ e = .schema fault := by
  refine ⟨fun c => ?_, fun d c => toContract_eq_ok_iff, fun d c h => ?_,
    fun d e => toContract_eq_error_iff⟩
  · rw [toContract_eq_ok_iff, describes_document_iff]
  · rw [toContract_eq_ok_iff, describes_document_iff]
    exact (toContract_eq_ok_iff.mp h).reads_back

end ServiceCall
