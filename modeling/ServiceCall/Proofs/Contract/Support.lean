import Mathlib.Data.List.Nodup
import ServiceCall.Contract.Validator
import ServiceCall.Proofs.Except

/-!
# The contracts that are supported

What a contract must be like, said without the order in which it is checked: rules for the names of
its methods, for the placeholders and parameters of each, and for the shapes that are sent and
returned. The check accepts just the contracts that follow them.
-/

namespace ServiceCall

/-- A value of the shape is the text of one segment. -/
inductive Segmental : Shape → Prop where
  | scalar (kind : ScalarKind) : Segmental (.scalar kind)
  | enumeration (name : String) : Segmental (.enumeration name)

/-- A value of the shape can be the request bean of a method. Pairs of a query need a bean, a body can
be a list of beans too. -/
inductive Sendable (verb : Http.Method) : Shape → Prop where
  | bean (name : String) : Sendable verb (.bean name)
  | list (name : String) (body : verb.hasBody = true) : Sendable verb (.list (.bean name))

/-- A value of the shape can be what a method returns. -/
inductive Returnable : Shape → Prop where
  | void : Returnable .void
  | bean (name : String) : Returnable (.bean name)
  | optional (name : String) : Returnable (.optional (.bean name))
  | list (name : String) : Returnable (.list (.bean name))

/-- The placeholders that parameters are bound to, in the order of the parameters. -/
def boundNames (params : List Param) : List String := params.filterMap (·.binding.placeholder?)

/-- The parameters that are request beans. -/
def beanParams (params : List Param) : List Param := params.filter (·.binding == .bean)

/-- A method and the template of its path fit each other. -/
structure Supports (m : ServiceMethod) (verb : Http.Method) (template : PathTemplate) : Prop where
  declared : ∀ x ∈ boundNames m.params, x ∈ template.placeholders
  once : (boundNames m.params).Nodup
  complete : ∀ x ∈ template.placeholders, x ∈ boundNames m.params
  segmental : ∀ p ∈ m.params, ∀ x, p.binding = .path x → Segmental p.shape
  oneBean : (beanParams m.params).length ≤ 1
  sendable : ∀ p ∈ m.params, p.binding = .bean → Sendable verb p.shape
  returnable : Returnable m.returns

/-- A method has a route whose path is a template that fits it. -/
def ServiceMethod.Supported (m : ServiceMethod) : Prop :=
  ∃ route template, m.route = some route ∧ PathTemplate.parse route.path = .ok template
    ∧ Supports m route.verb template

/-- A contract has supported methods with names of their own. -/
structure Contract.Supported (c : Contract) : Prop where
  names : (c.methods.map ServiceMethod.name).Nodup
  methods : ∀ m ∈ c.methods, m.Supported

/-! ### Shapes -/

theorem isBean_iff {s : Shape} : s.isBean = true ↔ ∃ name, s = .bean name := by
  cases s <;> simp [Shape.isBean]

theorem isValue_iff {s : Shape} : s.isValue = true ↔ Segmental s := by
  refine ⟨fun h => ?_, ?_⟩
  · cases s with
    | scalar kind => exact .scalar kind
    | enumeration name => exact .enumeration name
    | void | bean _ | list _ | optional _ | map _ _ => cases h
  · rintro (kind | name) <;> rfl

theorem returnable_iff {s : Shape} : ServiceMethod.returnable s = true ↔ Returnable s := by
  refine ⟨fun h => ?_, ?_⟩
  · cases s with
    | void => exact .void
    | bean name => exact .bean name
    | optional item =>
      obtain ⟨name, rfl⟩ := isBean_iff.mp h
      exact .optional name
    | list item =>
      obtain ⟨name, rfl⟩ := isBean_iff.mp h
      exact .list name
    | scalar _ | enumeration _ | map _ _ => cases h
  · rintro (_ | name | name | name) <;> rfl

namespace ServiceMethod

variable (m : ServiceMethod)

theorem checkResponseShape_eq_ok_iff {s : Shape} :
    m.checkResponseShape s = .ok () ↔ Returnable s := by
  rw [← returnable_iff, checkResponseShape]
  split <;> simp_all

theorem checkRequestShape_eq_ok_iff {s : Shape} :
    m.checkRequestShape s = .ok () ↔ (∃ name, s = .bean name) ∨ ∃ name, s = .list (.bean name) := by
  have hlist : s.isBeanList = true ↔ ∃ name, s = .list (.bean name) := by
    cases s <;> simp [Shape.isBeanList, isBean_iff]
  rw [← isBean_iff, ← hlist, ← Bool.or_eq_true, checkRequestShape]
  split
  · simp_all
  · split <;> simp_all

/-! ### One parameter -/

theorem sendable_iff {verb : Http.Method} {s : Shape} : Sendable verb s ↔
    ((∃ name, s = .bean name) ∨ ∃ name, s = .list (.bean name))
      ∧ ¬ (verb.hasBody = false ∧ s.isBean = false) := by
  refine ⟨?_, ?_⟩
  · rintro (name | ⟨name, body⟩)
    · exact ⟨Or.inl ⟨name, rfl⟩, fun h => Bool.noConfusion h.2⟩
    · exact ⟨Or.inr ⟨name, rfl⟩, fun h => by simp [body] at h⟩
  · rintro ⟨⟨name, rfl⟩ | ⟨name, rfl⟩, hnot⟩
    · exact .bean name
    · refine .list name ?_
      cases hbody : verb.hasBody with
      | true => rfl
      | false => exact absurd ⟨hbody, rfl⟩ hnot

theorem checkParam_path {route : Route} {template : PathTemplate} {seen next : Seen} {p : Param}
    {x : String} (hp : p.binding = .path x) : m.checkParam route template seen p = .ok next
      ↔ x ∈ template.placeholders ∧ x ∉ seen.bound ∧ Segmental p.shape
        ∧ { seen with bound := x :: seen.bound } = next := by
  rw [← isValue_iff, checkParam, hp]
  simp only [PathTemplate.hasPlaceholder, List.contains_eq_mem, Bool.not_eq_true',
    decide_eq_false_iff_not, decide_eq_true_eq]
  by_cases hdeclared : x ∈ template.placeholders
  · by_cases hfresh : x ∈ seen.bound
    · simp [hdeclared, hfresh]
    · cases hvalue : p.shape.isValue <;> simp [hdeclared, hfresh]
  · simp [hdeclared]

theorem checkParam_bean {route : Route} {template : PathTemplate} {seen next : Seen} {p : Param}
    (hp : p.binding = .bean) : m.checkParam route template seen p = .ok next
      ↔ seen.bean = false ∧ Sendable route.verb p.shape ∧ { seen with bean := true } = next := by
  rw [sendable_iff, ← m.checkRequestShape_eq_ok_iff, checkParam, hp]
  simp only [Bool.and_eq_true, Bool.not_eq_true']
  cases hfirst : seen.bean with
  | true => simp
  | false =>
    cases hrequest : m.checkRequestShape p.shape with
    | error e => simp
    | ok done =>
      by_cases hquery : route.verb.hasBody = false ∧ p.shape.isBean = false
      · simp [hquery]
      · simp [hquery]

/-! ### All parameters -/

variable {m} {route : Route} {template : PathTemplate}

/-- What is seen behind more parameters. -/
def Seen.after (seen : Seen) (params : List Param) : Seen :=
  ⟨(boundNames params).reverse ++ seen.bound, seen.bean || !(beanParams params).isEmpty⟩

/-- What it takes for parameters to pass behind others. -/
structure Admitted (verb : Http.Method) (template : PathTemplate) (seen : Seen)
    (params : List Param) : Prop where
  declared : ∀ x ∈ boundNames params, x ∈ template.placeholders
  once : (boundNames params).Nodup
  fresh : ∀ x ∈ boundNames params, x ∉ seen.bound
  segmental : ∀ p ∈ params, ∀ x, p.binding = .path x → Segmental p.shape
  oneBean : seen.bean.toNat + (beanParams params).length ≤ 1
  sendable : ∀ p ∈ params, p.binding = .bean → Sendable verb p.shape

theorem admitted_nil {verb : Http.Method} {seen : Seen} : Admitted verb template seen [] := by
  refine ⟨?_, ?_, ?_, ?_, ?_, ?_⟩
  · simp [boundNames]
  · simp [boundNames]
  · simp [boundNames]
  · simp
  · exact Bool.toNat_le _
  · simp

theorem admitted_cons_path {verb : Http.Method} {seen : Seen} {p : Param} {params : List Param}
    {x : String} (hp : p.binding = .path x) : Admitted verb template seen (p :: params)
      ↔ x ∈ template.placeholders ∧ x ∉ seen.bound ∧ Segmental p.shape
        ∧ Admitted verb template { seen with bound := x :: seen.bound } params := by
  have hbound : boundNames (p :: params) = x :: boundNames params := by
    simp [boundNames, hp, Binding.placeholder?]
  have hbeans : beanParams (p :: params) = beanParams params := by
    simp [beanParams, hp]
  -- that a name comes once is said in two parts: it was not seen, and it does not come again behind
  refine ⟨fun ⟨declared, once, fresh, segmental, oneBean, sendable⟩ => ?_, ?_⟩
  · rw [hbound] at declared once fresh
    rw [hbeans] at oneBean
    obtain ⟨hx, honce⟩ := List.nodup_cons.mp once
    refine ⟨declared x List.mem_cons_self, fresh x List.mem_cons_self,
      segmental p List.mem_cons_self x hp, ?_, honce, ?_, ?_, oneBean, ?_⟩
    · exact fun y hy => declared y (List.mem_cons_of_mem x hy)
    · intro y hy hmem
      rcases List.mem_cons.mp hmem with rfl | hmem
      · exact hx hy
      · exact fresh y (List.mem_cons_of_mem x hy) hmem
    · exact fun q hq => segmental q (List.mem_cons_of_mem p hq)
    · exact fun q hq => sendable q (List.mem_cons_of_mem p hq)
  · rintro ⟨hx, hfresh, hshape, declared, once, fresh, segmental, oneBean, sendable⟩
    refine ⟨?_, ?_, ?_, ?_, ?_, ?_⟩
    · rw [hbound]
      exact List.forall_mem_cons.mpr ⟨hx, declared⟩
    · rw [hbound]
      exact List.nodup_cons.mpr ⟨fun hmem => fresh x hmem List.mem_cons_self, once⟩
    · rw [hbound]
      exact List.forall_mem_cons.mpr
        ⟨hfresh, fun y hy hmem => fresh y hy (List.mem_cons_of_mem x hmem)⟩
    · exact List.forall_mem_cons.mpr ⟨fun _ _ => hshape, segmental⟩
    · rwa [hbeans]
    · exact List.forall_mem_cons.mpr ⟨fun hbean => (nomatch hp.symm.trans hbean), sendable⟩

theorem admitted_cons_bean {verb : Http.Method} {seen : Seen} {p : Param} {params : List Param}
    (hp : p.binding = .bean) : Admitted verb template seen (p :: params)
      ↔ seen.bean = false ∧ Sendable verb p.shape
        ∧ Admitted verb template { seen with bean := true } params := by
  have hbound : boundNames (p :: params) = boundNames params := by
    simp [boundNames, hp, Binding.placeholder?]
  have hbeans : (beanParams (p :: params)).length = (beanParams params).length + 1 := by
    simp [beanParams, hp]
  refine ⟨fun ⟨declared, once, fresh, segmental, oneBean, sendable⟩ => ?_, ?_⟩
  · rw [hbound] at declared once fresh
    rw [hbeans] at oneBean
    refine ⟨?_, sendable p List.mem_cons_self hp, declared, once, fresh, ?_, ?_, ?_⟩
    · -- a bean that was seen would make this one the second
      cases hbean : seen.bean with
      | false => rfl
      | true =>
        rw [hbean, Bool.toNat_true] at oneBean
        omega
    · exact fun q hq => segmental q (List.mem_cons_of_mem p hq)
    · simp only [Bool.toNat_true]
      omega
    · exact fun q hq => sendable q (List.mem_cons_of_mem p hq)
  · rintro ⟨hfirst, hshape, declared, once, fresh, segmental, oneBean, sendable⟩
    refine ⟨hbound ▸ declared, hbound ▸ once, hbound ▸ fresh, ?_, ?_, ?_⟩
    · exact List.forall_mem_cons.mpr ⟨fun x hx => (nomatch hp.symm.trans hx), segmental⟩
    · simp only [Bool.toNat_true] at oneBean
      rw [hbeans, hfirst, Bool.toNat_false]
      omega
    · exact List.forall_mem_cons.mpr ⟨fun _ => hshape, sendable⟩

theorem after_cons_path {seen : Seen} {p : Param} {params : List Param} {x : String}
    (hp : p.binding = .path x) :
    seen.after (p :: params) = Seen.after { seen with bound := x :: seen.bound } params := by
  simp [Seen.after, boundNames, beanParams, hp, Binding.placeholder?]

theorem after_cons_bean {seen : Seen} {p : Param} {params : List Param} (hp : p.binding = .bean) :
    seen.after (p :: params) = Seen.after { seen with bean := true } params := by
  simp [Seen.after, boundNames, beanParams, hp, Binding.placeholder?]

/-- The parameters pass one after the other just if they are admitted as a whole. -/
theorem checkParams_eq_ok_iff {params : List Param} {seen last : Seen} :
    params.foldlM (m.checkParam route template) seen = .ok last
      ↔ Admitted route.verb template seen params ∧ seen.after params = last := by
  -- on the parameters; what was seen before them is general
  induction params generalizing seen with
  | nil =>
    have hafter : seen.after [] = seen := by simp [Seen.after, boundNames, beanParams]
    simp [List.foldlM_nil, pure, Except.pure, admitted_nil, hafter]
  | cons p params ih =>
    rw [List.foldlM_cons, bind_eq_ok]
    cases hp : p.binding with
    | path x =>
      rw [admitted_cons_path hp, after_cons_path hp]
      simp only [m.checkParam_path hp, ih]
      constructor
      · rintro ⟨_, ⟨hx, hfresh, hshape, rfl⟩, hrest, hlast⟩
        exact ⟨⟨hx, hfresh, hshape, hrest⟩, hlast⟩
      · rintro ⟨⟨hx, hfresh, hshape, hrest⟩, hlast⟩
        exact ⟨_, ⟨hx, hfresh, hshape, rfl⟩, hrest, hlast⟩
    | bean =>
      rw [admitted_cons_bean hp, after_cons_bean hp]
      simp only [m.checkParam_bean hp, ih]
      constructor
      · rintro ⟨_, ⟨hfirst, hshape, rfl⟩, hrest, hlast⟩
        exact ⟨⟨hfirst, hshape, hrest⟩, hlast⟩
      · rintro ⟨⟨hfirst, hshape, hrest⟩, hlast⟩
        exact ⟨_, ⟨hfirst, hshape, rfl⟩, hrest, hlast⟩

/-! ### Methods and contracts -/

theorem supports_iff {verb : Http.Method} : Supports m verb template
    ↔ Admitted verb template {} m.params ∧ (∀ x ∈ template.placeholders, x ∈ boundNames m.params)
      ∧ Returnable m.returns := by
  constructor
  · rintro ⟨declared, once, complete, segmental, oneBean, sendable, returnable⟩
    refine ⟨⟨declared, once, fun _ _ => List.not_mem_nil, segmental, ?_, sendable⟩, complete,
      returnable⟩
    rwa [Bool.toNat_false, Nat.zero_add]
  · rintro ⟨⟨declared, once, -, segmental, oneBean, sendable⟩, complete, returnable⟩
    rw [Bool.toNat_false, Nat.zero_add] at oneBean
    exact ⟨declared, once, complete, segmental, oneBean, sendable, returnable⟩

/-- What is left to check behind the parameters: no placeholder is missing, and the response. -/
theorem rest_eq_ok_iff {bound : List String} :
    (match template.placeholders.find? (!bound.contains ·) with
      | some name => throw (ContractError.unresolvedPlaceholder route.path name)
      | none => m.checkResponseShape m.returns) = .ok ()
    ↔ (∀ x ∈ template.placeholders, x ∈ bound) ∧ Returnable m.returns := by
  cases hfind : template.placeholders.find? (!bound.contains ·) with
  | some name =>
    have hmissing := List.find?_some hfind
    have hname := List.mem_of_find?_eq_some hfind
    refine ⟨fun h => (nomatch h), fun h => ?_⟩
    simp [h.1 name hname] at hmissing
  | none =>
    rw [List.find?_eq_none] at hfind
    simp only [m.checkResponseShape_eq_ok_iff]
    refine ⟨fun h => ⟨fun x hx => ?_, h⟩, fun h => h.2⟩
    simpa using hfind x hx

theorem validate_eq_ok_iff_supported : m.validate = .ok () ↔ m.Supported := by
  unfold ServiceMethod.validate ServiceMethod.Supported
  cases hroute : m.route with
  | none => simp
  | some route =>
    simp only [bind_eq_ok, checkParams_eq_ok_iff, supports_iff]
    constructor
    · rintro ⟨template, htemplate, seen, ⟨hadmitted, hseen⟩, hrest⟩
      obtain ⟨hcomplete, hreturns⟩ := rest_eq_ok_iff.mp hrest
      refine ⟨route, template, rfl, htemplate, hadmitted, fun x hx => ?_, hreturns⟩
      simpa [← hseen, Seen.after] using hcomplete x hx
    · rintro ⟨_, template, ⟨⟩, htemplate, hadmitted, hcomplete, hreturns⟩
      refine ⟨template, htemplate, _, ⟨hadmitted, rfl⟩, ?_⟩
      refine rest_eq_ok_iff.mpr ⟨fun x hx => ?_, hreturns⟩
      simpa [Seen.after] using hcomplete x hx

end ServiceMethod

namespace Contract

/-- Methods pass behind others if their names are new and their own, and they are supported. -/
theorem validateMethods_eq_ok_iff {service : String} {names : List String}
    {methods : List ServiceMethod} : validateMethods service names methods = .ok ()
      ↔ (methods.map ServiceMethod.name).Nodup ∧ (∀ m ∈ methods, m.name ∉ names)
        ∧ ∀ m ∈ methods, m.Supported := by
  induction methods generalizing names with
  | nil => simp [validateMethods]
  | cons m methods ih =>
    rw [validateMethods, List.contains_eq_mem, List.map_cons, List.nodup_cons]
    by_cases hname : m.name ∈ names
    · simp [hname]
    · cases hvalid : m.validate with
      | error e =>
        have hnot : ¬ m.Supported := by
          rw [← ServiceMethod.validate_eq_ok_iff_supported, hvalid]
          exact nofun
        simp [hname, hnot]
      | ok done =>
        have hsupported : m.Supported := ServiceMethod.validate_eq_ok_iff_supported.mp hvalid
        simp only [hname, decide_false, Bool.false_eq_true, if_false, ih, List.mem_cons, not_or,
          forall_eq_or_imp, not_false_eq_true, true_and, hsupported, List.mem_map, not_exists,
          not_and]
        constructor
        · rintro ⟨honce, hfresh, hmethods⟩
          exact ⟨⟨fun n hn heq => (hfresh n hn).1 heq, honce⟩, fun n hn => (hfresh n hn).2, hmethods⟩
        · rintro ⟨⟨hown, honce⟩, hfresh, hmethods⟩
          exact ⟨honce, fun n hn => ⟨hown n hn, hfresh n hn⟩, hmethods⟩

/-- The check accepts just the supported contracts. -/
theorem validate_eq_ok_iff (c : Contract) : c.validate = .ok () ↔ c.Supported := by
  rw [Contract.validate, validateMethods_eq_ok_iff]
  constructor
  · rintro ⟨hnames, -, hmethods⟩
    exact ⟨hnames, hmethods⟩
  · rintro ⟨hnames, hmethods⟩
    exact ⟨hnames, fun _ _ => List.not_mem_nil, hmethods⟩

end Contract

end ServiceCall
