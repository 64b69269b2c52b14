import ServiceCall.Proofs.Client.Query
import ServiceCall.Proofs.Client.Trace
import ServiceCall.Proofs.First

/-!
# Beans placed one after the other

Several beans may be placed in one request. One that cannot be placed leaves the request as it was,
even if some of its members could have been, and any other changes only the part that carries it. So
whatever was placed before stays, but for a body that gives way to a later one. A call places at most
one bean, and sends it in one part of its request.
-/

namespace ServiceCall

namespace Bean

/-- A value that has parts, and so no text of its own. -/
def Nested : Json → Prop
  | .array _ => True
  | .object _ => True
  | _ => False

/-- A member whose value has parts. -/
def IsNested (m : String × Json) : Prop := Nested m.2

/-- Why a bean cannot be told by pairs: it is no object, or it has a nested member, of which the first
is named. -/
inductive Refused : Json → Error → Prop where
  | notAnObject {bean : Json} (other : ∀ members, bean ≠ .object members) :
      Refused bean (.notAnObject bean.kindName)
  | nested {members : List (String × Json)} {name : String} {value : Json}
      (first : IsFirst IsNested members (name, value)) :
      Refused (.object members) (.unsupportedQueryValue name)

/-- Members are refused for the first one of them that is nested. -/
theorem queryMembers_eq_error_iff {members : List (String × Json)} {e : Error} :
    queryMembers members = .error e
      ↔ ∃ m, IsFirst IsNested members m ∧ e = .unsupportedQueryValue m.1 := by
  induction members with
  | nil => simp [queryMembers, not_isFirst_nil]
  | cons m members ih =>
    obtain ⟨name, value⟩ := m
    -- a nested member is the first of its kind, a flat one leaves that to the others
    have hflat (h : ¬ IsNested (name, value)) : queryMembers members = .error e
        ↔ ∃ m, IsFirst IsNested ((name, value) :: members) m ∧ e = .unsupportedQueryValue m.1 := by
      simp only [isFirst_cons_of_neg h, ih]
    have hnested (h : IsNested (name, value)) :
        (.error (.unsupportedQueryValue name) : Except Error (List (String × String))) = .error e
        ↔ ∃ m, IsFirst IsNested ((name, value) :: members) m ∧ e = .unsupportedQueryValue m.1 := by
      simp [isFirst_cons_of_pos h, eq_comm]
    cases value with
    | null => exact hflat id
    | array items => exact hnested trivial
    | object inner => exact hnested trivial
    | bool b => exact map_eq_error.trans (hflat id)
    | number n => exact map_eq_error.trans (hflat id)
    | text t => exact map_eq_error.trans (hflat id)

/-- A bean has no pairs just if it is refused. -/
theorem encodeQuery_eq_error_iff {bean : Json} {e : Error} :
    encodeQuery bean = .error e ↔ Refused bean e := by
  constructor
  · intro h
    cases bean with
    | object members =>
      obtain ⟨m, hfirst, rfl⟩ := queryMembers_eq_error_iff.mp h
      exact .nested hfirst
    | _ =>
      cases h
      exact .notAnObject nofun
  · rintro (hother | hfirst)
    · cases bean with
      | object members => exact absurd rfl (hother members)
      | _ => rfl
    · exact queryMembers_eq_error_iff.mpr ⟨_, hfirst, rfl⟩

/-- The pairs of a bean, none if it has no pairs. -/
def pairs (bean : Json) : List (String × String) := (encodeQuery bean).toOption.getD []

end Bean

namespace Http

/-- Places a bean in the request at hand. A failure undoes nothing of what was changed before it. -/
def place (bean : Json) : ExceptT Bean.Error (StateM Request) Unit := do
  if (← get).method.hasBody then
    modify fun r => { r with body := some (Bean.encodeBody bean) }
  else
    let more ← Bean.encodeQuery bean
    modify fun r => { r with params := r.params ++ more }

/-- Places beans one after the other in the request at hand, and tells how each one went. -/
def placeAll (beans : List Json) : StateM Request (List (Except Bean.Error Unit)) :=
  beans.mapM fun bean => (place bean).run

/-- How a bean is placed in a request, and what becomes of the request. -/
structure Places (r : Request) (bean : Json) (outcome : Except Bean.Error Unit) (after : Request) :
    Prop where
  returned : r.putBean bean = outcome.map fun _ => after
  /-- A failure changes nothing. -/
  failed (e : Bean.Error) : outcome = .error e → after = r
  body : r.method.hasBody = true →
    outcome = .ok () ∧ after = { r with body := some (Bean.encodeBody bean) }
  query : r.method.hasBody = false → outcome = .ok () →
    ∃ members more, bean = .object members ∧ List.Forall₂ Bean.Renders (Bean.present members) more
      ∧ after = { r with params := r.params ++ more }
  refused (e : Bean.Error) : r.method.hasBody = false → (outcome = .error e ↔ Bean.Refused bean e)

/-- How beans are placed in a request, each of them in what the one before it has left. -/
inductive PlacesAll : Request → List Json → List (Except Bean.Error Unit) → Request → Prop where
  | nil (r : Request) : PlacesAll r [] [] r
  | cons {r next last : Request} {bean : Json} {beans : List Json}
      {outcome : Except Bean.Error Unit} {outcomes : List (Except Bean.Error Unit)}
      (first : Places r bean outcome next) (rest : PlacesAll next beans outcomes last) :
      PlacesAll r (bean :: beans) (outcome :: outcomes) last

/-- What a request holds behind a number of beans: as its body the last of them, or as its pairs those
that it had and then those of all beans, in their order. -/
structure Collects (r : Request) (beans : List Json) (last : Request) : Prop where
  frame : last = { r with params := last.params, body := last.body }
  body : r.method.hasBody = true →
    last.params = r.params ∧ last.body = (beans.getLast?.map Bean.encodeBody).or r.body
  query : r.method.hasBody = false →
    last.body = r.body ∧ last.params = r.params ++ beans.flatMap Bean.pairs

/-! ### One bean -/

theorem place_run (bean : Json) (r : Request) :
    (place bean).run r = match r.putBean bean with
      | .ok placed => (.ok (), placed)
      | .error e => (.error e, r) := by
  unfold place Request.putBean
  generalize Bean.encodeQuery bean = query
  obtain ⟨verb, uri, params, headers, body⟩ := r
  cases verb <;> cases query <;> rfl

variable {r : Request} {bean : Json}

theorem place_run_of_body (h : r.method.hasBody = true) :
    (place bean).run r = (.ok (), { r with body := some (Bean.encodeBody bean) }) := by
  rw [place_run, Request.putBean, if_pos h]

theorem place_run_of_query (h : r.method.hasBody = false) :
    (place bean).run r = ((Bean.encodeQuery bean).map fun _ => (),
      { r with params := r.params ++ Bean.pairs bean }) := by
  rw [place_run, Request.putBean, h, Bean.pairs]
  cases Bean.encodeQuery bean with
  | ok more => rfl
  | error e => simp [Except.map, Except.toOption]

theorem putBean_eq (r : Request) (bean : Json) :
    r.putBean bean = ((place bean).run r).1.map fun _ => ((place bean).run r).2 := by
  rw [place_run]
  cases r.putBean bean <;> rfl

theorem places_run (r : Request) (bean : Json) :
    Places r bean ((place bean).run r).1 ((place bean).run r).2 := by
  have hreturned := putBean_eq r bean
  cases hbody : r.method.hasBody with
  | true =>
    rw [place_run_of_body hbody] at hreturned ⊢
    exact ⟨hreturned, nofun, fun _ => ⟨rfl, rfl⟩, fun h => by simp [hbody] at h,
      fun _ h => by simp [hbody] at h⟩
  | false =>
    rw [place_run_of_query hbody] at hreturned ⊢
    refine ⟨hreturned, fun e he => ?_, fun h => by simp [hbody] at h, fun _ hok => ?_, fun e _ => ?_⟩
    · simp [Bean.pairs, map_eq_error.mp he, Except.toOption]
    · obtain ⟨more, hmore, -⟩ := map_eq_ok.mp hok
      cases bean with
      | object members =>
        refine ⟨members, more, rfl, Bean.renders_of_queryMembers hmore, ?_⟩
        simp [Bean.pairs, hmore, Except.toOption]
      | _ => cases hmore
    · exact map_eq_error.trans Bean.encodeQuery_eq_error_iff

/-! ### Any number of beans -/

theorem placeAll_cons_run (r : Request) (bean : Json) (beans : List Json) :
    (placeAll (bean :: beans)).run r
      = (((place bean).run r).1 :: ((placeAll beans).run ((place bean).run r).2).1,
          ((placeAll beans).run ((place bean).run r).2).2) := by
  rw [placeAll, List.mapM_cons]
  rfl

theorem placesAll_run (r : Request) (beans : List Json) :
    PlacesAll r beans ((placeAll beans).run r).1 ((placeAll beans).run r).2 := by
  induction beans generalizing r with
  | nil => exact .nil r
  | cons bean beans ih =>
    rw [placeAll_cons_run]
    exact .cons (places_run r bean) (ih _)

theorem collects_run (r : Request) (beans : List Json) : Collects r beans ((placeAll beans).run r).2 := by
  -- the request is general: each bean is placed in what the one before it has left
  induction beans generalizing r with
  | nil => exact ⟨rfl, fun _ => ⟨rfl, rfl⟩, fun _ => ⟨rfl, (List.append_nil _).symm⟩⟩
  | cons bean beans ih =>
    rw [placeAll_cons_run]
    cases hbody : r.method.hasBody with
    | true =>
      rw [place_run_of_body hbody]
      obtain ⟨hframe, hlast, -⟩ := ih { r with body := some (Bean.encodeBody bean) }
      obtain ⟨hparams, hsent⟩ := hlast hbody
      refine ⟨hframe, fun _ => ⟨hparams, ?_⟩, fun h => by simp [hbody] at h⟩
      rw [hsent, List.getLast?_cons]
      cases beans.getLast? <;> rfl
    | false =>
      rw [place_run_of_query hbody]
      obtain ⟨hframe, -, hlast⟩ := ih { r with params := r.params ++ Bean.pairs bean }
      obtain ⟨hkept, hparams⟩ := hlast hbody
      refine ⟨hframe, fun h => by simp [hbody] at h, fun _ => ⟨hkept, ?_⟩⟩
      rw [hparams, List.flatMap_cons, List.append_assoc]

end Http

namespace ServiceClient

/-! ### The request of a call -/

variable {c : ServiceClient} {transport : Transport} {verb : Http.Method} {template : PathTemplate}
  {values : KeyMap String} {bean : Option Json} {shape : Shape} {decoder : Json.Decoder}

/-- A bean that is placed in a request without body and pairs gives it one of them. -/
theorem one_part_of_putBean {r placed : Http.Request} {b : Json} (hbody : r.body = none)
    (hparams : r.params = []) (h : r.putBean b = .ok placed) :
    placed.body = none ∨ placed.params = [] := by
  have hplaces : Http.Places r b (.ok ()) placed := by
    have hrun := Http.places_run r b
    rw [Http.place_run, h] at hrun
    exact hrun
  cases hverb : r.method.hasBody with
  | true =>
    obtain ⟨-, hplaced⟩ := hplaces.body hverb
    exact .inr (by rw [hplaced]; exact hparams)
  | false =>
    obtain ⟨members, more, -, -, hplaced⟩ := hplaces.query hverb rfl
    exact .inl (by rw [hplaced]; exact hbody)

theorem one_part_of_buildRequest {r : Http.Request}
    (h : c.buildRequest verb template values bean = .ok r) : r.body = none ∨ r.params = [] := by
  cases haddress : c.serviceUrl template values with
  | error e =>
    rw [buildRequest_of_unresolved haddress] at h
    cases h
  | ok uri =>
    cases bean with
    | none =>
      simp only [buildRequest, haddress] at h
      cases h
      exact .inl rfl
    | some b =>
      cases hplace : Http.Request.putBean { method := verb, uri } b with
      | error e =>
        rw [buildRequest_of_unplaced haddress hplace] at h
        cases h
      | ok placed =>
        simp only [buildRequest, haddress, hplace] at h
        cases h
        exact one_part_of_putBean rfl rfl hplace

/-- The first hook sees the request as it was built. -/
theorem eq_of_onRequest_mem {hooks : List Interceptor} {r q : Http.Request}
    {seen : List Http.Request} (hseen : Sees hooks r seen)
    (hq : Step.onRequest 0 q ∈ requestSteps seen) : q = r := by
  obtain ⟨i, hi, heq⟩ := List.mem_mapIdx.mp hq
  cases heq
  have hfirst := hseen.get (by rw [hseen.length_eq]; exact hi) hi
  rw [List.get_eq_getElem, List.getElem_range, List.take_zero] at hfirst
  exact (Except.ok.inj hfirst).symm

theorem buildRequest_of_onRequest_mem {q : Http.Request}
    (h : Step.onRequest 0 q ∈ (c.execute transport verb template values bean shape decoder).steps) :
    c.buildRequest verb template values bean = .ok q := by
  obtain ⟨run, hconducts⟩ := c.exists_conducts transport verb template values bean shape decoder
  rw [← hconducts.eq_execute] at h
  cases hconducts with
  | unresolved _ => cases h
  | unplaced _ _ _ => cases h
  | refused hrequest _ hseen _ _ => rw [hrequest, eq_of_onRequest_mem hseen h]
  | unanswered hrequest hseen _ _ =>
    rw [hrequest, eq_of_onRequest_mem (q := q) hseen (by simpa using h)]
  | rejected hrequest hseen _ _ _ _ _ =>
    rw [hrequest, eq_of_onRequest_mem (q := q) hseen (by simpa [responseSteps] using h)]
  | answered hrequest hseen _ _ _ =>
    rw [hrequest, eq_of_onRequest_mem (q := q) hseen (by simpa [responseSteps] using h)]

end ServiceClient

/-- A bean with a nested member behind a flat one gives no pair, and the bean behind it all of its own. -/
example : ((Http.placeAll [.object [("name", .text "a"), ("ids", .array [])],
      .object [("page", .text "2"), ("note", .null)]]).run
    { method := .get, uri := "http://localhost/user" }).2.params = [("page", "2")] := by rfl

end ServiceCall
