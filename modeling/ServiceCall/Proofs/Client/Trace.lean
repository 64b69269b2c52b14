import Mathlib.Data.List.Forall2
import ServiceCall.Client.Execute
import ServiceCall.Proofs.Except

/-!
# The order of the steps of a call

A call runs the hooks on its request in the order of their registration, sends what they leave, and
runs the hooks on the response in the same order. What does not succeed ends it. So there are six ways
that a call can go, and in each of them its steps, its records and its result are settled.
-/

namespace ServiceCall

/-- The request behind hooks: each is given what the one before it has left, and the first that
refuses ends it. -/
def behind (hooks : List Interceptor) (r : Http.Request) : Except String Http.Request :=
  hooks.foldlM (fun seen hook => hook.onRequest seen) r

/-- Hooks see requests: each one, by its place, the request behind all hooks in front of it. -/
def Sees (hooks : List Interceptor) (r : Http.Request) (seen : List Http.Request) : Prop :=
  List.Forall₂ (fun k q => behind (hooks.take k) r = .ok q) (List.range hooks.length) seen

/-- The steps of hooks on requests. -/
def requestSteps (seen : List Http.Request) : List Step := seen.mapIdx Step.onRequest

/-- The steps of as many hooks on one response. -/
def responseSteps (count : Nat) (response : Http.Response) : List Step :=
  (List.range count).map fun k => .onResponse k response

namespace ServiceClient

/-- The ways that a call can go. -/
inductive Conducts (c : ServiceClient) (transport : Transport) (verb : Http.Method)
    (template : PathTemplate) (values : KeyMap String) (bean : Option Json) (shape : Shape)
    (decoder : Json.Decoder) : CallRun → Prop
  /-- There is no address: no hook runs and nothing is sent. -/
  | unresolved {e : ContractError} (haddress : c.serviceUrl template values = .error e) :
      Conducts c transport verb template values bean shape decoder
        { result := .error (.contract e) }
  /-- The bean cannot be placed: no hook runs and nothing is sent. -/
  | unplaced {uri : String} {b : Json} {e : Bean.Error}
      (haddress : c.serviceUrl template values = .ok uri) (hbean : bean = some b)
      (hplace : Http.Request.putBean { method := verb, uri } b = .error e) :
      Conducts c transport verb template values bean shape decoder
        { result := .error (.bean e) }
  /-- A hook refuses the request: the hooks up to it have run, and nothing is sent. -/
  | refused {r q : Http.Request} {before after : List Interceptor} {hook : Interceptor}
      {seen : List Http.Request} {reason : String}
      (hrequest : c.buildRequest verb template values bean = .ok r)
      (hhooks : c.interceptors = before ++ hook :: after)
      (hseen : Sees (before ++ [hook]) r seen) (hbefore : behind before r = .ok q)
      (hhook : hook.onRequest q = .error reason) :
      Conducts c transport verb template values bean shape decoder
        { steps := requestSteps seen, result := .error (.interceptor reason) }
  /-- There is no answer: all hooks have run on the request, and what they left is sent once. -/
  | unanswered {r final : Http.Request} {seen : List Http.Request} {told : List Log.Record}
      {e : Http.TransportError}
      (hrequest : c.buildRequest verb template values bean = .ok r)
      (hseen : Sees c.interceptors r seen) (hfinal : behind c.interceptors r = .ok final)
      (hanswer : transport final = (told, .error e)) :
      Conducts c transport verb template values bean shape decoder
        { steps := requestSteps seen ++ [.send final], logs := told
          result := .error (.transport e) }
  /-- A hook refuses the response: the hooks up to it have seen the response, which is not looked at
  any further. -/
  | rejected {r final : Http.Request} {seen : List Http.Request} {told : List Log.Record}
      {response : Http.Response} {before after : List Interceptor} {hook : Interceptor}
      {reason : String} (hrequest : c.buildRequest verb template values bean = .ok r)
      (hseen : Sees c.interceptors r seen) (hfinal : behind c.interceptors r = .ok final)
      (hanswer : transport final = (told, .ok response))
      (hhooks : c.interceptors = before ++ hook :: after)
      (hbefore : ∀ earlier ∈ before, earlier.onResponse response = .ok ())
      (hhook : hook.onResponse response = .error reason) :
      Conducts c transport verb template values bean shape decoder
        { steps := requestSteps seen ++ [.send final] ++ responseSteps (before.length + 1) response
          logs := told, result := .error (.interceptor reason) }
  /-- All hooks have seen the response; then it is read by its status and the declared shape. -/
  | answered {r final : Http.Request} {seen : List Http.Request} {told : List Log.Record}
      {response : Http.Response} (hrequest : c.buildRequest verb template values bean = .ok r)
      (hseen : Sees c.interceptors r seen) (hfinal : behind c.interceptors r = .ok final)
      (hanswer : transport final = (told, .ok response))
      (hhooks : ∀ hook ∈ c.interceptors, hook.onResponse response = .ok ()) :
      Conducts c transport verb template values bean shape decoder
        { steps := requestSteps seen ++ [.send final]
            ++ responseSteps c.interceptors.length response
          logs := told ++ (readResponse verb template shape decoder response).1
          result := (readResponse verb template shape decoder response).2 }

end ServiceClient

/-! ### Requests behind hooks -/

theorem behind_cons (hook : Interceptor) (rest : List Interceptor) (r : Http.Request) :
    behind (hook :: rest) r = hook.onRequest r >>= behind rest :=
  List.foldlM_cons

theorem behind_append (before after : List Interceptor) (r : Http.Request) :
    behind (before ++ after) r = behind before r >>= behind after :=
  List.foldlM_append

theorem exists_behind_take {hooks : List Interceptor} {r final : Http.Request}
    (h : behind hooks r = .ok final) (k : Nat) : ∃ q, behind (hooks.take k) r = .ok q := by
  rw [← List.take_append_drop k hooks, behind_append] at h
  obtain ⟨q, hq, -⟩ := bind_eq_ok.mp h
  exact ⟨q, hq⟩

/-- Hooks leave a request, or a first one of them refuses. -/
theorem behind_cases (hooks : List Interceptor) (r : Http.Request) :
    (∃ final, behind hooks r = .ok final) ∨ ∃ before hook after q reason,
      hooks = before ++ hook :: after ∧ behind before r = .ok q
        ∧ hook.onRequest q = .error reason := by
  induction hooks generalizing r with
  | nil => exact .inl ⟨r, rfl⟩
  | cons hook rest ih =>
    cases hhook : hook.onRequest r with
    | error reason => exact .inr ⟨[], hook, rest, r, reason, rfl, rfl, hhook⟩
    | ok changed =>
      rcases ih changed with ⟨final, hfinal⟩ | ⟨before, other, after, q, reason, rfl, hq, hother⟩
      · refine .inl ⟨final, ?_⟩
        rw [behind_cons, hhook]
        exact hfinal
      · refine .inr ⟨hook :: before, other, after, q, reason, rfl, ?_, hother⟩
        rw [behind_cons, hhook]
        exact hq

theorem exists_sees {hooks : List Interceptor} {r final : Http.Request}
    (h : behind hooks r = .ok final) : ∃ seen, Sees hooks r seen :=
  exists_forall₂ fun k _ => exists_behind_take h k

theorem exists_sees_concat {before : List Interceptor} {r q : Http.Request}
    (h : behind before r = .ok q) (hook : Interceptor) : ∃ seen, Sees (before ++ [hook]) r seen := by
  refine exists_forall₂ fun k hk => ?_
  have hle : k ≤ before.length := Nat.le_of_lt_succ (by simpa using List.mem_range.mp hk)
  rw [List.take_append_of_le_length hle]
  exact exists_behind_take h k

theorem sees_cons {hook : Interceptor} {rest : List Interceptor} {r changed : Http.Request}
    (hchanged : hook.onRequest r = .ok changed) {seen : List Http.Request} :
    Sees (hook :: rest) r seen ↔ ∃ later, Sees rest changed later ∧ seen = r :: later := by
  have hfirst : behind [] r = .ok r := rfl
  -- what the later hooks see is what a run of them sees from the changed request on
  have hlater (k : Nat) : behind ((hook :: rest).take (k + 1)) r = behind (rest.take k) changed := by
    rw [List.take_succ_cons, behind_cons, hchanged]
    rfl
  simp only [Sees, List.length_cons, List.range_succ_eq_map, List.forall₂_cons_left_iff,
    List.forall₂_map_left_iff, Nat.succ_eq_add_one, hlater, List.take_zero, hfirst, Except.ok.injEq]
  constructor
  · rintro ⟨_, later, rfl, hseen, rfl⟩
    exact ⟨later, hseen, rfl⟩
  · rintro ⟨later, hseen, rfl⟩
    exact ⟨r, later, rfl, hseen, rfl⟩

theorem sees_singleton {hook : Interceptor} {r : Http.Request} {seen : List Http.Request} :
    Sees [hook] r seen ↔ seen = [r] := by
  have hfirst : behind [] r = .ok r := rfl
  simp [Sees, List.range_succ_eq_map, List.forall₂_cons_left_iff, hfirst]

namespace ServiceClient

/-! ### Runs of hooks

The first hook of a run has place `k`, since each later hook starts a run of its own. -/

theorem requestHooks_of_behind {hooks : List Interceptor} {r final : Http.Request}
    {seen : List Http.Request} (hseen : Sees hooks r seen) (hfinal : behind hooks r = .ok final)
    (k : Nat) :
    requestHooks k hooks r = (seen.mapIdx fun i q => .onRequest (k + i) q, .ok final) := by
  induction hooks generalizing k r seen with
  | nil =>
    obtain rfl : seen = [] := List.forall₂_nil_left_iff.mp hseen
    obtain rfl : r = final := Except.ok.inj hfinal
    rfl
  | cons hook rest ih =>
    rw [behind_cons] at hfinal
    obtain ⟨changed, hchanged, hrest⟩ := bind_eq_ok.mp hfinal
    obtain ⟨later, hlater, rfl⟩ := (sees_cons hchanged).mp hseen
    simp only [requestHooks, hchanged, ih hlater hrest, List.mapIdx_cons, Nat.add_zero,
      Nat.add_assoc, Nat.add_comm 1]

theorem requestHooks_of_refused {before after : List Interceptor} {hook : Interceptor}
    {r q : Http.Request} {seen : List Http.Request} {reason : String}
    (hseen : Sees (before ++ [hook]) r seen) (hbefore : behind before r = .ok q)
    (hhook : hook.onRequest q = .error reason) (k : Nat) :
    requestHooks k (before ++ hook :: after) r
      = (seen.mapIdx fun i q => .onRequest (k + i) q, .error reason) := by
  induction before generalizing k r seen with
  | nil =>
    obtain rfl : r = q := Except.ok.inj hbefore
    obtain rfl : seen = [r] := sees_singleton.mp hseen
    simp [requestHooks, hhook]
  | cons first rest ih =>
    rw [behind_cons] at hbefore
    obtain ⟨changed, hchanged, hrest⟩ := bind_eq_ok.mp hbefore
    obtain ⟨later, hlater, rfl⟩ := (sees_cons hchanged).mp hseen
    simp only [List.cons_append, requestHooks, hchanged, ih hlater hrest, List.mapIdx_cons,
      Nat.add_zero, Nat.add_assoc, Nat.add_comm 1]

/-- Hooks let a response pass, or a first one of them refuses. -/
theorem onResponse_cases (hooks : List Interceptor) (response : Http.Response) :
    (∀ hook ∈ hooks, hook.onResponse response = .ok ()) ∨ ∃ before hook after reason,
      hooks = before ++ hook :: after ∧ (∀ earlier ∈ before, earlier.onResponse response = .ok ())
        ∧ hook.onResponse response = .error reason := by
  induction hooks with
  | nil => exact .inl (by simp)
  | cons hook rest ih =>
    cases hhook : hook.onResponse response with
    | error reason => exact .inr ⟨[], hook, rest, reason, rfl, by simp, hhook⟩
    | ok =>
      rcases ih with hpass | ⟨before, other, after, reason, rfl, hbefore, hother⟩
      · exact .inl (List.forall_mem_cons.mpr ⟨hhook, hpass⟩)
      · exact .inr ⟨hook :: before, other, after, reason, rfl,
          List.forall_mem_cons.mpr ⟨hhook, hbefore⟩, hother⟩

theorem responseHooks_of_passed {hooks : List Interceptor} {response : Http.Response}
    (hpass : ∀ hook ∈ hooks, hook.onResponse response = .ok ()) (k : Nat) :
    responseHooks k hooks response
      = ((List.range' k hooks.length).map fun i => .onResponse i response, .ok ()) := by
  induction hooks generalizing k with
  | nil => rfl
  | cons hook rest ih =>
    obtain ⟨hhook, hrest⟩ := List.forall_mem_cons.mp hpass
    simp [responseHooks, hhook, ih hrest, List.range'_succ]

theorem responseHooks_of_refused {before after : List Interceptor} {hook : Interceptor}
    {response : Http.Response} {reason : String}
    (hbefore : ∀ earlier ∈ before, earlier.onResponse response = .ok ())
    (hhook : hook.onResponse response = .error reason) (k : Nat) :
    responseHooks k (before ++ hook :: after) response
      = ((List.range' k (before.length + 1)).map fun i => .onResponse i response,
          .error reason) := by
  induction before generalizing k with
  | nil => simp [responseHooks, hhook]
  | cons first rest ih =>
    obtain ⟨hfirst, hrest⟩ := List.forall_mem_cons.mp hbefore
    simp [responseHooks, hfirst, ih hrest, List.range'_succ]

/-! ### Ways of a call -/

variable {c : ServiceClient} {transport : Transport} {verb : Http.Method} {template : PathTemplate}
  {values : KeyMap String} {bean : Option Json} {shape : Shape} {decoder : Json.Decoder}

theorem buildRequest_of_unresolved {e : ContractError}
    (haddress : c.serviceUrl template values = .error e) :
    c.buildRequest verb template values bean = .error (.contract e) := by
  simp only [buildRequest, haddress]

theorem buildRequest_of_unplaced {uri : String} {b : Json} {e : Bean.Error}
    (haddress : c.serviceUrl template values = .ok uri)
    (hplace : Http.Request.putBean { method := verb, uri } b = .error e) :
    c.buildRequest verb template values (some b) = .error (.bean e) := by
  simp only [buildRequest, haddress, hplace]

/-- A request is built unless there is no address, or the bean cannot be placed. -/
theorem buildRequest_cases (c : ServiceClient) (verb : Http.Method) (template : PathTemplate)
    (values : KeyMap String) (bean : Option Json) :
    (∃ e, c.serviceUrl template values = .error e)
      ∨ (∃ uri b e, c.serviceUrl template values = .ok uri ∧ bean = some b
          ∧ Http.Request.putBean { method := verb, uri } b = .error e)
      ∨ ∃ r, c.buildRequest verb template values bean = .ok r := by
  cases haddress : c.serviceUrl template values with
  | error e => exact .inl ⟨e, rfl⟩
  | ok uri =>
    cases bean with
    | none => exact .inr (.inr ⟨_, by simp only [buildRequest, haddress]; rfl⟩)
    | some b =>
      cases hplace : Http.Request.putBean { method := verb, uri } b with
      | error e => exact .inr (.inl ⟨uri, b, e, rfl, rfl, hplace⟩)
      | ok placed => exact .inr (.inr ⟨placed, by simp only [buildRequest, haddress, hplace]⟩)

/-- Each way settles the whole call. -/
theorem Conducts.eq_execute {run : CallRun}
    (h : c.Conducts transport verb template values bean shape decoder run) :
    run = c.execute transport verb template values bean shape decoder := by
  cases h with
  | unresolved haddress => simp only [execute, buildRequest_of_unresolved haddress]
  | unplaced haddress hbean hplace =>
    subst hbean
    simp only [execute, buildRequest_of_unplaced haddress hplace]
  | refused hrequest hhooks hseen hbefore hhook =>
    simp only [execute, hrequest, hhooks, requestHooks_of_refused hseen hbefore hhook, Nat.zero_add,
      requestSteps]
  | unanswered hrequest hseen hfinal hanswer =>
    simp only [execute, hrequest, requestHooks_of_behind hseen hfinal, hanswer, Nat.zero_add,
      requestSteps]
  | rejected hrequest hseen hfinal hanswer hhooks hbefore hhook =>
    -- The request hooks are done before the list of hooks is opened for the response.
    simp only [execute, hrequest, requestHooks_of_behind hseen hfinal, hanswer]
    simp only [hhooks, responseHooks_of_refused hbefore hhook, Nat.zero_add, requestSteps,
      responseSteps, List.range_eq_range']
  | answered hrequest hseen hfinal hanswer hhooks =>
    simp only [execute, hrequest, requestHooks_of_behind hseen hfinal, hanswer,
      responseHooks_of_passed hhooks, Nat.zero_add, requestSteps, responseSteps,
      List.range_eq_range']

/-- Every call goes one of the ways. -/
theorem exists_conducts (c : ServiceClient) (transport : Transport) (verb : Http.Method)
    (template : PathTemplate) (values : KeyMap String) (bean : Option Json) (shape : Shape)
    (decoder : Json.Decoder) :
    ∃ run, c.Conducts transport verb template values bean shape decoder run := by
  rcases c.buildRequest_cases verb template values bean with
    ⟨e, haddress⟩ | ⟨uri, b, e, haddress, hbean, hplace⟩ | ⟨r, hrequest⟩
  · exact ⟨_, .unresolved haddress⟩
  · exact ⟨_, .unplaced haddress hbean hplace⟩
  · rcases behind_cases c.interceptors r with
      ⟨final, hfinal⟩ | ⟨before, hook, after, q, reason, hhooks, hbefore, hhook⟩
    · obtain ⟨seen, hseen⟩ := exists_sees hfinal
      rcases hanswer : transport final with ⟨told, e | response⟩
      · exact ⟨_, .unanswered hrequest hseen hfinal hanswer⟩
      · rcases onResponse_cases c.interceptors response with
          hpass | ⟨before, hook, after, reason, hhooks, hbefore, hhook⟩
        · exact ⟨_, .answered hrequest hseen hfinal hanswer hpass⟩
        · exact ⟨_, .rejected hrequest hseen hfinal hanswer hhooks hbefore hhook⟩
    · obtain ⟨seen, hseen⟩ := exists_sees_concat hbefore hook
      exact ⟨_, .refused hrequest hhooks hseen hbefore hhook⟩

/-- A call goes one of the six ways, and as that way says. -/
theorem conducts_iff {run : CallRun} :
    c.Conducts transport verb template values bean shape decoder run
      ↔ run = c.execute transport verb template values bean shape decoder := by
  constructor
  · exact Conducts.eq_execute
  · rintro rfl
    obtain ⟨run, h⟩ := c.exists_conducts transport verb template values bean shape decoder
    exact h.eq_execute ▸ h

end ServiceClient

end ServiceCall
