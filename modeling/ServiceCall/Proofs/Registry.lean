import ServiceCall.Proofs.Stub.Generation
import ServiceCall.Registry

/-!
# Registrations in a row

Whatever has been registered, and however often that failed: behind it each name has the stubs of
the one registration of this name that succeeded. What a registration comes to depends only on
whether there was such a one and on whether its contract is valid. One that fails leaves no trace.
-/

namespace ServiceCall

/-! ### Faults of contracts

No check of a contract finds that a service is registered already.
-/

section Faults

variable {m : ServiceMethod} {service : String}

theorem exists_reason_of_parse {path : String} {e : ContractError}
    (h : PathTemplate.parse path = .error e) : ∃ reason, e = .invalidPath path reason := by
  rw [PathTemplate.parse.eq_def] at h
  split at h
  · split at h
    · cases h
      exact ⟨_, rfl⟩
    · split at h
      · cases h
      · cases h
        exact ⟨_, rfl⟩
  · cases h
    exact ⟨_, rfl⟩

theorem checkRequestShape_ne_registered (shape : Shape) :
    m.checkRequestShape shape ≠ .error (.serviceAlreadyRegistered service) := by
  rw [ServiceMethod.checkRequestShape]
  split_ifs <;> simp

theorem checkResponseShape_ne_registered (shape : Shape) :
    m.checkResponseShape shape ≠ .error (.serviceAlreadyRegistered service) := by
  rw [ServiceMethod.checkResponseShape]
  split_ifs <;> simp

theorem checkParam_ne_registered (route : Route) (template : PathTemplate)
    (seen : ServiceMethod.Seen) (p : Param) :
    m.checkParam route template seen p ≠ .error (.serviceAlreadyRegistered service) := by
  rw [ServiceMethod.checkParam]
  cases p.binding with
  | path x =>
    simp only
    split_ifs <;> simp
  | bean =>
    cases hshape : m.checkRequestShape p.shape with
    | error e =>
      have hother : e ≠ .serviceAlreadyRegistered service := by
        rintro rfl
        exact checkRequestShape_ne_registered p.shape hshape
      simp only
      split_ifs <;> simp [hother]
    | ok done =>
      simp only
      split_ifs <;> simp

theorem validateMethod_ne_registered : m.validate ≠ .error (.serviceAlreadyRegistered service) := by
  rw [ServiceMethod.validate]
  cases m.route with
  | none => simp
  | some route =>
    intro h
    rcases bind_eq_error.mp h with htemplate | ⟨template, -, h⟩
    · obtain ⟨reason, hreason⟩ := exists_reason_of_parse htemplate
      cases hreason
    · rcases bind_eq_error.mp h with hparams | ⟨seen, -, h⟩
      · obtain ⟨earlier, p, -, hp⟩ := exists_of_foldlM_eq_error hparams
        exact checkParam_ne_registered route template earlier p hp
      · split at h
        · cases h
        · exact checkResponseShape_ne_registered m.returns h

theorem validateMethods_ne_registered (names : List String) (methods : List ServiceMethod)
    (other : String) :
    Contract.validateMethods other names methods ≠ .error (.serviceAlreadyRegistered service) := by
  induction methods generalizing names with
  | nil =>
    intro h
    cases h
  | cons m methods ih =>
    rw [Contract.validateMethods]
    split
    · intro h
      cases h
    · cases hm : m.validate with
      | error e =>
        intro h
        cases h
        exact validateMethod_ne_registered hm
      | ok done => exact ih (m.name :: names)

end Faults

/-! ### The stubs of a contract -/

/-- Stubs are built of the valid contracts; of any other the fault is told. -/
theorem build_eq_error_iff {contract : Contract} {client : ServiceClient} {e : ContractError} :
    ServiceStubs.build contract client = .error e ↔ contract.validate = .error e := by
  rw [ServiceStubs.build]
  cases hvalid : contract.validate with
  | error fault => simp [Contract.generate, hvalid, Except.map]
  | ok done =>
    obtain ⟨stubs, hstubs, -⟩ := Contract.exists_generate hvalid
    simp [hstubs, Except.map]

/-! ### Registrations in a row -/

/-- A contract that is to be registered, and the client that its stubs are to call through. -/
structure Registration where
  contract : Contract
  client : ServiceClient

/-- The stubs that a registration has for a name: those of its contract, if it is valid and has this
name. -/
def Registration.stubs? (name : String) (x : Registration) : Option ServiceStubs :=
  if x.contract.name = name then (ServiceStubs.build x.contract x.client).toOption else none

theorem Registration.stubs?_self_eq_some_iff {x : Registration} {stubs : ServiceStubs} :
    x.stubs? x.contract.name = some stubs ↔ ServiceStubs.build x.contract x.client = .ok stubs := by
  rw [stubs?, if_pos rfl]
  cases ServiceStubs.build x.contract x.client <;> simp [Except.toOption]

namespace Registry

/-- The registry behind one more registration, however that went. -/
def next (r : Registry) (x : Registration) : Registry :=
  ((enter x.contract x.client).run r).2

/-- The registry behind registrations in a row. -/
def ofHistory (history : List Registration) : Registry := history.foldl next KeyMap.empty

/-- Behind others, a registration succeeds and hands out stubs. -/
def Succeeds (earlier : List Registration) (x : Registration) (stubs : ServiceStubs) : Prop :=
  register (ofHistory earlier) x.contract x.client = .ok (ofHistory (earlier ++ [x]), stubs)

variable {r : Registry} {history earlier : List Registration} {x : Registration} {name : String}
  {stubs : ServiceStubs}

/-! ### One registration -/

/-- Nothing is changed before the name is looked up and the stubs are built. -/
theorem enter_run (r : Registry) (x : Registration) : (enter x.contract x.client).run r =
    match KeyMap.contains r x.contract.name, ServiceStubs.build x.contract x.client with
      | true, _ => (.error (.serviceAlreadyRegistered x.contract.name), r)
      | false, .error e => (.error e, r)
      | false, .ok stubs => (.ok stubs, KeyMap.insert r x.contract.name stubs) := by
  unfold enter
  generalize ServiceStubs.build x.contract x.client = built
  show ExceptT.run (m := StateM Registry) (if KeyMap.contains r x.contract.name then _ else _) r = _
  generalize KeyMap.contains r x.contract.name = held
  cases held <;> cases built <;> rfl

theorem register_of_contains (h : KeyMap.contains r x.contract.name = true) :
    register r x.contract x.client = .error (.serviceAlreadyRegistered x.contract.name) := by
  rw [register, enter_run, h]
  rfl

theorem register_of_not_contains (h : KeyMap.contains r x.contract.name = false) :
    register r x.contract x.client = (ServiceStubs.build x.contract x.client).map fun stubs =>
      (KeyMap.insert r x.contract.name stubs, stubs) := by
  rw [register, enter_run, h]
  cases ServiceStubs.build x.contract x.client <;> rfl

/-- A registration that fails leaves the registry as it was. -/
theorem next_of_error {e : ContractError} (h : register r x.contract x.client = .error e) :
    next r x = r := by
  rw [next, enter_run]
  cases hheld : KeyMap.contains r x.contract.name with
  | true => rfl
  | false =>
    rw [register_of_not_contains hheld, map_eq_error] at h
    rw [h]

theorem next_of_ok {extended : Registry}
    (h : register r x.contract x.client = .ok (extended, stubs)) :
    next r x = extended := by
  rw [register] at h
  obtain ⟨made, -, hmade⟩ := map_eq_ok.mp h
  exact (Prod.mk.inj hmade).1

/-- A value that is there stays, and a name without one takes that of the registration. -/
theorem get?_next (r : Registry) (x : Registration) (name : String) :
    KeyMap.get? (next r x) name = (KeyMap.get? r name).or (x.stubs? name) := by
  rw [Registration.stubs?]
  cases hheld : KeyMap.contains r x.contract.name with
  | true =>
    rw [next_of_error (register_of_contains hheld)]
    by_cases hname : x.contract.name = name
    · obtain ⟨old, hold⟩ := Option.isSome_iff_exists.mp (hname ▸ hheld)
      rw [hold, Option.some_or]
    · rw [if_neg hname, Option.or_none]
  | false =>
    have hregister := register_of_not_contains hheld
    cases hbuild : ServiceStubs.build x.contract x.client with
    | error e =>
      rw [hbuild] at hregister
      rw [next_of_error hregister]
      simp [Except.toOption]
    | ok made =>
      rw [hbuild] at hregister
      rw [next_of_ok hregister, KeyMap.get?_insert]
      by_cases hname : x.contract.name = name
      · have hfree : KeyMap.get? r name = none := by
          simpa [KeyMap.contains, hname] using hheld
        simp [hname, hfree, Except.toOption]
      · simp [hname, Ne.symm hname]

theorem ofHistory_concat (history : List Registration) (x : Registration) :
    ofHistory (history ++ [x]) = next (ofHistory history) x := by
  rw [ofHistory, List.foldl_append]
  rfl

/-! ### A whole history -/

/-- A name has the stubs of the first registration that has any for it. -/
theorem get?_ofHistory (history : List Registration) (name : String) :
    KeyMap.get? (ofHistory history) name = history.findSome? (Registration.stubs? name) := by
  induction history using List.reverseRecOn with
  | nil => rfl
  | append_singleton history x ih =>
    rw [ofHistory_concat, get?_next, ih, List.findSome?_append]
    simp

theorem contains_ofHistory_eq_false_iff :
    KeyMap.contains (ofHistory history) name = false ↔ ∀ y ∈ history, y.stubs? name = none := by
  rw [KeyMap.contains, get?_ofHistory, Option.isSome_eq_false_iff, Option.isNone_iff_eq_none,
    List.findSome?_eq_none_iff]

theorem succeeds_iff : Succeeds earlier x stubs
    ↔ (∀ y ∈ earlier, y.stubs? x.contract.name = none) ∧ x.stubs? x.contract.name = some stubs := by
  rw [Succeeds, ofHistory_concat, ← contains_ofHistory_eq_false_iff,
    Registration.stubs?_self_eq_some_iff]
  cases hheld : KeyMap.contains (ofHistory earlier) x.contract.name with
  | true => simp [register_of_contains hheld]
  | false =>
    have hregister := register_of_not_contains hheld
    cases hbuild : ServiceStubs.build x.contract x.client with
    | error e => simp [hregister, hbuild, Except.map]
    | ok made =>
      rw [hbuild] at hregister
      simp [next_of_ok hregister, hregister, Except.map]

/-- A name has the stubs that a registration of this name has handed out. -/
theorem get?_ofHistory_eq_some_iff : KeyMap.get? (ofHistory history) name = some stubs
    ↔ ∃ earlier x later, history = earlier ++ x :: later ∧ x.contract.name = name
      ∧ Succeeds earlier x stubs := by
  rw [get?_ofHistory, List.findSome?_eq_some_iff]
  constructor
  · rintro ⟨earlier, x, later, rfl, hx, hearlier⟩
    have hname : x.contract.name = name := by
      by_contra hother
      simp [Registration.stubs?, hother] at hx
    subst hname
    exact ⟨earlier, x, later, rfl, rfl, succeeds_iff.mpr ⟨hearlier, hx⟩⟩
  · rintro ⟨earlier, x, later, rfl, rfl, hsucceeds⟩
    obtain ⟨hearlier, hx⟩ := succeeds_iff.mp hsucceeds
    exact ⟨earlier, x, later, rfl, hx, hearlier⟩

/-- Where a registration has succeeded, no later one of its name does. -/
theorem not_succeeds_of_mem {y : Registration} {others : ServiceStubs}
    (hx : Succeeds earlier x stubs) (hy : Succeeds history y others)
    (hname : x.contract.name = y.contract.name) : x ∉ history := by
  intro hmem
  obtain ⟨-, hx⟩ := succeeds_iff.mp hx
  obtain ⟨hhistory, -⟩ := succeeds_iff.mp hy
  rw [hname, hhistory x hmem] at hx
  cases hx

theorem eq_of_succeeds {before later after : List Registration} {y : Registration}
    {others : ServiceStubs} (hsplit : earlier ++ x :: later = before ++ y :: after)
    (hx : Succeeds earlier x stubs) (hy : Succeeds before y others)
    (hname : x.contract.name = y.contract.name) : earlier = before := by
  -- of two places one is behind the other, and there the name would have been held
  rcases List.append_eq_append_iff.mp hsplit with
    ⟨between, rfl, hbetween⟩ | ⟨between, rfl, hbetween⟩
  · cases between with
    | nil => rw [List.append_nil]
    | cons z between =>
      obtain ⟨rfl, -⟩ := List.cons.inj hbetween
      exact absurd (by simp) (not_succeeds_of_mem hx hy hname)
  · cases between with
    | nil => rw [List.append_nil]
    | cons z between =>
      obtain ⟨rfl, -⟩ := List.cons.inj hbetween
      exact absurd (by simp) (not_succeeds_of_mem hy hx hname.symm)

/-- What a registry holds behind a history of registrations. -/
structure Recorded (history : List Registration) : Prop where
  /-- A name has the stubs that a registration of this name has handed out. -/
  held (name : String) (stubs : ServiceStubs) :
    KeyMap.get? (ofHistory history) name = some stubs
      ↔ ∃ earlier x later, history = earlier ++ x :: later ∧ x.contract.name = name
        ∧ Succeeds earlier x stubs
  /-- Of the registrations of a name only one has succeeded. -/
  once (earlier later before after : List Registration) (x y : Registration)
      (stubs others : ServiceStubs) :
    history = earlier ++ x :: later → history = before ++ y :: after →
      x.contract.name = y.contract.name → Succeeds earlier x stubs → Succeeds before y others →
      earlier = before
  /-- The names that were registered are listed in increasing order, each once. -/
  increasing : (services (ofHistory history)).Pairwise (· < ·)
  listed (name : String) :
    name ∈ services (ofHistory history) ↔ ∃ earlier x later stubs,
      history = earlier ++ x :: later ∧ x.contract.name = name ∧ Succeeds earlier x stubs

/-- What the next registration comes to. -/
structure Registers (history : List Registration) (x : Registration) : Prop where
  /-- A name that is held is refused, whatever the contract. -/
  taken (service : String) :
    register (ofHistory history) x.contract x.client = .error (.serviceAlreadyRegistered service)
      ↔ x.contract.name ∈ services (ofHistory history) ∧ service = x.contract.name
  /-- Under a new name a contract with a fault is refused for it. -/
  faulty : x.contract.name ∉ services (ofHistory history) → ∀ e,
    register (ofHistory history) x.contract x.client = .error e ↔ x.contract.validate = .error e
  /-- Under a new name a valid contract is registered, and its stubs are held from then on. -/
  made : x.contract.name ∉ services (ofHistory history) → x.contract.validate = .ok () →
    ∃ stubs, ServiceStubs.build x.contract x.client = .ok stubs ∧ Succeeds history x stubs
      ∧ ∀ later, KeyMap.get? (ofHistory (history ++ x :: later)) x.contract.name = some stubs
  /-- A registration that fails changes nothing. -/
  unchanged (e : ContractError) : register (ofHistory history) x.contract x.client = .error e →
    ofHistory (history ++ [x]) = ofHistory history

theorem recorded_ofHistory (history : List Registration) : Recorded history := by
  refine ⟨fun name stubs => get?_ofHistory_eq_some_iff, ?_, ?_, fun name => ?_⟩
  · rintro earlier later before after x y stubs others hx hy hname hsucceeds hother
    exact eq_of_succeeds (hx.symm.trans hy) hsucceeds hother hname
  · exact List.pairwise_map.mpr (ofHistory history).sorted
  · rw [services, KeyMap.mem_keys_iff, KeyMap.contains, Option.isSome_iff_exists]
    simp only [get?_ofHistory_eq_some_iff]
    constructor
    · rintro ⟨stubs, earlier, x, later, h⟩
      exact ⟨earlier, x, later, stubs, h⟩
    · rintro ⟨earlier, x, later, stubs, h⟩
      exact ⟨stubs, earlier, x, later, h⟩

theorem registers_ofHistory (history : List Registration) (x : Registration) :
    Registers history x := by
  have hheld : x.contract.name ∈ services (ofHistory history)
      ↔ KeyMap.contains (ofHistory history) x.contract.name = true := KeyMap.mem_keys_iff
  refine ⟨fun service => ?_, fun hnew e => ?_, fun hnew hvalid => ?_, fun e h => ?_⟩
  · rw [hheld]
    cases hcontains : KeyMap.contains (ofHistory history) x.contract.name with
    | true => simp [register_of_contains hcontains, eq_comm]
    | false =>
      -- no check of a contract ends in the error of a name that is held
      have hbuild : ServiceStubs.build x.contract x.client
          ≠ .error (.serviceAlreadyRegistered service) := by
        rw [Ne, build_eq_error_iff]
        exact validateMethods_ne_registered [] x.contract.methods x.contract.name
      rw [register_of_not_contains hcontains]
      cases hmade : ServiceStubs.build x.contract x.client with
      | error e => simpa [hmade, Except.map] using hbuild
      | ok made => simp [Except.map]
  · rw [hheld, Bool.not_eq_true] at hnew
    rw [register_of_not_contains hnew, ← build_eq_error_iff]
    cases ServiceStubs.build x.contract x.client <;> simp [Except.map]
  · rw [hheld, Bool.not_eq_true] at hnew
    obtain ⟨stubs, hbuild⟩ : ∃ stubs, ServiceStubs.build x.contract x.client = .ok stubs := by
      cases hbuild : ServiceStubs.build x.contract x.client with
      | error e => cases (build_eq_error_iff.mp hbuild).symm.trans hvalid
      | ok stubs => exact ⟨stubs, rfl⟩
    have hsucceeds : Succeeds history x stubs :=
      succeeds_iff.mpr ⟨contains_ofHistory_eq_false_iff.mp hnew,
        Registration.stubs?_self_eq_some_iff.mpr hbuild⟩
    exact ⟨stubs, hbuild, hsucceeds, fun later =>
      get?_ofHistory_eq_some_iff.mpr ⟨history, x, later, rfl, rfl, hsucceeds⟩⟩
  · rw [ofHistory_concat, next_of_error h]

/-- Whatever was registered before, and however often it failed: the registry holds for each name
the stubs of the one registration of this name that succeeded, and the next registration fails just
if its name is held or its contract has a fault, which changes nothing. -/
theorem registrations_recorded (history : List Registration) (x : Registration) :
    Recorded history ∧ Registers history x :=
  ⟨recorded_ofHistory history, registers_ofHistory history x⟩

end Registry

end ServiceCall
