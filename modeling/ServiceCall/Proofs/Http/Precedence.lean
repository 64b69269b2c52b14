import ServiceCall.Proofs.Client.Query
import ServiceCall.Proofs.First
import ServiceCall.Proofs.Http.Breakage
import ServiceCall.Proofs.Http.Delivery
import ServiceCall.Proofs.Http.Header

/-!
# Headers that are sent or refused

The headers of a request come from three sources: the agent of the client, the request itself, and the
type of its body. A name or a value that cannot be written keeps the whole request from being sent, and
the first such header is the one that is told. The type of a body is a text of the program, so a bad one
is no error but a panic. Otherwise each name is sent with one value, that of the last source that has
one.
-/

namespace ServiceCall.Http

/-- The name and the value of a header can be written. -/
def Sendable (e : String × String) : Prop := isValidName e.1 = true ∧ isValidValue e.2 = true

instance : DecidablePred Sendable := fun _ => inferInstanceAs (Decidable (_ ∧ _))

/-- The type of the body, if there is one, is in visible ASCII and tabs. -/
def PlainlyTyped (r : Request) : Prop :=
  ∀ body, r.body = some body →
    ∀ c ∈ body.contentType.toList, c = '\t' ∨ 32 ≤ c.toNat ∧ c.toNat ≤ 126

/-- The header that a request is refused for: the agent, or else the first one of the request that
cannot be written. -/
inductive RefusedFor (userAgent : String) (r : Request) : String → Prop
  | agent (hagent : isValidValue userAgent = false) : RefusedFor userAgent r agentHeader
  | header {name value : String} (hagent : isValidValue userAgent = true)
      (hfirst : IsFirst (fun e => ¬ Sendable e) r.headers.entries (name, value)) :
      RefusedFor userAgent r name

variable {userAgent : String} {r : Request} {name value : String}

/-! ### Headers that cannot be written -/

theorem addHeaders_eq_error_iff {sent : KeyMap String} {entries : List (String × String)} :
    addHeaders sent entries = .error name
      ↔ ∃ value, IsFirst (fun e => ¬ Sendable e) entries (name, value) := by
  induction entries generalizing sent with
  | nil => simp [addHeaders, not_isFirst_nil]
  | cons e entries ih =>
    obtain ⟨key, first⟩ := e
    rw [addHeaders]
    by_cases hsendable : Sendable (key, first)
    · have hpasses : ¬ ¬ Sendable (key, first) := not_not.mpr hsendable
      simp [hsendable.1, hsendable.2, ih, isFirst_cons_of_neg (P := fun e => ¬ Sendable e) hpasses]
    · have hbad : (!isValidName key || !isValidValue first) = true := by
        simpa [Sendable, imp_iff_not_or] using hsendable
      simp [hbad, isFirst_cons_of_pos (P := fun e => ¬ Sendable e) hsendable, eq_comm]

/-- Some header is to blame just if not all of them can be written. -/
theorem exists_refusedFor_iff : (∃ name, RefusedFor userAgent r name)
    ↔ isValidValue userAgent = false ∨ ∃ e ∈ r.headers.entries, ¬ Sendable e := by
  constructor
  · rintro ⟨name, hagent | ⟨-, hfirst⟩⟩
    · exact .inl hagent
    · obtain ⟨-, -, -, -, hbad⟩ := id hfirst
      exact .inr ⟨_, hfirst.mem, hbad⟩
  · rintro (hagent | hbad)
    · exact ⟨_, .agent hagent⟩
    · cases hagent : isValidValue userAgent with
      | false => exact ⟨_, .agent hagent⟩
      | true =>
        obtain ⟨⟨name, value⟩, hfirst⟩ := exists_isFirst hbad
        exact ⟨name, .header hagent hfirst⟩

theorem sentHeaders_of_refused (h : RefusedFor userAgent r name) :
    sentHeaders userAgent r = .error (.error name) := by
  rcases h with hagent | ⟨hagent, hfirst⟩
  · rw [sentHeaders, hagent]
    rfl
  · rw [sentHeaders, hagent, addHeaders_eq_error_iff.mpr ⟨_, hfirst⟩]
    rfl

/-! ### The type of the body -/

theorem plainlyTyped_iff : PlainlyTyped r
    ↔ ∀ body, r.body = some body → isStaticValue body.contentType = true := by
  simp only [PlainlyTyped, isStaticValue, List.all_eq_true, Bool.or_eq_true, beq_iff_eq,
    Bool.and_eq_true, decide_eq_true_eq, Nat.lt_succ_iff]

/-- The type is looked at last: a bad one ends what nothing else has ended before. -/
theorem sentHeaders_of_not_plainlyTyped (hagent : isValidValue userAgent = true)
    (hsendable : ∀ e ∈ r.headers.entries, Sendable e) (htype : ¬ PlainlyTyped r) :
    sentHeaders userAgent r = .error .panic := by
  obtain ⟨body, hbody, hstatic⟩ : ∃ body, r.body = some body
      ∧ isStaticValue body.contentType = false := by
    simpa [plainlyTyped_iff] using htype
  rw [sentHeaders, hagent, addHeaders_eq_ok_iff.mpr ⟨hsendable, rfl⟩, hbody]
  simp [hstatic]

theorem sentHeaders_eq_error_iff :
    sentHeaders userAgent r = .error (.error name) ↔ RefusedFor userAgent r name := by
  refine ⟨fun h => ?_, sentHeaders_of_refused⟩
  -- A header is refused, or the type is, or nothing is.
  by_cases hrefused : ∃ other, RefusedFor userAgent r other
  · obtain ⟨other, hother⟩ := hrefused
    cases h.symm.trans (sentHeaders_of_refused hother)
    exact hother
  · rw [exists_refusedFor_iff, not_or, Bool.not_eq_false] at hrefused
    obtain ⟨hagent, hnone⟩ := hrefused
    have hsendable : ∀ e ∈ r.headers.entries, Sendable e := by simpa using hnone
    by_cases htype : PlainlyTyped r
    · cases h.symm.trans
        (sentHeaders_eq_ok_iff.mpr ⟨hagent, hsendable, plainlyTyped_iff.mp htype, rfl⟩)
    · cases h.symm.trans (sentHeaders_of_not_plainlyTyped hagent hsendable htype)

/-! ### Names without regard to case -/

@[simp]
theorem lowerName_lowerName (name : String) : lowerName (lowerName name) = lowerName name := by
  rw [lowerName, lowerName, String.toList_ofList, List.map_map]
  congr 2
  exact funext toLower_toLower

theorem lowerName_of_sentAs (h : SentAs userAgent r name value) : lowerName name = name := by
  rcases h with hbody | ⟨-, spelling, -, rfl, -⟩ | hunset
  · decide
  · exact lowerName_lowerName spelling
  · decide

/-- No two names that are sent differ by case only. -/
theorem nodup_lowerName_keys {out : KeyMap String} (h : sentHeaders userAgent r = .ok out) :
    (out.keys.map lowerName).Nodup := by
  have hsmall : ∀ name ∈ out.keys, lowerName name = name := by
    intro name hname
    obtain ⟨value, hvalue⟩ := Option.isSome_iff_exists.mp (KeyMap.mem_keys_iff.mp hname)
    exact lowerName_of_sentAs ((get?_sentHeaders_iff h).mp hvalue)
  rw [List.map_congr_left hsmall, List.map_id']
  exact out.nodup_keys

/-! ### Sending -/

theorem readOutcome_ne_invalidHeader (o : Outcome) :
    Client.readOutcome o ≠ .error (.invalidHeader name) := by
  unfold Client.readOutcome
  split
  · nofun
  · split <;> nofun

section Sending

variable [Idna] {client : Client} {network : Network} {draw : Nat → Nat} {setup : Duration}
  {sent : SentRequest} {d : Delivery}

theorem prepare_eq_invalidHeader_iff {u : Url} (hurl : r.url = .ok u) :
    client.prepare r = .error (.error (.invalidHeader name))
      ↔ RefusedFor client.userAgent r name := by
  rw [← sentHeaders_eq_error_iff, Client.prepare, hurl]
  rcases sentHeaders client.userAgent r with (_ | _) | _ <;> simp

/-- A refused request goes nowhere. -/
theorem send_of_refused {e : TransportError} (h : client.prepare r = .error (.error e)) :
    ∃ d, client.send? network draw setup r = some d ∧ d.outcome = .error e ∧ d.attempts = [] := by
  simp [Client.send?, h]

/-- A panic before a request is sent leaves nothing behind. -/
theorem send_of_panic (h : client.prepare r = .error .panic) :
    client.send? network draw setup r = none := by
  simp [Client.send?, h]

/-- A request that is prepared is sent in attempts, and comes back with what these come to. -/
theorem exists_passage_of_send (hprepare : client.prepare r = .ok sent)
    (hsend : client.send? network draw setup r = some d) :
    ∃ course, passage? client.policy sent.method.text some draw
          (fun k => (attempt network sent k).outcome) sent = some course
      ∧ d.attempts = course.sent ∧ d.outcome = Client.readOutcome course.outcome := by
  simp only [Client.send?, hprepare, Client.deliver?] at hsend
  cases hcourse : passage? client.policy sent.method.text some draw
      (fun k => (attempt network sent k).outcome) sent with
  | none => simp [hcourse] at hsend
  | some course =>
    simp only [hcourse] at hsend
    cases hsend
    exact ⟨course, rfl, rfl, rfl⟩

/-- Every attempt is made with the request as it was prepared. -/
theorem attempts_of_send (hprepare : client.prepare r = .ok sent)
    (hsend : client.send? network draw setup r = some d) :
    ∃ n, d.attempts = List.replicate (n + 1) sent := by
  obtain ⟨course, hcourse, hattempts, -⟩ := exists_passage_of_send hprepare hsend
  obtain ⟨count, hfirst⟩ := exists_firstConcludes client.policy sent.method.text some draw
    fun k => (attempt network sent k).outcome
  obtain ⟨made, hsent, -, hpassage⟩ := passage_eq_map rfl hfirst
  obtain ⟨-, -, rfl⟩ := Option.map_eq_some_iff.mp (hpassage.symm.trans hcourse)
  exact ⟨count, hattempts.trans hsent⟩

/-- A header is to blame for the end of a call just if the request is refused for it. -/
theorem exists_invalidHeader_iff {u : Url} (hurl : r.url = .ok u) :
    (∃ d, client.send? network draw setup r = some d ∧ d.outcome = .error (.invalidHeader name))
      ↔ RefusedFor client.userAgent r name := by
  rw [← prepare_eq_invalidHeader_iff hurl]
  constructor
  · rintro ⟨d, hsend, houtcome⟩
    match hprepare : client.prepare r with
    | .error (.error e) =>
      obtain ⟨refused, hrefused, hcause, -⟩ := send_of_refused hprepare
      cases hrefused.symm.trans hsend
      cases hcause.symm.trans houtcome
      rfl
    | .error .panic => cases (send_of_panic hprepare).symm.trans hsend
    | .ok sent =>
      obtain ⟨course, -, -, hread⟩ := exists_passage_of_send hprepare hsend
      exact absurd (hread.symm.trans houtcome) (readOutcome_ne_invalidHeader _)
  · intro hprepare
    obtain ⟨d, hsend, houtcome, -⟩ := send_of_refused hprepare
    exact ⟨d, hsend, houtcome⟩

end Sending

/-- A request with a body, a type of its own and a trace in two spellings. -/
def spelledTwice : Request where
  method := .post
  uri := "http://localhost/api"
  headers := ((KeyMap.empty.insert "Content-Type" "text/plain").insert "x-trace" "second").insert
    "X-Trace" "first"
  body := some (Bean.encodeBody (.object []))

end ServiceCall.Http
