import ServiceCall.CommandLine.Run
import ServiceCall.Proofs.Client.Address
import ServiceCall.Proofs.Client.Payload
import ServiceCall.Proofs.Client.Trace
import ServiceCall.Proofs.Http.Delivery

/-!
# The ends of a call

A call whose request is sent ends by its last attempt: without an answer, with an answer of a status
that is not known, with an error of the service, or with what its body decodes to. The attempts before
the last one leave no trace in the result.
-/

namespace ServiceCall

/-- An attempt brought an answer with a known status, and the whole of its body. -/
def Answered (last : Http.Outcome) (status : Http.Status) (body : Bytes) : Prop :=
  ∃ answer, last = .ok answer ∧ answer.body = .ok body
    ∧ Http.Status.ofCode? answer.status = some status

/-- How calls end whose last attempt came to `last`. They may still declare other shapes and types of
what they return. -/
structure Ending (last : Http.Outcome) (run : Shape → Json.Decoder → CallRun) : Prop where
  /-- The service was not reached just if the last attempt failed on the network. -/
  transport (shape : Shape) (decoder : Json.Decoder) (e : Http.TransportError) :
    (run shape decoder).result = .error (.transport e)
      ↔ ∃ fault, last = .error fault ∧ e = .network fault
  /-- An answer of a status that is not known is a fault of the contract. -/
  contract (shape : Shape) (decoder : Json.Decoder) (e : ContractError) :
    (run shape decoder).result = .error (.contract e)
      ↔ ∃ answer, last = .ok answer ∧ Http.Status.ofCode? answer.status = none
          ∧ e = .unsupportedStatus answer.status
  /-- An answer of a known error status is an error of the service, also one that is not available. -/
  remote (shape : Shape) (decoder : Json.Decoder) (e : RemoteError) :
    (run shape decoder).result = .error (.remote e)
      ↔ ∃ status body, Answered last status body ∧ 400 ≤ status.code ∧ e = .ofBody status body
  /-- Only what is behind all of these is decoded. -/
  value (shape : Shape) (decoder : Json.Decoder) (v : Json) :
    (run shape decoder).result = .ok v
      ↔ ∃ status body, Answered last status body ∧ status.code < 400
          ∧ Bean.decode decoder body shape = .ok v
  bean (shape : Shape) (decoder : Json.Decoder) (e : Bean.Error) :
    (run shape decoder).result = .error (.bean e)
      ↔ ∃ status body, Answered last status body ∧ status.code < 400
          ∧ Bean.decode decoder body shape = .error e
  /-- The hooks had let everything pass. -/
  interceptor (shape : Shape) (decoder : Json.Decoder) (reason : String) :
    (run shape decoder).result ≠ .error (.interceptor reason)
  /-- An error of the service carries the status of the last answer. -/
  status (shape : Shape) (decoder : Json.Decoder) (e : RemoteError) :
    (run shape decoder).result = .error (.remote e) → ∃ body, Answered last e.status body
  /-- The client tells one record about an error of the service, a warning or an error as the service
  has it. -/
  told (shape : Shape) (decoder : Json.Decoder) (e : RemoteError) :
    (run shape decoder).result = .error (.remote e) →
      (run shape decoder).logs.filter (fun x => x.target = e.record.target) = [e.record]
        ∧ (e.severity = .warn → e.record.level = .warn)
        ∧ (e.severity = .error → e.record.level = .error)
  /-- The body of an error is not read as what the call returns: no other declaration of that makes a
  difference. -/
  undecoded (shape : Shape) (decoder : Json.Decoder) (e : RemoteError) :
    (run shape decoder).result = .error (.remote e) →
      ∀ other otherDecoder, run other otherDecoder = run shape decoder

namespace ServiceClient

variable {verb : Http.Method} {template : PathTemplate} {shape : Shape} {decoder : Json.Decoder}
  {response : Http.Response} {status : Http.Status}

theorem readResponse_of_unknown (h : Http.Status.ofCode? response.status = none) :
    readResponse verb template shape decoder response
      = ([], .error (.contract (.unsupportedStatus response.status))) := by
  simp only [readResponse, validateResponse, h]

theorem readResponse_of_error (hknown : Http.Status.ofCode? response.status = some status)
    (herror : 400 ≤ response.status) :
    readResponse verb template shape decoder response
      = ([(RemoteError.ofBody status response.body).record],
          .error (.remote (.ofBody status response.body))) := by
  simp only [readResponse, validateResponse_of_error hknown herror]

theorem readResponse_of_success (hknown : Http.Status.ofCode? response.status = some status)
    (hsuccess : response.status < 400) :
    readResponse verb template shape decoder response
      = ([decodeNote verb template shape],
          (Bean.decode decoder response.body shape).mapError .bean) := by
  have hpass : status.isSuccess = true := by
    simp [Http.Status.isSuccess, Http.Status.code_of_ofCode? hknown, hsuccess]
  simp only [readResponse, validateResponse, hknown, hpass, if_true]
  cases Bean.decode decoder response.body shape <;> rfl

end ServiceClient

open ServiceClient
open Http (plainClient)

variable {run : Shape → Json.Decoder → CallRun}

theorem answered_iff {answer : Http.Answer} {body other : Bytes} {status otherStatus : Http.Status}
    (hbody : answer.body = .ok body) (hknown : Http.Status.ofCode? answer.status = some status) :
    Answered (.ok answer) otherStatus other ↔ otherStatus = status ∧ other = body := by
  simp [Answered, hbody, hknown, eq_comm, and_comm]

theorem ending_of_error {fault : Http.NetworkError}
    (hrun : ∀ shape decoder, (run shape decoder).result = .error (.transport (.network fault))) :
    Ending (.error fault) run := by
  constructor <;> simp [hrun, Answered, eq_comm]

theorem ending_of_unknown {answer : Http.Answer} (hunknown : Http.Status.ofCode? answer.status = none)
    (hrun : ∀ shape decoder,
      (run shape decoder).result = .error (.contract (.unsupportedStatus answer.status))) :
    Ending (.ok answer) run := by
  constructor <;> simp [hrun, Answered, hunknown, eq_comm]

theorem ending_of_remote {answer : Http.Answer} {body : Bytes} {status : Http.Status}
    (steps : List Step) {told : List Log.Record} (hbody : answer.body = .ok body)
    (hknown : Http.Status.ofCode? answer.status = some status) (herror : 400 ≤ status.code)
    (htold : ∀ x ∈ told, x.target ≠ "ws_client::service")
    (hrun : ∀ shape decoder, run shape decoder =
      ⟨steps, told ++ [(RemoteError.ofBody status body).record],
        .error (.remote (.ofBody status body))⟩) :
    Ending (.ok answer) run := by
  have htarget : (RemoteError.ofBody status body).record.target = "ws_client::service" := rfl
  have hlate : ¬ status.code < 400 := Nat.not_lt.mpr herror
  have hresult (shape : Shape) (decoder : Json.Decoder) (e : RemoteError) :
      (run shape decoder).result = .error (.remote e) ↔ e = .ofBody status body := by
    simp [hrun, eq_comm]
  constructor
  case remote => simp [hresult, answered_iff hbody hknown, herror]
  case status => simp [hresult, answered_iff hbody hknown, RemoteError.status_ofBody]
  case told =>
    -- What the sending of the request told is told by other parts, so one record is left.
    intro shape decoder e he
    obtain rfl := (hresult shape decoder e).mp he
    refine ⟨by simpa [hrun, htarget] using htold, fun hwarn => ?_, fun herr => ?_⟩
    · rw [RemoteError.record, hwarn]
      rfl
    · rw [RemoteError.record, herr]
      rfl
  all_goals simp [hrun, answered_iff hbody hknown, hknown, hlate]

theorem ending_of_decoded {answer : Http.Answer} {body : Bytes} {status : Http.Status}
    (hbody : answer.body = .ok body) (hknown : Http.Status.ofCode? answer.status = some status)
    (hsuccess : status.code < 400)
    (hrun : ∀ shape decoder,
      (run shape decoder).result = (Bean.decode decoder body shape).mapError .bean) :
    Ending (.ok answer) run := by
  have hearly : ¬ 400 ≤ status.code := Nat.not_le.mpr hsuccess
  constructor <;> intro shape decoder <;> cases hdecode : Bean.decode decoder body shape <;>
    simp [hrun, hdecode, Except.mapError, answered_iff hbody hknown, hknown, hsuccess, hearly]

/-! ### Calls -/

theorem readOutcome_of_answer {answer : Http.Answer} {body : Bytes} (hbody : answer.body = .ok body) :
    Http.Client.readOutcome (.ok answer)
      = .ok ⟨answer.status, Http.responseHeaders answer.headers, body⟩ := by
  simp only [Http.Client.readOutcome, hbody]

/-- An answer that the hooks let pass settles how the call ends. -/
theorem ending_of_response {answer : Http.Answer} {body : Bytes} {headers : KeyMap String}
    {verb : Http.Method} {template : PathTemplate} {steps : List Step} {told : List Log.Record}
    (hbody : answer.body = .ok body) (htold : ∀ x ∈ told, x.target ≠ "ws_client::service")
    (hrun : ∀ shape decoder, run shape decoder =
      { steps
        logs := told ++ (readResponse verb template shape decoder ⟨answer.status, headers, body⟩).1
        result := (readResponse verb template shape decoder ⟨answer.status, headers, body⟩).2 }) :
    Ending (.ok answer) run := by
  cases hknown : Http.Status.ofCode? answer.status with
  | none =>
    refine ending_of_unknown hknown fun shape decoder => ?_
    rw [hrun, readResponse_of_unknown hknown]
  | some status =>
    have hcode : status.code = answer.status := Http.Status.code_of_ofCode? hknown
    rcases Nat.lt_or_ge answer.status 400 with hsuccess | herror
    · refine ending_of_decoded hbody hknown (hcode ▸ hsuccess) fun shape decoder => ?_
      rw [hrun, readResponse_of_success hknown hsuccess]
    · refine ending_of_remote steps hbody hknown (hcode ▸ herror) htold fun shape decoder => ?_
      rw [hrun, readResponse_of_error hknown herror]

/-- A call whose hooks let pass its request and its response, and whose request is sent, ends by its
last attempt. -/
theorem ending_of_sent [Idna] (c : ServiceClient) (s : CommandLine.Surroundings) (http : Http.Client)
    {verb : Http.Method} {template : PathTemplate} {values : KeyMap String} {bean : Option Json}
    {r final : Http.Request} {sent : Http.SentRequest}
    (hrequest : c.buildRequest verb template values bean = .ok r)
    (hfinal : behind c.interceptors r = .ok final) (hsent : http.prepare final = .ok sent)
    (hwaits : ∃ total, http.policy.waited? s.draw (http.policy.maxAttempts - 1) = some total)
    (hhooks : ∀ delivery response, http.send? s.network s.draw s.setup final = some delivery →
      delivery.outcome = .ok response → ∀ hook ∈ c.interceptors, hook.onResponse response = .ok ()) :
    ∃ n delivery, http.send? s.network s.draw s.setup final = some delivery
      ∧ Http.IsLast http.policy s.network s.draw sent n ∧ n ≤ http.policy.maxAttempts
      ∧ delivery.attempts = List.replicate n sent
      ∧ Ending (Http.outcomes s.network sent (n - 1)) fun shape decoder =>
          c.execute (CommandLine.transport s http) verb template values bean shape decoder := by
  obtain ⟨n, delivery, hsend, hlast, hwithin, hattempts, houtcome, htargets⟩ :=
    Http.exists_delivery s.network s.setup hsent hwaits
  have hanswer : CommandLine.transport s http final = (delivery.logs, delivery.outcome) := by
    simp only [CommandLine.transport, hsend]
  have htold : ∀ x ∈ delivery.logs, x.target ≠ "ws_client::service" := by
    intro x hx
    rcases htargets x hx with htarget | htarget <;> rw [htarget] <;> decide
  obtain ⟨seen, hseen⟩ := exists_sees hfinal
  refine ⟨n, delivery, hsend, hlast, hwithin, hattempts, ?_⟩
  -- the attempts are settled; the outcome of the last one tells which way the call goes
  cases houtcomes : Http.outcomes s.network sent (n - 1) with
  | error fault =>
    rw [houtcomes] at houtcome
    rw [houtcome] at hanswer
    refine ending_of_error fun shape decoder => ?_
    rw [← (Conducts.unanswered hrequest hseen hfinal hanswer).eq_execute]
  | ok answer =>
    obtain ⟨body, hbody⟩ := Http.body_of_buffer houtcomes
    rw [houtcomes, readOutcome_of_answer hbody] at houtcome
    have hpass := hhooks delivery _ hsend houtcome
    rw [houtcome] at hanswer
    exact ending_of_response hbody htold fun shape decoder =>
      (Conducts.answered hrequest hseen hfinal hanswer hpass).eq_execute.symm

/-- The connection is lost once, and then the service is not available. -/
def busy : Http.Network := fun _ k =>
  ⟨if k = 0 then .error ⟨.reset, "connection reset", []⟩ else .ok { status := 503 }, .zero⟩

/-- A service on the own machine; its requests are named. -/
def nearby : ServiceClient := ownMachine.intercept (.requestId "r-1")

/-- The path to the state of a service. -/
def health : PathTemplate := ⟨[.literal "health"]⟩

/-- A service that stays unavailable for all three attempts has answered, so the call ends with an error
of the service that is told once. -/
theorem ending_of_sent_busy : ∃ delivery run status,
    run = nearby.execute (CommandLine.transport { files := fun _ => none, network := busy } plainClient)
      .get health .empty none .void .any
    ∧ plainClient.send? busy (fun _ => 0) .zero ⟨.get, "http://localhost/health", [],
        .ofList [("x-request-id", "r-1")], none⟩ = some delivery
    ∧ delivery.attempts.length = 3 ∧ Http.Status.ofCode? 503 = some status
    ∧ run.result = .error (.remote (.ofBody status []))
    ∧ run.logs.filter (fun x => x.target = "ws_client::service")
      = [(RemoteError.ofBody status []).record] := by
  have hrequest : nearby.buildRequest .get health .empty none
      = .ok { method := .get, uri := "http://localhost/health" } := rfl
  have hwaits : Retry.Policy.standard.waited? (fun _ => 0) 2 = some (.ofMillis 1500) := rfl
  obtain ⟨n, delivery, hsend, hlast, hwithin, hattempts, hending⟩ :=
    ending_of_sent nearby { files := fun _ => none, network := busy } plainClient hrequest rfl rfl
      ⟨_, hwaits⟩ (by simp [nearby, ownMachine, intercept, Interceptor.requestId])
  have hone : n ≠ 1 := by
    rintro rfl
    exact absurd (hlast.1.2 .connection rfl) (by decide)
  have htwo : n ≠ 2 := by
    rintro rfl
    exact absurd (hlast.1.2 .serviceUnavailable rfl) (by decide)
  obtain rfl : n = 3 := by
    have hmost : n ≤ 3 := hwithin
    have hleast : 1 ≤ n := hlast.1.1
    omega
  have hresult := (hending.remote .void .any _).mpr
    ⟨⟨503, "ServiceUnavailable", "Service Unavailable"⟩, [], ⟨_, rfl, rfl, rfl⟩, by decide, rfl⟩
  refine ⟨delivery, _, _, rfl, hsend, ?_, rfl, hresult, (hending.told _ _ _ hresult).1⟩
  rw [hattempts, List.length_replicate]

end ServiceCall
