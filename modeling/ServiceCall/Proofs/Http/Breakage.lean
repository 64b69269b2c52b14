import Mathlib.Logic.Function.Basic
import ServiceCall.Http.Network
import ServiceCall.Proofs.Retry.Loop

/-!
# Connections that break

An attempt can fail before any response, or with the head of a response whose body fails while it is
read. Where time runs out makes no difference to the attempts on a request. Where a connection is
lost does: lost before the response it is made again, lost while the body is read it is not. So the
place is of no account only if the attempt is never made, or if none is allowed behind it anyway.
-/

namespace ServiceCall.Http

open Retry

/-- An attempt that fails before any response. -/
def FailsEarly (fault : NetworkFault) (o : Outcome) : Prop := ∃ e, o = .error e ∧ e.fault = fault

/-- An attempt with the head of a response, whose body fails while it is read. -/
def FailsLate (fault : NetworkFault) (o : Outcome) : Prop :=
  ∃ answer e, o = .ok answer ∧ answer.body = .error e ∧ e.fault = fault

section Passage

variable {ρ : Type} (policy : Policy) (method : String) (copy? : ρ → Option ρ) (draw : Nat → Nat)
  (request : ρ) (script other : Nat → Outcome)

/-- The attempts end with that of number `n`: so often is the request sent, and the outcome is that
of this attempt, with the answer read if the request has a copy. -/
def EndsAt (n : Nat) : Prop :=
  ∃ course, passage? policy method copy? draw script request = some course ∧ course.sent.length = n
    ∧ course.outcome
      = if (copy? request).isSome then buffer (script (n - 1)) else script (n - 1)

/-- On both scripts the attempts end with the same one, or on neither the waits are a duration. -/
def Alike : Prop :=
  (∃ n, EndsAt policy method copy? draw request script n
    ∧ EndsAt policy method copy? draw request other n)
  ∨ passage? policy method copy? draw script request = none
    ∧ passage? policy method copy? draw other request = none

/-- There are no attempts behind the one with this number. -/
def Concludes (k : Nat) : Prop :=
  (procedure policy method copy? draw).Final (fun j => buffer (script j)) k

/-- The attempt behind `k` others is made: none of these is final, and the waits up to it add up. -/
def Reaches (k : Nat) : Prop :=
  (∀ j, 1 ≤ j → j ≤ k → ¬ Concludes policy method copy? draw script j)
    ∧ ∃ total, policy.waited? draw k = some total

/-- The attempt behind `count` others is the first that is final. -/
def FirstConcludes (count : Nat) : Prop :=
  Concludes policy method copy? draw script (count + 1)
    ∧ ∀ j, 1 ≤ j → j ≤ count → ¬ Concludes policy method copy? draw script j

end Passage

variable {ρ : Type} {policy : Policy} {method : String} {copy? : ρ → Option ρ} {draw : Nat → Nat}
  {request : ρ} {script other : Nat → Outcome}

/-! ### One attempt -/

theorem classify_of_failsEarly {fault : NetworkFault} {o : Outcome} (h : FailsEarly fault o) :
    classify (buffer o) = some fault.failure := by
  obtain ⟨e, rfl, rfl⟩ := h
  rfl

theorem classify_of_failsLate {fault : NetworkFault} {o : Outcome} (h : FailsLate fault o) :
    classify (buffer o) = some fault.failure := by
  obtain ⟨answer, e, rfl, hbody, rfl⟩ := h
  simp [buffer, hbody, classify]

/-- The attempt that a script is changed at, as the change has it. -/
theorem concludes_update_self {k : Nat} {o : Outcome} {f : Failure}
    (hfailure : classify (buffer o) = some f) :
    Concludes policy method copy? draw (Function.update script k o) (k + 1)
      ↔ policy.shouldRetry (k + 1) f method = false := by
  simp [Concludes, Procedure.Final, Procedure.failure?, procedure, hfailure]

/-- All other attempts stay as they are. -/
theorem concludes_update_of_ne {j k : Nat} {o : Outcome} (hpos : 1 ≤ j) (hne : j ≠ k + 1) :
    Concludes policy method copy? draw (Function.update script k o) j
      ↔ Concludes policy method copy? draw script j := by
  have hplace : j - 1 ≠ k := by omega
  simp [Concludes, Procedure.Final, Procedure.failure?, procedure, hplace]

/-! ### The attempts on a request -/

theorem exists_firstConcludes (policy : Policy) (method : String) (copy? : ρ → Option ρ)
    (draw : Nat → Nat) (script : Nat → Outcome) :
    ∃ count, FirstConcludes policy method copy? draw script count := by
  let l := procedure policy method copy? draw
  obtain ⟨count, -, hfinal, hbefore⟩ :=
    Procedure.exists_first_final (l := l) (fun j => buffer (script j)) policy.one_le
  rw [Nat.zero_add] at hfinal hbefore
  exact ⟨count, hfinal, fun j hpos hle => hbefore j hpos (Nat.lt_succ_of_le hle)⟩

/-- A request with a copy is sent up to the first attempt that is final, if the waits add up. -/
theorem passage_eq_map (hcopy : copy? request = some request) {count : Nat}
    (hfirst : FirstConcludes policy method copy? draw script count) :
    ∃ course : Course ρ Outcome, course.sent = List.replicate (count + 1) request
      ∧ course.outcome = buffer (script count)
      ∧ passage? policy method copy? draw script request
        = (policy.waited? draw count).map fun _ => course := by
  obtain ⟨hfinal, hbefore⟩ := hfirst
  let l := procedure policy method copy? draw
  obtain ⟨last, -, hrun⟩ := Procedure.runFrom_eq_map (l := l) (s := {}) hcopy policy.one_le rfl
    (by rwa [Nat.zero_add]) (fun j hpos hlt => hbefore j hpos (by simp only at hlt; omega))
  have hsent := l.sent_turns (fun j => buffer (script j)) request 0 count
  simp only [Nat.zero_add] at hrun
  refine ⟨⟨l.turns (fun j => buffer (script j)) request 0 count, buffer (script count), last⟩, ?_,
    rfl, ?_⟩
  · exact hsent
  · rw [passage?, hcopy]
    exact hrun

theorem endsAt_iff (hcopy : copy? request = some request) {count n : Nat}
    (hfirst : FirstConcludes policy method copy? draw script count) :
    EndsAt policy method copy? draw request script n
      ↔ n = count + 1 ∧ policy.waited? draw count ≠ none := by
  obtain ⟨course, hsent, houtcome, hpassage⟩ := passage_eq_map hcopy hfirst
  have hlength : course.sent.length = count + 1 := by rw [hsent, List.length_replicate]
  cases hwaited : policy.waited? draw count with
  | none => simp [EndsAt, hpassage, hwaited]
  | some total =>
    rw [hwaited, Option.map_some] at hpassage
    constructor
    · rintro ⟨_, hcourse, rfl, -⟩
      cases hpassage.symm.trans hcourse
      exact ⟨hlength, nofun⟩
    · rintro ⟨rfl, -⟩
      exact ⟨course, hpassage, hlength, by simp [hcopy, houtcome]⟩

theorem passage_eq_none_iff (hcopy : copy? request = some request) {count : Nat}
    (hfirst : FirstConcludes policy method copy? draw script count) :
    passage? policy method copy? draw script request = none ↔ policy.waited? draw count = none := by
  obtain ⟨course, -, -, hpassage⟩ := passage_eq_map hcopy hfirst
  rw [hpassage, Option.map_eq_none_iff]

/-! ### Two scripts -/

theorem alike_iff (hcopy : copy? request = some request) {count otherCount : Nat}
    (hfirst : FirstConcludes policy method copy? draw script count)
    (hother : FirstConcludes policy method copy? draw other otherCount) :
    Alike policy method copy? draw request script other
      ↔ count = otherCount
        ∨ policy.waited? draw count = none ∧ policy.waited? draw otherCount = none := by
  simp only [Alike, endsAt_iff hcopy hfirst, endsAt_iff hcopy hother,
    passage_eq_none_iff hcopy hfirst, passage_eq_none_iff hcopy hother]
  constructor
  · rintro (⟨n, ⟨rfl, -⟩, heq, -⟩ | hnone)
    · exact .inl (Nat.succ.inj heq)
    · exact .inr hnone
  · rintro (rfl | hnone)
    · by_cases hwaited : policy.waited? draw count = none
      · exact .inr ⟨hwaited, hwaited⟩
      · exact .inl ⟨count + 1, ⟨rfl, hwaited⟩, rfl, hwaited⟩
    · exact .inr hnone

/-- A request without a copy is sent once, whatever comes of it. -/
theorem alike_of_no_copy (hcopy : copy? request = none) :
    Alike policy method copy? draw request script other := by
  refine .inl ⟨1, ?_, ?_⟩ <;> simp [EndsAt, passage?, hcopy, Course.sent, Step.request?]

/-- Scripts on which the same attempts are final go alike. -/
theorem alike_of_concludes_iff (hcopy : copy? request = none ∨ copy? request = some request)
    (h : ∀ j, 1 ≤ j → (Concludes policy method copy? draw script j
      ↔ Concludes policy method copy? draw other j)) :
    Alike policy method copy? draw request script other := by
  rcases hcopy with hcopy | hcopy
  · exact alike_of_no_copy hcopy
  · obtain ⟨count, hfinal, hbefore⟩ := exists_firstConcludes policy method copy? draw script
    have hother : FirstConcludes policy method copy? draw other count :=
      ⟨(h _ (Nat.le_add_left 1 count)).mp hfinal,
        fun j hpos hle hj => hbefore j hpos hle ((h j hpos).mpr hj)⟩
    exact (alike_iff hcopy ⟨hfinal, hbefore⟩ hother).mpr (.inl rfl)

/-- Attempts go on past one place of a script and end there on the other: they go alike only if they
do not get there. -/
theorem alike_update_iff (hcopy : copy? request = some request) {k : Nat} {on off : Outcome}
    (hon : ¬ Concludes policy method copy? draw (Function.update script k on) (k + 1))
    (hoff : Concludes policy method copy? draw (Function.update script k off) (k + 1)) :
    Alike policy method copy? draw request (Function.update script k on)
        (Function.update script k off)
      ↔ ¬ Reaches policy method copy? draw script k := by
  have hbelow (o : Outcome) {j : Nat} (hpos : 1 ≤ j) (hle : j ≤ k) :
      Concludes policy method copy? draw (Function.update script k o) j
        ↔ Concludes policy method copy? draw script j :=
    concludes_update_of_ne hpos (by omega)
  obtain ⟨count, hfinal, hbefore⟩ :=
    exists_firstConcludes policy method copy? draw (Function.update script k on)
  have hplace : count ≠ k := by
    rintro rfl
    exact hon hfinal
  rcases Nat.lt_or_ge count k with hlt | hge
  · -- an attempt in front of the place is final
    have hscript := (hbelow on (Nat.le_add_left 1 count) hlt).mp hfinal
    have hother : FirstConcludes policy method copy? draw (Function.update script k off) count := by
      refine ⟨(hbelow off (Nat.le_add_left 1 count) hlt).mpr hscript, fun j hpos hle hj => ?_⟩
      exact hbefore j hpos hle
        ((hbelow on hpos (by omega)).mpr ((hbelow off hpos (by omega)).mp hj))
    refine iff_of_true ((alike_iff hcopy ⟨hfinal, hbefore⟩ hother).mpr (.inl rfl)) ?_
    rintro ⟨hclear, -⟩
    exact hclear (count + 1) (Nat.le_add_left 1 count) hlt hscript
  · -- none is, so the attempts on the other script end at the place
    have hclear : ∀ j, 1 ≤ j → j ≤ k → ¬ Concludes policy method copy? draw script j :=
      fun j hpos hle hj => hbefore j hpos (by omega) ((hbelow on hpos hle).mpr hj)
    have hother : FirstConcludes policy method copy? draw (Function.update script k off) k :=
      ⟨hoff, fun j hpos hle hj => hclear j hpos hle ((hbelow off hpos hle).mp hj)⟩
    rw [alike_iff hcopy ⟨hfinal, hbefore⟩ hother]
    constructor
    · rintro (heq | ⟨-, hnone⟩) ⟨-, total, htotal⟩
      · exact hplace heq
      · cases hnone.symm.trans htotal
    · intro hunreached
      have hnone : policy.waited? draw k = none := by
        by_contra hsome
        exact hunreached ⟨hclear, Option.ne_none_iff_exists'.mp hsome⟩
      refine .inr ⟨?_, hnone⟩
      by_contra hsome
      obtain ⟨total, htotal⟩ :=
        Policy.exists_waited_of_le hge (Option.ne_none_iff_exists'.mp hsome)
      cases hnone.symm.trans htotal

/-! ### Where an attempt fails -/

/-- Two failures of one kind make no difference. -/
theorem alike_of_same_failure (hcopy : copy? request = none ∨ copy? request = some request)
    (k : Nat) {o p : Outcome} {f : Failure} (ho : classify (buffer o) = some f)
    (hp : classify (buffer p) = some f) :
    Alike policy method copy? draw request (Function.update script k o)
      (Function.update script k p) := by
  refine alike_of_concludes_iff hcopy fun j hpos => ?_
  by_cases hj : j = k + 1
  · rw [hj, concludes_update_self ho, concludes_update_self hp]
  · rw [concludes_update_of_ne hpos hj, concludes_update_of_ne hpos hj]

/-- A connection that is lost makes a difference by where it is lost, if the attempt is made and
another one is allowed behind it. -/
theorem alike_of_lost_iff (hcopy : copy? request = none ∨ copy? request = some request) (k : Nat)
    {early late : Outcome} (hearly : FailsEarly .reset early) (hlate : FailsLate .bodyCut late) :
    Alike policy method copy? draw request (Function.update script k early)
        (Function.update script k late)
      ↔ ¬ (copy? request = some request ∧ Reaches policy method copy? draw script k
          ∧ k + 1 < policy.maxAttempts) := by
  have hagain : classify (buffer early) = some .connection := classify_of_failsEarly hearly
  have hend : classify (buffer late) = some .fatal := classify_of_failsLate hlate
  rcases hcopy with hcopy | hcopy
  · simp [hcopy, alike_of_no_copy hcopy]
  · by_cases hmore : k + 1 < policy.maxAttempts
    · rw [alike_update_iff hcopy]
      · simp [hcopy, hmore]
      · simp [concludes_update_self hagain, Policy.shouldRetry, hmore]
      · simp [concludes_update_self hend, Policy.shouldRetry]
    · -- the last attempt that is allowed ends the call whatever comes of it
      refine iff_of_true (alike_of_concludes_iff (.inr hcopy) fun j hpos => ?_)
        fun h => hmore h.2.2
      by_cases hj : j = k + 1
      · have hspent : policy.maxAttempts ≤ k + 1 := Nat.le_of_not_lt hmore
        simp [hj, concludes_update_self hagain, concludes_update_self hend, Policy.shouldRetry,
          hspent]
      · rw [concludes_update_of_ne hpos hj, concludes_update_of_ne hpos hj]

/-- The attempt behind `k` others on a script is exchanged for another one. Time that runs out
counts the same before the response and while its body is read. A connection that is lost counts the
same just if the attempt is not made, or if none is allowed behind it. -/
theorem break_alike_iff (policy : Policy) (method : String) (draw : Nat → Nat)
    (script : Nat → Outcome) (k : Nat)
    (hcopy : copy? request = none ∨ copy? request = some request)
    {slow stalled early late : Outcome}
    (hslow : FailsEarly .timeout slow) (hstalled : FailsLate .timeout stalled)
    (hearly : FailsEarly .reset early) (hlate : FailsLate .bodyCut late) :
    Alike policy method copy? draw request (Function.update script k slow)
        (Function.update script k stalled)
      ∧ (Alike policy method copy? draw request (Function.update script k early)
            (Function.update script k late)
          ↔ ¬ (copy? request = some request ∧ Reaches policy method copy? draw script k
              ∧ k + 1 < policy.maxAttempts)) :=
  ⟨alike_of_same_failure hcopy k (classify_of_failsEarly hslow) (classify_of_failsLate hstalled),
    alike_of_lost_iff hcopy k hearly hlate⟩

/-- The connection is lost before the response. -/
def lostEarly : Outcome := .error ⟨.reset, "connection reset", []⟩

/-- The connection is lost while the body of the response is read. -/
def lostLate : Outcome := .ok { status := 200, body := .error ⟨.bodyCut, "body", []⟩ }

/-- There is no response in time. -/
def silent : Outcome := .error ⟨.timeout, "operation timed out", []⟩

/-- The body of the response stops for too long. -/
def stalling : Outcome :=
  .ok { status := 200, body := .error ⟨.timeout, "operation timed out", []⟩ }

/-- A service that is never available. -/
def unavailable : Nat → Outcome := fun _ => .ok { status := 503 }

theorem failsEarly_lostEarly : FailsEarly .reset lostEarly := ⟨_, rfl, rfl⟩

theorem failsLate_lostLate : FailsLate .bodyCut lostLate := ⟨_, _, rfl, rfl, rfl⟩

/-- Of three attempts, a connection that is lost on the last one counts the same wherever it is
lost, and on the first one it does not. -/
theorem break_alike_last :
    Alike .standard "POST" some (fun _ => 0) "request" (Function.update unavailable 2 silent)
        (Function.update unavailable 2 stalling)
      ∧ Alike .standard "POST" some (fun _ => 0) "request" (Function.update unavailable 2 lostEarly)
        (Function.update unavailable 2 lostLate)
      ∧ ¬ Alike .standard "POST" some (fun _ => 0) "request"
        (Function.update unavailable 0 lostEarly) (Function.update unavailable 0 lostLate) := by
  have hsilent : FailsEarly .timeout silent := ⟨_, rfl, rfl⟩
  have hstalling : FailsLate .timeout stalling := ⟨_, _, rfl, rfl, rfl⟩
  have hlaw (k : Nat) := break_alike_iff .standard "POST" (fun _ => 0) unavailable k
    (.inr rfl : some "request" = none ∨ some "request" = some "request") hsilent hstalling
    failsEarly_lostEarly failsLate_lostLate
  refine ⟨(hlaw 2).1, (hlaw 2).2.mpr ?_, fun h => (hlaw 0).2.mp h ?_⟩
  · rintro ⟨-, -, hmore⟩
    exact absurd hmore (by decide)
  · exact ⟨rfl, ⟨fun j hpos hle => by omega, _, rfl⟩, by decide⟩

/-- Of a service that answers, a connection that is lost on the first of three attempts is made
again only if it is lost before the response. -/
theorem cut_body_not_repeated :
    ¬ Alike .standard "GET" some (fun _ => 0) "request"
      (Function.update (fun _ => .ok { status := 200 }) 0 lostEarly)
      (Function.update (fun _ => .ok { status := 200 }) 0 lostLate) := by
  intro h
  refine (alike_of_lost_iff (.inr rfl) 0 failsEarly_lostEarly failsLate_lostLate).mp h ?_
  exact ⟨rfl, ⟨fun j hpos hle => by omega, _, rfl⟩, by decide⟩

end ServiceCall.Http
