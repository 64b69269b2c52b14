import ServiceCall.Http.Header
import ServiceCall.Proofs.Except
import ServiceCall.Proofs.KeyMap
import ServiceCall.Proofs.Text.Letters

/-!
# Which headers are sent

A request may spell one header in several ways, and is sent with one value for each name. Headers
are taken in the order of their spelling, and a later one replaces an earlier one: the greatest
spelling has its value sent. No spelling is greater than the one in small letters. The agent of the
client is set in front of them all, and the type of the body behind.
-/

namespace ServiceCall.Http

/-- A request has the value for a header: it stands under the greatest spelling of the name. -/
def Request.HasHeader (r : Request) (name value : String) : Prop :=
  ∃ spelling, (spelling, value) ∈ r.headers.entries ∧ lowerName spelling = name
    ∧ ∀ e ∈ r.headers.entries, lowerName e.1 = name → e.1 ≤ spelling

/-- The value that a header is sent with: the type of the body, else that of the request under the
greatest spelling of the name, else the agent of the client. -/
inductive SentAs (userAgent : String) (r : Request) : String → String → Prop
  | type {body : Bean.EncodedBody} (hbody : r.body = some body) :
      SentAs userAgent r "content-type" body.contentType
  | own {name value : String} (huntyped : name = "content-type" → r.body = none)
      (hvalue : r.HasHeader name value) : SentAs userAgent r name value
  | agent (hunset : ∀ e ∈ r.headers.entries, lowerName e.1 ≠ agentHeader) :
      SentAs userAgent r agentHeader userAgent

/-! ### Small letters -/

theorem not_toLower_lt (c : Char) : ¬ c.toLower < c := by
  have hlt : c.toLower < c ↔ c.toLower.toNat < c.toNat := UInt32.lt_iff_toNat_lt
  rw [hlt, toNat_toLower]
  split <;> omega

theorem not_map_toLower_lt (cs : List Char) : ¬ cs.map Char.toLower < cs := by
  induction cs with
  | nil => exact List.not_lt_nil []
  | cons c cs ih =>
    rw [List.map_cons, List.cons_lt_cons_iff]
    rintro (hlt | ⟨-, hlt⟩)
    · exact not_toLower_lt c hlt
    · exact ih hlt

/-- Small letters are behind capital ones. -/
theorem le_lowerName (name : String) : name ≤ lowerName name := by
  rw [← String.not_lt, String.lt_iff, lowerName, String.toList_ofList]
  exact not_map_toLower_lt name.toList

/-! ### Entries in the order of their keys -/

/-- Of entries whose keys become the same, the one behind all others counts. -/
theorem lookup_reverse_map_eq_some_iff {entries : List (String × String)}
    (hsorted : entries.Pairwise fun a b => a.1 < b.1) (f : String → String) {k value : String} :
    (entries.map fun e => (f e.1, e.2)).reverse.lookup k = some value
      ↔ ∃ key, (key, value) ∈ entries ∧ f key = k ∧ ∀ e ∈ entries, f e.1 = k → e.1 ≤ key := by
  -- from the end: the last entry has the greatest key, so it counts wherever it has the name
  induction entries using List.reverseRecOn with
  | nil => simp
  | append_singleton entries last ih =>
    obtain ⟨hentries, -, hlast⟩ := List.pairwise_append.mp hsorted
    have hbelow : ∀ e ∈ entries, e.1 < last.1 := fun e he => hlast e he last List.mem_cons_self
    simp only [List.map_append, List.map_cons, List.map_nil, List.reverse_append, List.reverse_cons,
      List.reverse_nil, List.nil_append, List.singleton_append, lookup_cons_eq_if,
      List.mem_append, List.mem_singleton, or_imp, forall_and, forall_eq]
    by_cases hk : k = f last.1
    · rw [if_pos hk]
      constructor
      · rintro ⟨⟩
        refine ⟨last.1, .inr rfl, hk.symm, fun e he _ => ?_, fun _ => String.le_refl _⟩
        exact String.not_lt.mp (String.lt_asymm (hbelow e he))
      · rintro ⟨key, hkey | hkey, -, -, hgreatest⟩
        · exact absurd (hbelow _ hkey) (String.not_lt.mpr (hgreatest hk.symm))
        · rw [← hkey]
    · rw [if_neg hk, ih hentries]
      constructor
      · rintro ⟨key, hkey, hf, hgreatest⟩
        exact ⟨key, .inl hkey, hf, hgreatest, fun h => absurd h.symm hk⟩
      · rintro ⟨key, hkey | hkey, hf, hgreatest, -⟩
        · exact ⟨key, hkey, hf, hgreatest⟩
        · exact absurd (by rw [← hf, ← hkey]) hk

/-! ### The headers of a request -/

theorem addHeaders_eq_ok_iff {sent out : KeyMap String} {entries : List (String × String)} :
    addHeaders sent entries = .ok out
      ↔ (∀ e ∈ entries, isValidName e.1 = true ∧ isValidValue e.2 = true)
        ∧ (entries.map fun e => (lowerName e.1, e.2)).foldl (fun m p => m.insert p.1 p.2) sent
          = out := by
  induction entries generalizing sent with
  | nil => simp [addHeaders]
  | cons e entries ih =>
    obtain ⟨name, value⟩ := e
    rw [addHeaders]
    by_cases hvalid : isValidName name = true ∧ isValidValue value = true
    · simp [hvalid, ih]
    · have hbad : (!isValidName name || !isValidValue value) = true := by
        simpa [Bool.or_eq_true, imp_iff_not_or, Decidable.not_and_iff_not_or_not] using hvalid
      simp [hbad, hvalid]

/-- The headers of a request with their values, in the order in which they are set. -/
def headerPairs (userAgent : String) (r : Request) : List (String × String) :=
  (agentHeader, userAgent) :: (r.headers.entries.map fun e => (lowerName e.1, e.2))
    ++ match r.body with
      | some body => [("content-type", body.contentType)]
      | none => []

/-- A request has headers that can be sent if all of them are valid. -/
theorem sentHeaders_eq_ok_iff {userAgent : String} {r : Request} {out : KeyMap String} :
    sentHeaders userAgent r = .ok out
      ↔ isValidValue userAgent = true
        ∧ (∀ e ∈ r.headers.entries, isValidName e.1 = true ∧ isValidValue e.2 = true)
        ∧ (∀ body, r.body = some body → isStaticValue body.contentType = true)
        ∧ KeyMap.ofList (headerPairs userAgent r) = out := by
  rw [sentHeaders, headerPairs, KeyMap.ofList, List.foldl_append, List.foldl_cons]
  cases hagent : isValidValue userAgent with
  | false => simp
  | true =>
    cases hadded : addHeaders (KeyMap.empty.insert agentHeader userAgent) r.headers.entries with
    | error name =>
      refine iff_of_false (by simp) ?_
      rintro ⟨-, hvalid, -⟩
      cases hadded.symm.trans (addHeaders_eq_ok_iff.mpr ⟨hvalid, rfl⟩)
    | ok sent =>
      obtain ⟨hvalid, rfl⟩ := addHeaders_eq_ok_iff.mp hadded
      rw [and_iff_right rfl, and_iff_right hvalid]
      cases r.body with
      | none => simp
      | some body => cases htype : isStaticValue body.contentType <;> simp [htype]

/-! ### The sources of a value -/

variable {userAgent : String} {r : Request} {name value : String}

/-- The value that a request has for a header, among the pairs of its headers in small letters. -/
def ownValue? (r : Request) (name : String) : Option String :=
  (r.headers.entries.map fun e => (lowerName e.1, e.2)).reverse.lookup name

/-- The value that the body of a request has for a header: its type, if the header tells it. -/
def typeValue? (r : Request) (name : String) : Option String :=
  if name = "content-type" then r.body.map Bean.EncodedBody.contentType else none

theorem ownValue?_eq_some_iff : ownValue? r name = some value ↔ r.HasHeader name value :=
  lookup_reverse_map_eq_some_iff r.headers.sorted lowerName

theorem ownValue?_eq_none_iff :
    ownValue? r name = none ↔ ∀ e ∈ r.headers.entries, lowerName e.1 ≠ name := by
  rw [ownValue?, List.lookup_eq_none_iff]
  simp only [List.mem_reverse, List.forall_mem_map, bne_iff_ne, ne_comm]

theorem typeValue?_eq_some_iff : typeValue? r name = some value
    ↔ name = "content-type" ∧ ∃ body, r.body = some body ∧ body.contentType = value := by
  simp [typeValue?, Option.map_eq_some_iff]

theorem typeValue?_eq_none_iff :
    typeValue? r name = none ↔ (name = "content-type" → r.body = none) := by
  simp [typeValue?]

/-- A later source goes before an earlier one. -/
theorem lookup_headerPairs (userAgent : String) (r : Request) (name : String) :
    (headerPairs userAgent r).reverse.lookup name
      = (typeValue? r name).or
          ((ownValue? r name).or (if name = agentHeader then some userAgent else none)) := by
  rw [headerPairs, List.reverse_append, List.lookup_append, List.reverse_cons, List.lookup_append]
  congr 1
  · cases hbody : r.body <;> simp [typeValue?, hbody]
  · rw [lookup_cons_eq_if]
    rfl

/-- A header is sent with a value just if the value is the one by the order of the sources. -/
theorem get?_sentHeaders_iff {out : KeyMap String} (h : sentHeaders userAgent r = .ok out) :
    out.get? name = some value ↔ SentAs userAgent r name value := by
  obtain ⟨-, -, -, rfl⟩ := sentHeaders_eq_ok_iff.mp h
  rw [KeyMap.get?_ofList, lookup_headerPairs]
  simp only [Option.or_eq_some_iff, typeValue?_eq_some_iff, typeValue?_eq_none_iff,
    ownValue?_eq_some_iff, ownValue?_eq_none_iff]
  constructor
  · rintro (⟨rfl, body, hbody, rfl⟩ | ⟨huntyped, hvalue | ⟨hunset, hagent⟩⟩)
    · exact .type hbody
    · exact .own huntyped hvalue
    · obtain ⟨rfl, rfl⟩ : name = agentHeader ∧ userAgent = value := by simpa using hagent
      exact .agent hunset
  · rintro (hbody | ⟨huntyped, hvalue⟩ | hunset)
    · exact .inl ⟨rfl, _, hbody, rfl⟩
    · exact .inr ⟨huntyped, .inl hvalue⟩
    · have hagent : agentHeader ≠ "content-type" := by decide
      exact .inr ⟨fun h => absurd h hagent, .inr ⟨hunset, if_pos rfl⟩⟩

/-- But for the agent and the type of the body, a header is sent as the request has it. -/
theorem get?_sentHeaders_eq_some_iff {out : KeyMap String} (h : sentHeaders userAgent r = .ok out)
    (hagent : name ≠ agentHeader) (htype : name ≠ "content-type") :
    out.get? name = some value ↔ r.HasHeader name value := by
  rw [get?_sentHeaders_iff h]
  constructor
  · rintro (hbody | ⟨-, hvalue⟩ | hunset)
    · exact absurd rfl htype
    · exact hvalue
    · exact absurd rfl hagent
  · exact .own fun hname => absurd hname htype

/-! ### The spellings of a name -/

variable {other : String}

theorem Request.HasHeader.unique (h : r.HasHeader name value) (hother : r.HasHeader name other) :
    value = other := by
  obtain ⟨spelling, hmem, hname, hgreatest⟩ := h
  obtain ⟨second, hsecond, hsecondName, hsecondGreatest⟩ := hother
  obtain rfl : spelling = second :=
    String.le_antisymm (hsecondGreatest _ hmem hname) (hgreatest _ hsecond hsecondName)
  rw [KeyMap.mem_entries_iff] at hmem hsecond
  exact Option.some.inj (hmem.symm.trans hsecond)

/-- The spelling in small letters is the greatest, so its value counts. -/
theorem hasHeader_of_get? (hsmall : lowerName name = name) (h : r.headers.get? name = some value) :
    r.HasHeader name value := by
  refine ⟨name, KeyMap.mem_entries_iff.mpr h, hsmall, fun e _ he => ?_⟩
  rw [← he]
  exact le_lowerName e.1

/-- A header that is spelled in any way has a value. -/
theorem exists_hasHeader {e : String × String} (he : e ∈ r.headers.entries) :
    ∃ value, r.HasHeader (lowerName e.1) value := by
  have hspelled : ownValue? r (lowerName e.1) ≠ none :=
    fun hnone => ownValue?_eq_none_iff.mp hnone e he rfl
  obtain ⟨value, hvalue⟩ := Option.ne_none_iff_exists'.mp hspelled
  exact ⟨value, ownValue?_eq_some_iff.mp hvalue⟩

end ServiceCall.Http
