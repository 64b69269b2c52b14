import Mathlib.Data.List.TakeWhile
import ServiceCall.Proofs.Except
import ServiceCall.Proofs.Url.Host
import ServiceCall.Url.Parser

/-!
# Authorities read back

User, password, host and port that have been read are read back from their text: the signs between
them are in none of them, what was escaped needs no more escapes, and a port that is written is not
the usual one of the scheme.
-/

namespace ServiceCall.Url

open Host (isAuthorityChar)

variable {scheme : List Char}

/-! ### Reading in steps -/

/-- The host of a scheme. -/
def readHost [Idna] (scheme cs : List Char) : Except Error Host :=
  if (schemeKind scheme).isSpecial then Host.parse cs else Host.parseAny cs

theorem readAuthority_eq [Idna] (scheme cs : List Char) (last : Bool) :
    readAuthority scheme cs last =
      let (credentials, after) := splitCredentials cs
      let (hostChars, behind) := splitHost false after
      let (username, password) := readCredentials (credentials.getD [])
      if credentials == some [] && after.isEmpty && !last then .error .emptyHost
      else if hostChars.isEmpty && (schemeKind scheme).isSpecial then .error .emptyHost
      else (readHost scheme hostChars).bind fun host =>
        if hostChars.isEmpty && behind.head? == some ':' then .error .emptyHost
        else (readPort scheme behind).bind fun (port, rest) =>
          if hostChars.isEmpty && (!username.isEmpty || password.isSome) then .error .emptyHost
          else .ok ({ username, password, host, port }, rest) := by
  unfold readAuthority readHost
  dsimp only
  generalize (schemeKind scheme).isSpecial = special
  cases special <;> rfl

/-- When there is an authority, and which. -/
theorem readAuthority_eq_ok_iff [Idna] {cs rest : List Char} {last : Bool} {a : Authority} :
    readAuthority scheme cs last = .ok (a, rest) ↔
      ∃ credentials after hostChars behind, splitCredentials cs = (credentials, after)
        ∧ splitHost false after = (hostChars, behind)
        ∧ readCredentials (credentials.getD []) = (a.username, a.password)
        ∧ readHost scheme hostChars = .ok a.host
        ∧ readPort scheme behind = .ok (a.port, rest)
        ∧ ¬ (credentials = some [] ∧ after = [] ∧ last = false)
        ∧ (hostChars = [] → (schemeKind scheme).isSpecial = false ∧ behind.head? ≠ some ':'
          ∧ a.username = [] ∧ a.password = none) := by
  rw [readAuthority_eq]
  obtain ⟨credentials, after⟩ := splitCredentials cs
  dsimp only
  constructor
  · intro h
    -- the checks in the order of the reader; what they have ruled out makes up the right side
    split at h
    · cases h
    next hfirst =>
    split at h
    · cases h
    next hspecial =>
    obtain ⟨host, hhost, h⟩ := bind_eq_ok.mp h
    split at h
    · cases h
    next hcolon =>
    obtain ⟨⟨port, tail⟩, hport, h⟩ := bind_eq_ok.mp h
    dsimp only at h
    split at h
    · cases h
    next huser =>
    cases h
    refine ⟨credentials, after, _, _, rfl, rfl, rfl, hhost, hport, by simpa using hfirst, ?_⟩
    intro hempty
    simp only [hempty, List.isEmpty_nil, Bool.true_and, Bool.not_eq_true, beq_eq_false_iff_ne,
      Bool.or_eq_false_iff, Bool.not_eq_false', List.isEmpty_iff, Option.isSome_eq_false_iff,
      Option.isNone_iff_eq_none] at hspecial hcolon huser
    exact ⟨hspecial, hcolon, huser⟩
  · obtain ⟨username, password, host, port⟩ := a
    rintro ⟨_, _, hostChars, behind, hsplit, hhost, hread, hparse, hport, hfirst, hempty⟩
    cases hsplit
    rw [hhost, hread]
    dsimp only at hparse hport hempty ⊢
    rw [if_neg (by simpa using hfirst), hparse]
    cases hostChars with
    | nil =>
      obtain ⟨hspecial, hcolon, rfl, rfl⟩ := hempty rfl
      simp [Except.bind, hport, hspecial, hcolon]
    | cons c hostChars => simp [Except.bind, hport]

/-! ### What reading gives -/

/-- The text needs no escapes as a user or password. -/
def IsUserInfo (cs : List Char) : Prop := ∀ c ∈ cs, Percent.inUserInfo c = false

theorem isUserInfo_encode (cs : List Char) : IsUserInfo (Percent.encode Percent.inUserInfo cs) :=
  Percent.forall_mem_encode (by decide) (by decide) fun _ _ h => h

/-- An authority as reading gives it. -/
structure Authority.Settled [Idna] (scheme : List Char) (a : Authority) : Prop where
  username : IsUserInfo a.username
  password : ∀ p, a.password = some p → p ≠ [] ∧ IsUserInfo p
  host : a.host.Settled (schemeKind scheme).isSpecial
  port : ∀ p, a.port = some p → p ≤ 65535 ∧ defaultPort? scheme ≠ some p
  bare : a.host.chars = [] → a.username = [] ∧ a.password = none ∧ a.port = none

theorem settled_of_readHost [Idna] {cs : List Char} {host : Host}
    (h : readHost scheme cs = .ok host) : host.Settled (schemeKind scheme).isSpecial := by
  rw [readHost] at h
  split at h
  · next hspecial =>
    rw [hspecial]
    exact Host.settled_of_parse h
  · next hspecial =>
    rw [Bool.not_eq_true] at hspecial
    rw [hspecial]
    exact Host.settled_of_parseAny h

theorem readHost_chars [Idna] [Idna.Lawful] {host : Host}
    (h : host.Settled (schemeKind scheme).isSpecial) : readHost scheme host.chars = .ok host := by
  rw [readHost]
  split
  · next hspecial =>
    rw [hspecial] at h
    exact h.parse_chars
  · next hspecial =>
    rw [Bool.not_eq_true] at hspecial
    rw [hspecial] at h
    exact h.parseAny_chars

/-- Only the empty text is read as a host without characters. -/
theorem eq_nil_of_readHost [Idna] {cs : List Char} {host : Host} (h : readHost scheme cs = .ok host)
    (hempty : host.chars = []) : cs = [] := by
  rw [readHost] at h
  split at h
  · exact absurd hempty (Host.settled_of_parse h).chars_ne_nil
  · exact Host.eq_nil_of_parseAny h hempty

theorem eq_of_unusual {absent : Bool} {value p : Nat}
    (h : (if absent || defaultPort? scheme == some value then none else some value) = some p) :
    value = p ∧ defaultPort? scheme ≠ some value := by
  split at h
  · cases h
  · next husual =>
    simp only [Bool.or_eq_true, not_or, beq_iff_eq] at husual
    exact ⟨Option.some.inj h, husual.2⟩

theorem port_of_readPort {cs rest : List Char} {port : Option Nat}
    (h : readPort scheme cs = .ok (port, rest)) :
    ∀ p, port = some p → p ≤ 65535 ∧ defaultPort? scheme ≠ some p := by
  rintro p rfl
  rw [readPort.eq_def] at h
  dsimp only at h
  split at h
  · split at h
    · cases h
    next hbound =>
    rw [not_lt] at hbound
    split at h
    · obtain ⟨hvalue, husual⟩ := eq_of_unusual (Prod.mk.inj (Except.ok.inj h)).1
      exact hvalue ▸ ⟨hbound, husual⟩
    · obtain ⟨hvalue, husual⟩ := eq_of_unusual (Prod.mk.inj (Except.ok.inj h)).1
      exact hvalue ▸ ⟨hbound, husual⟩
    · cases h
  · cases h

theorem readPort_of_head {cs : List Char} (hcolon : cs.head? ≠ some ':') :
    readPort scheme cs = .ok (none, cs) := by
  rw [readPort.eq_def]
  split
  · exact absurd rfl hcolon
  · rfl

theorem readCredentials_settled {cs username : List Char} {password : Option (List Char)}
    (h : readCredentials cs = (username, password)) :
    IsUserInfo username ∧ ∀ p, password = some p → p ≠ [] ∧ IsUserInfo p := by
  rw [readCredentials] at h
  split at h
  · cases h
    refine ⟨isUserInfo_encode _, fun p hp => ?_⟩
    cases hp
    exact ⟨fun hnil => List.cons_ne_nil _ _ (Percent.eq_nil_of_encode hnil), isUserInfo_encode _⟩
  · cases h
    exact ⟨isUserInfo_encode _, fun p hp => nomatch hp⟩

/-- Whatever is read as an authority is one that can be read back. -/
theorem settled_of_readAuthority [Idna] {cs rest : List Char} {last : Bool} {a : Authority}
    (h : readAuthority scheme cs last = .ok (a, rest)) : a.Settled scheme := by
  obtain ⟨credentials, after, hostChars, behind, -, -, hread, hhost, hport, -, hempty⟩ :=
    readAuthority_eq_ok_iff.mp h
  obtain ⟨husername, hpassword⟩ := readCredentials_settled hread
  refine ⟨husername, hpassword, settled_of_readHost hhost, port_of_readPort hport, fun hbare => ?_⟩
  obtain ⟨-, hcolon, hnone, hnopass⟩ := hempty (eq_nil_of_readHost hhost hbare)
  rw [readPort_of_head hcolon] at hport
  exact ⟨hnone, hnopass, (Prod.mk.inj (Except.ok.inj hport)).1.symm⟩

/-! ### The characters of an authority -/

theorem isAuthorityChar_of_inUserInfo {c : Char} (h : Percent.inUserInfo c = false) :
    isAuthorityChar c = true ∧ c ≠ '@' ∧ c ≠ ':' := by
  simp only [Percent.inUserInfo, Bool.or_eq_false_iff, beq_eq_false_iff_ne, ne_eq] at h
  obtain ⟨hvisible, hquestion, hhash⟩ := Percent.visible_of_inPath (c := c) (by tauto)
  simp [isAuthorityChar]
  tauto

/-- The text of a port with its colon. -/
def portChars : Option Nat → List Char
  | some p => ':' :: Host.decimal p
  | none => []

/-- The text of user and password, with the colon between them. -/
def userChars (username : List Char) : Option (List Char) → List Char
  | some p => username ++ ':' :: p
  | none => username

theorem Authority.chars_eq (a : Authority) : a.chars =
    (if a.username = [] ∧ a.password = none then [] else userChars a.username a.password ++ ['@'])
      ++ (a.host.chars ++ portChars a.port) := by
  obtain ⟨username, password, host, port⟩ := a
  rw [Authority.chars, Authority.credentials, List.append_assoc]
  simp only [List.isEmpty_iff, Option.isNone_iff_eq_none]
  cases password <;> cases port <;> simp [userChars, portChars]

theorem isAuthorityChar_of_mem_portChars {port : Option Nat} :
    ∀ c ∈ portChars port, isAuthorityChar c = true ∧ c ≠ '@' := by
  intro c hc
  cases port with
  | none => cases hc
  | some p =>
    rcases List.mem_cons.mp hc with rfl | hc
    · decide
    · obtain ⟨d, hd, rfl⟩ := Host.exists_of_mem_decimal hc
      have hdigits : ∀ d < 10, isAuthorityChar (Nat.digitChar d) = true ∧ Nat.digitChar d ≠ '@' := by
        decide
      exact hdigits d hd

theorem Authority.Settled.isAuthorityChar_userChars [Idna] {a : Authority} (h : a.Settled scheme) :
    ∀ c ∈ userChars a.username a.password, isAuthorityChar c = true ∧ c ≠ '@' := by
  intro c hc
  cases hpassword : a.password with
  | none =>
    rw [hpassword] at hc
    have hc := isAuthorityChar_of_inUserInfo (h.username c hc)
    exact ⟨hc.1, hc.2.1⟩
  | some p =>
    rw [hpassword, userChars, List.mem_append, List.mem_cons] at hc
    rcases hc with hc | rfl | hc
    · have hc := isAuthorityChar_of_inUserInfo (h.username c hc)
      exact ⟨hc.1, hc.2.1⟩
    · decide
    · have hc := isAuthorityChar_of_inUserInfo ((h.password p hpassword).2 c hc)
      exact ⟨hc.1, hc.2.1⟩

/-- Nothing in an authority ends it or is left out of a URL. -/
theorem Authority.Settled.isAuthorityChar_chars [Idna] {a : Authority} (h : a.Settled scheme) :
    ∀ c ∈ a.chars, isAuthorityChar c = true := by
  intro c hc
  rw [Authority.chars_eq, List.mem_append, List.mem_append] at hc
  rcases hc with hc | hc | hc
  · split at hc
    · cases hc
    · rcases List.mem_append.mp hc with hc | hc
      · exact (h.isAuthorityChar_userChars c hc).1
      · rw [List.mem_singleton.mp hc]
        decide
  · exact (h.host.chars_inner c hc).1
  · exact (isAuthorityChar_of_mem_portChars c hc).1

/-! ### Reading an authority again -/

theorem splitHost_append {cs tail : List Char} (hcs : ∀ c ∈ cs, c ∉ [':', '[']) :
    splitHost false (cs ++ tail) = (cs ++ (splitHost false tail).1, (splitHost false tail).2) := by
  induction cs with
  | nil => rfl
  | cons c cs ih =>
    obtain ⟨hc, hcs⟩ := List.forall_mem_cons.mp hcs
    simp only [List.mem_cons, List.not_mem_nil, or_false, not_or] at hc
    have hnext : (if c == '[' then true else if c == ']' then false else false) = false := by
      simp [hc.2]
    rw [List.cons_append, splitHost, if_neg (by simp [hc.1]), hnext]
    dsimp only
    rw [ih hcs, List.cons_append]

/-- Within brackets, colons belong to the host. -/
theorem splitHost_bracketed {cs tail : List Char} (hcs : ∀ c ∈ cs, c ∉ ['[', ']']) :
    splitHost true (cs ++ ']' :: tail)
      = (cs ++ ']' :: (splitHost false tail).1, (splitHost false tail).2) := by
  induction cs with
  | nil => rfl
  | cons c cs ih =>
    obtain ⟨hc, hcs⟩ := List.forall_mem_cons.mp hcs
    simp only [List.mem_cons, List.not_mem_nil, or_false, not_or] at hc
    have hnext : (if c == '[' then true else if c == ']' then false else true) = true := by
      simp [hc.2]
    rw [List.cons_append, splitHost, if_neg (by simp), hnext]
    dsimp only
    rw [ih hcs, List.cons_append]

theorem splitHost_portChars (port : Option Nat) :
    splitHost false (portChars port) = ([], portChars port) := by
  cases port <;> rfl

theorem splitHost_chars [Idna] {special : Bool} {host : Host} (h : host.Settled special)
    (port : Option Nat) :
    splitHost false (host.chars ++ portChars port) = (host.chars, portChars port) := by
  -- an address in brackets holds colons of its own, a name holds none
  rcases h.shape with hname | ⟨cs, hcs, hinner⟩
  · have hsigns : ∀ c ∈ host.chars, c ∉ [':', '['] := by
      intro c hc hsign
      exact (hname c hc).2 (List.mem_cons_of_mem _ hsign)
    rw [splitHost_append hsigns, splitHost_portChars, List.append_nil]
  · have hsigns : ∀ c ∈ cs, c ∉ ['[', ']'] := by
      intro c hc hsign
      exact (hinner c hc).2 (List.mem_cons_of_mem _ hsign)
    have hopen : splitHost false ('[' :: (cs ++ ']' :: portChars port))
        = ('[' :: (splitHost true (cs ++ ']' :: portChars port)).1,
          (splitHost true (cs ++ ']' :: portChars port)).2) := rfl
    rw [hcs, List.cons_append, List.append_assoc, List.singleton_append, hopen,
      splitHost_bracketed hsigns, splitHost_portChars]

theorem readPort_portChars {port : Option Nat}
    (h : ∀ p, port = some p → p ≤ 65535 ∧ defaultPort? scheme ≠ some p) :
    readPort scheme (portChars port) = .ok (port, []) := by
  cases port with
  | none => rfl
  | some p =>
    obtain ⟨hbound, husual⟩ := h p rfl
    have hdigits : ∀ c ∈ Host.decimal p, c.isDigit = true :=
      fun c hc => Nat.isDigit_of_mem_toDigits (by decide) (by decide) hc
    have htake : (Host.decimal p).takeWhile Char.isDigit = Host.decimal p :=
      List.takeWhile_eq_self_iff.mpr hdigits
    have hdrop : (Host.decimal p).dropWhile Char.isDigit = [] :=
      List.dropWhile_eq_nil_iff.mpr hdigits
    have hvalue : Host.valueIn 10 (Host.decimal p) = p :=
      Host.valueIn_toDigits (by decide) (by decide) p
    have hfilled : (Host.decimal p).isEmpty = false := by simp [Host.decimal]
    rw [portChars, readPort, htake, hdrop, hvalue, if_neg (not_lt.mpr hbound)]
    simp [hfilled, husual]

theorem Authority.Settled.readCredentials_userChars [Idna] {a : Authority} (h : a.Settled scheme) :
    readCredentials (userChars a.username a.password) = (a.username, a.password) := by
  have husername : ∀ c ∈ a.username, (c != ':') = true := fun c hc =>
    bne_iff_ne.mpr (isAuthorityChar_of_inUserInfo (h.username c hc)).2.2
  cases hpassword : a.password with
  | none =>
    have htake : a.username.takeWhile (· != ':') = a.username :=
      List.takeWhile_eq_self_iff.mpr husername
    have hdrop : a.username.dropWhile (· != ':') = [] := List.dropWhile_eq_nil_iff.mpr husername
    rw [userChars, readCredentials, htake, hdrop, Percent.encode_eq_self h.username]
  | some p =>
    obtain ⟨hne, hp⟩ := h.password p hpassword
    obtain ⟨c, rest, rfl⟩ := List.exists_cons_of_ne_nil hne
    have hspan : (a.username ++ ':' :: c :: rest).takeWhile (· != ':') = a.username
        ∧ (a.username ++ ':' :: c :: rest).dropWhile (· != ':') = ':' :: c :: rest :=
      span_append husername (by simp)
    obtain ⟨htake, hdrop⟩ := hspan
    rw [userChars, readCredentials, htake, hdrop, Percent.encode_eq_self h.username]
    dsimp only
    rw [Percent.encode_eq_self hp]

/-- An authority is read back from its text, whatever follows it. -/
theorem Authority.Settled.readAuthority_chars [Idna] [Idna.Lawful] {a : Authority}
    (h : a.Settled scheme) (last : Bool) : readAuthority scheme a.chars last = .ok (a, []) := by
  have hbehind : '@' ∉ a.host.chars ++ portChars a.port := by
    intro hsign
    rcases List.mem_append.mp hsign with hsign | hsign
    · exact (h.host.chars_inner _ hsign).2 rfl
    · exact (isAuthorityChar_of_mem_portChars _ hsign).2 rfl
  have hbare : a.host.chars = [] → (schemeKind scheme).isSpecial = false
      ∧ (portChars a.port).head? ≠ some ':' ∧ a.username = [] ∧ a.password = none := by
    intro hempty
    obtain ⟨husername, hpassword, hport⟩ := h.bare hempty
    refine ⟨?_, by simp [hport, portChars], husername, hpassword⟩
    rw [Bool.eq_false_iff]
    intro hspecial
    exact (hspecial ▸ h.host).chars_ne_nil hempty
  rw [readAuthority_eq_ok_iff]
  -- without user and password no sign stands before the host
  by_cases huser : a.username = [] ∧ a.password = none
  · have hsplit : splitCredentials a.chars = (none, a.host.chars ++ portChars a.port) := by
      rw [splitCredentials, Authority.chars_eq, if_pos huser, List.nil_append,
        atLast?_eq_none hbehind]
    refine ⟨_, _, _, _, hsplit, splitHost_chars h.host a.port, ?_, readHost_chars h.host,
      readPort_portChars h.port, by simp, hbare⟩
    rw [huser.1, huser.2]
    rfl
  · have hsplit : splitCredentials a.chars
        = (some (userChars a.username a.password), a.host.chars ++ portChars a.port) := by
      rw [splitCredentials, Authority.chars_eq, if_neg huser, List.append_assoc,
        List.singleton_append, atLast?_append_cons hbehind]
    refine ⟨_, _, _, _, hsplit, splitHost_chars h.host a.port, h.readCredentials_userChars,
      readHost_chars h.host, readPort_portChars h.port, ?_, hbare⟩
    rintro ⟨hnone, -, -⟩
    refine huser ?_
    cases hpassword : a.password with
    | none => exact ⟨by simpa [hpassword, userChars] using hnone, rfl⟩
    | some p => simp [hpassword, userChars] at hnone

end ServiceCall.Url
