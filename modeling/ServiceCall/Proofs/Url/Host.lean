import ServiceCall.Proofs.Text.Letters
import ServiceCall.Proofs.Text.Utf8
import ServiceCall.Proofs.Url.Address
import ServiceCall.Proofs.Url.Percent

/-!
# Hosts read back

A host that has been read is read back from its own text. The rules for international names promise
that of a domain, an address is read back as its number or pieces, and a host of any text holds nothing
more to escape.
-/

namespace ServiceCall

/-! ### Domains -/

namespace Domain

theorem isForbidden_of_isDigit {c : Char} (h : c.isDigit = true) : isForbidden c = false := by
  have hsigns : ("%#/:<>?@[\\]^|".toList.all fun x => !x.isDigit) = true := by rfl
  have hsign : "%#/:<>?@[\\]^|".toList.contains c = false := by
    rw [List.contains_eq_mem, decide_eq_false_iff_not]
    intro hc
    simpa [h] using List.all_eq_true.mp hsigns c hc
  have hrange := isDigit_iff.mp h
  rw [isForbidden, hsign, Bool.or_false, Bool.or_eq_false_iff, decide_eq_false_iff_not,
    beq_eq_false_iff_ne]
  omega

variable [Idna]

theorem parse?_eq_some_iff {domain d : List Char} : parse? domain = some d
    ↔ Idna.toAscii? domain = some d ∧ ∀ c ∈ d, isForbidden c = false := by
  simp [parse?, Option.filter_eq_some_iff]

/-- The ASCII form of a domain is its own ASCII form. -/
theorem parse?_self [Idna.Lawful] {domain d : List Char} (h : parse? domain = some d) :
    parse? d = some d := by
  obtain ⟨hascii, hfree⟩ := parse?_eq_some_iff.mp h
  exact parse?_eq_some_iff.mpr ⟨Idna.Lawful.toAscii?_self hascii, hfree⟩

theorem parse?_of_digits [Idna.Lawful] {d : List Char} (h : ∀ c ∈ d, c.isDigit = true ∨ c = '.') :
    parse? d = some d := by
  refine parse?_eq_some_iff.mpr ⟨Idna.Lawful.toAscii?_digits h, fun c hc => ?_⟩
  rcases h c hc with hdigit | rfl
  · exact isForbidden_of_isDigit hdigit
  · decide

end Domain

namespace Host

/-! ### Four bytes as a domain -/

/-- The four bytes of an address, the highest first. -/
def bytesOf (address : Nat) : List Nat :=
  [address / 2 ^ 24 % 256, address / 2 ^ 16 % 256, address / 2 ^ 8 % 256, address % 256]

theorem ipv4Text_eq (address : Nat) :
    ipv4Text address = ['.'].intercalate ((bytesOf address).map decimal) := by
  simp [ipv4Text, bytesOf, List.intercalate_cons_cons]

theorem exists_of_mem_decimal {n : Nat} {c : Char} (h : c ∈ decimal n) :
    ∃ d < 10, c = Nat.digitChar d := exists_of_mem_toDigits (by decide) h

theorem isDigit_or_dot_of_mem_ipv4Text {address : Nat} {c : Char} (h : c ∈ ipv4Text address) :
    c.isDigit = true ∨ c = '.' := by
  rw [ipv4Text_eq] at h
  rcases mem_intercalate h with hdot | ⟨l, hl, hc⟩
  · exact .inr (List.mem_singleton.mp hdot)
  · obtain ⟨n, -, rfl⟩ := List.mem_map.mp hl
    exact .inl (Nat.isDigit_of_mem_toDigits (by decide) (by decide) hc)

/-- The text of an address is taken for an address, and for the right one. -/
theorem ofDomain_ipv4Text {address : Nat} (h : address < 2 ^ 32) :
    ofDomain (ipv4Text address) = .ok (.ipv4 address) := by
  have hparts : ipv4Parts (ipv4Text address) = (bytesOf address).map decimal := by
    have hsplit : (ipv4Text address).splitOn '.' = (bytesOf address).map decimal := by
      rw [ipv4Text_eq]
      apply List.splitOn_intercalate
      · intro l hl hdot
        obtain ⟨n, -, rfl⟩ := List.mem_map.mp hl
        obtain ⟨d, hd, hc⟩ := exists_of_mem_decimal hdot
        have hdigits : ∀ d < 10, '.' ≠ Nat.digitChar d := by decide
        exact hdigits d hd hc
      · exact List.cons_ne_nil _ _
    -- an empty part at the end would be dropped, but a number has a digit
    rw [ipv4Parts, hsplit, if_neg]
    rintro ⟨-, hlast⟩
    exact Nat.toDigits_ne_nil (Option.some.inj hlast)
  have hempty : (ipv4Text address).isEmpty = false := by
    simp [ipv4Text]
  have hends : endsInNumber (ipv4Text address) = true := by
    have hlast : ((bytesOf address).map decimal).getLast? = some (decimal (address % 256)) := rfl
    have hfilled : (decimal (address % 256)).isEmpty = false := by simp [decimal]
    rw [endsInNumber, hparts, hlast]
    simp only [ipv4Number?_decimal, hfilled, Option.isSome_some, Bool.or_true, Bool.not_false,
      Bool.and_self]
  have hnumbers : ((bytesOf address).map decimal).mapM ipv4Number? = some (bytesOf address) :=
    mapM_map_eq_some fun n _ => ipv4Number?_decimal n
  have haddress : ipv4Address? (bytesOf address) = some address := ipv4Address?_bytes h
  rw [ofDomain, hempty, hends, hparts, hnumbers, Option.bind_some, haddress]
  rfl

/-! ### Addresses in brackets -/

theorem exists_of_bracketed {cs : List Char} {host : Host} (h : bracketed cs = .ok host) :
    ∃ pieces, host = .ipv6 pieces ∧ IsAddress pieces := by
  rw [bracketed] at h
  split at h
  · split at h
    · next pieces hpieces =>
      cases h
      exact ⟨pieces, rfl, isAddress_of_ipv6Pieces? hpieces⟩
    · cases h
  · cases h

theorem bracketed_ipv6Text {pieces : List Nat} (h : IsAddress pieces) :
    bracketed (ipv6Text pieces ++ [']']) = .ok (.ipv6 pieces) := by
  rw [bracketed, List.getLast?_concat, if_pos rfl, List.dropLast_concat, ipv6Pieces?_ipv6Text h]

/-! ### Characters before a path -/

/-- The character can stand between the slashes before the host and the path. -/
def isAuthorityChar (c : Char) : Bool := 32 < c.toNat && !"/\\?#".toList.contains c

theorem isAuthorityChar_of_domain {c : Char} (hfree : Domain.isForbidden c = false) :
    isAuthorityChar c = true ∧ c ∉ ['@', ':', '['] := by
  simp [Domain.isForbidden] at hfree
  simp [isAuthorityChar]
  tauto

theorem isAuthorityChar_of_free {c : Char} (hforbidden : isForbidden c = false)
    (hcontrol : Percent.isControl c = false) :
    isAuthorityChar c = true ∧ c ∉ ['@', ':', '['] := by
  have hspace : c ≠ ' ' := by
    rintro rfl
    exact absurd hforbidden (by decide)
  have hlow : 32 < c.toNat := by
    have hne : c.toNat ≠ 32 := fun h => hspace (Char.toNat_inj.mp h)
    simp [Percent.isControl] at hcontrol
    omega
  simp [isForbidden] at hforbidden
  simp [isAuthorityChar]
  tauto

theorem isAuthorityChar_of_ipv6Text {pieces : List Nat} :
    ∀ c ∈ ipv6Text pieces, isAuthorityChar c = true ∧ c ∉ ['@', '[', ']'] := by
  have hdigits : ∀ d < 16, isAuthorityChar (Nat.digitChar d) = true
      ∧ Nat.digitChar d ∉ ['@', '[', ']'] := by decide
  have hpieces : ∀ some : List Nat, ∀ c ∈ piecesText some, isAuthorityChar c = true
      ∧ c ∉ ['@', '[', ']'] := by
    intro some c hc
    rcases mem_intercalate hc with hc | ⟨text, htext, hc⟩
    · rw [List.mem_singleton.mp hc]
      decide
    · obtain ⟨p, -, rfl⟩ := List.mem_map.mp htext
      obtain ⟨d, hd, rfl⟩ := exists_of_mem_toDigits (by decide) hc
      exact hdigits d hd
  intro c hc
  rw [ipv6Text] at hc
  dsimp only at hc
  split at hc
  · exact hpieces _ c hc
  · simp only [List.mem_append, List.mem_cons] at hc
    rcases hc with hc | rfl | rfl | hc
    · exact hpieces _ c hc
    · decide
    · decide
    · exact hpieces _ c hc

/-! ### Hosts that were read -/

section Reading

variable [Idna]

/-- What reading gives, by the rules of special schemes or others. -/
inductive Settled (special : Bool) : Host → Prop where
  | domain {domain d : List Char} (hspecial : special = true)
    (hparse : Domain.parse? domain = some d) (hname : ofDomain d = .ok (.name d)) :
    Settled special (.name d)
  | free {cs : List Char} (hspecial : special = false)
    (hchars : ∀ c ∈ cs, isForbidden c = false ∧ Percent.isControl c = false) :
    Settled special (.name cs)
  | ipv4 {address : Nat} (hspecial : special = true) (hbound : address < 2 ^ 32) :
    Settled special (.ipv4 address)
  | ipv6 {pieces : List Nat} (h : IsAddress pieces) : Settled special (.ipv6 pieces)

theorem settled_of_ofDomain {domain d : List Char} {host : Host}
    (hparse : Domain.parse? domain = some d) (h : ofDomain d = .ok host) : Settled true host := by
  have hread := h
  rw [ofDomain] at h
  split at h
  · cases h
  · split at h
    · split at h
      · next address haddress =>
        cases h
        obtain ⟨numbers, -, hnumbers⟩ := Option.bind_eq_some_iff.mp haddress
        exact .ipv4 rfl (ipv4Address?_lt hnumbers)
      · cases h
    · cases h
      exact .domain rfl hparse hread

theorem settled_of_parse {cs : List Char} {host : Host} (h : parse cs = .ok host) :
    Settled true host := by
  rw [parse.eq_def] at h
  split at h
  · obtain ⟨pieces, rfl, hpieces⟩ := exists_of_bracketed h
    exact .ipv6 hpieces
  · split at h
    · next d hd =>
      obtain ⟨text, -, hparse⟩ := Option.bind_eq_some_iff.mp hd
      exact settled_of_ofDomain hparse h
    · cases h

theorem settled_of_parseAny {cs : List Char} {host : Host} (h : parseAny cs = .ok host) :
    Settled false host := by
  rw [parseAny.eq_def] at h
  split at h
  · obtain ⟨pieces, rfl, hpieces⟩ := exists_of_bracketed h
    exact .ipv6 hpieces
  · split at h
    · cases h
    · next hfree =>
      cases h
      refine .free rfl
        (Percent.forall_mem_encode (by decide) (by decide) fun c hc hcontrol => ⟨?_, hcontrol⟩)
      rw [List.any_eq_true, not_exists] at hfree
      exact Bool.eq_false_iff.mpr fun hforbidden => hfree c ⟨hc, hforbidden⟩

/-! ### Reading a host again -/

/-- A domain that is its own ASCII form is read as it is. -/
theorem parse_of_domain {d : List Char} (hself : Domain.parse? d = some d) : parse d = ofDomain d := by
  have hfree := (Domain.parse?_eq_some_iff.mp hself).2
  have hpercent : '%' ∉ d := fun hc => absurd (hfree _ hc) (by decide)
  have htext : Utf8.decode? (Percent.decode d) = some (String.ofList d) := by
    rw [Percent.decode_of_not_mem hpercent, ← Utf8.decode?_encode, Utf8.encode, String.toList_ofList]
  rw [parse.eq_def]
  split
  · exact absurd (hfree '[' List.mem_cons_self) (by decide)
  · rw [htext, Option.bind_some, String.toList_ofList, hself]

/-- The host of a special scheme is read back from its text. -/
theorem Settled.parse_chars [Idna.Lawful] {host : Host} (h : Settled true host) :
    parse host.chars = .ok host := by
  cases h with
  | domain _ hparse hname =>
    rw [chars, parse_of_domain (Domain.parse?_self hparse), hname]
  | free hspecial => cases hspecial
  | @ipv4 address _ hbound =>
    have hself : Domain.parse? (ipv4Text address) = some (ipv4Text address) :=
      Domain.parse?_of_digits fun _ => isDigit_or_dot_of_mem_ipv4Text
    rw [chars, parse_of_domain hself, ofDomain_ipv4Text hbound]
  | ipv6 h => exact bracketed_ipv6Text h

/-- The host of any other scheme is read back from its text. -/
theorem Settled.parseAny_chars {host : Host} (h : Settled false host) :
    parseAny host.chars = .ok host := by
  cases h with
  | domain hspecial => cases hspecial
  | @free cs _ hchars =>
    have hforbidden : cs.any isForbidden = false := by
      rw [List.any_eq_false]
      exact fun c hc => Bool.not_eq_true _ ▸ (hchars c hc).1
    rw [chars, parseAny.eq_def]
    split
    · exact absurd (hchars '[' List.mem_cons_self).1 (by decide)
    · rw [hforbidden, if_neg (by decide), Percent.encode_eq_self fun c hc => (hchars c hc).2]
  | ipv4 hspecial => cases hspecial
  | ipv6 h => exact bracketed_ipv6Text h

/-! ### The characters of a host -/

/-- The text of a host is a name without colons and brackets, or stands in brackets. -/
theorem Settled.shape {special : Bool} {host : Host} (h : Settled special host) :
    (∀ c ∈ host.chars, isAuthorityChar c = true ∧ c ∉ ['@', ':', '['])
      ∨ ∃ cs, host.chars = '[' :: (cs ++ [']'])
        ∧ ∀ c ∈ cs, isAuthorityChar c = true ∧ c ∉ ['@', '[', ']'] := by
  cases h with
  | domain _ hparse =>
    exact .inl fun c hc =>
      isAuthorityChar_of_domain ((Domain.parse?_eq_some_iff.mp hparse).2 c hc)
  | free _ hchars =>
    exact .inl fun c hc => isAuthorityChar_of_free (hchars c hc).1 (hchars c hc).2
  | ipv4 =>
    refine .inl fun c hc => ?_
    rcases isDigit_or_dot_of_mem_ipv4Text hc with hdigit | rfl
    · exact isAuthorityChar_of_domain (Domain.isForbidden_of_isDigit hdigit)
    · decide
  | ipv6 => exact .inr ⟨_, rfl, isAuthorityChar_of_ipv6Text⟩

theorem Settled.chars_inner {special : Bool} {host : Host} (h : Settled special host) :
    ∀ c ∈ host.chars, isAuthorityChar c = true ∧ c ≠ '@' := by
  intro c hc
  rcases h.shape with hname | ⟨cs, hcs, hinner⟩
  · obtain ⟨hc, hsigns⟩ := hname c hc
    exact ⟨hc, fun h => hsigns (by simp [h])⟩
  · rw [hcs, List.mem_cons, List.mem_append, List.mem_singleton] at hc
    rcases hc with rfl | hc | rfl
    · decide
    · obtain ⟨hc, hsigns⟩ := hinner c hc
      exact ⟨hc, fun h => hsigns (by simp [h])⟩
    · decide

/-! ### Empty hosts -/

/-- No special scheme has an empty host. -/
theorem Settled.chars_ne_nil {host : Host} (h : Settled true host) : host.chars ≠ [] := by
  cases h with
  | domain _ _ hname =>
    rintro rfl
    cases hname
  | free hspecial => cases hspecial
  | ipv4 => simp [chars, ipv4Text]
  | ipv6 => simp [chars]

end Reading

theorem eq_nil_of_parseAny {cs : List Char} {host : Host} (h : parseAny cs = .ok host)
    (hempty : host.chars = []) : cs = [] := by
  rw [parseAny.eq_def] at h
  split at h
  · obtain ⟨pieces, rfl, -⟩ := exists_of_bracketed h
    cases hempty
  · split at h
    · cases h
    · cases h
      exact Percent.eq_nil_of_encode hempty

end Host

end ServiceCall
