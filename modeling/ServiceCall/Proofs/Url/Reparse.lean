import ServiceCall.Proofs.Url.Reading

/-!
# URLs read back

The text of a URL without query and fragment is a text that is read, and never as a URL with a query
or fragment: all parts are escaped, and the slashes before the path are told from its own. But for the
host of a file, what is read is the URL itself.
-/

namespace ServiceCall.Url

open Host (isAuthorityChar)

variable {u : Url} {items : List (List Char)}

/-! ### What a text drops -/

/-- A text without blanks and controls counts as it is. -/
theorem clean_of_visible {cs : List Char} (h : ∀ c ∈ cs, 32 < c.toNat) : clean cs = cs := by
  have houter : ∀ {cs : List Char}, (∀ c ∈ cs, 32 < c.toNat) → cs.dropWhile isOuter = cs := by
    intro cs h
    cases cs with
    | nil => rfl
    | cons c cs =>
      have hc := h c List.mem_cons_self
      exact List.dropWhile_cons_of_neg (by simp [isOuter, hc])
  have hskipped : ∀ c ∈ cs, (!isSkipped c) = true := by
    intro c hc
    have hc := h c hc
    simp only [isSkipped, Bool.not_eq_true', Bool.or_eq_false_iff, beq_eq_false_iff_ne]
    refine ⟨⟨?_, ?_⟩, ?_⟩ <;> rintro rfl <;> exact absurd hc (by decide)
  have hreverse : ∀ c ∈ cs.reverse, 32 < c.toNat := fun c hc => h c (List.mem_reverse.mp hc)
  rw [clean, houter h, houter hreverse, List.reverse_reverse, List.filter_eq_self.mpr hskipped]

theorem lt_of_isAuthorityChar {c : Char} (h : isAuthorityChar c = true) : 32 < c.toNat := by
  rw [isAuthorityChar, Bool.and_eq_true] at h
  exact of_decide_eq_true h.1

theorem lt_of_isSchemeChar {c : Char} (h : isSchemeChar c = true) : 32 < c.toNat := by
  simp only [isSchemeChar, Char.isAlphanum, Bool.or_eq_true, isAlpha_iff, isDigit_iff,
    beq_iff_eq] at h
  rcases h with (((((h | h) | h) | rfl) | rfl) | rfl)
  · omega
  · omega
  · omega
  · decide
  · decide
  · decide

/-- The characters of a path of segments. -/
theorem Segmented.chars {kind : SchemeKind} (h : Segmented kind items) :
    ∀ c ∈ segmentsChars items, 32 < c.toNat ∧ c ≠ '?' ∧ c ≠ '#' := by
  intro c hc
  obtain ⟨s, hs, hc⟩ := List.mem_flatMap.mp hc
  rcases List.mem_cons.mp hc with rfl | hc
  · decide
  · exact Percent.visible_of_inPath ((h s hs).chars c hc).1

theorem IsScheme.takeScheme? {scheme : List Char} (h : IsScheme scheme) (rest : List Char) :
    takeScheme? (scheme ++ ':' :: rest) = some (scheme, rest) := by
  obtain ⟨htake, hdrop⟩ : (scheme ++ ':' :: rest).takeWhile isSchemeChar = scheme
      ∧ (scheme ++ ':' :: rest).dropWhile isSchemeChar = ':' :: rest :=
    span_append (fun c hc => (h.chars c hc).1) (by simp; decide)
  obtain ⟨c, tail, hcons, halpha⟩ := h.head
  have hsmall : scheme.map Char.toLower = scheme :=
    (List.map_congr_left fun c hc => (h.chars c hc).2).trans (List.map_id _)
  rw [Url.takeScheme?, hdrop]
  dsimp only
  rw [htake, hsmall, hcons]
  exact if_pos halpha

theorem splitTail_of_chars {cs : List Char} (h : ∀ c ∈ cs, 32 < c.toNat ∧ c ≠ '?' ∧ c ≠ '#') :
    splitTail cs = (cs, none, none) := by
  rw [splitTail, atFirst?_eq_none fun hhash => (h _ hhash).2.2 rfl]
  dsimp only
  rw [atFirst?_eq_none fun hquestion => (h _ hquestion).2.1 rfl]

theorem assemble_self (hquery : u.query = none) (hfragment : u.fragment = none) :
    assemble u.scheme u.authority u.path none none = u := by
  obtain ⟨scheme, authority, path, query, fragment⟩ := u
  cases hquery
  cases hfragment
  rfl

/-- No slash is lost between the slashes that open an authority and the path. -/
theorem dropWhile_slashes {cs rest : List Char} (hne : cs ≠ [])
    (hcs : ∀ c ∈ cs, isAuthorityChar c = true) :
    ('/' :: '/' :: (cs ++ rest)).dropWhile (fun c => c == '/' || c == '\\') = cs ++ rest := by
  obtain ⟨c, tail, rfl⟩ := List.exists_cons_of_ne_nil hne
  have hc := hcs c List.mem_cons_self
  simp [isAuthorityChar] at hc
  simp [hc]

section Reading

variable [Idna]

/-! ### What a URL with a path of segments is written as -/

theorem IsLead.isAuthorityChar_chars {scheme : List Char} {a : Authority}
    (h : IsLead scheme (some a)) : ∀ c ∈ a.chars, isAuthorityChar c = true := by
  cases h with
  | network _ ha => exact ha.isAuthorityChar_chars
  | @file host _ hhost =>
    intro c hc
    have hchars : (Authority.mk [] none host none).chars = host.chars := by
      simp [Authority.chars, Authority.credentials]
    rw [hchars] at hc
    rcases hhost with rfl | hhost
    · cases hc
    · exact (hhost.chars_inner c hc).1

theorem Settled.chars_eq (h : u.Settled items) (hquery : u.query = none)
    (hfragment : u.fragment = none) :
    u.chars = u.scheme ++ ':' :: (u.lead ++ segmentsChars items) := by
  rw [Url.chars, h.path, hquery, hfragment, behind, behind, List.append_nil, List.append_nil,
    List.append_assoc, List.cons_append]
  rfl

/-- What stands before the path holds no end of it. -/
theorem Settled.lead_chars (h : u.Settled items) :
    ∀ c ∈ u.lead, 32 < c.toNat ∧ c ≠ '?' ∧ c ≠ '#' := by
  intro c hc
  rw [Url.lead] at hc
  have hlead := h.lead
  split at hc
  · next a hauthority =>
    rw [hauthority] at hlead
    rcases List.mem_cons.mp hc with rfl | hc
    · decide
    rcases List.mem_cons.mp hc with rfl | hc
    · decide
    have hchar := hlead.isAuthorityChar_chars c hc
    refine ⟨lt_of_isAuthorityChar hchar, ?_, ?_⟩ <;> rintro rfl <;> exact absurd hchar (by decide)
  · simp only [List.mem_cons, List.not_mem_nil, or_false] at hc
    rcases hc with rfl | rfl <;> decide
  · cases hc

/-! ### The steps of the reader -/

/-- What stands behind the scheme and its colon, read by the rules of the scheme. -/
def readBehind (scheme rest : List Char) : Except Error Url :=
  match schemeKind scheme with
  | .web => readNetwork scheme (rest.dropWhile fun c => c == '/' || c == '\\')
  | .file => readFile scheme rest
  | .other => readOther scheme rest

/-- The text is read by the rules of its scheme, from behind the first colon on. -/
theorem Settled.parse_text_eq (h : u.Settled items) (hquery : u.query = none)
    (hfragment : u.fragment = none) :
    parse u.text = readBehind u.scheme (u.lead ++ segmentsChars items) := by
  have hvisible : ∀ c ∈ u.chars, 32 < c.toNat := by
    intro c hc
    rw [h.chars_eq hquery hfragment, List.mem_append, List.mem_cons, List.mem_append] at hc
    rcases hc with hc | rfl | hc | hc
    · exact lt_of_isSchemeChar (h.scheme.chars c hc).1
    · decide
    · exact (h.lead_chars c hc).1
    · exact (h.segmented.chars c hc).1
  rw [parse, text, String.toList_ofList, parseChars, clean_of_visible hvisible,
    h.chars_eq hquery hfragment, h.scheme.takeScheme?]
  rfl

/-- Behind its two slashes, an authority ends where the path starts. -/
theorem readNetwork_chars [Idna.Lawful] {scheme : List Char} {a : Authority} (ha : a.Settled scheme)
    (hkind : schemeKind scheme ≠ .file) (hsegmented : Segmented (schemeKind scheme) items)
    (hfilled : (schemeKind scheme).isSpecial = true → items ≠ []) :
    readNetwork scheme (a.chars ++ segmentsChars items)
      = .ok (assemble scheme (some a) (.segments items) none none) := by
  -- no character of the authority ends it, and the path starts with one that does
  have hinside : ∀ c ∈ a.chars, (!endsAuthority (schemeKind scheme) c) = true := by
    intro c hc
    have hchar := ha.isAuthorityChar_chars c hc
    simp [isAuthorityChar] at hchar
    simp [endsAuthority, isSlash, hchar]
  have hend : ∀ c ∈ (segmentsChars items).head?, (!endsAuthority (schemeKind scheme) c) = false := by
    intro c hc
    cases items with
    | nil => cases hc
    | cons s items =>
      rw [segmentsChars_cons, List.head?_cons, Option.mem_some_iff] at hc
      simp [← hc, endsAuthority, isSlash]
  obtain ⟨htake, hdrop⟩ := span_append hinside hend
  rw [readNetwork]
  dsimp only
  rw [htake, hdrop, ha.readAuthority_chars]
  show Except.ok _ = _
  rw [List.nil_append, splitTail_of_chars hsegmented.chars]
  dsimp only
  rw [readPath_segmentsChars hkind hsegmented hfilled]

/-! ### The text of a URL -/

theorem Authority.Settled.chars_ne_nil {scheme : List Char} {a : Authority} (h : a.Settled scheme)
    (hspecial : (schemeKind scheme).isSpecial = true) : a.chars ≠ [] := by
  intro hnil
  rw [Authority.chars_eq, List.append_eq_nil_iff, List.append_eq_nil_iff] at hnil
  exact (hspecial ▸ h.host).chars_ne_nil hnil.2.1

theorem Settled.parse_text_network [Idna.Lawful] (h : u.Settled items) (hquery : u.query = none)
    (hfragment : u.fragment = none) (hkind : schemeKind u.scheme ≠ .file) {a : Authority}
    (hauthority : u.authority = some a) : parse u.text = .ok u := by
  have ha : a.Settled u.scheme := by
    have hlead := h.lead
    rw [hauthority] at hlead
    cases hlead with
    | network _ ha => exact ha
    | file hfile => exact absurd hfile hkind
  have hlead : u.lead = '/' :: '/' :: a.chars := by
    rw [Url.lead, hauthority]
  have hread : readNetwork u.scheme (a.chars ++ segmentsChars items) = .ok u := by
    rw [readNetwork_chars ha hkind h.segmented fun hspecial => h.filled (.inl hspecial),
      ← hauthority, ← h.path, assemble_self hquery hfragment]
  rw [h.parse_text_eq hquery hfragment, readBehind, hlead, List.cons_append, List.cons_append]
  -- a web scheme takes any number of slashes, a scheme without rules just two
  cases hscheme : schemeKind u.scheme with
  | web =>
    have hne : a.chars ≠ [] := ha.chars_ne_nil (by rw [hscheme]; rfl)
    dsimp only
    rw [dropWhile_slashes hne ha.isAuthorityChar_chars, hread]
  | file => exact absurd hscheme hkind
  | other => exact hread

/-- What starts with one slash is read as a path. -/
theorem readOther_slash {scheme path : List Char} (hslash : path.head? ≠ some '/')
    (hpath : ∀ c ∈ path, 32 < c.toNat ∧ c ≠ '?' ∧ c ≠ '#') :
    readOther scheme ('/' :: path)
      = .ok (assemble scheme none (.segments (readSegments .other path)) none none) := by
  have hchars : ∀ c ∈ '/' :: path, 32 < c.toNat ∧ c ≠ '?' ∧ c ≠ '#' :=
    List.forall_mem_cons.mpr ⟨by decide, hpath⟩
  rw [readOther.eq_def]
  split
  · next rest heq =>
    cases heq
    exact absurd rfl hslash
  · rw [splitTail_of_chars hchars]
    rfl

/-- A path that does not start with two slashes is read as its segments. -/
theorem readOther_segmentsChars {scheme s : List Char} {rest : List (List Char)}
    (h : Segmented .other (s :: rest)) (hplain : s = [] → rest = []) :
    readOther scheme (segmentsChars (s :: rest))
      = .ok (assemble scheme none (.segments (s :: rest)) none none) := by
  have hslash : (s ++ segmentsChars rest).head? ≠ some '/' := by
    cases s with
    | nil => simp [hplain rfl, segmentsChars]
    | cons c s =>
      intro hc
      rw [List.cons_append, List.head?_cons, Option.some.injEq] at hc
      exact h.slash_not_mem _ List.mem_cons_self (hc ▸ List.mem_cons_self)
  have hchars : ∀ c ∈ s ++ segmentsChars rest, 32 < c.toNat ∧ c ≠ '?' ∧ c ≠ '#' := by
    intro c hc
    exact h.chars c (by rw [segmentsChars_cons]; exact List.mem_cons_of_mem _ hc)
  rw [segmentsChars_cons, readOther_slash hslash hchars, readSegments_segmentsChars (by decide) h]

/-- The dot that stands before two slashes is read away. -/
theorem readOther_dot {scheme : List Char} {s : List Char} {rest : List (List Char)}
    (h : Segmented .other (s :: rest)) :
    readOther scheme ('/' :: '.' :: segmentsChars (s :: rest))
      = .ok (assemble scheme none (.segments (s :: rest)) none none) := by
  rw [readOther_slash (by simp) (List.forall_mem_cons.mpr ⟨by decide, h.chars⟩),
    readSegments_dot (by decide) h]

theorem Settled.lead_of_plain {s : List Char} {rest : List (List Char)} (h : u.Settled (s :: rest))
    (hauthority : u.authority = none) (hplain : s = [] → rest = []) : u.lead = [] := by
  rw [Url.lead, hauthority, h.path]
  split
  · next heq => cases heq
  · next heq =>
    cases heq
    exact absurd (hplain rfl) (List.cons_ne_nil _ _)
  · rfl

theorem Settled.lead_of_slashes {s : List Char} {rest : List (List Char)}
    (h : u.Settled ([] :: s :: rest)) (hauthority : u.authority = none) : u.lead = ['/', '.'] := by
  rw [Url.lead, hauthority, h.path]

theorem Settled.schemeKind_of_bare (h : u.Settled items) (hauthority : u.authority = none) :
    schemeKind u.scheme = .other := by
  have hlead := h.lead
  rw [hauthority] at hlead
  cases hlead with
  | bare hkind => exact hkind

theorem Settled.parse_text_bare (h : u.Settled items) (hquery : u.query = none)
    (hfragment : u.fragment = none) (hauthority : u.authority = none) : parse u.text = .ok u := by
  have hother := h.schemeKind_of_bare hauthority
  have hsegmented : Segmented .other items := hother ▸ h.segmented
  have hread : readOther u.scheme (u.lead ++ segmentsChars items)
      = .ok (assemble u.scheme none (.segments items) none none) := by
    obtain ⟨s, rest, rfl⟩ := List.exists_cons_of_ne_nil (h.filled (.inr hauthority))
    -- two slashes at the start would be read as those of an authority, so a dot stands before them
    by_cases hplain : s = [] → rest = []
    · rw [h.lead_of_plain hauthority hplain]
      exact readOther_segmentsChars hsegmented hplain
    · obtain ⟨rfl, hrest⟩ := Classical.not_imp.mp hplain
      obtain ⟨t, rest, rfl⟩ := List.exists_cons_of_ne_nil hrest
      rw [h.lead_of_slashes hauthority]
      exact readOther_dot hsegmented
  rw [h.parse_text_eq hquery hfragment, readBehind, hother]
  dsimp only
  rw [hread, ← hauthority, ← h.path, assemble_self hquery hfragment]

/-- A URL of any scheme but that of files is read back from its text. -/
theorem Settled.parse_text [Idna.Lawful] (h : u.Settled items) (hquery : u.query = none)
    (hfragment : u.fragment = none) (hkind : schemeKind u.scheme ≠ .file) :
    parse u.text = .ok u := by
  cases hauthority : u.authority with
  | some a => exact h.parse_text_network hquery hfragment hkind hauthority
  | none => exact h.parse_text_bare hquery hfragment hauthority

theorem readFileHost_chars [Idna.Lawful] {host : Host} (h : host = .name [] ∨ host.Settled true) :
    ∃ own, readFileHost host.chars = .ok own := by
  rcases h with rfl | h
  · exact ⟨_, rfl⟩
  · have hne : host.chars.isEmpty = false := List.isEmpty_eq_false_iff.mpr h.chars_ne_nil
    rw [readFileHost, hne, h.parse_chars]
    exact ⟨_, rfl⟩

/-- A file has a host or none, and no user and port. -/
theorem Settled.exists_fileHost (h : u.Settled items) (hkind : schemeKind u.scheme = .file) :
    ∃ host, u.authority = some { host } ∧ (host = .name [] ∨ host.Settled true) := by
  have hlead := h.lead
  generalize u.authority = authority at hlead ⊢
  cases hlead with
  | network hnot => exact absurd hkind hnot
  | file _ hhost => exact ⟨_, rfl, hhost⟩
  | bare hother => exact absurd (hkind.symm.trans hother) (by decide)

/-- The host of a file ends where its path starts. -/
theorem takeWhile_fileHost {host : Host} (h : host = .name [] ∨ host.Settled true)
    (items : List (List Char)) :
    (host.chars ++ segmentsChars items).takeWhile (!isSlash .file ·) = host.chars := by
  refine (span_append (fun c hc => ?_) fun c hc => ?_).1
  · have hchar : isAuthorityChar c = true := by
      rcases h with rfl | h
      · cases hc
      · exact (h.chars_inner c hc).1
    simp [isAuthorityChar] at hchar
    simp [isSlash, hchar]
  · cases items with
    | nil => cases hc
    | cons s items =>
      rw [segmentsChars_cons, List.head?_cons, Option.mem_some_iff] at hc
      rw [← hc]
      rfl

/-- The text of a file is read too, if only with another host where the path starts with a drive. -/
theorem Settled.exists_parse_text_file [Idna.Lawful] (h : u.Settled items) (hquery : u.query = none)
    (hfragment : u.fragment = none) (hkind : schemeKind u.scheme = .file) :
    ∃ own, parse u.text = .ok own ∧ own.query = none := by
  obtain ⟨host, hauthority, hhost⟩ := h.exists_fileHost hkind
  have hlead : u.lead = '/' :: '/' :: host.chars := by
    rw [Url.lead, hauthority]
    simp [Authority.chars, Authority.credentials]
  have hchars : ∀ c ∈ u.lead ++ segmentsChars items, 32 < c.toNat ∧ c ≠ '?' ∧ c ≠ '#' :=
    List.forall_mem_append.mpr ⟨h.lead_chars, h.segmented.chars⟩
  rw [h.parse_text_eq hquery hfragment, readBehind, hkind]
  dsimp only
  rw [hlead] at hchars ⊢
  rw [readFile, splitTail_of_chars hchars]
  dsimp only [List.cons_append]
  rw [if_pos (by decide), takeWhile_fileHost hhost]
  -- a host that names a drive is read as the start of the path
  split
  · exact ⟨_, rfl, rfl⟩
  · obtain ⟨own, hown⟩ := readFileHost_chars hhost
    rw [hown]
    exact ⟨_, rfl, rfl⟩

/-- The text of a URL without query and fragment is read as a URL without query. -/
theorem Settled.exists_parse_text [Idna.Lawful] (h : u.Settled items) (hquery : u.query = none)
    (hfragment : u.fragment = none) : ∃ own, parse u.text = .ok own ∧ own.query = none := by
  by_cases hkind : schemeKind u.scheme = .file
  · exact h.exists_parse_text_file hquery hfragment hkind
  · exact ⟨u, h.parse_text hquery hfragment hkind, hquery⟩

end Reading

end ServiceCall.Url
