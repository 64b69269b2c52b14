import ServiceCall.Proofs.Url.Address
import ServiceCall.Text.Quoted

/-!
# Quoted text read back

Between quotes a backslash opens an escape: a letter, or a code point in hexadecimal between braces.
The text ends at the first quote that is not part of an escape. Every text is read back from its
quoted form, whatever follows, and the quoted form holds no hidden character.
-/

namespace ServiceCall.Quoted

/-- Where a reader of quoted text stands. -/
inductive Place where
  /-- Behind whole characters. -/
  | content
  | backslash
  /-- Behind a backslash and a `u`. -/
  | code
  /-- Between the braces of a code point, behind these digits. -/
  | digits (read : List Char)

/-- The character that a letter behind a backslash stands for. -/
def letter? (c : Char) : Option Char :=
  if c == '\\' || c == '"' then some c
  else if c == '0' then some '\x00'
  else if c == 't' then some '\t'
  else if c == 'r' then some '\r'
  else if c == 'n' then some '\n'
  else none

/-- The character of a code point in hexadecimal. -/
def codePoint? (digits : List Char) : Option Char :=
  let code := Host.valueIn 16 digits
  if digits ≠ [] ∧ digits.all (fun d => (Percent.hexValue? d).isSome) = true ∧ code.isValidChar then
    some (Char.ofNat code)
  else none

/-- One more character in front of a text that is read. -/
def prepend (c : Char) (read : Option (List Char × List Char)) : Option (List Char × List Char) :=
  read.map fun (content, behind) => (c :: content, behind)

/-- Reads the content of a quoted text from a place on, and what follows its closing quote. -/
def readFrom : Place → List Char → Option (List Char × List Char)
  | _, [] => none
  | .content, c :: rest =>
    if c = '"' then some ([], rest)
    else if c = '\\' then readFrom .backslash rest
    else prepend c (readFrom .content rest)
  | .backslash, c :: rest =>
    match letter? c with
    | some d => prepend d (readFrom .content rest)
    | none => if c = 'u' then readFrom .code rest else none
  | .code, c :: rest => if c = '\x7b' then readFrom (.digits []) rest else none
  | .digits read, c :: rest =>
    if c = '\x7d' then
      match codePoint? read with
      | some d => prepend d (readFrom .content rest)
      | none => none
    else readFrom (.digits (read ++ [c])) rest

/-- Reads a quoted text behind its opening quote. -/
def read? (cs : List Char) : Option (List Char × List Char) := readFrom .content cs

/-- How a character stands between quotes. -/
inductive Escaped (c : Char) : List Char → Prop where
  | letter {l : Char} (short : letter? l = some c) : Escaped c ['\\', l]
  | code : Escaped c ('\\' :: 'u' :: '\x7b' :: hexDigits c.toNat ++ ['\x7d'])
  | plain (noQuote : c ≠ '"') (noBackslash : c ≠ '\\') (shown : Hidden.isHidden c = false) :
      Escaped c [c]

theorem escaped_escape (c : Char) : Escaped c (escape c) := by
  unfold escape
  split
  · next h => exact eq_of_beq h ▸ .letter rfl
  split
  · next h => exact eq_of_beq h ▸ .letter rfl
  split
  · next h => exact eq_of_beq h ▸ .letter rfl
  split
  · next h => exact eq_of_beq h ▸ .letter rfl
  split
  · next h => exact .letter (by rw [letter?, if_pos h])
  split
  · exact .code
  · next hself hhidden =>
    simp only [Bool.or_eq_true, beq_iff_eq, not_or] at hself
    exact .plain hself.2 hself.1 (eq_false_of_ne_true hhidden)

/-! ### Reading back -/

theorem codePoint?_hexDigits (c : Char) : codePoint? (hexDigits c.toNat) = some c := by
  have hvalue : Host.valueIn 16 (hexDigits c.toNat) = c.toNat :=
    Host.valueIn_toDigits (by decide) (by decide) c.toNat
  have hdigits : (hexDigits c.toNat).all (fun d => (Percent.hexValue? d).isSome) = true := by
    refine List.all_eq_true.mpr fun d hd => ?_
    obtain ⟨n, hn, rfl⟩ := exists_of_mem_toDigits (by decide) hd
    rw [Host.hexValue?_digitChar n hn]
    rfl
  have hne : hexDigits c.toNat ≠ [] := Nat.toDigits_ne_nil
  have hvalid : c.toNat.isValidChar := c.valid
  simp only [codePoint?, hvalue]
  rw [if_pos ⟨hne, hdigits, hvalid⟩, Char.ofNat_toNat]

theorem readFrom_digits {more : List Char} (h : '\x7d' ∉ more) (read rest : List Char) :
    readFrom (.digits read) (more ++ '\x7d' :: rest)
      = match codePoint? (read ++ more) with
        | some d => prepend d (readFrom .content rest)
        | none => none := by
  induction more generalizing read with
  | nil => simp [readFrom]
  | cons c more ih =>
    rw [List.mem_cons, not_or] at h
    rw [List.cons_append, readFrom, if_neg (Ne.symm h.1), ih h.2, List.append_assoc,
      List.singleton_append]

theorem not_mem_hexDigits {n : Nat} {c : Char} (h : Percent.hexValue? c = none) :
    c ∉ hexDigits n := by
  intro hc
  obtain ⟨d, hd, rfl⟩ := exists_of_mem_toDigits (by decide) hc
  rw [Host.hexValue?_digitChar d hd] at h
  cases h

/-- An escape is read as its character, whatever follows. -/
theorem Escaped.readFrom_append {c : Char} {cs : List Char} (h : Escaped c cs) (rest : List Char) :
    readFrom .content (cs ++ rest) = prepend c (readFrom .content rest) := by
  cases h with
  | letter short => simp [readFrom, short]
  | code =>
    have hclose : '\x7d' ∉ hexDigits c.toNat := not_mem_hexDigits (by decide)
    have hu : letter? 'u' = none := by decide
    have hcode := readFrom_digits hclose [] rest
    rw [List.nil_append, codePoint?_hexDigits] at hcode
    simpa [readFrom, hu] using hcode
  | plain noQuote noBackslash _ => simp [readFrom, noQuote, noBackslash]

/-- A text is read back from its quoted form. -/
theorem read?_quoted (cs rest : List Char) :
    read? (cs.flatMap escape ++ '"' :: rest) = some (cs, rest) := by
  rw [read?]
  induction cs with
  | nil => simp [readFrom]
  | cons c cs ih =>
    rw [List.flatMap_cons, List.append_assoc, (escaped_escape c).readFrom_append, ih, prepend,
      Option.map_some]

/-- What follows a quoted text is shorter than what it was read from. -/
theorem length_of_readFrom {place : Place} {cs content behind : List Char}
    (h : readFrom place cs = some (content, behind)) : behind.length < cs.length := by
  -- wherever the reader is, it takes one character before it goes on
  induction cs generalizing place content with
  | nil => cases place <;> cases h
  | cons c cs ih =>
    have hlater {p : Place} {d : Char} (h : prepend d (readFrom p cs) = some (content, behind)) :
        behind.length < (c :: cs).length := by
      obtain ⟨⟨read, rest⟩, hread, heq⟩ := Option.map_eq_some_iff.mp h
      cases heq
      exact Nat.lt_succ_of_lt (ih hread)
    cases place with
    | content =>
      rw [readFrom] at h
      split at h
      · cases h
        exact Nat.lt_succ_self _
      split at h
      · exact Nat.lt_succ_of_lt (ih h)
      · exact hlater h
    | backslash =>
      rw [readFrom] at h
      split at h
      · exact hlater h
      split at h
      · exact Nat.lt_succ_of_lt (ih h)
      · cases h
    | code =>
      rw [readFrom] at h
      split at h
      · exact Nat.lt_succ_of_lt (ih h)
      · cases h
    | digits read =>
      rw [readFrom] at h
      split at h
      · split at h
        · exact hlater h
        · cases h
      · exact Nat.lt_succ_of_lt (ih h)

/-! ### Hidden characters -/

theorem isHidden_digitChar : ∀ d < 16, Hidden.isHidden (Nat.digitChar d) = false := by decide

theorem isHidden_of_letter? {l c : Char} (h : letter? l = some c) : Hidden.isHidden l = false := by
  have hshown : ['\\', '"', '0', 't', 'r', 'n'].all (!Hidden.isHidden ·) = true := by decide
  have hletter : l ∈ ['\\', '"', '0', 't', 'r', 'n'] := by
    by_contra hl
    simp only [List.mem_cons, List.not_mem_nil, or_false, not_or] at hl
    simp [letter?, hl] at h
  simpa using List.all_eq_true.mp hshown l hletter

theorem Escaped.shown {c : Char} {cs : List Char} (h : Escaped c cs) :
    ∀ d ∈ cs, Hidden.isHidden d = false := by
  cases h with
  | letter short =>
    rw [List.forall_mem_cons, List.forall_mem_singleton]
    exact ⟨by decide, isHidden_of_letter? short⟩
  | code =>
    intro d hd
    simp only [List.mem_append, List.mem_cons, List.not_mem_nil, or_false] at hd
    rcases hd with ((rfl | rfl | rfl | hd) | rfl)
    · decide
    · decide
    · decide
    · obtain ⟨n, hn, rfl⟩ := exists_of_mem_toDigits (by decide) hd
      exact isHidden_digitChar n hn
    · decide
  | plain _ _ shown => rwa [List.forall_mem_singleton]

theorem isHidden_of_mem_quoteChars {cs : List Char} :
    ∀ d ∈ quoteChars cs, Hidden.isHidden d = false := by
  intro d hd
  simp only [quoteChars, List.mem_append, List.mem_cons, List.mem_flatMap, List.not_mem_nil,
    or_false] at hd
  rcases hd with ((rfl | ⟨c, -, hd⟩) | rfl)
  · decide
  · exact (escaped_escape c).shown d hd
  · decide

end ServiceCall.Quoted
