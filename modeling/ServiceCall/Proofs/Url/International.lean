import ServiceCall.Proofs.Text.Folding
import ServiceCall.Proofs.Text.Pieces
import ServiceCall.Proofs.Url.Punycode
import ServiceCall.Url.International

/-!
# International names read again

The rules for international names keep their promises: what they give is given again for itself. A folded
character is folded to itself, and a label in Punycode is read as the label that it was written for.
-/

namespace ServiceCall.Domain

open Folding

variable {c d : Char}

/-! ### Folded characters -/

/-- The code points that are not just folded to small letters. -/
def IsSpecial (n : Nat) : Prop :=
  n ∈ [46, 0xAD, 0x200B, 0x2060, 0x3002, 0xFEFF, 0xFF61] ∨ 0xFE00 ≤ n ∧ n ≤ 0xFE0F
    ∨ 0xFF01 ≤ n ∧ n ≤ 0xFF5E

theorem fold_of_not_isSpecial (h : ¬ IsSpecial c.toNat) : fold c = [lower c] := by
  have hdot : c ≠ '.' := by
    rintro rfl
    exact h (.inl (by decide))
  simp only [IsSpecial, List.mem_cons, List.not_mem_nil, or_false, not_or] at h
  have hdropped : isDropped c = false := by
    simp [isDropped]
    omega
  have hplain : isDot c = false := by
    simp [isDot, hdot]
    omega
  have hwide : ¬ (0xFF01 ≤ c.toNat ∧ c.toNat ≤ 0xFF5E) := by omega
  simp [fold, hdropped, hplain, hwide]

/-- The small letters of the stretches are not special, but for those of full width. -/
theorem not_isSpecial_small {s : Nat × Nat × Nat × Int} {n : Nat} (hs : s ∈ capitals)
    (hin : InStretch n s) (h : ¬ IsSpecial n) : ¬ IsSpecial (small s n) := by
  have hall : ∀ s ∈ capitals, s.1 = 0xFF21 ∧ s.2.1 = 0xFF3A
      ∨ 46 < small s s.1 ∧ ∀ i ∈ [(0xAD, 0xAD), (0x200B, 0x2060), (0x3002, 0x3002), (0xFE00, 0xFF61)],
        small s s.2.1 < i.1 ∨ i.2 < small s s.1 := by
    decide +kernel
  have hshift := (isSound_of_mem hs).shift
  obtain ⟨hfirst, hlast, -⟩ := hin
  simp only [IsSpecial, small, List.mem_cons, List.not_mem_nil, or_false] at *
  rcases hall s hs with ⟨hwide, hwide'⟩ | ⟨hdot, hclear⟩
  · omega
  · have h1 := hclear (0xAD, 0xAD) (by simp)
    have h2 := hclear (0x200B, 0x2060) (by simp)
    have h3 := hclear (0x3002, 0x3002) (by simp)
    have h4 := hclear (0xFE00, 0xFF61) (by simp)
    omega

theorem fold_dot : fold '.' = ['.'] := by rfl

theorem fold_of_ascii (h : c.toNat < 128) (hsmall : c.toLower = c) : fold c = [c] := by
  by_cases hdot : c = '.'
  · rw [hdot, fold_dot]
  · have hplain : ¬ IsSpecial c.toNat := by
      have hne : c.toNat ≠ 46 := fun heq => hdot (Char.toNat_inj.mp heq)
      simp only [IsSpecial, List.mem_cons, List.not_mem_nil, or_false]
      omega
    rw [fold_of_not_isSpecial hplain, lower_of_ascii h, hsmall]

/-- The narrow form of a character of full width is folded. -/
theorem fold_narrow (h : 0xFF01 ≤ c.toNat ∧ c.toNat ≤ 0xFF5E) :
    fold (Char.ofNat (c.toNat - 0xFEE0)).toLower = [(Char.ofNat (c.toNat - 0xFEE0)).toLower] := by
  have hvalid : (c.toNat - 0xFEE0).isValidChar := .inl (by omega)
  have hnarrow : (Char.ofNat (c.toNat - 0xFEE0)).toNat < 127 := by
    rw [Char.ofNat, dif_pos hvalid]
    show c.toNat - 0xFEE0 < 127
    omega
  refine fold_of_ascii ?_ (toLower_toLower _)
  rw [toNat_toLower]
  split <;> omega

/-- The small letter of a character that is not special is folded. -/
theorem fold_lower (h : ¬ IsSpecial c.toNat) : fold (lower c) = [lower c] := by
  by_cases hascii : (lower c).toNat < 128
  · refine fold_of_ascii hascii ?_
    rw [← lower_of_ascii hascii, lower_lower]
  · -- Beyond ASCII the small letter could be special itself, which the table of capitals rules out.
    have hlate : ¬ IsSpecial (lower c).toNat := by
      rcases Nat.lt_or_ge c.toNat 128 with hearly | hbeyond
      · rw [lower_of_ascii hearly, toNat_toLower] at hascii
        split at hascii <;> omega
      · rcases lower_cases hbeyond with ⟨hself, -⟩ | ⟨s, hs, hin, hsmall⟩
        · rwa [hself]
        · rw [hsmall]
          exact not_isSpecial_small hs hin h
    rw [fold_of_not_isSpecial hlate, lower_lower]

/-- A folded character is folded to itself. -/
theorem fold_of_mem_fold (h : d ∈ fold c) : fold d = [d] := by
  simp only [fold] at h
  split at h
  · cases h
  split at h
  · rw [List.mem_singleton.mp h, fold_dot]
  split at h
  · next hwide =>
    rw [List.mem_singleton.mp h]
    exact fold_narrow (by simpa using hwide)
  · next hdropped hdot hwide =>
    have hdot : c ≠ '.' ∧ c.toNat ≠ 0x3002 ∧ c.toNat ≠ 0xFF0E ∧ c.toNat ≠ 0xFF61 := by
      simpa [isDot, and_assoc] using hdot
    have hne : c.toNat ≠ 46 := fun heq => hdot.1 (Char.toNat_inj.mp heq)
    have hplain : ¬ IsSpecial c.toNat := by
      simp only [IsSpecial, isDropped, List.mem_cons, List.not_mem_nil, or_false, Bool.or_eq_true,
        Bool.and_eq_true, decide_eq_true_eq, beq_iff_eq] at *
      omega
    rw [List.mem_singleton.mp h, fold_lower hplain]

/-! ### Labels -/

/-- The characters of a text are folded. -/
def IsFolded (cs : List Char) : Prop := ∀ c ∈ cs, fold c = [c]

theorem isFolded_flatMap (cs : List Char) : IsFolded (cs.flatMap fold) := by
  intro d hd
  obtain ⟨c, -, hd⟩ := List.mem_flatMap.mp hd
  exact fold_of_mem_fold hd

theorem IsFolded.flatMap {cs : List Char} (h : IsFolded cs) : cs.flatMap fold = cs := by
  induction cs with
  | nil => rfl
  | cons c cs ih =>
    obtain ⟨hc, hcs⟩ := List.forall_mem_cons.mp h
    rw [List.flatMap_cons, hc, ih hcs, List.singleton_append]

/-- The character can stand in a label that is in ASCII. -/
structure IsPlain (c : Char) : Prop where
  early : c.toNat < 128
  folded : fold c = [c]
  inner : c ≠ '.'

theorem isPlain_of_isDigit (h : Punycode.IsDigit c) : IsPlain c := by
  obtain ⟨n, hn, rfl⟩ := h
  have hdigits : ∀ n < 36, (Punycode.digit n).toNat < 128
      ∧ (Punycode.digit n).toLower = Punycode.digit n ∧ Punycode.digit n ≠ '.' := by decide
  obtain ⟨hearly, hsmall, hinner⟩ := hdigits n hn
  exact ⟨hearly, fold_of_ascii hearly hsmall, hinner⟩

theorem isPlain_of_mem_mark (h : c ∈ mark) : IsPlain c := by
  obtain rfl | rfl | rfl : c = 'x' ∨ c = 'n' ∨ c = '-' := by simpa [mark] using h
  · exact ⟨by decide, fold_of_ascii (by decide) (by decide), by decide⟩
  · exact ⟨by decide, fold_of_ascii (by decide) (by decide), by decide⟩
  · exact ⟨by decide, fold_of_ascii (by decide) (by decide), by decide⟩

/-- What is written for a label without points can stand in a label. -/
theorem isPlain_of_mem_encode {label : List Char} (hfolded : IsFolded label) (hjoined : '.' ∉ label)
    (h : c ∈ Punycode.encode label) : IsPlain c := by
  rcases Punycode.mem_encode h with ⟨hc, hearly⟩ | rfl | hc
  · exact ⟨hearly, hfolded c hc, fun hdot => hjoined (hdot ▸ hc)⟩
  · exact isPlain_of_mem_mark (by decide)
  · exact isPlain_of_isDigit hc

/-- A label that has been brought to ASCII is folded, without points, and its own ASCII form. -/
structure Stands (label : List Char) : Prop where
  folded : IsFolded label
  joined : '.' ∉ label
  self : label? label = some label

/-- A label in ASCII is its own ASCII form, if it has one. -/
theorem eq_of_label? {label out : List Char} (hascii : label.all (·.toNat < 128) = true)
    (h : label? label = some out) : out = label := by
  rw [label?, if_pos hascii] at h
  split at h
  · dsimp only at h
    split at h
    · split at h
      · exact (Option.some.inj h).symm
      · cases h
    · cases h
  · exact (Option.some.inj h).symm

/-- What a folded label beyond ASCII is written as is held to be a label in Punycode. -/
theorem stands_mark_encode {label : List Char} (hfolded : IsFolded label) (hjoined : '.' ∉ label)
    (hwide : label.any (128 ≤ ·.toNat) = true)
    (hheld : label.all (fun c => c.toNat < 128 || isLabelChar c) = true) :
    Stands (mark ++ Punycode.encode label) := by
  have hplain : ∀ c ∈ mark ++ Punycode.encode label, IsPlain c := fun c hc =>
    (List.mem_append.mp hc).elim isPlain_of_mem_mark (isPlain_of_mem_encode hfolded hjoined)
  refine ⟨fun c hc => (hplain c hc).folded, fun hdot => (hplain _ hdot).inner rfl, ?_⟩
  have hearly : (mark ++ Punycode.encode label).all (·.toNat < 128) = true :=
    List.all_eq_true.mpr fun c hc => decide_eq_true (hplain c hc).early
  have hmarked : mark.isPrefixOf (mark ++ Punycode.encode label) = true := by simp
  have hdrop : (mark ++ Punycode.encode label).drop 4 = Punycode.encode label := rfl
  rw [label?, if_pos hearly, if_pos hmarked]
  dsimp only
  -- It is decoded to the label that it was written for, and that passes every check on the way back.
  rw [hdrop, Punycode.decode?_encode]
  dsimp only
  rw [hwide, hheld, hfolded.flatMap]
  simp

theorem stands_of_label? {label out : List Char} (hfolded : IsFolded label) (hjoined : '.' ∉ label)
    (h : label? label = some out) : Stands out := by
  by_cases hascii : label.all (·.toNat < 128) = true
  · obtain rfl : out = label := eq_of_label? hascii h
    exact ⟨hfolded, hjoined, h⟩
  · rw [label?, if_neg hascii] at h
    split at h
    · cases h
    split at h
    · next hheld =>
      cases h
      exact stands_mark_encode hfolded hjoined (by simpa using hascii) hheld
    · cases h

theorem label?_of_digits {label : List Char} (h : ∀ c ∈ label, c.isDigit = true) :
    label? label = some label := by
  have hearly : label.all (·.toNat < 128) = true := by
    refine List.all_eq_true.mpr fun c hc => decide_eq_true ?_
    have := isDigit_iff.mp (h c hc)
    omega
  have hplain : ¬ mark.isPrefixOf label = true := by
    rw [List.isPrefixOf_iff_prefix]
    rintro ⟨rest, rfl⟩
    cases h 'x' (List.mem_append_left _ List.mem_cons_self)
  rw [label?, if_pos hearly, if_neg hplain]

/-! ### Domains -/

theorem mapM_label? {labels : List (List Char)} (h : ∀ label ∈ labels, label? label = some label) :
    labels.mapM label? = some labels := by
  have hread : (labels.map id).mapM label? = some labels := mapM_map_eq_some h
  rwa [List.map_id] at hread

/-- Labels that stand for themselves make a domain that does. -/
theorem ascii?_of_stands {labels : List (List Char)} (hne : labels ≠ [])
    (h : ∀ label ∈ labels, Stands label) :
    ascii? (['.'].intercalate labels) = some (['.'].intercalate labels) := by
  have hfolded : IsFolded (['.'].intercalate labels) := by
    intro c hc
    rcases mem_intercalate hc with hdot | ⟨label, hlabel, hc⟩
    · rw [List.mem_singleton.mp hdot, fold_dot]
    · exact (h label hlabel).folded c hc
  have hsplit : (['.'].intercalate labels).splitOn '.' = labels :=
    List.splitOn_intercalate _ (fun label hlabel => (h label hlabel).joined) hne
  rw [ascii?, hfolded.flatMap, hsplit, mapM_label? fun label hlabel => (h label hlabel).self]
  rfl

theorem ascii?_self {domain ascii : List Char} (h : ascii? domain = some ascii) :
    ascii? ascii = some ascii := by
  obtain ⟨labels, hlabels, rfl⟩ := Option.map_eq_some_iff.mp h
  have hne : labels ≠ [] := by
    rintro rfl
    obtain ⟨piece, pieces, hpieces⟩ :=
      List.exists_cons_of_ne_nil (List.splitOn_ne_nil '.' (domain.flatMap fold))
    simp [hpieces, Option.bind_eq_some_iff] at hlabels
  refine ascii?_of_stands hne fun label hlabel => ?_
  obtain ⟨piece, hpiece, hread⟩ := exists_of_mem_mapM hlabels hlabel
  refine stands_of_label? (fun c hc => ?_) (not_mem_of_mem_splitOn hpiece) hread
  exact isFolded_flatMap domain c (mem_of_mem_splitOn hpiece hc)

theorem ascii?_of_digits {domain : List Char} (h : ∀ c ∈ domain, c.isDigit = true ∨ c = '.') :
    ascii? domain = some domain := by
  have hfolded : IsFolded domain := by
    intro c hc
    rcases h c hc with hdigit | rfl
    · have hrange := isDigit_iff.mp hdigit
      refine fold_of_ascii (by omega) (Char.toNat_inj.mp ?_)
      rw [toNat_toLower, if_neg (by omega)]
    · exact fold_dot
  have hlabels : ∀ label ∈ domain.splitOn '.', label? label = some label := by
    refine fun label hlabel => label?_of_digits fun c hc => ?_
    rcases h c (mem_of_mem_splitOn hlabel hc) with hdigit | rfl
    · exact hdigit
    · exact absurd hc (not_mem_of_mem_splitOn hlabel)
  rw [ascii?, hfolded.flatMap, mapM_label? hlabels, Option.map_some, List.intercalate_splitOn]

instance : Idna.Lawful := ⟨ascii?_self, ascii?_of_digits⟩

end ServiceCall.Domain
