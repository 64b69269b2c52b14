import Mathlib.Data.List.Basic
import ServiceCall.Proofs.Url.Percent
import ServiceCall.Url.Path

/-!
# Segments of a web address

What a segment does to a path that it is added to, told by its text and not by its escapes, and how
the segments of a path are found again in its text.
-/

namespace ServiceCall.Url

variable {set : Char → Bool}

/-! ### Dots, however they are escaped -/

theorem decode_of_isDot {s : List Char} (h : isDot s = true) (rest : List Char) :
    Percent.decode (s ++ rest) = 0x2E :: Percent.decode rest := by
  simp only [isDot, Bool.or_eq_true, beq_iff_eq] at h
  rcases h with (rfl | rfl) | rfl
  · exact Percent.decode_cons (by decide) rest
  · rfl
  · rfl

/-- Two dots are a dot and a dot. -/
theorem isDotDot_eq_append {s : List Char} (h : isDotDot s = true) :
    ∃ a b, isDot a = true ∧ isDot b = true ∧ s = a ++ b := by
  simp only [isDotDot, Bool.or_eq_true, Bool.and_eq_true, beq_iff_eq] at h
  rcases h with ((rfl | ⟨⟨hfirst, hsecond⟩, -⟩) | ⟨⟨-, hfirst⟩, hsecond⟩) | ⟨⟨-, hfirst⟩, hsecond⟩
  · exact ⟨['.'], ['.'], rfl, rfl, rfl⟩
  · exact ⟨s.take 1, s.drop 1, by rw [hfirst]; rfl, hsecond, (List.take_append_drop 1 s).symm⟩
  · exact ⟨s.take 3, s.drop 3, hfirst, by rw [hsecond]; rfl, (List.take_append_drop 3 s).symm⟩
  · exact ⟨s.take 3, s.drop 3, hfirst, hsecond, (List.take_append_drop 3 s).symm⟩

/-- An escaped text is a dot only if the text is one. -/
theorem isDot_encode (hpercent : set '%' = true) (hdot : set '.' = false) {cs : List Char} :
    isDot (Percent.encode set cs) = true ↔ cs = ['.'] := by
  constructor
  · intro h
    apply Percent.utf8_injective
    have hbytes := decode_of_isDot h []
    rw [List.append_nil, Percent.decode_encode hpercent] at hbytes
    exact hbytes
  · rintro rfl
    simp only [Percent.encode, List.flatMap_cons, List.flatMap_nil, hdot]
    rfl

theorem isDotDot_encode (hpercent : set '%' = true) (hdot : set '.' = false) {cs : List Char} :
    isDotDot (Percent.encode set cs) = true ↔ cs = ['.', '.'] := by
  constructor
  · intro h
    obtain ⟨a, b, ha, hb, heq⟩ := isDotDot_eq_append h
    apply Percent.utf8_injective
    have hbytes := Percent.decode_encode hpercent cs
    rw [heq, decode_of_isDot ha, ← List.append_nil b, decode_of_isDot hb] at hbytes
    exact hbytes.symm
  · rintro rfl
    simp only [Percent.encode, List.flatMap_cons, List.flatMap_nil, hdot]
    rfl

/-! ### Adding a segment -/

/-- The characters of a segment that count. -/
def kept (s : List Char) : List Char := s.filter (!isSkipped ·)

/-- The path without the empty segment of a bare root. -/
def rooted (items : List (List Char)) : List (List Char) := if items = [[]] then [] else items

/-- A segment is added in one of four ways: plain dots change nothing, a text whose characters that
count are dots takes a segment away or adds an empty one, every other text becomes one segment. -/
theorem pushSegment_web (items : List (List Char)) (s : List Char) :
    pushSegment .web items s =
      if s = ['.'] ∨ s = ['.', '.'] then items
      else if kept s = ['.', '.'] then dropSegment (rooted items) ++ [[]]
      else if kept s = ['.'] then rooted items ++ [[]]
      else rooted items ++ [Percent.encode Percent.inSpecialSegment (kept s)] := by
  have htwo := @isDotDot_encode Percent.inSpecialSegment rfl rfl (kept s)
  have hone := @isDot_encode Percent.inSpecialSegment rfl rfl (kept s)
  rw [pushSegment]
  split
  · rfl
  · show (if isDotDot (Percent.encode Percent.inSpecialSegment (kept s)) = true
        then dropSegment (rooted items) ++ [[]]
        else if isDot (Percent.encode Percent.inSpecialSegment (kept s)) = true
          then rooted items ++ [[]]
          else rooted items ++ [Percent.encode Percent.inSpecialSegment (kept s)]) = _
    rw [if_congr htwo rfl rfl, if_congr hone rfl rfl]

/-- A segment without tab and line break that is no plain dots is added as it is, escaped. -/
theorem pushSegment_of_clean {items : List (List Char)} {s : List Char} (hkept : kept s = s)
    (hone : s ≠ ['.']) (htwo : s ≠ ['.', '.']) :
    pushSegment .web items s = rooted items ++ [Percent.encode Percent.inSpecialSegment s] := by
  rw [pushSegment_web, hkept, if_neg (by simp [hone, htwo]), if_neg htwo, if_neg hone]

/-- What a segment does depends only on its characters that count, plain dots apart. -/
theorem pushSegment_congr {items : List (List Char)} {s s' : List Char}
    (hs : ¬ (s = ['.'] ∨ s = ['.', '.'])) (hs' : ¬ (s' = ['.'] ∨ s' = ['.', '.']))
    (hkept : kept s = kept s') : pushSegment .web items s = pushSegment .web items s' := by
  rw [pushSegment_web, pushSegment_web, if_neg hs, if_neg hs', hkept]

/-! ### Finding segments -/

theorem segmentsChars_cons (s : List Char) (items : List (List Char)) :
    segmentsChars (s :: items) = '/' :: (s ++ segmentsChars items) := by
  rw [segmentsChars, List.flatMap_cons, ← segmentsChars, List.cons_append]

theorem splitOn_segmentsChars {s : List Char} {items : List (List Char)} (hs : '/' ∉ s)
    (hitems : ∀ i ∈ items, '/' ∉ i) : (s ++ segmentsChars items).splitOn '/' = s :: items := by
  induction items generalizing s with
  | nil =>
    rw [segmentsChars, List.flatMap_nil, List.append_nil, List.splitOn_eq_singleton hs]
  | cons i items ih =>
    obtain ⟨hi, hitems⟩ := List.forall_mem_cons.mp hitems
    rw [segmentsChars_cons, List.splitOn_append_cons_self_of_not_mem hs, ih hi hitems]

end ServiceCall.Url
