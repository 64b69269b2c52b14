import Mathlib.Data.List.Basic
import ServiceCall.Proofs.Text.Letters
import ServiceCall.Text.Folding

/-!
# Small letters beyond ASCII

A small letter is its own small letter: no stretch of capitals holds one. The stretches are compared two
by two, by the ends of the small letters of the one and of the capitals of the other.
-/

namespace ServiceCall.Folding

/-- The code point stands in a stretch of capitals. -/
def InStretch (n : Nat) (s : Nat × Nat × Nat × Int) : Prop :=
  s.1 ≤ n ∧ n ≤ s.2.1 ∧ (n - s.1) % s.2.2.1 = 0

/-- The small letter of a capital in a stretch. -/
def small (s : Nat × Nat × Nat × Int) (n : Nat) : Nat := ((n : Int) + s.2.2.2).toNat

/-- No small letter of the first stretch stands in the second: they lie before or behind it, or between
its capitals. -/
def apart (s t : Nat × Nat × Nat × Int) : Bool :=
  decide (small s s.2.1 < t.1) || decide (t.2.1 < small s s.1)
    || t.2.2.1 == 2 && (s.2.2.1 == 2 || s.1 == s.2.1) && (small s s.1 + t.1) % 2 == 1

/-- The small letters of a stretch are characters behind the capitals of ASCII. -/
structure IsSound (s : Nat × Nat × Nat × Int) : Prop where
  step : s.2.2.1 = 1 ∨ s.2.2.1 = 2
  shift : 0 ≤ (s.1 : Int) + s.2.2.2
  late : 90 < small s s.1
  valid : small s s.2.1 < 0xD800 ∨ 0xDFFF < small s s.1 ∧ small s s.2.1 < 0x110000

theorem isSound_of_mem {s : Nat × Nat × Nat × Int} (h : s ∈ capitals) : IsSound s := by
  have hall : ∀ s ∈ capitals, (s.2.2.1 = 1 ∨ s.2.2.1 = 2) ∧ 0 ≤ (s.1 : Int) + s.2.2.2
      ∧ 90 < small s s.1
      ∧ (small s s.2.1 < 0xD800 ∨ 0xDFFF < small s s.1 ∧ small s s.2.1 < 0x110000) := by
    decide +kernel
  obtain ⟨hstep, hshift, hlate, hvalid⟩ := hall s h
  exact ⟨hstep, hshift, hlate, hvalid⟩

theorem apart_of_mem {s t : Nat × Nat × Nat × Int} (hs : s ∈ capitals) (ht : t ∈ capitals) :
    apart s t = true := by
  have hall : (capitals.all fun s => capitals.all (apart s)) = true := by decide +kernel
  exact List.all_eq_true.mp (List.all_eq_true.mp hall s hs) t ht

theorem not_inStretch_small {s t : Nat × Nat × Nat × Int} {n : Nat} (hs : s ∈ capitals)
    (ht : t ∈ capitals) (h : InStretch n s) : ¬ InStretch (small s n) t := by
  have happart := apart_of_mem hs ht
  obtain ⟨hstep, hshift, -, -⟩ := isSound_of_mem hs
  obtain ⟨hfirst, hlast, hrest⟩ := h
  rw [apart, Bool.or_eq_true, Bool.or_eq_true, decide_eq_true_eq, decide_eq_true_eq] at happart
  simp only [Bool.and_eq_true, Bool.or_eq_true, beq_iff_eq, small] at happart
  rintro ⟨htfirst, htlast, htrest⟩
  rw [small] at htfirst htlast htrest
  -- the small letter lies outside the stretch, or between capitals that are two apart
  rcases happart with (hbefore | hbehind) | ⟨⟨hpair, heven⟩, hodd⟩
  · omega
  · omega
  · rw [hpair] at htrest
    rcases heven with heven | hsingle
    · rw [heven] at hrest
      omega
    · omega

variable {c : Char}

theorem lower_of_ascii (h : c.toNat < 128) : lower c = c.toLower := if_pos h

/-- A character beyond ASCII is in no stretch and stays, or becomes the small letter by its stretch. -/
theorem lower_cases (h : 128 ≤ c.toNat) :
    lower c = c ∧ (∀ s ∈ capitals, ¬ InStretch c.toNat s)
      ∨ ∃ s ∈ capitals, InStretch c.toNat s ∧ (lower c).toNat = small s c.toNat := by
  rw [lower, if_neg (Nat.not_lt.mpr h)]
  split
  · next first last step shift hfind =>
    have hmem := List.mem_of_find?_eq_some hfind
    have hin : InStretch c.toNat (first, last, step, shift) := by
      simpa [InStretch, and_assoc] using List.find?_some hfind
    refine .inr ⟨_, hmem, hin, ?_⟩
    have hsound := isSound_of_mem hmem
    -- the small letter is a character, so nothing else is put in its place
    have hvalid : (small (first, last, step, shift) c.toNat).isValidChar := by
      obtain ⟨-, hshift, -, hvalid⟩ := hsound
      obtain ⟨hfirst, hlast, -⟩ := hin
      simp only [small, Nat.isValidChar] at *
      omega
    rw [small] at hvalid ⊢
    rw [Char.ofNat, dif_pos hvalid]
    rfl
  · next hnone =>
    refine .inl ⟨rfl, fun s hs hin => ?_⟩
    have hout := List.find?_eq_none.mp hnone s hs
    simp_all [InStretch]

theorem lower_eq_self (h : 128 ≤ c.toNat) (hnone : ∀ s ∈ capitals, ¬ InStretch c.toNat s) :
    lower c = c := by
  rcases lower_cases h with ⟨hself, -⟩ | ⟨s, hs, hin, -⟩
  · exact hself
  · exact absurd hin (hnone s hs)

/-- No small letter is a capital of ASCII, or has a small letter of its own. -/
theorem lower_lower (c : Char) : lower (lower c) = lower c := by
  by_cases hascii : c.toNat < 128
  · have hsmall : c.toLower.toNat < 128 := by
      rw [toNat_toLower]
      split <;> omega
    rw [lower_of_ascii hascii, lower_of_ascii hsmall, toLower_toLower]
  have hwide := Nat.le_of_not_lt hascii
  rcases lower_cases hwide with ⟨hself, -⟩ | ⟨s, hs, hin, hsmall⟩
  · rw [hself, hself]
  by_cases hstays : (lower c).toNat < 128
  · -- The sign of the kelvin becomes a small letter of ASCII.
    have hlate : 90 < (lower c).toNat := by
      have := (isSound_of_mem hs).late
      have := hin.1
      simp only [small] at *
      omega
    rw [lower_of_ascii hstays]
    apply Char.toNat_inj.mp
    rw [toNat_toLower, if_neg (by omega)]
  · refine lower_eq_self (Nat.le_of_not_lt hstays) fun t ht => ?_
    rw [hsmall]
    exact not_inStretch_small hs ht hin

end ServiceCall.Folding
