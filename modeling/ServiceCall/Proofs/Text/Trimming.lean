import Mathlib.Data.List.Basic
import ServiceCall.Text.Blank

/-!
# Texts without outer blanks

A text with no blank at either end is left as it is by trimming, and a blank at an end makes no
difference to what trimming leaves.
-/

namespace ServiceCall.Blank

/-- No blank stands at either end. -/
def Tight (cs : List Char) : Prop :=
  (∀ c, cs.head? = some c → isWide c = false)
    ∧ ∀ c, cs.getLast? = some c → isWide c = false

theorem dropWhile_of_head {cs : List Char} (h : ∀ c, cs.head? = some c → isWide c = false) :
    cs.dropWhile isWide = cs := by
  cases cs with
  | nil => rfl
  | cons c rest => exact List.dropWhile_cons_of_neg (by simp [h c rfl])

theorem Tight.trim {cs : List Char} (h : Tight cs) : trimChars cs = cs := by
  rw [trimChars, dropWhile_of_head h.1, dropWhile_of_head, List.reverse_reverse]
  rw [List.head?_reverse]
  exact h.2

theorem tight_append {a b : List Char} (ha : a.head?.map isWide = some false)
    (hb : b.getLast?.map isWide = some false) : Tight (a ++ b) := by
  obtain ⟨first, hfirst, hfirstBlank⟩ := Option.map_eq_some_iff.mp ha
  obtain ⟨last, hlast, hlastBlank⟩ := Option.map_eq_some_iff.mp hb
  refine ⟨fun c hc => ?_, fun c hc => ?_⟩
  · rw [List.head?_append, hfirst] at hc
    cases hc
    exact hfirstBlank
  · rw [List.getLast?_append, hlast] at hc
    cases hc
    exact hlastBlank

/-- A text between a word and a closing bracket, whatever blanks it holds itself. -/
theorem tight_bracketed {opening : List Char} (h : opening.head?.map isWide = some false)
    (inner : List Char) : Tight (opening ++ inner ++ ['>']) := by
  rw [List.append_assoc]
  refine tight_append h ?_
  rw [List.getLast?_concat]
  rfl

theorem trimChars_cons {c : Char} (h : isWide c = true) (cs : List Char) :
    trimChars (c :: cs) = trimChars cs := by
  rw [trimChars, List.dropWhile_cons_of_pos h, trimChars]

theorem dropWhile_concat {c : Char} (h : isWide c = true) (cs : List Char) :
    (cs ++ [c]).dropWhile isWide = []
        ∧ cs.dropWhile isWide = []
      ∨ (cs ++ [c]).dropWhile isWide = cs.dropWhile isWide ++ [c] := by
  induction cs with
  | nil => exact Or.inl ⟨by simp [h], rfl⟩
  | cons d cs ih =>
    by_cases hd : isWide d = true
    · simpa [List.dropWhile_cons, hd] using ih
    · exact Or.inr (by simp [hd])

theorem trimChars_concat {c : Char} (h : isWide c = true) (cs : List Char) :
    trimChars (cs ++ [c]) = trimChars cs := by
  rcases dropWhile_concat h cs with ⟨hleft, hright⟩ | hboth
  · simp [trimChars, hleft, hright]
  · rw [trimChars, hboth, List.reverse_concat, List.dropWhile_cons_of_pos h, trimChars]

end ServiceCall.Blank
