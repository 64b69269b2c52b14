/-!
# Cutting text

Taking a known opening off a text, and cutting it at a character.
-/

namespace ServiceCall.Cut

/-- What follows an opening, if the text starts with it. -/
def after? : List Char → List Char → Option (List Char)
  | [], text => some text
  | _ :: _, [] => none
  | p :: opening, c :: text => if p = c then after? opening text else none

/-- A text that starts with an opening is that opening and the rest. -/
theorem after?_eq_some_iff {opening text rest : List Char} :
    after? opening text = some rest ↔ text = opening ++ rest := by
  induction opening generalizing text with
  | nil => simp [after?, eq_comm]
  | cons p opening ih =>
    cases text with
    | nil => simp [after?]
    | cons c text =>
      by_cases h : p = c
      · simp [after?, h, ih]
      · simp [after?, h, Ne.symm h]

/-- The parts before and behind the first place of a character. -/
def atFirst? (mark : Char) : List Char → Option (List Char × List Char)
  | [] => none
  | c :: rest =>
    if c = mark then some ([], rest)
    else (atFirst? mark rest).map fun (before, behind) => (c :: before, behind)

/-- The parts before and behind the last place of a character. -/
def atLast? (mark : Char) (text : List Char) : Option (List Char × List Char) :=
  (atFirst? mark text.reverse).map fun (behind, before) => (before.reverse, behind.reverse)

end ServiceCall.Cut
