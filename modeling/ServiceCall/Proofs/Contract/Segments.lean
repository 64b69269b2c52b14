import Mathlib.Data.List.Basic
import ServiceCall.Contract.PathTemplate
import ServiceCall.Proofs.Shape.Grammar

/-!
# Segments of a path

Each piece of a path is read as a segment by itself; only whether it may be read depends on the
segments before it. A piece that begins with a colon goes on with a name, which no earlier segment
has. Any other piece is a literal text.
-/

namespace ServiceCall.PathTemplate

/-- ASCII letters, digits and underscores, at least one. -/
structure IsName (name : List Char) : Prop where
  nonempty : name ≠ []
  plain : ∀ c ∈ name, Shape.Letter c ∨ Shape.Digit c

/-- The segment that a piece is read as. -/
def Segment.ofPiece : List Char → Segment
  | ':' :: name => .placeholder (String.ofList name)
  | piece => .literal (String.ofList piece)

/-- A piece that begins with a colon is a name, and no earlier segment has it. -/
def Passes (earlier : List Segment) (piece : List Char) : Prop :=
  ∀ name, piece = ':' :: name → IsName name ∧ .placeholder (String.ofList name) ∉ earlier

/-- Each piece passes behind the earlier segments and the pieces before it. -/
def AllPass (earlier : List Segment) (pieces : List (List Char)) : Prop :=
  ∀ before after piece, pieces = before ++ piece :: after →
    Passes (earlier ++ before.map Segment.ofPiece) piece

variable {earlier out : List Segment} {piece : List Char} {pieces : List (List Char)}

/-! ### One piece -/

theorem isName_iff {name : List Char} :
    IsName name ↔ (name.isEmpty || !name.all isNameChar) = false := by
  have hchar (c : Char) : isNameChar c = true ↔ Shape.Letter c ∨ Shape.Digit c :=
    Shape.isNameChar_iff
  rw [Bool.or_eq_false_iff, List.isEmpty_eq_false_iff, Bool.not_eq_false', List.all_eq_true]
  simp only [hchar]
  exact ⟨fun ⟨nonempty, plain⟩ => ⟨nonempty, plain⟩, fun ⟨nonempty, plain⟩ => ⟨nonempty, plain⟩⟩

theorem ofPiece_of_plain (h : ∀ name, piece ≠ ':' :: name) :
    Segment.ofPiece piece = .literal (String.ofList piece) := by
  unfold Segment.ofPiece
  split
  · next name => exact absurd rfl (h name)
  · rfl

/-- A segment is written like the piece that it was read from. -/
theorem chars_ofPiece (piece : List Char) : (Segment.ofPiece piece).chars = piece := by
  unfold Segment.ofPiece
  split <;> simp [Segment.chars]

theorem map_chars_ofPiece (pieces : List (List Char)) :
    (pieces.map Segment.ofPiece).map Segment.chars = pieces := by
  have hchars : Segment.chars ∘ Segment.ofPiece = id := funext chars_ofPiece
  rw [List.map_map, hchars, List.map_id]

theorem ofPiece_injective : Function.Injective Segment.ofPiece :=
  Function.LeftInverse.injective chars_ofPiece

/-- The pieces that begin with a colon are read as placeholders, and no others. -/
theorem name?_ofPiece (piece : List Char) :
    (Segment.ofPiece piece).name?.map (fun name => ':' :: name.toList)
      = Option.guard (fun p => p.head? = some ':') piece := by
  by_cases h : ∃ name, piece = ':' :: name
  · obtain ⟨name, rfl⟩ := h
    simp [Segment.ofPiece, Segment.name?, Option.guard]
  · rw [not_exists] at h
    have hhead : piece.head? ≠ some ':' := fun hcolon =>
      (List.head?_eq_some_iff.mp hcolon).elim h
    simp [ofPiece_of_plain h, Segment.name?, Option.guard, hhead]

/-- The first piece is read if it passes, and then the others behind it. -/
theorem readSegments_cons_eq_ok_iff : readSegments earlier (piece :: pieces) = .ok out
    ↔ Passes earlier piece ∧ readSegments (earlier ++ [Segment.ofPiece piece]) pieces = .ok out := by
  rw [readSegments.eq_def]
  dsimp only
  -- a piece with a colon must have a name that is new, any other piece is taken as it is
  split
  · next name =>
    have hpasses : Passes earlier (':' :: name)
        ↔ IsName name ∧ .placeholder (String.ofList name) ∉ earlier := by
      simp [Passes]
    rw [hpasses, isName_iff, Bool.eq_false_iff, Segment.ofPiece]
    split
    · next hname =>
      rw [iff_false_left (by simp)]
      exact fun h => h.1.1 hname
    · next hname =>
      split
      · next hused =>
        rw [iff_false_left (by simp)]
        exact fun h => h.1.2 (List.contains_iff_mem.mp hused)
      · next hfresh =>
        exact ⟨fun h => ⟨⟨hname, fun hmem => hfresh (List.contains_iff_mem.mpr hmem)⟩, h⟩,
          fun h => h.2⟩
  · next hpiece =>
    have hpasses : Passes earlier piece := fun name hname => absurd hname (hpiece name)
    simp only [ofPiece_of_plain hpiece, hpasses, true_and]

/-! ### Pieces in a row -/

theorem allPass_nil : AllPass earlier [] := by
  intro before after piece h
  simp at h

/-- The first piece passes, and it is an earlier one for the others. -/
theorem allPass_cons_iff : AllPass earlier (piece :: pieces)
    ↔ Passes earlier piece ∧ AllPass (earlier ++ [Segment.ofPiece piece]) pieces := by
  constructor
  · intro h
    refine ⟨?_, fun before after later hpieces => ?_⟩
    · simpa using h [] pieces piece rfl
    · simpa using h (piece :: before) after later (by rw [hpieces, List.cons_append])
  · rintro ⟨hfirst, hrest⟩ before after later hpieces
    cases before with
    | nil =>
      obtain ⟨rfl, rfl⟩ := List.cons.inj hpieces
      simpa using hfirst
    | cons first before =>
      obtain ⟨rfl, rfl⟩ := List.cons.inj hpieces
      simpa using hrest before after later rfl

/-- Pieces are read just if all of them pass, and each as one segment. -/
theorem readSegments_eq_ok_iff : readSegments earlier pieces = .ok out
    ↔ AllPass earlier pieces ∧ earlier ++ pieces.map Segment.ofPiece = out := by
  induction pieces generalizing earlier with
  | nil => simp [readSegments, allPass_nil]
  | cons piece rest ih =>
    rw [readSegments_cons_eq_ok_iff, ih, allPass_cons_iff, List.map_cons, List.append_assoc,
      List.singleton_append, and_assoc]

end ServiceCall.PathTemplate
