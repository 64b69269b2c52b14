import ServiceCall.Log.Styled

/-!
# Width of a part of a line

A part may have a least width, to which it is filled up on one side, and a most width, beyond which
it is cut off. Widths count characters.
-/

namespace ServiceCall.Log

/-- How a part of a line is fitted into a width. -/
structure Layout where
  fill : Char := ' '
  /-- Filled up on the left, so that the text stands at the right. -/
  right : Bool := false
  least : Option Nat := none
  most : Option Nat := none
deriving DecidableEq, Repr

namespace Layout

/-- Cuts off what goes beyond the most width. -/
def cut (l : Layout) (spans : List Span) : List Span :=
  match l.most with
  | some n => truncate n spans
  | none => spans

/-- Fills up to the least width. -/
def pad (l : Layout) (spans : List Span) : List Span :=
  match l.least with
  | none => spans
  | some n =>
    let filling := .text (List.replicate (n - (plainChars spans).length) l.fill)
    if l.right then filling :: spans else spans ++ [filling]

/-- The text in the width of the layout. -/
def apply (l : Layout) (spans : List Span) : List Span := l.pad (l.cut spans)

/-- A part with a least width is at least that wide. -/
theorem le_length_pad {l : Layout} {n : Nat} (h : l.least = some n) (spans : List Span) :
    n ≤ (plainChars (l.pad spans)).length := by
  unfold pad
  rw [h]
  simp only
  split
  · simp [plainChars, Span.chars]
    omega
  · simp [plainChars, Span.chars]
    omega

end Layout

end ServiceCall.Log
