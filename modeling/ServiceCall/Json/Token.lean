/-!
# Tokens of a JSON document

A document is a list of tokens and an ending. The ending says whether the text stopped between two
tokens, in the middle of one, or at something that is no token.
-/

namespace ServiceCall.Json

/-- The parts of a number as written; digits stand in the order of the text. -/
structure Numeral where
  negative : Bool := false
  whole : List Char := []
  /-- Digits after the point; empty means that there is no point. -/
  fraction : List Char := []
  /-- Whether the exponent is negative, and its digits. -/
  exponent : Option (Bool × List Char) := none
deriving DecidableEq, Repr

/-- A token; a text is `none` if it stands for no sequence of characters. -/
inductive Token where
  | openArray
  | closeArray
  | openObject
  | closeObject
  | comma
  | colon
  | null
  | bool (b : Bool)
  | number (n : Numeral)
  | text (content : Option String)
deriving DecidableEq, Repr

/-- How the tokens of a document end. -/
inductive Ending where
  | complete
  | cutNumber
  | cutWord
  /-- The text broke off inside quotes; `lone` if half of a surrogate pair had stood alone before. -/
  | cutText (lone : Bool)
  | broken
deriving DecidableEq, Repr

end ServiceCall.Json
