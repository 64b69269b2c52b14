import ServiceCall.Url.Basic

/-!
# Pairs in a query

The pairs of a form: name and value with an equals sign between them, pairs with ampersands. Letters,
digits and four signs stand for themselves, a space is a plus, every other byte is escaped.
-/

namespace ServiceCall

namespace Form

/-- The byte stands for itself. -/
def isPlain (b : UInt8) : Bool :=
  let c := Char.ofNat b.toNat
  b < 128 && (c.isAlphanum || c == '*' || c == '-' || c == '.' || c == '_')

/-- One byte of a name or value. -/
def byte (b : UInt8) : List Char :=
  if isPlain b then [Char.ofNat b.toNat] else if b == 32 then ['+'] else Percent.byte b

/-- A name or value. -/
def encode (s : String) : List Char := (Utf8.encode s).flatMap byte

/-- A pair. -/
def pair (name value : String) : List Char := encode name ++ '=' :: encode value

/-- Adds pairs to a query that may hold others. -/
def extend (query : List Char) (pairs : List (String × String)) : List Char :=
  pairs.foldl (fun q (n, v) => if q.isEmpty then pair n v else q ++ '&' :: pair n v) query

end Form

/-- The URL with pairs added to its query. Without pairs there is no change. -/
def Url.addPairs (u : Url) (pairs : List (String × String)) : Url :=
  if pairs.isEmpty then u else { u with query := some (Form.extend (u.query.getD []) pairs) }

end ServiceCall
