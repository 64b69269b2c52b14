import ServiceCall.Settings.Convert

/-!
# Layers of settings

Settings are put together from several sources, the later over the earlier. Tables are merged entry
by entry, any other value replaces what was there. Keys of tables count in small letters, but a list
is taken as it is. At the top of a source a key may be a path: keys with points between them, and
places of lists in brackets.
-/

namespace ServiceCall

namespace Node

mutual

/-- A value laid over an earlier one. -/
def laidOn : Node → Option Node → Node
  | .table es, earlier => allLaidOn es (earlier.getD (.table []))
  | v, _ => v

/-- Entries laid over an earlier value, which turns into a table if it was none. -/
def allLaidOn : List (String × Node) → Node → Node
  | [], earlier => earlier
  | (k, v) :: rest, earlier =>
    let key := Folding.lowerText k
    allLaidOn rest (.table (put key (laidOn v (earlier.entries.lookup key)) earlier.entries))

end

end Node

/-- A step from a value to a part of it. -/
inductive PathStep where
  | key (k : String)
  | place (n : Nat)
deriving DecidableEq, Repr

namespace PathStep

/-- A character of a key in a path. -/
def isKeyChar (c : Char) : Bool := c.isAlphanum || c == '_' || c == '-' || c == ' '

/-- The steps behind the first key of a path. Each takes at least two characters. -/
def more? : Nat → List Char → Option (List PathStep)
  | _, [] => some []
  | 0, _ :: _ => none
  | steps + 1, '.' :: rest =>
    match rest.takeWhile isKeyChar with
    | [] => none
    | k =>
      (more? steps (rest.dropWhile isKeyChar)).map
        (.key (Folding.lowerText (String.ofList k)) :: ·)
  | steps + 1, '[' :: rest =>
    let inner := (rest.takeWhile (· != ']')).filter (· != ' ')
    match rest.dropWhile (· != ']') with
    | ']' :: rest =>
      if inner.isEmpty || !inner.all Char.isDigit then none
      else (more? steps rest).map (.place (Decimal.digitsValue 0 inner) :: ·)
    | _ => none
  | _ + 1, _ :: _ => none

/-- The steps of a path; what is not a path is a single key. -/
def ofText (s : String) : List PathStep :=
  let cs := s.toList
  let first := cs.takeWhile isKeyChar
  let steps :=
    if first.isEmpty then none
    else
      (more? cs.length (cs.dropWhile isKeyChar)).map
        (.key (Folding.lowerText (String.ofList first)) :: ·)
  steps.getD [.key (Folding.lowerText s)]

end PathStep

namespace Node

/-- A list with a value at a place; places that were not there hold null. -/
def setItem (n : Nat) (v : Node) (items : List Node) : List Node :=
  if n < items.length then items.set n v
  else items ++ List.replicate (n - items.length) .null ++ [v]

/-- A value laid over the part of another that some steps lead to. What stands in the way turns into
a table or a list. -/
def laidAt : List PathStep → Node → Option Node → Node
  | [], v, earlier => laidOn v earlier
  | .key k :: rest, v, earlier =>
    let es := (earlier.map entries).getD []
    .table (put k (laidAt rest v (es.lookup k)) es)
  | .place n :: rest, v, earlier =>
    let items := (earlier.bind items?).getD []
    .list (setItem n (if rest.isEmpty then v else laidAt rest v items[n]?) items)

/-- A source laid over earlier ones. -/
def layer (earlier : Node) (source : List (String × Node)) : Node :=
  source.foldl (fun root (k, v) => laidAt (PathStep.ofText k) v (some root)) earlier

end Node

end ServiceCall
