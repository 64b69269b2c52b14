import ServiceCall.Url.Basic

/-!
# Paths

Reading a path drops `.` segments and lets each `..` take away the segment before it, however the
dots are escaped. A segment that names a drive is never taken away. A single segment can be added to
a path: it is escaped as a whole and then read as a path of one segment, so dots count there too.
-/

namespace ServiceCall.Url

/-- Characters that a URL leaves out wherever they stand. -/
def isSkipped (c : Char) : Bool := c == '\t' || c == '\n' || c == '\r'

/-- The spellings of one dot. -/
def isDot (s : List Char) : Bool :=
  s == ['.'] || s == ['%', '2', 'e'] || s == ['%', '2', 'E']

/-- The spellings of two dots. -/
def isDotDot (s : List Char) : Bool :=
  s == ['.', '.']
    || (s.take 1 == ['.'] && isDot (s.drop 1) && s.length == 4)
    || (s.length == 4 && isDot (s.take 3) && s.drop 3 == ['.'])
    || (s.length == 6 && isDot (s.take 3) && isDot (s.drop 3))

/-- A letter and a colon or bar. -/
def isDrive (s : List Char) : Bool :=
  match s with
  | [c, sign] => c.isAlpha && (sign == ':' || sign == '|')
  | _ => false

/-- The segments without the last one, unless that names a drive. -/
def dropSegment (items : List (List Char)) : List (List Char) :=
  match items.getLast? with
  | some last => if isDrive last then items else items.dropLast
  | none => items

/-- A segment as it is kept: the first one of a file that names a drive has a colon. -/
def keepSegment (kind : SchemeKind) (done : List (List Char)) (s : List Char) : List Char :=
  if kind = .file ∧ done.isEmpty ∧ isDrive s then s.take 1 ++ [':'] else s

/-- The segments that are left of a path, behind those that are `done`. A path that ends in dots
ends in an empty segment. -/
def resolveDots (kind : SchemeKind) : List (List Char) → List (List Char) → List (List Char)
  | done, [] => done
  | done, [s] =>
    if isDotDot s then dropSegment done ++ [[]]
    else if isDot s then done ++ [[]]
    else done ++ [keepSegment kind done s]
  | done, s :: t :: rest =>
    if isDotDot s then resolveDots kind (dropSegment done) (t :: rest)
    else if isDot s then resolveDots kind done (t :: rest)
    else resolveDots kind (done ++ [keepSegment kind done s]) (t :: rest)

/-- The path of a file starts with no empty segment, unless that is its only one. -/
def trimFile (kind : SchemeKind) (items : List (List Char)) : List (List Char) :=
  if kind = .file then
    match items.dropWhile List.isEmpty with
    | [] => [[]]
    | rest => rest
  else items

/-- The character ends a segment. -/
def isSlash (kind : SchemeKind) (c : Char) : Bool := c == '/' || (c == '\\' && kind.isSpecial)

/-- The pieces of a path between its slashes. -/
def splitSegments (kind : SchemeKind) (cs : List Char) : List (List Char) :=
  (cs.map fun c => if isSlash kind c then '/' else c).splitOn '/'

/-- The segments of a path, its first slash already read. -/
def readSegments (kind : SchemeKind) (cs : List Char) : List (List Char) :=
  trimFile kind (resolveDots kind [] ((splitSegments kind cs).map (Percent.encode Percent.inPath)))

/-- The set of characters that are escaped in a single segment. -/
def segmentSet (kind : SchemeKind) : Char → Bool :=
  if kind.isSpecial then Percent.inSpecialSegment else Percent.inSegment

/-- Takes an empty segment off the end of a path that has others. -/
def dropEmptyEnd (items : List (List Char)) : List (List Char) :=
  if 1 < items.length ∧ items.getLast? = some [] then items.dropLast else items

/-- Adds one segment behind the others; the empty segment of a bare root makes way for it. Plain
dots are not added at all. -/
def pushSegment (kind : SchemeKind) (items : List (List Char)) (segment : List Char) :
    List (List Char) :=
  if segment = ['.'] ∨ segment = ['.', '.'] then items
  else
    let base := if items = [[]] then [] else items
    let escaped := Percent.encode (segmentSet kind) (segment.filter (!isSkipped ·))
    trimFile kind (resolveDots kind base [escaped])

/-- The URL with segments added to its path, in place of an empty last one. -/
def extend? (u : Url) (segments : List (List Char)) : Option Url :=
  match u.path with
  | .segments items =>
    some { u with
      path := .segments (segments.foldl (pushSegment (schemeKind u.scheme)) (dropEmptyEnd items)) }
  | .opaqueText _ => none

end ServiceCall.Url
