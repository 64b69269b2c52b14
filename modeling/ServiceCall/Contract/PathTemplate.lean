import ServiceCall.Contract.Error
import ServiceCall.KeyMap

/-!
# Path templates

A path whose segments are literal texts or placeholders, such as `/user/:id/orders`. A placeholder
stands for one segment, and no two have the same name.
-/

namespace ServiceCall

namespace PathTemplate

/-- A segment of a template. -/
inductive Segment where
  | literal (text : String)
  | placeholder (name : String)
deriving DecidableEq, Repr

/-- The segment as it is written. -/
def Segment.chars : Segment → List Char
  | .literal text => text.toList
  | .placeholder name => ':' :: name.toList

/-- The name of a placeholder. -/
def Segment.name? : Segment → Option String
  | .literal _ => none
  | .placeholder name => some name

end PathTemplate

/-- The segments of a path, in order. -/
structure PathTemplate where
  segments : List PathTemplate.Segment
deriving DecidableEq, Repr

namespace PathTemplate

/-- The path as it is written. -/
def text (t : PathTemplate) : String :=
  String.ofList (t.segments.flatMap fun s => '/' :: s.chars)

/-- The names of the placeholders, in the order of the path. -/
def placeholders (t : PathTemplate) : List String := t.segments.filterMap Segment.name?

/-- The template has a placeholder of this name. -/
def hasPlaceholder (t : PathTemplate) (name : String) : Bool := t.placeholders.contains name

/-- A letter or digit of ASCII or an underscore. -/
def isNameChar (c : Char) : Bool := c.isAlphanum || c == '_'

/-- Reads segments, `earlier` being those before them; a fault is told by its reason. -/
def readSegments (earlier : List Segment) : List (List Char) → Except String (List Segment)
  | [] => .ok earlier
  | segment :: rest =>
    match segment with
    | ':' :: name =>
      let next := Segment.placeholder (String.ofList name)
      if name.isEmpty || !name.all isNameChar then .error "path param name must be alphanumeric"
      else if earlier.contains next then .error "path param name must be unique"
      else readSegments (earlier ++ [next]) rest
    | _ => readSegments (earlier ++ [.literal (String.ofList segment)]) rest

/-- Reads a template. -/
def parse (path : String) : Except ContractError PathTemplate :=
  match path.toList with
  | '/' :: rest =>
    if rest.any (fun c => c == '?' || c == '#') then
      .error (.invalidPath path "path must not contain query or fragment")
    else
      match readSegments [] (rest.splitOn '/') with
      | .ok segments => .ok ⟨segments⟩
      | .error reason => .error (.invalidPath path reason)
  | _ => .error (.invalidPath path "path must start with '/'")

/-- A value that cannot stand for a segment. -/
def isUnusable (value : String) : Bool := value == "" || value == "." || value == ".."

/-- The text of one segment, given the values of the placeholders. -/
def resolveSegment (t : PathTemplate) (values : KeyMap String) :
    Segment → Except ContractError String
  | .literal text => .ok text
  | .placeholder name =>
    match values.get? name with
    | none => .error (.unresolvedPlaceholder t.text name)
    | some value =>
      if isUnusable value then .error (.invalidPathValue t.text name value) else .ok value

/-- The segments of the path, not escaped, with a value in the place of each placeholder. -/
def resolve (t : PathTemplate) (values : KeyMap String) : Except ContractError (List String) :=
  t.segments.mapM (t.resolveSegment values)

end PathTemplate

end ServiceCall
