import ServiceCall.Json.Value

/-!
# Shapes of wire types

The shape of a type that crosses the boundary of a service: enough to tell how a value of it is
carried, without looking at a value.
-/

namespace ServiceCall

/-- Types with a canonical text of a single value. -/
inductive ScalarKind where
  | string
  | bool
  | i8
  | i16
  | i32
  | i64
  | u8
  | u16
  | u32
  | u64
  | f32
  | f64
deriving DecidableEq, Repr

namespace ScalarKind

/-- Every kind once. -/
def all : List ScalarKind :=
  [.string, .bool, .i8, .i16, .i32, .i64, .u8, .u16, .u32, .u64, .f32, .f64]

/-- The name of a kind. -/
def name : ScalarKind → String
  | .string => "string"
  | .bool => "bool"
  | .i8 => "i8"
  | .i16 => "i16"
  | .i32 => "i32"
  | .i64 => "i64"
  | .u8 => "u8"
  | .u16 => "u16"
  | .u32 => "u32"
  | .u64 => "u64"
  | .f32 => "f32"
  | .f64 => "f64"

/-- The kind of a name. -/
def ofName? (chars : List Char) : Option ScalarKind :=
  all.find? fun kind => kind.name.toList == chars

end ScalarKind

/-- The structure of a wire type. -/
inductive Shape where
  | void
  | scalar (kind : ScalarKind)
  | enumeration (name : String)
  | bean (name : String)
  | list (item : Shape)
  | optional (item : Shape)
  | map (key value : Shape)
deriving DecidableEq, Repr

namespace Shape

/-- A bean. -/
def isBean : Shape → Bool
  | .bean _ => true
  | _ => false

/-- A list whose items are beans. -/
def isBeanList : Shape → Bool
  | .list item => item.isBean
  | _ => false

/-- A scalar or an enumeration: what can be one segment of a path. -/
def isValue : Shape → Bool
  | .scalar _ => true
  | .enumeration _ => true
  | _ => false

/-- The characters of a type name. -/
def chars : Shape → List Char
  | .void => "void".toList
  | .scalar kind => kind.name.toList
  | .enumeration name => "enum:".toList ++ name.toList
  | .bean name => name.toList
  | .list item => "List<".toList ++ item.chars ++ ['>']
  | .optional item => "Optional<".toList ++ item.chars ++ ['>']
  | .map key value => "Map<".toList ++ key.chars ++ ',' :: value.chars ++ ['>']

/-- The type name that displays a shape. -/
def text (s : Shape) : String := String.ofList s.chars

end Shape

/-- The last segment of a qualified type name, its arguments cut off. -/
def shortTypeName (qualified : String) : String :=
  let base := qualified.toList.takeWhile (· != '<')
  String.ofList (afterPath base base)
where
  /-- What follows the last pair of colons; `kept` is the text behind the last one seen. -/
  afterPath (kept : List Char) : List Char → List Char
    | ':' :: ':' :: rest => afterPath rest rest
    | _ :: rest => afterPath kept rest
    | [] => kept

end ServiceCall
