import ServiceCall.Json.Decoder

/-!
# Wire types

The types that a typed method takes and returns, with their shapes and their decoders.
-/

namespace ServiceCall

/-- A type of the wire. -/
inductive WireType where
  | unit
  | scalar (kind : ScalarKind)
  | enumeration (name : String) (variants : List String)
  | record (name : String) (fields : List (String × WireType))
  | list (item : WireType)
  | optional (item : WireType)

namespace WireType

/-- The shape of a type: records and enumerations by their names. -/
def shape : WireType → Shape
  | .unit => .void
  | .scalar kind => .scalar kind
  | .enumeration name _ => .enumeration name
  | .record name _ => .bean name
  | .list item => .list item.shape
  | .optional item => .optional item.shape

/-- Least and greatest value of an integer kind. -/
def bounds? : ScalarKind → Option (Int × Int)
  | .i8 => some (-2 ^ 7, 2 ^ 7 - 1)
  | .i16 => some (-2 ^ 15, 2 ^ 15 - 1)
  | .i32 => some (-2 ^ 31, 2 ^ 31 - 1)
  | .i64 => some (-2 ^ 63, 2 ^ 63 - 1)
  | .u8 => some (0, 2 ^ 8 - 1)
  | .u16 => some (0, 2 ^ 16 - 1)
  | .u32 => some (0, 2 ^ 32 - 1)
  | .u64 => some (0, 2 ^ 64 - 1)
  | _ => none

/-- An integer within the bounds of its kind; a number written as a fraction is none. -/
def acceptWhole (low high : Int) : Json.Number → Option Json.Number
  | .whole n => if low ≤ n.value ∧ n.value ≤ high then some (.whole n) else none
  | .real _ => none

/-- Any number as a double. -/
def acceptReal : Json.Number → Option Json.Number
  | .whole n => some (.real (Binary.ofInt n.value))
  | .real x => some (.real x)

/-- Any number as a single, written as the double of the same value. -/
def acceptSingle (n : Json.Number) : Option Json.Number :=
  match acceptReal n with
  | some (.real x) => ((x.convert? .single).bind (·.convert? .double)).map .real
  | _ => none

/-- The decoder of a scalar kind. -/
def scalarDecoder (kind : ScalarKind) : Json.Decoder :=
  match kind, bounds? kind with
  | .string, _ => .text
  | .bool, _ => .bool
  | .f64, _ => .number acceptReal
  | .f32, _ => .number acceptSingle
  | _, some (low, high) => .number (acceptWhole low high)
  | _, none => .unit

/-- Whether a field of this type may be left out. -/
def mayBeAbsent : WireType → Bool
  | .optional _ => true
  | _ => false

mutual

/-- The decoder of a type. -/
def decoder : WireType → Json.Decoder
  | .unit => .unit
  | .scalar kind => scalarDecoder kind
  | .enumeration _ variants => .oneOf variants
  | .record _ fields => .record (fieldDecoders fields)
  | .list item => .list item.decoder
  | .optional item => .optional item.decoder

/-- The decoders of the fields of a record. -/
def fieldDecoders : List (String × WireType) → List Json.Decoder.Field
  | [] => []
  | (name, type) :: rest => ⟨name, type.decoder, type.mayBeAbsent⟩ :: fieldDecoders rest

end

end WireType

end ServiceCall
