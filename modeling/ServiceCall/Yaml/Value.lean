import ServiceCall.Decimal.Reader
import ServiceCall.Settings.Node

/-!
# Values of YAML documents

A plain scalar is null, a truth value, a whole number of 64 bits, a real number or a text, by the way
it is written. Other scalars are texts. A standard tag asks for one of these kinds, and a scalar that
is not of the kind is unfit.
-/

namespace ServiceCall.Yaml

/-- A value. Real numbers are kept as they were written. -/
inductive Value where
  | null
  | flag (b : Bool)
  | integer (n : Int)
  | real (written : String)
  | text (s : String)
  | list (items : List Value)
  | map (entries : List (Value × Value))
  /-- A scalar that is not of the kind that its tag asks for. -/
  | unfit
deriving BEq, Repr, Inhabited

namespace Value

/-- A whole number of 64 bits with a sign, in decimal digits. -/
def integer? (cs : List Char) : Option Int :=
  (Decimal.integer? cs).filter fun n => decide (-(2 ^ 63) ≤ n ∧ n < 2 ^ 63)

/-- The value of a digit in a base up to 16. -/
def digit? (base : Nat) (c : Char) : Option Nat :=
  let n :=
    if c.isDigit then some (c.toNat - '0'.toNat)
    else if 'a' ≤ c ∧ c ≤ 'f' then some (c.toNat - 'a'.toNat + 10)
    else if 'A' ≤ c ∧ c ≤ 'F' then some (c.toNat - 'A'.toNat + 10)
    else none
  n.filter (· < base)

/-- A whole number of 64 bits with a sign, in digits of a base. -/
def inBase? (base : Nat) (cs : List Char) : Option Int :=
  let (negative, digits) := Decimal.takeSign cs
  if digits.isEmpty then none
  else
    (digits.foldlM (fun n c => (digit? base c).map (base * n + ·)) 0).bind fun n =>
      let n : Int := if negative then -(n : Int) else n
      if -(2 ^ 63) ≤ n ∧ n < 2 ^ 63 then some n else none

/-- The spellings of infinity and of the undefined value. -/
def isSpecialReal (s : String) : Bool :=
  [".inf", ".Inf", ".INF", "+.inf", "+.Inf", "+.INF", "-.inf", "-.Inf", "-.INF", ".nan", "NaN",
    ".NAN"].contains s

/-- A real number: a special spelling, or a decimal with at least one digit. -/
def isReal (s : String) : Bool :=
  isSpecialReal s || (s.toList.any Char.isDigit && (Decimal.read? .double s).isSome)

/-- A whole number with a mark before its digits. -/
def marked? : List Char → Option Int
  | '0' :: 'x' :: rest => inBase? 16 rest
  | '0' :: 'o' :: rest => inBase? 8 rest
  | '+' :: rest => integer? rest
  | _ => none

/-- The value of a plain scalar. -/
def ofPlain (s : String) : Value :=
  match marked? s.toList with
  | some n => .integer n
  | none =>
    if s == "" || s == "~" || s == "null" then .null
    else if s == "true" then .flag true
    else if s == "false" then .flag false
    else
      match integer? s.toList with
      | some n => .integer n
      | none => if isReal s then .real s else .text s

/-- The value of a plain scalar with a standard tag. -/
def ofTagged (kind s : String) : Value :=
  if kind == "bool" then
    if s == "true" then .flag true else if s == "false" then .flag false else .unfit
  else if kind == "int" then ((integer? s.toList).map .integer).getD .unfit
  else if kind == "float" then (if isReal s then .real s else .unfit)
  else if kind == "null" then (if s == "~" || s == "null" then .null else .unfit)
  else .text s

/-- A tag in its full form: what its handle stands for, and its suffix. -/
abbrev Tag := String × String

/-- What the handle of the standard tags stands for. -/
def standardTags : String := "tag:yaml.org,2002:"

/-- The value of a scalar with or without a tag. -/
def ofScalar (plain : Bool) (tag : Option Tag) (s : String) : Value :=
  if !plain then .text s
  else
    match tag with
    | some (handle, kind) => if handle == standardTags then ofTagged kind s else .text s
    | none => ofPlain s

/-- The entries of a map from its keys and values in turn. An unfit key is passed over, and no key is
given twice. -/
def pairs? : Value → List (Value × Value) → List Value → Option (List (Value × Value))
  | _, entries, [] => some entries
  | .unfit, entries, v :: rest => pairs? v entries rest
  | key, entries, v :: rest =>
    if entries.any fun e => e.1 == key then none
    else pairs? .unfit (entries ++ [(key, v)]) rest

/-- The key of a table entry: a text or a whole number. -/
def keyText? : Value → Option String
  | .text s => some s
  | .integer n => some (toString n)
  | _ => none

mutual

/-- The value as one of settings. Special reals are not decimals, and are refused. -/
def toNode? : Value → Option Node
  | .null | .unfit => some .null
  | .flag b => some (.flag b)
  | .integer n => some (.integer n)
  | .real s => (Decimal.read? .double s).map .real
  | .text s => some (.text s)
  | .list items => (toNodes? items).map .list
  | .map entries => (toEntries? [] entries).map .table

/-- The items of a list as values of settings. -/
def toNodes? : List Value → Option (List Node)
  | [] => some []
  | v :: rest => do
    let n ← toNode? v
    let ns ← toNodes? rest
    return n :: ns

/-- The entries of a map as entries of a table; of two keys with the same text the later counts. -/
def toEntries? (table : List (String × Node)) : List (Value × Value) → Option (List (String × Node))
  | [] => some table
  | (k, v) :: rest => do
    let key ← keyText? k
    let n ← toNode? v
    toEntries? (Node.put key n table) rest

end

end Value

end ServiceCall.Yaml
