import ServiceCall.Decimal.Notation

/-!
# JSON values

Integers are kept apart from other numbers as long as a signed or unsigned 64-bit word can hold
them; every other number is a double. The members of an object keep the order in which their names
first came.
-/

namespace ServiceCall

namespace Json

/-- An integer from `-2 ^ 63` to `2 ^ 64 - 1`. -/
structure Whole where
  value : Int
  low : -2 ^ 63 ≤ value := by omega
  high : value < 2 ^ 64 := by omega
deriving DecidableEq, Repr

/-- The integer as a whole number of a document, if it is in range. -/
def Whole.ofInt? (i : Int) : Option Whole :=
  if h : -2 ^ 63 ≤ i ∧ i < 2 ^ 64 then some ⟨i, h.1, h.2⟩ else none

/-- A number of a document. -/
inductive Number where
  | whole (n : Whole)
  | real (x : Binary)
deriving DecidableEq, Repr

/-- The decimal digits of an integer after its sign. -/
def intText (i : Int) : List Char :=
  if i < 0 then '-' :: DecimalDigits.characters i.natAbs else DecimalDigits.characters i.natAbs

/-- The text of a number: plain digits for an integer, else the shortest decimal that reads back. -/
def Number.text : Number → List Char
  | .whole n => intText n.value
  | .real x => x.documentText

end Json

/-- A JSON value. -/
inductive Json where
  | null
  | bool (b : Bool)
  | number (n : Json.Number)
  | text (s : String)
  | array (items : List Json)
  | object (members : List (String × Json))
deriving Repr, Inhabited

namespace Json

/-- A natural number as a JSON value, if a 64-bit word can hold it. -/
def ofInt? (i : Int) : Option Json := (Whole.ofInt? i).map fun n => .number (.whole n)

/-- Sets a member: a new name goes to the end, a name already there keeps its place. -/
def setMember (name : String) (value : Json) : List (String × Json) → List (String × Json)
  | [] => [(name, value)]
  | (n, v) :: rest => if n = name then (n, value) :: rest else (n, v) :: setMember name value rest

/-- The word for what a value is. -/
def kindName : Json → String
  | .null => "null"
  | .bool _ => "bool"
  | .number _ => "number"
  | .text _ => "string"
  | .array _ => "array"
  | .object _ => "object"

/-- The text of a value that is a text, a number or a truth value. -/
def scalarText? : Json → Option String
  | .text s => some s
  | .number n => some (String.ofList n.text)
  | .bool b => some (if b then "true" else "false")
  | _ => none

/-- A text stands for itself, a number for its digits, a truth value for its word; nothing else has a
text. -/
theorem scalarText?_eq_some_iff {v : Json} {text : String} : v.scalarText? = some text
    ↔ v = .text text ∨ (∃ n, v = .number n ∧ text = String.ofList n.text)
      ∨ (v = .bool true ∧ text = "true") ∨ (v = .bool false ∧ text = "false") := by
  cases v with
  | null | array _ | object _ => simp [scalarText?]
  | text s => simp [scalarText?]
  | number n => simp [scalarText?, eq_comm]
  | bool b => cases b <;> simp [scalarText?, eq_comm]

/-- The member of an object under a name. -/
def member? (name : String) : Json → Option Json
  | .object members => members.lookup name
  | _ => none

end Json

end ServiceCall
