import ServiceCall.Settings.Layer
import ServiceCall.Text.Cut

/-!
# Settings from the environment

A variable whose name starts with the prefix, in any case, gives one value of settings. Two
underscores in the rest of its name stand between levels. A value that reads as a truth value or a
number is one.
-/

namespace ServiceCall.Environment

/-- What the names of variables start with, in small letters. -/
def opening : String := "ws_client_"

/-- A point for each two underscores, from the left. -/
def levels : List Char → List Char
  | '_' :: '_' :: rest => '.' :: levels rest
  | c :: rest => c :: levels rest
  | [] => []

/-- The path of a variable's value, if the variable has the prefix. -/
def path? (name : String) : Option String :=
  (Cut.after? opening.toList (name.toList.map Folding.lower)).map fun rest =>
    String.ofList (levels rest)

/-- The value that the text of a variable gives. -/
def value (s : String) : Node :=
  let word := Folding.lowerText s
  if word == "true" then .flag true
  else if word == "false" then .flag false
  else
    match (Decimal.integer? s.toList).filter fun n => decide (-(2 ^ 63) ≤ n ∧ n < 2 ^ 63) with
    | some n => .integer n
    | none =>
      match Decimal.read? .double s with
      | some x => .real x
      | none => .text s

/-- The settings that variables give. -/
def settings (given : List (String × String)) : List (String × Node) :=
  given.filterMap fun (name, text) => (path? name).map fun path => (path, value text)

/-- A variable without the prefix gives nothing. -/
theorem settings_eq_nil {given : List (String × String)}
    (h : ∀ v ∈ given, path? v.1 = none) : settings given = [] := by
  simp only [settings, List.filterMap_eq_nil_iff, Option.map_eq_none_iff]
  exact h

end ServiceCall.Environment
