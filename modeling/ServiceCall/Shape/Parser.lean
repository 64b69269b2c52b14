import ServiceCall.Shape.Basic
import ServiceCall.Text.Blank
import ServiceCall.Text.Cut

/-!
# Reading type names

A type name is a keyword, the name of a scalar, an enumeration `enum:Name`, one of the three
containers with its arguments in angle brackets, or else the name of a bean. Blanks may surround
every type.
-/

namespace ServiceCall

namespace Shape

/-- Why a text is no type name. -/
inductive Error where
  | empty
  | unbalanced (text : String)
  | oneArgument (text : String)
  | invalidName (name : String)
deriving DecidableEq, Repr

/-- The text of an error. -/
def Error.message : Error → String
  | .empty => "type name is empty"
  | .unbalanced text => "unbalanced generic type, type=" ++ text
  | .oneArgument text => "map type requires two arguments, type=" ++ text
  | .invalidName name => "invalid type name, name=" ++ name

/-- A letter of the ASCII alphabet or an underscore. -/
def isNameStart (c : Char) : Bool := c.isAlpha || c == '_'

/-- A letter or digit of ASCII or an underscore. -/
def isNameChar (c : Char) : Bool := c.isAlphanum || c == '_'

/-- The characters form an identifier. -/
def isIdentifier (cs : List Char) : Bool :=
  (match cs with
    | [] => false
    | c :: _ => isNameStart c) && cs.all isNameChar

/-- The identifier that the characters form. -/
def identifier (cs : List Char) : Except Error String :=
  if isIdentifier cs then .ok (String.ofList cs) else .error (.invalidName (String.ofList cs))

/-- The text between an opening word and a last closing bracket: nothing if the text does not open
so, and then perhaps no inner text if the bracket is missing. -/
def argument? (opening : String) (cs : List Char) : Option (Option (List Char)) :=
  (Cut.after? opening.toList cs).map fun rest =>
    if rest.getLast? = some '>' then some rest.dropLast else none

/-- Splits at the first comma outside brackets; a bracket that closes nothing is not counted. -/
def splitComma : Nat → List Char → Option (List Char × List Char)
  | _, [] => none
  | depth, c :: rest =>
    if c = ',' ∧ depth = 0 then some ([], rest)
    else
      let next := if c = '<' then depth + 1 else if c = '>' then depth - 1 else depth
      (splitComma next rest).map fun (key, value) => (c :: key, value)

/-- What kind of type a text without outer blanks names, arguments unread. -/
inductive Head where
  | empty
  | void
  | scalar (kind : ScalarKind)
  | enumeration (name : List Char)
  | list (argument : Option (List Char))
  | optional (argument : Option (List Char))
  | map (arguments : Option (List Char))
  | bean

/-- The kind of type a text names; the first reading that applies wins. -/
def head (s : List Char) : Head :=
  if s = [] then .empty
  else if s = "void".toList then .void
  else match ScalarKind.ofName? s with
    | some kind => .scalar kind
    | none =>
      match Cut.after? "enum:".toList s with
      | some name => .enumeration name
      | none =>
        match argument? "List<" s with
        | some inner => .list inner
        | none =>
          match argument? "Optional<" s with
          | some inner => .optional inner
          | none =>
            match argument? "Map<" s with
            | some inner => .map inner
            | none => .bean

/-- An argument is shorter than the type that it stands in. -/
theorem length_of_argument? {opening : String} {cs inner : List Char}
    (h : argument? opening cs = some (some inner)) (hne : opening.toList ≠ []) :
    inner.length < cs.length := by
  unfold argument? at h
  obtain ⟨rest, hrest, hinner⟩ := Option.map_eq_some_iff.mp h
  have hcs : cs = opening.toList ++ rest := Cut.after?_eq_some_iff.mp hrest
  split at hinner
  · cases hinner
    have hpos : 0 < opening.toList.length := List.length_pos_iff.mpr hne
    have := congrArg List.length hcs
    simp only [List.length_append, List.length_dropLast] at this ⊢
    omega
  · cases hinner

/-- Both sides of a comma are shorter than the whole. -/
theorem length_of_splitComma {depth : Nat} {cs key value : List Char}
    (h : splitComma depth cs = some (key, value)) :
    key.length < cs.length ∧ value.length < cs.length := by
  induction cs generalizing depth key value with
  | nil => simp [splitComma] at h
  | cons c rest ih =>
    unfold splitComma at h
    split at h
    · cases h
      simp
    · obtain ⟨⟨k, v⟩, hkv, heq⟩ := Option.map_eq_some_iff.mp h
      cases heq
      have := ih hkv
      simp only [List.length_cons]
      omega

/-- The argument of a container is shorter than its name. -/
theorem length_of_head {s inner : List Char}
    (h : head s = .list (some inner) ∨ head s = .optional (some inner)
      ∨ head s = .map (some inner)) : inner.length < s.length := by
  unfold head at h
  repeat' split at h
  all_goals simp at h
  · rename_i heq
    subst h
    exact length_of_argument? heq (by decide)
  · rename_i heq
    subst h
    exact length_of_argument? heq (by decide)
  · rename_i heq
    subst h
    exact length_of_argument? heq (by decide)

/-- Trimming makes no text longer. -/
theorem length_trimChars_le (cs : List Char) : (Blank.trimChars cs).length ≤ cs.length := by
  have h (l : List Char) : (l.dropWhile Blank.isWide).length ≤ l.length :=
    (List.dropWhile_sublist _).length_le
  unfold Blank.trimChars
  have h1 := h cs
  have h2 := h (cs.dropWhile Blank.isWide).reverse
  simp only [List.length_reverse] at h2 ⊢
  omega

/-- Reads a type name. -/
def parseChars (text : List Char) : Except Error Shape :=
  let s := Blank.trimChars text
  match _h : head s with
  | .empty => .error .empty
  | .void => .ok .void
  | .scalar kind => .ok (.scalar kind)
  | .enumeration name => (identifier name).map .enumeration
  | .list none | .optional none | .map none => .error (.unbalanced (String.ofList s))
  | .list (some inner) => (parseChars inner).map .list
  | .optional (some inner) => (parseChars inner).map .optional
  | .map (some inner) =>
    match _hsplit : splitComma 0 inner with
    | none => .error (.oneArgument (String.ofList s))
    | some (key, value) =>
      -- of two faults the one of the key is told
      match parseChars key, parseChars value with
      | .error e, _ => .error e
      | .ok _, .error e => .error e
      | .ok k, .ok v => .ok (.map k v)
  | .bean => (identifier s).map .bean
termination_by text.length
decreasing_by
  · exact Nat.lt_of_lt_of_le (length_of_head (Or.inl _h)) (length_trimChars_le text)
  · exact Nat.lt_of_lt_of_le (length_of_head (Or.inr (Or.inl _h))) (length_trimChars_le text)
  · exact Nat.lt_of_lt_of_le (Nat.lt_trans (length_of_splitComma _hsplit).1
      (length_of_head (Or.inr (Or.inr _h)))) (length_trimChars_le text)
  · exact Nat.lt_of_lt_of_le (Nat.lt_trans (length_of_splitComma _hsplit).2
      (length_of_head (Or.inr (Or.inr _h)))) (length_trimChars_le text)

/-- Reads a type name. -/
def parse (text : String) : Except Error Shape := parseChars text.toList

end Shape

end ServiceCall
