import ServiceCall.Decimal.Reader
import ServiceCall.Text.Cut

/-!
# Options of a command

An option has a long name, and may have a letter. Every option takes a value, in the next argument or
behind an equals sign, behind the letter also directly. An option that may be repeated collects its
values, any other is given once. A value is checked when the next option starts.
-/

namespace ServiceCall.CommandLine

/-- A pair of a name and a value, the name not empty. -/
def namePair? (s : String) : Option (String × String) :=
  match Cut.atFirst? '=' s.toList with
  | some (c :: name, value) => some (String.ofList (c :: name), String.ofList value)
  | _ => none

/-- Why a text is no pair of a name and a value. -/
def namePairMessage (s : String) : String := "expected name=value, got " ++ s

/-- A pair is read off its parts again. -/
theorem namePair?_append {c : Char} {name value : List Char} (h : '=' ∉ c :: name) :
    namePair? (String.ofList (c :: name ++ '=' :: value))
      = some (String.ofList (c :: name), String.ofList value) := by
  have cut : ∀ {before : List Char}, '=' ∉ before →
      Cut.atFirst? '=' (before ++ '=' :: value) = some (before, value) := by
    intro before
    induction before with
    | nil => intro _; simp [Cut.atFirst?]
    | cons d rest ih =>
      intro hd
      simp only [List.mem_cons, not_or] at hd
      simp [Cut.atFirst?, Ne.symm hd.1, ih hd.2]
  have found := cut h
  rw [List.cons_append] at found
  simp [namePair?, found]

/-- A number of 32 bits, in decimal digits with an optional sign. -/
def count? (s : String) : Option Nat :=
  match Decimal.integer? s.toList with
  | some n => if 0 ≤ n ∧ n < 2 ^ 32 then some n.toNat else none
  | none => none

/-- What the values of an option are. -/
inductive ValueKind where
  | path
  | text
  | pair
  | count
deriving DecidableEq, Repr

/-- Why arguments are refused, or are not to be carried out. -/
inductive ArgumentError where
  /-- An option has no value, or an empty one where a path is wanted. -/
  | invalidValue
  | valueValidation
  | unknownArgument
  /-- A value for an option that takes none. -/
  | tooManyValues
  /-- An option is given twice. -/
  | argumentConflict
  | missingRequiredArgument
  | invalidSubcommand
  /-- Help is asked for, about a command or about all of them. -/
  | displayHelp (command : Option String)
  /-- No command is given. -/
  | displayHelpOnMissingArgumentOrSubcommand
deriving DecidableEq, Repr

/-- An option of a command. -/
structure OptionSpec where
  long : String
  letter : Option Char := none
  kind : ValueKind := .text
  required : Bool := false
  repeated : Bool := false
  about : String := ""
  standard : Option String := none
deriving DecidableEq, Repr

/-- A value that the option can take. -/
def OptionSpec.check (o : OptionSpec) (value : String) : Except ArgumentError Unit :=
  match o.kind with
  | .path => if value == "" then .error .invalidValue else .ok ()
  | .text => .ok ()
  | .pair => if (namePair? value).isSome then .ok () else .error .valueValidation
  | .count => if (count? value).isSome then .ok () else .error .valueValidation

/-- Options read so far: those that were checked, and the last one with its value if it has come. -/
structure Found where
  values : List (String × String) := []
  pending : Option (OptionSpec × Option String) := none

namespace Found

/-- Takes up an option with its value. -/
def take (f : Found) (o : OptionSpec) (value : String) : Except ArgumentError Found :=
  if !o.repeated && f.values.any (·.1 == o.long) then .error .argumentConflict
  else (o.check value).map fun _ => { f with values := f.values ++ [(o.long, value)] }

/-- Takes up the option that waits. -/
def settle (f : Found) : Except ArgumentError Found :=
  match f.pending with
  | none => .ok f
  | some (_, none) => .error .invalidValue
  | some (o, some value) => { f with pending := none }.take o value

/-- The values of an option. -/
def all (f : Found) (long : String) : List String :=
  (f.values.filter (·.1 == long)).map Prod.snd

/-- The value of an option that is given once. -/
def one? (f : Found) (long : String) : Option String := f.values.lookup long

end Found

/-- An option starts; its value is in the same argument or will come. -/
def startOption (o : OptionSpec) (value : Option String) (f : Found) : Except ArgumentError Found := do
  let f ← f.settle
  match value with
  | some v => f.take o v
  | none => return { f with pending := some (o, none) }

/-- An argument that starts with two dashes. -/
def longArgument (command : Option String) (options : List OptionSpec) (body : List Char) (f : Found) :
    Except ArgumentError Found := do
  let (name, value) := match Cut.atFirst? '=' body with
    | some (name, value) => (String.ofList name, some (String.ofList value))
    | none => (String.ofList body, none)
  if name == "help" then
    if value.isSome then throw .tooManyValues
    else
      -- an option that lacks its value is told before any help
      let _ ← f.settle
      throw (.displayHelp command)
  else
    match options.find? (·.long == name) with
    | some o => startOption o value f
    | none => throw .unknownArgument

/-- An argument that starts with one dash and a letter. -/
def shortArgument (command : Option String) (options : List OptionSpec) (letter : Char)
    (rest : List Char) (f : Found) : Except ArgumentError Found := do
  if letter == 'h' then
    let _ ← f.settle
    throw (.displayHelp command)
  else
    match options.find? (·.letter == some letter) with
    | none => throw .unknownArgument
    | some o =>
      match rest with
      | [] => startOption o none f
      -- a value may stand right behind the letter, with or without a sign between
      | '=' :: value => startOption o (some (String.ofList value)) f
      | value => startOption o (some (String.ofList value)) f

/-- Reads the arguments of a command, none of which stands by itself. Behind two dashes nothing is an
option any more. -/
def readOptions (command : Option String) (options : List OptionSpec) :
    Found → List String → Except ArgumentError Found
  | f, [] => f.settle
  | f, argument :: rest =>
    match argument.toList with
    | ['-', '-'] => if rest.isEmpty then f.settle else .error .unknownArgument
    | '-' :: '-' :: body =>
      match longArgument command options body f with
      | .ok f => readOptions command options f rest
      | .error e => .error e
    | '-' :: letter :: body =>
      match shortArgument command options letter body f with
      | .ok f => readOptions command options f rest
      | .error e => .error e
    | _ =>
      -- what is no option is the value of the one before, if that waits for one
      match f.pending with
      | some (o, none) => readOptions command options { f with pending := some (o, some argument) } rest
      | _ => .error .unknownArgument

/-- Reads all arguments of a command; the required options are among them. -/
def readAll (command : String) (options : List OptionSpec) (arguments : List String) :
    Except ArgumentError Found := do
  let f ← readOptions (some command) options {} arguments
  if options.any fun o => o.required && (f.one? o.long).isNone then throw .missingRequiredArgument
  else return f

end ServiceCall.CommandLine
