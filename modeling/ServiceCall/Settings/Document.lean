import ServiceCall.Settings.Layer
import ServiceCall.Toml.Document
import ServiceCall.Yaml.Reader

/-!
# Documents of settings

A document is written in one of two formats, which the extension of its file tells. A file may be
named without its extension.
-/

namespace ServiceCall

/-- A format of documents. -/
inductive Format where
  | toml
  | yaml
deriving DecidableEq, Repr

namespace Format

/-- The extensions of files, each with its format. -/
def extensions : List (String × Format) := [("toml", .toml), ("yaml", .yaml), ("yml", .yaml)]

/-- The table that a text holds in the format. -/
def read? : Format → String → Option Node
  | .toml, text => Toml.read? text
  | .yaml, text => Yaml.read? text

/-- The settings of a single document. -/
def settings? (f : Format) (text : String) : Option Node :=
  (f.read? text).map fun n => Node.layer (.table []) n.entries

end Format

/-- The texts of files by their paths. -/
abbrev Files := String → Option String

namespace Files

/-- The last part of a path. -/
def lastPart (path : String) : List Char := (path.toList.reverse.takeWhile (· != '/')).reverse

/-- What stands behind the last point of a file's name, if something stands before it. -/
def extension (path : String) : String :=
  let reversed := (lastPart path).reverse
  match reversed.dropWhile (· != '.') with
  | '.' :: _ :: _ => String.ofList (reversed.takeWhile (· != '.')).reverse
  | _ => ""

/-- What stands before the last part of a path. -/
def directory (path : String) : String :=
  String.ofList ((path.toList.reverse.dropWhile (· != '/')).drop 1).reverse

/-- The paths at which the document of a name may be. -/
def candidates (name : String) : List String :=
  name :: Format.extensions.map fun e => name ++ "." ++ e.1

/-- Why a document cannot be read. -/
inductive Error where
  | unknownFormat (path : String)
  | notFound (name : String)
  | unreadable (path : String)
deriving DecidableEq, Repr

/-- The text for a reader. -/
def Error.message : Error → String
  | .unknownFormat path =>
    "configuration file " ++ "\"" ++ path ++ "\" is not of a registered file format"
  | .notFound name => "configuration file " ++ "\"" ++ name ++ "\" not found"
  | .unreadable path => "document cannot be read, path=" ++ path

/-- The document of a name: its path, its format and its text. -/
def find (files : Files) (name : String) : Except Error (String × Format × String) :=
  match files name with
  | some text =>
    match Format.extensions.lookup (extension name) with
    | some f => .ok (name, f, text)
    | none => .error (.unknownFormat name)
  | none =>
    let found := Format.extensions.findSome? fun (e, f) =>
      let path := name ++ "." ++ e
      (files path).map fun text => (path, f, text)
    match found with
    | some document => .ok document
    | none => .error (.notFound name)

/-- The text of a document behind the mark that may start it. -/
def withoutMark (text : String) : String :=
  match text.toList with
  | c :: rest => if c.toNat = 0xFEFF then String.ofList rest else text
  | [] => text

/-- The entries at the top of the document of a name. -/
def read (files : Files) (name : String) : Except Error (List (String × Node)) := do
  let (path, f, text) ← find files name
  match f.read? (withoutMark text) with
  | some n => return n.entries
  | none => throw (.unreadable path)

end Files

end ServiceCall
