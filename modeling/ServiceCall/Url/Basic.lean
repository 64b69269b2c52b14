import ServiceCall.Url.Host

/-!
# URLs

A URL in its parts, as they stand in its text: schemes in small letters, all other parts with their
escapes. A URL with an authority or with a path of segments can be extended; one with an opaque path
cannot.
-/

namespace ServiceCall

namespace Url

/-- Schemes with rules of their own, and all others. -/
inductive SchemeKind where
  | web
  | file
  | other
deriving DecidableEq, Repr

/-- The kind of a scheme. -/
def schemeKind (scheme : List Char) : SchemeKind :=
  if scheme = "file".toList then .file
  else if ["http", "https", "ws", "wss", "ftp"].any (fun s => s.toList == scheme) then .web
  else .other

/-- The scheme follows the rules of web addresses or files. -/
def SchemeKind.isSpecial : SchemeKind → Bool
  | .other => false
  | _ => true

/-- The port that a scheme uses if none is given. -/
def defaultPort? (scheme : List Char) : Option Nat :=
  if scheme = "http".toList ∨ scheme = "ws".toList then some 80
  else if scheme = "https".toList ∨ scheme = "wss".toList then some 443
  else if scheme = "ftp".toList then some 21
  else none

/-- User, password, host and port. -/
structure Authority where
  username : List Char := []
  password : Option (List Char) := none
  host : Host
  port : Option Nat := none
deriving DecidableEq, Repr

/-- A path: segments, each behind a slash, or a text that is no path of segments. -/
inductive Path where
  | segments (items : List (List Char))
  | opaqueText (chars : List Char)
deriving DecidableEq, Repr

/-- The text of segments. -/
def segmentsChars (items : List (List Char)) : List Char := items.flatMap fun s => '/' :: s

/-- The text of a path. -/
def Path.chars : Path → List Char
  | .segments items => segmentsChars items
  | .opaqueText cs => cs

/-- User and password before the host, with their signs. -/
def Authority.credentials (a : Authority) : List Char :=
  if a.username.isEmpty ∧ a.password.isNone then []
  else
    a.username ++ (match a.password with
      | some p => ':' :: p
      | none => []) ++ ['@']

/-- The text of an authority. -/
def Authority.chars (a : Authority) : List Char :=
  a.credentials ++ a.host.chars ++ (match a.port with
    | some p => ':' :: Host.decimal p
    | none => [])

end Url

/-- A URL. -/
structure Url where
  scheme : List Char
  authority : Option Url.Authority
  path : Url.Path
  query : Option (List Char) := none
  fragment : Option (List Char) := none
deriving DecidableEq, Repr

namespace Url

/-- What stands between the scheme and the path: the authority, or a dot segment that keeps two
slashes of a path from being read as the start of one. -/
def lead (u : Url) : List Char :=
  match u.authority, u.path with
  | some a, _ => '/' :: '/' :: a.chars
  | none, .segments ([] :: _ :: _) => ['/', '.']
  | none, _ => []

/-- A part behind its sign, if it is there. -/
def behind (sign : Char) : Option (List Char) → List Char
  | some cs => sign :: cs
  | none => []

/-- The text of a URL. -/
def chars (u : Url) : List Char :=
  u.scheme ++ ':' :: u.lead ++ u.path.chars ++ behind '?' u.query ++ behind '#' u.fragment

/-- The text of a URL. -/
def text (u : Url) : String := String.ofList u.chars

/-- The path is no path of segments. -/
def isOpaque (u : Url) : Bool :=
  match u.path with
  | .segments _ => false
  | .opaqueText _ => true

end Url

end ServiceCall
