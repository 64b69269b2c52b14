import ServiceCall.Url.Path

/-!
# Reading URLs

An absolute URL is cut into its parts from left to right. Blanks and controls at both ends are
dropped, tabs and line breaks everywhere.
-/

namespace ServiceCall.Url

/-- Characters dropped at the ends. -/
def isOuter (c : Char) : Bool := c.toNat ≤ 32

/-- The characters of a URL that count. -/
def clean (cs : List Char) : List Char :=
  (((cs.dropWhile isOuter).reverse.dropWhile isOuter).reverse).filter (!isSkipped ·)

/-- A letter, digit, plus, minus or point. -/
def isSchemeChar (c : Char) : Bool := c.isAlphanum || c == '+' || c == '-' || c == '.'

/-- The scheme before the first colon, in small letters, and what follows it. -/
def takeScheme? (cs : List Char) : Option (List Char × List Char) :=
  match cs.dropWhile isSchemeChar with
  | ':' :: rest =>
    let scheme := cs.takeWhile isSchemeChar
    match scheme with
    | [] => none
    | c :: _ => if c.isAlpha then some (scheme.map Char.toLower, rest) else none
  | _ => none

/-- The character ends an authority. -/
def endsAuthority (kind : SchemeKind) (c : Char) : Bool := isSlash kind c || c == '?' || c == '#'

/-- The parts of an authority before and behind its last `@`. -/
def splitCredentials (cs : List Char) : Option (List Char) × List Char :=
  match Cut.atLast? '@' cs with
  | some (before, after) => (some before, after)
  | none => (none, cs)

/-- User and password; an empty password is none. -/
def readCredentials (cs : List Char) : List Char × Option (List Char) :=
  let user := Percent.encode Percent.inUserInfo (cs.takeWhile (· != ':'))
  match cs.dropWhile (· != ':') with
  | _ :: p :: rest => (user, some (Percent.encode Percent.inUserInfo (p :: rest)))
  | _ => (user, none)

/-- The host before the first colon outside brackets, and what follows it. -/
def splitHost : Bool → List Char → List Char × List Char
  | _, [] => ([], [])
  | inside, c :: rest =>
    if c == ':' && !inside then ([], c :: rest)
    else
      let next := if c == '[' then true else if c == ']' then false else inside
      let (host, after) := splitHost next rest
      (c :: host, after)

/-- The port behind a colon, and what follows its digits; the usual port of the scheme is none. -/
def readPort (scheme : List Char) (cs : List Char) : Except Error (Option Nat × List Char) :=
  match cs with
  | ':' :: rest =>
    let digits := rest.takeWhile Char.isDigit
    let after := rest.dropWhile Char.isDigit
    let port := Host.valueIn 10 digits
    if 65535 < port then .error .invalidPort
    else
      match after with
      | [] | '\\' :: _ =>
        -- the usual port of a scheme is not kept
        .ok (if digits.isEmpty || defaultPort? scheme == some port then none else some port, after)
      | _ => .error .invalidPort
  | other => .ok (none, other)

/-- The authority in `cs`, and what it leaves to the path; `last` if nothing follows the authority. -/
def readAuthority [Idna] (scheme : List Char) (cs : List Char) (last : Bool) :
    Except Error (Authority × List Char) := do
  let kind := schemeKind scheme
  let (credentials, rest) := splitCredentials cs
  if credentials == some [] && rest.isEmpty && !last then throw .emptyHost
  let (username, password) := readCredentials (credentials.getD [])
  let (hostChars, rest) := splitHost false rest
  if hostChars.isEmpty && kind.isSpecial then throw .emptyHost
  let host ← if kind.isSpecial then Host.parse hostChars else Host.parseAny hostChars
  if hostChars.isEmpty && rest.head? == some ':' then throw .emptyHost
  let (port, rest) ← readPort scheme rest
  if hostChars.isEmpty && (!username.isEmpty || password.isSome) then throw .emptyHost
  return ({ username, password, host, port }, rest)

/-- The segments of a path behind an authority; special schemes always have one. -/
def readPath (kind : SchemeKind) (cs : List Char) : Path :=
  match cs with
  | [] => .segments (if kind.isSpecial then [[]] else [])
  | c :: rest => .segments (readSegments kind (if isSlash kind c then rest else cs))

/-- The path, query and fragment in the rest of a URL. -/
def splitTail (cs : List Char) : List Char × Option (List Char) × Option (List Char) :=
  let (main, fragment) := match Cut.atFirst? '#' cs with
    | some (main, fragment) => (main, some fragment)
    | none => (cs, none)
  match Cut.atFirst? '?' main with
  | some (path, query) => (path, some query, fragment)
  | none => (main, none, fragment)

/-- Escapes a query by the rules of its scheme. -/
def encodeQuery (kind : SchemeKind) (cs : List Char) : List Char :=
  Percent.encode (if kind.isSpecial then Percent.inSpecialQuery else Percent.inQuery) cs

/-- The URL with the given scheme, authority and path, and with query and fragment still to escape. -/
def assemble (scheme : List Char) (authority : Option Authority) (path : Path)
    (query fragment : Option (List Char)) : Url :=
  { scheme, authority, path
    query := query.map (encodeQuery (schemeKind scheme))
    fragment := fragment.map (Percent.encode Percent.inFragment) }

/-- A URL whose authority starts at the head of `cs`. -/
def readNetwork [Idna] (scheme : List Char) (cs : List Char) : Except Error Url := do
  let kind := schemeKind scheme
  let authority := cs.takeWhile (!endsAuthority kind ·)
  let after := cs.dropWhile (!endsAuthority kind ·)
  let (authority, rest) ← readAuthority scheme authority after.isEmpty
  let (path, query, fragment) := splitTail (rest ++ after)
  return assemble scheme (some authority) (readPath kind path) query fragment

/-- The host of a file; the own machine has no name. -/
def readFileHost [Idna] (cs : List Char) : Except Error Host :=
  if cs.isEmpty then .ok (.name [])
  else (Host.parse cs).map fun host => if host = .name "localhost".toList then .name [] else host

/-- A file URL; a host before a path that starts with a drive is dropped. -/
def readFile [Idna] (scheme : List Char) (cs : List Char) : Except Error Url := do
  let (main, query, fragment) := splitTail cs
  let slash := isSlash .file
  let (host, path) ← match main with
    | a :: b :: rest =>
      if slash a && slash b then
        let name := rest.takeWhile (!slash ·)
        -- a drive in the place of the host is the start of the path
        if isDrive name then pure (Host.name [], rest)
        else do
          let host ← readFileHost name
          pure (host, (rest.dropWhile (!slash ·)).drop 1)
      else if slash a then pure (Host.name [], b :: rest)
      else pure (Host.name [], main)
    | [a] => pure (Host.name [], if slash a then [] else main)
    | [] => pure (Host.name [], [])
  let items := readSegments .file path
  let host := if (items.head?.map isDrive).getD false then Host.name [] else host
  return assemble scheme (some { host }) (.segments items) query fragment

/-- A URL of a scheme without rules of its own. -/
def readOther [Idna] (scheme : List Char) (cs : List Char) : Except Error Url :=
  match cs with
  | '/' :: '/' :: rest => readNetwork scheme rest
  | _ =>
    let (main, query, fragment) := splitTail cs
    match main with
    | '/' :: path => .ok (assemble scheme none (.segments (readSegments .other path)) query fragment)
    | _ => .ok (assemble scheme none (.opaqueText (Percent.encode Percent.isControl main)) query fragment)

/-- Reads an absolute URL. -/
def parseChars [Idna] (text : List Char) : Except Error Url :=
  match takeScheme? (clean text) with
  | none => .error .relative
  | some (scheme, rest) =>
    match schemeKind scheme with
    | .web => readNetwork scheme (rest.dropWhile fun c => c == '/' || c == '\\')
    | .file => readFile scheme rest
    | .other => readOther scheme rest

/-- Reads an absolute URL. -/
def parse [Idna] (text : String) : Except Error Url := parseChars text.toList

end ServiceCall.Url
