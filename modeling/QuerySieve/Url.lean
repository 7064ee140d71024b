import QuerySieve.Text.Percent
import QuerySieve.Url.Address

/-!
# QuerySieve.Url

URLs: their parts, reading and writing.

Reading is lenient as the URL standard demands. Control characters and blanks at the ends and line
breaks anywhere are dropped, the scheme is lowered, what may not stand for itself is
percent-encoded, and `.` and `..` in a path are resolved. A text is no URL if it has no scheme, if
credentials or a port come without a host, if a host has a forbidden character, or if a port is out
of range. Writing a URL that was read gives its normal form.
-/

namespace QuerySieve

namespace Url

/-- Where a resource lives. -/
inductive Host
  /-- A name; the empty one where there is none. -/
  | name (text : String)
  | ipv4 (address : Nat)
  | ipv6 (pieces : List Nat)
  deriving DecidableEq, Repr

/-- Who asks whom: credentials, host and port. -/
structure Authority where
  username : String := ""
  /-- Never empty. -/
  password : Option String := none
  host : Host := .name ""
  port : Option Nat := none
  deriving DecidableEq, Repr

/-- What a URL leads to, seen from its host. -/
inductive Path
  /-- A text without structure. -/
  | plain (text : String)
  /-- Segments, each after a slash. -/
  | segments (names : List String)
  deriving DecidableEq, Repr

/-- How a scheme treats host and path. -/
inductive SchemeKind
  /-- A web scheme with this default port: a host is obligatory, and a backslash is a slash. -/
  | web (defaultPort : Nat)
  | file
  | other
  deriving DecidableEq, Repr

end Url

/-- A URL in its parts, all of them percent-encoded where they have to be. -/
structure Url where
  scheme : String
  authority : Option Url.Authority
  path : Url.Path
  query : Option String
  fragment : Option String
  deriving DecidableEq, Repr

namespace Url

/-! ## Which characters stand for themselves -/

/-- A visible ASCII character or a blank. -/
def isPlain (c : Char) : Bool := 0x20 ≤ c.toNat && c.toNat ≤ 0x7E

/-- In a fragment. -/
def isFragmentChar (c : Char) : Bool := isPlain c && !" \"<>`".toList.contains c

/-- In a query; a web scheme encodes the apostrophe too. -/
def isQueryChar (kind : SchemeKind) (c : Char) : Bool :=
  isPlain c && !" \"#<>".toList.contains c && (kind == .other || c != '\'')

/-- In a path with segments. -/
def isPathChar (c : Char) : Bool := isFragmentChar c && !"#?\x7b\x7d".toList.contains c

/-- In credentials. -/
def isUserChar (c : Char) : Bool := isPathChar c && !"/:;=@[\\]^|".toList.contains c

/-- A text with the characters encoded that do not pass. -/
def encoded (plain : Char → Bool) (cs : List Char) : String :=
  .ofList (Text.Percent.encode plain cs)

/-! ## Schemes -/

/-- The kind of a scheme, given in lower case. -/
def schemeKind : String → SchemeKind
  | "file" => .file
  | "http" | "ws" => .web 80
  | "https" | "wss" => .web 443
  | "ftp" => .web 21
  | _ => .other

/-- Does a character end the host and part segments? -/
def isSlash (kind : SchemeKind) (c : Char) : Bool := c == '/' || (kind != .other && c == '\\')

/-- A character of a scheme after its first, which is a letter. -/
def isSchemeChar (c : Char) : Bool := c.isAlphanum || c == '+' || c == '-' || c == '.'

/-- The scheme in lower case, and what comes after the colon. -/
def cutScheme? (cs : List Char) : Option (String × List Char) :=
  match cs.dropWhile isSchemeChar with
  | ':' :: rest =>
    let scheme := cs.takeWhile isSchemeChar
    if scheme.head?.any Char.isAlpha then some (.ofList (scheme.map Char.toLower), rest) else none
  | _ => none

/-! ## Authority -/

/-- A character that no host has. -/
def isForbiddenInHost (c : Char) : Bool :=
  c.toNat == 0 || "\t\n\r #/:<>?@[\\]^|".toList.contains c

/-- The host of a web scheme: encoded bytes are meant as what they stand for, letters are lowered,
and a name that ends in a number is an address. Names beyond ASCII are not admitted. -/
def webHost? (cs : List Char) : Option Host :=
  let name := (Text.Utf8.decode (Text.Percent.decode (Text.Utf8.encode cs))).map Char.toLower
  if name = [] ∨ name.any (fun c => isForbiddenInHost c || !isPlain c || c == '%') then none
  else if endsInNumber name then (ipv4? name).map .ipv4
  else some (.name (.ofList name))

/-- The host that a text names. -/
def host? (kind : SchemeKind) (cs : List Char) : Option Host :=
  match cs with
  | '[' :: rest =>
    if rest.getLast? = some ']' then (ipv6? rest.dropLast).map .ipv6 else none
  | _ =>
    if kind = .other then
      if cs.any isForbiddenInHost then none else some (.name (encoded isPlain cs))
    else webHost? cs

/-- What stands before the colon of the port, and what stands after it if there is one. -/
def cutPort : Bool → List Char → List Char × Option (List Char)
  | _, [] => ([], none)
  | bracketed, c :: cs =>
    if c = ':' ∧ !bracketed then ([], some cs)
    else
      let bracketed := if c = '[' then true else if c = ']' then false else bracketed
      let (host, port) := cutPort bracketed cs
      (c :: host, port)

/-- A port up to 65535; none if nothing is written or it is the default of the scheme. -/
def port? (kind : SchemeKind) (cs : List Char) : Option (Option Nat) :=
  if cs = [] then some none
  else do
    let port ← Text.digits? cs
    if 65535 < port then none
    else if kind = .web port then return none
    else return some port

/-- Username and password before the last `@`, encoded. An empty password is none. -/
def credentials (cs : List Char) : String × Option String :=
  let password := (cs.dropWhile (· != ':')).drop 1
  (encoded isUserChar (cs.takeWhile (· != ':')),
    if password = [] then none else some (encoded isUserChar password))

/-- What stands before and after the last `@`, if there is one. -/
def cutCredentials (cs : List Char) : Option (List Char) × List Char :=
  if cs.contains '@' then
    let reversed := cs.reverse
    (some ((reversed.dropWhile (· != '@')).drop 1).reverse, (reversed.takeWhile (· != '@')).reverse)
  else (none, cs)

/-- Reads what stands between `//` and the path. `ends` says whether the URL ends there. -/
def authority? (kind : SchemeKind) (ends : Bool) (cs : List Char) : Option Authority := do
  let (user, place) := cutCredentials cs
  if user = some [] ∧ place = [] ∧ !ends then none
  let (username, password) := credentials (user.getD [])
  let (hostText, portText) := cutPort false place
  let host ← if hostText = [] ∧ kind = .other then some (.name "") else host? kind hostText
  let port ← port? kind (portText.getD [])
  if host = .name "" ∧ (portText.isSome ∨ username ≠ "" ∨ password.isSome) then none
  return { username, password, host, port }

/-! ## Path -/

/-- A segment that stands for the place reached so far. -/
def isHere (segment : List Char) : Bool :=
  [".", "%2e"].contains (String.ofList (segment.map Char.toLower))

/-- A segment that stands for the place above. -/
def isAbove (segment : List Char) : Bool :=
  ["..", ".%2e", "%2e.", "%2e%2e"].contains (String.ofList (segment.map Char.toLower))

/-- The segments with `.` and `..` resolved; at the end they leave an empty segment. -/
def resolveSegments (done : List String) : List (List Char) → List String
  | [] => done
  | segment :: rest =>
    let done :=
      if isAbove segment then done.dropLast
      else if isHere segment then done
      else done ++ [encoded isPathChar segment]
    let done := if rest.isEmpty && (isAbove segment || isHere segment) then done ++ [""] else done
    resolveSegments done rest

/-- Cuts a path at its slashes. -/
def cutSegments (kind : SchemeKind) (cs : List Char) : List (List Char) :=
  Text.splitChars '/' (cs.map fun c => if isSlash kind c then '/' else c)

/-- The path after a host. Only another scheme can do without a first slash. -/
def pathAfterHost (kind : SchemeKind) (cs : List Char) : Path :=
  match cs with
  | [] => .segments (if kind = .other then [] else [""])
  | c :: rest =>
    .segments (resolveSegments [] (cutSegments kind (if isSlash kind c then rest else cs)))

/-- The path of a file: empty segments at its start do not count. -/
def filePath (cs : List Char) : Path :=
  match pathAfterHost .file cs with
  | .segments names =>
    let names := names.dropWhile (· == "")
    .segments (if names = [] then [""] else names)
  | path => path

/-! ## Reading -/

/-- Authority and path of a file URL. -/
def fileBody? (cs : List Char) : Option (Option Authority × Path) :=
  let slash := isSlash .file
  match cs with
  | a :: b :: rest =>
    if slash a && slash b then do
      let name := rest.takeWhile fun c => !slash c
      let host ← if name = [] then some (.name "") else host? .file name
      let host := if host = .name "localhost" then .name "" else host
      return (some { host }, filePath (rest.dropWhile fun c => !slash c))
    else some (some {}, filePath cs)
  | _ => some (some {}, filePath cs)

/-- Authority and path of a URL of any kind. `ends` says whether no query or fragment follows. -/
def body? (kind : SchemeKind) (ends : Bool) (cs : List Char) : Option (Option Authority × Path) :=
  match kind with
  | .file => fileBody? cs
  | .web _ => do
    let rest := cs.dropWhile (isSlash kind)
    let path := rest.dropWhile fun c => !isSlash kind c
    let authority ← authority? kind (ends && path.isEmpty) (rest.takeWhile fun c => !isSlash kind c)
    return (some authority, pathAfterHost kind path)
  | .other =>
    match cs with
    | '/' :: '/' :: rest => do
      let path := rest.dropWhile (· != '/')
      let authority ← authority? kind (ends && path.isEmpty) (rest.takeWhile (· != '/'))
      return (some authority, pathAfterHost kind path)
    | '/' :: _ => some (none, pathAfterHost kind cs)
    | _ => some (none, .plain (encoded isPlain cs))

/-- A text without control characters and blanks at its ends, and without line breaks and tabs. -/
def cleaned (text : String) : List Char :=
  let isEdge (c : Char) : Bool := c.toNat ≤ 0x20
  let cs := ((text.toList.dropWhile isEdge).reverse.dropWhile isEdge).reverse
  cs.filter fun c => c != '\t' && c != '\n' && c != '\r'

/-- What stands before the first of a mark, and what stands after it if there is one. -/
def cutAt (mark : Char) (cs : List Char) : List Char × Option (List Char) :=
  match cs.dropWhile (· != mark) with
  | _ :: rest => (cs.takeWhile (· != mark), some rest)
  | [] => (cs, none)

/-- Reads a URL. -/
def parse? (text : String) : Option Url := do
  let (scheme, rest) ← cutScheme? (cleaned text)
  let kind := schemeKind scheme
  let (rest, fragment) := cutAt '#' rest
  let (rest, query) := cutAt '?' rest
  let (authority, path) ← body? kind (query.isNone && fragment.isNone) rest
  return {
    scheme, authority, path
    query := query.map (encoded (isQueryChar kind))
    fragment := fragment.map (encoded isFragmentChar) }

/-! ## Writing -/

/-- A host as it is written. -/
def Host.text : Host → String
  | name text => text
  | ipv4 address => ipv4Text address
  | ipv6 pieces => "[" ++ ipv6Text pieces ++ "]"

/-- Credentials with the mark after them, if there are any. -/
def Authority.credentialsText (a : Authority) : String :=
  match a.password with
  | some password => a.username ++ ":" ++ password ++ "@"
  | none => if a.username = "" then "" else a.username ++ "@"

/-- An authority with the slashes before it. -/
def Authority.text (a : Authority) : String :=
  "//" ++ a.credentialsText ++ a.host.text
    ++ (match a.port with
      | some port => ":" ++ toString port
      | none => "")

/-- A path as it is written. -/
def Path.text : Path → String
  | plain text => text
  | segments names => String.join (names.map ("/" ++ ·))

/-- What keeps a path that begins with two slashes from being read as an authority. -/
def pathGuard (url : Url) : String :=
  match url.authority, url.path with
  | none, .segments ("" :: _ :: _) => "/."
  | _, _ => ""

/-- A part with its mark before it, if there is one. -/
def marked (mark : String) : Option String → String
  | some part => mark ++ part
  | none => ""

/-- The URL as it is written. -/
def text (url : Url) : String :=
  url.scheme ++ ":" ++ marked "" (url.authority.map Authority.text)
    ++ url.pathGuard ++ url.path.text ++ marked "?" url.query ++ marked "#" url.fragment

/-- The same URL with stars in place of its password, if it has one. -/
def maskPassword (url : Url) : Url :=
  { url with
    authority := url.authority.map fun a => { a with password := a.password.map fun _ => "***" } }

end Url

end QuerySieve
