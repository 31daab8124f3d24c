import Cadence.Url.Host
import Cadence.Url.Path

/-!
# URLs

URLs of the web are kept in their parts; of any other URL only the scheme is kept, once it is clear that it is
one. Blanks around a text, and tabs and line ends inside it, do not belong to the URL.

* `Url.text` writes the parts of a URL of the web.
* `Url.parse` reads a text; of its errors, those in front of the host come before those of the host, and these
  before those of the port.
-/

namespace Cadence

namespace Url

/-- The schemes of the web. -/
inductive Scheme where
  | http
  | https
deriving DecidableEq, Repr

/-- The name of a scheme. -/
def Scheme.name : Scheme → String
  | http => "http"
  | https => "https"

end Url

/-- A URL of the web. The user stands as in the text, without the sign after it; no user is empty. -/
structure Url where
  scheme : Url.Scheme
  user : List Char
  host : Url.Host
  port : Option Nat
  path : List (List Char)
  query : Option (List Char)
  fragment : Option (List Char)
deriving DecidableEq, Repr

namespace Url

/-- What stands between two parts of a URL, if the second is there. -/
def after (mark : Char) : Option (List Char) → List Char
  | some s => mark :: s
  | none => []

/-- The host and the port. -/
def authority (u : Url) : List Char :=
  u.host.text ++ after ':' (u.port.map fun n => (toString n).toList)

/-- The text of a URL without its fragment. -/
def resource (u : Url) : List Char :=
  u.scheme.name.toList ++ [':', '/', '/'] ++ (if u.user.isEmpty then [] else u.user ++ ['@'])
    ++ u.authority ++ Path.text u.path ++ after '?' u.query

/-- The text of a URL. -/
def text (u : Url) : List Char := u.resource ++ after '#' u.fragment

/-- The URL with another path. -/
def withPath (u : Url) (path : List Char) : Url :=
  { u with path := Path.parse (path.filter fun c => !Path.isDropped c) }

/-- The URL with a further segment at the end of its path. -/
def push (u : Url) (segment : String) : Url := { u with path := Path.push u.path segment.toList }

/-- The URL with a further pair at the end of its query. -/
def withPair (u : Url) (name value : String) : Url :=
  { u with query := some (Form.append (u.query.getD []) name.toList value.toList) }

/-- How the schemes that are known are read: those of the web and their like, files, and all others. -/
inductive Kind where
  | network (defaultPort : Nat)
  | file
  | unknown
deriving DecidableEq, Repr

/-- The kind of a scheme. -/
def kind (scheme : List Char) : Kind :=
  match String.ofList scheme with
  | "http" => .network 80
  | "https" => .network 443
  | "ws" => .network 80
  | "wss" => .network 443
  | "ftp" => .network 21
  | "file" => .file
  | _ => .unknown

/-- Whether a character is a control character or a blank. -/
def isMargin (c : Char) : Bool := c.toNat ≤ 32

/-- The text of a URL without what does not belong to it. -/
def clean (s : List Char) : List Char :=
  ((((s.dropWhile isMargin).reverse).dropWhile isMargin).reverse).filter fun c => !Path.isDropped c

/-- The rest of a scheme up to its colon, in lower case, and what follows. -/
def schemeRest : List Char → Option (List Char × List Char)
  | [] => none
  | ':' :: r => some ([], r)
  | c :: r =>
    if c.isAlphanum || c = '+' || c = '-' || c = '.' then
      (schemeRest r).map fun (name, r) => (c.toLower :: name, r)
    else none

/-- The scheme of a text, which begins with a letter, and what follows it. -/
def scheme? (s : List Char) : Option (List Char × List Char) :=
  match s with
  | c :: _ => if c.isAlpha then schemeRest s else none
  | [] => none

/-- Whether a character ends the part of a URL that names user, host and port. -/
def endsAuthority (kind : Kind) (c : Char) : Bool :=
  c = '/' || c = '?' || c = '#' || (c = '\\' && kind ≠ .unknown)

/-- What stands before the last character that satisfies a test, and what follows it. -/
def splitLast (p : Char → Bool) (s : List Char) : Option (List Char × List Char) :=
  let after := (s.reverse.takeWhile fun c => !p c).reverse
  if after.length = s.length then none else some (s.take (s.length - after.length - 1), after)

/-- The user in front of a host as it is written: name and password are encoded, and a colon without a password
is left out. -/
def writeUser (s : List Char) : List Char :=
  let name := s.takeWhile (· ≠ ':')
  let password := (s.dropWhile (· ≠ ':')).drop 1
  Percent.encodeText Percent.keptInUserinfo name
    ++ if password.isEmpty then [] else ':' :: Percent.encodeText Percent.keptInUserinfo password

/-- The host up to the colon of its port, which does not stand in brackets. -/
def takeHost : Bool → List Char → List Char × List Char
  | _, [] => ([], [])
  | inside, c :: r =>
    if c = ':' && !inside then ([], c :: r)
    else
      let inside := if c = '[' then true else if c = ']' then false else inside
      (c :: (takeHost inside r).1, (takeHost inside r).2)

/-- Reads the digits of a port. -/
def portDigits : Nat → List Char → Except UrlError Nat
  | n, [] => .ok n
  | n, c :: r =>
    if c.isDigit then
      let n := n * 10 + (c.toNat - 48)
      if 65535 < n then .error .badPort else portDigits n r
    else .error .badPort

/-- Reads what follows a host: nothing, or a colon and a port that may be left out. The default port is not
kept. -/
def parsePort (defaultPort : Option Nat) : List Char → Except UrlError (Option Nat)
  | ':' :: r =>
    match portDigits 0 r with
    | .ok n => .ok (if r.isEmpty || defaultPort = some n then none else some n)
    | .error e => .error e
  | _ => .ok none

/-- User, host and port. -/
structure Authority where
  user : List Char
  host : Host
  port : Option Nat

/-- Reads the part that names user, host and port; `follows` tells whether anything follows it. -/
def parseAuthority (idna : Idna) (kind : Kind) (s : List Char) (follows : Bool) : Except UrlError Authority :=
  let (user, rest) := (splitLast (· = '@') s).getD ([], s)
  let (name, port) := takeHost false rest
  if rest.length + 1 = s.length && rest.isEmpty && follows then .error .emptyHost
  else match kind with
    | .network defaultPort =>
      if name.isEmpty then .error .emptyHost
      else match Host.parse idna name with
        | .error e => .error e
        | .ok host =>
          match parsePort (some defaultPort) port with
          | .ok n => .ok ⟨writeUser user, host, n⟩
          | .error e => .error e
    | _ =>
      match Host.parseOpaque name with
      | .error e => .error e
      | .ok host =>
        if name.isEmpty && !port.isEmpty then .error .emptyHost
        else match parsePort none (port.takeWhile (· ≠ '\\')) with
          | .error e => .error e
          | .ok n =>
            if name.isEmpty && !(writeUser user).isEmpty then .error .emptyHost
            else .ok ⟨writeUser user, host, n⟩

/-- The query and the fragment at the end of a text that starts with a question mark or a number sign. -/
def parseTail (s : List Char) : Option (List Char) × Option (List Char) :=
  let fragment := match s.dropWhile (· ≠ '#') with
    | _ :: r => some (Percent.encodeText Percent.keptInFragment r)
    | [] => none
  match s.takeWhile (· ≠ '#') with
  | '?' :: r => (some (Percent.encodeText Percent.keptInQuery r), fragment)
  | _ => (none, fragment)

/-- Reads a URL of the web after its scheme. -/
def parseWeb (idna : Idna) (scheme : Scheme) (defaultPort : Nat) (s : List Char) : Except UrlError Url :=
  let s := s.dropWhile fun c => c = '/' || c = '\\'
  let kind := Kind.network defaultPort
  let place := s.takeWhile fun c => !endsAuthority kind c
  let rest := s.dropWhile fun c => !endsAuthority kind c
  match parseAuthority idna kind place (!rest.isEmpty) with
  | .error e => .error e
  | .ok a =>
    let (query, fragment) := parseTail (rest.dropWhile fun c => c ≠ '?' && c ≠ '#')
    .ok {
      scheme := scheme
      user := a.user
      host := a.host
      port := a.port
      path := Path.parse (rest.takeWhile fun c => c ≠ '?' && c ≠ '#')
      query := query
      fragment := fragment }

/-- Whether a text is the letter of a drive, which is no host. -/
def isDriveHost (s : List Char) : Bool := Path.isDrive s

/-- Checks a file URL after its scheme: its host, if it has one. -/
def checkFile (idna : Idna) (s : List Char) : Except UrlError Unit :=
  match s with
  | c :: d :: r =>
    if (c = '/' || c = '\\') && (d = '/' || d = '\\') then
      let host := r.takeWhile fun c => !endsAuthority .file c
      if host.isEmpty || isDriveHost host then .ok ()
      else (Host.parse idna host).map fun _ => ()
    else .ok ()
  | _ => .ok ()

/-- Checks a URL of another scheme after that scheme: user, host and port, if two slashes announce them. -/
def checkOther (idna : Idna) (kind : Kind) (s : List Char) : Except UrlError Unit :=
  match kind with
  | .network _ =>
    let s := s.dropWhile fun c => c = '/' || c = '\\'
    (parseAuthority idna kind (s.takeWhile fun c => !endsAuthority kind c)
      !(s.dropWhile fun c => !endsAuthority kind c).isEmpty).map fun _ => ()
  | .file => checkFile idna s
  | .unknown =>
    match s with
    | '/' :: '/' :: s =>
      (parseAuthority idna kind (s.takeWhile fun c => !endsAuthority kind c)
        !(s.dropWhile fun c => !endsAuthority kind c).isEmpty).map fun _ => ()
    | _ => .ok ()

/-- What a text that is a URL names: a URL of the web, or one of another scheme. -/
inductive Reference where
  | web (url : Url)
  | other (scheme : List Char)

/-- Reads a URL. -/
def parse (idna : Idna) (text : String) : Except UrlError Reference :=
  match scheme? (clean text.toList) with
  | none => .error .noScheme
  | some (scheme, rest) =>
    if scheme = ['h', 't', 't', 'p'] then (parseWeb idna .http 80 rest).map .web
    else if scheme = ['h', 't', 't', 'p', 's'] then (parseWeb idna .https 443 rest).map .web
    else (checkOther idna (kind scheme) rest).map fun _ => .other scheme

end Url
end Cadence
