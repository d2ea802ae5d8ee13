import Courier.Http.Percent
import Courier.Text.Numeral

/-!
# Absolute URLs

Reading a URL normalises it: blanks around it and line breaks within it are dropped, the scheme is
in lower case, segments of one dot vanish and segments of two dots take the segment before with
them unless that might name a drive, and characters that may not stand where they are become percent
escapes. An escape that is already there is kept as it is.

A few schemes are those of *services*: their URLs have a host in lower case, the port of the scheme
is left out, and a backslash is a slash up to the query. A request can be sent to `http` and
`https` only (`Url.isRequestable`). What follows any other scheme may be a path that is not made of
segments.

A fragment belongs to the URL but is not sent to a server: `Url.target` is without it.

A URL may be of any length here. That clients refuse to send a request to one of more than 65534
octets is left out.
-/

set_option autoImplicit false

namespace Courier.Http

open Courier.Text.Utf8 (Octet)

/-- The path of a URL. That of a service always consists of segments. -/
inductive UrlPath where
  /-- Segments, each after a slash, encoded. -/
  | segments (parts : List (List Char))
  /-- A text that is not made of segments, encoded. -/
  | flat (text : List Char)
  deriving DecidableEq, Repr

/-- A URL that has been read. Two texts that read as the same `Url` lead to the same resource, which
is why everything said about identifiers in paths is said about these. -/
structure Url where
  scheme : String
  host : Option String
  /-- The port, unless it is the scheme's own. -/
  port : Option Nat
  path : UrlPath
  query : Option (List Char)
  fragment : Option (List Char)
  deriving DecidableEq, Repr

namespace Url

/-- Printable ASCII, without the space. -/
def isGraphic (b : Octet) : Bool := 0x21 ≤ b && b ≤ 0x7E

/-- The octets that stand for themselves in a fragment: all graphic ones but `"`, `<`, `>` and the
backtick. -/
def keptInFragment (b : Octet) : Bool :=
  isGraphic b && !(b == 0x22 || b == 0x3C || b == 0x3E || b == 0x60)

/-- In a path, also not `#`, `?` and the braces. -/
def keptInPath (b : Octet) : Bool :=
  keptInFragment b && !(b == 0x23 || b == 0x3F || b == 0x7B || b == 0x7D)

/-- In a query, all graphic ones but `"`, `#`, `<` and `>`, and for a service the apostrophe. -/
def keptInQuery (service : Bool) (b : Octet) : Bool :=
  isGraphic b && !(b == 0x22 || b == 0x23 || b == 0x3C || b == 0x3E || (service && b == 0x27))

/-- In a path that is not made of segments, and in a host that is no service's: all printable ones.
-/
def keptFlat (b : Octet) : Bool := isGraphic b || b == 0x20

def isSlash (service : Bool) (c : Char) : Bool := c == '/' || (service && c == '\\')

/-- Splits a path at its slashes. -/
def split (service : Bool) : List Char → List (List Char)
  | [] => [[]]
  | c :: rest =>
    match split service rest with
    | [] => [[c]]
    | part :: more => if isSlash service c then [] :: part :: more else (c :: part) :: more

/-- A segment with escaped dots as dots and letters of escapes in lower case. -/
def unescapeDots : List Char → List Char
  | '%' :: '2' :: 'e' :: rest | '%' :: '2' :: 'E' :: rest => '.' :: unescapeDots rest
  | c :: rest => c :: unescapeDots rest
  | [] => []

/-- A segment that stays where it is. -/
def isSingleDot (segment : List Char) : Bool := unescapeDots segment == ['.']

/-- A segment that goes one up, escaped or not. -/
def isDoubleDot (segment : List Char) : Bool := unescapeDots segment == ['.', '.']

/-- A segment that might name a drive. The standard keeps those in the URLs of files only, but here
they are kept in all. -/
def isDrive : List Char → Bool
  | [letter, mark] => letter.isAlpha && (mark == ':' || mark == '|')
  | _ => false

/-- What two dots leave of a path in reverse. -/
def ascend : List (List Char) → List (List Char)
  | [] => []
  | segment :: above => if isDrive segment then segment :: above else above

/-- Resolves segments of dots and encodes the others. The path so far is in reverse. A path that
ends in a segment of dots ends in a slash. -/
def resolve : List (List Char) → List (List Char) → List (List Char)
  | done, [] => done.reverse
  | done, segment :: rest =>
    if isDoubleDot segment then
      resolve (if rest.isEmpty then [] :: ascend done else ascend done) rest
    else if isSingleDot segment then resolve (if rest.isEmpty then [] :: done else done) rest
    else resolve (percentEncode keptInPath segment :: done) rest

/-- The ports of the schemes of services. -/
def servicePort? : String → Option Nat
  | "http" | "ws" => some 80
  | "https" | "wss" => some 443
  | "ftp" => some 21
  | _ => none

/-- A service's host has no controls, blanks or delimiters. -/
def isHostChar (c : Char) : Bool :=
  0x21 ≤ c.toNat && c.toNat ≤ 0x7E &&
    !("#/<>?@\\^|%\"\x60\x7b\x7d".toList.contains c)

/-- A service's host: a name in lower case, or an address in brackets. -/
def serviceHost? (cs : List Char) : Option String :=
  if cs.isEmpty || !cs.all isHostChar then none
  else some (String.ofList (cs.map Char.toLower))

/-- Any other host, which may be empty. -/
def otherHost? (cs : List Char) : Option String :=
  if cs.any " #/<>?@\\^|".toList.contains then none
  else some (String.ofList (percentEncode keptFlat cs))

/-- Host and port. The port follows the last colon outside brackets. -/
def hostAndPort? (ordinary : Option Nat) (cs : List Char) : Option (String × Option Nat) :=
  let name : List Char × List Char :=
    match cs with
    | '[' :: _ =>
      let inside := cs.takeWhile (· != ']')
      (inside ++ [']'], cs.drop (inside.length + 1))
    | _ =>
      let name := cs.takeWhile (· != ':')
      (name, cs.drop name.length)
  (if ordinary.isSome then serviceHost? name.1 else otherHost? name.1).bind fun host =>
  match name.2 with
  | [] | [':'] => some (host, none)
  | ':' :: digits =>
    match Text.readDigits 65535 .tooLarge 0 digits with
    | .ok n => some (host, if some n = ordinary then none else some n)
    | .error _ => none
  | _ => none

/-- A character of a scheme after the first, which is a letter. -/
def isSchemeChar (c : Char) : Bool := c.isAlphanum || c == '+' || c == '-' || c == '.'

/-- A scheme and what follows its colon. -/
def scheme? (cs : List Char) : Option (String × List Char) :=
  let name := cs.takeWhile (· != ':')
  match cs.drop name.length with
  | ':' :: rest =>
    if (name.head?.any Char.isAlpha) && name.all isSchemeChar then
      some (String.ofList (name.map Char.toLower), rest)
    else none
  | _ => none

/-- Blanks that are dropped from the ends. -/
def isEdge (c : Char) : Bool := c.toNat ≤ 0x20

/-- Characters that are dropped wherever they stand. -/
def isBreak (c : Char) : Bool := c == '\t' || c == '\n' || c == '\r'

/-- A text without what is dropped before reading. -/
def cleaned (cs : List Char) : List Char :=
  let front := cs.dropWhile isEdge
  ((front.reverse.dropWhile isEdge).reverse).filter fun c => !isBreak c

/-- Path, query and fragment, the last two encoded. -/
def parts (service : Bool) (cs : List Char) :
    List Char × Option (List Char) × Option (List Char) :=
  let beforeFragment := cs.takeWhile (· != '#')
  let fragment := (cs.drop beforeFragment.length).tail?
  let path := beforeFragment.takeWhile (· != '?')
  let query := (beforeFragment.drop path.length).tail?
  (path, query.map (percentEncode (keptInQuery service)),
    fragment.map (percentEncode keptInFragment))

/-- The segments of a path, which begins with a slash or is empty. -/
def segmentsOf (service : Bool) (path : List Char) : UrlPath :=
  match path with
  | [] => .segments (if service then [[]] else [])
  | _ :: below => .segments (resolve [] (split service below))

/-- A URL with an authority, which comes after the slashes. Names and passwords of users are not
kept. -/
def withAuthority? (scheme : String) (ordinary : Option Nat) (cs : List Char) : Option Url :=
  let service := ordinary.isSome
  let authority := cs.takeWhile fun c => !(isSlash service c || c == '?' || c == '#')
  let place := (authority.reverse.takeWhile (· != '@')).reverse
  (hostAndPort? ordinary place).map fun (host, port) =>
    let found := parts service (cs.drop authority.length)
    ⟨scheme, some host, port, segmentsOf service found.1, found.2.1, found.2.2⟩

/-- A URL without an authority. -/
def withoutAuthority (scheme : String) (cs : List Char) : Url :=
  let found := parts false cs
  let path := match found.1 with
    | '/' :: _ => segmentsOf false found.1
    | path => .flat (percentEncode keptFlat path)
  ⟨scheme, none, none, path, found.2.1, found.2.2⟩

/-- Reads an absolute URL. Nothing when it is relative, or a service's without a host. -/
def parse? (s : String) : Option Url :=
  (scheme? (cleaned s.toList)).bind fun (scheme, rest) =>
  match servicePort? scheme, rest with
  | some n, _ => withAuthority? scheme (some n) (rest.dropWhile (isSlash true))
  | none, '/' :: '/' :: rest => withAuthority? scheme none rest
  | none, _ => some (withoutAuthority scheme rest)

/-- Is this the URL of a service that can be sent a request? -/
def isRequestable (u : Url) : Bool := u.scheme == "http" || u.scheme == "https"

/-- Adds a pair to the query of a URL with a host. -/
def withPair (u : Url) (name value : String) : Url :=
  let pair := formEncode name ++ '=' :: formEncode value
  if u.host.any (· ≠ "") then
    { u with query := some (match u.query with
        | none | some [] => pair
        | some q => q ++ '&' :: pair) }
  else u

/-- What a server gets to see. -/
def requestPath (u : Url) : List Char :=
  (match u.path with
    | .segments parts => parts.flatMap ('/' :: ·)
    | .flat text => text) ++
  (match u.query with
    | some q => '?' :: q
    | none => [])

/-- The URL without its fragment. -/
def target (u : Url) : String :=
  u.scheme ++ ":" ++
    (match u.host with
      | some host => "//" ++ host
      | none => "") ++
    (match u.port with
      | some n => ":" ++ toString n
      | none => "") ++
    String.ofList u.requestPath

/-- The URL as a whole. -/
def text (u : Url) : String :=
  u.target ++ (match u.fragment with
    | some f => String.ofList ('#' :: f)
    | none => "")

instance : ToString Url := ⟨Url.text⟩

end Url

/-- The address of a service: what paths are appended to, without the slashes at its end. -/
def baseOf (address : String) : String :=
  String.ofList (address.toList.reverse.dropWhile (· == '/')).reverse

end Courier.Http
