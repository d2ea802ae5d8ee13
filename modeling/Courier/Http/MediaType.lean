/-!
# Media types

A media type is two names with a slash between them, and parameters. A body is JSON when the type
is `application` and the second name is `json` or ends in the suffix `+json`, in any letter case. A
text that is no media type names none.
-/

set_option autoImplicit false

namespace Courier.Http.MediaType

/-- A character of a name. -/
def isTokenChar (c : Char) : Bool :=
  c.isAlphanum || "!#$%&'*+-.^_\x60|~".toList.contains c

/-- What follows the value of a parameter. -/
def afterQuoted : List Char → Option (List Char)
  | [] => none
  | '"' :: rest => some rest
  | c :: rest => if c.toNat < 0x20 ∨ c.toNat = 0x7F then none else afterQuoted rest

/-- One parameter after its semicolon, and the rest behind the next one. -/
def parameter? (cs : List Char) : Option (List Char) :=
  let start := cs.dropWhile (· == ' ')
  let name := start.takeWhile isTokenChar
  match name, start.drop name.length with
  | _ :: _, '=' :: '"' :: rest =>
    match afterQuoted rest with
    | some [] => some []
    | some (';' :: rest) => some rest
    | _ => none
  | _ :: _, '=' :: rest =>
    let value := rest.takeWhile isTokenChar
    match value, rest.drop value.length with
    | _ :: _, [] => some []
    | _ :: _, ';' :: rest => some rest
    | _, _ => none
  | _, _ => none

/-- Are these parameters? The fuel is their length. -/
def parameters : Nat → List Char → Bool
  | _, [] => true
  | 0, _ => false
  | fuel + 1, cs =>
    match parameter? cs with
    | some rest => parameters fuel rest
    | none => false

/-- A name up to its last plus sign, and what follows that. -/
def suffixOf (name : List Char) : List Char × List Char :=
  let suffix := (name.reverse.takeWhile (· != '+')).reverse
  if suffix.length = name.length then (name, [])
  else (name.take (name.length - suffix.length - 1), suffix)

/-- Does a header announce JSON? This decides whether the body of a call is looked at. -/
def isJson (header : String) : Bool :=
  let cs := header.toList
  let kind := cs.takeWhile isTokenChar
  match cs.drop kind.length with
  | '/' :: rest =>
    let name := rest.takeWhile isTokenChar
    let more := rest.drop name.length
    let wellFormed := match more with
      | [] => true
      | c :: params => (c == ';' || c == ' ') && parameters params.length params
    let parts := suffixOf (name.map Char.toLower)
    wellFormed && kind.map Char.toLower == "application".toList &&
      (parts.1 == "json".toList || parts.2 == "json".toList)
  | _ => false

end Courier.Http.MediaType
