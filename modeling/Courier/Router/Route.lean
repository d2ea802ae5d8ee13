import Courier.Http.Percent

/-!
# Routes

Which call a method and a path name. A path matches as it is written: no slash more or less, letters
in their case. A part of the path that stands for an identifier may be anything but empty, and is
kept as it was sent.

A path that exists for other methods tells which; `HEAD` goes wherever `GET` does.
-/

set_option autoImplicit false

namespace Courier.Router

/-- What a caller wants. -/
inductive Route where
  | health
  | create
  | list
  | find (id : List Char)
  | report (id : List Char)
  | notFound
  | notAllowed (allow : String)
  deriving DecidableEq, Repr

/-- The parts of a path between its slashes. -/
def pathParts (path : String) : List (List Char) := split path.toList
where
  /-- Splits at slashes. -/
  split : List Char → List (List Char)
  | [] => [[]]
  | c :: rest =>
    match split rest with
    | [] => [[c]]
    | part :: more => if c = '/' then [] :: part :: more else (c :: part) :: more

def isRead (method : String) : Bool := method == "GET" || method == "HEAD"

/-- The route of a method and a path. Whether the path exists is settled before the method is looked
at. -/
def route (method path : String) : Route :=
  match (pathParts path).map String.ofList with
  | ["", "health"] => if isRead method then .health else .notAllowed "GET,HEAD"
  | ["", "api", "v1", "notifications"] =>
    if method = "POST" then .create
    else if isRead method then .list
    else .notAllowed "POST,GET,HEAD"
  | ["", "api", "v1", "notifications", id] =>
    if id = "" then .notFound
    else if isRead method then .find id.toList
    else .notAllowed "GET,HEAD"
  | ["", "api", "v1", "notifications", id, "status"] =>
    if id = "" then .notFound
    else if method = "POST" then .report id.toList
    else .notAllowed "POST"
  | _ => .notFound

end Courier.Router
