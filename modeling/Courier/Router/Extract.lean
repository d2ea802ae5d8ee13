import Courier.Http.MediaType
import Courier.Http.Percent
import Courier.Json.Decoder

/-!
# Taking requests apart

The identifier in a path, the pairs of a query and the body of a request, each with the answer that
a caller gets when it cannot be taken: the status code and a line of text.

What is looked at first decides which answer a bad request gets: of the body, what it is said to be,
its length, whether it is JSON at all, and only then whether it is the right data.
-/

set_option autoImplicit false

namespace Courier.Router

/-- Why a request cannot be taken apart. -/
inductive BadRequest where
  /-- The identifier in the path does not spell a text. -/
  | idNotText
  | idNotUuid (text : String)
  | query (message : String)
  | mediaType
  /-- The body is longer than is taken in. -/
  | bodyTooLong
  | bodyMalformed
  | bodyData (path : List PathStep) (cause : Cause)
  deriving DecidableEq, Repr

namespace BadRequest

def status : BadRequest → Nat
  | .idNotText | .idNotUuid _ | .query _ | .bodyMalformed => 400
  | .bodyTooLong => 413
  | .mediaType => 415
  | .bodyData _ _ => 422

/-- A message, after the place it is about if there is one. -/
def located (place message : String) : String :=
  if place = "" then message else place ++ ": " ++ message

def message : BadRequest → String
  | .idNotText => "Invalid URL: Invalid UTF-8 in \x60id\x60"
  | .idNotUuid text =>
    "Invalid URL: Cannot parse \x60id\x60 with value \x60" ++ text ++ "\x60: " ++
      Cause.message .badUuid
  | .query message => "Failed to deserialize query string: " ++ message
  | .mediaType => "Expected request with \x60Content-Type: application/json\x60"
  | .bodyTooLong => "Failed to buffer the request body: length limit exceeded"
  | .bodyMalformed => "Failed to parse the request body as JSON"
  | .bodyData path cause =>
    "Failed to deserialize the JSON body into the target type: " ++
      located (pathText path) cause.message

end BadRequest

/-- The identifier in a path. -/
def readId (encoded : List Char) : Except BadRequest Uuid :=
  match Text.Utf8.decode? (Http.percentDecode (Text.Utf8.encode encoded)) with
  | none => .error .idNotText
  | some text =>
    match Uuid.parse? text with
    | some id => .ok id
    | none => .error (.idNotUuid text)

/-- How many octets of a body are taken in: two mebibytes, which is what the router does with when
it is not told otherwise. -/
def greatestBody : Nat := 2097152

/-- The body of a request with a content type. What it is said to be is looked at first, and then
how long it is; only then is it read. -/
def readBody {α : Type} (decode : Decoder α) (contentType : Option String) (body : String) :
    Except BadRequest α :=
  if contentType.any Http.MediaType.isJson then
    if body.utf8ByteSize ≤ greatestBody then
      match Decoder.ofText decode body with
      | .ok x => .ok x
      | .error .malformed => .error .bodyMalformed
      | .error (.data path cause) => .error (.bodyData path cause)
    else .error .bodyTooLong
  else .error .mediaType

/-! ## The query of a list -/

/-- Whose notifications, how many, and how many to pass over. -/
structure ListQuery where
  userId : String
  limit : Int
  offset : Int
  deriving DecidableEq, Repr

/-- The pairs of a query so far. -/
structure ListDraft where
  userId : Option String := none
  limit : Option Int := none
  offset : Option Int := none

/-- A whole number of 64 bits. -/
def readWhole (name value : String) : Except BadRequest Int :=
  match Text.readInt 9223372036854775808 9223372036854775807 value with
  | .ok n => .ok n
  | .error fault => .error (.query (BadRequest.located name fault.message))

def duplicate (name : String) : BadRequest := .query (Cause.message (.duplicateField name))

/-- Takes one pair; a name of no meaning is passed over. A name that comes twice is refused, even
with the same value. -/
def ListDraft.take (d : ListDraft) (name value : String) : Except BadRequest ListDraft :=
  match name with
  | "user_id" =>
    if d.userId.isSome then .error (duplicate name) else .ok { d with userId := some value }
  | "limit" =>
    if d.limit.isSome then .error (duplicate name)
    else (readWhole name value).map fun n => { d with limit := some n }
  | "offset" =>
    if d.offset.isSome then .error (duplicate name)
    else (readWhole name value).map fun n => { d with offset := some n }
  | _ => .ok d

/-- How many notifications a list shows if nothing is said. -/
def defaultLimit : Int := 20

/-- The query of a list. Without a user there is none. -/
def readListQuery (query : String) : Except BadRequest ListQuery := do
  let d ← (Http.formPairs query.toList).foldlM
    (fun (d : ListDraft) pair => d.take pair.1 pair.2) {}
  match d.userId with
  | none => throw (.query (Cause.message (.missingField "user_id")))
  | some userId => return ⟨userId, d.limit.getD defaultLimit, d.offset.getD 0⟩

namespace ListQuery

/-- The greatest length of a list. -/
def greatestLimit : Int := 100

/-- The length that is asked of the store: from 1 to 100. -/
def page (q : ListQuery) : Int := max 1 (min q.limit greatestLimit)

/-- The number to pass over that is asked of the store: not negative. -/
def start (q : ListQuery) : Int := max q.offset 0

end ListQuery

end Courier.Router
