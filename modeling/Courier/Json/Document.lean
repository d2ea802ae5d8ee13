import Courier.Json.Value

/-!
# JSON documents

A document is what a decoder looks at: a tree of JSON text as far as the text can be read. Where the
text breaks off, the tree does too (`malformed`, or a container that is not `closed`), so that a
decoder which goes through it from left to right meets the first fault of either kind where it
stands, and a fault of the data before it wins. Fields keep their order and their repetitions.

A number too large for a double and a string with half a surrogate pair have no value, which matters
only to a decoder that asks for it.

That a document is more than a value matters in one place only: which of two faults is told. A value
is a document that is whole (`Document.ofJson`), and on those a decoder meets faults of the data
alone.
-/

set_option autoImplicit false

namespace Courier

/-- A JSON text as far as it can be read. A field's name is a document too: a text, or something
else in a place where a name should stand. -/
inductive Document where
  | malformed
  | null
  | bool (b : Bool)
  | number (n : Option JsonNumber)
  | text (s : Option String)
  | array (items : List Document) (closed : Bool)
  | object (fields : List (Document × Document)) (closed : Bool)
  deriving Inhabited

namespace Document

mutual

/-- The document of a value. -/
def ofJson : Json → Document
  | .null => .null
  | .bool b => .bool b
  | .number n => .number (some n)
  | .string s => .text (some s)
  | .array items => .array (ofItems items) true
  | .object fields => .object (ofFields fields) true

def ofItems : List Json → List Document
  | [] => []
  | x :: rest => ofJson x :: ofItems rest

def ofFields : List (String × Json) → List (Document × Document)
  | [] => []
  | (k, x) :: rest => (.text (some k), ofJson x) :: ofFields rest

end

mutual

/-- Does the text go on to the end of this document? Names must be texts; whether a number or a text
has a value does not matter. -/
def complete : Document → Bool
  | .malformed => false
  | .null | .bool _ | .number _ | .text _ => true
  | .array items closed => closed && completeItems items
  | .object fields closed => closed && completeFields fields

def completeItems : List Document → Bool
  | [] => true
  | d :: rest => complete d && completeItems rest

def completeFields : List (Document × Document) → Bool
  | [] => true
  | (.text _, d) :: rest => complete d && completeFields rest
  | (_, _) :: _ => false

end

end Document

end Courier
