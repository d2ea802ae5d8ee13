import Courier.Json.Value
import Courier.Text.Quoted

/-!
# Faults of decoding

A document fails to decode because its text is no JSON (`malformed`) or because of the data in it. A
fault of the data has a cause and the path of fields and items that leads to it; the message of the
cause does not depend on the path.
-/

set_option autoImplicit false

namespace Courier

/-- What was found in place of the data wanted. -/
inductive Found where
  | null
  | bool (b : Bool)
  | number (n : JsonNumber)
  | text (s : String)
  | sequence
  | mapping
  deriving DecidableEq, Repr

/-- Why the data is not acceptable. -/
inductive Cause where
  | wrongType (found : Found) (expected : String)
  | wrongValue (found : Found) (expected : String)
  | wrongLength (length : Nat) (expected : String)
  | missingField (name : String)
  | duplicateField (name : String)
  | unknownVariant (text : String) (known : List String)
  | badUuid
  | badTime
  deriving DecidableEq, Repr

/-- A step into a document. -/
inductive PathStep where
  | field (name : String)
  | item (index : Nat)
  deriving DecidableEq, Repr

/-- Why a document does not decode. -/
inductive Fault where
  | malformed
  | data (path : List PathStep) (cause : Cause)
  deriving DecidableEq, Repr

namespace Found

/-- What was found, as a message names it. Texts are quoted. -/
def message : Found → String
  | .null => "null"
  | .bool b => "boolean \x60" ++ (if b then "true" else "false") ++ "\x60"
  | .number (.integer i) => "integer \x60" ++ toString i ++ "\x60"
  | .number (.double d) => "floating point \x60" ++ Json.numberLayout.text d ++ "\x60"
  | .text s => "string " ++ Text.quoted s
  | .sequence => "sequence"
  | .mapping => "map"

end Found

namespace Cause

/-- A name in a message. -/
def named (s : String) : String := "\x60" ++ s ++ "\x60"

/-- The variants one may write: one, either of two, or one of several. -/
def choice : List String → String
  | [] => "there are no variants"
  | [a] => named a
  | [a, b] => named a ++ " or " ++ named b
  | several => "one of " ++ String.intercalate ", " (several.map named)

/-- The message of a cause. It names what was found first and what was wanted last. -/
def message : Cause → String
  | .wrongType found expected => "invalid type: " ++ found.message ++ ", expected " ++ expected
  | .wrongValue found expected => "invalid value: " ++ found.message ++ ", expected " ++ expected
  | .wrongLength length expected =>
    "invalid length " ++ toString length ++ ", expected " ++ expected
  | .missingField name => "missing field " ++ named name
  | .duplicateField name => "duplicate field " ++ named name
  | .unknownVariant text known =>
    "unknown variant " ++ named text ++ ", expected " ++ choice known
  | .badUuid => "UUID parsing failed"
  | .badTime => "invalid date-time"

end Cause

namespace Fault

/-- A fault found one step further in. -/
def below (step : PathStep) : Fault → Fault
  | .malformed => .malformed
  | .data path cause => .data (step :: path) cause

/-- A fault of the data right here. -/
def here (cause : Cause) : Fault := .data [] cause

end Fault

/-- The text of a path: names set off by points, places of items in brackets. -/
def pathText : List PathStep → String
  | [] => ""
  | .field name :: rest => name ++ more rest
  | .item n :: rest => "[" ++ toString n ++ "]" ++ more rest
where
  /-- The steps after the first. -/
  more : List PathStep → String
  | [] => ""
  | .field name :: rest => "." ++ name ++ more rest
  | .item n :: rest => "[" ++ toString n ++ "]" ++ more rest

end Courier
