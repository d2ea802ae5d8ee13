import Courier.Json.Codec

/-!
# Shapes of records

The shape of a record type lists its fields in order: the name of each, whether it may be absent,
how it is written and how it is read. A record is written as an object, with its fields in that
order; it is read from an object, or from an array of the fields in that order.

Reading starts from a blank record and sets one field after the other. An unknown name is passed
over; a name that comes again is a fault at once; what is missing is found out at the end, in the
order of the shape. In an array a field may be missing only if it has a default.
-/

set_option autoImplicit false

namespace Courier

/-- May a field be absent? -/
inductive Presence where
  | required
  /-- Absent from an object it is nothing. -/
  | optional
  /-- Absent it has the value of the blank record. -/
  | defaulted
  deriving DecidableEq, Repr

/-- A field of the record type `ρ`. -/
structure Slot (ρ : Type) where
  name : String
  presence : Presence
  /-- The field of a record, unless it is left out. -/
  write : ρ → Option Json
  /-- Sets the field. -/
  read : Source → Document → ρ → Except Fault ρ

namespace Slot

variable {ρ β : Type}

/-- A field that is always written. -/
def plain (name : String) (presence : Presence) (c : Codec β) (get : ρ → β) (set : β → ρ → ρ) :
    Slot ρ :=
  ⟨name, presence, fun r => some (c.encode (get r)),
    fun source d r => (c.decode source d).map (set · r)⟩

/-- A field that is written when there is something to write. -/
def present (name : String) (presence : Presence) (c : Codec β) (get : ρ → Option β)
    (set : Option β → ρ → ρ) : Slot ρ :=
  ⟨name, presence, fun r => (get r).map c.encode,
    fun source d r => (Decoder.option c.decode source d).map (set · r)⟩

end Slot

/-- A record type as JSON. -/
structure Shape (ρ : Type) where
  /-- What messages call the type. -/
  title : String
  blank : ρ
  slots : List (Slot ρ)

namespace Shape

variable {ρ : Type}

/-- Reads fields; gives the names that were there, the last first. -/
def readFields (slots : List (Slot ρ)) (source : Source) :
    List String → ρ → List (Document × Document) → Except Fault (List String × ρ)
  | seen, r, [] => .ok (seen, r)
  | seen, r, (.text (some name), d) :: rest =>
    match slots.find? fun slot => slot.name == name with
    | none => do
      Decoder.skipped d
      readFields slots source seen r rest
    | some slot =>
      if seen.contains name then .error (.here (.duplicateField name))
      else do
        let r ← (slot.read source d r).mapError (Fault.below (.field name))
        readFields slots source (name :: seen) r rest
  | _, _, _ => .error .malformed

/-- The first field that had to be there and was not. -/
def missing? (slots : List (Slot ρ)) (seen : List String) : Option String :=
  (slots.find? fun slot => decide (slot.presence = .required) && !seen.contains slot.name).map
    (·.name)

/-- How many elements an array may have, in words. -/
def elements (n : Nat) : String := toString n ++ (if n = 1 then " element" else " elements")

/-- Reads items from a given place on; gives those that are left over. -/
def readItems (expected : String) (source : Source) (closed : Bool) :
    Nat → List (Slot ρ) → ρ → List Document → Except Fault (ρ × List Document)
  | _, [], r, rest => .ok (r, rest)
  | n, slot :: slots, r, [] =>
    if !closed then .error .malformed
    else if slot.presence = .defaulted then readItems expected source closed (n + 1) slots r []
    else .error (.here (.wrongLength n expected))
  | n, slot :: slots, r, d :: rest => do
    let r ← (slot.read source d r).mapError (Fault.below (.item n))
    readItems expected source closed (n + 1) slots r rest

/-- A record, from an object or from an array. A field that is missing is found out only when the
object has come to its end: a fault further on in the text is told before it. -/
def decode (shape : Shape ρ) : Decoder ρ
  | source, .object fields closed => do
    let inner ← source.enter
    let (seen, r) ← readFields shape.slots inner [] shape.blank fields
    if closed then
      match missing? shape.slots seen with
      | some name => .error (.here (.missingField name))
      | none => return r
    else .error .malformed
  | source, .array items closed => do
    let inner ← source.enter
    let expected := "struct " ++ shape.title ++ " with " ++ elements shape.slots.length
    let (r, rest) ← readItems expected inner closed 0 shape.slots shape.blank items
    if rest.isEmpty then
      if closed then return r else .error .malformed
    else
      match source with
      | .held => .error (.here (.wrongLength items.length "fewer elements in array"))
      | .text _ => .error .malformed
  | _, d => .error (Decoder.mismatch ("struct " ++ shape.title) d)

/-- The fields of a record, in the order of its shape. -/
def fields (shape : Shape ρ) (r : ρ) : List (String × Json) :=
  shape.slots.filterMap fun slot => (slot.write r).map fun v => (slot.name, v)

def encode (shape : Shape ρ) (r : ρ) : Json := .object (shape.fields r)

/-- The codec of a record type. -/
def codec (shape : Shape ρ) : Codec ρ := ⟨shape.decode, shape.encode⟩

end Shape

end Courier
