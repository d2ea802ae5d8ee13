import Courier.Json.Fault
import Courier.Json.Scan
import Courier.Time.DateTime

/-!
# Decoders

A decoder takes a document for a value of a type. It knows where the document comes from: a *text*
may be nested 127 levels deep, and some faults of shape make it malformed; a value already *held*
has no such limit, and the same faults are faults of its data.

Data that nobody asks for is passed over whatever it is, as long as the text goes on (`skipped`).
-/

set_option autoImplicit false

namespace Courier

/-- Where a document comes from. -/
inductive Source where
  /-- A text, of which that many levels may still be entered, one being kept in reserve. -/
  | text (levels : Nat)
  /-- A value in memory. -/
  | held
  deriving DecidableEq, Repr

/-- The levels of a whole text. -/
def Source.wholeText : Source := .text 128

/-- Goes into an array or an object. -/
def Source.enter : Source → Except Fault Source
  | .text 0 | .text 1 => .error .malformed
  | .text (n + 2) => .ok (.text (n + 1))
  | .held => .ok .held

/-- A way to take a document for a value. -/
abbrev Decoder (α : Type) := Source → Document → Except Fault α

namespace Decoder

/-- The fault of a document that is not of the wanted kind. What has no value is malformed. -/
def mismatch (expected : String) : Document → Fault
  | .malformed | .number none | .text none => .malformed
  | .null => .here (.wrongType .null expected)
  | .bool b => .here (.wrongType (.bool b) expected)
  | .number (some n) => .here (.wrongType (.number n) expected)
  | .text (some s) => .here (.wrongType (.text s) expected)
  | .array _ _ => .here (.wrongType .sequence expected)
  | .object _ _ => .here (.wrongType .mapping expected)

/-- Passes over a document. -/
def skipped (d : Document) : Except Fault Unit :=
  if d.complete then .ok () else .error .malformed

/-- A text that `expected` describes. -/
def textFor (expected : String) : Decoder String
  | _, .text (some s) => .ok s
  | _, d => .error (mismatch expected d)

def string : Decoder String := textFor "a string"

def bool : Decoder Bool
  | _, .bool b => .ok b
  | _, d => .error (mismatch "a boolean" d)

/-- A whole number from `least` to `greatest`. -/
def integer (expected : String) (least greatest : Int) : Decoder Int
  | _, .number (some (.integer i)) =>
    if least ≤ i ∧ i ≤ greatest then .ok i
    else .error (.here (.wrongValue (.number (.integer i)) expected))
  | _, d => .error (mismatch expected d)

/-- A natural number up to `greatest`. It is bounded below by zero, so that a negative number is
found to be of the wrong value and not of the wrong type. -/
def natural (expected : String) (greatest : Nat) : Decoder Nat := fun source d =>
  (integer expected 0 greatest source d).map Int.toNat

/-- An identifier, in any of the forms that `Uuid.parse?` reads. -/
def uuid : Decoder Uuid := fun source d => do
  let s ← textFor "a formatted UUID string" source d
  match Uuid.parse? s with
  | some u => .ok u
  | none => .error (.here .badUuid)

/-- A point of time, in the tolerant form that `DateTime.parse?` reads. -/
def time : Decoder DateTime := fun source d => do
  let s ← textFor "an RFC 3339 formatted date and time string" source d
  match DateTime.parse? s with
  | some t => .ok t
  | none => .error (.here .badTime)

/-- Nothing, or a value. -/
def option {α : Type} (decode : Decoder α) : Decoder (Option α)
  | _, .null => .ok none
  | source, d => (decode source d).map some

/-- Decodes the items from a given place on. -/
def listItems {α : Type} (decode : Decoder α) (source : Source) :
    Nat → List Document → Except Fault (List α)
  | _, [] => .ok []
  | n, d :: rest => do
    let x ← (decode source d).mapError (Fault.below (.item n))
    let more ← listItems decode source (n + 1) rest
    return x :: more

/-- A list of values. The brackets cost a level. -/
def list {α : Type} (decode : Decoder α) : Decoder (List α)
  | source, .array items closed => do
    let inner ← source.enter
    let xs ← listItems decode inner 0 items
    if closed then return xs else .error .malformed
  | _, d => .error (mismatch "a sequence" d)

/-- Decodes the entries of an object; a later one replaces an earlier one of its name. -/
def dictEntries {α : Type} (decode : Decoder α) (source : Source) :
    Dict α → List (Document × Document) → Except Fault (Dict α)
  | acc, [] => .ok acc
  | acc, (.text (some k), d) :: rest => do
    let x ← (decode source d).mapError (Fault.below (.field k))
    dictEntries decode source (acc.insert k x) rest
  | _, _ => .error .malformed

/-- A map of values by their names. -/
def dict {α : Type} (decode : Decoder α) : Decoder (Dict α)
  | source, .object fields closed => do
    let inner ← source.enter
    let entries ← dictEntries decode inner Dict.empty fields
    if closed then return entries else .error .malformed
  | _, d => .error (mismatch "a map" d)

mutual

/-- Any value. -/
def free : Source → Document → Except Fault Json
  | _, .malformed | _, .number none | _, .text none => .error .malformed
  | _, .null => .ok .null
  | _, .bool b => .ok (.bool b)
  | _, .number (some n) => .ok (.number n)
  | _, .text (some s) => .ok (.string s)
  | source, .array items closed =>
    match source.enter with
    | .error e => .error e
    | .ok inner =>
      match freeItems inner items with
      | .error e => .error e
      | .ok xs => if closed then .ok (.array xs) else .error .malformed
  | source, .object fields closed =>
    match source.enter with
    | .error e => .error e
    | .ok inner =>
      match freeFields inner Dict.empty fields with
      | .error e => .error e
      | .ok entries => if closed then .ok (Json.ofDict entries) else .error .malformed

def freeItems : Source → List Document → Except Fault (List Json)
  | _, [] => .ok []
  | source, d :: rest =>
    match free source d with
    | .error e => .error e
    | .ok x =>
      match freeItems source rest with
      | .error e => .error e
      | .ok more => .ok (x :: more)

def freeFields : Source → Dict Json → List (Document × Document) → Except Fault (Dict Json)
  | _, acc, [] => .ok acc
  | source, acc, (.text (some k), d) :: rest =>
    match free source d with
    | .error e => .error e
    | .ok x => freeFields source (acc.insert k x) rest
  | _, _, _ => .error .malformed

end

/-- Takes the name of a variant. -/
def variant {α : Type} (table : List (String × α)) (name : String) : Except Fault α :=
  match table.lookup name with
  | some x => .ok x
  | none => .error (.here (.unknownVariant name (table.map (·.1))))

/-- The null that may stand beside the name of a variant. -/
def unit : Document → Except Fault Unit
  | .null => .ok ()
  | d => .error (mismatch "unit" d)

/-- One of several names, given as a text or as the only name of an object, with null. -/
def label {α : Type} (table : List (String × α)) : Decoder α
  | _, .text (some s) => variant table s
  | .text n, .object fields closed => do
    let _ ← Source.enter (.text n)
    match fields with
    | [] => .error .malformed
    | (name, d) :: rest =>
      let s ← textFor "variant identifier" .held name
      let x ← variant table s
      (unit d).mapError (Fault.below (.field s))
      if closed && rest.isEmpty then return x else .error .malformed
  | .text _, _ => .error .malformed
  | .held, .object fields _ =>
    match fields with
    | [(.text (some s), d)] => do
      let x ← variant table s
      (unit d).mapError (Fault.below (.field s))
      return x
    | _ => .error (.here (.wrongValue .mapping "map with a single key"))
  | .held, d => .error (mismatch "string or map" d)

/-- Decodes a whole text, which nothing but blanks may follow. -/
def ofText {α : Type} (decode : Decoder α) (s : String) : Except Fault α :=
  let found := Document.ofText s
  match decode .wholeText found.1 with
  | .error e => .error e
  | .ok x => if found.2 then .ok x else .error .malformed

/-- Decodes a value in memory. -/
def ofJson {α : Type} (decode : Decoder α) (v : Json) : Except Fault α :=
  decode .held (.ofJson v)

end Decoder

/-- Reads a text as a value. -/
def Json.parse? (s : String) : Option Json := (Decoder.ofText Decoder.free s).toOption

end Courier
